import Mathlib

/-!
JSON texts as RFC 8259 has them, over bytes. The grammar reads a part of a text and leaves
the rest. What it takes for a number is a parameter, so that readings with other numbers can
be compared with it.
-/

namespace Rufux.Library

/-- A JSON value. An array is a node without names: each of its members carries the empty one. -/
inductive Json where
  | null
  | bool (value : Bool)
  | num (token : List UInt8)
  | str (text : List UInt8)
  | node (named : Bool) (members : List (List UInt8 × Json))

namespace Json

/-- A value that stands in a tree, at any depth. -/
inductive Within (part : Json) : Json → Prop
  | self : Within part part
  | member {named : Bool} {members : List (List UInt8 × Json)} {name : List UInt8} {kid : Json} :
      (name, kid) ∈ members → Within part kid → Within part (.node named members)

/-! ### Tokens -/

def isWs (byte : UInt8) : Bool := byte = 32 || byte = 9 || byte = 10 || byte = 13

def Ws (text : List UInt8) : Prop := ∀ byte ∈ text, isWs byte = true

def isDigit (byte : UInt8) : Bool := 48 ≤ byte && byte ≤ 57

def Digits (text : List UInt8) : Prop := ∀ byte ∈ text, isDigit byte = true

inductive WholePart : List UInt8 → Prop
  | zero : WholePart [48]
  | digits {first : UInt8} {rest : List UInt8} :
      isDigit first = true → first ≠ 48 → Digits rest → WholePart (first :: rest)

theorem WholePart.all_digits {whole : List UInt8} (valid : WholePart whole) :
    Digits whole ∧ whole ≠ [] := by
  cases valid with
  | zero => exact ⟨by simp [Digits, isDigit], by simp⟩
  | digits first _ rest => exact ⟨by simpa [Digits] using ⟨first, rest⟩, by simp⟩

inductive Fraction : List UInt8 → Prop
  | absent : Fraction []
  | digits {digits : List UInt8} : digits ≠ [] → Digits digits → Fraction (46 :: digits)

inductive Exponent : List UInt8 → Prop
  | absent : Exponent []
  | digits {mark : UInt8} {sign digits : List UInt8} : mark = 101 ∨ mark = 69 →
      sign = [] ∨ sign = [43] ∨ sign = [45] → digits ≠ [] → Digits digits →
      Exponent (mark :: sign ++ digits)

/-- `number = [ minus ] int [ frac ] [ exp ]` -/
def Number (token : List UInt8) : Prop :=
  ∃ minus whole fraction exponent, (minus = [] ∨ minus = [45]) ∧ WholePart whole ∧
    Fraction fraction ∧ Exponent exponent ∧ token = minus ++ (whole ++ (fraction ++ exponent))

/-- The bytes that a number is written with. -/
theorem Number.bytes {token : List UInt8} (valid : Number token) {byte : UInt8}
    (inside : byte ∈ token) : isDigit byte = true ∨ byte ∈ [43, 45, 46, 69, 101] := by
  obtain ⟨minus, whole, fraction, exponent, sign, int, decimals, power, rfl⟩ := valid
  rcases List.mem_append.mp inside with inside | inside
  · rcases sign with rfl | rfl
    · nomatch inside
    · obtain rfl := List.mem_singleton.mp inside
      exact .inr (by decide)
  · rcases List.mem_append.mp inside with inside | inside
    · exact .inl (int.all_digits.1 byte inside)
    · rcases List.mem_append.mp inside with inside | inside
      · cases decimals with
        | absent => nomatch inside
        | digits _ all =>
          rcases List.mem_cons.mp inside with rfl | inside
          · exact .inr (by decide)
          · exact .inl (all byte inside)
      · cases power with
        | absent => nomatch inside
        | digits letter signed _ all =>
          rcases List.mem_append.mp inside with inside | inside
          · rcases List.mem_cons.mp inside with rfl | inside
            · rcases letter with rfl | rfl <;> exact .inr (by decide)
            · rcases signed with rfl | rfl | rfl
              · nomatch inside
              · obtain rfl := List.mem_singleton.mp inside
                exact .inr (by decide)
              · obtain rfl := List.mem_singleton.mp inside
                exact .inr (by decide)
          · exact .inl (all byte inside)

/-! ### Strings -/

/-- What one character of a string stands for: a byte, or the UTF-16 unit of a `\u` escape. -/
inductive Part where
  | byte (byte : UInt8)
  | unit (unit : Nat)

/-- The letters that may follow a backslash, and the byte each stands for. -/
def escapes : List (UInt8 × UInt8) :=
  [(34, 34), (92, 92), (47, 47), (98, 8), (102, 12), (110, 10), (114, 13), (116, 9)]

def hexDigit (byte : UInt8) : Option Nat :=
  if 48 ≤ byte ∧ byte ≤ 57 then some (byte.toNat - 48)
  else if 97 ≤ byte ∧ byte ≤ 102 then some (byte.toNat - 87)
  else if 65 ≤ byte ∧ byte ≤ 70 then some (byte.toNat - 55)
  else none

/-- The characters between the quotation marks. -/
inductive Chars : List UInt8 → List Part → Prop
  | nil : Chars [] []
  | plain {byte : UInt8} {body : List UInt8} {parts : List Part} : 32 ≤ byte → byte ≠ 34 →
      byte ≠ 92 → Chars body parts → Chars (byte :: body) (.byte byte :: parts)
  | escape {letter byte : UInt8} {body : List UInt8} {parts : List Part} :
      (letter, byte) ∈ escapes → Chars body parts →
      Chars (92 :: letter :: body) (.byte byte :: parts)
  | unit {a b c d : UInt8} {w x y z : Nat} {body : List UInt8} {parts : List Part} :
      hexDigit a = some w → hexDigit b = some x → hexDigit c = some y → hexDigit d = some z →
      Chars body parts →
      Chars (92 :: 117 :: a :: b :: c :: d :: body)
        (.unit (((w * 16 + x) * 16 + y) * 16 + z) :: parts)

def IsHigh (unit : Nat) : Prop := 0xD800 ≤ unit ∧ unit < 0xDC00

def IsLow (unit : Nat) : Prop := 0xDC00 ≤ unit ∧ unit < 0xE000

instance : DecidablePred IsHigh := fun _ => inferInstanceAs (Decidable (_ ∧ _))

instance : DecidablePred IsLow := fun _ => inferInstanceAs (Decidable (_ ∧ _))

def pairPoint (high low : Nat) : Nat := 0x10000 + (high - 0xD800) * 0x400 + (low - 0xDC00)

/-- A code point as UTF-8 writes it, an unpaired surrogate in the same way. -/
def encodePoint (point : Nat) : List UInt8 :=
  if point < 0x80 then [UInt8.ofNat point]
  else if point < 0x800 then [UInt8.ofNat (0xC0 + point / 64), UInt8.ofNat (0x80 + point % 64)]
  else if point < 0x10000 then
    [UInt8.ofNat (0xE0 + point / 4096), UInt8.ofNat (0x80 + point / 64 % 64),
      UInt8.ofNat (0x80 + point % 64)]
  else
    [UInt8.ofNat (0xF0 + point / 262144), UInt8.ofNat (0x80 + point / 4096 % 64),
      UInt8.ofNat (0x80 + point / 64 % 64), UInt8.ofNat (0x80 + point % 64)]

/-- The unit that ends a surrogate pair. -/
def lowFirst : List Part → Option Nat
  | .unit unit :: _ => if IsLow unit then some unit else none
  | _ => none

theorem lowFirst_eq_some {parts : List Part} {low : Nat} (follows : lowFirst parts = some low) :
    IsLow low ∧ ∃ rest, parts = .unit low :: rest := by
  unfold lowFirst at follows
  split at follows
  · rename_i unit rest
    split at follows
    · rename_i isLow
      obtain rfl := Option.some.inj follows
      exact ⟨isLow, rest, rfl⟩
    · nomatch follows
  · nomatch follows

/-- The string that the characters stand for. Two units that form a surrogate pair are one
code point, and `nul` takes the place of an escaped NUL. -/
def decode (nul : Nat) : List Part → List UInt8
  | [] => []
  | .byte byte :: parts => byte :: decode nul parts
  | .unit unit :: parts =>
    if IsHigh unit then
      match lowFirst parts with
      | some low => encodePoint (pairPoint unit low) ++ decode nul parts.tail
      | none => encodePoint unit ++ decode nul parts
    else encodePoint (if unit = 0 then nul else unit) ++ decode nul parts
termination_by parts => parts.length

/-- The bytes are the UTF-8 form of a string of Unicode scalar values. -/
def Utf8 (text : List UInt8) : Prop := ∃ chars : List Char, text = chars.flatMap String.utf8EncodeChar

/-! ### Values -/

/-- What a piece of a text is read as. -/
inductive Reading where
  | value (value : Json)
  | member (named : Bool) (name : List UInt8) (value : Json)
  | members (named : Bool) (members : List (List UInt8 × Json))

def opening (named : Bool) : UInt8 := if named then 123 else 91

def closing (named : Bool) : UInt8 := if named then 125 else 93

/-- `text` starts with the reading and `rest` is left. At most `levels` values with members
contain one another. The members of a node are read with the bracket that closes it. -/
inductive Reads (number : List UInt8 → List UInt8 → Prop) (nul : Nat) :
    Nat → Reading → List UInt8 → List UInt8 → Prop
  | null {levels : Nat} {rest : List UInt8} :
      Reads number nul levels (.value .null) (110 :: 117 :: 108 :: 108 :: rest) rest
  | yes {levels : Nat} {rest : List UInt8} :
      Reads number nul levels (.value (.bool true)) (116 :: 114 :: 117 :: 101 :: rest) rest
  | no {levels : Nat} {rest : List UInt8} :
      Reads number nul levels (.value (.bool false)) (102 :: 97 :: 108 :: 115 :: 101 :: rest) rest
  | num {levels : Nat} {token rest : List UInt8} : number token rest →
      Reads number nul levels (.value (.num token)) (token ++ rest) rest
  | str {levels : Nat} {body rest : List UInt8} {parts : List Part} : Chars body parts →
      Reads number nul levels (.value (.str (decode nul parts))) (34 :: (body ++ 34 :: rest)) rest
  | empty {levels : Nat} {named : Bool} {space rest : List UInt8} : Ws space →
      Reads number nul levels (.value (.node named []))
        (opening named :: (space ++ closing named :: rest)) rest
  | node {levels : Nat} {named : Bool} {members : List (List UInt8 × Json)}
      {text rest : List UInt8} : Reads number nul levels (.members named members) text rest →
      Reads number nul (levels + 1) (.value (.node named members)) (opening named :: text) rest
  | element {levels : Nat} {value : Json} {space text rest : List UInt8} : Ws space →
      Reads number nul levels (.value value) text rest →
      Reads number nul levels (.member false [] value) (space ++ text) rest
  | pair {levels : Nat} {value : Json} {first second third body text rest : List UInt8}
      {parts : List Part} : Ws first → Chars body parts → Ws second → Ws third →
      Reads number nul levels (.value value) text rest →
      Reads number nul levels (.member true (decode nul parts) value)
        (first ++ 34 :: (body ++ 34 :: (second ++ 58 :: (third ++ text)))) rest
  | last {levels : Nat} {named : Bool} {name : List UInt8} {value : Json}
      {text space rest : List UInt8} :
      Reads number nul levels (.member named name value) text (space ++ closing named :: rest) →
      Ws space → Reads number nul levels (.members named [(name, value)]) text rest
  | more {levels : Nat} {named : Bool} {name : List UInt8} {value : Json}
      {members : List (List UInt8 × Json)} {text space next rest : List UInt8} :
      Reads number nul levels (.member named name value) text (space ++ 44 :: next) →
      Ws space → Reads number nul levels (.members named members) next rest →
      Reads number nul levels (.members named ((name, value) :: members)) text rest

def byteOrderMark : List UInt8 := [0xEF, 0xBB, 0xBF]

/-- The text reads as a value with white space around it, behind a byte order mark or not. -/
def Whole (number : List UInt8 → List UInt8 → Prop) (nul levels : Nat) (text : List UInt8)
    (value : Json) : Prop :=
  ∃ before body after, (text = before ++ body ∨ text = byteOrderMark ++ (before ++ body)) ∧
    Ws before ∧ Reads number nul levels (.value value) body after ∧ Ws after

/-- `JSON-text = ws value ws`, with the numbers of the grammar, in UTF-8. -/
def IsJson (nul levels : Nat) (text : List UInt8) (value : Json) : Prop :=
  Utf8 text ∧ Whole (fun token _ => Number token) nul levels text value

/-! ### Readings with other numbers -/

variable {number other : List UInt8 → List UInt8 → Prop} {nul levels : Nat}

theorem Reads.length_le {reading : Reading} {text rest : List UInt8}
    (reads : Reads number nul levels reading text rest) : rest.length ≤ text.length := by
  induction reads with
  | null | yes | no => simp only [List.length_cons]; omega
  | num | str | empty => simp only [List.length_cons, List.length_append]; omega
  | node _ ih => simp only [List.length_cons]; omega
  | element _ _ ih => simp only [List.length_append]; omega
  | pair _ _ _ _ _ ih => simp only [List.length_cons, List.length_append]; omega
  | last _ _ ih =>
    simp only [List.length_cons, List.length_append] at ih
    omega
  | more _ _ _ first rest =>
    simp only [List.length_cons, List.length_append] at first
    omega

theorem Ws.append {first second : List UInt8} (left : Ws first) (right : Ws second) :
    Ws (first ++ second) := by
  intro byte inside
  rcases List.mem_append.mp inside with inside | inside
  · exact left byte inside
  · exact right byte inside

theorem Reads.spacedMember {named : Bool} {name : List UInt8} {tree : Json}
    {space text rest : List UInt8} (ws : Ws space)
    (reads : Reads number nul levels (.member named name tree) text rest) :
    Reads number nul levels (.member named name tree) (space ++ text) rest := by
  cases reads with
  | element blank reads =>
    rw [← List.append_assoc]
    exact .element (ws.append blank) reads
  | pair first chars second third reads =>
    rw [← List.append_assoc]
    exact .pair (ws.append first) chars second third reads

theorem Reads.spaced {named : Bool} {members : List (List UInt8 × Json)}
    {space text rest : List UInt8} (ws : Ws space)
    (reads : Reads number nul levels (.members named members) text rest) :
    Reads number nul levels (.members named members) (space ++ text) rest := by
  cases reads with
  | last member blank => exact .last (member.spacedMember ws) blank
  | more member blank others => exact .more (member.spacedMember ws) blank others

/-- A value that stands in what is read. -/
def Reading.Holds (part : Json) : Reading → Prop
  | .value tree => Within part tree
  | .member _ _ tree => Within part tree
  | .members _ list => ∃ member ∈ list, Within part member.2

theorem Within.of_node {part : Json} {named : Bool} {members : List (List UInt8 × Json)}
    (different : ∀ named members, part ≠ .node named members)
    (within : Within part (.node named members)) : ∃ member ∈ members, Within part member.2 := by
  cases within with
  | self => exact absurd rfl (different named members)
  | member inside within => exact ⟨_, inside, within⟩

/-- What every number is, every number of the tree is. -/
theorem Reads.numbers {reading : Reading} {text rest : List UInt8}
    (reads : Reads number nul levels reading text rest) {kind : List UInt8 → Prop}
    (all : ∀ token rest, number token rest → kind token) {token : List UInt8}
    (held : reading.Holds (.num token)) : kind token := by
  induction reads with
  | null | yes | no | str => nomatch held
  | empty => simpa using held.of_node (by simp)
  | num fits =>
    cases held with
    | self => exact all _ _ fits
  | node _ ih => exact ih (held.of_node (by simp))
  | element _ _ ih => exact ih held
  | pair _ _ _ _ _ ih => exact ih held
  | last _ _ ih =>
    obtain ⟨member, inside, within⟩ := held
    obtain rfl := List.mem_singleton.mp inside
    exact ih within
  | more _ _ _ first rest =>
    obtain ⟨member, inside, within⟩ := held
    rcases List.mem_cons.mp inside with rfl | inside
    · exact first within
    · exact rest ⟨member, inside, within⟩

/-- Where the numbers of the tree are numbers of another reading too, the text has that
reading. -/
theorem Reads.restrict {reading : Reading} {text rest : List UInt8}
    (reads : Reads number nul levels reading text rest)
    (all : ∀ token rest, number token rest → reading.Holds (.num token) → other token rest) :
    Reads other nul levels reading text rest := by
  induction reads with
  | null => exact .null
  | yes => exact .yes
  | no => exact .no
  | str chars => exact .str chars
  | empty space => exact .empty space
  | num fits => exact .num (all _ _ fits .self)
  | node _ ih =>
    refine .node (ih fun token rest fits held => all token rest fits ?_)
    obtain ⟨member, inside, within⟩ := held
    exact .member inside within
  | element space _ ih => exact .element space (ih all)
  | pair first chars second third _ ih => exact .pair first chars second third (ih all)
  | last _ space ih =>
    exact .last (ih fun token rest fits held => all token rest fits ⟨_, List.mem_singleton_self _, held⟩)
      space
  | more _ space _ first rest =>
    refine .more (first fun token rest fits held => all token rest fits ⟨_, List.mem_cons_self, held⟩)
      space (rest fun token rest fits held => all token rest fits ?_)
    obtain ⟨member, inside, within⟩ := held
    exact ⟨member, List.mem_cons_of_mem _ inside, within⟩

/-- What may stand behind a number in a text. -/
def Delimited (rest : List UInt8) : Prop :=
  ∀ char, rest.head? = some char → isWs char = true ∨ char = 44 ∨ char = 93 ∨ char = 125

theorem Delimited.spaced {space : List UInt8} (ws : Ws space) {char : UInt8}
    (mark : char = 44 ∨ char = 93 ∨ char = 125) (rest : List UInt8) :
    Delimited (space ++ char :: rest) := by
  intro first head
  cases space with
  | nil =>
    obtain rfl := Option.some.inj head
    exact .inr mark
  | cons blank space =>
    obtain rfl := Option.some.inj head
    exact .inl (ws _ List.mem_cons_self)

theorem Ws.delimited {space : List UInt8} (ws : Ws space) : Delimited space := by
  intro first head
  cases space with
  | nil => nomatch head
  | cons blank space =>
    obtain rfl := Option.some.inj head
    exact .inl (ws _ List.mem_cons_self)

theorem closing_mark (named : Bool) :
    closing named = 44 ∨ closing named = 93 ∨ closing named = 125 := by
  cases named <;> decide

/-- Every number of a text is followed by white space, by a comma or bracket, or by nothing. -/
theorem Reads.delimited {reading : Reading} {text rest : List UInt8}
    (reads : Reads number nul levels reading text rest) (left : Delimited rest) :
    Reads (fun token rest => number token rest ∧ Delimited rest) nul levels reading text rest := by
  induction reads with
  | null => exact .null
  | yes => exact .yes
  | no => exact .no
  | str chars => exact .str chars
  | empty space => exact .empty space
  | num fits => exact .num ⟨fits, left⟩
  | node _ ih => exact .node (ih left)
  | element space _ ih => exact .element space (ih left)
  | pair first chars second third _ ih => exact .pair first chars second third (ih left)
  | @last levels named name tree text space rest _ ws ih =>
    exact .last (ih (Delimited.spaced ws (closing_mark named) rest)) ws
  | @more levels named name tree members text space next rest _ ws _ first others =>
    exact .more (first (Delimited.spaced ws (.inl rfl) next)) ws (others left)

theorem Whole.delimited {text : List UInt8} {tree : Json} (whole : Whole number nul levels text tree) :
    Whole (fun token rest => number token rest ∧ Delimited rest) nul levels text tree := by
  obtain ⟨before, body, after, split, space, reads, left⟩ := whole
  exact ⟨before, body, after, split, space, reads.delimited left.delimited, left⟩

theorem Whole.restrict {text : List UInt8} {tree : Json} (whole : Whole number nul levels text tree)
    (all : ∀ token rest, number token rest → Within (.num token) tree → other token rest) :
    Whole other nul levels text tree := by
  obtain ⟨before, body, after, split, space, reads, left⟩ := whole
  exact ⟨before, body, after, split, space, reads.restrict all, left⟩

theorem Whole.numbers {text : List UInt8} {tree : Json} (whole : Whole number nul levels text tree)
    {kind : List UInt8 → Prop} (all : ∀ token rest, number token rest → kind token)
    {token : List UInt8} (within : Within (.num token) tree) : kind token := by
  obtain ⟨before, body, after, split, space, reads, left⟩ := whole
  exact reads.numbers all within

end Json

end Rufux.Library
