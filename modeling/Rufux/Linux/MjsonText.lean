import Rufux.Library.Checked
import Rufux.Library.Utf8
import Rufux.Linux.MjsonGrammar

/-!
Strings of JSON documents as texts: what RFC 8259 makes of a literal, and when the reader's bytes
are the UTF-8 form of it.
-/

namespace Rufux.Linux

open Library Json

/-! ### Literals -/

/-- The letters that may follow a backslash, and the character each stands for. -/
def namedEscapes : List (Char × Char) :=
  [('"', '"'), ('\\', '\\'), ('/', '/'), ('b', '\x08'), ('f', '\x0c'), ('n', '\n'), ('r', '\x0d'),
    ('t', '\t')]

def charDigit (char : Char) : Option Nat :=
  if char.toNat < 128 then hexDigit (UInt8.ofNat char.toNat) else none

/-- The UTF-16 unit that four digits name. -/
def unitOf (a b c d : Char) : Option Nat := do
  let w ← charDigit a
  let x ← charDigit b
  let y ← charDigit c
  let z ← charDigit d
  pure (((w * 16 + x) * 16 + y) * 16 + z)

def IsSurrogate (unit : Nat) : Prop := IsHigh unit ∨ IsLow unit

/-- The text of the characters between two quotation marks. An escaped NUL is U+FFFD. -/
inductive Denotes : List Char → List Char → Prop
  | nil : Denotes [] []
  | plain {char : Char} {body text : List Char} : 32 ≤ char.toNat → char ≠ '"' → char ≠ '\\' →
      Denotes body text → Denotes (char :: body) (char :: text)
  | escape {letter char : Char} {body text : List Char} : (letter, char) ∈ namedEscapes →
      Denotes body text → Denotes ('\\' :: letter :: body) (char :: text)
  | unit {a b c d : Char} {unit : Nat} {body text : List Char} : unitOf a b c d = some unit →
      ¬IsSurrogate unit → Denotes body text →
      Denotes ('\\' :: 'u' :: a :: b :: c :: d :: body)
        (Char.ofNat (if unit = 0 then 0xFFFD else unit) :: text)
  | pair {a b c d a' b' c' d' : Char} {high low : Nat} {body text : List Char} :
      unitOf a b c d = some high → IsHigh high → unitOf a' b' c' d' = some low → IsLow low →
      Denotes body text →
      Denotes
        ('\\' :: 'u' :: a :: b :: c :: d :: '\\' :: 'u' :: a' :: b' :: c' :: d' :: body)
        (Char.ofNat (pairPoint high low) :: text)

/-- Every escaped surrogate is half of a pair. -/
def Paired : List Part → Prop
  | [] => True
  | .byte _ :: parts => Paired parts
  | .unit unit :: parts =>
    if IsHigh unit then
      match lowFirst parts with
      | some _ => Paired parts.tail
      | none => False
    else ¬IsLow unit ∧ Paired parts
termination_by parts => parts.length

theorem paired_byte {byte : UInt8} {parts : List Part} :
    Paired (.byte byte :: parts) ↔ Paired parts := by
  rw [Paired]

theorem paired_pair {high low : Nat} {parts : List Part} (first : IsHigh high)
    (second : IsLow low) : Paired (.unit high :: .unit low :: parts) ↔ Paired parts := by
  rw [Paired, if_pos first]
  simp only [lowFirst, if_pos second, List.tail_cons]

theorem paired_scalar {unit : Nat} {parts : List Part} (scalar : ¬IsSurrogate unit) :
    Paired (.unit unit :: parts) ↔ Paired parts := by
  obtain ⟨high, low⟩ := not_or.mp scalar
  rw [Paired, if_neg high, and_iff_right low]

/-! ### Bytes and characters -/

theorem ofNat_toNat_ascii {char : Char} {byte : UInt8} (same : char.toNat = byte.toNat) :
    UInt8.ofNat char.toNat = byte := by
  rw [same, UInt8.ofNat_toNat]

theorem encodePoint_scalar {point : Nat} (small : point < 0x110000)
    (scalar : ¬IsSurrogate point) : encodePoint point = String.utf8EncodeChar (Char.ofNat point) := by
  have valid : point.isValidChar := by
    unfold Nat.isValidChar
    unfold IsSurrogate IsHigh IsLow at scalar
    omega
  have value : (Char.ofNat point).val.toNat = point := by
    rw [Char.ofNat, dif_pos valid]
    rfl
  unfold encodePoint String.utf8EncodeChar
  rw [value]
  dsimp only
  by_cases one : point < 0x80
  · have small : point ≤ 0x7f := Nat.le_of_lt_succ one
    rw [if_pos one, if_pos small]
  · have large : ¬point ≤ 0x7f := by omega
    rw [if_neg one, if_neg large]
    by_cases two : point < 0x800
    · have small : point ≤ 0x7ff := Nat.le_of_lt_succ two
      have lead : 0xC0 + point / 64 = point / 64 % 0x20 + 0xC0 := by omega
      rw [if_pos two, if_pos small, lead, Nat.add_comm 0x80]
    · have large : ¬point ≤ 0x7ff := by omega
      rw [if_neg two, if_neg large]
      by_cases three : point < 0x10000
      · have small : point ≤ 0xffff := Nat.le_of_lt_succ three
        have lead : 0xE0 + point / 4096 = point / 4096 % 0x10 + 0xE0 := by omega
        rw [if_pos three, if_pos small, lead, Nat.add_comm 0x80, Nat.add_comm 0x80]
      · have large : ¬point ≤ 0xffff := by omega
        have lead : 0xF0 + point / 262144 = point / 262144 % 0x08 + 0xF0 := by omega
        rw [if_neg three, if_neg large, lead, Nat.add_comm 0x80, Nat.add_comm 0x80,
          Nat.add_comm 0x80]

theorem encodePoint_surrogate {point : Nat} (surrogate : IsSurrogate point) :
    encodePoint point = threeBytes point := by
  unfold IsSurrogate IsHigh IsLow at surrogate
  rw [encodePoint, if_neg (by omega), if_neg (by omega), if_pos (by omega)]
  rfl

theorem hexDigit_ascii {byte : UInt8} {value : Nat} (digit : hexDigit byte = some value) :
    byte.toNat < 128 := by
  have named : byte ≤ 127 := by
    unfold hexDigit at digit
    split at digit
    · rename_i range
      exact UInt8.le_trans range.2 (by decide)
    · split at digit
      · rename_i range
        exact UInt8.le_trans range.2 (by decide)
      · split at digit
        · rename_i range
          exact UInt8.le_trans range.2 (by decide)
        · cases digit
  exact Nat.lt_succ_of_le named

/-- A digit in front of an encoded text. -/
theorem digit_cons {byte : UInt8} {rest : List UInt8} {text : List Char} {value : Nat}
    (digit : hexDigit byte = some value) (same : byte :: rest = utf8 text) :
    ∃ char left, text = char :: left ∧ charDigit char = some value ∧ rest = utf8 left := by
  have ascii := hexDigit_ascii digit
  obtain ⟨char, left, rfl, equal, later⟩ := utf8_ascii_cons ascii same
  refine ⟨char, left, rfl, ?_, later⟩
  rw [charDigit, if_pos (by omega), ofNat_toNat_ascii equal, digit]

/-- The four digits of an escape in front of an encoded text. -/
theorem unit_cons {a b c d : UInt8} {w x y z : Nat} {rest : List UInt8} {text : List Char}
    (first : hexDigit a = some w) (second : hexDigit b = some x) (third : hexDigit c = some y)
    (fourth : hexDigit d = some z) (same : a :: b :: c :: d :: rest = utf8 text) :
    ∃ a' b' c' d' left, text = a' :: b' :: c' :: d' :: left ∧
      unitOf a' b' c' d' = some (((w * 16 + x) * 16 + y) * 16 + z) ∧ rest = utf8 left := by
  obtain ⟨a', text, rfl, one, same⟩ := digit_cons first same
  obtain ⟨b', text, rfl, two, same⟩ := digit_cons second same
  obtain ⟨c', text, rfl, three, same⟩ := digit_cons third same
  obtain ⟨d', text, rfl, four, same⟩ := digit_cons fourth same
  exact ⟨a', b', c', d', text, rfl, by simp [unitOf, one, two, three, four], same⟩

theorem char_of_ascii {byte : UInt8} {rest : List UInt8} {text : List Char} (char : Char)
    (ascii : char.toNat < 128) (equal : char.toNat = byte.toNat) (same : byte :: rest = utf8 text) :
    ∃ left, text = char :: left ∧ rest = utf8 left := by
  obtain ⟨other, left, rfl, named, later⟩ := utf8_ascii_cons (by omega) same
  have one : other = char := Char.ext (UInt32.toNat_inj.mp (named.trans equal.symm))
  exact ⟨left, by rw [one], later⟩

theorem unit_lt {a b c d : UInt8} {w x y z : Nat} (first : hexDigit a = some w)
    (second : hexDigit b = some x) (third : hexDigit c = some y) (fourth : hexDigit d = some z) :
    ((w * 16 + x) * 16 + y) * 16 + z < 0x10000 := by
  have one := hexDigit_lt first
  have two := hexDigit_lt second
  have three := hexDigit_lt third
  have four := hexDigit_lt fourth
  omega

/-- The character and the letter of a plain escape. -/
theorem escape_cons {letter byte : UInt8} {rest : List UInt8} {text : List Char}
    (listed : (letter, byte) ∈ escapes) (same : letter :: rest = utf8 text) :
    ∃ letter' char left, text = letter' :: left ∧ (letter', char) ∈ namedEscapes ∧
      String.utf8EncodeChar char = [byte] ∧ rest = utf8 left := by
  simp only [escapes, List.mem_cons, Prod.mk.injEq, List.not_mem_nil, or_false] at listed
  rcases listed with ⟨rfl, rfl⟩ | ⟨rfl, rfl⟩ | ⟨rfl, rfl⟩ | ⟨rfl, rfl⟩ | ⟨rfl, rfl⟩ |
    ⟨rfl, rfl⟩ | ⟨rfl, rfl⟩ | ⟨rfl, rfl⟩
  · obtain ⟨left, rfl, later⟩ := char_of_ascii '"' (by decide) rfl same
    exact ⟨_, '"', left, rfl, by decide, rfl, later⟩
  · obtain ⟨left, rfl, later⟩ := char_of_ascii '\\' (by decide) rfl same
    exact ⟨_, '\\', left, rfl, by decide, rfl, later⟩
  · obtain ⟨left, rfl, later⟩ := char_of_ascii '/' (by decide) rfl same
    exact ⟨_, '/', left, rfl, by decide, rfl, later⟩
  · obtain ⟨left, rfl, later⟩ := char_of_ascii 'b' (by decide) rfl same
    exact ⟨_, '\x08', left, rfl, by decide, rfl, later⟩
  · obtain ⟨left, rfl, later⟩ := char_of_ascii 'f' (by decide) rfl same
    exact ⟨_, '\x0c', left, rfl, by decide, rfl, later⟩
  · obtain ⟨left, rfl, later⟩ := char_of_ascii 'n' (by decide) rfl same
    exact ⟨_, '\n', left, rfl, by decide, rfl, later⟩
  · obtain ⟨left, rfl, later⟩ := char_of_ascii 'r' (by decide) rfl same
    exact ⟨_, '\x0d', left, rfl, by decide, rfl, later⟩
  · obtain ⟨left, rfl, later⟩ := char_of_ascii 't' (by decide) rfl same
    exact ⟨_, '\t', left, rfl, by decide, rfl, later⟩

/-! ### What the reader makes of a literal -/

/-- Bytes that are not ASCII stand for themselves. -/
theorem chars_high {bytes rest : List UInt8} {parts : List Part}
    (high : ∀ byte ∈ bytes, 128 ≤ byte.toNat) (chars : Chars (bytes ++ rest) parts) :
    ∃ later, parts = bytes.map .byte ++ later ∧ Chars rest later := by
  induction bytes generalizing parts with
  | nil => exact ⟨parts, rfl, chars⟩
  | cons byte bytes ih =>
    have large := high byte List.mem_cons_self
    rw [List.cons_append] at chars
    generalize same : bytes ++ rest = body at chars
    cases chars with
    | plain _ _ _ chars =>
      subst same
      obtain ⟨later, rfl, left⟩ := ih (fun other member => high other (.tail _ member)) chars
      exact ⟨later, rfl, left⟩
    | escape _ _ => exact absurd large (by decide)
    | unit _ _ _ _ _ => exact absurd large (by decide)

theorem decode_bytes (bytes : List UInt8) (parts : List Part) :
    decode 0xFFFD (bytes.map .byte ++ parts) = bytes ++ decode 0xFFFD parts := by
  induction bytes with
  | nil => rfl
  | cons byte bytes ih => rw [List.map_cons, List.cons_append, decode_byte, ih, List.cons_append]

theorem paired_bytes (bytes : List UInt8) (parts : List Part) :
    Paired (bytes.map .byte ++ parts) ↔ Paired parts := by
  induction bytes with
  | nil => exact Iff.rfl
  | cons byte bytes ih => rw [List.map_cons, List.cons_append, paired_byte, ih]

/-- Where every surrogate is paired, the bytes are those of the text; elsewhere the first one that
is not stands among them behind a text. -/
def Outcome (literal : List Char) (parts : List Part) : Prop :=
  (Paired parts ∧ ∃ text, Denotes literal text ∧ decode 0xFFFD parts = utf8 text) ∨
    (¬Paired parts ∧ ∃ front point rest, IsSurrogate point ∧
      decode 0xFFFD parts = utf8 front ++ (threeBytes point ++ rest))

theorem Outcome.push {literal left : List Char} {parts later : List Part} {char : Char}
    (outcome : Outcome left later)
    (decodes : decode 0xFFFD parts = String.utf8EncodeChar char ++ decode 0xFFFD later)
    (pairs : Paired parts ↔ Paired later)
    (denotes : ∀ text, Denotes left text → Denotes literal (char :: text)) :
    Outcome literal parts := by
  rcases outcome with ⟨paired, text, means, bytes⟩ | ⟨unpaired, front, point, rest, half, bytes⟩
  · refine .inl ⟨pairs.mpr paired, char :: text, denotes text means, ?_⟩
    rw [decodes, bytes, utf8_cons]
  · refine .inr ⟨fun paired => unpaired (pairs.mp paired), char :: front, point, rest, half, ?_⟩
    rw [decodes, bytes, utf8_cons, List.append_assoc]

theorem Outcome.alone {literal : List Char} {parts later : List Part} {unit : Nat}
    (half : IsSurrogate unit) (unpaired : ¬Paired parts)
    (decodes : decode 0xFFFD parts = encodePoint unit ++ decode 0xFFFD later) :
    Outcome literal parts :=
  .inr ⟨unpaired, [], unit, decode 0xFFFD later, half, by
    rw [decodes, encodePoint_surrogate half, utf8_nil, List.nil_append]⟩

theorem pairPoint_scalar {high low : Nat} : ¬IsSurrogate (pairPoint high low) := by
  unfold IsSurrogate IsHigh IsLow pairPoint
  omega

theorem decode_scalar {unit : Nat} {parts : List Part} (small : unit < 0x10000)
    (scalar : ¬IsSurrogate unit) : decode 0xFFFD (.unit unit :: parts) =
      String.utf8EncodeChar (Char.ofNat (if unit = 0 then 0xFFFD else unit)) ++
        decode 0xFFFD parts := by
  have shown : ¬IsSurrogate (if unit = 0 then 0xFFFD else unit) := by
    split
    · unfold IsSurrogate IsHigh IsLow
      omega
    · exact scalar
  rw [decode_unit fun high => absurd (.inl high) scalar,
    encodePoint_scalar (by split <;> omega) shown]

theorem literal_outcome {literal : List Char} {parts : List Part}
    (chars : Chars (utf8 literal) parts) : Outcome literal parts := by
  induction size : literal.length using Nat.strongRecOn generalizing literal parts with
  | ind size ih =>
    subst size
    cases literal with
    | nil =>
      cases chars
      exact .inl ⟨by rw [Paired]; trivial, [], .nil, by rw [decode]; rfl⟩
    | cons char left =>
      have shorter : left.length < (char :: left).length := Nat.lt_succ_self _
      by_cases high : 128 ≤ char.toNat
      · obtain ⟨later, rfl, remaining⟩ := chars_high (fun _ => utf8EncodeChar_high high) chars
        have plain (text : List Char) : Denotes left text → Denotes (char :: left) (char :: text) := by
          refine .plain (by omega) ?_ ?_
          · rintro rfl
            exact absurd high (by decide)
          · rintro rfl
            exact absurd high (by decide)
        exact (ih left.length shorter remaining rfl).push (decode_bytes _ _) (paired_bytes _ _) plain
      · have ascii : char.toNat < 128 := Nat.lt_of_not_le high
        have value : (UInt8.ofNat char.toNat).toNat = char.toNat := by
          rw [UInt8.toNat_ofNat', Nat.mod_eq_of_lt (by omega)]
        have encoded := utf8EncodeChar_ascii ascii
        rw [utf8_cons, encoded, List.singleton_append] at chars
        generalize UInt8.ofNat char.toNat = first at chars value encoded
        generalize bodyEq : utf8 left = body at chars
        cases chars with
        | @plain byte _ later visible quote backslash chars =>
          subst bodyEq
          have plain (text : List Char) :
              Denotes left text → Denotes (char :: left) (char :: text) := by
            refine .plain ?_ ?_ ?_
            · have bound : 32 ≤ first.toNat := visible
              omega
            · rintro rfl
              exact quote (UInt8.toNat_inj.mp value)
            · rintro rfl
              exact backslash (UInt8.toNat_inj.mp value)
          refine (ih left.length shorter chars rfl).push ?_ paired_byte plain
          rw [decode_byte, encoded, List.singleton_append]
        | @escape letter byte body later listed chars =>
          have mark : char = '\\' := Char.ext (UInt32.toNat_inj.mp value.symm)
          subst mark
          obtain ⟨letter', char, rest, rfl, named, stands, rfl⟩ := escape_cons listed bodyEq.symm
          have less : rest.length < ('\\' :: letter' :: rest).length := by
            simp only [List.length_cons]
            omega
          refine (ih rest.length less chars rfl).push ?_ paired_byte fun text => .escape named
          rw [decode_byte, stands, List.singleton_append]
        | @unit a b c d w x y z body later one two three four chars =>
          have mark : char = '\\' := Char.ext (UInt32.toNat_inj.mp value.symm)
          subst mark
          obtain ⟨rest, rfl, digits⟩ := char_of_ascii 'u' (by decide) rfl bodyEq.symm
          obtain ⟨a', b', c', d', rest, rfl, unit, rfl⟩ := unit_cons one two three four digits
          have small := unit_lt one two three four
          generalize ((w * 16 + x) * 16 + y) * 16 + z = value at unit small
          have less : rest.length <
              ('\\' :: 'u' :: a' :: b' :: c' :: d' :: rest).length := by
            simp only [List.length_cons]
            omega
          by_cases isHigh : IsHigh value
          · cases follows : lowFirst later with
            | none =>
              have some : value ≠ 0 := by
                unfold IsHigh at isHigh
                omega
              have unpaired := @decode_unit 0xFFFD value later fun _ => follows
              rw [if_neg some] at unpaired
              refine .alone (.inl isHigh) ?_ unpaired
              rw [Paired, if_pos isHigh, follows]
              exact not_false
            | some low =>
              obtain ⟨isLow, after, rfl⟩ := lowFirst_eq_some follows
              generalize bodyEq : utf8 rest = body at chars
              cases chars with
              | @unit p q r s w' x' y' z' body' _ five six seven eight chars =>
                obtain ⟨rest, rfl, marked⟩ := char_of_ascii '\\' (by decide) rfl bodyEq.symm
                obtain ⟨rest, rfl, digits'⟩ := char_of_ascii 'u' (by decide) rfl marked
                obtain ⟨p', q', r', s', rest, rfl, unit', rfl⟩ :=
                  unit_cons five six seven eight digits'
                have shorter' : rest.length < ('\\' :: 'u' :: a' :: b' :: c' :: d' :: '\\' :: 'u' ::
                    p' :: q' :: r' :: s' :: rest).length := by
                  simp only [List.length_cons]
                  omega
                refine (ih rest.length shorter' chars rfl).push ?_ (paired_pair isHigh isLow)
                  fun text => .pair unit isHigh unit' isLow
                rw [decode_pair isHigh isLow,
                  encodePoint_scalar (pairPoint_lt isHigh isLow) pairPoint_scalar]
          · by_cases isLow : IsLow value
            · have some : value ≠ 0 := by
                unfold IsLow at isLow
                omega
              have unpaired := @decode_unit 0xFFFD value later fun high => absurd high isHigh
              rw [if_neg some] at unpaired
              refine .alone (.inr isLow) ?_ unpaired
              rw [Paired, if_neg isHigh]
              exact fun both => both.1 isLow
            · have scalar : ¬IsSurrogate value := not_or_intro isHigh isLow
              exact (ih rest.length less chars rfl).push (decode_scalar small scalar)
                (paired_scalar scalar) fun text => .unit unit scalar

theorem outcome_utf8 {literal : List Char} {parts : List Part} (outcome : Outcome literal parts) :
    (Utf8 (decode 0xFFFD parts) ∧ ∃ text, Denotes literal text ∧ decode 0xFFFD parts = utf8 text) ↔
      Paired parts := by
  rcases outcome with ⟨paired, text, denotes, bytes⟩ | ⟨unpaired, front, point, rest, half, bytes⟩
  · exact ⟨fun _ => paired, fun _ => ⟨⟨text, bytes⟩, text, denotes, bytes⟩⟩
  · refine ⟨fun ⟨_, text, _, same⟩ => ?_, fun paired => absurd paired unpaired⟩
    obtain ⟨later, -, surrogate⟩ := utf8_cancel (bytes.symm.trans same)
    unfold IsSurrogate IsHigh IsLow at half
    exact absurd surrogate (threeBytes_ne_utf8 (by omega) (by omega) rest later)

theorem charDigit_ascii {char : Char} {value : Nat} (digit : charDigit char = some value) :
    String.utf8EncodeChar char = [UInt8.ofNat char.toNat] ∧
      hexDigit (UInt8.ofNat char.toNat) = some value := by
  unfold charDigit at digit
  split at digit
  · rename_i ascii
    exact ⟨utf8EncodeChar_ascii ascii, digit⟩
  · cases digit

theorem chars_unit {a b c d : Char} {unit : Nat} {left : List Char} {later : List Part}
    (digits : unitOf a b c d = some unit) (chars : Chars (utf8 left) later) :
    Chars (utf8 ('\\' :: 'u' :: a :: b :: c :: d :: left)) (.unit unit :: later) ∧
      unit < 0x10000 := by
  simp only [unitOf, Option.bind_eq_bind, Option.bind_eq_some_iff, Option.pure_def,
    Option.some.injEq] at digits
  obtain ⟨w, one, x, two, y, three, z, four, rfl⟩ := digits
  obtain ⟨first, digit⟩ := charDigit_ascii one
  obtain ⟨second, digit'⟩ := charDigit_ascii two
  obtain ⟨third, digit''⟩ := charDigit_ascii three
  obtain ⟨fourth, digit'''⟩ := charDigit_ascii four
  simp only [utf8_cons, first, second, third, fourth, List.singleton_append]
  exact ⟨.unit digit digit' digit'' digit''' chars, unit_lt digit digit' digit'' digit'''⟩

theorem chars_plain {char : Char} {left : List Char} {later : List Part} (visible : 32 ≤ char.toNat)
    (quote : char ≠ '"') (backslash : char ≠ '\\') (chars : Chars (utf8 left) later) :
    ∃ parts, Chars (utf8 (char :: left)) parts ∧
      decode 0xFFFD parts = String.utf8EncodeChar char ++ decode 0xFFFD later := by
  refine ⟨(String.utf8EncodeChar char).map .byte ++ later, ?_, decode_bytes _ _⟩
  rw [utf8_cons]
  have plain : ∀ byte ∈ String.utf8EncodeChar char, 32 ≤ byte ∧ byte ≠ 34 ∧ byte ≠ 92 := by
    intro byte member
    by_cases high : 128 ≤ char.toNat
    · have large := utf8EncodeChar_high high member
      refine ⟨UInt8.le_iff_toNat_le.mpr (Nat.le_trans (by decide) large), ?_, ?_⟩
      · rintro rfl
        exact absurd large (by decide)
      · rintro rfl
        exact absurd large (by decide)
    · rw [utf8EncodeChar_ascii (Nat.lt_of_not_le high), List.mem_singleton] at member
      have value : byte.toNat = char.toNat := by
        rw [member, UInt8.toNat_ofNat', Nat.mod_eq_of_lt (by omega)]
      refine ⟨UInt8.le_iff_toNat_le.mpr (by rw [value]; exact visible), ?_, ?_⟩
      · rintro rfl
        exact quote (Char.ext (UInt32.toNat_inj.mp value.symm))
      · rintro rfl
        exact backslash (Char.ext (UInt32.toNat_inj.mp value.symm))
  generalize String.utf8EncodeChar char = bytes at plain
  induction bytes with
  | nil => exact chars
  | cons byte bytes ih =>
    obtain ⟨shown, noQuote, noBackslash⟩ := plain byte List.mem_cons_self
    exact .plain shown noQuote noBackslash (ih fun other member => plain other (.tail _ member))

theorem namedEscape_bytes {letter char : Char} (named : (letter, char) ∈ namedEscapes) :
    ∃ byte stands, (byte, stands) ∈ escapes ∧ String.utf8EncodeChar letter = [byte] ∧
      String.utf8EncodeChar char = [stands] := by
  simp only [namedEscapes, List.mem_cons, Prod.mk.injEq, List.not_mem_nil, or_false] at named
  rcases named with ⟨rfl, rfl⟩ | ⟨rfl, rfl⟩ | ⟨rfl, rfl⟩ | ⟨rfl, rfl⟩ | ⟨rfl, rfl⟩ |
    ⟨rfl, rfl⟩ | ⟨rfl, rfl⟩ | ⟨rfl, rfl⟩
  all_goals exact ⟨_, _, by decide, rfl, rfl⟩

/-- A literal with a meaning is one that the grammar reads, and has that meaning only. -/
theorem denotes_chars {literal text : List Char} (denotes : Denotes literal text) :
    ∃ parts, Chars (utf8 literal) parts ∧ decode 0xFFFD parts = utf8 text := by
  induction denotes with
  | nil => exact ⟨[], .nil, by rw [decode]; rfl⟩
  | plain visible quote backslash _ ih =>
    obtain ⟨later, chars, bytes⟩ := ih
    obtain ⟨parts, whole, decodes⟩ := chars_plain visible quote backslash chars
    exact ⟨parts, whole, by rw [decodes, bytes, utf8_cons]⟩
  | escape named _ ih =>
    obtain ⟨later, chars, bytes⟩ := ih
    obtain ⟨byte, stands, listed, letter, char⟩ := namedEscape_bytes named
    refine ⟨.byte stands :: later, ?_, by rw [decode_byte, bytes, utf8_cons, char]; rfl⟩
    rw [utf8_cons, utf8_cons, letter]
    exact .escape listed chars
  | unit digits scalar _ ih =>
    obtain ⟨later, chars, bytes⟩ := ih
    obtain ⟨whole, small⟩ := chars_unit digits chars
    exact ⟨_, whole, by rw [decode_scalar small scalar, bytes, utf8_cons]⟩
  | pair digits high digits' low _ ih =>
    obtain ⟨later, chars, bytes⟩ := ih
    refine ⟨_, (chars_unit digits (chars_unit digits' chars).1).1, ?_⟩
    rw [decode_pair high low, encodePoint_scalar (pairPoint_lt high low) pairPoint_scalar, bytes,
      utf8_cons]

/-! ### The buffer -/

/-- `*o++` for each of these bytes, in a buffer of so many. -/
def storeText (cap : Nat) (out bytes : List UInt8) : Checked (List UInt8) :=
  if out.length + bytes.length ≤ cap then .ok (out ++ bytes) else .error (.outside out.length)

/-- `parse_string` into a buffer; the terminator is its last byte. -/
def parseStringInto (cap : Nat) :
    List UInt8 → List UInt8 → Checked (Except JsonError (List UInt8 × List UInt8))
  | [], _ => pure (.error .unterminated)
  | char :: rest, out =>
    if char = 34 then do
      let _ ← storeText cap out [0]
      pure (.ok (out, rest))
    else if char < 0x20 then pure (.error .controlCharacter)
    else if char ≠ 92 then do
      let stored ← storeText cap out [char]
      parseStringInto cap rest stored
    else
      match rest with
      | [] => pure (.error .unterminated)
      | letter :: more =>
        match plainEscape letter with
        | some byte => do
          let stored ← storeText cap out [byte]
          parseStringInto cap more stored
        | none =>
          if letter ≠ 117 then pure (.error .escape)
          else
            match hex4 more with
            | none => pure (.error .unicodeEscape)
            | some cp =>
              match pairAfter cp (more.drop 4) with
              | some point => do
                let stored ← storeText cap out (putUtf8 point)
                parseStringInto cap (more.drop 10) stored
              | none => do
                let stored ← storeText cap out (putUtf8 (if cp = 0 then 0xFFFD else cp))
                parseStringInto cap (more.drop 4) stored
termination_by text => text.length
decreasing_by all_goals simp_wf; all_goals omega

theorem goes_storeText {cap : Nat} {out bytes : List UInt8} (room : out.length + bytes.length ≤ cap) :
    Goes (storeText cap out bytes) (· = out ++ bytes) :=
  ⟨_, if_pos room, rfl⟩

theorem putUtf8_length_le (cp : Nat) : (putUtf8 cp).length ≤ 4 := by
  unfold putUtf8
  split
  · exact (by decide : 1 ≤ 4)
  · split
    · exact (by decide : 2 ≤ 4)
    · split
      · exact (by decide : 3 ≤ 4)
      · exact Nat.le_refl 4

theorem emit_emit (out bytes : List UInt8) (result : Except JsonError (List UInt8 × List UInt8)) :
    emit (out ++ bytes) result = emit out (emit bytes result) := by
  cases result with
  | error error => rfl
  | ok pair => exact congrArg (fun text => Except.ok (text, pair.2)) (List.append_assoc _ _ _)

theorem hex4_length {text : List UInt8} {unit : Nat} (read : hex4 text = some unit) :
    4 ≤ text.length := by
  obtain ⟨a, b, c, d, w, x, y, z, rest, rfl, -⟩ := hex4_eq_some.mp read
  simp only [List.length_cons]
  omega

/-- No byte of a string is stored behind the end of the buffer. -/
theorem parseStringInto_goes {cap : Nat} {text out : List UInt8}
    (room : out.length + text.length + 1 ≤ cap) :
    Goes (parseStringInto cap text out) (· = emit out (parseString text)) := by
  fun_induction parseString text generalizing out with
  | case1 =>
    rw [parseStringInto.eq_def]
    exact goes_pure rfl
  | case2 rest =>
    rw [parseStringInto.eq_def]
    dsimp only
    rw [if_pos rfl]
    refine (goes_storeText ?_).bind ?_
    · rw [List.length_singleton]
      omega
    · rintro _ -
      exact goes_pure (congrArg (fun text => Except.ok (text, rest)) (List.append_nil out).symm)
  | case3 char rest quote control =>
    rw [parseStringInto.eq_def]
    dsimp only
    rw [if_neg quote, if_pos control]
    exact goes_pure rfl
  | case4 char rest quote control plain ih =>
    rw [parseStringInto.eq_def]
    dsimp only
    rw [if_neg quote, if_neg control, if_pos plain]
    rw [List.length_cons] at room
    refine (goes_storeText ?_).bind ?_
    · rw [List.length_singleton]
      omega
    · rintro _ rfl
      rw [← emit_emit]
      refine ih ?_
      rw [List.length_append, List.length_singleton]
      omega
  | case5 char quote control backslash =>
    rw [parseStringInto.eq_def]
    dsimp only
    rw [if_neg quote, if_neg control, if_neg backslash]
    exact goes_pure rfl
  | case6 char quote control backslash letter more byte known ih =>
    rw [parseStringInto.eq_def]
    dsimp only
    rw [if_neg quote, if_neg control, if_neg backslash, known]
    rw [List.length_cons, List.length_cons] at room
    dsimp only
    refine (goes_storeText ?_).bind ?_
    · rw [List.length_singleton]
      omega
    · rintro _ rfl
      rw [← emit_emit]
      refine ih ?_
      rw [List.length_append, List.length_singleton]
      omega
  | case7 char quote control backslash letter more unknown other =>
    rw [parseStringInto.eq_def]
    dsimp only
    rw [if_neg quote, if_neg control, if_neg backslash, unknown]
    dsimp only
    rw [if_pos other]
    exact goes_pure rfl
  | case8 char quote control backslash letter more unknown u bad =>
    rw [parseStringInto.eq_def]
    dsimp only
    rw [if_neg quote, if_neg control, if_neg backslash, unknown]
    dsimp only
    rw [if_neg u, bad]
    exact goes_pure rfl
  | case9 char quote control backslash letter more unknown u cp read point paired ih =>
    rw [parseStringInto.eq_def]
    dsimp only
    rw [if_neg quote, if_neg control, if_neg backslash, unknown]
    dsimp only
    rw [if_neg u, read]
    dsimp only
    rw [paired]
    dsimp only
    rw [List.length_cons, List.length_cons] at room
    have long := hex4_length read
    have short := putUtf8_length_le point
    refine (goes_storeText (by omega)).bind ?_
    rintro _ rfl
    rw [← emit_emit]
    refine ih ?_
    rw [List.length_append, List.length_drop]
    omega
  | case10 char quote control backslash letter more unknown u cp read alone ih =>
    rw [parseStringInto.eq_def]
    dsimp only
    rw [if_neg quote, if_neg control, if_neg backslash, unknown]
    dsimp only
    rw [if_neg u, read]
    dsimp only
    rw [alone]
    dsimp only
    rw [List.length_cons, List.length_cons] at room
    have long := hex4_length read
    have short := putUtf8_length_le (if cp = 0 then 0xFFFD else cp)
    refine (goes_storeText (by omega)).bind ?_
    rintro _ rfl
    rw [← emit_emit]
    refine ih ?_
    rw [List.length_append, List.length_drop]
    omega

/-- A literal in UTF-8 is read as RFC 8259 has it where every escaped surrogate is half of a pair,
and nowhere else; whatever the text, its bytes stay inside the buffer. -/
theorem string_text_iff {literal : List Char} {parts : List Part}
    (chars : Chars (utf8 literal) parts) :
    (∀ rest, parseString (utf8 literal ++ 34 :: rest) = .ok (decode 0xFFFD parts, rest)) ∧
      (∀ text, Denotes literal text → decode 0xFFFD parts = utf8 text) ∧
      ((Utf8 (decode 0xFFFD parts) ∧
          ∃ text, Denotes literal text ∧ decode 0xFFFD parts = utf8 text) ↔ Paired parts) ∧
        ∀ text, parseStringInto (text.length + 1) text [] = .ok (parseString text) := by
  refine ⟨fun rest => parseString_complete chars, fun text denotes => ?_,
    outcome_utf8 (literal_outcome chars), fun text => ?_⟩
  · obtain ⟨other, whole, bytes⟩ := denotes_chars denotes
    have same := (@parseString_complete _ [] _ chars).symm.trans (parseString_complete whole)
    rw [(Prod.mk.inj (Except.ok.inj same)).1, bytes]
  · have goes := @parseStringInto_goes (text.length + 1) text [] (by
      rw [List.length_nil]
      omega)
    rw [goes.eq]
    cases parseString text with
    | error error => rfl
    | ok pair => rfl

/-- `\ud83d\ude00`, which is one character. -/
def pairedLiteral : List Char := ['\\', 'u', 'd', '8', '3', 'd', '\\', 'u', 'd', 'e', '0', '0']

theorem pairedLiteral_chars : Chars (utf8 pairedLiteral) [.unit 0xD83D, .unit 0xDE00] := by
  have none : Chars (utf8 []) [] := .nil
  exact (chars_unit (by decide) (chars_unit (by decide) none).1).1

theorem string_text_iff_paired :
    (∀ rest, parseString (utf8 pairedLiteral ++ 34 :: rest) =
        .ok (decode 0xFFFD [.unit 0xD83D, .unit 0xDE00], rest)) ∧
      (∀ text, Denotes pairedLiteral text →
        decode 0xFFFD [.unit 0xD83D, .unit 0xDE00] = utf8 text) ∧
      ((Utf8 (decode 0xFFFD [.unit 0xD83D, .unit 0xDE00]) ∧
          ∃ text, Denotes pairedLiteral text ∧
            decode 0xFFFD [.unit 0xD83D, .unit 0xDE00] = utf8 text) ↔
        Paired [.unit 0xD83D, .unit 0xDE00]) ∧
        ∀ text, parseStringInto (text.length + 1) text [] = .ok (parseString text) :=
  string_text_iff pairedLiteral_chars

/-- The bytes of `\ud800`, an escape that stands for no character. -/
theorem loneSurrogate_invalid :
    ¬∀ (literal : List Char) (rest out : List UInt8),
      parseString (utf8 literal ++ 34 :: rest) = .ok (out, rest) → Utf8 out := by
  intro valid
  have none : Chars (utf8 []) [] := .nil
  have chars : Chars (utf8 ['\\', 'u', 'd', '8', '0', '0']) [.unit 0xD800] :=
    (chars_unit (by decide) none).1
  obtain ⟨text, same⟩ := valid _ [] _ (parseString_complete chars)
  have half : IsSurrogate 0xD800 := .inl ⟨by decide, by decide⟩
  rw [decode_unit fun _ => rfl, if_neg (by decide), encodePoint_surrogate half] at same
  exact threeBytes_ne_utf8 (by decide) (by decide) _ text same

end Rufux.Linux
