import Rufux.Library.RecordMarking

/-!
External data representation. Words are big-endian and everything else is padded to a
whole number of them. A grammar removes one value from the front of a byte string.
-/

namespace Rufux.Library

/-- The four bytes of a word; a larger number loses its high part. -/
def wordBytes (value : Nat) : List UInt8 :=
  [UInt8.ofNat (value / 2 ^ 24), UInt8.ofNat (value / 2 ^ 16), UInt8.ofNat (value / 2 ^ 8),
    UInt8.ofNat value]

@[simp]
theorem wordBytes_length (value : Nat) : (wordBytes value).length = 4 := rfl

theorem bigEndian_wordBytes (value : Nat) : bigEndian (wordBytes value) = value % 2 ^ 32 := by
  simp only [bigEndian, wordBytes, List.foldl_cons, List.foldl_nil, UInt8.toNat_ofNat']
  omega

/-- The word that starts at a multiple of four bytes. -/
def wordAt (index : Nat) (bytes : List UInt8) : Nat := bigEndian ((bytes.drop (4 * index)).take 4)

theorem wordAt_append {index : Nat} {front rest : List UInt8} (aligned : front.length = 4 * index)
    (value : Nat) : wordAt index (front ++ (wordBytes value ++ rest)) = value % 2 ^ 32 := by
  rw [wordAt, ← aligned, List.drop_left, List.take_left' (wordBytes_length value),
    bigEndian_wordBytes]

theorem wordAt_within {index : Nat} {front rest : List UInt8} (inside : 4 * index + 4 ≤ front.length) :
    wordAt index (front ++ rest) = wordAt index front := by
  have room : 4 ≤ (front.drop (4 * index)).length := by
    rw [List.length_drop]
    omega
  rw [wordAt, wordAt, List.drop_append_of_le_length (by omega), List.take_append_of_le_length room]

theorem wordAt_lt (index : Nat) (bytes : List UInt8) : wordAt index bytes < 2 ^ 32 := by
  have bound (read : List UInt8) : bigEndian read < 256 ^ read.length := by
    induction read using List.reverseRecOn with
    | nil => exact Nat.one_pos
    | append_singleton front byte ih =>
        have small := byte.toNat_lt
        rw [bigEndian, List.foldl_append, List.length_append, Nat.pow_add]
        change bigEndian front * 256 + byte.toNat < _
        simp only [List.length_singleton, Nat.pow_one]
        omega
  have short : ((bytes.drop (4 * index)).take 4).length ≤ 4 := List.length_take_le _ _
  calc wordAt index bytes < 256 ^ ((bytes.drop (4 * index)).take 4).length := bound _
    _ ≤ 256 ^ 4 := Nat.pow_le_pow_right (by decide) short

theorem wordAt_drop (index skipped : Nat) (bytes : List UInt8) :
    wordAt index (bytes.drop (4 * skipped)) = wordAt (skipped + index) bytes := by
  rw [wordAt, wordAt, List.drop_drop, Nat.mul_add]

/-- The zero bytes that fill the last word of a byte string. -/
def padding (size : Nat) : Nat := (4 - size % 4) % 4

theorem padding_aligns (size : Nat) : 4 ∣ size + padding size := by
  unfold padding
  omega

def paddedBytes (bytes : List UInt8) : List UInt8 :=
  bytes ++ List.replicate (padding bytes.length) 0

theorem paddedBytes_length (bytes : List UInt8) :
    (paddedBytes bytes).length = bytes.length + padding bytes.length := by
  rw [paddedBytes, List.length_append, List.length_replicate]

/-- What removes one value from the front of a byte string; the rest is never longer. -/
structure Grammar where
  parse : List UInt8 → Option (List UInt8)
  shrinks : ∀ bytes rest, parse bytes = some rest → rest.length ≤ bytes.length

namespace Grammar

theorem ext_parse {left right : Grammar} (same : left.parse = right.parse) : left = right := by
  cases left
  cases right
  subst same
  rfl

def nothing : Grammar where
  parse := some
  shrinks bytes rest parsed := by
    cases parsed
    exact Nat.le_refl _

def andThen (first second : Grammar) : Grammar where
  parse bytes := (first.parse bytes).bind second.parse
  shrinks bytes rest parsed := by
    obtain ⟨middle, front, back⟩ := Option.bind_eq_some_iff.mp parsed
    exact Nat.le_trans (second.shrinks _ _ back) (first.shrinks _ _ front)

theorem union_shrinks (branch : Nat → Option Grammar) (bytes rest : List UInt8)
    (parsed : (match bytes with
      | first :: second :: third :: fourth :: rest =>
          (branch (bigEndian [first, second, third, fourth])).bind fun grammar => grammar.parse rest
      | _ => none) = some rest) : rest.length ≤ bytes.length := by
  split at parsed
  · obtain ⟨grammar, _, back⟩ := Option.bind_eq_some_iff.mp parsed
    have shorter := grammar.shrinks _ _ back
    simp only [List.length_cons]
    omega
  · cases parsed

/-- A grammar that depends on the word in front of it. -/
def union (branch : Nat → Option Grammar) : Grammar where
  parse
    | first :: second :: third :: fourth :: rest =>
        (branch (bigEndian [first, second, third, fourth])).bind fun grammar => grammar.parse rest
    | _ => none
  shrinks := union_shrinks branch

/-- One word out of those that are allowed. -/
def word (allowed : Nat → Bool) : Grammar :=
  union fun value => if allowed value then some nothing else none

def anyWord : Grammar := word fun _ => true

def oneOf (values : List Nat) : Grammar := word values.contains

def hyper : Grammar := anyWord.andThen anyWord

/-- A byte string of known size, padded with zeros. -/
def fixed (size : Nat) : Grammar where
  parse bytes :=
    if size + padding size ≤ bytes.length ∧
        ((bytes.drop size).take (padding size)).all (· == 0) then
      some (bytes.drop (size + padding size))
    else none
  shrinks bytes rest parsed := by
    split at parsed
    · cases parsed
      rw [List.length_drop]
      omega
    · cases parsed

/-- A byte string with its size in front. -/
def varying (limit : Nat) : Grammar :=
  union fun size => if size ≤ limit then some (fixed size) else none

def optional (grammar : Grammar) : Grammar :=
  union fun
    | 0 => some nothing
    | 1 => some grammar
    | _ => none

/-- As many values as the word in front says. -/
def array (grammar : Grammar) : Grammar :=
  union fun count => some (count.repeat (fun rest => grammar.andThen rest) nothing)

def chainParse (entry : Grammar) : List UInt8 → Option (List UInt8)
  | first :: second :: third :: fourth :: bytes =>
      match bigEndian [first, second, third, fourth] with
      | 0 => some bytes
      | 1 =>
          match _ : entry.parse bytes with
          | none => none
          | some rest => chainParse entry rest
      | _ => none
  | _ => none
  termination_by bytes => bytes.length
  decreasing_by
    rename_i parsed
    have shorter := entry.shrinks _ _ parsed
    simp only [List.length_cons]
    omega

/-- A linked list: each entry has a word in front that says that it is there. -/
def chain (entry : Grammar) : Grammar where
  parse := chainParse entry
  shrinks bytes rest parsed := by
    fun_induction chainParse entry bytes with
    | case1 =>
        cases parsed
        simp only [List.length_cons]
        omega
    | case2 => cases parsed
    | case3 first second third fourth bytes one shorter front ih =>
        have tail := ih parsed
        have head := entry.shrinks _ _ front
        simp only [List.length_cons]
        omega
    | case4 => cases parsed
    | case5 => cases parsed

/-- A linked list is empty, or an entry and another linked list. -/
theorem chain_eq (entry : Grammar) :
    entry.chain = union fun
      | 0 => some nothing
      | 1 => some (entry.andThen entry.chain)
      | _ => none := by
  apply ext_parse
  funext bytes
  change chainParse entry bytes = _
  rw [chainParse.eq_def]
  rcases bytes with _ | ⟨first, _ | ⟨second, _ | ⟨third, _ | ⟨fourth, rest⟩⟩⟩⟩
  · rfl
  · rfl
  · rfl
  · rfl
  · simp only [union]
    split
    · rfl
    · simp only [andThen, Option.bind_some]
      split <;> rename_i parsed
      · rw [parsed, Option.bind_none]
      · rw [parsed, Option.bind_some]
        rfl
    · rfl

theorem union_andThen (branch : Nat → Option Grammar) (last : Grammar) :
    (union branch).andThen last =
      union fun value => (branch value).map fun grammar => grammar.andThen last := by
  apply ext_parse
  funext bytes
  rcases bytes with _ | ⟨first, _ | ⟨second, _ | ⟨third, _ | ⟨fourth, rest⟩⟩⟩⟩
  · rfl
  · rfl
  · rfl
  · rfl
  · simp only [union, andThen]
    cases branch (bigEndian [first, second, third, fourth]) with
    | none => rfl
    | some grammar => rfl

/-- The grammar removes exactly these bytes, whatever follows them. -/
def Reads (grammar : Grammar) (bytes : List UInt8) : Prop :=
  ∀ rest, grammar.parse (bytes ++ rest) = some rest

/-- The grammar accepts nothing that begins with these bytes. -/
def Stuck (grammar : Grammar) (bytes : List UInt8) : Prop :=
  ∀ rest, grammar.parse (bytes ++ rest) = none

/-- The grammar accepts the bytes with nothing missing and nothing left over. -/
def Whole (grammar : Grammar) (bytes : List UInt8) : Prop := grammar.parse bytes = some []

instance (grammar : Grammar) (bytes : List UInt8) : Decidable (grammar.Whole bytes) :=
  inferInstanceAs (Decidable (grammar.parse bytes = some []))

section Rules

variable {grammar first second : Grammar} {bytes front back : List UInt8}
  {branch : Nat → Option Grammar}

theorem Reads.whole (reads : grammar.Reads bytes) : grammar.Whole bytes := by
  have exactly := reads []
  rwa [List.append_nil] at exactly

theorem Stuck.not_whole (stuck : grammar.Stuck bytes) : ¬grammar.Whole bytes := by
  intro whole
  have failed := stuck []
  rw [List.append_nil] at failed
  exact nomatch failed.symm.trans whole

@[simp]
theorem andThen_nothing : grammar.andThen nothing = grammar := by
  apply ext_parse
  funext bytes
  exact Option.bind_fun_some (grammar.parse bytes)

@[simp]
theorem nothing_andThen : nothing.andThen grammar = grammar :=
  ext_parse rfl

theorem andThen_assoc {third : Grammar} :
    (first.andThen second).andThen third = first.andThen (second.andThen third) := by
  apply ext_parse
  funext bytes
  exact Option.bind_assoc _ _ _

/-- A linked list in front of something else. -/
theorem chain_andThen (entry last : Grammar) :
    entry.chain.andThen last = union fun
      | 0 => some last
      | 1 => some (entry.andThen (entry.chain.andThen last))
      | _ => none := by
  conv_lhs => rw [chain_eq, union_andThen]
  congr 1
  funext value
  match value with
  | 0 => exact congrArg some nothing_andThen
  | 1 => exact congrArg some andThen_assoc
  | value + 2 => rfl

theorem reads_nothing : nothing.Reads [] := fun _ => rfl

theorem Reads.parse_andThen (left : first.Reads front) :
    (first.andThen second).parse (front ++ back) = second.parse back := by
  change (first.parse (front ++ back)).bind second.parse = _
  rw [left, Option.bind_some]

theorem Reads.andThen (left : first.Reads front) (right : second.Reads back) :
    (first.andThen second).Reads (front ++ back) := by
  intro rest
  rw [List.append_assoc, left.parse_andThen, right]

theorem Stuck.andThen (left : first.Stuck front) : (first.andThen second).Stuck (front ++ back) := by
  intro rest
  change (first.parse (front ++ back ++ rest)).bind second.parse = none
  rw [List.append_assoc, left, Option.bind_none]

theorem Reads.andThen_stuck (left : first.Reads front) (right : second.Stuck back) :
    (first.andThen second).Stuck (front ++ back) := by
  intro rest
  rw [List.append_assoc, left.parse_andThen, right]

theorem union_wordBytes (value : Nat) :
    (union branch).parse (wordBytes value ++ back) =
      (branch (value % 2 ^ 32)).bind fun grammar => grammar.parse back := by
  rw [← bigEndian_wordBytes]
  rfl

theorem Reads.union {value : Nat} (chosen : branch (value % 2 ^ 32) = some grammar)
    (reads : grammar.Reads back) : (union branch).Reads (wordBytes value ++ back) := by
  intro rest
  rw [List.append_assoc, union_wordBytes, chosen, Option.bind_some, reads]

theorem Stuck.union {value : Nat} (chosen : branch (value % 2 ^ 32) = some grammar)
    (stuck : grammar.Stuck back) : (union branch).Stuck (wordBytes value ++ back) := by
  intro rest
  rw [List.append_assoc, union_wordBytes, chosen, Option.bind_some, stuck]

theorem reads_word {allowed : Nat → Bool} {value : Nat} (fits : allowed (value % 2 ^ 32) = true) :
    (word allowed).Reads (wordBytes value) := by
  intro rest
  rw [word, union_wordBytes, if_pos fits]
  rfl

theorem stuck_word {allowed : Nat → Bool} {value : Nat} (bad : allowed (value % 2 ^ 32) = false) :
    (word allowed).Stuck (wordBytes value) := by
  intro rest
  rw [word, union_wordBytes, if_neg (by rw [bad]; exact Bool.false_ne_true)]
  rfl

theorem reads_anyWord (value : Nat) : anyWord.Reads (wordBytes value) := reads_word rfl

theorem reads_fixed (bytes : List UInt8) : (fixed bytes.length).Reads (paddedBytes bytes) := by
  intro rest
  have size := paddedBytes_length bytes
  have zeros : ((paddedBytes bytes ++ rest).drop bytes.length).take (padding bytes.length) =
      List.replicate (padding bytes.length) 0 := by
    rw [paddedBytes, List.append_assoc, List.drop_left,
      List.take_left' (List.length_replicate)]
  change (if _ then _ else _) = _
  rw [zeros, if_pos, ← size, List.drop_left]
  constructor
  · rw [List.length_append, size]
    omega
  · simp

theorem reads_varying {limit : Nat} (bytes : List UInt8) (fits : bytes.length ≤ limit)
    (short : bytes.length < 2 ^ 32) :
    (varying limit).Reads (wordBytes bytes.length ++ paddedBytes bytes) := by
  apply @Reads.union (fixed bytes.length) _ _ _ _ (reads_fixed bytes)
  rw [Nat.mod_eq_of_lt short, if_pos fits]

end Rules

end Grammar

end Rufux.Library
