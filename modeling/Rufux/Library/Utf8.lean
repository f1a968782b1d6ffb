import Mathlib

/-!
UTF-8 over lists of bytes: the encoding of a text can be read in one way only, and it holds no
surrogate.
-/

namespace Rufux.Library

def utf8 (text : List Char) : List UInt8 := text.flatMap String.utf8EncodeChar

@[simp]
theorem utf8_nil : utf8 [] = [] := rfl

@[simp]
theorem utf8_cons (char : Char) (text : List Char) :
    utf8 (char :: text) = String.utf8EncodeChar char ++ utf8 text := rfl

@[simp]
theorem utf8_append (front back : List Char) : utf8 (front ++ back) = utf8 front ++ utf8 back :=
  List.flatMap_append

theorem utf8EncodeChar_cancel {first second : Char} {front back : List UInt8}
    (same : String.utf8EncodeChar first ++ front = String.utf8EncodeChar second ++ back) :
    first = second ∧ front = back := by
  have read (char : Char) (rest : List UInt8) :
      ((String.utf8EncodeChar char ++ rest).toByteArray).utf8DecodeChar? 0 = some char := by
    rw [List.toByteArray_append]
    exact ByteArray.utf8DecodeChar?_utf8EncodeChar_append
  have chars : some first = some second := by rw [← read first front, same, read second back]
  obtain rfl := Option.some.inj chars
  exact ⟨rfl, List.append_cancel_left same⟩

/-- A text in front of an encoded one is the front of that text. -/
theorem utf8_cancel {front whole : List Char} {back : List UInt8}
    (same : utf8 front ++ back = utf8 whole) : ∃ rest, whole = front ++ rest ∧ back = utf8 rest := by
  induction front generalizing whole with
  | nil => exact ⟨whole, rfl, same⟩
  | cons char front ih =>
    rw [utf8_cons, List.append_assoc] at same
    cases whole with
    | nil =>
      have empty := (List.append_eq_nil_iff.mp same).1
      exact absurd empty String.utf8EncodeChar_ne_nil
    | cons other whole =>
      rw [utf8_cons] at same
      obtain ⟨rfl, later⟩ := utf8EncodeChar_cancel same
      obtain ⟨rest, rfl, left⟩ := ih later
      exact ⟨rest, rfl, left⟩

theorem utf8_injective {first second : List Char} (same : utf8 first = utf8 second) :
    first = second := by
  obtain ⟨rest, rfl, empty⟩ := utf8_cancel ((List.append_nil (utf8 first)).trans same)
  cases rest with
  | nil => exact (List.append_nil first).symm
  | cons char rest =>
    have none := (List.append_eq_nil_iff.mp empty.symm).1
    exact absurd none String.utf8EncodeChar_ne_nil

/-! ### ASCII -/

theorem utf8EncodeChar_ascii {char : Char} (ascii : char.toNat < 128) :
    String.utf8EncodeChar char = [UInt8.ofNat char.toNat] := by
  have small : char.val.toNat ≤ 0x7f := Nat.le_of_lt_succ ascii
  rw [String.utf8EncodeChar, if_pos small]
  rfl

/-- The bytes of a character that is not ASCII are not ASCII either. -/
theorem utf8EncodeChar_high {char : Char} (high : 128 ≤ char.toNat) {byte : UInt8}
    (member : byte ∈ String.utf8EncodeChar char) : 128 ≤ byte.toNat := by
  have large : ¬char.val.toNat ≤ 0x7f := Nat.not_le.mpr high
  rw [String.utf8EncodeChar, if_neg large] at member
  split at member
  · simp only [List.mem_cons, List.not_mem_nil, or_false] at member
    rcases member with rfl | rfl <;> rw [UInt8.toNat_ofNat'] <;> omega
  · split at member
    · simp only [List.mem_cons, List.not_mem_nil, or_false] at member
      rcases member with rfl | rfl | rfl <;> rw [UInt8.toNat_ofNat'] <;> omega
    · simp only [List.mem_cons, List.not_mem_nil, or_false] at member
      rcases member with rfl | rfl | rfl | rfl <;> rw [UInt8.toNat_ofNat'] <;> omega

/-- An ASCII byte in front of an encoded text is its first character. -/
theorem utf8_ascii_cons {byte : UInt8} {rest : List UInt8} {text : List Char}
    (ascii : byte.toNat < 128) (same : byte :: rest = utf8 text) :
    ∃ char left, text = char :: left ∧ char.toNat = byte.toNat ∧ rest = utf8 left := by
  cases text with
  | nil => cases same
  | cons char left =>
    rw [utf8_cons] at same
    by_cases low : char.toNat < 128
    · rw [utf8EncodeChar_ascii low, List.singleton_append] at same
      obtain ⟨rfl, rfl⟩ := List.cons.inj same
      refine ⟨char, left, rfl, ?_, rfl⟩
      rw [UInt8.toNat_ofNat', Nat.mod_eq_of_lt (by omega)]
    · have first : byte ∈ String.utf8EncodeChar char := by
        cases bytes : String.utf8EncodeChar char with
        | nil => exact absurd bytes String.utf8EncodeChar_ne_nil
        | cons other more =>
          rw [bytes] at same
          rw [(List.cons.inj same).1]
          exact List.mem_cons_self
      have high := utf8EncodeChar_high (Nat.le_of_not_lt low) first
      omega

/-- An ASCII byte in an encoded text is a character there, between two encoded texts. -/
theorem utf8_split {byte : UInt8} {front back : List UInt8} {text : List Char}
    (ascii : byte.toNat < 128) (same : front ++ byte :: back = utf8 text) :
    ∃ before after, front = utf8 before ∧ back = utf8 after := by
  induction text generalizing front with
  | nil => simp at same
  | cons char text ih =>
    rw [utf8_cons] at same
    rcases List.append_eq_append_iff.mp same with ⟨inner, encoded, left⟩ | ⟨rest, split, left⟩
    · cases inner with
      | nil =>
        rw [List.append_nil] at encoded
        rw [List.nil_append] at left
        obtain ⟨_, later, rfl, _, rest⟩ := utf8_ascii_cons ascii left
        exact ⟨[char], later, by simp [encoded], rest⟩
      | cons first inner =>
        obtain ⟨rfl, left⟩ := List.cons.inj left
        have low : char.toNat < 128 := by
          by_contra high
          have member : byte ∈ String.utf8EncodeChar char := by simp [encoded]
          have bound := utf8EncodeChar_high (Nat.le_of_not_lt high) member
          omega
        rw [utf8EncodeChar_ascii low] at encoded
        obtain ⟨rfl, rfl⟩ : front = [] ∧ inner = [] := by
          cases front with
          | nil => exact ⟨rfl, (List.cons.inj encoded).2.symm⟩
          | cons other front => simp at encoded
        exact ⟨[], text, rfl, (List.cons.inj left).2⟩
    · obtain ⟨before, after, rfl, rfl⟩ := ih left.symm
      exact ⟨char :: before, after, split, rfl⟩

theorem utf8_of_ascii {bytes : List UInt8} (ascii : ∀ byte ∈ bytes, byte.toNat < 128) :
    ∃ text, bytes = utf8 text := by
  induction bytes with
  | nil => exact ⟨[], rfl⟩
  | cons byte bytes ih =>
    obtain ⟨text, rfl⟩ := ih fun other inside => ascii other (List.mem_cons_of_mem _ inside)
    have low := ascii byte List.mem_cons_self
    have valid : byte.toNat.isValidChar := .inl (by omega)
    have value : (Char.ofNat byte.toNat).toNat = byte.toNat := by
      rw [Char.toNat_ofNat, if_pos valid]
    refine ⟨Char.ofNat byte.toNat :: text, ?_⟩
    rw [utf8_cons, utf8EncodeChar_ascii (by rw [value]; exact low), value, UInt8.ofNat_toNat]
    rfl

/-! ### Surrogates -/

/-- Three bytes in the form of UTF-8. -/
def threeBytes (point : Nat) : List UInt8 :=
  [UInt8.ofNat (0xE0 + point / 4096), UInt8.ofNat (0x80 + point / 64 % 64),
    UInt8.ofNat (0x80 + point % 64)]

theorem threeBytes_ne_utf8 {point : Nat} (lower : 0xD800 ≤ point) (upper : point < 0xE000)
    (rest : List UInt8) (text : List Char) : threeBytes point ++ rest ≠ utf8 text := by
  intro same
  cases text with
  | nil => cases same
  | cons char text =>
    have valid := char.valid
    rw [utf8_cons] at same
    have first := congrArg (fun bytes => bytes[0]?.map UInt8.toNat) same
    have second := congrArg (fun bytes => bytes[1]?.map UInt8.toNat) same
    have scalar : char.val.toNat < 0xD800 ∨ 0xDFFF < char.val.toNat ∧ char.val.toNat < 0x110000 :=
      valid
    unfold String.utf8EncodeChar threeBytes at first second
    generalize char.val.toNat = value at first second scalar
    dsimp only at first second
    split at first
    · simp at first
      omega
    · split at first
      · simp at first
        omega
      · split at first
        · rename_i _ _ small
          rw [if_neg (by omega), if_neg (by omega), if_pos small] at second
          simp at first second
          omega
        · simp at first
          omega

end Rufux.Library
