import Rufux.Library.Utf8

/-!
Cutting a volume label to so many UTF-16 code units, on the border of a character.
-/

namespace Rufux.Macos

open Library

/-- The bytes and the UTF-16 units that the first byte of a character announces. -/
def announced (c : UInt8) : Nat × Nat :=
  if c &&& 0x80 = 0 then (1, 1)
  else if c &&& 0xE0 = 0xC0 then (2, 1)
  else if c &&& 0xF0 = 0xE0 then (3, 1)
  else if c &&& 0xF8 = 0xF0 then (4, 2)
  else (1, 1)

/-- The loop of `truncate_utf8_to_utf16_units`: what is left of `src`, what is in `out` and its
units. A character that the string's end cuts short is shorter. -/
def truncateFrom (maxU16 cap : Nat) : Nat → List UInt8 → List UInt8 → Nat → List UInt8
  | 0, _, out, _ => out
  | _ + 1, [], out, _ => out
  | fuel + 1, c :: rest, out, u16 =>
      let clen := min (announced c).1 (rest.length + 1)
      if maxU16 < u16 + (announced c).2 ∨ cap ≤ out.length + clen then out
      else
        truncateFrom maxU16 cap fuel ((c :: rest).drop clen) (out ++ (c :: rest).take clen)
          (u16 + (announced c).2)

/-- `truncate_utf8_to_utf16_units` of the bytes before a terminator: the string in `out`, if there
is room for any. -/
def truncateUtf8ToUtf16Units (src : Option (List UInt8)) (maxU16 cap : Nat) :
    Option (List UInt8) :=
  if cap = 0 then none
  else
    match src with
    | none => some []
    | some bytes => some (truncateFrom maxU16 cap bytes.length bytes [] 0)

def utf16Units (char : Char) : Nat := if 0x10000 ≤ char.toNat then 2 else 1

/-- The UTF-16 code units of a text. -/
def textUnits (text : List Char) : Nat := (text.map utf16Units).sum

/-! ### The first byte of a character -/

theorem announced_ofNat (value : Fin 256) :
    announced (UInt8.ofNat value.val) =
      if value.val < 128 then (1, 1) else if value.val < 192 then (1, 1)
      else if value.val < 224 then (2, 1) else if value.val < 240 then (3, 1)
      else if value.val < 248 then (4, 2) else (1, 1) := by
  revert value
  decide +kernel

theorem announced_encoded (char : Char) :
    ∃ first rest, String.utf8EncodeChar char = first :: rest ∧
      announced first = (rest.length + 1, utf16Units char) := by
  have point : char.val.toNat < 0x110000 := by
    have valid : char.val.toNat < 0xD800 ∨ 0xDFFF < char.val.toNat ∧ char.val.toNat < 0x110000 :=
      char.valid
    omega
  unfold utf16Units
  change ∃ first rest, _ ∧ announced first = (_, if 0x10000 ≤ char.val.toNat then 2 else 1)
  unfold String.utf8EncodeChar
  generalize char.val.toNat = value at point
  by_cases one : value ≤ 0x7f
  · rw [if_pos one]
    have lead := announced_ofNat ⟨value, by omega⟩
    refine ⟨_, _, rfl, lead.trans ?_⟩
    simp only
    rw [if_pos (by omega), if_neg (by omega), List.length_nil]
  · rw [if_neg one]
    by_cases two : value ≤ 0x7ff
    · rw [if_pos two]
      have lead := announced_ofNat ⟨value / 64 % 0x20 + 0xc0, by omega⟩
      refine ⟨_, _, rfl, lead.trans ?_⟩
      simp only
      rw [if_neg (by omega), if_neg (by omega), if_pos (by omega), if_neg (by omega)]
      rfl
    · rw [if_neg two]
      by_cases three : value ≤ 0xffff
      · rw [if_pos three]
        have lead := announced_ofNat ⟨value / 4096 % 0x10 + 0xe0, by omega⟩
        refine ⟨_, _, rfl, lead.trans ?_⟩
        simp only
        rw [if_neg (by omega), if_neg (by omega), if_neg (by omega), if_pos (by omega),
          if_neg (by omega)]
        rfl
      · rw [if_neg three]
        have lead := announced_ofNat ⟨value / 262144 % 0x08 + 0xf0, by omega⟩
        refine ⟨_, _, rfl, lead.trans ?_⟩
        simp only
        rw [if_neg (by omega), if_neg (by omega), if_neg (by omega), if_neg (by omega),
          if_pos (by omega), if_pos (by omega)]
        rfl

/-! ### The characters that fit -/

/-- The characters that fit both limits, behind so many bytes and units. -/
def fitting (maxU16 cap : Nat) : Nat → Nat → List Char → List Char
  | _, _, [] => []
  | size, units, char :: text =>
      if maxU16 < units + utf16Units char ∨ cap ≤ size + (String.utf8EncodeChar char).length then []
      else
        char :: fitting maxU16 cap (size + (String.utf8EncodeChar char).length)
          (units + utf16Units char) text

variable {maxU16 cap : Nat}

theorem truncateFrom_utf8 {fuel : Nat} {text : List Char} {out : List UInt8} {units : Nat}
    (enough : (utf8 text).length ≤ fuel) :
    truncateFrom maxU16 cap fuel (utf8 text) out units =
      out ++ utf8 (fitting maxU16 cap out.length units text) := by
  induction text generalizing fuel out units with
  | nil =>
      rw [fitting, utf8_nil, List.append_nil]
      cases fuel <;> rfl
  | cons char text ih =>
      obtain ⟨first, rest, bytes, lead⟩ := announced_encoded char
      rw [utf8_cons, bytes, List.cons_append] at enough ⊢
      rw [List.length_cons, List.length_append] at enough
      cases fuel with
      | zero => omega
      | succ fuel =>
          have whole : first :: (rest ++ utf8 text) = (first :: rest) ++ utf8 text := rfl
          have short : min (rest.length + 1) ((rest ++ utf8 text).length + 1) =
              (first :: rest).length := by
            rw [List.length_append, List.length_cons]
            omega
          rw [truncateFrom, fitting, lead, bytes]
          dsimp only
          rw [short, whole]
          by_cases full : maxU16 < units + utf16Units char ∨
              cap ≤ out.length + (first :: rest).length
          · rw [if_pos full, if_pos full, utf8_nil, List.append_nil]
          · rw [if_neg full, if_neg full, List.drop_left, List.take_left, ih (by omega), utf8_cons,
              bytes, List.length_append, List.append_assoc]

theorem fitting_begins (size units : Nat) (text : List Char) :
    fitting maxU16 cap size units text <+: text := by
  induction text generalizing size units with
  | nil => exact List.nil_prefix
  | cons char text ih =>
      rw [fitting]
      split
      · exact List.nil_prefix
      · exact (List.cons_prefix_cons.mpr ⟨rfl, ih _ _⟩)

theorem fitting_bounds {size units : Nat} {text : List Char} (most : units ≤ maxU16)
    (room : size < cap) :
    units + textUnits (fitting maxU16 cap size units text) ≤ maxU16 ∧
      size + (utf8 (fitting maxU16 cap size units text)).length < cap := by
  induction text generalizing size units with
  | nil => exact ⟨most, room⟩
  | cons char text ih =>
      rw [fitting]
      by_cases full : maxU16 < units + utf16Units char ∨
          cap ≤ size + (String.utf8EncodeChar char).length
      · rw [if_pos full]
        exact ⟨most, room⟩
      · rw [if_neg full]
        obtain ⟨unitsFit, bytesFit⟩ := @ih (size + (String.utf8EncodeChar char).length)
          (units + utf16Units char) (by omega) (by omega)
        have sum : textUnits (char :: fitting maxU16 cap
            (size + (String.utf8EncodeChar char).length) (units + utf16Units char) text) =
            utf16Units char + textUnits (fitting maxU16 cap
              (size + (String.utf8EncodeChar char).length) (units + utf16Units char) text) :=
          List.sum_cons
        rw [sum, utf8_cons, List.length_append]
        omega

/-- Any front of the text within the limits is a front of what fits. -/
theorem fitting_longest {size units : Nat} {text front : List Char} (isFront : front <+: text)
    (unitsFit : units + textUnits front ≤ maxU16) (bytesFit : size + (utf8 front).length < cap) :
    front <+: fitting maxU16 cap size units text := by
  induction text generalizing size units front with
  | nil => exact isFront
  | cons char text ih =>
      cases front with
      | nil => exact List.nil_prefix
      | cons other front =>
          obtain ⟨rfl, later⟩ := List.cons_prefix_cons.mp isFront
          have sum : textUnits (other :: front) = utf16Units other + textUnits front :=
            List.sum_cons
          rw [sum] at unitsFit
          rw [utf8_cons, List.length_append] at bytesFit
          rw [fitting, if_neg (by omega)]
          exact List.cons_prefix_cons.mpr ⟨rfl, ih later (by omega) (by omega)⟩

theorem truncate_utf8 (text : List Char) (room : 0 < cap) :
    truncateUtf8ToUtf16Units (some (utf8 text)) maxU16 cap =
      some (utf8 (fitting maxU16 cap 0 0 text)) := by
  have whole := @truncateFrom_utf8 maxU16 cap (utf8 text).length text [] 0 (Nat.le_refl _)
  unfold truncateUtf8ToUtf16Units
  rw [if_neg (by omega)]
  exact congrArg some whole

/-- The longest front of the text, in whole characters, that has no more units and fits with its
terminator; cutting it again leaves it. Where there is no room at all nothing is written. -/
theorem truncate_longest (text : List Char) :
    truncateUtf8ToUtf16Units (some (utf8 text)) maxU16 0 = none ∧
      (0 < cap → ∃ front, front <+: text ∧
        truncateUtf8ToUtf16Units (some (utf8 text)) maxU16 cap = some (utf8 front) ∧
          textUnits front ≤ maxU16 ∧ (utf8 front).length + 1 ≤ cap ∧
            (∀ other, other <+: text → textUnits other ≤ maxU16 → (utf8 other).length + 1 ≤ cap →
              other <+: front) ∧
              truncateUtf8ToUtf16Units (some (utf8 front)) maxU16 cap = some (utf8 front)) := by
  refine ⟨rfl, fun room => ⟨fitting maxU16 cap 0 0 text, fitting_begins 0 0 text,
    truncate_utf8 text room, ?_⟩⟩
  obtain ⟨unitsFit, bytesFit⟩ := @fitting_bounds maxU16 cap 0 0 text (Nat.zero_le _) room
  rw [Nat.zero_add] at unitsFit bytesFit
  refine ⟨unitsFit, bytesFit, fun other isFront units bytes => ?_, ?_⟩
  · exact fitting_longest isFront (by omega) (by omega)
  · have again := @fitting_longest maxU16 cap 0 0 _ _
      (List.prefix_refl (fitting maxU16 cap 0 0 text)) (by omega) (by omega)
    have same := (fitting_begins 0 0 (fitting maxU16 cap 0 0 text)).eq_of_length_le again.length_le
    rw [truncate_utf8 _ room, same]

/-- A character of two units, and one for which there is no room. -/
def clefLabel : List Char := [Char.ofNat 0x1D11E, 'e']

theorem truncate_longest_clef : ∃ front, front <+: clefLabel ∧
    truncateUtf8ToUtf16Units (some (utf8 clefLabel)) 11 5 = some (utf8 front) ∧
      textUnits front ≤ 11 ∧ (utf8 front).length + 1 ≤ 5 ∧
        (∀ other, other <+: clefLabel → textUnits other ≤ 11 →
          (utf8 other).length + 1 ≤ 5 → other <+: front) ∧
          truncateUtf8ToUtf16Units (some (utf8 front)) 11 5 = some (utf8 front) :=
  (@truncate_longest 11 5 clefLabel).2 (by decide)

end Rufux.Macos
