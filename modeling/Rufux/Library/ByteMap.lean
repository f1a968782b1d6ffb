import Mathlib

/-!
Memory as a byte at every address: placing bytes, reading them back, little-endian
numbers, and what a sequence of writes leaves.
-/

namespace Rufux.Library

def leBytes : Nat → Nat → List UInt8
  | 0, _ => []
  | width + 1, value => UInt8.ofNat value :: leBytes width (value / 256)

def leNat : List UInt8 → Nat
  | [] => 0
  | byte :: rest => byte.toNat + 256 * leNat rest

@[simp] theorem length_leBytes (width value : Nat) : (leBytes width value).length = width := by
  induction width generalizing value with
  | zero => rfl
  | succ width ih => simp [leBytes, ih]

theorem leNat_leBytes (width : Nat) {value : Nat} (fits : value < 256 ^ width) :
    leNat (leBytes width value) = value := by
  induction width generalizing value with
  | zero =>
      have zero : value = 0 := by simpa using fits
      rw [zero, leBytes, leNat]
  | succ width ih =>
      have rest : leNat (leBytes width (value / 256)) = value / 256 :=
        ih (by rw [Nat.pow_succ] at fits; omega)
      rw [leBytes, leNat, rest, UInt8.toNat_ofNat']
      omega

theorem leNat_lt (bytes : List UInt8) : leNat bytes < 256 ^ bytes.length := by
  induction bytes with
  | nil => simp [leNat]
  | cons byte rest ih =>
      have small := byte.toNat_lt
      rw [leNat, List.length_cons, Nat.pow_succ]
      omega

/-- A byte at every address. -/
abbrev ByteMap := Nat → UInt8

namespace ByteMap

def zeros : ByteMap := fun _ => 0

/-- The first `len` bytes of a source, placed at an address. -/
def place (map : ByteMap) (off : Nat) (source : ByteMap) (len : Nat) : ByteMap := fun index =>
  if off ≤ index ∧ index < off + len then source (index - off) else map index

def put (map : ByteMap) (off : Nat) (bytes : List UInt8) : ByteMap :=
  map.place off (fun index => bytes.getD index 0) bytes.length

def get (map : ByteMap) (off len : Nat) : List UInt8 :=
  (List.range len).map fun index => map (off + index)

/-- The little-endian number at an address. -/
def le (map : ByteMap) (off width : Nat) : Nat := leNat (map.get off width)

variable {map other source : ByteMap} {off len index start count width value : Nat}
  {bytes : List UInt8}

theorem place_inside (lower : off ≤ index) (upper : index < off + len) :
    map.place off source len index = source (index - off) :=
  if_pos ⟨lower, upper⟩

theorem place_outside (outside : index < off ∨ off + len ≤ index) :
    map.place off source len index = map index :=
  if_neg (by omega)

@[simp] theorem length_get : (map.get off len).length = len := by
  rw [get, List.length_map, List.length_range]

theorem head?_get : (map.get off (len + 1)).head? = some (map off) := by
  rw [get, List.range_succ_eq_map]
  rfl

theorem get_congr (same : ∀ index, index < len → map (off + index) = other (start + index)) :
    map.get off len = other.get start len := by
  apply List.map_congr_left
  intro index member
  exact same index (List.mem_range.mp member)

theorem get_append : map.get off (len + count) = map.get off len ++ map.get (off + len) count := by
  simp only [get, List.range_add, List.map_append, List.map_map]
  congr 1
  apply List.map_congr_left
  intro index _
  exact congrArg map (Nat.add_assoc off len index).symm

theorem getElem?_get (inside : index < len) : (map.get off len)[index]? = some (map (off + index)) := by
  rw [get, List.getElem?_map, List.getElem?_range inside]
  rfl

/-- Reading a part of what was placed reads it off the source. -/
theorem get_place (lower : off ≤ start) (upper : start + count ≤ off + len) :
    (map.place off source len).get start count = source.get (start - off) count := by
  apply get_congr
  intro index bound
  rw [place_inside (by omega) (by omega)]
  congr 1
  omega

theorem get_place_outside (outside : start + count ≤ off ∨ off + len ≤ start) :
    (map.place off source len).get start count = map.get start count := by
  apply get_congr
  intro index bound
  exact place_outside (by omega)

theorem get_put : (map.put off bytes).get off bytes.length = bytes := by
  rw [put, get_place (Nat.le_refl off) (Nat.le_refl _), Nat.sub_self]
  apply List.ext_getElem
  · exact length_get
  · intro index left right
    simp [get, right]

theorem get_put_of_length (size : bytes.length = len) : (map.put off bytes).get off len = bytes := by
  subst size
  exact get_put

theorem get_put_outside (outside : start + count ≤ off ∨ off + bytes.length ≤ start) :
    (map.put off bytes).get start count = map.get start count :=
  get_place_outside outside

theorem put_inside (inside : index < bytes.length) : map.put off bytes (off + index) =
    bytes.getD index 0 := by
  rw [put, place_inside (by omega) (by omega), Nat.add_sub_cancel_left]

@[simp] theorem put_nil : map.put off [] = map := by
  funext index
  exact place_outside (by simp only [List.length_nil]; omega)

/-- Two lists put one behind the other are their concatenation. -/
theorem put_append {more : List UInt8} :
    (map.put off bytes).put (off + bytes.length) more = map.put off (bytes ++ more) := by
  funext index
  have both : (bytes ++ more).length = bytes.length + more.length := List.length_append
  by_cases outside : index < off ∨ off + bytes.length + more.length ≤ index
  · unfold put
    rw [place_outside (by omega), place_outside (by omega), place_outside (by omega)]
  · by_cases first : index < off + bytes.length
    · unfold put
      rw [place_outside (by omega), place_inside (by omega) first,
        place_inside (by omega) (by omega), List.getD_append _ _ _ _ (by omega)]
    · unfold put
      rw [place_inside (by omega) (by omega), place_inside (by omega) (by omega),
        List.getD_append_right _ _ _ _ (by omega), Nat.sub_sub]

/-- A stretch of what was put is that stretch of the list. -/
theorem get_put_part (map : ByteMap) (off : Nat) (front middle back : List UInt8) :
    (map.put off (front ++ middle ++ back)).get (off + front.length) middle.length = middle := by
  apply List.ext_getElem
  · exact length_get
  · intro index left right
    simp only [get, List.getElem_map, List.getElem_range, Nat.add_assoc]
    rw [put_inside (by simp only [List.length_append]; omega), List.append_assoc,
      List.getD_append_right _ _ _ _ (by omega), Nat.add_sub_cancel_left,
      List.getD_append _ _ _ _ right, List.getD_eq_getElem _ _ right]

theorem le_put_part (map : ByteMap) (off : Nat) {front : List UInt8} (back : List UInt8)
    (start : front.length = count) (fits : value < 256 ^ width) :
    (map.put off (front ++ leBytes width value ++ back)).le (off + count) width = value := by
  subst start
  have part := get_put_part map off front (leBytes width value) back
  rw [length_leBytes] at part
  rw [le, part, leNat_leBytes width fits]

theorem put_outside (outside : index < off ∨ off + bytes.length ≤ index) :
    map.put off bytes index = map index :=
  place_outside outside

theorem le_put (fits : value < 256 ^ width) : (map.put off (leBytes width value)).le off width =
    value := by
  rw [le, get_put_of_length (length_leBytes width value), leNat_leBytes width fits]

theorem le_put_outside (outside : start + width ≤ off ∨ off + bytes.length ≤ start) :
    (map.put off bytes).le start width = map.le start width := by
  rw [le, get_put_outside outside, le]

theorem le_congr (same : ∀ index, index < width → map (off + index) = other (start + index)) :
    map.le off width = other.le start width := by
  rw [le, get_congr same, le]

theorem le_lt : map.le off width < 256 ^ width := by
  have bound := leNat_lt (map.get off width)
  rwa [length_get] at bound

/-- One write: so many bytes of a source at an address. -/
structure Write where
  off : Nat
  len : Nat
  source : ByteMap

def Write.Covers (write : Write) (index : Nat) : Prop :=
  write.off ≤ index ∧ index < write.off + write.len

def apply (map : ByteMap) (write : Write) : ByteMap := map.place write.off write.source write.len

def applyAll (map : ByteMap) (writes : List Write) : ByteMap := writes.foldl apply map

theorem applyAll_append (first second : List Write) :
    map.applyAll (first ++ second) = (map.applyAll first).applyAll second :=
  List.foldl_append

/-- What no write covers stays as it was. -/
theorem applyAll_outside {writes : List Write} (outside : ∀ write ∈ writes, ¬ write.Covers index) :
    map.applyAll writes index = map index := by
  induction writes generalizing map with
  | nil => rfl
  | cons write rest ih =>
      obtain ⟨first, later⟩ := List.forall_mem_cons.mp outside
      rw [applyAll, List.foldl_cons]
      change (map.apply write).applyAll rest index = map index
      rw [ih later]
      exact if_neg first

/-- The last write that covers an address decides what stands there. -/
theorem applyAll_last {before after : List Write} {write : Write} (covers : write.Covers index)
    (outside : ∀ later ∈ after, ¬ later.Covers index) :
    map.applyAll (before ++ write :: after) index = write.source (index - write.off) := by
  rw [applyAll_append, applyAll, List.foldl_cons]
  change ((map.applyAll before).apply write).applyAll after index = _
  rw [applyAll_outside outside]
  exact if_pos covers

/-- If every write that covers an address writes the same byte there, and one does, that
byte stands there at the end. -/
theorem applyAll_agreed {writes : List Write} {byte : UInt8}
    (agreed : ∀ write ∈ writes, write.Covers index → write.source (index - write.off) = byte)
    (covered : map index = byte ∨ ∃ write ∈ writes, write.Covers index) :
    map.applyAll writes index = byte := by
  induction writes generalizing map with
  | nil =>
      rcases covered with same | ⟨_, member, _⟩
      · exact same
      · cases member
  | cons write rest ih =>
      obtain ⟨first, later⟩ := List.forall_mem_cons.mp agreed
      change (map.apply write).applyAll rest index = byte
      refine ih later ?_
      by_cases covers : write.Covers index
      · exact .inl ((if_pos covers).trans (first covers))
      · rcases covered with same | ⟨other, member, covers'⟩
        · exact .inl ((if_neg covers).trans same)
        · rcases List.mem_cons.mp member with rfl | member
          · exact absurd covers' covers
          · exact .inr ⟨other, member, covers'⟩

end ByteMap

end Rufux.Library
