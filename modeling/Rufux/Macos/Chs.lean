import Rufux.Macos.Gpt

/-!
The three bytes of a CHS address, read back: cylinder, head and sector of a disk with 255 heads
of 63 sectors.
-/

namespace Rufux.Macos

open Library

/-- `max_chs_lba`. -/
def maxChsLba : Nat := 1024 * 255 * 63 - 1

structure Chs where
  cylinder : Nat
  head : Nat
  sector : Nat
deriving DecidableEq

/-- The fields of the three bytes; the cylinder's two high bits stand above the sector. -/
def decodeChs (bytes : List UInt8) : Chs where
  cylinder := (bytes.getD 2 0).toNat + (bytes.getD 1 0).toNat / 64 * 256
  head := (bytes.getD 0 0).toNat
  sector := (bytes.getD 1 0).toNat % 64

/-- The sector number of an address. -/
def Chs.lba (chs : Chs) : Nat := (chs.cylinder * 255 + chs.head) * 63 + (chs.sector - 1)

/-- One address after the other, as a head steps through its sectors and then its tracks. -/
def Chs.Le (first second : Chs) : Prop :=
  first.cylinder < second.cylinder ∨ (first.cylinder = second.cylinder ∧
    (first.head < second.head ∨ (first.head = second.head ∧ first.sector ≤ second.sector)))

/-- The fields of an address lie inside the bits they have. -/
structure Chs.Valid (chs : Chs) : Prop where
  cylinder : chs.cylinder < 1024
  head : chs.head < 255
  sector : 1 ≤ chs.sector ∧ chs.sector ≤ 63

theorem high_bits (value : Nat) (small : value < 256) : value &&& 0xC0 = value / 64 * 64 := by
  have all : ∀ byte : Fin 256, byte.val &&& 0xC0 = byte.val / 64 * 64 := by decide +kernel
  exact all ⟨value, small⟩

theorem sector_byte {sec cyl : Nat} (sector : sec < 64) (cylinder : cyl < 1024) :
    (UInt8.ofNat (sec % 64 ||| (cyl / 4 &&& 0xC0))).toNat = sec + cyl / 256 * 64 := by
  have split : sec % 64 ||| (cyl / 4 &&& 0xC0) = sec + cyl / 256 * 64 := by
    rw [high_bits _ (by omega), Nat.mod_eq_of_lt sector, Nat.div_div_eq_div_mul, Nat.lor_comm,
      Nat.mul_comm, Nat.add_comm]
    exact (Nat.two_pow_add_eq_or_of_lt (show sec < 2 ^ 6 from sector) (cyl / 256)).symm
  rw [split, UInt8.toNat_ofNat']
  omega

/-- What the bytes say: the coordinates of the sector number, or of the last one there is. -/
theorem decodeChs_encodeChs (lba : Nat) :
    decodeChs (encodeChs lba) =
      { cylinder := min lba maxChsLba / 63 / 255
        head := min lba maxChsLba / 63 % 255
        sector := min lba maxChsLba % 63 + 1 } := by
  unfold encodeChs
  rw [show 1024 * 255 * 63 - 1 = maxChsLba from rfl]
  by_cases beyond : maxChsLba < lba
  · rw [if_pos beyond, Nat.min_eq_right (Nat.le_of_lt beyond)]
    decide
  · rw [if_neg beyond, Nat.min_eq_left (Nat.le_of_not_lt beyond)]
    have cylinder : lba / 63 / 255 < 1024 := by
      unfold maxChsLba at beyond
      omega
    have byte := sector_byte (show lba % 63 + 1 < 64 by omega) cylinder
    change Chs.mk
      ((UInt8.ofNat (lba / 63 / 255)).toNat +
        (UInt8.ofNat ((lba % 63 + 1) % 64 ||| (lba / 63 / 255 / 4 &&& 0xC0))).toNat / 64 * 256)
      (UInt8.ofNat (lba / 63 % 255)).toNat
      ((UInt8.ofNat ((lba % 63 + 1) % 64 ||| (lba / 63 / 255 / 4 &&& 0xC0))).toNat % 64) = _
    rw [byte, UInt8.toNat_ofNat', UInt8.toNat_ofNat']
    congr 1 <;> omega

theorem lba_coordinates (value : Nat) :
    (Chs.mk (value / 63 / 255) (value / 63 % 255) (value % 63 + 1)).lba = value := by
  unfold Chs.lba
  dsimp only
  omega

theorem coordinates_le {first second : Nat} (ordered : first ≤ second) :
    (Chs.mk (first / 63 / 255) (first / 63 % 255) (first % 63 + 1)).Le
      (Chs.mk (second / 63 / 255) (second / 63 % 255) (second % 63 + 1)) := by
  unfold Chs.Le
  dsimp only
  omega

/-- The bytes stand for the sector number, or for the last one where it is larger; their fields
stay inside their bits, and follow the order of the sector numbers. -/
theorem encodeChs_exact (lba : UInt64) :
    (decodeChs (encodeChs lba.toNat)).lba = min lba.toNat (1024 * 255 * 63 - 1) ∧
      (decodeChs (encodeChs lba.toNat)).Valid ∧
        ∀ later : UInt64, lba ≤ later →
          (decodeChs (encodeChs lba.toNat)).Le (decodeChs (encodeChs later.toNat)) := by
  refine ⟨?_, ?_, fun later ordered => ?_⟩
  · rw [decodeChs_encodeChs, lba_coordinates]
    rfl
  · have most : min lba.toNat maxChsLba ≤ 1024 * 255 * 63 - 1 := Nat.min_le_right _ _
    rw [decodeChs_encodeChs]
    constructor <;> dsimp only <;> omega
  · rw [decodeChs_encodeChs, decodeChs_encodeChs]
    have numbers : lba.toNat ≤ later.toNat := ordered
    exact coordinates_le (by omega)

theorem encodeChs_exact_cylinder :
    (decodeChs (encodeChs (16064 : UInt64).toNat)).Le
      (decodeChs (encodeChs (16065 : UInt64).toNat)) :=
  (encodeChs_exact 16064).2.2 16065 (by decide)

end Rufux.Macos
