import Rufux.Bootcheck.PeImage

/-!
The revocation levels and the two checks against them: the components that the `.sbat`
section lists, and the security version in the resources. The text of the levels is a
parameter.
-/

namespace Rufux.Bootcheck

open Library

/-! ### Text -/

def ascii (text : String) : CString := text.toList.map fun char => UInt8.ofNat char.toNat

/-- The lines that `strtok_r` returns one after the other. -/
def strtokLines (text : CString) : List CString := (text.splitOn 10).filter (· ≠ [])

/-- A line cut at its first comma. -/
def cutAtComma (ln : CString) : Option (CString × CString) :=
  if 44 ∈ ln then some (ln.takeWhile (· ≠ 44), (ln.dropWhile (· ≠ 44)).tail) else none

def isSpace (char : UInt8) : Bool := char = 32 || (9 ≤ char && char ≤ 13)

/-- The value of a digit, 36 where it is none. -/
def digitValue (char : UInt8) : Nat :=
  if 48 ≤ char ∧ char ≤ 57 then char.toNat - 48
  else if 97 ≤ char ∧ char ≤ 122 then char.toNat - 87
  else if 65 ≤ char ∧ char ≤ 90 then char.toNat - 55
  else 36

def digitsValue (base : Nat) (text : CString) : Nat :=
  (text.takeWhile fun char => digitValue char < base).foldl
    (fun value char => value * base + digitValue char) 0

/-- The digits of a number, whose base is told from its start where none is given. -/
def magnitude (base : Nat) (text : CString) : Nat :=
  if base ≠ 0 then digitsValue base text
  else
    match text with
    | 48 :: x :: rest =>
        if (x = 120 ∨ x = 88) ∧ (rest.head?.map fun char => decide (digitValue char < 16)) = some true
        then digitsValue 16 rest
        else digitsValue 8 (x :: rest)
    | _ => digitsValue 10 text

/-- The number at the start of a text, of any size. -/
def numberIn (base : Nat) (text : CString) : Int :=
  match text.dropWhile isSpace with
  | 45 :: rest => -magnitude base rest
  | 43 :: rest => magnitude base rest
  | rest => magnitude base rest

/-- What `strtoul` makes of a number. -/
def unsignedLong (number : Int) : Nat :=
  if 2 ^ 64 ≤ number.natAbs then 2 ^ 64 - 1 else (number % 2 ^ 64).toNat

/-- The cast to `uint32_t`. -/
def unsigned32 (number : Int) : Nat := unsignedLong number % 2 ^ 32

/-! ### Levels -/

structure Level where
  product : CString
  version : Nat
deriving DecidableEq

/-- The levels that the program is built with. -/
def builtinLevels : CString :=
  ascii "sbat,1,2025051000\nshim,4\ngrub,5\ngrub.proxmox,2\nBOOTMGRSECURITYVERSIONNUMBER,0x70000"

/-- `load_levels`. -/
def loadLevels (sbatLevel : CString) (max : Nat) : List Level :=
  (((strtokLines sbatLevel).filterMap cutAtComma).take max).map fun line =>
    ⟨line.1.take 63, unsigned32 (numberIn 0 line.2)⟩

def isUpper (name : CString) : Bool := name.all fun char => 65 ≤ char && char ≤ 90

/-- Why a component is revoked. -/
structure Below where
  component : CString
  generation : Nat
  minimum : Nat
deriving DecidableEq

/-- The loop over the lines of the section. -/
def sbatVerdict (lv : List Level) (sb : CString) : Option Below :=
  ((strtokLines sb).filterMap cutAtComma).findSome? fun line =>
    let ver := unsigned32 (numberIn 10 line.2)
    (lv.find? fun level =>
        !isUpper level.product && line.1 == level.product && decide (ver < level.version)).map
      fun level => ⟨line.1, ver, level.version⟩

section Checks

variable (sbatLevel : CString) (pe : Pe)

def revokedBySbat : Checked (Option Below) := do
  let found ← peSectionText pe (ascii ".sbat")
  match found with
  | none => pure none
  | some sb =>
      let text ← stringIn sb 0
      pure (sbatVerdict (loadLevels sbatLevel 16) text)

/-- The loop over the levels that are security versions, with the resources at an offset. It
returns the version and the required one. -/
def svnLevels (root : Nat) : List Level → Checked (Option (Nat × Nat))
  | [] => pure none
  | level :: rest => do
      if !isUpper level.product then svnLevels root rest
      else
        let leaf ← rsrcFind pe root level.product 5 root false
        match leaf with
        | none => svnLevels root rest
        | some (rva, count) =>
            if count ≠ 4 then svnLevels root rest
            else
              let off ← rvaToOff pe rva
              match off with
              | none => svnLevels root rest
              | some o =>
                  let stop ← size (o + 4)
                  if pe.b.length < stop then svnLevels root rest
                  else
                    let v ← rd32 pe.b o
                    if v < level.version then pure (some (v, level.version))
                    else svnLevels root rest

def revokedBySvn : Checked (Option (Nat × Nat)) := do
  let rr ← rd32 pe.b (pe.dd + 2 * 8)
  let rs ← rd32 pe.b (pe.dd + 2 * 8 + 4)
  if rr = 0 ∨ rs = 0 then pure none
  else
    let root ← rvaToOff pe rr
    match root with
    | none => pure none
    | some root => svnLevels pe root (loadLevels sbatLevel 16)

end Checks

end Rufux.Bootcheck
