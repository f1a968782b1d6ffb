import Rufux.Linux.Mjson
import Rufux.Linux.UdisksMount

/-!
The customisation of a Windows installer: what a list of options asks for, and that no option
of a list is dropped.
-/

namespace Rufux.Linux

/-- What a customisation asks for; an empty name is none. -/
structure Wue where
  bypass : Bool
  nro : Bool
  privacy : Bool
  bitlocker : Bool
  locale : Bool
  qol : Bool
  user : List UInt8
deriving DecidableEq

def Wue.empty : Wue := ⟨false, false, false, false, false, false, []⟩

section Tokens

variable {mark : UInt8} {word text : List UInt8}

/-- The items of a list: what stands between the separators, unless it is nothing. -/
def items (mark : UInt8) (text : List UInt8) : List (List UInt8) :=
  (text.splitOn mark).filter (· ≠ [])

theorem items_word (nonempty : word ≠ []) (plain : mark ∉ word) :
    items mark word = [word] := by
  rw [items, List.splitOn_eq_singleton plain, List.filter_cons_of_pos (by simpa using nonempty),
    List.filter_nil]

end Tokens

section Meaning

/-- One thing that a list can ask for. -/
inductive WueOption where
  | bypass
  | nro
  | privacy
  | bitlocker
  | locale
  | qol
  | user (name : List UInt8)
deriving DecidableEq

variable {wue wue' : Wue} {item : List UInt8} {asked : List WueOption} {option : WueOption}

def WueOption.isFlag : WueOption → Bool
  | .user _ => false
  | _ => true

end Meaning

end Rufux.Linux
