import Rufux.Library.EditDistance
import Rufux.Linux.UdisksMount

/-!
The strict check of the options of a command line, and the option that is proposed for a misspelt
one.
-/

namespace Rufux.Cli

open Library Linux

/-- An argument as its bytes. -/
abbrev Arg := List UInt8

structure CmdSpec where
  cmd : Arg
  flags : Arg
  values : Arg
  deriving DecidableEq

/-- The bytes of a text, from its characters. -/
theorem ascii_ofList (chars : List Char) :
    ascii (String.ofList chars) = chars.map fun char => UInt8.ofNat char.toNat := by
  rw [ascii, String.toList_ofList]

def specs : List CmdSpec :=
  [⟨ascii "list", ascii "--allow-fixed --json", ascii ""⟩,
    ⟨ascii "probe", ascii "--detail", ascii ""⟩,
    ⟨ascii "checksum", ascii "", ascii "--algo"⟩,
    ⟨ascii "write", ascii "--allow-file --allow-fixed --dry-run --real --verify --yes", ascii ""⟩,
    ⟨ascii "partition", ascii "--allow-file --allow-fixed --bios-boot --dry-run --real --yes",
      ascii "--fs --layout --scheme"⟩,
    ⟨ascii "format", ascii "--allow-file --allow-fixed --dry-run --real --yes",
      ascii "--fs --label"⟩,
    ⟨ascii "extract", ascii "--dry-run", ascii ""⟩,
    ⟨ascii "install-boot", ascii "--allow-file --allow-fixed --dry-run --real --yes",
      ascii "--mbr"⟩,
    ⟨ascii "persist", ascii "--dry-run", ascii "--label --size"⟩,
    ⟨ascii "badblocks", ascii "--allow-file --yes", ascii "--write-patterns"⟩,
    ⟨ascii "mount", ascii "--dry-run", ascii ""⟩,
    ⟨ascii "umount", ascii "--dry-run", ascii ""⟩,
    ⟨ascii "secureboot-status", ascii "", ascii ""⟩,
    ⟨ascii "validate-efi", ascii "", ascii ""⟩,
    ⟨ascii "smart", ascii "", ascii ""⟩,
    ⟨ascii "check-boot", ascii "", ascii ""⟩,
    ⟨ascii "update-check", ascii "", ascii ""⟩,
    ⟨ascii "download-windows", ascii "--list --list-langs --url-only",
      ascii "--arch --edition --lang --out --version"⟩,
    ⟨ascii "create",
      ascii "--allow-file --allow-fixed --dry-run --full --ignore-smart --no-autorun --quick " ++
        ascii "--real --uefi-validate --verify --yes",
      ascii "--badblock-passes --cluster-sectors --fs --keyboard --label --locale --mode " ++
        ascii "--persist-mb --scheme --split-wim --timezone --wue"⟩]

/-- What the loops over a list of words find between its blanks, the word so far first. -/
def segmentsFrom : Arg → Arg → List Arg
  | word, [] => [word.reverse]
  | word, byte :: rest =>
      if byte = 32 then
        if word = [] then segmentsFrom [] rest else word.reverse :: segmentsFrom [] rest
      else segmentsFrom (byte :: word) rest

def segments (list : Arg) : List Arg := if list = [] then [] else segmentsFrom [] list

def inList (list word : Arg) : Bool := (segments list).contains word

def editDistance (a b : Arg) : Nat :=
  if 40 < a.length ∨ 40 < b.length then 99 else editTable a b

/-- The words that `closest_option` looks at, flags first. -/
def candidates (sp : CmdSpec) : List Arg :=
  (segments sp.flags ++ segments sp.values).filter fun word => word ≠ [] ∧ word.length < 64

def closestOption (sp : CmdSpec) (bad : Arg) : Option Arg :=
  nearest (editDistance bad) 3 (candidates sp)

/-- Why a command line is refused. -/
inductive Complaint where
  | needsValue (option : Arg)
  | unknown (option : Arg) (guess : Option Arg)
  deriving DecidableEq

/-- A path or another argument that is no option. -/
def plain (arg : Arg) : Bool := arg.head? ≠ some 45 || arg.length = 1

/-- The loop of `validate_flags`. -/
def validateFrom (sp : CmdSpec) : List Arg → Option Complaint
  | [] => none
  | arg :: rest =>
      if plain arg then validateFrom sp rest
      else if inList sp.flags arg then validateFrom sp rest
      else if inList sp.values arg then
        match rest with
        | [] => some (.needsValue arg)
        | _ :: rest => validateFrom sp rest
      else some (.unknown arg (closestOption sp arg))

/-- The check of the arguments behind the command. An unknown command is left to the usage text. -/
def validateFlags (cmd : Arg) (args : List Arg) : Option Complaint :=
  match specs.find? (·.cmd = cmd) with
  | none => none
  | some sp => validateFrom sp args

section Closest

theorem length_candidates : ∀ sp ∈ specs, ∀ word ∈ candidates sp, word.length ≤ 37 := by
  have short : specs.all fun sp => (candidates sp).all fun word => word.length ≤ 37 := by
    unfold specs
    repeat rw [ascii_ofList]
    decide +kernel
  simpa using short

/-- The table of `edit_distance` holds the distances of short words; a longer word is far from
every option. -/
theorem editDistance_lt {bad word : Arg} (short : word.length ≤ 37) {cost : Nat}
    (distance : IsDistance bad word cost) :
    (editDistance bad word < 3 → editDistance bad word = cost) ∧
      (cost < 3 → editDistance bad word = cost) := by
  unfold editDistance
  split
  next long =>
    have bound := distance.1.length_le
    constructor
    · omega
    · omega
  next fits =>
    have same := (isDistance_editTable bad word).unique distance
    exact ⟨fun _ => same, fun _ => same⟩

/-- The option that is proposed is the first of those with the least number of changes, two at
most; none is proposed only when each takes more. -/
theorem closestOption_spec (sp : CmdSpec) (known : sp ∈ specs) (bad : Arg) :
    match closestOption sp bad with
    | some guess => ∃ cost before after, IsDistance bad guess cost ∧ cost ≤ 2 ∧
        candidates sp = before ++ guess :: after ∧
        (∀ word ∈ before, ∀ other, IsDistance bad word other → cost < other) ∧
        ∀ word ∈ after, ∀ other, IsDistance bad word other → cost ≤ other
    | none => ∀ word ∈ candidates sp, ∀ other, IsDistance bad word other → 2 < other := by
  have short := length_candidates sp known
  have measured : ∀ word ∈ candidates sp, ∀ other, IsDistance bad word other →
      (editDistance bad word < 3 → editDistance bad word = other) ∧
        (other < 3 → editDistance bad word = other) :=
    fun word member other distance => editDistance_lt (short word member) distance
  split
  next guess hit =>
    obtain ⟨near, before, after, split, first, later⟩ := nearest_eq_some hit
    have member : guess ∈ candidates sp := by simp [split]
    have real := isDistance_editTable bad guess
    have exact := (measured guess member _ real).1 near
    refine ⟨_, before, after, real, by omega, split, ?_, ?_⟩
    · intro word earlier other distance
      have ahead := first word earlier
      have same := measured word (by simp [split, earlier]) other distance
      omega
    · intro word behind other distance
      have ahead := later word behind
      have same := measured word (by simp [split, behind]) other distance
      omega
  next missed =>
    intro word member other distance
    have far := nearest_eq_none missed word member
    have same := measured word member other distance
    omega

theorem closestOption_spec_rela :
    ∃ guess cost, closestOption specs[3] (ascii "--rela") = some guess ∧
      IsDistance (ascii "--rela") guess cost ∧ cost ≤ 2 := by
  have spec := closestOption_spec specs[3] (List.getElem_mem _) (ascii "--rela")
  have hit : closestOption specs[3] (ascii "--rela") = some (ascii "--real") := by
    unfold specs
    repeat rw [ascii_ofList]
    decide +kernel
  rw [hit] at spec
  obtain ⟨cost, _, _, real, few, _⟩ := spec
  exact ⟨_, cost, hit, real, few⟩

end Closest

end Rufux.Cli
