import Rufux.Create.Effects.MacosSafety

/-!
What `rufux_create` takes on macOS it gives back, wherever a flow is left: attached images,
mount points, scratch directories and files, the mounted ISO. Until then every call finds held
what it needs, and the partition is never written while the volume on it is mounted.
-/

namespace Rufux.Create.Effects.Macos

open Library Block

-- each step of a block doubles the size that is counted for its instance
set_option synthInstance.maxSize 1000000000000000000

inductive Volume where
  | free
  | mounted
  | stuck
  deriving DecidableEq

/-- What has been taken from the system and not been given back. -/
structure Held where
  image : Bool
  formatting : Bool
  dir : Bool
  tree : Bool
  install : Bool
  iso : Bool
  volume : Volume
  deriving DecidableEq

def Held.nothing : Held where
  image := false
  formatting := false
  dir := false
  tree := false
  install := false
  iso := false
  volume := .free

/-- What a call needs to be held, by its kind. -/
def Held.allows (held : Held) : Kind → Bool
  | .asks | .scans | .copies | .takes => true
  | .unmounts => held.volume ≠ .mounted
  | .clears | .writes => held.volume = .free
  | .populates => held.volume = .free && held.tree
  | .fromIso => held.volume = .free && held.iso
  | .fromImage => held.volume = .free && held.install
  | .fills => held.volume = .mounted
  | .fillsFromIso => held.volume = .mounted && held.iso
  | .fillsFromImage => held.volume = .mounted && held.install
  | .stages => held.tree
  | .stagesFromIso => held.tree && held.iso
  | .stagesFromImage => held.tree && held.install
  | .stagesImage => held.install

/-- What is held after a call. Nothing is taken twice, given back when it is not held, or taken
from under a mounted volume. -/
def Held.after (held : Held) : Op → Bool → Option Held
  | .attachImage, ok => if held.image then none else some { held with image := ok }
  | .detachImage, _ =>
      if held.image && held.volume ≠ .mounted then some { held with image := false } else none
  | .attachFormat, ok => if held.formatting then none else some { held with formatting := ok }
  | .detachFormat, _ => if held.formatting then some { held with formatting := false } else none
  | .makeMountDir, ok =>
      if held.dir || held.volume ≠ .free then none else some { held with dir := ok }
  | .removeMountDir, _ =>
      if held.dir && held.volume = .free then some { held with dir := false } else none
  | .mountPrivate, ok =>
      if held.dir && held.volume = .free then
        some { held with volume := if ok then .mounted else .free }
      else none
  | .rufuxMount, ok =>
      if held.volume = .free then some { held with volume := if ok then .mounted else .free }
      else none
  | .unmountPrivate _, ok =>
      if held.dir && held.volume ≠ .free then
        some { held with volume := if ok then .free else .stuck }
      else none
  | .rufuxUnmount, ok =>
      if held.volume = .mounted then some { held with volume := if ok then .free else .stuck }
      else none
  | .scratchTree, ok | .scratchTreeNamed, ok =>
      if held.tree then none else some { held with tree := ok }
  | .removeTree, _ => if held.tree then some { held with tree := false } else none
  | .scratchImage, ok | .scratchImageNamed, ok =>
      if held.install then none else some { held with install := ok }
  | .removeImage, _ => if held.install then some { held with install := false } else none
  | .mountIso, ok => if held.iso then none else some { held with iso := ok }
  | .unmountIso, _ => if held.iso then some { held with iso := false } else none
  | _, _ => some held

def resources : Monitor Op Answer Held where
  next held event := if held.allows event.1.kind then held.after event.1 event.2 else none

section Steps

variable {L α : Type} {held : Held}

/-- What can be done while no volume is mounted. -/
@[reducible]
def ashore : Kind → Bool
  | .asks | .scans | .copies | .unmounts | .clears | .writes => true
  | _ => false

end Steps

section Flows

/-- What a flow holds, by its variables. -/
def heldOf (taken : Taken) : Held where
  image := taken.attached
  formatting := false
  dir := taken.mounted && !taken.usedMount
  tree := taken.staged
  install := taken.imageStaged
  iso := taken.isoMounted
  volume := if taken.mounted then .mounted else .free

/-- The variables that tell what the flow can do next. -/
structure Phase where
  mounted : Bool
  staged : Bool
  imageStaged : Bool
  isoMounted : Bool

def Taken.phase (taken : Taken) : Phase where
  mounted := taken.mounted
  staged := taken.staged
  imageStaged := taken.imageStaged
  isoMounted := taken.isoMounted

def idle : Phase where
  mounted := false
  staged := false
  imageStaged := false
  isoMounted := false

def Exact (phase : Phase) (taken : Taken) (held : Held) : Prop :=
  taken.phase = phase ∧ held = heldOf taken

variable {α : Type} {phase : Phase}

/-- What is done with the volume mounted. -/
@[reducible]
def inside : Kind → Bool
  | .asks | .fills => true
  | _ => false

section Images

/-- No phase has been entered, and an image is attached or not. -/
def Attached (attached : Bool) (taken : Taken) (held : Held) : Prop :=
  taken.attached = attached ∧ Exact idle taken held

theorem Attached.weaken {attached : Bool} (taken : Taken) (held : Held)
    (holds : Attached attached taken held) : Exact idle taken held :=
  holds.2

end Images

section Mounting

theorem removed {taken : Taken} {held : Held} (dir : held.dir = true) :
    (do let _ ← call .removeMountDir : Flow Unit).Wp resources
      (fun value after last => after = taken ∧
        last = if value.isSome then { held with dir := false, volume := .free }
          else { held with volume := .stuck })
      taken { held with volume := .free } := by
  refine wp_ask_bind.mpr ?_
  intro ok
  refine ⟨{ held with dir := false, volume := .free }, ?_, rfl, rfl⟩
  simp [resources, Held.allows, Held.after, dir]

end Mounting

section Windows

/-- The volume or the tree is there, whichever is written to. -/
def Phase.takes (phase : Phase) (mounted : Bool) : Bool :=
  if mounted then phase.mounted else phase.staged

abbrev staged : Phase := { idle with staged := true }

end Windows

section Bodies

variable (o : CreateOpts)

end Bodies

section Cleanup

/-- Where the volume is after the flow has tried to unmount it. -/
structure Unmounted (taken : Taken) (held last : Held) : Prop where
  rest : last = { held with dir := last.dir, volume := last.volume }
  volume : last.volume ≠ .mounted
  dir : last.dir = true → last.volume = .stuck
  still : taken.mounted = false → last = held

section Top

variable {L : Type} {α : Type}

variable (o : CreateOpts)

end Top

end Cleanup

end Flows

end Rufux.Create.Effects.Macos
