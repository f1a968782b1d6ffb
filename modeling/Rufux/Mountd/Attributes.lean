import Rufux.Mountd.Protocol

/-!
When the attribute blocks of a result are truthful: a pre-operation block repeats the
attributes that its object had before, every other block those that its object has after.
-/

namespace Rufux.Mountd

/-- A pre-operation block, if there is one, repeats the attributes from before. -/
def PreHolds (before : Option NfsAttr) (block : Option WccPre) : Prop :=
  ∀ pre, block = some pre → before.map attrToWccPre = some pre

/-- An attribute block, if there is one, repeats the attributes from after. -/
def PostHolds (after block : Option NfsAttr) : Prop :=
  ∀ attr, block = some attr → after = some attr

/-- A block that the reply marks as present was written, and with the attributes from after. -/
def ObjectHolds (after block : Option NfsAttr) : Prop := block ≠ none ∧ after = block

section Blocks

variable {before after : Option NfsAttr} {attr : NfsAttr}

@[simp] theorem preHolds_none : PreHolds before none := fun _ bad => nomatch bad

@[simp] theorem postHolds_none : PostHolds after none := fun _ bad => nomatch bad

@[simp] theorem preHolds_some (pre : WccPre) :
    PreHolds before (some pre) ↔ before.map attrToWccPre = some pre := by
  constructor
  · intro holds
    exact holds pre rfl
  · rintro same pre ⟨⟩
    exact same

@[simp] theorem postHolds_some : PostHolds after (some attr) ↔ after = some attr := by
  constructor
  · intro holds
    exact holds attr rfl
  · rintro same attr ⟨⟩
    exact same

theorem preHolds_map (same : before = some attr) : PreHolds before (some (attrToWccPre attr)) := by
  rw [preHolds_some, same, Option.map_some]

@[simp] theorem objectHolds_none : ¬ ObjectHolds after none := fun holds => holds.1 rfl

@[simp] theorem objectHolds_some : ObjectHolds after (some attr) ↔ after = some attr := by
  constructor
  · exact And.right
  · intro same
    exact ⟨Option.some_ne_none attr, same⟩

end Blocks

variable (before after : Nat → Option NfsAttr)

def DirResult.Holds (dir : Nat) (result : DirResult) : Prop :=
  PreHolds (before dir) result.pre ∧ PostHolds (after dir) result.post

/-- CREATE, MKDIR and SYMLINK mark the new object's block as present when they succeed. -/
def ObjResult.Holds (dir : Nat) (result : ObjResult) : Prop :=
  (result.status = .ok → ObjectHolds (after result.ino) result.attr) ∧
    PreHolds (before dir) result.pre ∧ PostHolds (after dir) result.post

def WriteResult.Holds (ino : Nat) (result : WriteResult) : Prop :=
  PreHolds (before ino) result.pre ∧ PostHolds (after ino) result.post

def RenameResult.Holds (fromDir toDir : Nat) (result : RenameResult) : Prop :=
  (PreHolds (before fromDir) result.fromPre ∧ PostHolds (after fromDir) result.fromPost) ∧
    PreHolds (before toDir) result.toPre ∧ PostHolds (after toDir) result.toPost

def LinkResult.Holds (ino dir : Nat) (result : LinkResult) : Prop :=
  PostHolds (after ino) result.attr ∧
    PreHolds (before dir) result.pre ∧ PostHolds (after dir) result.post

section Refusals

variable {before after} {dir : Nat} {dirAttr : NfsAttr} (status : Nfsstat)

theorem DirResult.early_holds : (DirResult.early status).Holds before after dir :=
  ⟨preHolds_none, postHolds_none⟩

theorem ObjResult.early_holds (failed : status ≠ .ok) :
    (ObjResult.early status).Holds before after dir :=
  ⟨fun fine => absurd fine failed, preHolds_none, postHolds_none⟩

/-- A refusal is truthful when the volume's attributes are those that it repeats. -/
theorem DirResult.refuse_holds_iff : (DirResult.refuse status dirAttr).Holds before after dir ↔
    PreHolds (before dir) (some (attrToWccPre dirAttr)) ∧ after dir = some dirAttr := by
  rw [DirResult.Holds, DirResult.refuse, postHolds_some]

theorem ObjResult.refuse_holds_iff (failed : status ≠ .ok) :
    (ObjResult.refuse status dirAttr).Holds before after dir ↔
      PreHolds (before dir) (some (attrToWccPre dirAttr)) ∧ after dir = some dirAttr := by
  rw [ObjResult.Holds, ObjResult.refuse, postHolds_some]
  exact and_iff_right fun fine => absurd fine failed

theorem DirResult.refuse_holds (same : after dir = some dirAttr) (kept : before dir = after dir) :
    (DirResult.refuse status dirAttr).Holds before after dir :=
  (DirResult.refuse_holds_iff status).mpr ⟨preHolds_map (kept.trans same), same⟩

theorem ObjResult.refuse_holds (failed : status ≠ .ok) (same : after dir = some dirAttr)
    (kept : before dir = after dir) : (ObjResult.refuse status dirAttr).Holds before after dir :=
  (ObjResult.refuse_holds_iff status failed).mpr ⟨preHolds_map (kept.trans same), same⟩

end Refusals

end Rufux.Mountd
