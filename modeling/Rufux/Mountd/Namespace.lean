import Rufux.Mountd.Ext.Edits
import Rufux.Mountd.Ntfs.Edits
import Rufux.Mountd.Objects

/-!
What one request does to the directory graph, on either backend.
-/

namespace Rufux.Mountd

open Rufux.Library

def Calls.Whole (calls : Calls) : Volume → Prop
  | .ntfs _ => calls.ntfs.Whole
  | .ext _ => calls.ext.Whole

def Volume.Tidy : Volume → Prop
  | .ntfs mount => mount.Tidy
  | .ext volume => volume.Tidy

def Volume.Edited (proper : Prop) (asked : Nat) : Volume → Volume → Prop
  | .ntfs before, .ntfs after => before.Edited proper asked after
  | .ext before, .ext after => before.Edited proper after
  | _, _ => False

/-- A number stands for a live directory. -/
def Volume.LiveDir (volume : Volume) (number : Nat) : Prop :=
  match volume with
  | .ntfs mount => mount.volume.graph.IsDir number
  | .ext volume => volume.graph.IsDir number

/-- `below` is `above` or somewhere under it. -/
def Volume.Within (volume : Volume) (above below : Nat) : Prop :=
  match volume with
  | .ntfs mount => mount.volume.graph.Within above below
  | .ext volume => volume.graph.Within above below

/-- RENAME names a directory as its source and a place in it, or below it, as its target. -/
structure OwnSubtree (server : Server) (volume : Volume) (fromDir : Nat) (fromName : Name)
    (toDir number : Nat) : Prop where
  source : boundTo server volume fromDir fromName = some number
  isDir : volume.LiveDir number
  below : volume.Within number (volume.number toDir)

def Request.OwnSubtree (server : Server) (volume : Volume) : Request → Prop
  | .rename fromFh fromName toFh _ =>
      ∃ fromDir toDir number, xdrGetFh fromFh = some fromDir ∧ xdrGetFh toFh = some toDir ∧
        Mountd.OwnSubtree server volume fromDir fromName toDir number
  | _ => False

/-- The handle of an object whose parent the request may ask for. -/
def Request.asker : Request → Option Handle
  | .lookup dir _ | .readdir dir _ _ _ | .readdirplus dir _ _ _ _ => some dir
  | .setattr fh _ _ | .write fh _ _ _ _ => some fh
  | _ => none

def Request.asked (request : Request) : Nat := (request.asker.bind xdrGetFh).getD 0

section Edited

variable {proper : Prop} {server : Server} {calls : Calls} {volume : Volume} {asked : Nat}

theorem Volume.Tidy.refl (tidy : volume.Tidy) : Volume.Edited proper asked volume volume := by
  cases volume with
  | ntfs mount => exact NtfsMount.Tidy.refl tidy
  | ext volume => exact ExtVolume.Tidy.refl tidy

theorem Volume.Edited.tidy {after : Volume} (edited : Volume.Edited proper asked volume after) :
    after.Tidy := by
  cases volume <;> cases after
  · exact NtfsMount.Edited.tidy edited
  · exact edited.elim
  · exact edited.elim
  · exact ExtVolume.Edited.tidy edited

theorem fsReaddir_edited (tidy : volume.Tidy) (dirIno : Nat) :
    Volume.Edited proper dirIno volume (fsReaddir server calls volume dirIno).2.2 := by
  cases volume with
  | ntfs mount => exact ntfsOpReaddir_edited tidy
  | ext volume => exact ExtVolume.Tidy.refl tidy

theorem fsSyncAll_edited (tidy : volume.Tidy) :
    Volume.Edited proper asked volume (fsSyncAll calls volume) := by
  cases volume with
  | ntfs mount => exact ntfsSyncAll_edited tidy
  | ext volume => exact (editsInode_flush _ volume 0).edited tidy

theorem handleProc_edited (whole : calls.Whole volume) (tidy : volume.Tidy) (request : Request)
    (above : proper → ¬ request.OwnSubtree server volume) :
    Volume.Edited proper request.asked volume (handleProc server calls volume request).2 := by
  cases request with
  | null => exact tidy.refl
  | mnt path => exact tidy.refl
  | umnt path => exact fsSyncAll_edited tidy
  | umntall => exact fsSyncAll_edited tidy
  | getattr fh =>
      simp only [handleProc]
      split <;> exact tidy.refl
  | access fh wanted =>
      simp only [handleProc]
      split <;> exact tidy.refl
  | readlink fh =>
      simp only [handleProc]
      split <;> exact tidy.refl
  | read fh offset count =>
      simp only [handleProc]
      split <;> exact tidy.refl
  | mknod dir name =>
      simp only [handleProc]
      split <;> exact tidy.refl
  | fsstat fh =>
      simp only [handleProc]
      split <;> exact tidy.refl
  | fsinfo fh =>
      simp only [handleProc]
      split <;> exact tidy.refl
  | pathconf fh =>
      simp only [handleProc]
      split <;> exact tidy.refl
  | setattr fh sattr guard =>
      simp only [handleProc]
      split
      · exact tidy.refl
      rename_i ino decoded
      have asked : (Request.setattr fh sattr guard).asked = ino := by
        simp [Request.asked, Request.asker, decoded]
      rw [asked]
      simp only [handleSetattr]
      split
      · exact tidy.refl
      split
      · exact tidy.refl
      cases volume with
      | ntfs mount => exact ntfsOpSetattr_edited tidy sattr
      | ext volume => exact (editsInode_opSetattr _ _ volume ino sattr).edited tidy
  | lookup dir name =>
      simp only [handleProc]
      split
      · exact tidy.refl
      rename_i dirIno decoded
      have asked : (Request.lookup dir name).asked = dirIno := by
        simp [Request.asked, Request.asker, decoded]
      rw [asked]
      cases volume with
      | ntfs mount => exact ntfsOpLookup_edited tidy
      | ext volume => exact ExtVolume.Tidy.refl tidy
  | write fh offset count stable data =>
      simp only [handleProc]
      split
      · exact tidy.refl
      rename_i ino decoded
      have asked : (Request.write fh offset count stable data).asked = ino := by
        simp [Request.asked, Request.asker, decoded]
      rw [asked]
      cases volume with
      | ntfs mount => exact ntfsOpWrite_edited tidy offset _ stable
      | ext volume => exact (editsInode_opWrite _ _ volume ino offset _ stable).edited tidy
  | create dir name how =>
      simp only [handleProc]
      split
      · exact tidy.refl
      rename_i dirIno decoded
      cases volume with
      | ntfs mount => exact ntfsOpCreate_edited tidy (xdrGetFh_ne_zero decoded) how.mode how.sattr
      | ext volume => exact extOpCreate_edited whole tidy how.mode how.sattr
  | mkdir dir name sattr =>
      simp only [handleProc]
      split
      · exact tidy.refl
      rename_i dirIno decoded
      cases volume with
      | ntfs mount => exact ntfsOpMkdir_edited tidy (xdrGetFh_ne_zero decoded) _
      | ext volume => exact extOpMkdir_edited tidy _
  | symlink dir name sattr target =>
      simp only [handleProc]
      split
      · exact tidy.refl
      rename_i dirIno decoded
      cases volume with
      | ntfs mount => exact ntfsOpSymlink_edited tidy (xdrGetFh_ne_zero decoded) _ target
      | ext volume => exact extOpSymlink_edited tidy _ target
  | remove dir name =>
      simp only [handleProc]
      split
      · exact tidy.refl
      cases volume with
      | ntfs mount => exact ntfsOpUnlinkCommon_edited tidy
      | ext volume => exact extOpRemove_edited (ExtCalls.Whole.count whole) tidy
  | rmdir dir name =>
      simp only [handleProc]
      split
      · exact tidy.refl
      cases volume with
      | ntfs mount => exact ntfsOpUnlinkCommon_edited tidy
      | ext volume => exact extOpRmdir_edited tidy
  | rename fromFh fromName toFh toName =>
      simp only [handleProc]
      split
      swap
      · exact tidy.refl
      rename_i fromDir toDir fromDecoded toDecoded
      cases volume with
      | ntfs mount =>
          refine ntfsOpRename_edited whole tidy (xdrGetFh_ne_zero toDecoded) ?_
          intro holds fu number legal bound isDir below
          refine above holds ⟨fromDir, toDir, number, fromDecoded, toDecoded, ?_, isDir, below⟩
          simp only [boundTo, legal]
          exact bound
      | ext volume =>
          refine extOpRename_edited whole tidy ?_
          intro holds number bound isDir below
          exact above holds ⟨fromDir, toDir, number, fromDecoded, toDecoded, bound, isDir, below⟩
  | link fh dir name =>
      simp only [handleProc]
      split
      swap
      · exact tidy.refl
      rename_i ino dirIno decoded dirDecoded
      cases volume with
      | ntfs mount => exact ntfsOpLink_edited tidy _
      | ext volume => exact extOpLink_edited whole tidy ino
  | readdir dir cookie verf count =>
      simp only [handleProc]
      split
      · exact tidy.refl
      rename_i dirIno decoded
      have asked : (Request.readdir dir cookie verf count).asked = dirIno := by
        simp [Request.asked, Request.asker, decoded]
      rw [asked, handleReaddir_volume]
      exact fsReaddir_edited tidy dirIno
  | readdirplus dir cookie verf dircount maxcount =>
      simp only [handleProc]
      split
      · exact tidy.refl
      rename_i dirIno decoded
      have asked : (Request.readdirplus dir cookie verf dircount maxcount).asked = dirIno := by
        simp [Request.asked, Request.asker, decoded]
      rw [asked, handleReaddirplus_volume]
      exact fsReaddir_edited tidy dirIno
  | commit fh offset count =>
      simp only [handleProc]
      split
      · exact tidy.refl
      rename_i ino decoded
      cases volume with
      | ntfs mount => exact ntfsOpCommit_edited tidy _
      | ext volume => exact (editsInode_opCommit _ _ volume ino).edited tidy

end Edited

end Rufux.Mountd
