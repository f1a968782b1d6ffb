import Rufux.Mountd.Ext.Frame
import Rufux.Mountd.Ntfs.Frame
import Rufux.Mountd.Server

/-!
The objects of a volume on either backend: what a reference or a name leads to, what it
means that an object is as before, and which objects are the file system's own.
-/

namespace Rufux.Mountd

open Rufux.Library

/-- The number that a reference stands for. -/
def Volume.number (volume : Volume) (ino : Nat) : Nat :=
  match volume with
  | .ntfs _ => mref ino
  | .ext _ => ino

/-- What a name is bound to in a directory. -/
def boundTo (server : Server) (volume : Volume) (dirIno : Nat) (name : Name) : Option Nat :=
  match volume with
  | .ntfs mount =>
      match ntfsUtf8ToUcs server.lib name with
      | .ok ucs => findEntry (mount.volume.entries (mref dirIno)) ucs
      | .error _ => none
  | .ext volume => findEntry (volume.entries dirIno) name

def SameEntries (dirIno : Nat) : Volume → Volume → Prop
  | .ntfs before, .ntfs after =>
      after.volume.entries (mref dirIno) = before.volume.entries (mref dirIno)
  | .ext before, .ext after => after.entries dirIno = before.entries dirIno
  | _, _ => False

/-- A number stands for the same object, with its contents, as before. -/
def SameObject (number : Nat) : Volume → Volume → Prop
  | .ntfs before, .ntfs after =>
      after.volume.record number = before.volume.record number ∧
        after.volume.sequence number = before.volume.sequence number ∧
        after.volume.entries number = before.volume.entries number
  | .ext before, .ext after =>
      after.inode number = before.inode number ∧
        after.inodeMap number = before.inodeMap number ∧
        after.content number = before.content number ∧
        after.entries number = before.entries number ∧ after.dotdot number = before.dotdot number
  | _, _ => False

theorem SameEntries.refl (dirIno : Nat) (volume : Volume) : SameEntries dirIno volume volume := by
  cases volume <;> rfl

theorem SameObject.refl (number : Nat) (volume : Volume) : SameObject number volume volume := by
  cases volume with
  | ntfs mount => exact ⟨rfl, rfl, rfl⟩
  | ext volume => exact ⟨rfl, rfl, rfl, rfl, rfl⟩

def Volume.isDirectory (volume : Volume) (number : Nat) : Bool :=
  match volume with
  | .ntfs mount => (mount.volume.record number).any NtfsRecord.isDir
  | .ext volume => (volume.inode number).isDir

/-- The directory that `..` of a number leads to: its record on ext, and on NTFS what the
server answers, from the parent cache or the first FILE_NAME attribute. -/
def Volume.up (volume : Volume) (number : Nat) : Nat :=
  match volume with
  | .ntfs mount =>
      match mount.volume.record number with
      | some record => mref (ntfsResolveParentIno (.quiet 0) mount number record).1
      | none => 0
  | .ext volume => volume.dotdot number

/-- A reference opens an object. -/
def Volume.resolves (volume : Volume) (ino : Nat) : Bool :=
  match volume with
  | .ntfs mount => (ntfsInodeOpen none mount.volume ino).isOk
  | .ext volume => (extReadValidInode none volume ino).isOk

/-- The file system's own objects: the MFT records below `FILE_first_user` and the reserved
inodes, without the root. -/
def Volume.metadata (volume : Volume) (number : Nat) : Prop :=
  match volume with
  | .ntfs _ => number < fileFirstUser ∧ number ≠ fileRoot
  | .ext volume => number < volume.firstIno ∧ number ≠ extRootIno

/-- A directory has an entry for an object. -/
def Volume.refersTo (volume : Volume) (dirIno number : Nat) : Prop :=
  match volume with
  | .ntfs mount => ∃ entry ∈ mount.volume.entries dirIno, entry.ino = number
  | .ext volume => ∃ entry ∈ volume.entries dirIno, entry.ino = number

section Listing

variable (server : Server) (calls : Calls) (volume : Volume)

theorem handleReaddir_volume (dirIno cookie maxBytes : Nat) :
    (handleReaddir server calls volume dirIno cookie maxBytes).2 =
      (fsReaddir server calls volume dirIno).2.2 := by
  unfold handleReaddir
  split
  · rename_i listed
    rw [listed]
  · rename_i listed
    rw [listed]
    split <;> rfl

theorem handleReaddirplus_volume (dirIno cookie maxcount : Nat) :
    (handleReaddirplus server calls volume dirIno cookie maxcount).2 =
      (fsReaddir server calls volume dirIno).2.2 := by
  unfold handleReaddirplus
  split
  · rename_i listed
    rw [listed]
  · rename_i listed
    rw [listed]
    split <;> rfl

end Listing

end Rufux.Mountd
