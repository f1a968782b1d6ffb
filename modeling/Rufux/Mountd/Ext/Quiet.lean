import Rufux.Mountd.Ext.Effects

/-!
The ext operations when no library call fails: which volume each one leaves.
-/

namespace Rufux.Mountd

open Rufux.Library ExtVolume

@[simp] theorem ext2fsWriteInode_none (volume : ExtVolume) (ino : Nat) (inode : ExtInode) :
    ext2fsWriteInode none volume ino inode = volume.setInode ino inode := rfl

theorem ext2fsLookup_leaf (volume : ExtVolume) (dir : Nat) {name : Name}
    (leaf : validLeafName name = true) :
    ext2fsLookup none volume dir name =
      match findEntry (volume.entries dir) name with
      | some ino => .ok ino
      | none => .error .fileNotFound := by
  obtain ⟨notDot, notDotdot⟩ := validLeafName_ne_dot leaf
  simp only [ext2fsLookup]
  refine (if_neg notDot).trans ((if_neg notDotdot).trans ?_)
  cases findEntry (volume.entries dir) name <;> rfl

theorem ext2fsNewInode_ok {fault : Option Errcode} {calls : ExtCalls} {volume : ExtVolume}
    {ino : Nat} (fresh : ext2fsNewInode fault calls volume = .ok ino) :
    ino = calls.newIno ∧ extRootIno < ino ∧ volume.firstIno ≤ ino ∧ ino ≤ volume.inodesCount ∧
      volume.inodeMap ino = false ∧ fault = none := by
  unfold ext2fsNewInode at fresh
  split at fresh
  · cases fresh
  · split at fresh
    · rename_i proposed
      cases fresh
      exact ⟨rfl, proposed.1, proposed.2.1, proposed.2.2.1, proposed.2.2.2, rfl⟩
    · cases fresh

section Quiet

variable {calls : ExtCalls} (quiet : calls.NoFault)
include quiet

theorem ExtCalls.NoFault.inner : calls.inner.NoFault := fun site => quiet (.inner site)

end Quiet

end Rufux.Mountd
