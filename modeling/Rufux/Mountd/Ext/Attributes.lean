import Rufux.Mountd.Attributes
import Rufux.Mountd.Ext.Cases

/-!
The attribute blocks of the ext backend. Most are read off the volume that they describe;
those that the daemon fills from a copy of the inode hold when the write of that copy goes
through, or when it would not have shown.
-/

namespace Rufux.Mountd

open Rufux.Library ExtVolume

/-- What GETATTR answers when no call fails. -/
def extAttributes (config : Config) (volume : ExtVolume) (ino : Nat) : Option NfsAttr :=
  (extOpGetattr config none volume ino).toOption

section Base

variable {config : Config} {volume : ExtVolume} {ino : Nat}

theorem extAttributes_of_live (lower : extRootIno ≤ ino) (upper : ino ≤ volume.inodesCount)
    (used : volume.inodeMap ino = true) (linked : (volume.inode ino).linksCount ≠ 0) :
    extAttributes config volume ino = some (extFillAttr config ino (volume.inode ino)) := by
  rw [extAttributes, extOpGetattr, extReadValidInode_of_valid lower upper used linked]
  rfl

theorem extAttributes_of_valid {fault : Option Errcode} {inode : ExtInode}
    (valid : extReadValidInode fault volume ino = .ok inode) :
    extAttributes config volume ino = some (extFillAttr config ino inode) := by
  obtain ⟨lower, upper, used, rfl, linked, -⟩ := extReadValidInode_ok valid
  exact extAttributes_of_live lower upper used linked

/-- An inode that has given up its last link has no attributes. -/
theorem extAttributes_of_unlinked (unlinked : (volume.inode ino).linksCount = 0) :
    extAttributes config volume ino = none := by
  rw [extAttributes]
  cases got : extOpGetattr config none volume ino with
  | error status => rfl
  | ok attr =>
      obtain ⟨-, -, -, -, linked, -⟩ := extReadValidInode_ok (extOpGetattr_ok got).1
      exact absurd unlinked linked

theorem extAttributes_congr {after : ExtVolume} (count : after.inodesCount = volume.inodesCount)
    (map : after.inodeMap ino = volume.inodeMap ino) (same : after.inode ino = volume.inode ino) :
    extAttributes config after ino = extAttributes config volume ino := by
  simp only [extAttributes, extOpGetattr, extReadValidInode, ext2fsReadInode, count, map, same]

theorem extOpGetattr_holds (fault : Option Errcode) :
    PostHolds (extAttributes config volume ino) (extOpGetattr config fault volume ino).toOption := by
  intro attr filled
  cases got : extOpGetattr config fault volume ino with
  | error status =>
      rw [got] at filled
      cases filled
  | ok found =>
      rw [got] at filled
      cases filled
      obtain ⟨valid, rfl⟩ := extOpGetattr_ok got
      exact extAttributes_of_valid valid

theorem extPostAttr_holds (calls : ExtCalls) (role : Role) :
    PostHolds (extAttributes config volume ino) (extPostAttr config calls role volume ino) :=
  extOpGetattr_holds (calls.fault (.readValid role))

theorem extPreAttr_holds {fault : Option Errcode} {inode : ExtInode}
    (valid : extReadValidInode fault volume ino = .ok inode) :
    PreHolds (extAttributes config volume ino)
      (some (attrToWccPre (extFillAttr config ino inode))) :=
  preHolds_map (extAttributes_of_valid valid)

end Base

section Reads

variable {config : Config} {calls : ExtCalls} {volume : ExtVolume}

theorem extOpLookup_holds {dir child : Nat} {name : Name} {attr : NfsAttr}
    (found : extOpLookup config calls volume dir name = .ok (child, attr)) :
    extAttributes config volume child = some attr := by
  unfold extOpLookup at found
  split at found
  · cases found
  split at found
  · cases found
  split at found
  · cases found
  split at found
  · cases found
  split at found
  · cases found
  rename_i valid
  cases found
  exact extAttributes_of_valid valid

theorem extOpReadlink_holds (ino : Nat) :
    PostHolds (extAttributes config volume ino) (extOpReadlink config calls volume ino).2 := by
  unfold extOpReadlink
  split
  · exact postHolds_none
  rename_i valid
  have filled := (@extAttributes_of_valid config) valid
  dsimp only
  repeat' split
  all_goals exact postHolds_some.mpr filled

theorem extOpRead_holds (ino offset count : Nat) :
    PostHolds (extAttributes config volume ino)
      (extOpRead config calls volume ino offset count).attr := by
  unfold extOpRead
  split
  · exact postHolds_none
  rename_i valid
  have filled := (@extAttributes_of_valid config) valid
  dsimp only
  repeat' split
  all_goals exact postHolds_some.mpr filled

theorem extOpReaddir_holds (dir : Nat) :
    PostHolds (extAttributes config volume dir) (extOpReaddir config calls volume dir).2 := by
  unfold extOpReaddir
  split
  · exact postHolds_none
  rename_i valid
  have filled := (@extAttributes_of_valid config) valid
  dsimp only
  repeat' split
  all_goals exact postHolds_some.mpr filled

theorem extOpFsstat_holds (ino : Nat) :
    PostHolds (extAttributes config volume ino) (extOpFsstat config calls volume ino).2 := by
  have got := (@extOpGetattr_holds config volume ino)
    (calls.fault (.readValid .child))
  unfold extOpFsstat
  split
  · exact postHolds_none
  · rename_i found
    rw [found] at got
    exact got

end Reads

end Rufux.Mountd
