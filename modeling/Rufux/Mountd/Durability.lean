import Rufux.Library.Run
import Rufux.Mountd.WriteSemantics

/-!
What stands on the device when WRITE and COMMIT are answered.
-/

namespace Rufux.Mountd

open Rufux.Library

def NtfsVolume.bytesAt (volume : NtfsVolume) (number : Nat) : List UInt8 :=
  ((volume.record number).bind NtfsRecord.data).getD []

/-- The bytes that a number stands for now. -/
def Volume.bytesAt (volume : Volume) (ino : Nat) : List UInt8 :=
  match volume with
  | .ntfs mount => mount.volume.bytesAt (mref ino)
  | .ext volume => volume.content ino

theorem IsFile.bytesAt {volume : Volume} {ino : Nat} {bytes : List UInt8}
    (file : IsFile volume ino bytes) : volume.bytesAt ino = bytes := by
  cases volume with
  | ntfs mount =>
      obtain ⟨record, opens, -, -, stored⟩ := file
      obtain ⟨-, present, -⟩ := ntfsInodeOpen_ok opens
      simp [Volume.bytesAt, NtfsVolume.bytesAt, present, stored]
  | ext volume =>
      obtain ⟨-, -, -, -, stored⟩ := file
      exact stored

end Rufux.Mountd
