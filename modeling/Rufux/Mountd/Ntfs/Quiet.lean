import Rufux.Mountd.Ntfs.Effects

/-!
The NTFS operations when no library call fails: which volume each one leaves.
-/

namespace Rufux.Mountd

open Rufux.Library NtfsVolume

theorem ntfsLookupByName_ok {fault : Option Errno} {volume : NtfsVolume} {dir ino : Nat}
    {name : UcsName} (found : ntfsLookupByName fault volume dir name = .ok ino) :
    fault = none ∧ findEntry (volume.entries dir) name = some ino := by
  unfold ntfsLookupByName at found
  split at found
  · cases found
  · split at found
    · rename_i located
      cases found
      exact ⟨rfl, located⟩
    · cases found

theorem ntfsNewRecord_ok {calls : NtfsCalls} {volume : NtfsVolume} {ino : Nat}
    (fresh : ntfsNewRecord calls volume = .ok ino) :
    ino = calls.newRecord ∧ fileFirstUser ≤ ino ∧ ino < 2 ^ 48 ∧ volume.record ino = none := by
  unfold ntfsNewRecord at fresh
  split at fresh
  · rename_i proposed
    cases fresh
    exact ⟨rfl, proposed⟩
  · cases fresh

/-- The volume that `ntfs_create` leaves: a record and its one entry. -/
theorem ntfsCreate_ok {calls : NtfsCalls} {volume : NtfsVolume} {dir : Nat} {name : UcsName}
    {kind : NtfsKind} {made : Nat × NtfsVolume}
    (created : ntfsCreate calls volume dir name kind = .ok made) :
    calls.fault .create = none ∧ findEntry (volume.entries dir) name = none ∧
      ntfsNewRecord calls volume = .ok made.1 ∧
      made.2.record = Function.update volume.record made.1
        (some (freshRecord calls kind dir name)) ∧
      made.2.entries = Function.update (Function.update volume.entries made.1 []) dir
        (insertEntry calls.arrange (Function.update volume.entries made.1 [] dir) name made.1) ∧
      made.2.sequence = volume.sequence ∧ made.2.hasSync = volume.hasSync ∧
      made.2.durable = volume.durable ∧ made.2.mftRecords = max volume.mftRecords (made.1 + 1) := by
  unfold ntfsCreate at created
  split at created
  · cases created
  · rename_i silent
    split at created
    · cases created
    · rename_i free
      split at created
      · cases created
      · rename_i ino fresh
        cases created
        refine ⟨silent, by simpa using free, fresh, ?_, ?_, ?_, ?_, ?_, ?_⟩ <;> simp

theorem ntfsFinishCreate_volume (config : Config) (calls : NtfsCalls) (mount : NtfsMount)
    (dirIno : Nat) (dirNi : NtfsRecord) (pre : WccPre) (made : Nat × NtfsVolume)
    (finish : NtfsRecord → NtfsRecord) :
    (ntfsFinishCreate config calls mount dirIno dirNi pre made finish).2.volume =
      made.2.setRecord made.1 ((made.2.record made.1).map finish) := by
  unfold ntfsFinishCreate
  simp only
  split
  · rfl
  · split <;> rfl

theorem NtfsCalls.NoFault.within {calls : NtfsCalls} (quiet : calls.NoFault) (role : NtfsRole) :
    (calls.within role).NoFault := fun site => quiet (.within role site)

end Rufux.Mountd
