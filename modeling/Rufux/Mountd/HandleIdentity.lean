import Rufux.Mountd.IssuedHandles

/-!
What a handle denotes in the course of a run: handles carry a number and no generation.
-/

namespace Rufux.Mountd

open Rufux.Library

/-- The numbers of a volume fit their fields, and the root of an NTFS volume its table. -/
def Volume.Bounded : Volume → Prop
  | .ntfs mount => mount.volume.Numbered ∧ fileRoot < mount.volume.mftRecords
  | .ext volume => volume.inodesCount < 2 ^ 32

/-- How often a run gives a number to a new object. -/
def reuses (server : Server) (number : Nat) : Volume → List Exchange → Nat
  | _, [] => 0
  | volume, exchange :: rest =>
      (if volume.resolves number = false ∧ (server.step volume exchange).resolves number = true then 1
        else 0) + reuses server number (server.step volume exchange) rest

section Numbers

theorem xdrGetFh_xdrPutFh_eq {ino number : Nat} (bound : ino < 2 ^ 64)
    (decoded : xdrGetFh (xdrPutFh ino) = some number) : number = ino := by
  have value := bigEndian_xdrPutFh ino bound
  unfold xdrGetFh at decoded
  rw [value] at decoded
  split at decoded
  · split at decoded
    · cases decoded
    · cases decoded
      rfl
  · cases decoded

theorem Volume.Bounded.resolves_lt {volume : Volume} {ino : Nat} (bounded : volume.Bounded)
    (opens : volume.resolves ino = true) : ino < 2 ^ 64 := by
  cases volume with
  | ntfs mount =>
      obtain ⟨record, -, sequence⟩ := resolves_ntfs_iff.mp opens
      have bound := bounded.1.sequence (mref ino)
      have high : ino / 2 ^ 48 < 2 ^ 16 := by
        rcases sequence with zero | same
        · unfold mseqno at zero
          omega
        · unfold mseqno at same
          omega
      omega
  | ext volume =>
      have upper := (resolves_ext_valid opens).upper
      unfold Volume.Bounded at bounded
      omega

theorem Volume.Bounded.root_lt (volume : Volume) : fsRootIno volume < 2 ^ 64 := by
  cases volume with
  | ntfs mount => exact show fileRoot < 2 ^ 64 by decide
  | ext volume => exact show extRootIno < 2 ^ 64 by decide

theorem Volume.Bounded.inTable {volume : Volume} {ino : Nat} (bounded : volume.Bounded)
    (opens : volume.resolves ino = true ∨ ino = fsRootIno volume) : volume.inTable ino := by
  cases volume with
  | ntfs mount =>
      rcases opens with opens | root
      · obtain ⟨record, present, -⟩ := resolves_ntfs_iff.mp opens
        exact bounded.1.inTable (mref ino) (by simp [present])
      · subst root
        exact bounded.2
  | ext volume => trivial

/-- Whatever a request does, the numbers stay within their bounds and the table does not
shrink. -/
theorem Volume.Bounded.step {volume : Volume} (bounded : volume.Bounded) (server : Server)
    (exchange : Exchange) :
    (server.step volume exchange).Bounded ∧
      fsRootIno (server.step volume exchange) = fsRootIno volume ∧
      ∀ ino, volume.inTable ino → (server.step volume exchange).inTable ino := by
  have apart : volume.Apart fun _ => False := by
    cases volume with
    | ntfs mount => exact ⟨bounded.1, fun _ _ bad => bad, fun bad => bad⟩
    | ext volume => exact ⟨fun _ _ _ bad => bad, fun _ _ _ bad => bad⟩
  have spares := handleProc_spares server exchange.calls exchange.request apart
    (fun _ _ _ _ bad => bad) (fun _ _ bad => bad)
  unfold Server.step
  generalize (handleProc server exchange.calls volume exchange.request).2 = after at spares
  cases volume with
  | ntfs mount =>
      cases after with
      | ext left => exact spares.elim
      | ntfs left =>
          refine ⟨⟨NtfsVolume.Spares.numbered spares bounded.1,
            Nat.lt_of_lt_of_le bounded.2 (NtfsVolume.Spares.grows spares)⟩, rfl, ?_⟩
          intro ino inside
          exact Nat.lt_of_lt_of_le inside (NtfsVolume.Spares.grows spares)
  | ext volume =>
      cases after with
      | ntfs left => exact spares.elim
      | ext left =>
          refine ⟨?_, rfl, fun _ _ => trivial⟩
          have same := ExtVolume.Spares.inodesCount spares
          exact show left.inodesCount < 2 ^ 32 from same ▸ bounded

theorem Volume.Bounded.run {volume : Volume} (bounded : volume.Bounded) (server : Server)
    (exchanges : List Exchange) :
    (exchanges.foldl server.step volume).Bounded ∧
      ∀ ino, volume.inTable ino → (exchanges.foldl server.step volume).inTable ino := by
  induction exchanges generalizing volume with
  | nil => exact ⟨bounded, fun _ inside => inside⟩
  | cons exchange rest ih =>
      obtain ⟨kept, -, inside⟩ := bounded.step server exchange
      obtain ⟨final, further⟩ := ih kept
      exact ⟨final, fun ino known => further ino (inside ino known)⟩

end Numbers

/-- A number that is not given out anew belongs to the same object all along. -/
theorem resolves_throughout {server : Server} {number : Nat} {volume : Volume}
    {exchanges : List Exchange} (fresh : reuses server number volume exchanges = 0)
    (still : (exchanges.foldl server.step volume).resolves number = true) {first : List Exchange}
    (part : first <+: exchanges) : (first.foldl server.step volume).resolves number = true := by
  induction exchanges generalizing volume first with
  | nil =>
      obtain rfl := List.prefix_nil.mp part
      exact still
  | cons exchange rest ih =>
      rw [reuses] at fresh
      have later {part : List Exchange} := @ih (server.step volume exchange) (by omega) still part
      cases first with
      | nil =>
          have next := later (List.nil_prefix)
          by_contra gone
          rw [if_pos ⟨by simpa using gone, next⟩] at fresh
          omega
      | cons other others =>
          obtain ⟨rfl, shorter⟩ := List.cons_prefix_cons.mp part
          exact later shorter

/-- A handle that was given out denotes the object that has its number. While that number is
not given out anew this is the object it was given out for; when no object has the number,
every request that carries the handle is refused and changes nothing, with NFS3ERR_STALE
unless a check that comes before the handle refuses it or the library fails. -/
theorem handle_denotes_object (server : Server) (volume : Volume) (earlier : List Exchange)
    (issuing : Exchange) (between : List Exchange) (later : Exchange) (handle : Handle)
    (number : Nat) (bounded : volume.Bounded)
    (issued : handle ∈ (server.reply (earlier.foldl server.step volume) issuing).handles)
    (decoded : xdrGetFh handle = some number) :
    let given := server.step (earlier.foldl server.step volume) issuing
    let now := between.foldl server.step given
    (given.resolves number = true ∨ number = fsRootIno given) ∧
    (reuses server number given between = 0 → now.resolves number = true →
      ∀ first, first <+: between → (first.foldl server.step given).resolves number = true) ∧
    (now.resolves number = false → handle ∈ later.request.handles →
      (server.reply now later).status ≠ .ok ∧ server.step now later = now ∧
      (¬ CheckedFirst server now later.request → later.calls.NoFault →
        (server.reply now later).status = .stale)) := by
  intro given now
  have before := (bounded.run server earlier).1
  obtain ⟨kept, sameRoot, -⟩ := before.step server issuing
  have denotes : given.resolves number = true ∨ number = fsRootIno given := by
    obtain ⟨ino, rfl, opens | isRoot⟩ := reply_issues issuing issued
    · have same := xdrGetFh_xdrPutFh_eq (kept.resolves_lt opens) decoded
      subst same
      exact .inl opens
    · subst isRoot
      have same := xdrGetFh_xdrPutFh_eq (Volume.Bounded.root_lt _) decoded
      exact .inr (same.trans sameRoot.symm)
  refine ⟨denotes, fun fresh still first part => resolves_throughout fresh still part, ?_⟩
  intro gone carried
  have rejects := handleProc_dead server later.calls later.request carried decoded gone
  refine ⟨rejects.refused, rejects.unchanged, fun first quiet => ?_⟩
  exact rejects.stale first quiet ((kept.run server between).2 number (kept.inTable denotes))

/-- What would hold if a handle belonged to one object for ever: once that object is gone,
requests that carry the handle are answered NFS3ERR_STALE and change nothing. -/
def KeepsIdentity (server : Server) (given : Volume) (number : Nat) (between : List Exchange)
    (later : Exchange) : Prop :=
  let now := between.foldl server.step given
  (∃ first, first <+: between ∧ (first.foldl server.step given).resolves number = false) →
    (server.reply now later).status = .stale ∧ server.step now later = now

/-- A new file `a`, which becomes inode 12. -/
def createA : Exchange where
  request := .create (xdrPutFh extRootIno) [97] (.guarded .empty)
  calls := .quiet 12

def removeA : Exchange where
  request := .remove (xdrPutFh extRootIno) [97]
  calls := .quiet 0

/-- A new file `b` that is given the same inode. -/
def createB : Exchange where
  request := .create (xdrPutFh extRootIno) [98] (.guarded .empty)
  calls := .quiet 12

def writeA : Exchange where
  request := .write (xdrPutFh 12) 0 1 .fileSync [7]
  calls := .quiet 0

/-- The handle of `a`, which was removed, writes into `b`. -/
theorem reusedInode_answers_oldHandle :
    xdrPutFh 12 ∈ (Server.plain.reply (.ext .fresh) createA).handles ∧
      ¬ KeepsIdentity .plain (Server.plain.step (.ext .fresh) createA) 12 [removeA, createB]
        writeA := by
  refine ⟨by decide, ?_⟩
  intro keeps
  have stale := (keeps ⟨[removeA], by simp, by decide⟩).1
  revert stale
  decide

theorem handle_denotes_object_removed :
    let given := Server.plain.step (.ext .fresh) createA
    let now := [removeA].foldl Server.plain.step given
    (given.resolves 12 = true ∨ 12 = fsRootIno given) ∧
    (reuses .plain 12 given [removeA] = 0 → now.resolves 12 = true →
      ∀ first, first <+: [removeA] → (first.foldl Server.plain.step given).resolves 12 = true) ∧
    (now.resolves 12 = false → xdrPutFh 12 ∈ writeA.request.handles →
      (Server.plain.reply now writeA).status ≠ .ok ∧ Server.plain.step now writeA = now ∧
      (¬ CheckedFirst .plain now writeA.request → writeA.calls.NoFault →
        (Server.plain.reply now writeA).status = .stale)) :=
  handle_denotes_object .plain (.ext .fresh) [] createA [removeA] writeA (xdrPutFh 12) 12
    (show 64 < 2 ^ 32 by decide) (by decide) (by decide)

end Rufux.Mountd
