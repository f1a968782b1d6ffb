import Rufux.Library.Run
import Rufux.Mountd.DeadHandle

/-!
Which runs of requests leave the file system's own objects alone.
-/

namespace Rufux.Mountd

open Rufux.Library

def Volume.Spares (reserved : Nat → Prop) : Volume → Volume → Prop
  | .ntfs before, .ntfs after => NtfsVolume.Spares reserved before.volume after.volume
  | .ext before, .ext after => ExtVolume.Spares reserved before after
  | _, _ => False

theorem Volume.Spares.refl {reserved : Nat → Prop} (volume : Volume) :
    Volume.Spares reserved volume volume := by
  cases volume with
  | ntfs mount => exact NtfsVolume.Spares.refl mount.volume
  | ext volume => exact ExtVolume.Spares.refl volume

/-- The handles through which a request reads or changes an object. -/
def Request.touched : Request → List Handle
  | .setattr fh _ _ | .readlink fh | .read fh _ _ | .write fh _ _ _ _ => [fh]
  | .lookup dir _ | .create dir _ _ | .mkdir dir _ _ | .symlink dir _ _ _ => [dir]
  | .remove dir _ | .rmdir dir _ | .readdir dir _ _ _ | .readdirplus dir _ _ _ _ => [dir]
  | .rename fromDir _ toDir _ => [fromDir, toDir]
  | .link fh dir _ => [fh, dir]
  | _ => []

/-- The handle of the object whose contents a request asks for. -/
def Request.readsThrough : Request → Option Handle
  | .readlink fh | .read fh _ _ => some fh
  | .lookup dir _ | .readdir dir _ _ _ | .readdirplus dir _ _ _ _ => some dir
  | _ => none

theorem Request.touched_subset {request : Request} {handle : Handle}
    (touched : handle ∈ request.touched) : handle ∈ request.handles := by
  cases request <;> first | exact touched | cases touched

theorem Request.readsThrough_touched {request : Request} {handle : Handle}
    (reads : request.readsThrough = some handle) : handle ∈ request.touched := by
  cases request <;> cases reads <;> exact List.mem_singleton_self _

/-- A set of objects that neither entries nor new objects get into. -/
def Volume.Apart (reserved : Nat → Prop) : Volume → Prop
  | .ntfs mount =>
      mount.volume.Numbered ∧ (∀ ino, fileFirstUser ≤ ino → ¬ reserved ino) ∧ ¬ reserved fileRoot
  | .ext volume => volume.Fresh reserved ∧ volume.Unlinked reserved

/-- An UNCHECKED CREATE of a name that is there changes the object of that name. -/
def Request.Names (server : Server) (volume : Volume) (request : Request) (number : Nat) : Prop :=
  ∃ dir name sattr dirIno existing, request = .create dir name (.unchecked sattr) ∧
    xdrGetFh dir = some dirIno ∧ boundTo server volume dirIno name = some existing ∧
    volume.number existing = number

theorem CreateHow.mode_unchecked {how : CreateHow} (unchecked : how.mode = .unchecked) :
    ∃ sattr, how = .unchecked sattr := by
  cases how with
  | unchecked sattr => exact ⟨sattr, rfl⟩
  | guarded sattr => cases unchecked
  | exclusive verf => cases unchecked

section Spared

variable (server : Server) (calls : Calls) {reserved : Nat → Prop}

theorem fsReaddir_spares {volume : Volume} (dirIno : Nat) :
    Volume.Spares reserved volume (fsReaddir server calls volume dirIno).2.2 := by
  cases volume with
  | ntfs mount => exact .of_eq ntfsOpReaddir_volume
  | ext volume => exact ExtVolume.Spares.refl volume

/-- A request none of whose handles and names lead into the set leaves it alone. -/
theorem handleProc_spares {volume : Volume} (request : Request) (apart : volume.Apart reserved)
    (handles : ∀ handle ∈ request.touched, ∀ ino, xdrGetFh handle = some ino →
      ¬ reserved (volume.number ino))
    (names : ∀ number, request.Names server volume number → ¬ reserved number) :
    Volume.Spares reserved volume (handleProc server calls volume request).2 := by
  cases request with
  | null => exact .refl volume
  | mnt path => exact .refl volume
  | umnt path =>
      cases volume with
      | ntfs mount => exact ntfsSpares_syncAll
      | ext volume => exact spares_flush _
  | umntall =>
      cases volume with
      | ntfs mount => exact ntfsSpares_syncAll
      | ext volume => exact spares_flush _
  | getattr fh =>
      simp only [handleProc]
      split <;> exact .refl volume
  | access fh wanted =>
      simp only [handleProc]
      split <;> exact .refl volume
  | readlink fh =>
      simp only [handleProc]
      split <;> exact .refl volume
  | read fh offset count =>
      simp only [handleProc]
      split <;> exact .refl volume
  | mknod dir name =>
      simp only [handleProc]
      split <;> exact .refl volume
  | fsstat fh =>
      simp only [handleProc]
      split <;> exact .refl volume
  | fsinfo fh =>
      simp only [handleProc]
      split <;> exact .refl volume
  | pathconf fh =>
      simp only [handleProc]
      split <;> exact .refl volume
  | setattr fh sattr guard =>
      simp only [handleProc]
      split
      · exact .refl volume
      rename_i ino decoded
      have outside := handles fh (List.mem_singleton_self _) ino decoded
      simp only [handleSetattr]
      split
      · exact .refl volume
      split
      · exact .refl volume
      cases volume with
      | ntfs mount => exact (editsRecord_opSetattr _ _ mount ino sattr).spares outside
      | ext volume => exact (editsInode_opSetattr _ _ volume ino sattr).spares outside
  | lookup dir name =>
      simp only [handleProc]
      split
      · exact .refl volume
      rename_i dirIno decoded
      cases volume with
      | ntfs mount => exact .of_eq (ntfsOpLookup_volume _ _ _ mount dirIno name)
      | ext volume => exact ExtVolume.Spares.refl volume
  | write fh offset count stable data =>
      simp only [handleProc]
      split
      · exact .refl volume
      rename_i ino decoded
      have outside := handles fh (List.mem_singleton_self _) ino decoded
      cases volume with
      | ntfs mount => exact (editsRecord_opWrite _ _ mount ino offset _ stable).spares outside
      | ext volume => exact (editsInode_opWrite _ _ volume ino offset _ stable).spares outside
  | create dir name how =>
      simp only [handleProc]
      split
      · exact .refl volume
      rename_i dirIno decoded
      have outside := handles dir (List.mem_singleton_self _) dirIno decoded
      cases volume with
      | ntfs mount =>
          refine ntfsSpares_opCreate apart.2.1 outside how.mode how.sattr ?_
          intro unchecked ucs existing legal found
          obtain ⟨sattr, rfl⟩ := CreateHow.mode_unchecked unchecked
          refine names (mref existing) ⟨dir, name, sattr, dirIno, existing, rfl, decoded, ?_, rfl⟩
          simp only [boundTo, legal, found]
      | ext volume => exact spares_opCreate _ _ apart.1 apart.2 outside name how.mode how.sattr
  | mkdir dir name sattr =>
      simp only [handleProc]
      split
      · exact .refl volume
      rename_i dirIno decoded
      have outside := handles dir (List.mem_singleton_self _) dirIno decoded
      cases volume with
      | ntfs mount => exact ntfsSpares_opMkdir apart.2.1 outside _
      | ext volume => exact spares_opMkdir _ _ apart.1 outside name _
  | symlink dir name sattr target =>
      simp only [handleProc]
      split
      · exact .refl volume
      rename_i dirIno decoded
      have outside := handles dir (List.mem_singleton_self _) dirIno decoded
      cases volume with
      | ntfs mount => exact ntfsSpares_opSymlink apart.2.1 outside _ target
      | ext volume => exact spares_opSymlink _ _ apart.1 apart.2 outside name _ target
  | remove dir name =>
      simp only [handleProc]
      split
      · exact .refl volume
      rename_i dirIno decoded
      have outside := handles dir (List.mem_singleton_self _) dirIno decoded
      cases volume with
      | ntfs mount => exact ntfsSpares_opUnlinkCommon apart.2.1 outside false
      | ext volume => exact spares_opRemove _ _ apart.2 outside name
  | rmdir dir name =>
      simp only [handleProc]
      split
      · exact .refl volume
      rename_i dirIno decoded
      have outside := handles dir (List.mem_singleton_self _) dirIno decoded
      cases volume with
      | ntfs mount => exact ntfsSpares_opUnlinkCommon apart.2.1 outside true
      | ext volume => exact spares_opRmdir _ _ apart.2 outside name
  | rename fromDir fromName toDir toName =>
      simp only [handleProc]
      split
      · rename_i fromIno toIno fromDecoded toDecoded
        have fromOutside := handles fromDir (by simp [Request.touched]) fromIno fromDecoded
        have toOutside := handles toDir (by simp [Request.touched]) toIno toDecoded
        cases volume with
        | ntfs mount =>
            exact ntfsSpares_opRename apart.1 apart.2.1 apart.2.2 fromOutside toOutside fromName
              toName
        | ext volume => exact spares_opRename _ _ apart.2 fromOutside toOutside fromName toName
      · exact .refl volume
  | link fh dir name =>
      simp only [handleProc]
      split
      · rename_i ino dirIno decoded dirDecoded
        have allowed := handles fh (by simp [Request.touched]) ino decoded
        have outside := handles dir (by simp [Request.touched]) dirIno dirDecoded
        cases volume with
        | ntfs mount => exact ntfsSpares_opLink outside allowed
        | ext volume => exact spares_opLink _ _ outside allowed name
      · exact .refl volume
  | readdir dir cookie cverf count =>
      simp only [handleProc]
      split
      · exact .refl volume
      rename_i dirIno decoded
      rw [handleReaddir_volume]
      exact fsReaddir_spares server calls dirIno
  | readdirplus dir cookie cverf dircount maxcount =>
      simp only [handleProc]
      split
      · exact .refl volume
      rename_i dirIno decoded
      rw [handleReaddirplus_volume]
      exact fsReaddir_spares server calls dirIno
  | commit fh offset count =>
      simp only [handleProc]
      split
      · exact .refl volume
      rename_i ino decoded
      cases volume with
      | ntfs mount => exact ntfsSpares_opCommit ino
      | ext volume => exact spares_opCommit _ _ ino

end Spared

theorem Volume.Spares.apart {reserved : Nat → Prop} {before after : Volume}
    (spares : Volume.Spares reserved before after) (apart : before.Apart reserved) :
    after.Apart reserved := by
  cases before with
  | ntfs mount =>
      cases after with
      | ntfs left => exact ⟨NtfsVolume.Spares.numbered spares apart.1, apart.2⟩
      | ext left => exact spares.elim
  | ext volume =>
      cases after with
      | ntfs left => exact spares.elim
      | ext left => exact ⟨ExtVolume.Spares.fresh spares apart.1, ExtVolume.Spares.unlinked spares apart.2⟩

theorem Volume.Spares.trans {reserved : Nat → Prop} {first second third : Volume}
    (left : Volume.Spares reserved first second) (right : Volume.Spares reserved second third) :
    Volume.Spares reserved first third := by
  cases first <;> cases second <;> cases third <;>
    first
      | exact left.elim
      | exact right.elim
      | exact NtfsVolume.Spares.trans left right
      | exact ExtVolume.Spares.trans left right

/-- A set of objects that is spared is as it was, and has no new entries. -/
theorem Volume.Spares.sameObject {reserved : Nat → Prop} {before after : Volume}
    (spares : Volume.Spares reserved before after) {number : Nat} (kept : reserved number) :
    SameObject number before after ∧ ∀ dirIno, after.refersTo dirIno number →
      before.refersTo dirIno number := by
  cases before with
  | ntfs mount =>
      cases after with
      | ext left => exact spares.elim
      | ntfs left =>
          refine ⟨⟨NtfsVolume.Spares.record spares number kept,
            NtfsVolume.Spares.sequence spares number kept,
            NtfsVolume.Spares.entries spares number kept⟩, ?_⟩
          rintro dirIno ⟨entry, present, rfl⟩
          rcases NtfsVolume.Spares.gained spares dirIno entry present with old | new
          · exact ⟨entry, old, rfl⟩
          · exact absurd kept new.1
  | ext volume =>
      cases after with
      | ntfs left => exact spares.elim
      | ext left =>
          refine ⟨⟨ExtVolume.Spares.inode spares number kept,
            ExtVolume.Spares.inodeMap spares number kept,
            ExtVolume.Spares.content spares number kept,
            ExtVolume.Spares.entries spares number kept,
            ExtVolume.Spares.dotdot spares number kept⟩, ?_⟩
          rintro dirIno ⟨entry, present, rfl⟩
          exact ⟨entry, ExtVolume.Spares.gained spares dirIno entry present kept, rfl⟩

theorem Volume.Spares.metadata_eq {reserved : Nat → Prop} {before after : Volume}
    (spares : Volume.Spares reserved before after) : after.metadata = before.metadata := by
  cases before <;> cases after <;> first | exact spares.elim | rfl | skip
  funext number
  simp only [Volume.metadata, ExtVolume.Spares.firstIno spares]

/-- The request leads to no object of the file system's own: none of the handles through
which it reads or changes anything opens one, and it is no UNCHECKED CREATE of the name of
one. -/
structure StaysOutside (server : Server) (volume : Volume) (exchange : Exchange) : Prop where
  handles : ∀ handle ∈ exchange.request.touched, ∀ ino, xdrGetFh handle = some ino →
    volume.resolves ino = true → ¬ volume.metadata (volume.number ino)
  names : ∀ number, exchange.request.Names server volume number → ¬ volume.metadata number

/-- A request keeps out of the file system's own objects: they stay as they are, no entry
comes to refer to one, and no contents of one are returned. -/
structure OutOfReach (server : Server) (volume : Volume) (exchange : Exchange) : Prop where
  unchanged : ∀ number, volume.metadata number →
    SameObject number volume (server.step volume exchange)
  unlinked : ∀ number dirIno, volume.metadata number →
    (server.step volume exchange).refersTo dirIno number → volume.refersTo dirIno number
  unread : ∀ handle ino, exchange.request.readsThrough = some handle →
    xdrGetFh handle = some ino → (server.reply volume exchange).status = .ok →
    ¬ volume.metadata (volume.number ino)

/-- What a well-formed volume is at first: on ext no entry refers to a reserved inode, and
on NTFS numbers have their bounds. -/
def Volume.WellFormed : Volume → Prop
  | .ntfs mount => mount.volume.Numbered
  | .ext volume => volume.Unlinked (Volume.ext volume).metadata

theorem Volume.WellFormed.apart {volume : Volume} (wellFormed : volume.WellFormed) :
    volume.Apart volume.metadata := by
  cases volume with
  | ntfs mount =>
      refine ⟨wellFormed, fun ino user metadata => ?_, fun metadata => metadata.2 rfl⟩
      exact absurd metadata.1 (by omega)
  | ext volume =>
      refine ⟨fun ino _ first metadata => ?_, wellFormed⟩
      exact absurd metadata.1 (by omega)

theorem Volume.Apart.wellFormed {volume : Volume} (apart : volume.Apart volume.metadata) :
    volume.WellFormed := by
  cases volume with
  | ntfs mount => exact apart.1
  | ext volume => exact apart.2

/-- One step that stays outside. -/
theorem StaysOutside.spares {server : Server} {volume : Volume} {exchange : Exchange}
    (wellFormed : volume.WellFormed) (outside : StaysOutside server volume exchange) :
    Volume.Spares volume.metadata volume (server.step volume exchange) := by
  by_cases dead : ∃ handle ∈ exchange.request.touched, ∃ ino, xdrGetFh handle = some ino ∧
      volume.resolves ino = false
  · obtain ⟨handle, touched, ino, decoded, gone⟩ := dead
    have rejects := handleProc_dead server exchange.calls exchange.request
      (Request.touched_subset touched) decoded gone
    rw [Server.step, rejects.unchanged]
    exact .refl volume
  · refine handleProc_spares server exchange.calls exchange.request wellFormed.apart ?_
      outside.names
    intro handle touched ino decoded
    refine outside.handles handle touched ino decoded ?_
    by_contra closed
    exact dead ⟨handle, touched, ino, decoded, by simpa using closed⟩

theorem StaysOutside.step {server : Server} {volume : Volume} {exchange : Exchange}
    (wellFormed : volume.WellFormed) (outside : StaysOutside server volume exchange) :
    (server.step volume exchange).WellFormed ∧ OutOfReach server volume exchange := by
  have spares := outside.spares wellFormed
  refine ⟨?_, ?_, ?_, ?_⟩
  · apply Volume.Apart.wellFormed
    rw [spares.metadata_eq]
    exact spares.apart wellFormed.apart
  · intro number metadata
    exact (spares.sameObject metadata).1
  · intro number dirIno metadata
    exact (spares.sameObject metadata).2 dirIno
  · intro handle ino reads decoded granted
    have touched := Request.readsThrough_touched reads
    refine outside.handles handle touched ino decoded ?_
    by_contra closed
    have rejects := handleProc_dead server exchange.calls exchange.request
      (Request.touched_subset touched) decoded (by simpa using closed)
    exact rejects.refused granted

/-- In a run whose requests stay outside, the file system's own objects are out of reach of
every request, and at the end they are what they were. -/
theorem metadata_out_of_reach (server : Server) (volume : Volume) (exchanges : List Exchange)
    (wellFormed : volume.WellFormed)
    (outside : Steps server.step (StaysOutside server) volume exchanges) :
    Steps server.step (OutOfReach server) volume exchanges ∧
      ∀ number, volume.metadata number →
        SameObject number volume (exchanges.foldl server.step volume) := by
  constructor
  · exact outside.strengthen (fun state exchange kept condition => condition.step kept) wellFormed
  · have reached : (exchanges.foldl server.step volume).WellFormed ∧
        Volume.Spares volume.metadata volume (exchanges.foldl server.step volume) := by
      refine @Steps.invariant _ _ _ _ (fun state => state.WellFormed ∧
        Volume.Spares volume.metadata volume state) _ _ outside ?_ ⟨wellFormed, .refl volume⟩
      rintro state exchange ⟨kept, spares⟩ condition
      have next := condition.spares kept
      rw [spares.metadata_eq] at next
      exact ⟨(condition.step kept).1, spares.trans next⟩
    intro number metadata
    exact (reached.2.sameObject metadata).1

/-- An UNCHECKED CREATE of `$MFT` in the root of a fresh NTFS volume, with a size. -/
def truncateMft : Exchange where
  request := .create (xdrPutFh fileRoot) [36, 77, 70, 84] (.unchecked { SAttr3.empty with size := some 8 })
  calls := .quiet 64

def freshNtfs : Volume := .ntfs { volume := .fresh, cache := .empty }

/-- It sets the size of the MFT. -/
theorem truncateMft_reaches :
    ¬ Steps Server.plain.step (OutOfReach .plain) freshNtfs [truncateMft] := by
  rintro ⟨reach, -⟩
  have same := reach.unchanged 0 (by unfold freshNtfs Volume.metadata; decide)
  change (_ = _) ∧ _ at same
  exact absurd same.1 (by decide)

/-- A GUARDED CREATE of `a` in the root. -/
def createGuarded : Exchange where
  request := .create (xdrPutFh fileRoot) [97] (.guarded .empty)
  calls := .quiet 64

theorem createGuarded_outside : StaysOutside .plain freshNtfs createGuarded where
  handles := by
    intro handle touched ino decoded _
    obtain rfl := List.mem_singleton.mp touched
    have root : xdrGetFh (xdrPutFh fileRoot) = some fileRoot := by decide
    rw [root] at decoded
    cases decoded
    exact fun metadata => metadata.2 (by decide)
  names := by
    rintro number ⟨dir, name, sattr, dirIno, existing, create, -⟩
    cases create

theorem freshNtfs_wellFormed : freshNtfs.WellFormed where
  sequence _ := show 1 < 2 ^ 16 by decide
  plain dir entry present := by
    simp only [NtfsVolume.fresh] at present
    split at present
    · obtain rfl := List.mem_singleton.mp present
      decide
    · cases present
  inTable ino used := by
    simp only [NtfsVolume.fresh, ne_eq] at used ⊢
    split at used
    · rename_i root
      rw [root]
      decide
    · split at used
      · omega
      · exact absurd rfl used

theorem metadata_out_of_reach_guarded :
    Steps Server.plain.step (OutOfReach .plain) freshNtfs [createGuarded] ∧
      ∀ number, freshNtfs.metadata number →
        SameObject number freshNtfs ([createGuarded].foldl Server.plain.step freshNtfs) :=
  metadata_out_of_reach .plain freshNtfs [createGuarded] freshNtfs_wellFormed
    ⟨createGuarded_outside, trivial⟩

end Rufux.Mountd
