import Rufux.Library.Run
import Rufux.Mountd.Namespace

/-!
What the parent cache of the NTFS backend records for a live directory is the directory that
holds it. A handle with a sequence number would put a second entry for its directory into the
cache, which RENAME does not repair.
-/

namespace Rufux.Mountd

open Rufux.Library

/-- Every entry of the cache, under whatever reference to a live directory, names its holder. -/
def NtfsMount.Coherent (mount : NtfsMount) : Prop :=
  ∀ child parent, mount.cache.Holds child parent → mount.volume.graph.IsDir (mref child) →
    mref child ≠ fileRoot → mount.volume.graph.Holds (mref parent) (mref child)

/-- A well-kept volume, and a cache that tells the truth under plain record numbers. -/
structure NtfsMount.Orderly (mount : NtfsMount) : Prop where
  tidy : mount.Tidy
  plain : ∀ child parent, mount.cache.Holds child parent → child < 2 ^ 48

/-- The library calls that a request could break off at do not fail. -/
structure NtfsCalls.Finishes (calls : NtfsCalls) : Prop where
  whole : calls.Whole
  parent : calls.fault (.parentInode .dir) = none

/-- A LOOKUP of `..` in a live directory that succeeds gives a handle of the directory that
holds it. -/
def DotdotTrue (server : Server) (state : Volume) (exchange : Exchange) : Prop :=
  ∀ mount dir dirIno object post, state = .ntfs mount →
    exchange.request = .lookup dir dotdotName → xdrGetFh dir = some dirIno →
    mount.volume.graph.IsDir (mref dirIno) → mref dirIno ≠ fileRoot →
    server.reply state exchange = .lookup .ok (some object) post →
    ∃ parent, object.handle = xdrPutFh parent ∧
      mount.volume.graph.Holds (mref parent) (mref dirIno)

section Coherence

variable {server : Server} {mount : NtfsMount}

theorem NtfsMount.Orderly.coherent (orderly : mount.Orderly) : mount.Coherent := by
  intro child parent stored isDir notRoot
  rw [mref_of_lt (orderly.plain child parent stored)] at isDir notRoot ⊢
  exact orderly.tidy.known.parents child parent stored isDir notRoot

theorem ntfsLookup_dotdot {calls : NtfsCalls} {dirIno pino : Nat} {attr : NfsAttr}
    (finishes : calls.Finishes) (orderly : mount.Orderly) (plain : dirIno < 2 ^ 48)
    (isDir : mount.volume.graph.IsDir dirIno) (notRoot : dirIno ≠ fileRoot)
    (found : (ntfsOpLookup server.config server.lib calls mount dirIno dotdotName).1 =
      .ok (pino, attr)) : mount.volume.graph.Holds (mref pino) dirIno := by
  unfold ntfsOpLookup at found
  split at found
  · cases found
  split at found
  · cases found
  rename_i dirNi opened
  have known := (ntfsInodeOpen_ok opened).2.1
  rw [mref_of_lt plain] at known
  split at found
  · cases found
  rename_i directory
  have answered := ntfsResolveParentIno_answers finishes.parent orderly.tidy.volume known
    (by simpa using directory) notRoot
  have holds := ntfsResolveParentIno_holds orderly.tidy known notRoot isDir answered
  rw [if_neg (show dotdotName ≠ dotName by decide), if_pos rfl] at found
  simp only [if_neg answered] at found
  generalize ntfsOpGetattr server.config calls .parent mount.volume _ = got at found
  cases got with
  | error status => cases found
  | ok attr =>
      cases found
      exact holds

theorem dotdotTrue {exchange : Exchange} (finishes : exchange.calls.ntfs.Finishes)
    (orderly : mount.Orderly) (plain : exchange.request.asked < 2 ^ 48) :
    DotdotTrue server (.ntfs mount) exchange := by
  obtain ⟨request, calls⟩ := exchange
  rintro again dir dirIno object post ⟨⟩ rfl decoded isDir notRoot answered
  have asked : (Request.lookup dir dotdotName).asked = dirIno := by
    simp [Request.asked, Request.asker, decoded]
  rw [asked] at plain
  rw [mref_of_lt plain] at isDir notRoot ⊢
  simp only [Server.reply, handleProc, decoded, handleLookup, fsLookup, Prod.map, id] at answered
  cases looked : (ntfsOpLookup server.config server.lib calls.ntfs mount dirIno dotdotName).1 with
  | error status =>
      rw [looked] at answered
      cases answered
  | ok found =>
      obtain ⟨pino, attr⟩ := found
      rw [looked] at answered
      cases answered
      exact ⟨pino, rfl, ntfsLookup_dotdot finishes orderly plain isDir notRoot looked⟩

theorem step_orderly {exchange : Exchange} (whole : exchange.calls.ntfs.Whole)
    (orderly : mount.Orderly) (plain : exchange.request.asked < 2 ^ 48) :
    ∃ after, server.step (.ntfs mount) exchange = .ntfs after ∧ after.Orderly := by
  have edited : Volume.Edited False exchange.request.asked (.ntfs mount)
      (server.step (.ntfs mount) exchange) :=
    (@handleProc_edited _ _ _ (.ntfs mount)) whole orderly.tidy exchange.request
      fun impossible => impossible.elim
  cases left : server.step (.ntfs mount) exchange with
  | ext volume =>
      rw [left] at edited
      exact edited.elim
  | ntfs after =>
      rw [left] at edited
      refine ⟨after, rfl, edited.tidy, fun child parent stored => ?_⟩
      rcases edited.keys child parent stored with earlier | small | rfl
      · exact orderly.plain child parent earlier
      · exact small
      · exact plain

end Coherence

/-- In a run whose handles carry no sequence number where a parent may be asked for, the
cache of every state is coherent, and `..` is never answered with a stale parent. -/
theorem parentCache_coherent (server : Server) (mount : NtfsMount) (run : List Exchange)
    (orderly : mount.Orderly)
    (met : Steps server.step (fun _ exchange => exchange.calls.ntfs.Finishes ∧
      exchange.request.asked < 2 ^ 48) (.ntfs mount) run) :
    (∃ after, run.foldl server.step (.ntfs mount) = .ntfs after ∧ after.Coherent) ∧
      Steps server.step (DotdotTrue server) (.ntfs mount) run := by
  have kept (state : Volume) (exchange : Exchange)
      (known : ∃ mount, state = .ntfs mount ∧ mount.Orderly)
      (met : exchange.calls.ntfs.Finishes ∧ exchange.request.asked < 2 ^ 48) :
      (∃ mount, server.step state exchange = .ntfs mount ∧ mount.Orderly) ∧
        DotdotTrue server state exchange := by
    obtain ⟨mount, rfl, orderly⟩ := known
    exact ⟨step_orderly met.1.whole orderly met.2, dotdotTrue met.1 orderly met.2⟩
  constructor
  · obtain ⟨after, same, kept⟩ := met.invariant (fun state exchange known met =>
      (kept state exchange known met).1) ⟨mount, rfl, orderly⟩
    exact ⟨after, same, kept.coherent⟩
  · exact met.strengthen kept ⟨mount, rfl, orderly⟩

/-- An NTFS volume whose root holds `$MFT` and the directories `a` (64) and `b` (65). -/
def twoDirs : NtfsVolume :=
  { NtfsVolume.fresh with
    record := fun ino =>
      if ino = 64 then some (.blank true [(fileRoot, [97])])
      else if ino = 65 then some (.blank true [(fileRoot, [98])])
      else NtfsVolume.fresh.record ino
    entries := fun dir =>
      if dir = fileRoot then [⟨mftName, 0⟩, ⟨[97], 64⟩, ⟨[98], 65⟩] else []
    mftRecords := 66 }

theorem twoDirs_names (dir : Nat) : UniqueNames (twoDirs.entries dir) := by
  unfold UniqueNames twoDirs
  simp only
  split <;> decide

theorem twoDirs_bind (dir number : Nat) (name : UcsName) :
    twoDirs.graph.bind dir name = some number ↔ dir = fileRoot ∧
      ((name = mftName ∧ number = 0) ∨ (name = [97] ∧ number = 64) ∨
        (name = [98] ∧ number = 65)) := by
  have listed : twoDirs.graph.bind dir name = some number ↔
      (⟨name, number⟩ : DirEntry UcsName) ∈ twoDirs.entries dir :=
    ⟨findEntry_mem, (twoDirs_names dir).findEntry_eq⟩
  rw [listed]
  simp only [twoDirs]
  split <;> rename_i here <;> simp [here]

theorem twoDirs_record {ino : Nat} {record : NtfsRecord} (known : twoDirs.record ino = some record) :
    (ino = 0 ∧ record = .blank false [(fileRoot, mftName)]) ∨
      (ino = fileRoot ∧ record = .blank true []) ∨
      (ino = 64 ∧ record = .blank true [(fileRoot, [97])]) ∨
      (ino = 65 ∧ record = .blank true [(fileRoot, [98])]) := by
  simp only [twoDirs, NtfsVolume.fresh] at known
  split at known
  · cases known
    exact .inr (.inr (.inl ⟨by assumption, rfl⟩))
  split at known
  · cases known
    exact .inr (.inr (.inr ⟨by assumption, rfl⟩))
  split at known
  · cases known
    exact .inr (.inl ⟨by assumption, rfl⟩)
  split at known
  · cases known
    exact .inl ⟨by assumption, rfl⟩
  · cases known

theorem twoDirs_refs {number : Nat} {name : UcsName}
    (single : (number = 0 ∧ name = mftName) ∨ (number = 64 ∧ name = [97]) ∨
      (number = 65 ∧ name = [98])) : twoDirs.graph.refs number = {(fileRoot, name)} := by
  ext ⟨dir, called⟩
  simp only [DirGraph.refs, Set.mem_ofPred_eq, twoDirs_bind, Set.mem_singleton_iff, Prod.mk.injEq]
  rcases single with ⟨rfl, rfl⟩ | ⟨rfl, rfl⟩ | ⟨rfl, rfl⟩
  · simp
  · simp
  · simp

theorem twoDirs_held : twoDirs.graph.WellHeld fileRoot where
  rootDir := ⟨fileRoot, by decide⟩
  holders := by
    intro dir name number bound
    rw [((twoDirs_bind dir number name).mp bound).1]
    exact ⟨fileRoot, by decide⟩
  targets := by
    intro dir name number bound
    rcases ((twoDirs_bind dir number name).mp bound).2 with ⟨-, rfl⟩ | ⟨-, rfl⟩ | ⟨-, rfl⟩
    · decide
    · decide
    · decide
  rootless := by
    intro dir name bound
    rcases ((twoDirs_bind dir fileRoot name).mp bound).2 with ⟨-, same⟩ | ⟨-, same⟩ | ⟨-, same⟩
    · cases same
    · cases same
    · cases same
  held := by
    intro number up known notRoot
    obtain ⟨record, present, node⟩ := Option.map_eq_some_iff.mp known
    rcases twoDirs_record present with ⟨rfl, rfl⟩ | ⟨rfl, rfl⟩ | ⟨rfl, rfl⟩ | ⟨rfl, rfl⟩
    · cases node
    · exact absurd rfl notRoot
    · cases node
      exact ⟨[97], twoDirs_refs (.inr (.inl ⟨rfl, rfl⟩))⟩
    · cases node
      exact ⟨[98], twoDirs_refs (.inr (.inr ⟨rfl, rfl⟩))⟩
  counted := by
    intro number links known
    obtain ⟨record, present, node⟩ := Option.map_eq_some_iff.mp known
    rcases twoDirs_record present with ⟨rfl, rfl⟩ | ⟨rfl, rfl⟩ | ⟨rfl, rfl⟩ | ⟨rfl, rfl⟩
    · cases node
      refine .inr ?_
      rw [twoDirs_refs (.inl ⟨rfl, rfl⟩), Set.encard_singleton]
      rfl
    · cases node
    · cases node
    · cases node

theorem twoDirs_tidy : twoDirs.Tidy where
  names := twoDirs_names
  places := by
    intro ino record present notRoot
    rcases twoDirs_record present with ⟨rfl, rfl⟩ | ⟨rfl, rfl⟩ | ⟨rfl, rfl⟩ | ⟨rfl, rfl⟩
    · rw [twoDirs_refs (.inl ⟨rfl, rfl⟩)]
      simp [NtfsRecord.blank]
    · exact absurd rfl notRoot
    · rw [twoDirs_refs (.inr (.inl ⟨rfl, rfl⟩))]
      simp [NtfsRecord.blank]
    · rw [twoDirs_refs (.inr (.inr ⟨rfl, rfl⟩))]
      simp [NtfsRecord.blank]
  plain := by
    intro ino used
    obtain ⟨record, present⟩ := Option.ne_none_iff_exists'.mp used
    rcases twoDirs_record present with ⟨rfl, -⟩ | ⟨rfl, -⟩ | ⟨rfl, -⟩ | ⟨rfl, -⟩ <;> decide
  mft := by
    intro record present
    rcases twoDirs_record present with ⟨-, rfl⟩ | ⟨same, -⟩ | ⟨same, -⟩ | ⟨same, -⟩
    · rfl
    · cases same
    · cases same
    · cases same
  held := twoDirs_held

theorem twoDirs_orderly : NtfsMount.Orderly { volume := twoDirs, cache := .empty } where
  tidy :=
    { volume := twoDirs_tidy
      known :=
        { sound := ParentCache.sound_empty
          parents := fun _ _ ⟨_, stored⟩ => nomatch stored } }
  plain := fun _ _ ⟨_, stored⟩ => nomatch stored

/-- LOOKUP of `..` in a directory. -/
def askUp (reference : Nat) : Exchange where
  request := .lookup (xdrPutFh reference) dotdotName
  calls := .quiet 66

/-- RENAME of `a` to the name `a` in `b`. -/
def moveA : Exchange where
  request := .rename (xdrPutFh fileRoot) [97] (xdrPutFh 65) [97]
  calls := .quiet 66

theorem askUp_caches :
    Server.plain.step (.ntfs { volume := twoDirs, cache := .empty }) (askUp (2 ^ 48 + 64)) =
      .ntfs { volume := twoDirs, cache := cacheSetParent .empty (2 ^ 48 + 64) 5 } := by
  rfl

set_option maxRecDepth 4000 in
theorem moveA_leaves (cache : ParentCache) :
    ∃ left : NtfsVolume,
      Server.plain.step (.ntfs { volume := twoDirs, cache := cache }) moveA =
        .ntfs { volume := left, cache := cacheSetParent (cacheSetParent cache 64 5) 64 65 } ∧
      left.entries fileRoot = [⟨mftName, 0⟩, ⟨[98], 65⟩] ∧ left.graph.IsDir 64 := by
  refine ⟨_, rfl, ?_, ?_⟩
  · rfl
  · exact ⟨65, rfl⟩

/-- The three stores of the run each meet a free slot or their own. -/
theorem staleEntry_kept :
    (cacheSetParent (cacheSetParent (cacheSetParent .empty (2 ^ 48 + 64) 5) 64 5) 64 65).Holds
      (2 ^ 48 + 64) 5 := by
  have apart : cacheIndex (2 ^ 48 + 64) ≠ cacheIndex 64 := by decide
  have first := (@cacheSetParent_home .empty (2 ^ 48 + 64) 5) (by decide)
    (by decide) nofun
  have second := (@cacheSetParent_home (cacheSetParent .empty (2 ^ 48 + 64) 5) 64 5) (by decide) (by decide) (by
      intro found stored
      rw [first, Function.update_of_ne apart.symm] at stored
      cases stored)
  have third := (@cacheSetParent_home (cacheSetParent (cacheSetParent .empty (2 ^ 48 + 64) 5) 64 5) 64 65) (by decide) (by decide) (by
      intro found stored
      rw [second, Function.update_self] at stored
      cases stored
      rfl)
  refine ⟨cacheIndex (2 ^ 48 + 64), ?_⟩
  rw [third, Function.update_of_ne apart, second, Function.update_of_ne apart, first,
    Function.update_self]

theorem sequencedHandle_leaves_stale :
    NtfsMount.Orderly { volume := twoDirs, cache := .empty } ∧
      (∀ exchange ∈ [askUp (2 ^ 48 + 64), moveA], exchange.calls.NoFault) ∧
      ∃ after, [askUp (2 ^ 48 + 64), moveA].foldl Server.plain.step (.ntfs { volume := twoDirs, cache := .empty }) =
        .ntfs after ∧ ¬ after.Coherent := by
  refine ⟨twoDirs_orderly, ?_, ?_⟩
  · intro exchange member
    simp only [List.mem_cons, List.not_mem_nil, or_false] at member
    rcases member with rfl | rfl
    · exact ⟨fun _ => rfl, fun _ => rfl⟩
    · exact ⟨fun _ => rfl, fun _ => rfl⟩
  · obtain ⟨left, moved, entries, isDir⟩ := moveA_leaves (cacheSetParent .empty (2 ^ 48 + 64) 5)
    have after : [askUp (2 ^ 48 + 64), moveA].foldl Server.plain.step
        (.ntfs { volume := twoDirs, cache := .empty }) = .ntfs ⟨left,
          cacheSetParent (cacheSetParent (cacheSetParent .empty (2 ^ 48 + 64) 5) 64 5) 64 65⟩ := by
      rw [List.foldl_cons, askUp_caches, List.foldl_cons, moved, List.foldl_nil]
    refine ⟨_, after, fun coherent => ?_⟩
    obtain ⟨name, bound⟩ := coherent (2 ^ 48 + 64) 5 staleEntry_kept isDir (by decide)
    have listed := findEntry_mem bound
    change (⟨name, 64⟩ : DirEntry UcsName) ∈ left.entries fileRoot at listed
    rw [entries] at listed
    simp at listed

theorem parentCache_coherent_renamed :
    (∃ after, [askUp 64, moveA, askUp 64].foldl Server.plain.step (.ntfs { volume := twoDirs, cache := .empty }) =
        .ntfs after ∧ after.Coherent) ∧
      Steps Server.plain.step (DotdotTrue .plain) (.ntfs { volume := twoDirs, cache := .empty })
        [askUp 64, moveA, askUp 64] :=
  have finishes : (Calls.quiet 66).ntfs.Finishes := ⟨⟨rfl, rfl, rfl⟩, rfl⟩
  parentCache_coherent .plain { volume := twoDirs, cache := .empty } [askUp 64, moveA, askUp 64]
    twoDirs_orderly
    ⟨⟨finishes, by decide⟩, ⟨finishes, by decide⟩, ⟨finishes, by decide⟩, trivial⟩

end Rufux.Mountd
