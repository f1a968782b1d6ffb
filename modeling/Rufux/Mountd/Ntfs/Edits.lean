import Rufux.Mountd.Ntfs.Frame
import Rufux.Mountd.Ntfs.Graph

/-!
Each NTFS operation as edits of the directory graph, and what it teaches the parent cache.
The calls between the two steps of RENAME must not fail; any other call may.
-/

namespace Rufux.Mountd

open Rufux.Library NtfsVolume

/-- The calls that a half-made RENAME could come from do not fail. -/
structure NtfsCalls.Whole (calls : NtfsCalls) : Prop where
  reopenDir : calls.fault (.openInode .unlinkDir) = none
  reopen : calls.fault (.parentInode .unlinkDir) = none
  delete : calls.fault .delete = none

namespace NtfsMount

/-- What the cache records for a live directory is the directory that holds it. -/
structure Known (mount : NtfsMount) : Prop where
  sound : mount.cache.Sound
  parents : ∀ child parent, mount.cache.Holds child parent → mount.volume.graph.IsDir child →
    child ≠ fileRoot → mount.volume.graph.Holds (mref parent) child

structure Tidy (mount : NtfsMount) : Prop where
  volume : mount.volume.Tidy
  known : mount.Known

/-- What an operation leaves when it edits the graph and teaches the cache. `ino` is the
number that came with the request, the only one with a sequence number that the cache can
come to know. -/
structure Edited (proper : Prop) (ino : Nat) (before after : NtfsMount) : Prop where
  tidy : after.Tidy
  edits : DirGraph.Edits proper before.volume.graph after.volume.graph
  keys : ∀ child parent, after.cache.Holds child parent →
    before.cache.Holds child parent ∨ child < 2 ^ 48 ∨ child = ino

section Edited

variable {proper : Prop} {ino : Nat} {before middle after mount : NtfsMount}

theorem Tidy.refl (tidy : before.Tidy) : Edited proper ino before before :=
  ⟨tidy, .refl proper _, fun _ _ holds => .inl holds⟩

theorem Edited.trans (first : Edited proper ino before middle)
    (second : Edited proper ino middle after) : Edited proper ino before after where
  tidy := second.tidy
  edits := first.edits.trans second.edits
  keys child parent holds := by
    rcases second.keys child parent holds with earlier | key
    · exact first.keys child parent earlier
    · exact .inr key

/-- A change of data and times. -/
theorem Tidy.setVolume {volume : NtfsVolume} {number : Nat} (tidy : mount.Tidy)
    (edit : EditsRecord number mount.volume volume) :
    Edited proper ino mount (mount.setVolume volume) where
  tidy :=
    { volume := (@EditsRecord.edited proper _ _ _ edit tidy.volume).tidy
      known :=
        { sound := tidy.known.sound
          parents := by
            rw [setVolume_volume, edit.graph]
            exact tidy.known.parents } }
  edits := (edit.edited tidy.volume).edits
  keys _ _ holds := .inl holds

/-- The cache learns a parent. -/
theorem Tidy.setParent {child parent : Nat} (tidy : mount.Tidy)
    (key : child < 2 ^ 48 ∨ child = ino)
    (holds : mount.volume.graph.IsDir child → child ≠ fileRoot →
      mount.volume.graph.Holds (mref parent) child) :
    Edited proper ino mount (mount.setParent child parent) where
  tidy :=
    { volume := tidy.volume
      known :=
        { sound := tidy.known.sound.setParent child parent
          parents := by
            intro other recorded stored isDir notRoot
            rcases tidy.known.sound.holds_setParent stored with ⟨rfl, rfl⟩ | ⟨earlier, -⟩
            · exact holds isDir notRoot
            · exact tidy.known.parents other recorded earlier isDir notRoot } }
  edits := .refl proper _
  keys other recorded stored := by
    rcases tidy.known.sound.holds_setParent stored with ⟨rfl, rfl⟩ | ⟨earlier, -⟩
    · exact .inr key
    · exact .inl earlier

/-- Of what an edit does not touch, the cache still tells the truth. -/
theorem Known.of_edit {volume : NtfsVolume} {edit : DirGraph.Edit UcsName} (known : mount.Known)
    (allowed : mount.volume.graph.Allowed edit)
    (graph : volume.graph = mount.volume.graph.apply edit) {child parent : Nat}
    (holds : mount.cache.Holds child parent) (different : child ≠ edit.object)
    (isDir : volume.graph.IsDir child) (notRoot : child ≠ fileRoot) :
    volume.graph.Holds (mref parent) child := by
  rw [graph] at isDir ⊢
  obtain ⟨up, node⟩ := isDir
  rw [DirGraph.node_apply_other _ different] at node
  obtain ⟨name, bound⟩ := known.parents child parent holds ⟨up, node⟩ notRoot
  have place : (mref parent, name) ∈ mount.volume.graph.refs child := bound
  rw [← DirGraph.refs_apply_other allowed different] at place
  exact ⟨name, place⟩

/-- An edit after which its object is no directory needs nothing of the cache. -/
theorem Tidy.edit {volume : NtfsVolume} {edit : DirGraph.Edit UcsName} (tidy : mount.Tidy)
    (edited : NtfsVolume.Edited proper mount.volume volume)
    (allowed : mount.volume.graph.Allowed edit)
    (graph : volume.graph = mount.volume.graph.apply edit)
    (gone : ¬ volume.graph.IsDir edit.object) :
    Edited proper ino mount (mount.setVolume volume) where
  tidy :=
    { volume := edited.tidy
      known :=
        { sound := tidy.known.sound
          parents := by
            intro child parent holds isDir notRoot
            have different : child ≠ edit.object := by
              rintro rfl
              exact gone isDir
            exact tidy.known.of_edit allowed graph holds different isDir notRoot } }
  edits := edited.edits
  keys _ _ holds := .inl holds

/-- An edit after which the cache learns the parent of its object. -/
theorem Tidy.edit_setParent {volume : NtfsVolume} {edit : DirGraph.Edit UcsName} {parent : Nat}
    (tidy : mount.Tidy) (edited : NtfsVolume.Edited proper mount.volume volume)
    (allowed : mount.volume.graph.Allowed edit)
    (graph : volume.graph = mount.volume.graph.apply edit) (objectKnown : edit.object ≠ 0)
    (parentKnown : parent ≠ 0) (plain : edit.object < 2 ^ 48)
    (holds : volume.graph.Holds (mref parent) edit.object) :
    Edited proper ino mount ((mount.setVolume volume).setParent edit.object parent) where
  tidy :=
    { volume := edited.tidy
      known :=
        { sound := tidy.known.sound.setParent edit.object parent
          parents := by
            intro child recorded stored isDir notRoot
            rcases tidy.known.sound.holds_setParent stored with ⟨rfl, rfl⟩ | ⟨earlier, overwritten⟩
            · exact holds
            · have different : child ≠ edit.object := by
                rcases overwritten with different | zero | zero
                · exact different
                · exact absurd zero objectKnown
                · exact absurd zero parentKnown
              exact tidy.known.of_edit allowed graph earlier different isDir notRoot } }
  edits := edited.edits
  keys child recorded stored := by
    rcases tidy.known.sound.holds_setParent stored with ⟨rfl, rfl⟩ | ⟨earlier, -⟩
    · exact .inr (.inl plain)
    · exact .inl earlier

end Edited

end NtfsMount

section Learning

variable {proper : Prop} {config : Config} {lib : NtfsLib} {calls : NtfsCalls}
  {mount : NtfsMount} {dirIno : Nat} {name : Name}

theorem NtfsVolume.Tidy.plain_of_isDir {volume : NtfsVolume} (tidy : volume.Tidy) {ino : Nat}
    (isDir : volume.graph.IsDir ino) : ino < 2 ^ 48 := by
  refine tidy.plain ino fun missing => ?_
  obtain ⟨up, known⟩ := isDir
  simp [NtfsVolume.graph, missing] at known

theorem NtfsVolume.Tidy.plain_of_bound {volume : NtfsVolume} (tidy : volume.Tidy) {dir ino : Nat}
    {ucs : UcsName} (bound : volume.graph.bind dir ucs = some ino) : ino < 2 ^ 48 := by
  refine tidy.plain ino fun missing => tidy.held.targets dir ucs ino bound ?_
  simp [NtfsVolume.graph, missing]

/-- The parent that a FILE_NAME attribute names holds its directory. -/
theorem ntfsDirParentInode_holds {fault : Option Errno} {record : NtfsRecord} {ino parent : Nat}
    (tidy : mount.volume.Tidy) (known : mount.volume.record (mref ino) = some record)
    (found : ntfsDirParentInode fault mount.volume ino record = some parent) :
    mount.volume.graph.Holds (mref parent) (mref ino) := by
  unfold ntfsDirParentInode at found
  split at found
  · cases found
  rename_i notRoot
  split at found
  · cases found
  rename_i first ucs rest names
  split at found
  · cases found
  cases found
  have place : (first, ucs) ∈ mount.volume.graph.refs (mref ino) :=
    ((tidy.places _ record known notRoot).2 (first, ucs)).mp (by simp [names])
  have plain := tidy.plain_of_isDir (tidy.held.holders first ucs _ place)
  rw [mref_of_lt plain, mref_of_lt plain]
  exact ⟨ucs, place⟩

theorem ntfsResolveParentIno_edited {ino : Nat} {record : NtfsRecord} (tidy : mount.Tidy)
    (known : mount.volume.record (mref ino) = some record) :
    NtfsMount.Edited proper ino mount (ntfsResolveParentIno calls mount ino record).2 := by
  unfold ntfsResolveParentIno
  split
  · exact tidy.refl
  split
  · exact tidy.refl
  split
  · rename_i parent found
    have holds := ntfsDirParentInode_holds tidy.volume known found
    refine tidy.setParent (.inr rfl) fun isDir _ => ?_
    rw [mref_of_lt (tidy.volume.plain_of_isDir isDir)] at holds
    exact holds
  · exact tidy.refl

/-- What `..` of a live directory is answered with holds it. -/
theorem ntfsResolveParentIno_holds {ino : Nat} {record : NtfsRecord} (tidy : mount.Tidy)
    (known : mount.volume.record ino = some record) (notRoot : ino ≠ fileRoot)
    (isDir : mount.volume.graph.IsDir ino)
    (answered : (ntfsResolveParentIno calls mount ino record).1 ≠ 0) :
    mount.volume.graph.Holds (mref (ntfsResolveParentIno calls mount ino record).1) ino := by
  have plain := mref_of_lt (tidy.volume.plain_of_isDir isDir)
  unfold ntfsResolveParentIno at answered ⊢
  rw [if_neg notRoot] at answered ⊢
  split
  · rename_i parent cached
    exact tidy.known.parents ino (parent + 1) (cacheGetParent_holds cached) isDir notRoot
  · rename_i uncached
    split
    · rename_i parent found
      have holds := ntfsDirParentInode_holds tidy.volume (plain.symm ▸ known) found
      rwa [plain] at holds
    · rename_i missing
      split at answered
      · rename_i parent cached
        exact absurd cached (uncached parent)
      · split at answered
        · rename_i parent found
          exact absurd found (missing parent)
        · exact absurd rfl answered

end Learning

section Names

variable {proper : Prop} {calls : NtfsCalls} {volume : NtfsVolume} {dir ino : Nat} {name : UcsName}

theorem ntfsIsDir_graph {record : NtfsRecord} (known : volume.record ino = some record)
    (isDir : record.isDir = true) : volume.graph.IsDir ino :=
  ⟨record.parent, by simp [NtfsVolume.graph, known, NtfsRecord.node, isDir]⟩

theorem ntfsIsDir_of_graph (isDir : volume.graph.IsDir ino) :
    ∃ record, volume.record ino = some record ∧ record.isDir = true := by
  obtain ⟨up, known⟩ := isDir
  obtain ⟨record, present, node⟩ := Option.map_eq_some_iff.mp known
  refine ⟨record, present, ?_⟩
  unfold NtfsRecord.node at node
  split at node
  · assumption
  · cases node

theorem ntfsFree_graph (unused : volume.record ino = none) : volume.graph.node ino = none := by
  simp [NtfsVolume.graph, unused]

theorem ntfsBare (held : volume.graph.WellHeld fileRoot) (unused : volume.record ino = none) :
    volume.entries ino = [] := by
  refine eq_nil_of_findEntry fun name => ?_
  by_contra full
  obtain ⟨target, bound⟩ := Option.ne_none_iff_exists'.mp full
  obtain ⟨up, known⟩ := held.holders ino name target bound
  rw [ntfsFree_graph unused] at known
  cases known

theorem ntfsNames_insert (names : ∀ dir, UniqueNames (volume.entries dir))
    (free : volume.graph.bind dir name = none) (place : Nat) :
    UniqueNames (Function.update volume.entries dir
      (insertEntry calls.arrange (volume.entries dir) name ino) place) := by
  by_cases same : place = dir
  · rw [same, Function.update_self]
    exact (names dir).insertEntry calls.arrange free ino
  · rw [Function.update_of_ne same]
    exact names place

theorem ntfsNames_erase (names : ∀ dir, UniqueNames (volume.entries dir)) (dir : Nat)
    (entry : DirEntry UcsName) (place : Nat) :
    UniqueNames (Function.update volume.entries dir
      (rearrange calls.arrange ((volume.entries dir).erase entry)) place) := by
  by_cases same : place = dir
  · rw [same, Function.update_self]
    exact ((names dir).erase entry).of_perm (rearrange_perm _ _)
  · rw [Function.update_of_ne same]
    exact names place

/-- A directory has one FILE_NAME attribute, that of its one place. -/
theorem NtfsVolume.Tidy.fileNames_dir (tidy : volume.Tidy) {record : NtfsRecord}
    (known : volume.record ino = some record) (isDir : record.isDir = true)
    (bound : volume.graph.bind dir name = some ino) : record.fileNames = [(dir, name)] := by
  have notRoot : ino ≠ fileRoot := by
    rintro rfl
    exact tidy.held.rootless dir name bound
  obtain ⟨nodup, places⟩ := tidy.places ino record known notRoot
  obtain ⟨called, single⟩ := tidy.held.held ino record.parent
    (by simp [NtfsVolume.graph, known, NtfsRecord.node, isDir]) notRoot
  have member : (dir, name) ∈ volume.graph.refs ino := bound
  rw [single, Set.mem_singleton_iff] at member
  have all (place : Nat × UcsName) : place ∈ record.fileNames ↔ place = (dir, name) := by
    rw [places, single, Set.mem_singleton_iff, member]
  cases names : record.fileNames with
  | nil => exact absurd ((all (dir, name)).mpr rfl) (by simp [names])
  | cons first rest =>
      have firstSame := (all first).mp (by simp [names])
      cases rest with
      | nil => rw [firstSame]
      | cons second rest =>
          have secondSame := (all second).mp (by simp [names])
          rw [names, firstSame, secondSame] at nodup
          simp at nodup

/-- Where the open of the parent does not fail, `..` of a live directory is known: the first
FILE_NAME attribute names a live directory, which is not `$MFT`. -/
theorem ntfsResolveParentIno_answers {mount : NtfsMount} {record : NtfsRecord}
    (silent : calls.fault (.parentInode .dir) = none) (tidy : mount.volume.Tidy)
    (known : mount.volume.record ino = some record) (directory : record.isDir = true)
    (notRoot : ino ≠ fileRoot) : (ntfsResolveParentIno calls mount ino record).1 ≠ 0 := by
  have plain := mref_of_lt (tidy.plain_of_isDir (ntfsIsDir_graph known directory))
  unfold ntfsResolveParentIno
  rw [if_neg notRoot]
  split
  · exact Nat.succ_ne_zero _
  split
  · exact Nat.succ_ne_zero _
  · rename_i unknown
    obtain ⟨name, single⟩ := tidy.held.held ino record.parent
      (by simp [NtfsVolume.graph, known, NtfsRecord.node, directory]) notRoot
    have bound : mount.volume.graph.bind record.parent name = some ino := by
      have member : (record.parent, name) ∈ mount.volume.graph.refs ino := by simp [single]
      exact member
    have parentIsDir := tidy.held.holders _ _ _ bound
    obtain ⟨parent, parentKnown, parentDir⟩ := ntfsIsDir_of_graph parentIsDir
    have parentPlain := tidy.plain_of_isDir parentIsDir
    have opens : ntfsInodeOpen none mount.volume (mref record.parent) = .ok parent := by
      rw [mref_of_lt parentPlain]
      exact ntfsInodeOpen_of_record (by rw [mref_of_lt parentPlain]; exact parentKnown)
        (.inl (mseqno_of_lt parentPlain))
    have found : ntfsDirParentInode none mount.volume ino record = some record.parent := by
      have places := tidy.fileNames_dir known directory bound
      unfold ntfsDirParentInode
      simp only [plain, notRoot, if_false, places, opens]
      rw [mref_of_lt parentPlain]
    have positive : record.parent ≠ 0 := by
      intro zero
      rw [zero] at parentKnown
      rw [tidy.mft parent parentKnown] at parentDir
      cases parentDir
    obtain ⟨pred, same⟩ := Nat.exists_eq_succ_of_ne_zero positive
    rw [silent] at unknown
    exact absurd (found.trans (congrArg some same)) (unknown pred)

theorem ntfsDelete_leaves {fault : Option Errno} {left : NtfsVolume} (tidy : volume.Tidy)
    (deleted : ntfsDelete fault calls volume ino dir name = .ok left) :
    ∃ node, volume.graph.Allowed (.leave dir name ino node) ∧
      left.graph = volume.graph.apply (.leave dir name ino node) ∧
      NtfsVolume.Edited proper volume left ∧ ¬ left.graph.IsDir ino := by
  obtain ⟨-, member, record, known, entries, -, -, outcome⟩ := ntfsDelete_ok deleted
  have bound : volume.graph.bind dir name = some ino := (tidy.names dir).findEntry_eq member
  have notRoot : ino ≠ fileRoot := by
    rintro rfl
    exact tidy.held.rootless dir name bound
  obtain ⟨nodup, places⟩ := tidy.places ino record known notRoot
  have named : (dir, name) ∈ record.fileNames := (places (dir, name)).mpr bound
  have lengths := List.length_erase_add_one named
  have edit {remains : Option NtfsRecord} (after : left.record = Function.update volume.record ino remains)
      (loses : DirGraph.Loses record.node (remains.map NtfsRecord.node))
      (empty : record.isDir = true → volume.entries ino = [])
      (attributes : ∀ kept, remains = some kept →
        kept.fileNames = record.fileNames.erase (dir, name))
      (sameDir : ∀ kept, remains = some kept → kept.isDir = record.isDir) :
      ∃ node, volume.graph.Allowed (.leave dir name ino node) ∧
        left.graph = volume.graph.apply (.leave dir name ino node) ∧
        NtfsVolume.Edited proper volume left ∧ ¬ left.graph.IsDir ino := by
    have allowed : volume.graph.Allowed (.leave dir name ino (remains.map NtfsRecord.node)) := by
      refine ⟨bound, fun isDir other => ?_, record.node, ?_, loses⟩
      · obtain ⟨again, same, directory⟩ := ntfsIsDir_of_graph isDir
        rw [known] at same
        cases same
        simp [NtfsVolume.graph, empty directory, findEntry]
      · simp [NtfsVolume.graph, known]
    have graph : left.graph =
        volume.graph.apply (.leave dir name ino (remains.map NtfsRecord.node)) := by
      have same : left.graph = ((volume.setRecord ino remains).setEntries dir
          (rearrange calls.arrange (((volume.setRecord ino remains).entries dir).erase
            ⟨name, ino⟩))).graph := by
        refine graph_congr (fun other => ?_) ?_
        · simp [NtfsVolume.graph, after]
        · simp [entries]
      rw [same, graph_eraseEntry (volume.setRecord ino remains) calls (tidy.names dir) bound,
        graph_setRecord]
      rfl
    refine ⟨_, allowed, graph, tidy.edited ⟨allowed, fun _ => trivial⟩ graph ?_ after ?_, ?_⟩
    · rw [entries]
      exact ntfsNames_erase tidy.names dir _
    · intro kept present
      rw [attributes kept present]
      refine ⟨tidy.plain ino (by simp [known]), ?_, nodup.erase _, fun place => ?_⟩
      · rintro (rfl : ino = 0)
        rw [sameDir kept present]
        exact tidy.mft record known
      have refs := ((@DirGraph.refs_unbind _ _ (volume.graph.setNode ino (remains.map NtfsRecord.node))) bound).1
      change _ ↔ place ∈ (DirGraph.setBind _ _ _ _).refs ino
      rw [refs, DirGraph.setNode_refs, nodup.mem_erase_iff, places]
      simp [and_comm]
    · rintro ⟨up, node⟩
      rw [graph] at node
      change Function.update volume.graph.node ino _ ino = _ at node
      rw [Function.update_self] at node
      rw [node] at loses
      generalize record.node = old at loses
      cases loses
  rcases outcome with ⟨last, empty, after⟩ | ⟨more, -, after⟩
  · refine edit after ?_ empty (by rintro _ ⟨⟩) (by rintro _ ⟨⟩)
    rw [last] at lengths
    unfold NtfsRecord.node
    split
    · exact .dir _
    · rw [← lengths]
      exact .last
  · refine edit after ?_ (fun isDir => ?_) (fun kept same => by cases same; rfl)
      fun kept same => by cases same; rfl
    · unfold NtfsRecord.node
      split
      · rename_i isDir
        rw [tidy.fileNames_dir known isDir bound] at more
        simp at more
      · rename_i isFile
        rw [← lengths, Option.map_some, if_neg isFile]
        obtain ⟨count, counted⟩ := Nat.exists_eq_succ_of_ne_zero
          (fun none => more (List.length_eq_zero_iff.mp none))
        rw [counted]
        exact .link count
    · rw [tidy.fileNames_dir known isDir bound] at more
      simp at more

end Names

section Operations

variable {proper : Prop} {config : Config} {lib : NtfsLib} {calls : NtfsCalls}
  {mount : NtfsMount} {dirIno ino : Nat} {name : Name}

theorem NtfsMount.Edited.plain {before after : NtfsMount} (edited : NtfsMount.Edited proper ino before after)
    (plain : ino < 2 ^ 48) (other : Nat) : NtfsMount.Edited proper other before after where
  tidy := edited.tidy
  edits := edited.edits
  keys child parent holds := by
    rcases edited.keys child parent holds with earlier | small | rfl
    · exact .inl earlier
    · exact .inr (.inl small)
    · exact .inr (.inl plain)

/-- The cache learns the parent of each of several directories that one directory holds. -/
theorem NtfsMount.Tidy.setParents {items : List DirEntryItem} (tidy : mount.Tidy)
    (held : ∀ item ∈ items, mount.volume.graph.Holds (mref dirIno) item.fileid) :
    NtfsMount.Edited proper ino mount
      (items.foldl (fun left item => left.setParent item.fileid dirIno) mount) := by
  induction items generalizing mount with
  | nil => exact tidy.refl
  | cons item rest ih =>
      have here := held item (by simp)
      obtain ⟨ucs, bound⟩ := here
      have first : NtfsMount.Edited proper ino mount (mount.setParent item.fileid dirIno) :=
        tidy.setParent (.inl (tidy.volume.plain_of_bound bound)) fun _ _ => ⟨ucs, bound⟩
      exact first.trans (ih first.tidy fun other member => held other (by simp [member]))

theorem ntfsOpLookup_edited (tidy : mount.Tidy) :
    NtfsMount.Edited proper dirIno mount (ntfsOpLookup config lib calls mount dirIno name).2 := by
  unfold ntfsOpLookup
  split
  · exact tidy.refl
  split
  · exact tidy.refl
  rename_i dirNi opened
  split
  · exact tidy.refl
  split
  · exact tidy.refl
  split
  · exact ntfsResolveParentIno_edited tidy (ntfsInodeOpen_ok opened).2.1
  split
  · exact tidy.refl
  split
  · exact tidy.refl
  rename_i cino found
  have bound := (ntfsLookupByName_ok found).2
  split
  · exact tidy.refl
  split
  · exact tidy.refl
  · exact tidy.setParent (.inl (tidy.volume.plain_of_bound bound)) fun _ _ => ⟨_, bound⟩

theorem ntfsOpReaddir_edited (tidy : mount.Tidy) :
    NtfsMount.Edited proper dirIno mount (ntfsOpReaddir config lib calls mount dirIno).2.2 := by
  unfold ntfsOpReaddir
  split
  · exact tidy.refl
  rename_i dirNi opened
  simp only
  split
  · exact tidy.refl
  have resolved : NtfsMount.Edited proper dirIno mount
      (ntfsResolveParentIno calls mount dirIno dirNi).2 :=
    ntfsResolveParentIno_edited tidy (ntfsInodeOpen_ok opened).2.1
  have listed : NtfsMount.Edited proper dirIno (ntfsResolveParentIno calls mount dirIno dirNi).2
      (((mount.volume.entries (mref dirIno)).filterMap (ntfsFilldirCb lib)).foldl
        (fun left item => left.setParent item.fileid dirIno)
        (ntfsResolveParentIno calls mount dirIno dirNi).2) := by
    refine resolved.tidy.setParents fun item member => ?_
    obtain ⟨entry, present, shown⟩ := List.mem_filterMap.mp member
    rw [ntfsResolveParentIno_volume]
    refine ⟨entry.name, ?_⟩
    have number : item.fileid = entry.ino := by
      unfold ntfsFilldirCb at shown
      repeat' split at shown
      all_goals cases shown
      rfl
    rw [number]
    exact (tidy.volume.names (mref dirIno)).findEntry_eq present
  split
  · exact resolved.trans listed
  · exact resolved.trans listed

theorem ntfsOpenWithParent_edited (tidy : mount.Tidy) :
    NtfsMount.Edited proper ino mount (ntfsOpenWithParent calls mount ino).2 := by
  unfold ntfsOpenWithParent
  simp only
  split
  · exact tidy.refl
  rename_i record opened
  split
  · exact tidy.refl
  · exact ntfsResolveParentIno_edited tidy (ntfsInodeOpen_ok opened).2.1

/-- An operation that opens a record with its parent and edits no more than the record. -/
theorem ntfsWithParent_edited {after : NtfsMount} (tidy : mount.Tidy)
    (stored : after = (ntfsOpenWithParent calls mount ino).2.setVolume after.volume)
    (edit : EditsRecord (mref ino) mount.volume after.volume) :
    NtfsMount.Edited proper ino mount after := by
  have opened : NtfsMount.Edited proper ino mount (ntfsOpenWithParent calls mount ino).2 :=
    ntfsOpenWithParent_edited tidy
  rw [stored]
  refine opened.trans (@NtfsMount.Tidy.setVolume proper ino _ _ (mref ino) opened.tidy ?_)
  rw [ntfsOpenWithParent_volume]
  exact edit

theorem ntfsFinishSetattr_stored (sattr : SAttr3) (record : NtfsRecord) (hasParent : Bool) :
    (ntfsFinishSetattr config calls mount ino record hasParent sattr).2 =
      mount.setVolume (ntfsFinishSetattr config calls mount ino record hasParent sattr).2.volume := by
  unfold ntfsFinishSetattr
  simp only
  split <;> rfl

theorem ntfsOpSetattr_edited (tidy : mount.Tidy) (sattr : SAttr3) :
    NtfsMount.Edited proper ino mount (ntfsOpSetattr config calls mount ino sattr).2 := by
  refine (@ntfsWithParent_edited _ calls) tidy ?_
    (editsRecord_opSetattr config calls mount ino sattr)
  unfold ntfsOpSetattr
  generalize ntfsOpenWithParent calls mount ino = opened
  obtain ⟨_ | ⟨record, hasParent⟩, left⟩ := opened
  · rfl
  simp only
  split
  · exact ntfsFinishSetattr_stored sattr record hasParent
  split
  · rfl
  split
  · rfl
  split
  · rfl
  · exact ntfsFinishSetattr_stored sattr _ hasParent

theorem ntfsOpWrite_edited (tidy : mount.Tidy) (offset : Nat) (data : List UInt8)
    (stable : StableHow) :
    NtfsMount.Edited proper ino mount (ntfsOpWrite config calls mount ino offset data stable).2 := by
  refine (@ntfsWithParent_edited _ calls) tidy ?_
    (editsRecord_opWrite config calls mount ino offset data stable)
  unfold ntfsOpWrite
  generalize ntfsOpenWithParent calls mount ino = opened
  obtain ⟨_ | ⟨record, hasParent⟩, left⟩ := opened
  · rfl
  simp only
  split
  · rfl
  split
  · rfl
  split
  · rfl
  split
  · rfl
  split
  · rfl
  · unfold ntfsFinishWrite
    split
    · simp only
      split <;> rfl
    · rfl

theorem ntfsSync_edited (tidy : mount.Tidy) (fault : Option Errno) :
    NtfsMount.Edited proper ino mount (mount.setVolume (ntfsSync fault mount.volume)) :=
  tidy.setVolume (editsRecord_sync fault mount.volume 0)

theorem ntfsOpCommit_edited (tidy : mount.Tidy) (number : Nat) :
    NtfsMount.Edited proper number mount (ntfsOpCommit config calls mount ino).2 := by
  unfold ntfsOpCommit
  split
  · exact tidy.refl
  split
  · split
    · exact tidy.refl
    · exact ntfsSync_edited tidy none
  · exact tidy.refl

theorem ntfsSyncAll_edited (tidy : mount.Tidy) :
    NtfsMount.Edited proper ino mount (ntfsSyncAll calls mount) := by
  unfold ntfsSyncAll
  split
  · exact ntfsSync_edited tidy _
  · exact tidy.refl

theorem freshRecord_node (kind : NtfsKind) (dir : Nat) (ucs : UcsName) :
    (freshRecord calls kind dir ucs).node = if kind = .dir then .dir dir else .leaf 1 := by
  simp [NtfsRecord.node, NtfsRecord.parent, freshRecord]

theorem NtfsRecord.SameKind.node {before after : NtfsRecord} (kind : before.SameKind after) :
    after.node = before.node := by
  simp [NtfsRecord.node, NtfsRecord.parent, kind.isDir, kind.fileNames]

/-- A new record with its entry, and the cache told of it. -/
theorem ntfsFinishCreate_edited {dirNi : NtfsRecord} {pre : WccPre} {ucs : UcsName}
    {kind : NtfsKind} {made : Nat × NtfsVolume} {finish : NtfsRecord → NtfsRecord}
    (tidy : mount.Tidy) (known : dirIno ≠ 0) (live : mount.volume.graph.IsDir (mref dirIno))
    (created : ntfsCreate calls mount.volume (mref dirIno) ucs kind = .ok made)
    (keeps : ∀ record : NtfsRecord, record.SameKind (finish record)) :
    NtfsMount.Edited proper ino mount
      (ntfsFinishCreate config calls mount dirIno dirNi pre made finish).2 := by
  obtain ⟨-, free, fresh, records, entries, -, -, -, -⟩ := ntfsCreate_ok created
  obtain ⟨-, user, plain, unused⟩ := ntfsNewRecord_ok fresh
  have positive : made.1 ≠ 0 := by
    unfold fileFirstUser at user
    omega
  have present : made.2.record made.1 = some (freshRecord calls kind (mref dirIno) ucs) := by
    rw [records, Function.update_self]
  have bare : Function.update mount.volume.entries made.1 [] = mount.volume.entries := by
    rw [← ntfsBare tidy.volume.held unused, Function.update_eq_self]
  rw [bare] at entries
  have sameKind := keeps (freshRecord calls kind (mref dirIno) ucs)
  have node : (finish (freshRecord calls kind (mref dirIno) ucs)).node =
      if kind = .dir then .dir (mref dirIno) else .leaf 1 :=
    sameKind.node.trans (freshRecord_node kind (mref dirIno) ucs)
  generalize shape : finish (freshRecord calls kind (mref dirIno) ucs) = finished at *
  have allowed : mount.volume.graph.Allowed
      (.enter (mref dirIno) ucs made.1 (if kind = .dir then .dir (mref dirIno) else .leaf 1)) := by
    refine ⟨live, free, ?_⟩
    rw [ntfsFree_graph unused]
    split
    · exact .subdir
    · exact .leaf
  have after : (made.2.setRecord made.1 (some finished)).record =
      Function.update mount.volume.record made.1 (some finished) := by
    rw [(setRecord_fields made.2 made.1 (some finished)).1, records, Function.update_idem]
  have graph : (made.2.setRecord made.1 (some finished)).graph = mount.volume.graph.apply
      (.enter (mref dirIno) ucs made.1 (if kind = .dir then .dir (mref dirIno) else .leaf 1)) := by
    have same : (made.2.setRecord made.1 (some finished)).graph =
        ((mount.volume.setRecord made.1 (some finished)).setEntries (mref dirIno)
          (insertEntry calls.arrange
            ((mount.volume.setRecord made.1 (some finished)).entries (mref dirIno)) ucs
              made.1)).graph := by
      refine graph_congr (fun other => ?_) ?_
      · simp [NtfsVolume.graph, records]
      · simp [entries]
    rw [same, graph_insertEntry (mount.volume.setRecord made.1 (some finished)) calls made.1
      (tidy.volume.names (mref dirIno)) free, graph_setRecord, Option.map_some, node]
    rfl
  have entered : NtfsVolume.Edited proper mount.volume (made.2.setRecord made.1 (some finished)) := by
    refine tidy.volume.edited ⟨allowed, fun _ => trivial⟩ graph ?_ after ?_
    · rw [show (made.2.setRecord made.1 (some finished)).entries = made.2.entries by simp, entries]
      exact ntfsNames_insert tidy.volume.names free
    · rintro record ⟨⟩
      refine ⟨plain, fun (zero : made.1 = 0) => absurd zero positive, ?_, fun place => ?_⟩
      · rw [sameKind.fileNames]
        simp [freshRecord]
      · have refs := ((@DirGraph.refs_bind _ _ (mount.volume.graph.setNode made.1 (some (if kind = .dir then .dir (mref dirIno) else .leaf 1))) _ made.1) free).1
        change _ ↔ place ∈ (DirGraph.setBind _ _ _ _).refs made.1
        rw [refs, DirGraph.setNode_refs, tidy.volume.held.refs_of_free (ntfsFree_graph unused),
          sameKind.fileNames]
        simp [freshRecord]
  have bound : (made.2.setRecord made.1 (some finished)).graph.bind (mref dirIno) ucs =
      some made.1 := by
    rw [graph, DirGraph.apply, DirGraph.setBind_self]
  have learned := @NtfsMount.Tidy.edit_setParent proper ino _ _ _ _ tidy entered allowed graph positive known plain
    ⟨ucs, bound⟩
  unfold ntfsFinishCreate
  simp only [present, Option.map_some, shape]
  split
  · exact learned
  split
  · exact learned
  · exact learned

theorem ntfsOpenedDir {fault : Option Errno} {record : NtfsRecord}
    (opened : ntfsInodeOpen fault mount.volume dirIno = .ok record) (isDir : record.isDir = true) :
    mount.volume.graph.IsDir (mref dirIno) :=
  ntfsIsDir_graph (ntfsInodeOpen_ok opened).2.1 isDir

theorem ntfsOpCreate_edited (tidy : mount.Tidy) (known : dirIno ≠ 0) (mode : CreateMode)
    (sattr : Option SAttr3) :
    NtfsMount.Edited proper ino mount
      (ntfsOpCreate config lib calls mount dirIno name mode sattr).2 := by
  unfold ntfsOpCreate
  split
  · exact tidy.refl
  rename_i dirNi opened
  simp only
  split
  · exact tidy.refl
  rename_i directory
  split
  · exact tidy.refl
  split
  · rename_i existing found
    split
    · exact tidy.refl
    have bound := (ntfsLookupByName_ok found).2
    have plain := tidy.volume.plain_of_bound bound
    have cached : NtfsMount.Edited proper ino mount (mount.setParent existing dirIno) :=
      tidy.setParent (.inl plain) fun _ _ => ⟨_, bound⟩
    unfold ntfsCreateExisting
    cases sattr with
    | none => exact cached
    | some settings =>
        exact cached.trans ((ntfsOpSetattr_edited cached.tidy settings).plain plain ino)
  · split
    · exact tidy.refl
    split
    · exact tidy.refl
    · rename_i made created
      exact ntfsFinishCreate_edited tidy known (ntfsOpenedDir opened (by simpa using directory))
        created (ntfsDressFile_sameKind calls sattr)

theorem ntfsOpMkdir_edited (tidy : mount.Tidy) (known : dirIno ≠ 0) (sattr : Option SAttr3) :
    NtfsMount.Edited proper ino mount (ntfsOpMkdir config lib calls mount dirIno name sattr).2 := by
  unfold ntfsOpMkdir
  split
  · exact tidy.refl
  rename_i dirNi opened
  simp only
  split
  · exact tidy.refl
  rename_i directory
  split
  · exact tidy.refl
  split
  · exact tidy.refl
  split
  · exact tidy.refl
  · rename_i made created
    exact ntfsFinishCreate_edited tidy known (ntfsOpenedDir opened (by simpa using directory))
      created (ntfsDressTimes_sameKind calls sattr)

theorem ntfsOpSymlink_edited (tidy : mount.Tidy) (known : dirIno ≠ 0) (sattr : Option SAttr3)
    (target : Name) :
    NtfsMount.Edited proper ino mount
      (ntfsOpSymlink config lib calls mount dirIno name sattr target).2 := by
  unfold ntfsOpSymlink
  split
  · exact tidy.refl
  split
  · exact tidy.refl
  rename_i dirNi opened
  simp only
  split
  · exact tidy.refl
  rename_i directory
  split
  · exact tidy.refl
  split
  · exact tidy.refl
  split
  · exact tidy.refl
  split
  · exact tidy.refl
  · rename_i made created
    exact ntfsFinishCreate_edited tidy known (ntfsOpenedDir opened (by simpa using directory))
      created (ntfsDressTimes_sameKind calls sattr)

/-- What REMOVE and RMDIR leave when they succeed. -/
theorem ntfsOpUnlinkCommon_leaves {expectDir : Bool} (tidy : mount.Tidy)
    (succeeded : (ntfsOpUnlinkCommon config lib calls mount dirIno name expectDir).1.status = .ok) :
    ∃ ucs cino node, ntfsUtf8ToUcs lib name = .ok ucs ∧
      mount.volume.graph.Allowed (.leave (mref dirIno) ucs cino node) ∧
      (ntfsOpUnlinkCommon config lib calls mount dirIno name expectDir).2.volume.graph =
        mount.volume.graph.apply (.leave (mref dirIno) ucs cino node) ∧
      NtfsMount.Edited proper ino mount
        (ntfsOpUnlinkCommon config lib calls mount dirIno name expectDir).2 := by
  obtain ⟨dirNi, ucs, cino, record, -, -, legal, -, -, -, -, deleted⟩ :=
    ntfsOpUnlinkCommon_ok_cases succeeded
  obtain ⟨node, allowed, graph, edited, gone⟩ := (@ntfsDelete_leaves proper) tidy.volume
    deleted
  have stored : (ntfsOpUnlinkCommon config lib calls mount dirIno name expectDir).2 =
      mount.setVolume (ntfsOpUnlinkCommon config lib calls mount dirIno name expectDir).2.volume := by
    unfold ntfsOpUnlinkCommon
    repeat' split
    all_goals rfl
  refine ⟨ucs, cino, node, legal, allowed, graph, ?_⟩
  rw [stored]
  exact tidy.edit edited allowed graph gone

theorem ntfsOpUnlinkCommon_edited {expectDir : Bool} (tidy : mount.Tidy) :
    NtfsMount.Edited proper ino mount
      (ntfsOpUnlinkCommon config lib calls mount dirIno name expectDir).2 := by
  by_cases succeeded :
      (ntfsOpUnlinkCommon config lib calls mount dirIno name expectDir).1.status = .ok
  · obtain ⟨-, -, -, -, -, -, edited⟩ := (@ntfsOpUnlinkCommon_leaves proper _ _ _ _ _ ino)
      tidy succeeded
    exact edited
  · have unchanged : (ntfsOpUnlinkCommon config lib calls mount dirIno name expectDir).2 = mount := by
      unfold ntfsOpUnlinkCommon at succeeded ⊢
      repeat' split
      all_goals first | rfl | skip
      rename_i opened directory _ _ legal _ _ found user _ _ childOpened noDir noFile _ left deleted
      simp only [opened, legal, found, childOpened, deleted, if_neg directory, if_neg user,
        if_neg noDir, if_neg noFile] at succeeded
      exact absurd trivial succeeded
    rw [unchanged]
    exact tidy.refl

/-- A link that succeeds adds a place to the places of its record. -/
theorem ntfsLink_places {volume linked : NtfsVolume} {fault : Option Errno} {dir number : Nat}
    {ucs : UcsName} (tidy : volume.Tidy)
    (done : ntfsLink fault calls volume number dir ucs = .ok linked) :
    volume.graph.bind dir ucs = none ∧ ∃ record, volume.record number = some record ∧
      linked.entries = Function.update volume.entries dir
        (insertEntry calls.arrange (volume.entries dir) ucs number) ∧
      linked.record = Function.update volume.record number
        (some { record with fileNames := record.fileNames ++ [(dir, ucs)] }) ∧
      linked.graph = (volume.graph.setNode number (some (NtfsRecord.node
        { record with fileNames := record.fileNames ++ [(dir, ucs)] }))).setBind dir ucs
          (some number) := by
  obtain ⟨-, -, free, record, present, rfl⟩ := ntfsLink_ok done
  refine ⟨free, record, present, by simp, by simp, ?_⟩
  have inserted := graph_insertEntry (volume.setRecord number (some { record with
    fileNames := record.fileNames ++ [(dir, ucs)] })) calls number (tidy.names dir) free
  rw [graph_setRecord] at inserted
  exact inserted

theorem ntfsLeaf_node {record : NtfsRecord} (notDir : record.isDir = false) :
    record.node = .leaf record.fileNames.length := by
  simp [NtfsRecord.node, notDir]

theorem ntfsOpLink_edited (tidy : mount.Tidy) (number : Nat) :
    NtfsMount.Edited proper number mount
      (ntfsOpLink config lib calls mount ino dirIno name).2 := by
  unfold ntfsOpLink
  split
  · exact tidy.refl
  rename_i dpre got
  simp only
  split
  · exact tidy.refl
  rename_i directory
  split
  · exact tidy.refl
  rename_i ucs legal
  split
  swap
  · exact tidy.refl
  rename_i dirNi childNi dirRecord opened dirOpened opens
  obtain ⟨gotRecord, dirGot, rfl⟩ := ntfsOpGetattr_ok got
  have live : mount.volume.graph.IsDir (mref dirIno) :=
    ntfsOpenedDir dirGot ((ntfsFillAttr_type _ _ _ _).mp (by simpa using directory))
  have known := (ntfsInodeOpen_ok opens).2.1
  split
  · exact tidy.refl
  rename_i notDir
  split
  · exact tidy.refl
  rename_i linked done
  obtain ⟨free, record, present, entries, records, graph⟩ := ntfsLink_places tidy.volume done
  rw [present] at known
  cases known
  have file : opened.isDir = false := by simpa using notDir
  have node : mount.volume.graph.node (mref ino) = some (.leaf opened.fileNames.length) := by
    simp [NtfsVolume.graph, present, ntfsLeaf_node file]
  have notRoot : mref ino ≠ fileRoot := by
    intro same
    obtain ⟨up, isDir⟩ := tidy.volume.held.rootDir
    rw [← same, node] at isDir
    cases isDir
  obtain ⟨nodup, places⟩ := tidy.volume.places (mref ino) opened present notRoot
  have leaf : NtfsRecord.node { opened with
      fileNames := opened.fileNames ++ [(mref dirIno, ucs)] } =
        .leaf (opened.fileNames.length + 1) := by
    simp [NtfsRecord.node, file]
  rw [leaf] at graph
  have allowed : mount.volume.graph.Allowed
      (.enter (mref dirIno) ucs (mref ino) (.leaf (opened.fileNames.length + 1))) := by
    refine ⟨live, free, ?_⟩
    rw [node]
    refine .link _ _ ?_ (.inr rfl)
    by_cases nameless : opened.fileNames = []
    · refine .inr (Set.eq_empty_iff_forall_notMem.mpr fun place held => ?_)
      have member := (places place).mpr held
      rw [nameless] at member
      cases member
    · exact .inl fun zero => nameless (List.length_eq_zero_iff.mp zero)
  have entered : NtfsVolume.Edited proper mount.volume linked := by
    refine tidy.volume.edited ⟨allowed, fun _ => trivial⟩ graph ?_ records ?_
    · rw [entries]
      exact ntfsNames_insert tidy.volume.names free
    · rintro kept ⟨⟩
      have refs := ((@DirGraph.refs_bind _ _ (mount.volume.graph.setNode (mref ino) (some (.leaf (opened.fileNames.length + 1)))) _ (mref ino)) free).1
      have new : (mref dirIno, ucs) ∉ opened.fileNames := by
        intro member
        have bound : mount.volume.graph.bind (mref dirIno) ucs = some (mref ino) :=
          (places _).mp member
        rw [free] at bound
        cases bound
      refine ⟨tidy.volume.plain (mref ino) (by simp [present]), fun _ => file, ?_, fun place => ?_⟩
      · rw [List.nodup_append]
        refine ⟨nodup, by simp, ?_⟩
        rintro place member other single rfl
        rw [List.mem_singleton] at single
        exact new (single ▸ member)
      · change _ ↔ place ∈ (DirGraph.setBind _ _ _ _).refs (mref ino)
        rw [refs, DirGraph.setNode_refs, List.mem_append, List.mem_singleton, Set.mem_insert_iff,
          places, or_comm]
  refine tidy.edit entered allowed graph ?_
  rintro ⟨up, isDir⟩
  rw [graph, DirGraph.setBind_node] at isDir
  change Function.update mount.volume.graph.node (mref ino) _ (mref ino) = _ at isDir
  rw [Function.update_self] at isDir
  cases isDir

section Move

variable {fromDir toDir : Nat} {fu tu : UcsName} {volume linked left : NtfsVolume}

/-- What a link followed by the unlink of the old place makes of a well-held volume. -/
theorem ntfsMoveSteps_edited {link unlink : Option Errno} (tidy : volume.Tidy)
    (bound : volume.graph.bind fromDir fu = some ino) (live : volume.graph.IsDir toDir)
    (above : proper → volume.graph.IsDir ino → ¬ volume.graph.Within ino toDir)
    (linkDone : ntfsLink link calls volume ino toDir tu = .ok linked)
    (unlinkDone : ntfsDelete unlink calls linked ino fromDir fu = .ok left) :
    volume.graph.Allowed (.move fromDir fu toDir tu ino) ∧
      left.graph = volume.graph.apply (.move fromDir fu toDir tu ino) ∧
      NtfsVolume.Edited proper volume left := by
  obtain ⟨free, record, present, linkEntries, linkRecords, linkGraph⟩ := ntfsLink_places tidy linkDone
  have linkNames (place : Nat) : UniqueNames (linked.entries place) := by
    rw [linkEntries]
    exact ntfsNames_insert tidy.names free place
  obtain ⟨-, -, again, found, entries, -, -, outcome⟩ := ntfsDelete_ok unlinkDone
  rw [linkRecords, Function.update_self] at found
  cases found
  have notRoot : ino ≠ fileRoot := by
    rintro rfl
    exact tidy.held.rootless fromDir fu bound
  obtain ⟨nodup, places⟩ := tidy.places ino record present notRoot
  have old : (fromDir, fu) ∈ record.fileNames := (places (fromDir, fu)).mpr bound
  have new : (toDir, tu) ∉ record.fileNames := by
    intro member
    have known : volume.graph.bind toDir tu = some ino := (places _).mp member
    rw [free] at known
    cases known
  have renamed : (record.fileNames ++ [(toDir, tu)]).erase (fromDir, fu) =
      record.fileNames.erase (fromDir, fu) ++ [(toDir, tu)] := List.erase_append_left _ old
  simp only [renamed] at outcome
  rcases outcome with ⟨last, -⟩ | ⟨-, -, records⟩
  · simp at last
  have allowed : volume.graph.Allowed (.move fromDir fu toDir tu ino) := ⟨bound, live, free⟩
  have apart : ¬ (fromDir = toDir ∧ fu = tu) := by
    rintro ⟨rfl, rfl⟩
    rw [free] at bound
    cases bound
  have node : some (NtfsRecord.node { record with
      fileNames := record.fileNames.erase (fromDir, fu) ++ [(toDir, tu)] }) =
        (volume.graph.node ino).map (Node.movedTo toDir) := by
    have was : volume.graph.node ino = some record.node := by simp [NtfsVolume.graph, present]
    rw [was, Option.map_some]
    unfold NtfsRecord.node
    cases directory : record.isDir with
    | true =>
        have single := tidy.fileNames_dir present directory bound
        simp [NtfsRecord.parent, single, Node.movedTo]
    | false =>
        have lengths := List.length_erase_add_one old
        simpa [Node.movedTo] using lengths
  have stillBound : linked.graph.bind fromDir fu = some ino := by
    rw [linkGraph, DirGraph.setBind_other _ _ apart]
    exact bound
  have graph : left.graph = volume.graph.apply (.move fromDir fu toDir tu ino) := by
    have erased := graph_eraseEntry (linked.setRecord ino (some { record with
      fileNames := record.fileNames.erase (fromDir, fu) ++ [(toDir, tu)] })) calls
      (linkNames fromDir) stillBound
    rw [graph_setRecord, Option.map_some, node, linkGraph] at erased
    have same : left.graph = ((linked.setRecord ino (some { record with
        fileNames := record.fileNames.erase (fromDir, fu) ++ [(toDir, tu)] })).setEntries fromDir
          (rearrange calls.arrange ((linked.entries fromDir).erase ⟨fu, ino⟩))).graph := by
      refine graph_congr (fun other => ?_) ?_
      · simp [NtfsVolume.graph, records]
      · simp [entries]
    rw [same]
    refine erased.trans ?_
    change (DirGraph.setBind (DirGraph.setBind ((volume.graph.setNode ino _).setNode ino _) _ _ _)
      _ _ _) = _
    rw [DirGraph.setNode_setNode]
    rfl
  refine ⟨allowed, graph, @NtfsVolume.Tidy.edited proper _ _ _ (some { record with
    fileNames := record.fileNames.erase (fromDir, fu) ++ [(toDir, tu)] }) tidy ⟨allowed, above⟩
      graph ?_ ?_ ?_⟩
  · rw [entries]
    exact ntfsNames_erase linkNames fromDir _
  · rw [records, linkRecords, Function.update_idem]
    rfl
  · rintro kept ⟨⟩
    refine ⟨tidy.plain ino (by simp [present]), ?_, ?_, fun place => ?_⟩
    · rintro (rfl : ino = 0)
      exact tidy.mft record present
    · rw [List.nodup_append]
      refine ⟨nodup.erase _, by simp, ?_⟩
      rintro place member other single rfl
      rw [List.mem_singleton] at single
      exact new (single ▸ List.mem_of_mem_erase member)
    · have refs := (DirGraph.refs_move allowed).1
      change _ ↔ place ∈ (volume.graph.apply (.move fromDir fu toDir tu ino)).refs ino
      rw [refs, List.mem_append, List.mem_singleton, nodup.mem_erase_iff, places,
        Set.mem_insert_iff, Set.mem_sdiff, Set.mem_singleton_iff]
      tauto

/-- With the calls of the second step whole, a link that RENAME made is followed by the unlink
of the old place. -/
theorem ntfsUnlinkStep_whole {link : Option Errno} (whole : calls.Whole) (tidy : volume.Tidy)
    (opens : ∃ record, ntfsInodeOpen none volume fromDir = .ok record)
    (bound : volume.graph.bind (mref fromDir) fu = some ino)
    (linkDone : ntfsLink link calls volume ino toDir tu = .ok linked) :
    ∃ left, ntfsUnlinkStep calls linked fromDir fu ino = .ok left := by
  obtain ⟨free, record, present, linkEntries, linkRecords, -⟩ := ntfsLink_places tidy linkDone
  obtain ⟨-, -, -, again, -, linked_eq⟩ := ntfsLink_ok linkDone
  have sequence : linked.sequence = volume.sequence := by
    rw [linked_eq]
    rfl
  have plain := tidy.plain ino (by simp [present])
  have stillOpens : ∃ record, ntfsInodeOpen none linked fromDir = .ok record := by
    obtain ⟨dirRecord, opened⟩ := opens
    obtain ⟨-, dirPresent, dirSequence⟩ := ntfsInodeOpen_ok opened
    have stays : ∃ record, linked.record (mref fromDir) = some record := by
      rw [linkRecords]
      by_cases same : mref fromDir = ino
      · exact ⟨_, by rw [same, Function.update_self]⟩
      · exact ⟨dirRecord, by rw [Function.update_of_ne same, dirPresent]⟩
    obtain ⟨record, here⟩ := stays
    exact ⟨record, ntfsInodeOpen_of_record here (by rw [sequence]; exact dirSequence)⟩
  obtain ⟨dirRecord, dirOpens⟩ := stillOpens
  have childPresent : linked.record ino = some { record with
      fileNames := record.fileNames ++ [(toDir, tu)] } := by
    rw [linkRecords, Function.update_self]
  have childOpens : ntfsInodeOpen none linked ino = .ok { record with
      fileNames := record.fileNames ++ [(toDir, tu)] } :=
    ntfsInodeOpen_of_record (by rw [mref_of_lt plain]; exact childPresent)
      (.inl (mseqno_of_lt plain))
  have old := findEntry_mem bound
  have member : (⟨fu, ino⟩ : DirEntry UcsName) ∈ linked.entries (mref fromDir) := by
    rw [linkEntries]
    by_cases same : mref fromDir = toDir
    · rw [← same, Function.update_self]
      exact mem_insertEntry.mpr (.inr old)
    · rw [Function.update_of_ne same]
      exact old
  have kept : (record.fileNames ++ [(toDir, tu)]).erase (mref fromDir, fu) ≠ [] := by
    have other : (toDir, tu) ≠ (mref fromDir, fu) := by
      intro same
      obtain ⟨sameDir, sameName⟩ := Prod.mk.inj same
      rw [sameDir, sameName, bound] at free
      cases free
    have stays : (toDir, tu) ∈ (record.fileNames ++ [(toDir, tu)]).erase (mref fromDir, fu) :=
      (List.mem_erase_of_ne other).mpr (by simp)
    exact List.ne_nil_of_mem stays
  unfold ntfsUnlinkStep ntfsOpenPair
  simp only [whole.reopenDir, whole.reopen, whole.delete, dirOpens, childOpens]
  unfold ntfsDelete
  simp only [member, not_true, if_false, childPresent, kept, false_and, and_false]
  exact ⟨_, rfl⟩

end Move

theorem ntfsMoveEntry_edited {left : NtfsMount} {fromDir toDir : Nat} {fu tu : UcsName}
    (whole : calls.Whole) (tidy : left.Tidy) (known : toDir ≠ 0)
    (opens : ∃ record, ntfsInodeOpen none left.volume fromDir = .ok record)
    (bound : left.volume.graph.bind (mref fromDir) fu = some ino)
    (live : left.volume.graph.IsDir (mref toDir))
    (above : proper → left.volume.graph.IsDir ino → ¬ left.volume.graph.Within ino (mref toDir))
    (positive : ino ≠ 0) (fromPre toPre : WccPre) (number : Nat) :
    NtfsMount.Edited proper number left
      (ntfsMoveEntry config calls left fromDir toDir fu tu ino fromPre toPre).2 := by
  rcases ntfsMoveEntry_cases config calls left fromDir toDir fu tu ino fromPre toPre with
    ⟨-, -, -, unchanged⟩ | ⟨linked, code, linkDone, failed, -⟩ |
    ⟨linked, after, linkDone, unlinkDone, -, done⟩
  · rw [unchanged]
    exact tidy.refl
  · have linkCall : ntfsLink (calls.fault .link) calls left.volume ino (mref toDir) tu = .ok linked := by
      unfold ntfsLinkStep at linkDone
      split at linkDone
      · cases linkDone
      · exact linkDone
    obtain ⟨after, succeeded⟩ := ntfsUnlinkStep_whole whole tidy.volume opens bound linkCall
    rw [succeeded] at failed
    cases failed
  · have linkCall : ntfsLink (calls.fault .link) calls left.volume ino (mref toDir) tu = .ok linked := by
      unfold ntfsLinkStep at linkDone
      split at linkDone
      · cases linkDone
      · exact linkDone
    have unlinkCall : ntfsDelete (calls.fault .delete) calls linked ino (mref fromDir) fu =
        .ok after := by
      unfold ntfsUnlinkStep at unlinkDone
      split at unlinkDone
      · cases unlinkDone
      · exact unlinkDone
    obtain ⟨allowed, graph, edited⟩ := (@ntfsMoveSteps_edited proper) tidy.volume bound
      live above linkCall unlinkCall
    have arrived : after.graph.bind (mref toDir) tu = some ino := by
      have apart : ¬ (mref toDir = mref fromDir ∧ tu = fu) := by
        rintro ⟨sameDir, sameName⟩
        have free := allowed.2.2
        rw [sameDir, sameName, bound] at free
        cases free
      rw [graph, DirGraph.apply, DirGraph.setBind_other _ _ apart, DirGraph.setBind_self]
    rw [done]
    exact tidy.edit_setParent edited allowed graph positive known
      (tidy.volume.plain_of_bound bound) ⟨tu, arrived⟩

/-- A delete leaves every other record as it opens. -/
theorem ntfsDelete_opens {fault : Option Errno} {volume left : NtfsVolume} {dir reference : Nat}
    {ucs : UcsName} {record : NtfsRecord}
    (deleted : ntfsDelete fault calls volume ino dir ucs = .ok left)
    (different : mref reference ≠ ino)
    (opens : ntfsInodeOpen none volume reference = .ok record) :
    ntfsInodeOpen none left reference = .ok record := by
  obtain ⟨-, present, sequence⟩ := ntfsInodeOpen_ok opens
  have kept : left.record (mref reference) = volume.record (mref reference) ∧
      left.sequence (mref reference) = volume.sequence (mref reference) := by
    unfold ntfsDelete at deleted
    split at deleted
    · cases deleted
    split at deleted
    · cases deleted
    split at deleted
    · cases deleted
    simp only at deleted
    split at deleted
    · cases deleted
    cases deleted
    split
    · simp [bumpSequence, different]
    · simp [different]
  refine ntfsInodeOpen_of_record (kept.1.trans present) ?_
  rw [kept.2]
  exact sequence

/-- A look-up of a legal name teaches the cache no number with a sequence number. -/
theorem ntfsOpLookup_leaf_edited {ucs : UcsName} (tidy : mount.Tidy)
    (legal : ntfsUtf8ToUcs lib name = .ok ucs) :
    NtfsMount.Edited proper ino mount (ntfsOpLookup config lib calls mount dirIno name).2 := by
  obtain ⟨notDot, notDotdot⟩ := validLeafName_ne_dot (ntfsUtf8ToUcs_leaf legal)
  unfold ntfsOpLookup
  split
  · exact tidy.refl
  split
  · exact tidy.refl
  split
  · exact tidy.refl
  simp only [legal]
  split
  · exact tidy.refl
  rename_i cino found
  have bound := (ntfsLookupByName_ok found).2
  split
  · exact tidy.refl
  split
  · exact tidy.refl
  · exact tidy.setParent (.inl (tidy.volume.plain_of_bound bound)) fun _ _ => ⟨_, bound⟩

theorem ntfsOpRename_edited (whole : calls.Whole) (tidy : mount.Tidy) {fromDir toDir : Nat}
    {fromName toName : Name} (known : toDir ≠ 0)
    (above : proper → ∀ fu number, ntfsUtf8ToUcs lib fromName = .ok fu →
      mount.volume.graph.bind (mref fromDir) fu = some number → mount.volume.graph.IsDir number →
      ¬ mount.volume.graph.Within number (mref toDir)) :
    NtfsMount.Edited proper ino mount
      (ntfsOpRename config lib calls mount fromDir fromName toDir toName).2 := by
  unfold ntfsOpRename
  simp only
  split
  swap
  · exact tidy.refl
  rename_i fpre tpre fromGot toGot
  obtain ⟨fromRecord, fromOpened, rfl⟩ := ntfsOpGetattr_ok fromGot
  obtain ⟨toRecord, toOpened, rfl⟩ := ntfsOpGetattr_ok toGot
  have fromOpens := ntfsInodeOpen_of_record (ntfsInodeOpen_ok fromOpened).2.1
    (ntfsInodeOpen_ok fromOpened).2.2
  split
  · exact tidy.refl
  rename_i types
  have live : mount.volume.graph.IsDir (mref toDir) :=
    ntfsOpenedDir toOpened ((ntfsFillAttr_type config _ toDir toRecord).mp
      (by simpa using (not_or.mp types).2))
  split
  · exact tidy.refl
  rename_i fu fromLegal
  split
  · exact tidy.refl
  rename_i tu toLegal
  have first : NtfsMount.Edited proper ino mount
      (ntfsOpLookup config lib (calls.within .source) mount fromDir fromName).2 :=
    ntfsOpLookup_leaf_edited tidy fromLegal
  have firstVolume := ntfsOpLookup_volume config lib (calls.within .source) mount fromDir fromName
  split
  · rename_i status found sourceLooked
    rw [sourceLooked] at first
    exact first
  rename_i number source found sourceLooked
  obtain ⟨bound, shown, -⟩ := ntfsOpLookup_ok fromLegal (congrArg Prod.fst sourceLooked)
  have positive : number ≠ 0 := by
    unfold fileFirstUser fileRoot at shown
    omega
  rw [sourceLooked] at first firstVolume
  simp only at first firstVolume ⊢
  have second : NtfsMount.Edited proper ino found
      (ntfsOpLookup config lib (calls.within .target) found toDir toName).2 :=
    ntfsOpLookup_leaf_edited first.tidy toLegal
  have secondVolume := ntfsOpLookup_volume config lib (calls.within .target) found toDir toName
  rw [firstVolume] at secondVolume
  have stays : proper → mount.volume.graph.IsDir number →
      ¬ mount.volume.graph.Within number (mref toDir) :=
    fun proper => above proper fu number fromLegal bound
  split
  · rename_i status looked targetLooked
    rw [targetLooked] at second secondVolume
    split
    · exact first.trans second
    · refine (first.trans second).trans (ntfsMoveEntry_edited whole second.tidy known ?_ ?_ ?_ ?_
        positive _ _ ino)
      · exact ⟨fromRecord, secondVolume.symm ▸ fromOpens⟩
      · rw [secondVolume]
        exact bound
      · rw [secondVolume]
        exact live
      · rw [secondVolume]
        exact stays
  rename_i replaced target looked targetLooked
  obtain ⟨targetBound, -, -⟩ := ntfsOpLookup_ok toLegal (congrArg Prod.fst targetLooked)
  rw [firstVolume] at targetBound
  rw [targetLooked] at second secondVolume
  simp only at second secondVolume
  split
  · exact first.trans second
  rename_i different
  split
  · exact first.trans second
  split
  · exact first.trans second
  have third : NtfsMount.Edited proper ino looked (ntfsOpUnlinkCommon config lib
      (calls.within .unlinkDir) looked toDir toName (decide (target.type = .dir))).2 :=
    ntfsOpUnlinkCommon_edited second.tidy
  split
  · exact (first.trans second).trans third
  rename_i granted
  have removed : (ntfsOpUnlinkCommon config lib (calls.within .unlinkDir) looked toDir toName
      (decide (target.type = .dir))).1.status = .ok := by simpa using granted
  obtain ⟨dirNi, again, gone, record, -, -, againLegal, goneBound, -, -, -, deleted⟩ :=
    ntfsOpUnlinkCommon_ok_cases removed
  obtain ⟨leftUcs, leftIno, node, leftLegal, allowed, graph, -⟩ :=
    (@ntfsOpUnlinkCommon_leaves proper _ _ _ _ _ ino) second.tidy removed
  rw [toLegal] at againLegal leftLegal
  cases againLegal
  cases leftLegal
  have sameGone : gone = replaced := by
    rw [secondVolume, targetBound] at goneBound
    exact (Option.some.inj goneBound).symm
  have sameLeft : leftIno = replaced := by
    have leftBound := allowed.1
    rw [secondVolume] at leftBound
    exact Option.some.inj (leftBound.symm.trans targetBound)
  rw [sameGone] at deleted
  rw [sameLeft] at allowed graph
  generalize (ntfsOpUnlinkCommon config lib (calls.within .unlinkDir) looked toDir toName
    (decide (target.type = .dir))).2 = left at *
  rw [secondVolume] at allowed graph deleted
  -- what is replaced is empty, so that it is neither of the two directories
  have fromKept : mref fromDir ≠ replaced := by
    intro same
    have isDir := ntfsOpenedDir fromOpened ((ntfsFillAttr_type config _ fromDir fromRecord).mp
      (by simpa using (not_or.mp types).1))
    have empty := allowed.2.1 (same ▸ isDir) fu
    rw [← same] at empty
    exact absurd (empty.symm.trans bound) nofun
  have toKept : mref toDir ≠ replaced := by
    intro same
    have empty := allowed.2.1 (same ▸ live) tu
    rw [← same] at empty
    exact absurd (empty.symm.trans targetBound) nofun
  have apart : ¬ (mref fromDir = mref toDir ∧ fu = tu) := by
    rintro ⟨sameDir, sameName⟩
    have target : mount.volume.graph.bind (mref fromDir) fu = some replaced := by
      rw [sameDir, sameName]
      exact targetBound
    exact different (Option.some.inj (target.symm.trans bound))
  have nodes (other : Nat) (kept : other ≠ replaced) :
      left.volume.graph.node other = mount.volume.graph.node other := by
    rw [graph]
    exact DirGraph.node_apply_other _ kept
  have fewer (place target : Nat) (called : UcsName)
      (kept : left.volume.graph.bind place called = some target) :
      mount.volume.graph.bind place called = some target := by
    rw [graph] at kept
    by_cases gone : place = mref toDir ∧ called = tu
    · rw [gone.1, gone.2, DirGraph.apply, DirGraph.setBind_self] at kept
      cases kept
    · rw [DirGraph.apply, DirGraph.setBind_other _ _ gone] at kept
      exact kept
  refine ((first.trans second).trans third).trans (ntfsMoveEntry_edited whole third.tidy known ?_
    ?_ ?_ ?_ positive _ _ ino)
  · exact ⟨fromRecord, ntfsDelete_opens deleted fromKept fromOpens⟩
  · rw [graph, DirGraph.apply, DirGraph.setBind_other _ _ apart]
    exact bound
  · obtain ⟨up, isDir⟩ := live
    exact ⟨up, (nodes _ toKept).trans isDir⟩
  · rintro holds ⟨up, isDir⟩ within
    rw [nodes number fun same => different same.symm] at isDir
    exact stays holds ⟨up, isDir⟩ (within.of_fewer fun place called target =>
      fewer place target called)

end Operations

end Rufux.Mountd
