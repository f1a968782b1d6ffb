import Rufux.Mountd.ParentCache

/-!
The parent cache as a map: what it answers after any sequence of insertions, and that it forgets
nothing before the table is full.
-/

namespace Rufux.Mountd

/-- Calls of `cache_set_parent`, one after the other. -/
def cacheSetParents (cache : ParentCache) (calls : List (Nat × Nat)) : ParentCache :=
  calls.foldl (fun cache call => cacheSetParent cache call.1 call.2) cache

/-- The parent in the latest call for a child. -/
def latestParent (calls : List (Nat × Nat)) (child : Nat) : Option Nat :=
  (calls.reverse.find? fun call => call.1 = child).map Prod.snd

/-- The children that were set, each once. -/
def childrenSet (calls : List (Nat × Nat)) : Finset Nat := (calls.map Prod.fst).toFinset

/-- Calls that name a child and a parent. -/
def Named (calls : List (Nat × Nat)) : Prop := ∀ call ∈ calls, call.1 ≠ 0 ∧ call.2 ≠ 0

theorem latestParent_snoc (calls : List (Nat × Nat)) (call : Nat × Nat) (child : Nat) :
    latestParent (calls ++ [call]) child =
      if call.1 = child then some call.2 else latestParent calls child := by
  unfold latestParent
  rw [List.reverse_append, List.reverse_singleton, List.singleton_append, List.find?_cons]
  by_cases same : call.1 = child
  · simp [same]
  · simp [same]

theorem cacheSetParents_snoc (cache : ParentCache) (calls : List (Nat × Nat)) (call : Nat × Nat) :
    cacheSetParents cache (calls ++ [call]) =
      cacheSetParent (cacheSetParents cache calls) call.1 call.2 := by
  rw [cacheSetParents, List.foldl_append]
  rfl

theorem named_snoc {calls : List (Nat × Nat)} {call : Nat × Nat} (named : Named (calls ++ [call])) :
    Named calls ∧ call.1 ≠ 0 ∧ call.2 ≠ 0 :=
  ⟨fun other member => named other (List.mem_append_left _ member),
    named call (List.mem_append_right _ (List.mem_singleton_self call))⟩

theorem sound_setParents (calls : List (Nat × Nat)) :
    (cacheSetParents .empty calls).Sound := by
  induction calls using List.reverseRecOn with
  | nil => exact ParentCache.sound_empty
  | append_singleton calls call ih =>
      rw [cacheSetParents_snoc]
      exact ih.setParent call.1 call.2

/-- What a slot holds is the latest parent of its child. -/
theorem holds_latest {calls : List (Nat × Nat)} (named : Named calls) {child parent : Nat}
    (holds : (cacheSetParents .empty calls).Holds child parent) :
    latestParent calls child = some parent := by
  induction calls using List.reverseRecOn with
  | nil =>
      obtain ⟨slot, stored⟩ := holds
      cases stored
  | append_singleton calls call ih =>
      obtain ⟨before, childNamed, parentNamed⟩ := named_snoc named
      rw [cacheSetParents_snoc] at holds
      rw [latestParent_snoc]
      rcases (sound_setParents calls).holds_setParent holds with ⟨rfl, rfl⟩ | ⟨older, other⟩
      · rw [if_pos rfl]
      · have apart : child ≠ call.1 := by
          rcases other with apart | none | none
          · exact apart
          · exact absurd none childNamed
          · exact absurd none parentNamed
        rw [if_neg apart.symm]
        exact ih before older

/-- Probing for a child that a sound table holds finds its parent. -/
theorem ParentCache.Sound.probe {cache : ParentCache} (sound : cache.Sound)
    {child parent idx turn remaining probe : Nat} (found : probe ≤ turn)
    (within : turn < probe + remaining)
    (stored : cache.slot ((idx + turn) % parentCacheCap) = some { child := child, parent := parent })
    (chain : ∀ earlier, earlier < turn → cache.slot ((idx + earlier) % parentCacheCap) ≠ none)
    (few : probe + remaining ≤ parentCacheCap) :
    cacheProbeParent cache child idx remaining probe = some parent := by
  induction remaining generalizing probe with
  | zero => omega
  | succ remaining ih =>
      rw [cacheProbeParent]
      by_cases here : probe = turn
      · rw [here, stored]
        simp
      · cases taken : cache.slot ((idx + probe) % parentCacheCap) with
        | none => exact absurd taken (chain probe (by omega))
        | some occupant =>
            have other : occupant.child ≠ child := by
              intro same
              have own : cache.slot ((idx + probe) % parentCacheCap) =
                  some { child := child, parent := occupant.parent } := by
                rw [taken, ← same]
              have places := sound.single _ _ child _ _ own stored
              exact probe_ne (show probe < turn by omega) (by omega) places.symm
            dsimp only
            rw [if_neg other]
            exact ih (by omega) (by omega) (by omega)

theorem ParentCache.Sound.get {cache : ParentCache} (sound : cache.Sound) {child parent : Nat}
    (named : child ≠ 0) (holds : cache.Holds child parent) :
    cacheGetParent cache child = some parent := by
  obtain ⟨slot, stored⟩ := holds
  obtain ⟨turn, within, rfl, chain⟩ := sound.chained slot child parent stored
  unfold cacheGetParent
  rw [if_neg named]
  exact sound.probe (Nat.zero_le turn) (by omega) stored chain (by omega)

/-- Where a child finds no slot, as many others as the table has slots are held. -/
theorem full_children {cache : ParentCache} (sound : cache.Sound) {child idx remaining : Nat}
    (whole : remaining = parentCacheCap)
    (missing : cacheFindSlot cache child idx remaining 0 = none) :
    ∃ others : Finset Nat, others.card = remaining ∧ child ∉ others ∧
      ∀ other ∈ others, ∃ parent, cache.Holds other parent := by
  have taken : ∀ turn : Fin remaining, ∃ found : ParentCacheSlot,
      cache.slot ((idx + turn.val) % parentCacheCap) = some found ∧ found.child ≠ child :=
    fun turn => cacheFindSlot_full missing turn.val (Nat.zero_le _) (by omega)
  choose found stored other using taken
  have apart : Function.Injective fun turn => (found turn).child := by
    intro first second same
    have places := sound.single _ _ (found first).child (found first).parent (found second).parent
      (stored first) (by rw [stored second, show (found first).child = (found second).child from same])
    apply Fin.ext
    rcases Nat.lt_trichotomy first.val second.val with before | equal | after
    · exact absurd places.symm (probe_ne before (by omega))
    · exact equal
    · exact absurd places (probe_ne after (by omega))
  refine ⟨Finset.univ.image fun turn => (found turn).child, ?_, ?_, ?_⟩
  · rw [Finset.card_image_of_injective _ apart, Finset.card_univ, Fintype.card_fin]
  · intro member
    obtain ⟨turn, -, same⟩ := Finset.mem_image.mp member
    exact other turn same
  · intro held member
    obtain ⟨turn, -, rfl⟩ := Finset.mem_image.mp member
    exact ⟨(found turn).parent, _, stored turn⟩

theorem latestParent_set {calls : List (Nat × Nat)} {child parent : Nat}
    (latest : latestParent calls child = some parent) : child ∈ childrenSet calls := by
  obtain ⟨call, found, -⟩ := Option.map_eq_some_iff.mp latest
  have own : call.1 = child := by simpa using List.find?_some found
  have member : call ∈ calls := List.mem_reverse.mp (List.mem_of_find?_eq_some found)
  rw [← own, childrenSet, List.mem_toFinset]
  exact List.mem_map_of_mem member

/-- An insertion that finds a slot drops no other child. -/
theorem holds_kept {cache : ParentCache} {child parent other recorded idx remaining slot : Nat}
    (found : cacheFindSlot cache child idx remaining 0 = some slot) (apart : other ≠ child)
    (holds : cache.Holds other recorded) :
    ({ slot := Function.update cache.slot slot (some { child := child, parent := parent }) } :
      ParentCache).Holds other recorded := by
  obtain ⟨place, stored⟩ := holds
  obtain ⟨_, _, _, _, _, ending⟩ := cacheFindSlot_first found
  have elsewhere : place ≠ slot := by
    rintro rfl
    rw [stored] at ending
    rcases ending with free | ⟨parent, own⟩
    · cases free
    · cases own
      exact apart rfl
  exact ⟨place, (Function.update_of_ne elsewhere _ _).trans stored⟩

/-- While no more children were set than there are slots, each one's latest parent is held. -/
theorem latest_held {calls : List (Nat × Nat)} (named : Named calls)
    (room : (childrenSet calls).card ≤ parentCacheCap) {child parent : Nat}
    (latest : latestParent calls child = some parent) :
    (cacheSetParents .empty calls).Holds child parent := by
  induction calls using List.reverseRecOn with
  | nil => cases latest
  | append_singleton calls call ih =>
      obtain ⟨before, childNamed, parentNamed⟩ := named_snoc named
      have grown : childrenSet (calls ++ [call]) = insert call.1 (childrenSet calls) := by
        unfold childrenSet
        ext child
        simp
      rw [cacheSetParents_snoc]
      rw [latestParent_snoc] at latest
      by_cases same : call.1 = child
      · rw [if_pos same] at latest
        cases latest
        rw [← same]
        exact cacheGetParent_holds (cacheGetParent_setParent childNamed parentNamed)
      · rw [if_neg same] at latest
        have older := ih before
          (Nat.le_trans (Finset.card_le_card (grown ▸ Finset.subset_insert _ _)) room) latest
        have sound := sound_setParents calls
        have slotFound : cacheFindSlot (cacheSetParents .empty calls) call.1 (cacheIndex call.1)
            parentCacheCap 0 ≠ none := by
          intro missing
          obtain ⟨others, count, absent, held⟩ := full_children sound rfl missing
          have inside : insert call.1 others ⊆ childrenSet (calls ++ [call]) := by
            rw [grown]
            refine Finset.insert_subset_insert _ fun other member => ?_
            obtain ⟨parent, holds⟩ := held other member
            exact latestParent_set (holds_latest before holds)
          have more := Finset.card_le_card inside
          rw [Finset.card_insert_of_notMem absent, count] at more
          omega
        obtain ⟨slot, found⟩ := Option.ne_none_iff_exists'.mp slotFound
        have kept := @holds_kept _ call.1 call.2 _ _ _ _ _ found (Ne.symm same) older
        unfold cacheSetParent
        rw [if_neg (not_or.mpr ⟨childNamed, parentNamed⟩), found, Option.getD_some]
        exact kept

/-- After any calls that name a child and a parent, the cache answers with a child's latest parent
or with nothing; no child has two slots; the child of the last call is found; and before more
children were set than there are slots, every one of them is. -/
theorem parentCache_map {calls : List (Nat × Nat)} (named : Named calls) :
    (∀ child parent, cacheGetParent (cacheSetParents .empty calls) child = some parent →
        latestParent calls child = some parent) ∧
      (∀ first second child left right,
        (cacheSetParents .empty calls).slot first = some { child := child, parent := left } →
        (cacheSetParents .empty calls).slot second = some { child := child, parent := right } →
        first = second) ∧
      (∀ earlier child parent, calls = earlier ++ [(child, parent)] →
        cacheGetParent (cacheSetParents .empty calls) child = some parent) ∧
      ((childrenSet calls).card ≤ parentCacheCap → ∀ child ∈ childrenSet calls,
        ∃ parent, latestParent calls child = some parent ∧
          cacheGetParent (cacheSetParents .empty calls) child = some parent) := by
  have sound := sound_setParents calls
  refine ⟨fun child parent found => holds_latest named (cacheGetParent_holds found), sound.single,
    fun earlier child parent split => ?_, fun room child member => ?_⟩
  · subst split
    obtain ⟨-, childNamed, parentNamed⟩ := named_snoc named
    rw [cacheSetParents_snoc]
    exact cacheGetParent_setParent childNamed parentNamed
  · obtain ⟨call, inside, rfl⟩ := List.mem_map.mp (List.mem_toFinset.mp member)
    have present : ((calls.reverse.find? fun other => other.1 = call.1)).isSome :=
      List.find?_isSome.mpr ⟨call, List.mem_reverse.mpr inside, by simp⟩
    obtain ⟨latest, found⟩ := Option.isSome_iff_exists.mp present
    have named' : latestParent calls call.1 = some latest.2 := by
      rw [latestParent, found]
      rfl
    exact ⟨latest.2, named', sound.get (named call inside).1 (latest_held named room named')⟩

theorem parentCache_map_twice :
    cacheGetParent (cacheSetParents .empty [(64, 5), (65, 64), (64, 65)]) 64 = some 65 :=
  (@parentCache_map [(64, 5), (65, 64), (64, 65)] (by
    intro call member
    revert call
    decide)).2.2.1 [(64, 5), (65, 64)] 64 65 rfl

end Rufux.Mountd
