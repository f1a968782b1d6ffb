import Rufux.Library.KeyValue
import Rufux.Library.Search

/-!
The boot-disk armour of the macOS front end: the resolution of a path to a BSD name, the
search of the IOKit registry with its fixed tables, and when the armour holds.
-/

namespace Rufux.Macos

open Library

/-- A C string, as the characters before its terminator. -/
abbrev CString := List Char

/-- `(digits)(s digits)*`, with a digit due at the start and after each `s`. -/
def isSliceList (digitDue : Bool) : CString → Bool
  | [] => !digitDue
  | char :: rest =>
      if char.isDigit then isSliceList false rest
      else if !digitDue && char = 's' then isSliceList true rest
      else false

def isValidBsdDiskIdent (s : CString) : Bool :=
  "disk".toList.isPrefixOf s && isSliceList true (s.drop 4)

def extractBsdFromStr (p : CString) : Option CString :=
  let p := if "/private/dev/".toList.isPrefixOf p then p.drop 8 else p
  let cand :=
    if "/dev/rdisk".toList.isPrefixOf p then some (p.drop 6)
    else if "/dev/disk".toList.isPrefixOf p then some (p.drop 5)
    else if '/' ∈ p then none
    else if "rdisk".toList.isPrefixOf p then some (p.drop 1)
    else if "disk".toList.isPrefixOf p then some p
    else none
  match cand with
  | none => none
  -- the 64-byte buffer keeps what fits before its terminator
  | some name => if isValidBsdDiskIdent name then some (name.take 63) else none

inductive FileKind where
  | regular
  | device (devname : Option CString)
  | other

/-- What the system calls of the check answer. -/
structure Host where
  realpath : CString → Option CString
  stat : CString → Option FileKind
  rootMount : Option CString

def resolveToBsdName (host : Host) (path : CString) : Option CString :=
  if path = [] then none
  else
    match host.realpath path with
    | none => extractBsdFromStr path
    | some resolved =>
        match host.stat resolved with
        | some .regular => none
        | some (.device devname) =>
            (extractBsdFromStr resolved).or
              ((devname.bind extractBsdFromStr).or (extractBsdFromStr path))
        | some .other => (extractBsdFromStr resolved).or (extractBsdFromStr path)
        | none => (extractBsdFromStr resolved).or (extractBsdFromStr path)

def wholeBsdPrefix (bsd : CString) : CString :=
  if "disk".toList.isPrefixOf bsd && ((bsd.drop 4).head?.map Char.isDigit).getD false then
    ("disk".toList ++ (bsd.drop 4).takeWhile Char.isDigit).take 63
  else []

/-- The registry as the search sees it. Entry ids are unique and never zero. -/
structure Registry (Node : Type) where
  entryId : Node → Nat
  bsdName : Node → Option CString
  parents : Node → List Node
  matching : CString → Option Node
  entryId_pos : ∀ node, entryId node ≠ 0
  entryId_injective : Function.Injective entryId

def maxSet : Nat := 32
def maxQueue : Nat := 64

def bsdSetAddOne (set : List CString) (name : CString) : List CString :=
  if name = [] ∨ maxSet ≤ set.length then set
  else if name ∈ set then set
  else set ++ [name]

def bsdSetAdd (set : List CString) (name : CString) : List CString :=
  if name = [] then set
  else
    let added := bsdSetAddOne set name
    let whole := wholeBsdPrefix name
    if whole = [] then added else bsdSetAddOne added whole

section Search

variable {Node : Type} (registry : Registry Node)

/-- The name under which a registry entry is a disk: a BSD name that fits the reader's
buffer and is a disk identifier. -/
def Registry.diskName (node : Node) : Option CString :=
  match registry.bsdName node with
  | none => none
  | some name => if name.length < 64 ∧ isValidBsdDiskIdent name = true then some name else none

/-- The entry a search starts from: the one of that name, else that of its whole disk. -/
def Registry.startNode (bsd : CString) : Option Node :=
  match registry.matching bsd with
  | some start => some start
  | none =>
      let whole := wholeBsdPrefix bsd
      if whole ≠ [] ∧ whole ≠ bsd then registry.matching whole else none

structure Lineage (Node : Type) where
  queue : List Node
  qhead : Nat
  seenIds : List Nat
  names : List CString

def enqueueParent (state : Lineage Node) (parent : Node) : Lineage Node :=
  let pid := registry.entryId parent
  if ¬ (pid ≠ 0 ∧ pid ∈ state.seenIds) ∧ state.queue.length < maxQueue then
    { state with
      queue := state.queue ++ [parent]
      seenIds := if pid ≠ 0 ∧ state.seenIds.length < maxQueue then state.seenIds ++ [pid]
        else state.seenIds }
  else state

def visitNode (state : Lineage Node) (cur : Node) : Lineage Node :=
  let names :=
    match registry.diskName cur with
    | none => state.names
    | some name => bsdSetAdd state.names name
  (registry.parents cur).foldl (enqueueParent registry)
    { state with qhead := state.qhead + 1, names }

/-- The search loop. Each round takes one queue slot, so the queue's size bounds the rounds. -/
def lineageLoop : Nat → Lineage Node → Lineage Node
  | 0, state => state
  | rounds + 1, state =>
      match state.queue[state.qhead]? with
      | none => state
      | some cur => lineageLoop rounds (visitNode registry state cur)

def collectIokitLineageBsds (bsd : CString) : List CString :=
  let set := bsdSetAdd [] bsd
  match registry.startNode bsd with
  | none => set
  | some start =>
      let sid := registry.entryId start
      (lineageLoop registry maxQueue
        { queue := [start], qhead := 0, seenIds := if sid ≠ 0 then [sid] else [],
          names := set }).names

/-- The floor of the check: `disk0` and its slices are always the boot disk. -/
def isDisk0 (bsd : CString) : Bool :=
  bsd = "disk0".toList || "disk0s".toList.isPrefixOf bsd

def rufuxMacosIsBootDisk (host : Host) (path : CString) : Bool :=
  match resolveToBsdName host path with
  | none => false
  | some cand =>
      if isDisk0 cand then true
      else
        match host.rootMount.bind (resolveToBsdName host) with
        | none => true
        | some root =>
            let rootSet := collectIokitLineageBsds registry root
            let candSet := collectIokitLineageBsds registry cand
            rootSet.length = 0 || candSet.any fun name => rootSet.contains name

theorem diskName_nonempty {registry : Registry Node} {node : Node} {name : CString}
    (named : registry.diskName node = some name) : name ≠ [] := by
  unfold Registry.diskName at named
  split at named
  · nomatch named
  · split at named
    · rename_i found fits
      cases named
      rintro rfl
      exact absurd fits.2 (by decide)
    · nomatch named

end Search

section Tables

/-- The names that a name adds to a set: itself and its whole disk. -/
def setEntries (name : CString) : List CString :=
  [name, wholeBsdPrefix name].filter (· ≠ [])

theorem wholeBsdPrefix_nil : wholeBsdPrefix [] = [] := rfl

theorem bsdSetAddOne_eq (set : List CString) {name : CString} (nonempty : name ≠ []) :
    bsdSetAddOne set name = push maxSet set name := by
  unfold bsdSetAddOne push
  by_cases full : maxSet ≤ set.length
  · rw [if_pos (Or.inr full), if_pos (Or.inr full)]
  · rw [if_neg (by simp [nonempty, full])]
    by_cases known : name ∈ set
    · rw [if_pos known, if_pos (Or.inl known)]
    · rw [if_neg known, if_neg (by simp [known, full])]

theorem bsdSetAdd_eq (set : List CString) (name : CString) :
    bsdSetAdd set name = pushAll maxSet set (setEntries name) := by
  unfold bsdSetAdd setEntries
  by_cases empty : name = []
  · subst empty
    rfl
  · rw [if_neg empty, bsdSetAddOne_eq set empty]
    by_cases whole : wholeBsdPrefix name = []
    · simp [empty, whole, pushAll]
    · simp [empty, whole, pushAll, bsdSetAddOne_eq _ whole]

end Tables

section Lineage

variable {Node : Type} [DecidableEq Node] (registry : Registry Node)

/-- The names that an entry adds when the search visits it. -/
def Registry.nodeNames (node : Node) : List CString :=
  match registry.diskName node with
  | none => []
  | some name => setEntries name

/-- The state of the search after so many rounds of a bounded breadth-first search. -/
structure Lineage.Follows (base : List CString) (start : Node) (round : Nat)
    (state : Lineage Node) : Prop where
  queue : state.queue = search registry.parents start maxQueue round
  qhead : state.qhead = min round state.queue.length
  seenIds : state.seenIds = state.queue.map registry.entryId
  names : state.names =
    pushAll maxSet base ((state.queue.take round).flatMap registry.nodeNames)

variable {registry}

theorem enqueueParent_eq {state : Lineage Node} (parent : Node)
    (seen : state.seenIds = state.queue.map registry.entryId) :
    enqueueParent registry state parent =
      { state with
        queue := push maxQueue state.queue parent
        seenIds := (push maxQueue state.queue parent).map registry.entryId } := by
  have known : registry.entryId parent ∈ state.seenIds ↔ parent ∈ state.queue := by
    rw [seen]
    exact List.mem_map_of_injective registry.entryId_injective
  have positive := registry.entryId_pos parent
  have length : state.seenIds.length = state.queue.length := by rw [seen, List.length_map]
  simp only [enqueueParent, push, known, length]
  by_cases fresh : parent ∈ state.queue
  · simp [fresh, positive, ← seen]
  · by_cases room : state.queue.length < maxQueue
    · simp [fresh, positive, room, Nat.not_le_of_lt room, seen]
    · simp [fresh, room, Nat.le_of_not_lt room, ← seen]

theorem enqueueParents_eq {state : Lineage Node} (parents : List Node)
    (seen : state.seenIds = state.queue.map registry.entryId) :
    parents.foldl (enqueueParent registry) state =
      { state with
        queue := pushAll maxQueue state.queue parents
        seenIds := (pushAll maxQueue state.queue parents).map registry.entryId } := by
  induction parents generalizing state with
  | nil => simp [pushAll, ← seen]
  | cons parent rest ih =>
      rw [List.foldl_cons, enqueueParent_eq parent seen, ih rfl]
      rfl

theorem visitNode_eq {state : Lineage Node} (cur : Node)
    (seen : state.seenIds = state.queue.map registry.entryId) :
    visitNode registry state cur =
      { queue := pushAll maxQueue state.queue (registry.parents cur)
        qhead := state.qhead + 1
        seenIds := (pushAll maxQueue state.queue (registry.parents cur)).map registry.entryId
        names := pushAll maxSet state.names (registry.nodeNames cur) } := by
  unfold visitNode Registry.nodeNames
  cases named : registry.diskName cur with
  | none => exact enqueueParents_eq _ seen
  | some name =>
      simp only [← bsdSetAdd_eq]
      exact enqueueParents_eq _ seen

theorem Lineage.Follows.visit {base : List CString} {start : Node} {round : Nat}
    {state : Lineage Node} (follows : state.Follows registry base start round) {cur : Node}
    (present : state.queue[state.qhead]? = some cur) :
    (visitNode registry state cur).Follows registry base start (round + 1) := by
  obtain ⟨queue, qhead, seenIds, names⟩ := follows
  have inside := (List.getElem?_eq_some_iff.mp present).1
  have head : state.qhead = round := by omega
  rw [visitNode_eq cur seenIds]
  rw [head] at present inside
  have grown : search registry.parents start maxQueue (round + 1) =
      pushAll maxQueue state.queue (registry.parents cur) := by
    rw [search, ← queue, present]
  have longer := pushAll_isPrefix maxQueue state.queue (registry.parents cur)
  have kept : (pushAll maxQueue state.queue (registry.parents cur)).take (round + 1) =
      state.queue.take round ++ [cur] := by
    rw [take_of_isPrefix longer inside, List.take_add_one, present]
    rfl
  refine ⟨grown.symm, ?_, rfl, ?_⟩
  · have := longer.length_le
    simp only
    omega
  · simp only [kept, List.flatMap_append, List.flatMap_singleton, names]
    exact (List.foldl_append ..).symm

theorem Lineage.Follows.ended {base : List CString} {start : Node} {round : Nat}
    {state : Lineage Node} (follows : state.Follows registry base start round)
    (stopped : state.queue[state.qhead]? = none) (more : Nat) :
    state.Follows registry base start (round + more) := by
  obtain ⟨queue, qhead, seenIds, names⟩ := follows
  have short : state.queue.length ≤ round := by
    have := List.getElem?_eq_none_iff.mp stopped
    omega
  refine ⟨?_, by omega, seenIds, ?_⟩
  · rw [search_ended (by rwa [← queue]), queue]
  · rw [List.take_of_length_le (by omega), names, List.take_of_length_le short]

theorem lineageLoop_follows {base : List CString} {start : Node} (rounds : Nat) {round : Nat}
    {state : Lineage Node} (follows : state.Follows registry base start round) :
    (lineageLoop registry rounds state).Follows registry base start (round + rounds) := by
  induction rounds generalizing round state with
  | zero => exact follows
  | succ rounds ih =>
      rw [lineageLoop]
      cases present : state.queue[state.qhead]? with
      | none => exact follows.ended present _
      | some cur =>
          rw [Nat.add_comm rounds 1, ← Nat.add_assoc]
          exact ih (follows.visit present)

variable (registry)

/-- The ancestors of a disk in the order of an unbounded breadth-first search, as far as
they fill the queue. -/
def Registry.firstAncestors (bsd : CString) : List Node :=
  match registry.startNode bsd with
  | none => []
  | some start => (explore registry.parents start maxQueue).take maxQueue

/-- The names of those ancestors, as far as they fill the name table. -/
def Registry.firstNames (bsd : CString) : List CString :=
  (addAll [] (setEntries bsd ++ (registry.firstAncestors bsd).flatMap registry.nodeNames)).take
    maxSet

theorem collectIokitLineageBsds_eq (bsd : CString) :
    collectIokitLineageBsds registry bsd = registry.firstNames bsd := by
  have table (entries : List CString) :
      pushAll maxSet [] entries = (addAll [] entries).take maxSet := pushAll_take maxSet [] entries
  unfold collectIokitLineageBsds Registry.firstNames Registry.firstAncestors
  cases started : registry.startNode bsd with
  | none => rw [bsdSetAdd_eq, table, List.flatMap_nil, List.append_nil]
  | some start =>
      have initial : Lineage.Follows registry (bsdSetAdd [] bsd) start 0
          { queue := [start], qhead := 0,
            seenIds := if registry.entryId start ≠ 0 then [registry.entryId start] else [],
            names := bsdSetAdd [] bsd } :=
        ⟨rfl, rfl, if_pos (registry.entryId_pos start), rfl⟩
      have final := lineageLoop_follows maxQueue initial
      rw [Nat.zero_add] at final
      simp only
      rw [final.names, final.queue, search_eq_take (by decide), List.take_take, Nat.min_self,
        bsdSetAdd_eq, ← table]
      exact (List.foldl_append ..).symm

/-- Every ancestor-or-self of a disk, whatever the size of the registry. -/
def Registry.ancestors (bsd : CString) : Set Node :=
  {node | ∃ start, registry.startNode bsd = some start ∧ Reaches registry.parents start node}

def Registry.lineageNames (bsd : CString) : Set CString :=
  {name | name ∈ setEntries bsd ∨
    ∃ node ∈ registry.ancestors bsd, name ∈ registry.nodeNames node}

def Registry.FitsTables (bsd : CString) : Prop :=
  (registry.ancestors bsd).encard ≤ maxQueue ∧ (registry.lineageNames bsd).encard ≤ maxSet

variable {registry}

theorem firstAncestors_subset {bsd : CString} :
    ∀ node ∈ registry.firstAncestors bsd, node ∈ registry.ancestors bsd := by
  intro node member
  unfold Registry.firstAncestors at member
  split at member
  · nomatch member
  · rename_i start started
    exact ⟨start, started, explore_sound _ node (List.mem_of_mem_take member)⟩

theorem firstAncestors_complete {bsd : CString} (fits : registry.FitsTables bsd) :
    ∀ node ∈ registry.ancestors bsd, node ∈ registry.firstAncestors bsd := by
  rintro node ⟨start, started, reached⟩
  have same : registry.ancestors bsd = {node | Reaches registry.parents start node} := by
    ext other
    simp [Registry.ancestors, started]
  have found := search_complete (by decide) (same ▸ fits.1) reached
  rw [search_eq_take (by decide)] at found
  simp only [Registry.firstAncestors, started]
  exact found

/-- When the lineage fits, the tables hold every name of it. -/
theorem firstNames_complete {bsd : CString} (fits : registry.FitsTables bsd) :
    ∀ name ∈ registry.lineageNames bsd, name ∈ registry.firstNames bsd := by
  have inside : ∀ name ∈ addAll [] (setEntries bsd ++
      (registry.firstAncestors bsd).flatMap registry.nodeNames),
      name ∈ registry.lineageNames bsd := by
    intro name member
    rcases mem_addAll.mp member with bad | entry
    · nomatch bad
    rcases List.mem_append.mp entry with own | inherited
    · exact Or.inl own
    · obtain ⟨node, visited, named⟩ := List.mem_flatMap.mp inherited
      exact Or.inr ⟨node, firstAncestors_subset node visited, named⟩
  have short := length_le_of_nodup (addAll_nodup List.nodup_nil _) inside fits.2
  intro name member
  unfold Registry.firstNames
  rw [List.take_of_length_le short]
  apply mem_addAll.mpr
  rcases member with own | ⟨node, ancestor, named⟩
  · exact Or.inr (List.mem_append_left _ own)
  · have visited := firstAncestors_complete fits node ancestor
    exact Or.inr (List.mem_append_right _ (List.mem_flatMap.mpr ⟨node, visited, named⟩))

theorem mem_setEntries {name other : CString} :
    other ∈ setEntries name ↔ (other = name ∨ other = wholeBsdPrefix name) ∧ other ≠ [] := by
  simp [setEntries]

theorem extractBsdFromStr_nonempty {path name : CString}
    (extracted : extractBsdFromStr path = some name) : name ≠ [] := by
  simp only [extractBsdFromStr] at extracted
  split at extracted
  · nomatch extracted
  · rename_i candidate _
    split at extracted
    · rename_i valid
      cases extracted
      intro empty
      have none : candidate = [] := by simpa using empty
      subst none
      exact absurd valid (by decide)
    · nomatch extracted

theorem resolveToBsdName_nonempty {host : Host} {path name : CString}
    (resolved : resolveToBsdName host path = some name) : name ≠ [] := by
  unfold resolveToBsdName at resolved
  split at resolved
  · nomatch resolved
  · split at resolved
    · exact extractBsdFromStr_nonempty resolved
    · split at resolved
      · nomatch resolved
      · rename_i devname _
        rcases Option.or_eq_some_iff.mp resolved with first | ⟨_, later⟩
        · exact extractBsdFromStr_nonempty first
        · rcases Option.or_eq_some_iff.mp later with device | ⟨_, last⟩
          · obtain ⟨node, _, named⟩ := Option.bind_eq_some_iff.mp device
            exact extractBsdFromStr_nonempty named
          · exact extractBsdFromStr_nonempty last
      all_goals
        rcases Option.or_eq_some_iff.mp resolved with first | ⟨_, later⟩
        · exact extractBsdFromStr_nonempty first
        · exact extractBsdFromStr_nonempty later

end Lineage

section Armour

variable {Node : Type} [DecidableEq Node] (host : Host) (registry : Registry Node)

/-- The candidate and the root volume share an entry that is a disk, or the candidate is the
whole disk of an entry that the root volume hangs on. -/
def Registry.Related (cand root : CString) : Prop :=
  ∃ node ∈ registry.ancestors root, ∃ name, registry.diskName node = some name ∧
    (node ∈ registry.ancestors cand ∨ cand = wholeBsdPrefix name)

/-- The armour on one path: a disk of the running system is reported, and so is any disk
when a lineage is too large for the tables. -/
def Armoured (path : CString) : Prop :=
  ∀ cand root, resolveToBsdName host path = some cand →
    host.rootMount.bind (resolveToBsdName host) = some root →
    (registry.Related cand root ∨ ¬ registry.FitsTables cand ∨ ¬ registry.FitsTables root) →
    rufuxMacosIsBootDisk registry host path = true

variable {host registry}

omit [DecidableEq Node] in
theorem Registry.Related.shared {cand root : CString} (nonempty : cand ≠ [])
    (related : registry.Related cand root) :
    ∃ name ∈ registry.lineageNames cand, name ∈ registry.lineageNames root := by
  obtain ⟨node, ofRoot, name, named, shares⟩ := related
  have adds (other : CString) (entry : other ∈ setEntries name) :
      other ∈ registry.nodeNames node := by
    rwa [nodeNames, named]
  rcases shares with ofCand | isWhole
  · have own := adds name (mem_setEntries.mpr ⟨Or.inl rfl, diskName_nonempty named⟩)
    exact ⟨name, Or.inr ⟨node, ofCand, own⟩, Or.inr ⟨node, ofRoot, own⟩⟩
  · have own := adds cand (mem_setEntries.mpr ⟨Or.inr isWhole, nonempty⟩)
    exact ⟨cand, Or.inl (mem_setEntries.mpr ⟨Or.inl rfl, nonempty⟩), Or.inr ⟨node, ofRoot, own⟩⟩

theorem firstNames_nonempty {bsd : CString} (nonempty : bsd ≠ []) :
    registry.firstNames bsd ≠ [] := by
  have own : bsd ∈ addAll [] (setEntries bsd ++
      (registry.firstAncestors bsd).flatMap registry.nodeNames) :=
    mem_addAll.mpr (Or.inr (List.mem_append_left _ (mem_setEntries.mpr ⟨Or.inl rfl, nonempty⟩)))
  intro empty
  rcases List.take_eq_nil_iff.mp empty with zero | none
  · nomatch zero
  · rw [none] at own
    nomatch own

theorem rufuxMacosIsBootDisk_iff {path cand root : CString}
    (resolved : resolveToBsdName host path = some cand)
    (mounted : host.rootMount.bind (resolveToBsdName host) = some root) :
    rufuxMacosIsBootDisk registry host path = true ↔
      isDisk0 cand = true ∨
        ∃ name ∈ registry.firstNames cand, name ∈ registry.firstNames root := by
  have rootName : root ≠ [] := by
    obtain ⟨mount, _, named⟩ := Option.bind_eq_some_iff.mp mounted
    exact resolveToBsdName_nonempty named
  have stored : (registry.firstNames root).length ≠ 0 := by
    rw [ne_eq, List.length_eq_zero_iff]
    exact firstNames_nonempty rootName
  simp only [rufuxMacosIsBootDisk, resolved, mounted, collectIokitLineageBsds_eq]
  by_cases floor : isDisk0 cand = true
  · simp [floor]
  · simp [floor, stored]

/-- The armour holds of a path exactly when both lineages fit the tables, or the floor
reports it, or what the tables hold of the two lineages has a name in common. -/
theorem bootDisk_armoured_iff (host : Host) (registry : Registry Node) (path : CString) :
    Armoured host registry path ↔
      ∀ cand root, resolveToBsdName host path = some cand →
        host.rootMount.bind (resolveToBsdName host) = some root →
        isDisk0 cand = true ∨ (registry.FitsTables cand ∧ registry.FitsTables root) ∨
          ∃ name ∈ registry.firstNames cand, name ∈ registry.firstNames root := by
  constructor
  · intro armoured cand root resolved mounted
    by_cases fits : registry.FitsTables cand ∧ registry.FitsTables root
    · exact Or.inr (Or.inl fits)
    · have reported := armoured cand root resolved mounted (Or.inr (not_and_or.mp fits))
      rcases (rufuxMacosIsBootDisk_iff resolved mounted).mp reported with floor | shared
      · exact Or.inl floor
      · exact Or.inr (Or.inr shared)
  · intro holds cand root resolved mounted due
    apply (rufuxMacosIsBootDisk_iff resolved mounted).mpr
    rcases holds cand root resolved mounted with floor | fits | shared
    · exact Or.inl floor
    · have related := due.resolve_right (by simp [fits.1, fits.2])
      obtain ⟨name, ofCand, ofRoot⟩ := related.shared (resolveToBsdName_nonempty resolved)
      exact Or.inr ⟨name, firstNames_complete fits.1 name ofCand,
        firstNames_complete fits.2 name ofRoot⟩
    · exact Or.inr shared

/-- A root volume whose physical store lies seventy registry entries above it. -/
def deepRegistry : Registry Nat where
  entryId node := node + 1
  bsdName node :=
    if node = 0 then some "disk3s1".toList
    else if node = 70 then some "disk5".toList
    else none
  parents node := if node < 70 then [node + 1] else []
  matching name :=
    if name = "disk3s1".toList then some 0
    else if name = "disk5".toList then some 70
    else none
  entryId_pos _ := Nat.succ_ne_zero _
  entryId_injective _ _ same := Nat.succ.inj same

def deepHost : Host where
  realpath := some
  stat _ := some (.device none)
  rootMount := some "/dev/disk3s1".toList

theorem deepRegistry_reaches {node : Nat} (inside : node ≤ 70) :
    Reaches deepRegistry.parents 0 node := by
  induction node with
  | zero => exact Relation.ReflTransGen.refl
  | succ node ih =>
      have parent : node + 1 ∈ deepRegistry.parents node := by
        simp only [deepRegistry]
        rw [if_pos (by omega)]
        exact List.mem_singleton_self _
      exact (ih (by omega)).tail parent

theorem deepStore_allowed : ¬ Armoured deepHost deepRegistry "/dev/disk5".toList := by
  intro armoured
  have related : deepRegistry.Related "disk5".toList "disk3s1".toList :=
    ⟨70, ⟨0, rfl, deepRegistry_reaches (Nat.le_refl _)⟩, "disk5".toList, rfl,
      Or.inl ⟨70, rfl, Relation.ReflTransGen.refl⟩⟩
  have reported := armoured _ _ rfl rfl (Or.inl related)
  exact absurd reported (by decide)

end Armour

end Rufux.Macos
