import Rufux.Macos.NtfsPopulate

/-!
What a copy that succeeded has left on the volume. Every step only adds names to the directory it
works in and records that were not in use, so that what an earlier step wrote stays; a directory
whose listing is cut short by an error is copied as if it held nothing more.
-/

namespace Rufux.Macos.Populate

variable {W Ref : Type}

/-! ### What libntfs-3g does -/

namespace Ntfs3g

variable (lib : Ntfs3g W Ref)

/-- The volume looks the same. -/
structure Same (w w' : W) : Prop where
  used : ∀ ref, lib.used w' ref ↔ lib.used w ref
  kind : ∀ ref, lib.used w ref → lib.kind w' ref = lib.kind w ref
  data : ∀ ref, lib.used w ref → lib.data w' ref = lib.data w ref
  entry : ∀ ref name, lib.used w ref → lib.entry w' ref name = lib.entry w ref name

/-- A record that was not in use got a name in a directory, and nothing else changed. -/
structure Made (w : W) (dir : Ref) (name : NtfsName) (kind : NtfsKind) (ref : Ref) (w' : W) :
    Prop where
  fresh : ¬lib.used w ref
  used : ∀ other, lib.used w' other ↔ lib.used w other ∨ other = ref
  named : lib.entry w' dir name = some ref
  newKind : lib.kind w' ref = kind
  newData : lib.data w' ref = []
  newEntry : ∀ name, lib.entry w' ref name = none
  kind : ∀ other, lib.used w other → lib.kind w' other = lib.kind w other
  data : ∀ other, lib.used w other → lib.data w' other = lib.data w other
  entry : ∀ other text, lib.used w other → other ≠ dir ∨ text ≠ name →
    lib.entry w' other text = lib.entry w other text

/-- The data of a record became these bytes, and nothing else changed. -/
structure Wrote (w : W) (ref : Ref) (bytes : List UInt8) (w' : W) : Prop where
  used : ∀ other, lib.used w' other ↔ lib.used w other
  kind : ∀ other, lib.used w other → lib.kind w' other = lib.kind w other
  data : ∀ other, lib.used w other → other ≠ ref → lib.data w' other = lib.data w other
  entry : ∀ other name, lib.used w other → lib.entry w' other name = lib.entry w other name
  new : lib.data w' ref = bytes

/-- What the calls are documented to do where they succeed. A name is looked up as it is, and two
names that are converted to the same text are the same. -/
structure Behaves : Prop where
  injective : ∀ first second text, lib.mbstoucs first = some text → lib.mbstoucs second = some text →
    first = second
  lookup : ∀ w dir name, lib.Same w (lib.lookup w dir name).1
  found : ∀ w dir name ref, (lib.lookup w dir name).2 = .found ref → lib.entry w dir name = some ref
  absent : ∀ w dir name, (lib.lookup w dir name).2 = .absent → lib.entry w dir name = none
  inodeOpen : ∀ w ref, lib.Same w (lib.inodeOpen w ref).1
  create : ∀ w dir name kind ref w', lib.create w dir name kind = (w', some ref) →
    lib.Made w dir name kind ref w'
  createSymlink : ∀ w dir name target ref w', lib.createSymlink w dir name target = (w', some ref) →
    lib.Made w dir name .reparse ref w'
  attrOpen : ∀ w ref, lib.Same w (lib.attrOpen w ref).1
  truncate : ∀ w ref w', lib.truncate w ref = (w', true) → lib.Wrote w ref [] w'
  pwrite : ∀ w ref pos bytes w' count, lib.pwrite w ref pos bytes = (w', count) → count ≠ 0 →
    count ≤ bytes.length ∧ (pos ≤ (lib.data w ref).length →
      lib.Wrote w ref ((lib.data w ref).take pos ++ bytes.take count ++
        (lib.data w ref).drop (pos + count)) w')
  attrPclose : ∀ w ref, lib.Same w (lib.attrPclose w ref).1
  inodeCloseInDir : ∀ w ref dir, lib.Same w (lib.inodeCloseInDir w ref dir).1
  inodeClose : ∀ w ref, lib.Same w (lib.inodeClose w ref).1
  setIgnoreCase : ∀ w, lib.Same w (lib.setIgnoreCase w).1
  umount : ∀ w w', lib.umount w = (w', true) → lib.Same w w'
  ntfsfix : ∀ w w', lib.ntfsfix w = (w', true) → lib.Same w w'

/-- The volume has a root directory and no name in it. -/
structure Empty (w : W) : Prop where
  used : lib.used w lib.root
  kind : lib.kind w lib.root = .directory
  entry : ∀ name, lib.entry w lib.root name = none

/-- Nothing changed but that records came into use and that the directory got some of the names. -/
structure Grown (dir : Ref) (names : Set NtfsName) (w w' : W) : Prop where
  used : ∀ ref, lib.used w ref → lib.used w' ref
  kind : ∀ ref, lib.used w ref → lib.kind w' ref = lib.kind w ref
  data : ∀ ref, lib.used w ref → lib.data w' ref = lib.data w ref
  entry : ∀ ref name, lib.used w ref → ref ≠ dir ∨ name ∉ names →
    lib.entry w' ref name = lib.entry w ref name

end Ntfs3g

section Frames

variable {lib : Ntfs3g W Ref} {w w₁ w₂ w₃ : W} {dir ref : Ref} {name : NtfsName} {kind : NtfsKind}
  {names more : Set NtfsName} {bytes : List UInt8}

theorem Ntfs3g.Same.grown (same : lib.Same w₁ w₂) : lib.Grown dir names w₁ w₂ where
  used ref := (same.used ref).mpr
  kind := same.kind
  data := same.data
  entry ref name used _ := same.entry ref name used

theorem Ntfs3g.Grown.trans (first : lib.Grown dir names w₁ w₂) (second : lib.Grown dir more w₂ w₃) :
    lib.Grown dir (names ∪ more) w₁ w₃ where
  used ref used := second.used ref (first.used ref used)
  kind ref used := (second.kind ref (first.used ref used)).trans (first.kind ref used)
  data ref used := (second.data ref (first.used ref used)).trans (first.data ref used)
  entry ref name used other := by
    have left : ref ≠ dir ∨ name ∉ names := other.imp_right fun outside inside => outside (.inl inside)
    have right : ref ≠ dir ∨ name ∉ more := other.imp_right fun outside inside => outside (.inr inside)
    exact (second.entry ref name (first.used ref used) right).trans (first.entry ref name used left)

theorem Ntfs3g.Grown.mono (grown : lib.Grown dir names w₁ w₂) (subset : names ⊆ more) :
    lib.Grown dir more w₁ w₂ where
  used := grown.used
  kind := grown.kind
  data := grown.data
  entry ref name used other := grown.entry ref name used (other.imp_right fun outside inside =>
    outside (subset inside))

/-- What grows in a record that was not in use changes nothing that was there. -/
theorem Ntfs3g.Grown.inside (first : lib.Grown dir names w₁ w₂) (fresh : ¬lib.used w₁ ref)
    (second : lib.Grown ref more w₂ w₃) : lib.Grown dir names w₁ w₃ where
  used other used := second.used other (first.used other used)
  kind other used := (second.kind other (first.used other used)).trans (first.kind other used)
  data other used := (second.data other (first.used other used)).trans (first.data other used)
  entry other name used outside := by
    have different : other ≠ ref := by
      rintro rfl
      exact fresh used
    exact (second.entry other name (first.used other used) (.inl different)).trans
      (first.entry other name used outside)

theorem Ntfs3g.Made.grown (made : lib.Made w₁ dir name kind ref w₂) :
    lib.Grown dir {name} w₁ w₂ where
  used other used := (made.used other).mpr (.inl used)
  kind := made.kind
  data := made.data
  entry := made.entry

/-- Writing the data of a record that was not in use changes nothing that was there. -/
theorem Ntfs3g.Grown.write (first : lib.Grown dir names w₁ w₂) (fresh : ¬lib.used w₁ ref)
    (second : lib.Wrote w₂ ref bytes w₃) : lib.Grown dir names w₁ w₃ where
  used other used := (second.used other).mpr (first.used other used)
  kind other used := (second.kind other (first.used other used)).trans (first.kind other used)
  data other used := by
    have different : other ≠ ref := by
      rintro rfl
      exact fresh used
    exact (second.data other (first.used other used) different).trans (first.data other used)
  entry other name used outside := (second.entry other name (first.used other used)).trans
    (first.entry other name used outside)

theorem Ntfs3g.Same.before (same : lib.Same w₁ w₂) (grown : lib.Grown dir names w₂ w₃) :
    lib.Grown dir names w₁ w₃ := by
  have first : lib.Grown dir ∅ w₁ w₂ := same.grown
  have whole := first.trans grown
  rwa [Set.empty_union] at whole

theorem Ntfs3g.Grown.same (grown : lib.Grown dir names w₁ w₂) (same : lib.Same w₂ w₃) :
    lib.Grown dir names w₁ w₃ := by
  have last : lib.Grown dir ∅ w₂ w₃ := same.grown
  have whole := grown.trans last
  rwa [Set.union_empty] at whole

theorem Ntfs3g.Wrote.trans {first second : List UInt8} (before : lib.Wrote w₁ ref first w₂)
    (after : lib.Wrote w₂ ref second w₃) : lib.Wrote w₁ ref second w₃ where
  used other := (after.used other).trans (before.used other)
  kind other used := (after.kind other ((before.used other).mpr used)).trans (before.kind other used)
  data other used different := (after.data other ((before.used other).mpr used) different).trans
    (before.data other used different)
  entry other name used := (after.entry other name ((before.used other).mpr used)).trans
    (before.entry other name used)
  new := after.new

theorem Ntfs3g.Wrote.refl : lib.Wrote w ref (lib.data w ref) w where
  used _ := Iff.rfl
  kind _ _ := rfl
  data _ _ _ := rfl
  entry _ _ _ := rfl
  new := rfl

end Frames

/-! ### One entry -/

section Entry

variable {lib : Ntfs3g W Ref} {host : Host} {w w' : W} {dir ref : Ref} {path : HostPath}
  {name other : HostName} {uname : NtfsName}

theorem component_injective (behaves : lib.Behaves)
    (first : lib.utf8ToNtfsComponent name.bytes = some uname)
    (second : lib.utf8ToNtfsComponent other.bytes = some uname) : name = other := by
  have converted {bytes : List UInt8} (component : lib.utf8ToNtfsComponent bytes = some uname) :
      lib.mbstoucs bytes = some uname := by
    unfold Ntfs3g.utf8ToNtfsComponent at component
    split at component
    · cases component
    · split at component
      · cases component
      · rename_i text found
        split at component
        · cases component
        · split at component
          · cases component
          · rw [found, component]
  have same := behaves.injective _ _ _ (converted first) (converted second)
  cases name
  cases other
  exact HostName.mk.injEq .. ▸ same

/-- A directory that was not there is made empty. -/
theorem ensureNtfsChildDir_spec (behaves : lib.Behaves)
    (absent : ∀ uname, lib.utf8ToNtfsComponent name.bytes = some uname →
      lib.entry w dir uname = none)
    (made : lib.ensureNtfsChildDir w dir name = (w', some ref)) :
    ∃ uname, lib.utf8ToNtfsComponent name.bytes = some uname ∧ ¬lib.used w ref ∧
      lib.used w' ref ∧ lib.Grown dir {uname} w w' ∧ lib.entry w' dir uname = some ref ∧
      lib.kind w' ref = .directory ∧ ∀ text, lib.entry w' ref text = none := by
  unfold Ntfs3g.ensureNtfsChildDir at made
  split at made
  · cases made
  · rename_i uname component
    have none_there := absent uname component
    have same := behaves.lookup w dir uname
    split at made
    · rename_i w₁ mref looked
      have found := behaves.found w dir uname mref (by rw [looked])
      rw [none_there] at found
      cases found
    · cases made
    · rename_i w₁ looked
      rw [looked] at same
      have created := behaves.create _ _ _ _ _ _ made
      have fresh : ¬lib.used w ref := fun before => created.fresh ((same.used ref).mpr before)
      exact ⟨uname, component, fresh, (created.used ref).mpr (.inr rfl), same.before created.grown,
        created.named, created.newKind, created.newEntry⟩

/-- A chunk that is written goes behind what the record holds. -/
theorem writeChunk_spec (behaves : lib.Behaves) {pos : Nat} {bytes : List UInt8}
    (place : pos = (lib.data w ref).length) (done : lib.writeChunk w ref pos bytes = (w', true)) :
    lib.Wrote w ref (lib.data w ref ++ bytes) w' := by
  fun_induction Ntfs3g.writeChunk lib w ref pos bytes with
  | case1 w pos =>
    obtain ⟨rfl, -⟩ := Prod.mk.inj done
    rw [List.append_nil]
    exact .refl
  | case2 => cases done
  | case3 w pos bytes some_bytes w₁ count wrote ih =>
    obtain ⟨most, written⟩ := behaves.pwrite _ _ _ _ _ _ wrote (Nat.succ_ne_zero count)
    have step := written (Nat.le_of_eq place)
    rw [place, List.take_length, List.drop_eq_nil_of_le (Nat.le_add_right _ _), List.append_nil]
      at step
    have length : pos + (count + 1) = (lib.data w₁ ref).length := by
      rw [step.new, List.length_append, List.length_take, place]
      omega
    have later := step.trans (ih length done)
    rwa [step.new, List.append_assoc, List.take_append_drop] at later

/-- A chunk off the front of a file, and then the rest of it. -/
theorem chunk_then (behaves : lib.Behaves) {pos size : Nat} {rest : List UInt8} {w₁ : W}
    (place : pos = (lib.data w ref).length)
    (chunk : lib.writeChunk w ref pos (rest.take size) = (w₁, true))
    (later : pos + (rest.take size).length = (lib.data w₁ ref).length →
      lib.Wrote w₁ ref (lib.data w₁ ref ++ rest.drop (rest.take size).length) w') :
    lib.Wrote w ref (lib.data w ref ++ rest) w' := by
  have wrote := writeChunk_spec behaves place chunk
  have length : pos + (rest.take size).length = (lib.data w₁ ref).length := by
    rw [wrote.new, List.length_append, place]
  have whole := wrote.trans (later length)
  have split : rest.take size ++ rest.drop (rest.take size).length = rest :=
    (List.prefix_iff_eq_append.mp (List.take_prefix size rest))
  rwa [wrote.new, List.append_assoc, split] at whole

/-- A host file that is read to its end goes behind what the record holds. -/
theorem copyData_spec (behaves : lib.Behaves) {pos : Nat} {turns : List ReadTurn}
    {rest : List UInt8} (place : pos = (lib.data w ref).length)
    (done : lib.copyData w ref pos turns rest = (w', true)) :
    lib.Wrote w ref (lib.data w ref ++ rest) w' := by
  have ended : lib.Wrote w ref (lib.data w ref ++ []) w := by
    rw [List.append_nil]
    exact .refl
  fun_induction Ntfs3g.copyData lib w ref pos turns rest with
  | case1 w pos rest turns ih => exact ih place done ended
  | case2 => cases done
  | case3 =>
    obtain ⟨rfl, -⟩ := Prod.mk.inj done
    exact ended
  | case4 => cases done
  | case5 w pos rest count turns some_rest chunk w₁ wrote ih =>
    refine chunk_then behaves place wrote fun length => ih length done ?_
    rw [List.append_nil]
    exact .refl
  | case6 =>
    obtain ⟨rfl, -⟩ := Prod.mk.inj done
    exact ended
  | case7 => cases done
  | case8 w pos rest some_rest chunk w₁ wrote ih =>
    refine chunk_then behaves place wrote fun length => ih length done ?_
    rw [List.append_nil]
    exact .refl

/-- A file that was not there is made empty. -/
theorem openOrCreateFile_spec (behaves : lib.Behaves) (absent : lib.entry w dir uname = none)
    (made : lib.openOrCreateFile w dir uname = (w', some ref)) :
    ¬lib.used w ref ∧ lib.used w' ref ∧ lib.Grown dir {uname} w w' ∧
      lib.entry w' dir uname = some ref ∧ lib.kind w' ref = .regular ∧ lib.data w' ref = [] := by
  unfold Ntfs3g.openOrCreateFile at made
  have same := behaves.lookup w dir uname
  split at made
  · rename_i w₁ mref looked
    have found := behaves.found w dir uname mref (by rw [looked])
    rw [absent] at found
    cases found
  · cases made
  · rename_i w₁ looked
    rw [looked] at same
    have created := behaves.create _ _ _ _ _ _ made
    have fresh : ¬lib.used w ref := fun before => created.fresh ((same.used ref).mpr before)
    exact ⟨fresh, (created.used ref).mpr (.inr rfl), same.before created.grown, created.named,
      created.newKind, created.newData⟩

/-- A file that was not there is made with the bytes of the host file. -/
theorem writeRegularFileIntoDir_spec (behaves : lib.Behaves) (used : lib.used w dir)
    (absent : ∀ uname, lib.utf8ToNtfsComponent name.bytes = some uname →
      lib.entry w dir uname = none)
    (done : lib.writeRegularFileIntoDir host w dir path name = (w', true)) :
    ∃ uname ref, lib.utf8ToNtfsComponent name.bytes = some uname ∧ ¬lib.used w ref ∧
      lib.used w' ref ∧ lib.Grown dir {uname} w w' ∧ lib.entry w' dir uname = some ref ∧
      lib.kind w' ref = .regular ∧ lib.data w' ref = host.content (path ++ [name]) := by
  unfold Ntfs3g.writeRegularFileIntoDir at done
  split at done
  · cases done
  · rename_i uname component
    split at done
    · cases done
    · split at done
      · cases done
      · rename_i w₁ ref made
        obtain ⟨fresh, here, grown, named, regular, empty⟩ :=
          openOrCreateFile_spec behaves (absent uname component) made
        have opened := behaves.attrOpen w₁ ref
        split at done
        · cases done
        · rename_i w₂ attr
          rw [attr] at opened
          have here₂ := (opened.used ref).mpr here
          have empty₂ : lib.data w₂ ref = [] := (opened.data ref here).trans empty
          have nothing : ¬(lib.data w₂ ref).length ≠ 0 := by simp [empty₂]
          rw [if_neg nothing] at done
          dsimp only at done
          split at done
          · cases done
          · rename_i w₃ copied
            have wrote := copyData_spec behaves (by rw [empty₂]; rfl) copied
            rw [empty₂, List.nil_append] at wrote
            have flushed := behaves.attrPclose w₃ ref
            split at done
            · cases done
            · rename_i w₄ closed
              rw [closed] at flushed
              have left := behaves.inodeCloseInDir w₄ ref dir
              rw [done] at left
              have here₃ := (wrote.used ref).mpr here₂
              have here₄ := (flushed.used ref).mpr here₃
              have dir₁ := grown.used dir used
              have dir₂ := (opened.used dir).mpr dir₁
              have dir₃ := (wrote.used dir).mpr dir₂
              have dir₄ := (flushed.used dir).mpr dir₃
              refine ⟨uname, ref, component, fresh, (left.used ref).mpr here₄,
                (((grown.same opened).write fresh wrote).same flushed).same left, ?_, ?_, ?_⟩
              · rw [left.entry dir uname dir₄, flushed.entry dir uname dir₃,
                  wrote.entry dir uname dir₂, opened.entry dir uname dir₁, named]
              · rw [left.kind ref here₄, flushed.kind ref here₃, wrote.kind ref here₂,
                  opened.kind ref here, regular]
              · rw [left.data ref here₄, flushed.data ref here₃, wrote.new]

/-- A symbolic link only adds its name. -/
theorem writeSymlinkIntoDir_spec (behaves : lib.Behaves)
    (absent : ∀ uname, lib.utf8ToNtfsComponent name.bytes = some uname →
      lib.entry w dir uname = none)
    (done : lib.writeSymlinkIntoDir host w dir path name = (w', true)) :
    ∃ uname, lib.utf8ToNtfsComponent name.bytes = some uname ∧ lib.Grown dir {uname} w w' := by
  unfold Ntfs3g.writeSymlinkIntoDir at done
  split at done
  · cases done
  · split at done
    · cases done
    · rename_i uname component
      have same := behaves.lookup w dir uname
      split at done
      · rename_i w₁ mref looked
        have found := behaves.found w dir uname mref (by rw [looked])
        rw [absent uname component] at found
        cases found
      · cases done
      · rename_i w₁ looked
        rw [looked] at same
        split at done
        · cases done
        · split at done
          · cases done
          · rename_i w₂ link made
            have created := behaves.createSymlink _ _ _ _ _ _ made
            have left := behaves.inodeCloseInDir w₂ link dir
            rw [done] at left
            exact ⟨uname, component, (same.before created.grown).same left⟩

end Entry

/-! ### Paths -/

namespace Host

/-- What `readdir` returns of a directory while it is copied. -/
def names (host : Host) (path : HostPath) : List HostName :=
  (host.readdir .copy path).filterMap DirEntry.child?

theorem keptEntry_child : keptEntry = DirEntry.child? := by
  funext entry
  cases entry with
  | self | parent => rfl
  | child name => simp [keptEntry, DirEntry.dName, DirEntry.child?, name.notSelf, name.notParent]

theorem listSortedDirEntries_perm {host : Host} {path : HostPath} {names : List HostName}
    (listed : host.listSortedDirEntries .copy path = some names) : names.Perm (host.names path) := by
  unfold listSortedDirEntries at listed
  rw [keptEntry_child] at listed
  split at listed
  · cases listed
  · obtain rfl := Option.some.inj listed
    exact List.mergeSort_perm _ _

/-- The names lead from a directory to something in the tree, where each directory holds these. -/
def Along (host : Host) (holds : HostPath → List HostName) : HostPath → HostPath → Prop
  | _, [] => True
  | path, name :: rest =>
      name ∈ holds path ∧ (rest ≠ [] → host.kind (path ++ [name]) = .directory) ∧
        host.Along holds (path ++ [name]) rest

/-- A path of something that is to be copied. -/
def Wanted (host : Host) (path : HostPath) : Prop :=
  host.kind path = .regular ∨ host.kind path = .directory

end Host

namespace Ntfs3g

variable (lib : Ntfs3g W Ref) (host : Host)

/-- Looking up one name after the other on the volume. -/
inductive Resolves (w : W) : Ref → HostPath → Ref → Prop
  | here {ref : Ref} : Resolves w ref [] ref
  | down {dir ref last : Ref} {name : HostName} {uname : NtfsName} {rest : HostPath} :
      lib.utf8ToNtfsComponent name.bytes = some uname → lib.entry w dir uname = some ref →
      Resolves w ref rest last → Resolves w dir (name :: rest) last

/-- The record is a copy of what is at the host path; a directory has no name that `readdir` did
not return. -/
def Copy (w : W) (ref : Ref) (path : HostPath) : Prop :=
  match host.kind path with
  | .regular => lib.kind w ref = .regular ∧ lib.data w ref = host.content path
  | .directory => lib.kind w ref = .directory ∧ ∀ name, name ∉ host.names path →
      ∀ uname, lib.utf8ToNtfsComponent name.bytes = some uname → lib.entry w ref uname = none
  | _ => True

/-- The names lead to records that were not in use before. -/
inductive Chain (before w : W) : Ref → HostPath → Ref → Prop
  | last {dir ref : Ref} {name : HostName} {uname : NtfsName} :
      lib.utf8ToNtfsComponent name.bytes = some uname → lib.entry w dir uname = some ref →
      ¬lib.used before ref → lib.used w ref → Chain before w dir [name] ref
  | down {dir ref last : Ref} {name : HostName} {uname : NtfsName} {rest : HostPath} :
      lib.utf8ToNtfsComponent name.bytes = some uname → lib.entry w dir uname = some ref →
      ¬lib.used before ref → lib.used w ref → Chain before w ref rest last →
      Chain before w dir (name :: rest) last

/-- All that `readdir` returns under a directory has its copy. -/
def Copied (before w : W) (dir : Ref) (path : HostPath) : Prop :=
  ∀ rel, rel ≠ [] → host.Along host.names path rel → host.Wanted (path ++ rel) →
    ∃ ref, lib.Chain before w dir rel ref ∧ lib.Copy host w ref (path ++ rel)

end Ntfs3g

section Tree

variable {lib : Ntfs3g W Ref} {host : Host} {w w' before start : W} {dir ref last changed : Ref}
  {path rel : HostPath} {names : Set NtfsName}

theorem Ntfs3g.Chain.used (chain : lib.Chain before w dir rel ref) :
    ¬lib.used before ref ∧ lib.used w ref := by
  induction chain with
  | last _ _ fresh used => exact ⟨fresh, used⟩
  | down _ _ _ _ _ ih => exact ih

theorem Ntfs3g.Chain.resolves (chain : lib.Chain before w dir rel ref) :
    lib.Resolves w dir rel ref := by
  induction chain with
  | last component named => exact .down component named .here
  | down component named _ _ _ ih => exact .down component named ih

/-- Records that were not in use before a state were not in use before an earlier one. -/
theorem Ntfs3g.Chain.weaken (chain : lib.Chain before w dir rel ref)
    (used : ∀ ref, lib.used start ref → lib.used before ref) :
    lib.Chain start w dir rel ref := by
  induction chain with
  | last component named fresh here =>
    exact .last component named (fun old => fresh (used _ old)) here
  | down component named fresh here _ ih =>
    exact .down component named (fun old => fresh (used _ old)) here ih

/-- Later steps in a directory that was there before leave a chain below another one. -/
theorem Ntfs3g.Chain.grown (chain : lib.Chain before w dir rel ref)
    (grown : lib.Grown changed names w w') (old : lib.used before changed) (other : dir ≠ changed)
    (used : lib.used w dir) : lib.Chain before w' dir rel ref := by
  induction chain with
  | last component named fresh here =>
    exact .last component ((grown.entry _ _ used (.inl other)).trans named) fresh
      (grown.used _ here)
  | down component named fresh here _ ih =>
    refine .down component ((grown.entry _ _ used (.inl other)).trans named) fresh
      (grown.used _ here) (ih ?_ here)
    rintro rfl
    exact fresh old

theorem Ntfs3g.Copy.grown (copy : lib.Copy host w ref path) (grown : lib.Grown changed names w w')
    (used : lib.used w ref) (other : ref ≠ changed) : lib.Copy host w' ref path := by
  unfold Ntfs3g.Copy at copy ⊢
  split
  · rename_i regular
    rw [regular] at copy
    exact ⟨(grown.kind ref used).trans copy.1, (grown.data ref used).trans copy.2⟩
  · rename_i directory
    rw [directory] at copy
    refine ⟨(grown.kind ref used).trans copy.1, fun name outside uname component => ?_⟩
    exact (grown.entry ref uname used (.inl other)).trans (copy.2 name outside uname component)
  · trivial

theorem Ntfs3g.Copied.grown (copied : lib.Copied host before w dir path)
    (grown : lib.Grown changed names w w') (old : lib.used before changed) (other : dir ≠ changed)
    (used : lib.used w dir) : lib.Copied host before w' dir path := by
  intro rel some_names along wanted
  obtain ⟨ref, chain, copy⟩ := copied rel some_names along wanted
  obtain ⟨fresh, here⟩ := chain.used
  refine ⟨ref, chain.grown grown old other used, copy.grown grown here ?_⟩
  rintro rfl
  exact fresh old

/-- What has become of one name of a directory. -/
def Ntfs3g.Entered (lib : Ntfs3g W Ref) (host : Host) (before w : W) (dir : Ref) (path : HostPath)
    (name : HostName) : Prop :=
  host.Wanted (path ++ [name]) → ∃ uname ref, lib.utf8ToNtfsComponent name.bytes = some uname ∧
    lib.entry w dir uname = some ref ∧ ¬lib.used before ref ∧ lib.used w ref ∧
    lib.Copy host w ref (path ++ [name]) ∧
    (host.kind (path ++ [name]) = .directory → lib.Copied host before w ref (path ++ [name]))

/-- The texts that names are converted to. -/
def Ntfs3g.texts (lib : Ntfs3g W Ref) (names : List HostName) : Set NtfsName :=
  fun uname => ∃ name ∈ names, lib.utf8ToNtfsComponent name.bytes = some uname

theorem Ntfs3g.Entered.grown {name : HostName} (entered : lib.Entered host before w dir path name)
    (grown : lib.Grown dir names w w') (old : lib.used before dir) (used : lib.used w dir)
    (others : ∀ uname, lib.utf8ToNtfsComponent name.bytes = some uname → uname ∉ names) :
    lib.Entered host before w' dir path name := by
  intro wanted
  obtain ⟨uname, ref, component, named, fresh, here, copy, inside⟩ := entered wanted
  have other : ref ≠ dir := by
    rintro rfl
    exact fresh old
  refine ⟨uname, ref, component, ?_, fresh, grown.used ref here, copy.grown grown here other, ?_⟩
  · exact (grown.entry dir uname used (.inr (others uname component))).trans named
  · exact fun directory => (inside directory).grown grown old other here

/-- Where every name that was returned is entered, all that is under the directory is copied. -/
theorem copied_of_entered (entered : ∀ name ∈ host.names path, lib.Entered host before w dir path name) :
    lib.Copied host before w dir path := by
  intro rel some_names along wanted
  cases rel with
  | nil => exact absurd rfl some_names
  | cons name rest =>
    obtain ⟨inside, directory, along⟩ := along
    cases rest with
    | nil =>
      obtain ⟨uname, ref, component, named, fresh, here, copy, -⟩ := entered name inside wanted
      exact ⟨ref, .last component named fresh here, copy⟩
    | cons next rest =>
      have isDir := directory (by simp)
      obtain ⟨uname, ref, component, named, fresh, here, -, below⟩ :=
        entered name inside (.inr isDir)
      have split : path ++ name :: next :: rest = path ++ [name] ++ next :: rest := by simp
      rw [split] at wanted
      obtain ⟨last, chain, copy⟩ := below isDir (next :: rest) (by simp) along wanted
      rw [← split] at copy
      exact ⟨last, .down component named fresh here chain, copy⟩

/-- What copying a directory that was empty does when it succeeds. -/
def Ntfs3g.Fills (lib : Ntfs3g W Ref) (host : Host) (w w' : W) (dir : Ref) (path : HostPath) : Prop :=
  lib.Grown dir Set.univ w w' ∧ lib.Copied host w w' dir path ∧
    ∀ name, name ∉ host.names path → ∀ uname, lib.utf8ToNtfsComponent name.bytes = some uname →
      lib.entry w' dir uname = none

theorem Ntfs3g.Same.refl : lib.Same w w where
  used _ := Iff.rfl
  kind _ _ := rfl
  data _ _ := rfl
  entry _ _ _ := rfl

theorem Ntfs3g.Copied.weaken (copied : lib.Copied host before w dir path)
    (used : ∀ ref, lib.used start ref → lib.used before ref) :
    lib.Copied host start w dir path := by
  intro rel some_names along wanted
  obtain ⟨ref, chain, copy⟩ := copied rel some_names along wanted
  exact ⟨ref, chain.weaken used, copy⟩

/-- A directory that was made, filled and closed. -/
theorem directory_entered {name : HostName} {uname : NtfsName} {sub : Ref} {w₁ w₂ w₃ : W}
    (there : lib.used before dir) (isDir : host.kind (path ++ [name]) = .directory) (used : lib.used w dir)
    (old : ∀ ref, lib.used before ref → lib.used w ref)
    (component : lib.utf8ToNtfsComponent name.bytes = some uname) (fresh : ¬lib.used w sub)
    (here : lib.used w₁ sub) (grown : lib.Grown dir {uname} w w₁)
    (named : lib.entry w₁ dir uname = some sub) (kind : lib.kind w₁ sub = .directory)
    (fills : lib.Fills host w₁ w₂ sub (path ++ [name])) (closed : lib.Same w₂ w₃) :
    lib.Grown dir {uname} w w₃ ∧ lib.Entered host before w₃ dir path name := by
  obtain ⟨inside, copied, only⟩ := fills
  have other : dir ≠ sub := by
    rintro rfl
    exact fresh used
  have dir₁ := grown.used dir used
  have dir₂ := inside.used dir dir₁
  have here₂ := inside.used sub here
  have here₃ := (closed.used sub).mpr here₂
  refine ⟨(grown.inside fresh inside).same closed, fun _ => ?_⟩
  refine ⟨uname, sub, component, ?_, fun early => fresh (old sub early), here₃, ?_, fun _ => ?_⟩
  · rw [closed.entry dir uname dir₂, inside.entry dir uname dir₁ (.inl other), named]
  · unfold Ntfs3g.Copy
    rw [isDir]
    refine ⟨?_, fun missing outside text component => ?_⟩
    · rw [closed.kind sub here₂, inside.kind sub here, kind]
    · rw [closed.entry sub text here₂]
      exact only missing outside text component
  · have weaker : lib.Copied host before w₂ sub (path ++ [name]) :=
      copied.weaken fun ref early => grown.used ref (old ref early)
    have unchanged : lib.Grown dir ∅ w₂ w₃ := closed.grown
    exact weaker.grown unchanged there (Ne.symm other) here₂

theorem copyEntries_spec (behaves : lib.Behaves)
    {below : (name : HostName) → host.pathLength (path ++ [name]) < Host.pathMax → W → Ref → W × Bool}
    (fills : ∀ name fits w sub w', lib.used w sub → (∀ uname, lib.entry w sub uname = none) →
      below name fits w sub = (w', true) → lib.Fills host w w' sub (path ++ [name]))
    {left : List HostName} (once : left.Nodup) (old : ∀ ref, lib.used before ref → lib.used w ref)
    (there : lib.used before dir)
    (absent : ∀ name ∈ left, ∀ uname, lib.utf8ToNtfsComponent name.bytes = some uname →
      lib.entry w dir uname = none)
    (done : lib.copyEntries host path below dir left w = (w', true)) :
    lib.Grown dir (lib.texts left) w w' ∧
      ∀ name ∈ left, lib.Entered host before w' dir path name := by
  induction left generalizing w with
  | nil =>
    obtain ⟨rfl, -⟩ := Prod.mk.inj done
    exact ⟨Ntfs3g.Same.refl.grown, fun name inside => absurd inside (by simp)⟩
  | cons name left ih =>
    obtain ⟨outside, once⟩ := List.nodup_cons.mp once
    have used := old dir there
    have mine := absent name List.mem_cons_self
    -- one step, and what the later ones leave of it
    have step (w₁ : W) (grown : lib.Grown dir (lib.texts [name]) w w₁)
        (entered : lib.Entered host before w₁ dir path name)
        (rest : lib.copyEntries host path below dir left w₁ = (w', true)) :
        lib.Grown dir (lib.texts (name :: left)) w w' ∧
          ∀ other ∈ name :: left, lib.Entered host before w' dir path other := by
      have apart (uname : NtfsName) (component : lib.utf8ToNtfsComponent name.bytes = some uname) :
          uname ∉ lib.texts left := by
        rintro ⟨other, inside, same⟩
        rw [component_injective behaves component same] at outside
        exact outside inside
      have absent₁ (other : HostName) (inside : other ∈ left) (uname : NtfsName)
          (component : lib.utf8ToNtfsComponent other.bytes = some uname) :
          lib.entry w₁ dir uname = none := by
        have different : uname ∉ lib.texts [name] := by
          rintro ⟨first, member, same⟩
          rw [List.mem_singleton.mp member] at same
          exact apart uname same ⟨other, inside, component⟩
        rw [grown.entry dir uname used (.inr different)]
        exact absent other (List.mem_cons_of_mem _ inside) uname component
      obtain ⟨later, others⟩ := ih once (fun ref early => grown.used ref (old ref early)) absent₁ rest
      have whole := grown.trans later
      refine ⟨whole.mono ?_, ?_⟩
      · rintro uname (⟨first, member, component⟩ | ⟨other, inside, component⟩)
        · exact ⟨first, List.mem_cons.mpr (.inl (List.mem_singleton.mp member)), component⟩
        · exact ⟨other, List.mem_cons_of_mem _ inside, component⟩
      · intro other inside
        rcases List.mem_cons.mp inside with rfl | inside
        · exact entered.grown later there (grown.used dir used) apart
        · exact others other inside
    have single (uname : NtfsName) (component : lib.utf8ToNtfsComponent name.bytes = some uname) :
        {uname} ⊆ lib.texts [name] := by
      rintro _ rfl
      exact ⟨name, List.mem_cons_self, component⟩
    rw [Ntfs3g.copyEntries] at done
    split at done
    · split at done
      · cases done
      · split at done
        · rename_i fits _ _ isDir
          split at done
          · cases done
          · rename_i w₁ sub made
            obtain ⟨uname, component, fresh, here, grown, named, kind, empty⟩ :=
              ensureNtfsChildDir_spec behaves mine made
            split at done
            rename_i w₂ filled copied
            split at done
            rename_i w₃ closed shut
            split at done
            · rename_i both
              obtain ⟨rfl, rfl⟩ := Bool.and_eq_true_iff.mp both
              have same := behaves.inodeCloseInDir w₂ sub dir
              rw [shut] at same
              obtain ⟨steps, entered⟩ := directory_entered there isDir used old component fresh here
                grown named kind (fills name fits w₁ sub w₂ here empty copied) same
              exact step w₃ (steps.mono (single uname component)) entered done
            · cases done
        · rename_i regular
          split at done
          · cases done
          · rename_i w₁ wrote
            obtain ⟨uname, ref, component, fresh, here, grown, named, kind, data⟩ :=
              writeRegularFileIntoDir_spec behaves used mine wrote
            refine step w₁ (grown.mono (single uname component)) (fun _ => ?_) done
            refine ⟨uname, ref, component, named, fun early => fresh (old ref early), here, ?_, ?_⟩
            · unfold Ntfs3g.Copy
              rw [regular]
              exact ⟨kind, data⟩
            · rw [regular]
              rintro ⟨⟩
        · rename_i symlink
          split at done
          · cases done
          · rename_i w₁ linked
            obtain ⟨uname, component, grown⟩ := writeSymlinkIntoDir_spec behaves mine linked
            refine step w₁ (grown.mono (single uname component)) ?_ done
            rintro (wanted | wanted)
            · cases symlink.symm.trans wanted
            · cases symlink.symm.trans wanted
        · rename_i neither
          refine step w Ntfs3g.Same.refl.grown ?_ done
          rintro (wanted | wanted)
          · cases neither.symm.trans wanted
          · cases neither.symm.trans wanted
    · cases done

/-- Copying a directory onto an empty one. -/
theorem populateDirRec_spec (behaves : lib.Behaves) (used : lib.used w dir)
    (empty : ∀ uname, lib.entry w dir uname = none)
    (done : lib.populateDirRec host w dir path = (w', true)) : lib.Fills host w w' dir path := by
  induction depth : Host.pathMax - host.pathLength path using Nat.strongRecOn
    generalizing w w' dir path with
  | ind depth ih =>
    rw [Ntfs3g.populateDirRec] at done
    split at done
    · cases done
    · rename_i names listed
      have perm := Host.listSortedDirEntries_perm listed
      have once : names.Nodup := perm.nodup_iff.mpr (host.once .copy path)
      have fills (name : HostName) (fits : host.pathLength (path ++ [name]) < Host.pathMax) (w : W)
          (sub : Ref) (w' : W) (used : lib.used w sub) (empty : ∀ uname, lib.entry w sub uname = none)
          (done : lib.populateDirRec host w sub (path ++ [name]) = (w', true)) :
          lib.Fills host w w' sub (path ++ [name]) := by
        have longer := host.pathLength_child path name
        exact ih _ (by omega) used empty done rfl
      obtain ⟨grown, entered⟩ := copyEntries_spec behaves fills once (fun _ => id) used
        (fun _ _ uname _ => empty uname) done
      refine ⟨grown.mono (Set.subset_univ _), ?_, fun name outside uname component => ?_⟩
      · exact copied_of_entered fun name inside => entered name (perm.mem_iff.mpr inside)
      · have other : uname ∉ lib.texts names := by
          rintro ⟨listed, inside, same⟩
          rw [component_injective behaves component same] at outside
          exact outside (perm.mem_iff.mp inside)
        exact (grown.entry dir uname used (.inr other)).trans (empty uname)

end Tree

/-! ### The volume -/

/-- Nothing was lost: every regular file of the tree is on the volume with its bytes, and every
directory is there. -/
def NothingLost (lib : Ntfs3g W Ref) (host : Host) (w : W) : Prop :=
  ∀ path, path ≠ [] → host.Along host.kids [] path →
    (host.kind path = .regular → ∃ ref, lib.Resolves w lib.root path ref ∧
      lib.kind w ref = .regular ∧ lib.data w ref = host.content path) ∧
    (host.kind path = .directory → ∃ ref, lib.Resolves w lib.root path ref ∧
      lib.kind w ref = .directory)

/-- `readdir` returns every regular file and directory of every directory in the tree. -/
def Host.ReadWhole (host : Host) : Prop :=
  ∀ path, host.Along host.kids [] path → (path ≠ [] → host.kind path = .directory) →
    ∀ name ∈ host.kids path, host.Wanted (path ++ [name]) → name ∈ host.names path

section Volume

variable {lib : Ntfs3g W Ref} {host : Host} {target : NtfsTarget W} {w w' : W} {first second dir : Ref}
  {path rel : HostPath}

theorem Ntfs3g.Resolves.unique (one : lib.Resolves w dir rel first)
    (other : lib.Resolves w dir rel second) : first = second := by
  induction one with
  | here =>
    cases other
    rfl
  | down component named _ ih =>
    cases other with
    | down component' named' later =>
      rw [component] at component'
      obtain rfl := Option.some.inj component'
      rw [named] at named'
      obtain rfl := Option.some.inj named'
      exact ih later

theorem Ntfs3g.Chain.same {before : W} (chain : lib.Chain before w dir rel first)
    (same : lib.Same w w') (used : lib.used w dir) : lib.Chain before w' dir rel first := by
  induction chain with
  | last component named fresh here =>
    exact .last component ((same.entry _ _ used).trans named) fresh ((same.used _).mpr here)
  | down component named fresh here _ ih =>
    exact .down component ((same.entry _ _ used).trans named) fresh ((same.used _).mpr here) (ih here)

theorem Ntfs3g.Copy.same (copy : lib.Copy host w first path) (same : lib.Same w w')
    (used : lib.used w first) : lib.Copy host w' first path := by
  unfold Ntfs3g.Copy at copy ⊢
  split
  · rename_i regular
    rw [regular] at copy
    exact ⟨(same.kind first used).trans copy.1, (same.data first used).trans copy.2⟩
  · rename_i directory
    rw [directory] at copy
    exact ⟨(same.kind first used).trans copy.1, fun name outside uname component =>
      (same.entry first uname used).trans (copy.2 name outside uname component)⟩
  · trivial

/-- A volume on which everything that was listed is copied, and the root has nothing else. -/
def Ntfs3g.Holds (lib : Ntfs3g W Ref) (host : Host) (before w : W) : Prop :=
  lib.used w lib.root ∧ lib.Copied host before w lib.root [] ∧
    ∀ name, name ∉ host.names [] → ∀ uname, lib.utf8ToNtfsComponent name.bytes = some uname →
      lib.entry w lib.root uname = none

theorem Ntfs3g.Holds.same {before : W} (holds : lib.Holds host before w) (same : lib.Same w w') :
    lib.Holds host before w' := by
  obtain ⟨used, copied, only⟩ := holds
  refine ⟨(same.used lib.root).mpr used, ?_, fun name outside uname component => ?_⟩
  · intro rel some_names along wanted
    obtain ⟨ref, chain, copy⟩ := copied rel some_names along wanted
    exact ⟨ref, chain.same same used, copy.same same chain.used.2⟩
  · exact (same.entry lib.root uname used).trans (only name outside uname component)

theorem openNtfsRw_empty (behaves : lib.Behaves)
    (empty : ∀ device mounted, target.mounted device = some mounted → lib.Empty mounted)
    (opened : lib.openNtfsRw target = some w) : lib.Empty w := by
  unfold Ntfs3g.openNtfsRw at opened
  split at opened
  · cases opened
  · split at opened
    · cases opened
    · cases opened
    · split at opened
      · cases opened
      · rename_i mounted found
        split at opened
        · cases opened
        · rename_i w₁ set
          obtain rfl := Option.some.inj opened
          obtain ⟨used, kind, entry⟩ := empty _ mounted found
          have same := behaves.setIgnoreCase mounted
          rw [set] at same
          exact ⟨(same.used lib.root).mpr used, (same.kind lib.root used).trans kind,
            fun name => (same.entry lib.root name used).trans (entry name)⟩

theorem closeNtfsRw_same {hadError : Bool} (behaves : lib.Behaves)
    (closed : lib.closeNtfsRw target hadError w = some w') : lib.Same w w' ∧ hadError = false := by
  unfold Ntfs3g.closeNtfsRw at closed
  split at closed
  · cases closed
  · rename_i w₁ unmounted
    split at closed
    · cases closed
    · rename_i going
      split at closed
      · cases closed
      · rename_i w₂ fixed
        obtain rfl := Option.some.inj closed
        have first := behaves.umount _ _ unmounted
        have second := behaves.ntfsfix _ _ fixed
        refine ⟨⟨fun ref => (second.used ref).trans (first.used ref), fun ref used => ?_,
          fun ref used => ?_, fun ref name used => ?_⟩, ?_⟩
        · exact (second.kind ref ((first.used ref).mpr used)).trans (first.kind ref used)
        · exact (second.data ref ((first.used ref).mpr used)).trans (first.data ref used)
        · exact (second.entry ref name ((first.used ref).mpr used)).trans (first.entry ref name used)
        · have both : hadError = false ∧ target.haveNtfsfix = true := by simpa using going
          exact both.1

/-- What a run that succeeded has left. -/
theorem rufuxNtfsPopulateDir_spec (behaves : lib.Behaves)
    (empty : ∀ device mounted, target.mounted device = some mounted → lib.Empty mounted)
    (success : lib.rufuxNtfsPopulateDir host target = some w) : ∃ before, lib.Holds host before w := by
  unfold Ntfs3g.rufuxNtfsPopulateDir at success
  split at success
  · cases success
  · split at success
    · cases success
    · split at success
      · cases success
      · rename_i w₀ opened
        have blank := openNtfsRw_empty behaves empty opened
        have same := behaves.inodeOpen w₀ lib.root
        split at success
        · have failed := (closeNtfsRw_same behaves success).2
          cases failed
        · rename_i w₁ rootOpened
          rw [rootOpened] at same
          have used := (same.used lib.root).mpr blank.used
          have empty₁ (uname : NtfsName) : lib.entry w₁ lib.root uname = none :=
            (same.entry lib.root uname blank.used).trans (blank.entry uname)
          split at success
          rename_i w₂ done copied
          split at success
          rename_i w₃ closed shut
          obtain ⟨last, both⟩ := closeNtfsRw_same behaves success
          obtain ⟨rfl, rfl⟩ : done = true ∧ closed = true := by simpa using both
          obtain ⟨grown, filled, only⟩ := populateDirRec_spec behaves used empty₁ copied
          have holds : lib.Holds host w₁ w₂ := ⟨grown.used lib.root used, filled, only⟩
          have left := behaves.inodeClose w₂ lib.root
          rw [shut] at left
          exact ⟨w₁, (holds.same left).same last⟩

theorem along_concat {holds : HostPath → List HostName} {base : HostPath} {name : HostName} :
    host.Along holds base (path ++ [name]) ↔ host.Along holds base path ∧
      (path ≠ [] → host.kind (base ++ path) = .directory) ∧ name ∈ holds (base ++ path) := by
  induction path generalizing base with
  | nil => simp [Host.Along]
  | cons first path ih =>
    rw [List.cons_append, Host.Along, Host.Along, ih, List.append_cons base first path]
    constructor
    · rintro ⟨inside, directory, along, later, last⟩
      refine ⟨⟨inside, fun _ => directory (by simp), along⟩, fun _ => ?_, last⟩
      cases path with
      | nil => simpa using directory (by simp)
      | cons second path => exact later (by simp)
    · rintro ⟨⟨inside, directory, along⟩, whole, last⟩
      refine ⟨inside, fun _ => ?_, along, fun _ => whole (by simp), last⟩
      cases path with
      | nil => simpa using whole (by simp)
      | cons second path => exact directory (by simp)

theorem resolves_concat {name : HostName} (resolves : lib.Resolves w dir (path ++ [name]) first) :
    ∃ middle uname, lib.Resolves w dir path middle ∧
      lib.utf8ToNtfsComponent name.bytes = some uname ∧ lib.entry w middle uname = some first := by
  induction path generalizing dir with
  | nil =>
    cases resolves with
    | down component named last =>
      cases last
      exact ⟨dir, _, .here, component, named⟩
  | cons next path ih =>
    cases resolves with
    | down component named later =>
      obtain ⟨middle, uname, inside, last, found⟩ := ih later
      exact ⟨middle, uname, .down component named inside, last, found⟩

/-- Where the listings have what is in the directories they reach, they have every path. -/
theorem along_names
    (whole : ∀ path name, host.Along host.names [] path → host.Along host.kids [] path →
      (path ≠ [] → host.kind path = .directory) → name ∈ host.kids path →
      host.Wanted (path ++ [name]) → name ∈ host.names path)
    (along : host.Along host.kids [] path) (wanted : path ≠ [] → host.Wanted path) :
    host.Along host.names [] path := by
  induction path using List.reverseRecOn with
  | nil => trivial
  | append_singleton path name ih =>
    obtain ⟨before, directory, inside⟩ := along_concat.mp along
    rw [List.nil_append] at directory inside
    have listed := ih before fun some_names => .inr (directory some_names)
    exact along_concat.mpr ⟨listed, directory,
      whole path name listed before directory inside (wanted (by simp))⟩

/-- Where the copy succeeded, nothing was lost exactly if `readdir` returned every regular file and
every directory; it returns nothing more after an error either, which is not told from the end. -/
theorem populate_iff (behaves : lib.Behaves)
    (empty : ∀ device mounted, target.mounted device = some mounted → lib.Empty mounted)
    (success : lib.rufuxNtfsPopulateDir host target = some w) :
    NothingLost lib host w ↔ host.ReadWhole := by
  obtain ⟨before, used, copied, only⟩ := rufuxNtfsPopulateDir_spec behaves empty success
  constructor
  · intro kept
    -- a name that was not listed has no entry in the copy of its directory
    have whole (path : HostPath) (name : HostName) (listed : host.Along host.names [] path)
        (along : host.Along host.kids [] path) (directory : path ≠ [] → host.kind path = .directory)
        (inside : name ∈ host.kids path) (wanted : host.Wanted (path ++ [name])) :
        name ∈ host.names path := by
      by_contra outside
      have child := kept (path ++ [name]) (by simp) (along_concat.mpr ⟨along, directory, inside⟩)
      obtain ⟨ref, resolves⟩ : ∃ ref, lib.Resolves w lib.root (path ++ [name]) ref := by
        rcases wanted with regular | isDir
        · obtain ⟨ref, resolves, -⟩ := child.1 regular
          exact ⟨ref, resolves⟩
        · obtain ⟨ref, resolves, -⟩ := child.2 isDir
          exact ⟨ref, resolves⟩
      obtain ⟨middle, uname, above, component, named⟩ := resolves_concat resolves
      have missing : lib.entry w middle uname = none := by
        by_cases top : path = []
        · subst top
          cases above
          exact only name outside uname component
        · have isDir := directory top
          obtain ⟨copy, chain, same⟩ := copied path top listed (.inr isDir)
          rw [← chain.resolves.unique above]
          unfold Ntfs3g.Copy at same
          rw [List.nil_append, isDir] at same
          exact same.2 name outside uname component
      rw [named] at missing
      cases missing
    intro path along directory name inside wanted
    have listed := along_names whole along fun some_names => .inr (directory some_names)
    exact whole path name listed along directory inside wanted
  · intro readWhole path some_names along
    have listed (wanted : host.Wanted path) : host.Along host.names [] path :=
      along_names (fun path name _ along directory inside wanted =>
        readWhole path along directory name inside wanted) along fun _ => wanted
    constructor
    · intro regular
      obtain ⟨ref, chain, same⟩ := copied path some_names (listed (.inl regular)) (.inl regular)
      unfold Ntfs3g.Copy at same
      rw [List.nil_append, regular] at same
      exact ⟨ref, chain.resolves, same.1, same.2⟩
    · intro isDir
      obtain ⟨ref, chain, same⟩ := copied path some_names (listed (.inr isDir)) (.inr isDir)
      unfold Ntfs3g.Copy at same
      rw [List.nil_append, isDir] at same
      exact ⟨ref, chain.resolves, same.1⟩

end Volume

/-! ### A volume in memory -/

structure MemoryVolume where
  size : Nat
  entry : Nat → NtfsName → Option Nat
  kind : Nat → NtfsKind
  data : Nat → List UInt8

namespace MemoryVolume

def make (w : MemoryVolume) (dir : Nat) (name : NtfsName) (kind : NtfsKind) :
    MemoryVolume × Option Nat :=
  if dir < w.size then
    ({ size := w.size + 1
       entry := fun ref text =>
        if ref = dir ∧ text = name then some w.size
        else if ref = w.size then none
        else w.entry ref text
       kind := fun ref => if ref = w.size then kind else w.kind ref
       data := fun ref => if ref = w.size then [] else w.data ref }, some w.size)
  else (w, none)

def store (w : MemoryVolume) (ref : Nat) (bytes : List UInt8) : MemoryVolume :=
  { w with data := fun other => if other = ref then bytes else w.data other }

/-- Every call succeeds, and every write is whole. -/
def calls : Ntfs3g MemoryVolume Nat where
  root := 0
  used w ref := ref < w.size
  entry := entry
  kind := kind
  data := data
  mbstoucs bytes := some (bytes.map UInt8.toUInt16)
  lookup w dir name :=
    (w, match w.entry dir name with
      | some ref => .found ref
      | none => .absent)
  inodeOpen w _ := (w, true)
  create := make
  createSymlink w dir name _ := w.make dir name .reparse
  attrOpen w _ := (w, true)
  truncate w ref := (w.store ref [], true)
  pwrite w ref pos bytes :=
    (w.store ref ((w.data ref).take pos ++ bytes ++ (w.data ref).drop (pos + bytes.length)),
      bytes.length)
  attrPclose w _ := (w, true)
  inodeCloseInDir w _ _ := (w, true)
  inodeClose w _ := (w, true)
  setIgnoreCase w := (w, true)
  umount w := (w, true)
  ntfsfix w := (w, true)

theorem make_made {w w' : MemoryVolume} {dir ref : Nat} {name : NtfsName} {kind : NtfsKind}
    (made : w.make dir name kind = (w', some ref)) : calls.Made w dir name kind ref w' := by
  unfold make at made
  split at made
  · rename_i inside
    obtain ⟨rfl, same⟩ := Prod.mk.inj made
    obtain rfl := Option.some.inj same
    have other (ref : Nat) (used : ref < w.size) : ref ≠ w.size := Nat.ne_of_lt used
    refine ⟨Nat.lt_irrefl _, fun ref => Nat.lt_succ_iff_lt_or_eq, ?_, ?_, ?_, fun name => ?_,
      fun ref used => ?_, fun ref used => ?_, fun ref text used outside => ?_⟩
    · simp [calls]
    · simp [calls]
    · simp [calls]
    · have apart : w.size ≠ dir := Nat.ne_of_gt inside
      simp [calls, apart]
    · simp [calls, other ref used]
    · simp [calls, other ref used]
    · have apart : ¬(ref = dir ∧ text = name) := fun both =>
        outside.elim (fun no => no both.1) fun no => no both.2
      simp [calls, apart, other ref used]
  · cases made

theorem store_wrote (w : MemoryVolume) (ref : Nat) (bytes : List UInt8) :
    calls.Wrote w ref bytes (w.store ref bytes) where
  used _ := Iff.rfl
  kind _ _ := rfl
  data _ _ different := if_neg different
  entry _ _ _ := rfl
  new := if_pos rfl

theorem calls_behave : calls.Behaves where
  injective first second text one other := by
    have same := (Option.some.inj one).trans (Option.some.inj other).symm
    exact List.map_injective_iff.mpr (fun _ _ => UInt8.toUInt16_inj.mp) same
  lookup _ _ _ := .refl
  found w dir name ref found := by
    simp only [calls] at found ⊢
    split at found
    · rename_i here
      rw [here, Lookup.found.inj found]
    · cases found
  absent w dir name absent := by
    simp only [calls] at absent ⊢
    split at absent
    · cases absent
    · assumption
  inodeOpen _ _ := .refl
  create _ _ _ _ _ _ made := make_made made
  createSymlink _ _ _ _ _ _ made := make_made made
  attrOpen _ _ := .refl
  truncate w ref w' done := by
    obtain ⟨rfl, -⟩ := Prod.mk.inj done
    exact store_wrote w ref []
  pwrite w ref pos bytes w' count wrote _ := by
    obtain ⟨rfl, rfl⟩ := Prod.mk.inj wrote
    refine ⟨Nat.le_refl _, fun _ => ?_⟩
    rw [List.take_length]
    exact store_wrote w ref _
  attrPclose _ _ := .refl
  inodeCloseInDir _ _ _ := .refl
  inodeClose _ _ := .refl
  setIgnoreCase _ := .refl
  umount _ _ done := by
    obtain ⟨rfl, -⟩ := Prod.mk.inj done
    exact .refl
  ntfsfix _ _ done := by
    obtain ⟨rfl, -⟩ := Prod.mk.inj done
    exact .refl

end MemoryVolume

def blankVolume : MemoryVolume where
  size := 1
  entry _ _ := none
  kind _ := .directory
  data _ := []

def imageTarget : NtfsTarget MemoryVolume where
  path := [47, 105]
  isBootDisk := false
  nodeIsBootDisk := false
  kind := some .regular
  mount := .ok blankVolume
  remount := none
  haveNtfsfix := true

def fileName : HostName := ⟨[97], by decide, by decide, by decide, by decide, by decide⟩

theorem listing_once (entries : List DirEntry) (short : entries = [] ∨ entries = [.child fileName])
    (path : HostPath) :
    ((if path = [] then entries else []).filterMap DirEntry.child?).Nodup ∧
      ∀ name ∈ (if path = [] then entries else []).filterMap DirEntry.child?,
        name ∈ if path = [] then [fileName] else [] := by
  split
  · rcases short with rfl | rfl
    · simp
    · simp [DirEntry.child?]
  · simp

/-- A source with one file, of which `readdir` returns these entries. -/
def oneFile (entries : List DirEntry) (short : entries = [] ∨ entries = [.child fileName]) : Host where
  source := [47, 115]
  isDir := true
  kids path := if path = [] then [fileName] else []
  kind path := if path = [] then .directory else .regular
  content _ := [1, 2]
  opendir _ _ := true
  readdir _ path := if path = [] then entries else []
  lstat _ _ := true
  opens _ := true
  reads _ := [.moved 1]
  readlink _ := none
  once _ path := (listing_once entries short path).1
  held _ path := (listing_once entries short path).2

def readHost : Host := oneFile [.child fileName] (.inr rfl)

/-- The same source with a read error at its directory. -/
def cutHost : Host := oneFile [] (.inl rfl)

theorem imageTarget_empty (device : Bool) (mounted : MemoryVolume)
    (found : imageTarget.mounted device = some mounted) : MemoryVolume.calls.Empty mounted := by
  obtain rfl := Option.some.inj found
  exact ⟨Nat.one_pos, rfl, fun _ => rfl⟩

/-- A copy onto the blank volume that succeeds makes the whole run succeed. -/
theorem image_populated {host : Host} {w : MemoryVolume} (source : host.source ≠ [])
    (isDir : host.isDir = true) (scanned : host.prescanDirBytes [] = true)
    (copied : MemoryVolume.calls.populateDirRec host blankVolume MemoryVolume.calls.root [] =
      (w, true)) :
    MemoryVolume.calls.rufuxNtfsPopulateDir host imageTarget = some w := by
  have opened : MemoryVolume.calls.openNtfsRw imageTarget = some blankVolume := rfl
  have root : MemoryVolume.calls.inodeOpen blankVolume MemoryVolume.calls.root =
      (blankVolume, true) := rfl
  have guards : ¬(imageTarget.path = [] ∨ imageTarget.isBootDisk = true ∨ host.source = [] ∨
      (!host.isDir) = true) := by
    simp [imageTarget, source, isDir]
  unfold Ntfs3g.rufuxNtfsPopulateDir
  rw [if_neg guards, scanned, opened]
  dsimp only
  rw [root]
  dsimp only
  rw [copied]
  rfl

theorem cutHost_succeeds :
    MemoryVolume.calls.rufuxNtfsPopulateDir cutHost imageTarget = some blankVolume := by
  have listed (pass : Pass) : cutHost.listSortedDirEntries pass [] = some [] := by
    simp [Host.listSortedDirEntries, cutHost, oneFile]
  refine image_populated (by simp [cutHost, oneFile]) rfl ?_ ?_
  · rw [Host.prescanDirBytes, listed]
    rfl
  · rw [Ntfs3g.populateDirRec, listed]
    rfl

/-- A run that succeeds can lose a file: `readdir` ended with an error before it. -/
theorem populate_loses : ¬∀ (host : Host) (target : NtfsTarget MemoryVolume) (w : MemoryVolume),
    (∀ device mounted, target.mounted device = some mounted → MemoryVolume.calls.Empty mounted) →
    MemoryVolume.calls.rufuxNtfsPopulateDir host target = some w →
    NothingLost MemoryVolume.calls host w := by
  intro kept
  have lost := kept cutHost imageTarget blankVolume imageTarget_empty cutHost_succeeds [fileName]
    (by simp) ⟨by simp [cutHost, oneFile], by simp, trivial⟩
  obtain ⟨ref, resolves, -⟩ := lost.1 (by simp [cutHost, oneFile])
  cases resolves with
  | down _ named _ => cases named

theorem writeChunk_ends (w : MemoryVolume) (ni pos : Nat) (bytes : List UInt8) :
    ∃ w', MemoryVolume.calls.writeChunk w ni pos bytes = (w', true) := by
  cases bytes with
  | nil => exact ⟨w, by rw [Ntfs3g.writeChunk, if_pos rfl]⟩
  | cons byte bytes =>
    refine ⟨(MemoryVolume.calls.pwrite w ni pos (byte :: bytes)).1, ?_⟩
    have written : MemoryVolume.calls.pwrite w ni pos (byte :: bytes) =
        ((MemoryVolume.calls.pwrite w ni pos (byte :: bytes)).1, bytes.length + 1) := rfl
    rw [Ntfs3g.writeChunk, if_neg (by simp), written]
    dsimp only
    rw [List.drop_eq_nil_of_le (by simp), Ntfs3g.writeChunk, if_pos rfl]

theorem copyData_ends (w : MemoryVolume) (ni pos : Nat) (turns : List ReadTurn) (rest : List UInt8)
    (works : .failed ∉ turns) :
    ∃ w', MemoryVolume.calls.copyData w ni pos turns rest = (w', true) := by
  have chunk (w : MemoryVolume) (pos : Nat) (bytes : List UInt8) {w' : MemoryVolume}
      (failed : MemoryVolume.calls.writeChunk w ni pos bytes = (w', false)) : False := by
    obtain ⟨_, done⟩ := writeChunk_ends w ni pos bytes
    rw [done] at failed
    cases failed
  fun_induction Ntfs3g.copyData MemoryVolume.calls w ni pos turns rest with
  | case1 w pos rest turns ih => exact ih fun later => works (List.mem_cons_of_mem _ later)
  | case2 => exact absurd List.mem_cons_self works
  | case3 w => exact ⟨w, rfl⟩
  | case4 w pos rest count turns some_rest bytes w₁ failed => exact (chunk w pos bytes failed).elim
  | case5 w pos rest count turns some_rest bytes w₁ wrote ih =>
    exact ih fun later => works (List.mem_cons_of_mem _ later)
  | case6 w => exact ⟨w, rfl⟩
  | case7 w pos rest some_rest bytes w₁ failed => exact (chunk w pos bytes failed).elim
  | case8 w pos rest some_rest bytes w₁ wrote ih => exact ih works

theorem readHost_succeeds :
    ∃ w, MemoryVolume.calls.rufuxNtfsPopulateDir readHost imageTarget = some w := by
  have listed (pass : Pass) : readHost.listSortedDirEntries pass [] = some [fileName] := by
    simp [Host.listSortedDirEntries, readHost, oneFile, Host.keptEntry_child, DirEntry.child?]
  obtain ⟨w, copied⟩ := copyData_ends (blankVolume.make 0 [97] .regular).1 1 0 [.moved 1] [1, 2]
    (by simp)
  refine ⟨w, image_populated (by simp [readHost, oneFile]) rfl ?_ ?_⟩
  · rw [Host.prescanDirBytes, listed]
    rfl
  · have wrote : MemoryVolume.calls.writeRegularFileIntoDir readHost blankVolume
        MemoryVolume.calls.root [] fileName = (w, true) := by
      have component : MemoryVolume.calls.utf8ToNtfsComponent fileName.bytes = some [97] := rfl
      have made : MemoryVolume.calls.openOrCreateFile blankVolume MemoryVolume.calls.root [97] =
          ((blankVolume.make 0 [97] .regular).1, some 1) := rfl
      have opens : (!readHost.opens ([] ++ [fileName])) = false := rfl
      unfold Ntfs3g.writeRegularFileIntoDir
      rw [component]
      dsimp only
      rw [opens, made]
      have empty : ¬(MemoryVolume.calls.data (blankVolume.make 0 [97] .regular).1 1).length ≠ 0 := by
        decide
      have opened : MemoryVolume.calls.attrOpen (blankVolume.make 0 [97] .regular).1 1 =
          ((blankVolume.make 0 [97] .regular).1, true) := rfl
      simp only [Bool.false_eq_true, if_false, opened, if_neg empty]
      have reads : readHost.reads ([] ++ [fileName]) = [.moved 1] := rfl
      have content : readHost.content ([] ++ [fileName]) = [1, 2] := rfl
      rw [reads, content, copied]
      rfl
    rw [Ntfs3g.populateDirRec, listed]
    dsimp only
    rw [Ntfs3g.copyEntries, dif_pos (by decide)]
    have seen : (!readHost.lstat .copy ([] ++ [fileName])) = false := rfl
    have regular : readHost.kind ([] ++ [fileName]) = .regular := rfl
    rw [seen, regular, wrote]
    rfl

theorem populate_iff_readHost : ∃ w,
    MemoryVolume.calls.rufuxNtfsPopulateDir readHost imageTarget = some w ∧
      (NothingLost MemoryVolume.calls readHost w ↔ readHost.ReadWhole) := by
  obtain ⟨w, success⟩ := readHost_succeeds
  exact ⟨w, success, populate_iff MemoryVolume.calls_behave imageTarget_empty success⟩

end Rufux.Macos.Populate
