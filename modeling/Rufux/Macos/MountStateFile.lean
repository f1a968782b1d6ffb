import Rufux.Library.LineReader
import Rufux.Macos.MountLife

/-!
The state file read back through the reader's buffers: which of the records that a mount leaves
come back as they were.
-/

namespace Rufux.Macos

open Library

/-- `PATH_MAX`. -/
def pathMax : Nat := 1024

/-- A `long` as an `int`. -/
def toInt (value : Int) : Int := Int.bmod value (2 ^ 32)

/-- What an entry says, in the fields of the record. -/
def MountState.keep (st : MountState) (entry : CString × CString) : MountState :=
  let (k, v) := entry
  if k = "kind".toList then { st with kind := v.take 31 }
  else if k = "pid".toList then { st with pid := toInt (atol v) }
  else if k = "dev".toList then { st with dev := v.take (pathMax - 1) }
  else if k = "canon_dev".toList then { st with canonDev := v.take (pathMax - 1) }
  else if k = "mnt".toList then { st with mnt := v.take (pathMax - 1) }
  else if k = "canon_mnt".toList then { st with canonMnt := v.take (pathMax - 1) }
  else if k = "attached_disk".toList then { st with attachedDisk := v.take 127 }
  else if k = "pidfile".toList then { st with pidfile := v.take (pathMax - 1) }
  else if k = "created_dir".toList then { st with createdDir := toInt (atol v) }
  else st

/-- `read_mount_state_file`, through `char line[PATH_MAX + 64]`. -/
def readStateFile (stateFile : UInt64) (text : CString) : Option MountState :=
  let lines := fgetsLines (pathMax + 64 - 1) text.length text
  let st := (lines.filterMap pieceEntry).foldl MountState.keep (.blank stateFile)
  if st.kind = [] then none else some st

/-- The records that `rufux_mount` builds, in their three branches. -/
def BuiltBy (script : MountScript) (dev : CString) (st : MountState) : Prop :=
  ∃ isDev mntDir,
    (∃ pid : Nat, pid < 2 ^ 31 ∧ st = nfsState script dev isDev mntDir pid) ∨
      (∃ created : Bool, st =
        { newState script dev diskutilKind true mntDir with
          createdDir := if created then 1 else 0 }) ∨
        ∃ out, st =
          { newState script dev hdiutilKind isDev mntDir with attachedDisk := attachedDisk out }

/-- The record in its buffers, which cut longer paths. -/
def MountState.clipped (st : MountState) : MountState :=
  { st with
    dev := st.dev.take (pathMax - 1)
    canonDev := st.canonDev.take (pathMax - 1)
    mnt := st.mnt.take (pathMax - 1)
    canonMnt := st.canonMnt.take (pathMax - 1)
    pidfile := st.pidfile.take (pathMax - 1) }

/-- No path holds a newline or ends in a carriage return. -/
structure MountState.Lined (st : MountState) : Prop where
  dev : PlainText st.dev
  canonDev : PlainText st.canonDev
  mnt : PlainText st.mnt
  canonMnt : PlainText st.canonMnt
  pidfile : PlainText st.pidfile

/-- What holds of any record in its buffers that is built: its paths fit, and its other fields are
words and small numbers. -/
structure MountState.Formed (st : MountState) : Prop where
  kind : PlainText st.kind ∧ st.kind ≠ [] ∧ st.kind.length ≤ 31
  pid : ∃ n : Nat, n < 2 ^ 31 ∧ st.pid = n
  attachedDisk : PlainText st.attachedDisk ∧ st.attachedDisk.length ≤ 127
  createdDir : ∃ n : Nat, n < 2 ^ 31 ∧ st.createdDir = n
  paths : ∀ path ∈ [st.dev, st.canonDev, st.mnt, st.canonMnt, st.pidfile],
    path.length ≤ pathMax - 1

theorem kind_plain {kind : CString} (known : kind ∈ [nfsKind, diskutilKind, hdiutilKind]) :
    PlainText kind ∧ kind ≠ [] ∧ kind.length ≤ 31 := by
  simp only [List.mem_cons, List.not_mem_nil, or_false] at known
  rcases known with rfl | rfl | rfl <;> exact ⟨.of_all (by decide), by decide, by decide⟩

theorem clipped_paths (st : MountState) :
    ∀ path ∈ [st.clipped.dev, st.clipped.canonDev, st.clipped.mnt, st.clipped.canonMnt,
      st.clipped.pidfile], path.length ≤ pathMax - 1 := by
  intro path member
  simp only [List.mem_cons, List.not_mem_nil, or_false] at member
  rcases member with rfl | rfl | rfl | rfl | rfl <;> exact List.length_take_le _ _

theorem BuiltBy.formed {script : MountScript} {dev : CString} {st : MountState}
    (built : BuiltBy script dev st) : st.clipped.Formed := by
  obtain ⟨isDev, mntDir, ⟨pid, small, rfl⟩ | ⟨created, rfl⟩ | ⟨out, rfl⟩⟩ := built
  · exact ⟨kind_plain (by simp [MountState.clipped, nfsState, newState]), ⟨pid, small, rfl⟩,
      ⟨plainText_nil, Nat.zero_le _⟩, ⟨1, by decide, rfl⟩, clipped_paths _⟩
  · refine ⟨kind_plain (by simp [MountState.clipped, newState]), ⟨0, by decide, rfl⟩,
      ⟨plainText_nil, Nat.zero_le _⟩, ?_, clipped_paths _⟩
    cases created with
    | true => exact ⟨1, by decide, rfl⟩
    | false => exact ⟨0, by decide, rfl⟩
  · exact ⟨kind_plain (by simp [MountState.clipped, newState]), ⟨0, by decide, rfl⟩,
      attachedDisk_plain out, ⟨1, by decide, rfl⟩, clipped_paths _⟩

variable {st : MountState}

theorem entries_keys : ∀ entry ∈ st.entries, PlainKey entry.1 ∧ entry.1.length ≤ 13 := by
  intro entry inside
  simp only [MountState.entries, List.mem_cons, List.not_mem_nil, or_false] at inside
  rcases inside with rfl | rfl | rfl | rfl | rfl | rfl | rfl | rfl | rfl <;>
    (refine ⟨⟨?_, ?_⟩, ?_⟩ <;> dsimp only <;> decide)

theorem decimal_length {n : Nat} (small : n < 2 ^ 31) : (decimal (n : Int)).length ≤ pathMax - 1 := by
  rw [decimal_natCast]
  have digits := Nat.toDigits_length 10 n 10 (by decide) (by omega)
  exact digits.trans (by decide)

theorem entries_values (formed : st.Formed) : ∀ entry ∈ st.entries,
    entry.2.length ≤ pathMax - 1 := by
  obtain ⟨pid, pidSmall, pidEq⟩ := formed.pid
  obtain ⟨dir, dirSmall, dirEq⟩ := formed.createdDir
  have paths := formed.paths
  simp only [List.mem_cons, List.not_mem_nil, or_false, forall_eq_or_imp, forall_eq] at paths
  intro entry inside
  simp only [MountState.entries, List.mem_cons, List.not_mem_nil, or_false] at inside
  rcases inside with rfl | rfl | rfl | rfl | rfl | rfl | rfl | rfl | rfl
  · exact formed.kind.2.2.trans (by decide)
  · rw [pidEq]
    exact decimal_length pidSmall
  · exact paths.1
  · exact paths.2.1
  · exact paths.2.2.1
  · exact paths.2.2.2.1
  · exact formed.attachedDisk.2.trans (by decide)
  · exact paths.2.2.2.2
  · rw [dirEq]
    exact decimal_length dirSmall

/-- The reader's buffers are large enough for every record. -/
theorem readStateFile_entries (formed : st.Formed) (stateFile : UInt64) :
    readStateFile stateFile st.text =
      let read := (readEntries st.text).foldl MountState.keep (.blank stateFile)
      if read.kind = [] then none else some read := by
  have short : ∀ line ∈ st.text.splitOn '\n', line.length < pathMax + 64 - 1 := by
    intro line member
    have bound := (entriesText_lines (fun entry inside => (entries_keys entry inside).1)
      (fun entry inside => ⟨(entries_keys entry inside).2, entries_values formed entry inside⟩)
      member).1
    have room : 13 + 1 + (pathMax - 1) < pathMax + 64 - 1 := by decide
    omega
  unfold readStateFile
  dsimp only
  rw [fgetsLines_entries short (Nat.le_refl _)]

theorem toInt_small {n : Nat} (small : n < 2 ^ 31) : toInt (n : Int) = n := by
  unfold toInt
  exact Int.bmod_eq_of_le (by omega) (by omega)

/-- Whatever is read, the paths hold no newline and end in no carriage return. -/
theorem keep_lined {entries : List (CString × CString)} (lined : st.Lined)
    (plain : ∀ entry ∈ entries, PlainText entry.2 ∧ entry.2.length ≤ pathMax - 1) :
    (entries.foldl MountState.keep st).Lined := by
  induction entries generalizing st with
  | nil => exact lined
  | cons entry rest ih =>
      obtain ⟨key, value⟩ := entry
      obtain ⟨whole, short⟩ := plain _ List.mem_cons_self
      rw [List.foldl_cons]
      refine ih ?_ fun entry inside => plain entry (List.mem_cons_of_mem _ inside)
      dsimp only at whole short
      unfold MountState.keep
      simp only [List.take_of_length_le short]
      obtain ⟨dev, canonDev, mnt, canonMnt, pidfile⟩ := lined
      repeat' split
      all_goals constructor <;> assumption

theorem readEntries_values (formed : st.Formed) : ∀ entry ∈ readEntries st.text,
    PlainText entry.2 ∧ entry.2.length ≤ pathMax - 1 := by
  rintro ⟨key, value⟩ inside
  obtain ⟨line, member, said⟩ := List.mem_filterMap.mp inside
  exact (entriesText_lines (fun entry inside => (entries_keys entry inside).1)
    (fun entry inside => ⟨(entries_keys entry inside).2, entries_values formed entry inside⟩)
    member).2 key value said

theorem keep_entries (formed : st.Formed) (stateFile : UInt64) :
    st.entries.foldl MountState.keep (.blank stateFile) = { st with stateFile := stateFile } := by
  obtain ⟨pid, pidSmall, pidEq⟩ := formed.pid
  obtain ⟨dir, dirSmall, dirEq⟩ := formed.createdDir
  have paths := formed.paths
  simp only [List.mem_cons, List.not_mem_nil, or_false, forall_eq_or_imp, forall_eq] at paths
  obtain ⟨dev, canonDev, mnt, canonMnt, pidfile⟩ := paths
  have kindKept := List.take_of_length_le formed.kind.2.2
  have diskKept := List.take_of_length_le formed.attachedDisk.2
  have devKept := List.take_of_length_le dev
  have canonDevKept := List.take_of_length_le canonDev
  have mntKept := List.take_of_length_le mnt
  have canonMntKept := List.take_of_length_le canonMnt
  have pidfileKept := List.take_of_length_le pidfile
  have pidKept : toInt (atol (decimal st.pid)) = st.pid := by
    rw [pidEq, atol_decimal, toInt_small pidSmall]
  have dirKept : toInt (atol (decimal st.createdDir)) = st.createdDir := by
    rw [dirEq, atol_decimal, toInt_small dirSmall]
  simp [MountState.entries, MountState.keep, MountState.blank, kindKept, diskKept, devKept,
    canonDevKept, mntKept, canonMntKept, pidfileKept, pidKept, dirKept]

/-- A record comes back just when no path in it holds a newline or ends in a carriage return. -/
theorem stateFile_roundTrip_iff {script : MountScript} {dev : CString}
    (built : BuiltBy script dev st) :
    readStateFile st.stateFile st.clipped.text = some st.clipped ↔ st.clipped.Lined := by
  have formed := built.formed
  rw [readStateFile_entries formed]
  dsimp only
  constructor
  · intro same
    split at same
    · cases same
    · have read := Option.some.inj same
      rw [← read]
      exact keep_lined ⟨plainText_nil, plainText_nil, plainText_nil, plainText_nil, plainText_nil⟩
        (readEntries_values formed)
  · intro lined
    have number : ∀ n : Nat, PlainText (decimal (n : Int)) := fun n =>
      .of_printable fun char inside => decimal_printable inside
    have values : ∀ entry ∈ st.clipped.entries, PlainText entry.2 := by
      obtain ⟨pid, -, pidEq⟩ := formed.pid
      obtain ⟨dir, -, dirEq⟩ := formed.createdDir
      intro entry inside
      simp only [MountState.entries, List.mem_cons, List.not_mem_nil, or_false] at inside
      rcases inside with rfl | rfl | rfl | rfl | rfl | rfl | rfl | rfl | rfl
      · exact formed.kind.1
      · rw [pidEq]; exact number pid
      · exact lined.dev
      · exact lined.canonDev
      · exact lined.mnt
      · exact lined.canonMnt
      · exact formed.attachedDisk.1
      · exact lined.pidfile
      · rw [dirEq]; exact number dir
    have kept := keep_entries formed st.stateFile
    rw [MountState.text, readEntries_text (fun entry inside => (entries_keys entry inside).1) values,
      kept, if_neg formed.kind.2.1]
    rfl

/-- The record of an image under that path, served by daemon 71. -/
def servedImage (dev : CString) : MountState :=
  nfsState (imageScript "ubuntu".toList 71 0 []) dev false "/Volumes/ubuntu".toList 71

theorem servedImage_built (dev : CString) :
    BuiltBy (imageScript "ubuntu".toList 71 0 []) dev (servedImage dev) :=
  ⟨false, "/Volumes/ubuntu".toList, .inl ⟨71, by decide, rfl⟩⟩

theorem stateFile_roundTrip_iff_served :
    readStateFile (servedImage "/tmp/ubuntu = 22.04 ".toList).stateFile
          (servedImage "/tmp/ubuntu = 22.04 ".toList).clipped.text =
        some (servedImage "/tmp/ubuntu = 22.04 ".toList).clipped ↔
      (servedImage "/tmp/ubuntu = 22.04 ".toList).clipped.Lined :=
  stateFile_roundTrip_iff (servedImage_built "/tmp/ubuntu = 22.04 ".toList)

theorem servedImage_pid (dev : CString) : (servedImage dev).clipped.pid = 71 := rfl

/-- A path with a newline in it forges the daemon's number. -/
theorem stateFile_forged :
    (¬∀ script dev st, BuiltBy script dev st →
        readStateFile st.stateFile st.clipped.text = some st.clipped) ∧
      (servedImage "/tmp/a\npid=1".toList).clipped.pid = 71 ∧
        (readStateFile 0 (servedImage "/tmp/a\npid=1".toList).clipped.text).map (·.pid) =
          some 1 := by
  have forged : (readStateFile 0 (servedImage "/tmp/a\npid=1".toList).clipped.text).map (·.pid) =
      some 1 := by decide +kernel
  refine ⟨fun same => ?_, servedImage_pid _, forged⟩
  have read := same _ _ _ (servedImage_built "/tmp/a\npid=1".toList)
  have zero : (servedImage "/tmp/a\npid=1".toList).stateFile = 0 := rfl
  rw [zero] at read
  rw [read, Option.map_some, servedImage_pid] at forged
  exact absurd (Option.some.inj forged) (by decide)

end Rufux.Macos
