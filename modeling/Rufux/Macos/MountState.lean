import Rufux.Library.KeyValue
import Rufux.Macos.BootDisk
import Rufux.Macos.Gpt

/-!
The state file that a mount leaves behind: its text, what is read back from it, and the
search for the file of a device or a mount point.
-/

namespace Rufux.Macos

open Library

/-- `fnv1a64`. -/
def fnv1a64 (s : CString) : UInt64 :=
  s.foldl (fun hash char => (hash ^^^ UInt64.ofNat (char.toNat % 256)) * 1099511628211)
    14695981039346656037

def stripTrailingSlashes (s : CString) : CString :=
  let kept := s.rdropWhile (· = '/')
  if kept = [] then s.take 1 else kept

def blockNode (dev : CString) : CString := (rufuxMacosBlockNode (String.ofList dev)).toList

def rufuxPart1 (disk : CString) : CString :=
  if disk = [] then [] else blockNode disk ++ "s1".toList

/-- The name at the start of a path says `disk` and a digit. -/
def isDiskIdent (cand : CString) : Bool :=
  "disk".toList.isPrefixOf cand && ((cand.drop 4).head?.map Char.isDigit).getD false

/-- `parse_bsd_ident`, into a buffer of 64 bytes. -/
def parseBsdIdent (realpath : CString → Option CString) (path : CString) : Option CString :=
  if path = [] then none
  else
    let p := (realpath path).getD path
    let p := if "/private/dev/".toList.isPrefixOf p then p.drop 8 else p
    let cand :=
      if "/dev/rdisk".toList.isPrefixOf p then some (p.drop 6)
      else if "/dev/disk".toList.isPrefixOf p then some (p.drop 5)
      else if "disk".toList.isPrefixOf p then some p
      else none
    match cand with
    | none => none
    | some cand => if isDiskIdent cand then some (cand.take 63) else none

def isWholeDiskBsdIdent (bsd : CString) : Bool :=
  isDiskIdent bsd && (bsd.drop 4).all Char.isDigit

/-- The path is that of a whole disk. -/
def namesWholeDisk (realpath : CString → Option CString) (path : CString) : Bool :=
  match parseBsdIdent realpath path with
  | none => false
  | some bsd => isWholeDiskBsdIdent bsd

def bsdBelongsToWholeIdent (bsd whole : CString) : Bool :=
  isWholeDiskBsdIdent whole && whole.isPrefixOf bsd &&
    match bsd.drop whole.length with
    | [] => true
    | letter :: rest => letter == 's' && (rest.head?.map Char.isDigit).getD false

/-- `atol`. -/
def atol (s : CString) : Int :=
  let digits (s : CString) : Int := Nat.ofDigitChars 10 (s.takeWhile Char.isDigit) 0
  match s.dropWhile fun char => char = ' ' ∨ (9 ≤ char.toNat ∧ char.toNat ≤ 13) with
  | '-' :: rest => -digits rest
  | '+' :: rest => digits rest
  | rest => digits rest

/-- `%ld`. -/
def decimal (n : Int) : CString :=
  if n < 0 then '-' :: Nat.toDigits 10 n.natAbs else Nat.toDigits 10 n.natAbs

/-- `%016llx`. -/
def hex16 (n : UInt64) : CString :=
  (List.range 16).map fun place => Nat.digitChar (n.toNat / 16 ^ (15 - place) % 16)

structure MountState where
  /-- The file's name, without its ending. -/
  stateFile : UInt64
  kind : CString
  pid : Int
  dev : CString
  canonDev : CString
  mnt : CString
  canonMnt : CString
  attachedDisk : CString
  pidfile : CString
  createdDir : Int
deriving DecidableEq

/-- `memset(st, 0, …)`. -/
def MountState.blank (stateFile : UInt64) : MountState :=
  ⟨stateFile, [], 0, [], [], [], [], [], [], 0⟩

/-- The name of a state file and of a pid file. -/
def stateId (canonDev mnt : CString) : UInt64 := fnv1a64 canonDev ^^^ (fnv1a64 mnt <<< 1)

def MountState.id (st : MountState) : UInt64 :=
  stateId (if st.canonDev ≠ [] then st.canonDev else st.dev) st.mnt

def MountState.entries (st : MountState) : List (CString × CString) :=
  [("kind".toList, st.kind), ("pid".toList, decimal st.pid), ("dev".toList, st.dev),
    ("canon_dev".toList, st.canonDev), ("mnt".toList, st.mnt), ("canon_mnt".toList, st.canonMnt),
    ("attached_disk".toList, st.attachedDisk), ("pidfile".toList, st.pidfile),
    ("created_dir".toList, decimal st.createdDir)]

/-- What `write_mount_state` prints. -/
def MountState.text (st : MountState) : CString := entriesText st.entries

def MountState.take (st : MountState) (entry : CString × CString) : MountState :=
  let (k, v) := entry
  if k = "kind".toList then { st with kind := v.take 31 }
  else if k = "pid".toList then { st with pid := atol v }
  else if k = "dev".toList then { st with dev := v }
  else if k = "canon_dev".toList then { st with canonDev := v }
  else if k = "mnt".toList then { st with mnt := v }
  else if k = "canon_mnt".toList then { st with canonMnt := v }
  else if k = "attached_disk".toList then { st with attachedDisk := v.take 127 }
  else if k = "pidfile".toList then { st with pidfile := v }
  else if k = "created_dir".toList then { st with createdDir := atol v }
  else st

def readMountStateFile (stateFile : UInt64) (text : CString) : Option MountState :=
  let st := (readEntries text).foldl MountState.take (.blank stateFile)
  if st.kind = [] then none else some st

def stateMatchesTarget (realpath : CString → Option CString) (st : MountState)
    (rawT blkT canonT : CString) : Bool :=
  let names := [st.dev, st.canonDev, st.mnt, st.canonMnt, st.attachedDisk]
  ([rawT, blkT, canonT].any fun c => c ≠ [] && names.contains c) ||
    match parseBsdIdent realpath blkT with
    | none => false
    | some tbsd =>
        isWholeDiskBsdIdent tbsd &&
          [st.canonDev, st.dev, st.attachedDisk].any fun path =>
            match parseBsdIdent realpath path with
            | none => false
            | some sbsd => bsdBelongsToWholeIdent sbsd tbsd

/-- What the system answers while a command looks around. -/
structure Sight where
  realpath : CString → Option CString
  /-- `getmntinfo` works. -/
  lists : Bool
  /-- `opendir` works on the state directory. -/
  opendir : Bool
  /-- A state file opens. -/
  opens : UInt64 → Bool

/-- The state files, in the order of `readdir`. -/
abbrev StateDir := List (UInt64 × CString)

def findMatchingState (sight : Sight) (states : StateDir) (target : CString) : Option MountState :=
  let rawT := stripTrailingSlashes target
  let blkT := stripTrailingSlashes (blockNode rawT)
  let canonT := stripTrailingSlashes (((sight.realpath blkT).or (sight.realpath rawT)).getD [])
  if sight.opendir then
    states.findSome? fun file =>
      if sight.opens file.1 then
        (readMountStateFile file.1 file.2).filter fun cur =>
          stateMatchesTarget sight.realpath cur rawT blkT canonT
      else none
  else none

section RoundTrip

variable {n : Nat} {st : MountState} {char : Char}

theorem decimal_natCast : decimal (n : Int) = Nat.toDigits 10 n := by
  have nonneg : ¬ (n : Int) < 0 := by omega
  simp [decimal, nonneg]

theorem isDigit_of_mem_decimal (inside : char ∈ decimal (n : Int)) : char.isDigit = true := by
  rw [decimal_natCast] at inside
  exact Nat.isDigit_of_mem_toDigits (by decide) (by decide) inside

theorem atol_decimal : atol (decimal (n : Int)) = n := by
  have digits : ∀ char ∈ decimal (n : Int), char.isDigit = true := fun _ => isDigit_of_mem_decimal
  have read : Nat.ofDigitChars 10 ((decimal (n : Int)).takeWhile Char.isDigit) 0 = n := by
    rw [List.takeWhile_eq_self_iff.mpr digits, decimal_natCast, Nat.ofDigitChars_ten_toDigits]
  cases shape : decimal (n : Int) with
  | nil =>
      rw [decimal_natCast] at shape
      exact absurd shape Nat.toDigits_ne_nil
  | cons first rest =>
      have digit : first.isDigit = true := digits first (by rw [shape]; exact List.mem_cons_self)
      have dark : ¬ (first = ' ' ∨ (9 ≤ first.toNat ∧ first.toNat ≤ 13)) := by
        simp only [Char.isDigit, Bool.and_eq_true, decide_eq_true_eq] at digit
        rintro (rfl | bounds)
        · exact absurd digit.1 (by decide)
        · have low : 48 ≤ first.toNat := digit.1
          omega
      have minus : first ≠ '-' := by rintro rfl; exact absurd digit (by decide)
      have plus : first ≠ '+' := by rintro rfl; exact absurd digit (by decide)
      rw [shape] at read
      unfold atol
      rw [List.dropWhile_cons_of_neg (by simpa using dark)]
      split
      · rename_i same
        exact absurd (List.cons.inj same).1 minus
      · rename_i same
        exact absurd (List.cons.inj same).1 plus
      · exact congrArg Int.ofNat read

theorem decimal_printable (inside : char ∈ decimal (n : Int)) : 32 ≤ char.toNat := by
  have digit := isDigit_of_mem_decimal inside
  simp only [Char.isDigit, Bool.and_eq_true, decide_eq_true_eq] at digit
  have low : 48 ≤ char.toNat := digit.1
  omega

theorem hex16_printable {id : UInt64} (inside : char ∈ hex16 id) : 32 ≤ char.toNat := by
  obtain ⟨place, -, rfl⟩ := List.mem_map.mp inside
  have small : id.toNat / 16 ^ (15 - place) % 16 < 16 := Nat.mod_lt _ (by decide)
  generalize id.toNat / 16 ^ (15 - place) % 16 = digit at small
  interval_cases digit <;> decide

/-- The fields of a state that a file keeps. -/
structure MountState.Plain (st : MountState) : Prop where
  kind : PlainText st.kind ∧ st.kind ≠ [] ∧ st.kind.length ≤ 31
  pid : ∃ n : Nat, st.pid = n
  dev : PlainText st.dev
  canonDev : PlainText st.canonDev
  mnt : PlainText st.mnt
  canonMnt : PlainText st.canonMnt
  attachedDisk : PlainText st.attachedDisk ∧ st.attachedDisk.length ≤ 127
  pidfile : PlainText st.pidfile
  createdDir : ∃ n : Nat, st.createdDir = n

/-- The state that was written is read back. -/
theorem readMountStateFile_text (plain : st.Plain) (stateFile : UInt64) :
    readMountStateFile stateFile st.text = some { st with stateFile := stateFile } := by
  obtain ⟨pid, pidEq⟩ := plain.pid
  obtain ⟨dir, dirEq⟩ := plain.createdDir
  have number : ∀ n : Nat, PlainText (decimal (n : Int)) := fun n =>
    .of_printable fun char inside => decimal_printable inside
  have keys : ∀ entry ∈ st.entries, PlainKey entry.1 := by
    intro entry inside
    simp only [MountState.entries, List.mem_cons, List.not_mem_nil, or_false] at inside
    rcases inside with rfl | rfl | rfl | rfl | rfl | rfl | rfl | rfl | rfl <;>
      (refine ⟨?_, ?_⟩ <;> dsimp only <;> decide)
  have values : ∀ entry ∈ st.entries, PlainText entry.2 := by
    intro entry inside
    simp only [MountState.entries, List.mem_cons, List.not_mem_nil, or_false] at inside
    rcases inside with rfl | rfl | rfl | rfl | rfl | rfl | rfl | rfl | rfl
    · exact plain.kind.1
    · rw [pidEq]; exact number pid
    · exact plain.dev
    · exact plain.canonDev
    · exact plain.mnt
    · exact plain.canonMnt
    · exact plain.attachedDisk.1
    · exact plain.pidfile
    · rw [dirEq]; exact number dir
  have kept : st.entries.foldl MountState.take (.blank stateFile) =
      { st with stateFile := stateFile } := by
    have kindKept := List.take_of_length_le plain.kind.2.2
    have diskKept := List.take_of_length_le plain.attachedDisk.2
    have pidKept : atol (decimal st.pid) = st.pid := by rw [pidEq, atol_decimal]
    have dirKept : atol (decimal st.createdDir) = st.createdDir := by rw [dirEq, atol_decimal]
    simp [MountState.entries, MountState.take, MountState.blank, kindKept, diskKept, pidKept,
      dirKept]
  unfold readMountStateFile MountState.text
  rw [readEntries_text keys values, kept, if_neg plain.kind.2.1]

theorem findMatchingState_mem {sight : Sight} {states : StateDir} {target : CString}
    (found : findMatchingState sight states target = some st) :
    ∃ file ∈ states, readMountStateFile file.1 file.2 = some st := by
  unfold findMatchingState at found
  split at found
  · obtain ⟨file, inside, read⟩ := List.exists_of_findSome?_eq_some found
    split at read
    · exact ⟨file, inside, (Option.filter_eq_some_iff.mp read).1⟩
    · cases read
  · cases found

theorem readMountStateFile_stateFile {id : UInt64} {text : CString}
    (read : readMountStateFile id text = some st) : st.stateFile = id := by
  have kept : ∀ (entries : List (CString × CString)) (start : MountState),
      (entries.foldl MountState.take start).stateFile = start.stateFile := by
    intro entries
    induction entries with
    | nil => intro start; rfl
    | cons entry rest ih =>
        intro start
        rw [List.foldl_cons, ih]
        unfold MountState.take
        dsimp only
        repeat' split
        all_goals rfl
  unfold readMountStateFile at read
  dsimp only at read
  split at read
  · cases read
  · cases read
    exact kept _ _

end RoundTrip

end Rufux.Macos
