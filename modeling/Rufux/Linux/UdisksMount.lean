import Mathlib

/-!
Mounting through `udisksctl`: the path is cut out of the line that it prints, and when what comes
back is the mount point.
-/

namespace Rufux.Linux

def ascii (text : String) : List UInt8 := text.toList.map fun char => UInt8.ofNat char.toNat

/-- What `strstr` finds, with the bytes behind it. -/
def strstr (mark : List UInt8) : List UInt8 → Option (List UInt8)
  | [] => if mark = [] then some [] else none
  | byte :: text =>
      if mark <+: byte :: text then some ((byte :: text).drop mark.length) else strstr mark text

/-- A blank or a carriage return. -/
def isTrailingBlank (byte : UInt8) : Bool := byte = 32 || byte = 13

def dropPeriod (text : List UInt8) : List UInt8 :=
  if text.getLast? = some 46 then text.dropLast else text

/-- What is left once trailing blanks and then one period are dropped. -/
def trimmed (text : List UInt8) : List UInt8 := dropPeriod (text.rdropWhile isTrailingBlank)

/-- How a mount ends: with a path in the buffer, with a message, or with a write outside a buffer
of no bytes. -/
inductive Mounting where
  | mounted (path : List UInt8)
  | refused (message : List UInt8)
  | overrun
deriving DecidableEq

/-- `char out[1024]`. -/
def captureCap : Nat := 1024

/-- `rufux_capture`: the output as a C string in that buffer. -/
def captured (output : List UInt8) : List UInt8 :=
  (output.take (captureCap - 1)).takeWhile (· ≠ 0)

/-- The path that the first line behind a marker holds, as far as the buffer has room. -/
def mountPath (cap : Nat) (text : List UInt8) : Mounting :=
  if cap = 0 then .overrun
  else
    let path := trimmed ((text.takeWhile (· ≠ 10)).take (cap - 1))
    if path = [] then .refused (ascii "empty mountpoint") else .mounted path

/-- What `rufux_mount` meets: whether `udisksctl` is there, whether it ends well, and its output. -/
structure UdisksRun where
  present : Bool
  succeeded : Bool
  output : List UInt8

/-- `rufux_mount` of the Linux port. -/
def rufuxMount (run : UdisksRun) (dryRun : Bool) (cap : Nat) : Mounting :=
  if !run.present then .refused (ascii "udisksctl not found (install udisks2)")
  else if dryRun then .mounted ((ascii "(dry-run)").take (cap - 1))
  else
    let out := captured run.output
    if !run.succeeded then .refused (ascii "udisksctl mount failed: " ++ out.take 400)
    else
      match strstr (ascii " at ") out with
      | none => .refused (ascii "cannot parse mount output: " ++ out.take 400)
      | some text => mountPath cap text

/-! ### Trimming -/

/-- No blank and no period stands at the end. -/
def Closed (path : List UInt8) : Prop :=
  ∀ last, path.getLast? = some last → isTrailingBlank last = false ∧ last ≠ 46

/-- A path with a period or with a closed end, and blanks behind it. -/
def Shows (text path : List UInt8) : Prop :=
  ∃ blanks : List UInt8, (∀ byte ∈ blanks, isTrailingBlank byte = true) ∧
    (text = path ++ 46 :: blanks ∨ (text = path ++ blanks ∧ Closed path))

theorem rdropWhile_blanks {front blanks : List UInt8}
    (blank : ∀ byte ∈ blanks, isTrailingBlank byte = true) :
    (front ++ blanks).rdropWhile isTrailingBlank = front.rdropWhile isTrailingBlank := by
  induction blanks using List.reverseRecOn with
  | nil => rw [List.append_nil]
  | append_singleton blanks byte ih =>
      have last := blank byte (List.mem_append_right _ (List.mem_singleton_self byte))
      rw [← List.append_assoc, List.rdropWhile_concat_pos isTrailingBlank _ byte last]
      exact ih fun other member => blank other (List.mem_append_left _ member)

theorem rdropWhile_closed {path : List UInt8} (closed : Closed path) :
    path.rdropWhile isTrailingBlank = path := by
  rw [List.rdropWhile_eq_self_iff]
  intro some
  have last := (closed _ (List.getLast?_eq_some_getLast some)).1
  rw [last]
  decide

theorem trimmed_eq_iff {text path : List UInt8} : trimmed text = path ↔ Shows text path := by
  constructor
  · intro same
    have split : text.rdropWhile isTrailingBlank ++ text.rtakeWhile isTrailingBlank = text :=
      List.rdropWhile_append_rtakeWhile
    refine ⟨text.rtakeWhile isTrailingBlank, fun byte member => List.mem_rtakeWhile_imp member, ?_⟩
    unfold trimmed dropPeriod at same
    by_cases period : (text.rdropWhile isTrailingBlank).getLast? = some 46
    · rw [if_pos period] at same
      have whole := List.dropLast_append_getLast? 46 period
      rw [same] at whole
      refine .inl ?_
      rw [← List.singleton_append, ← List.append_assoc, whole, split]
    · rw [if_neg period] at same
      refine .inr ⟨by rw [← same, split], fun last found => ?_⟩
      rw [← same] at found
      refine ⟨?_, fun dot => period (dot ▸ found)⟩
      have some : text.rdropWhile isTrailingBlank ≠ [] := by
        intro empty
        rw [empty] at found
        cases found
      have dropped := List.rdropWhile_last_not isTrailingBlank text some
      rw [List.getLast?_eq_some_getLast some] at found
      cases found
      exact Bool.eq_false_iff.mpr dropped
  · rintro ⟨blanks, blank, shape | ⟨shape, closed⟩⟩
    · have whole : path ++ 46 :: blanks = (path ++ [46]) ++ blanks := by
        rw [List.append_assoc, List.singleton_append]
      rw [trimmed, shape, whole, rdropWhile_blanks blank,
        List.rdropWhile_concat_neg isTrailingBlank _ 46 (by decide), dropPeriod, List.getLast?_concat,
        if_pos rfl, List.dropLast_concat]
    · rw [trimmed, shape, rdropWhile_blanks blank, rdropWhile_closed closed, dropPeriod, if_neg]
      intro period
      exact (closed 46 period).2 rfl

theorem shows_period (path : List UInt8) : Shows (path ++ [46]) path :=
  ⟨[], by simp, .inl rfl⟩

theorem shows_self_iff {path : List UInt8} : Shows path path ↔ Closed path := by
  constructor
  · rintro ⟨blanks, -, longer | ⟨-, closed⟩⟩
    · have sizes := congrArg List.length longer
      rw [List.length_append, List.length_cons] at sizes
      omega
    · exact closed
  · exact fun closed => ⟨[], by simp, .inr ⟨(List.append_nil path).symm, closed⟩⟩

/-! ### The marker -/

theorem strstr_length {mark text rest : List UInt8} (found : strstr mark text = some rest) :
    mark.length ≤ text.length := by
  induction text with
  | nil =>
      rw [strstr] at found
      split at found
      · rename_i empty
        rw [empty]
      · cases found
  | cons byte text ih =>
      rw [strstr] at found
      split at found
      · rename_i here
        exact here.length_le
      · exact Nat.le_succ_of_le (ih found)

theorem strstr_append {mark front rest : List UInt8} (found : strstr mark front = some rest)
    (back : List UInt8) : strstr mark (front ++ back) = some (rest ++ back) := by
  induction front with
  | nil =>
      rw [strstr] at found
      split at found
      · rename_i empty
        cases found
        subst empty
        cases back with
        | nil => rfl
        | cons byte back => rw [List.nil_append, strstr, if_pos List.nil_prefix]; rfl
      · cases found
  | cons byte front ih =>
      rw [strstr] at found
      rw [List.cons_append, strstr]
      by_cases here : mark <+: byte :: front
      · rw [if_pos here] at found
        cases found
        have length : mark.length ≤ (byte :: front).length := here.length_le
        rw [← List.cons_append, if_pos (here.trans (List.prefix_append (byte :: front) back)),
          List.drop_append_of_le_length length]
      · rw [if_neg here] at found
        have later : ¬mark <+: byte :: (front ++ back) := by
          intro there
          exact here (List.prefix_of_prefix_length_le there (List.prefix_append (byte :: front) back)
            (Nat.le_succ_of_le (strstr_length found)))
        rw [if_neg later]
        exact ih found

/-! ### The line -/

/-- What `udisksctl` prints before the mount point. -/
def lead (dev : List UInt8) : List UInt8 := ascii "Mounted " ++ dev ++ ascii " at "

/-- The mount point came back, or there was no room for it and the call failed. -/
def MountExact (outcome : Mounting) (path : List UInt8) (cap : Nat) : Prop :=
  outcome = .mounted path ∨ (cap < path.length + 1 ∧ ∃ message, outcome = .refused message)

/-- The bytes between the first marker and the end of its line that the capture holds. -/
def shown (output : List UInt8) : Option (List UInt8) :=
  (strstr (ascii " at ") (captured output)).map fun text => text.takeWhile (· ≠ 10)

/-- No marker stands before the line's own one, and the line is captured whole. -/
def Regular (dev path stop : List UInt8) : Prop :=
  strstr (ascii " at ") (lead dev) = some [] ∧
    (lead dev).length + path.length + stop.length < captureCap

/-- A path that fits is not empty and has room for the period behind it or a closed end; of one
that does not fit, the buffer holds blanks and a period at most. -/
def Plainly (path stop : List UInt8) (cap : Nat) : Prop :=
  if path.length + 1 ≤ cap then
    path ≠ [] ∧ ((stop = [46] ∧ path.length + 2 ≤ cap) ∨ Closed path)
  else Shows (path.take (cap - 1)) []

/-- Of a line with another marker, or one that is not captured whole, what the buffer can hold
happens to be the path, or nothing where the path does not fit. -/
def Strayly (output path : List UInt8) (cap : Nat) : Prop :=
  match shown output with
  | none => cap < path.length + 1
  | some text =>
      (path ≠ [] ∧ Shows (text.take (cap - 1)) path) ∨
        (cap < path.length + 1 ∧ Shows (text.take (cap - 1)) [])

variable {dev path stop tail output : List UInt8} {cap : Nat}

theorem rufuxMount_exact : MountExact (rufuxMount ⟨true, true, output⟩ false cap) path cap ↔
    (0 < cap ∨ shown output = none) ∧ Strayly output path cap := by
  unfold rufuxMount Strayly shown
  simp only [Bool.not_true, Bool.false_eq_true, if_false]
  cases found : strstr (ascii " at ") (captured output) with
  | none =>
      simp only [Option.map_none, MountExact, reduceCtorEq, false_or, Mounting.refused.injEq,
        exists_eq', and_true, or_true, true_and]
  | some text =>
      simp only [Option.map_some, reduceCtorEq, or_false]
      unfold mountPath
      by_cases none : cap = 0
      · rw [if_pos none]
        simp [MountExact, none]
      · rw [if_neg none]
        dsimp only
        have positive : 0 < cap := by omega
        generalize (text.takeWhile (· ≠ 10)).take (cap - 1) = seen
        rw [← trimmed_eq_iff, ← trimmed_eq_iff]
        by_cases empty : trimmed seen = []
        · rw [if_pos empty, empty]
          constructor
          · rintro (same | ⟨short, -⟩)
            · cases same
            · exact ⟨positive, .inr ⟨short, rfl⟩⟩
          · rintro ⟨-, ⟨some, same⟩ | ⟨short, -⟩⟩
            · exact absurd same.symm some
            · exact .inr ⟨short, _, rfl⟩
        · rw [if_neg empty]
          constructor
          · rintro (same | ⟨-, message, same⟩)
            · cases same
              exact ⟨positive, .inl ⟨empty, rfl⟩⟩
            · cases same
          · rintro ⟨-, ⟨some, same⟩ | ⟨-, same⟩⟩
            · exact .inl (by rw [same])
            · exact absurd same empty

/-- Bytes of a C string. -/
def NoNul (bytes : List UInt8) : Prop := ∀ byte ∈ bytes, byte ≠ 0

/-- The rest of the output begins with the end of the line, if there is any. -/
def EndsLine (tail : List UInt8) : Prop := tail = [] ∨ ∃ more, tail = 10 :: more

theorem lead_noNul (device : NoNul dev) : NoNul (lead dev) := by
  have word : ∀ byte ∈ ascii "Mounted ", byte ≠ 0 := by decide +kernel
  have mark : ∀ byte ∈ ascii " at ", byte ≠ 0 := by decide +kernel
  intro byte member
  rcases List.mem_append.mp member with member | inMark
  · rcases List.mem_append.mp member with inWord | inside
    · exact word byte inWord
    · exact device byte inside
  · exact mark byte inMark

theorem endsLine_captured {count : Nat} (ends : EndsLine tail) :
    ((tail.take count).takeWhile (· ≠ 0)).takeWhile (· ≠ 10) = [] := by
  rcases ends with rfl | ⟨more, rfl⟩
  · rw [List.take_nil]
    rfl
  · cases count with
    | zero => rfl
    | succ count =>
        rw [List.take_succ_cons, List.takeWhile_cons, if_pos (by decide), List.takeWhile_cons,
          if_neg (by decide)]

theorem shown_regular (device : NoNul dev) (inside : NoNul (path ++ stop))
    (oneLine : ∀ byte ∈ path ++ stop, byte ≠ 10) (ends : EndsLine tail)
    (regular : Regular dev path stop) :
    shown (lead dev ++ (path ++ stop) ++ tail) = some (path ++ stop) := by
  obtain ⟨marker, whole⟩ := regular
  have size : (lead dev ++ (path ++ stop)).length ≤ captureCap - 1 := by
    rw [List.length_append, List.length_append]
    omega
  have clean : ∀ byte ∈ lead dev ++ (path ++ stop), decide (byte ≠ 0) = true := by
    intro byte member
    rcases List.mem_append.mp member with member | member
    · exact decide_eq_true (lead_noNul device byte member)
    · exact decide_eq_true (inside byte member)
  unfold shown captured
  rw [List.take_append, List.take_of_length_le size, List.takeWhile_append_of_pos clean,
    List.append_assoc, strstr_append marker, List.nil_append, Option.map_some,
    List.takeWhile_append_of_pos fun byte member => decide_eq_true (oneLine byte member),
    endsLine_captured ends, List.append_nil]

theorem strayly_regular (stops : stop = [] ∨ stop = [46]) (positive : 0 < cap)
    (view : shown output = some (path ++ stop)) :
    Strayly output path cap ↔ Plainly path stop cap := by
  unfold Strayly Plainly
  rw [view]
  dsimp only
  by_cases fits : path.length + 1 ≤ cap
  · rw [if_pos fits]
    have room : ¬cap < path.length + 1 := by omega
    have seen : Shows ((path ++ stop).take (cap - 1)) path ↔
        (stop = [46] ∧ path.length + 2 ≤ cap) ∨ Closed path := by
      rcases stops with rfl | rfl
      · rw [List.append_nil, List.take_of_length_le (by omega), shows_self_iff]
        simp
      · by_cases more : path.length + 2 ≤ cap
        · have size : (path ++ [46]).length ≤ cap - 1 := by
            rw [List.length_append, List.length_singleton]
            omega
          rw [List.take_of_length_le size]
          exact ⟨fun _ => .inl ⟨rfl, more⟩, fun _ => shows_period path⟩
        · rw [show cap - 1 = path.length by omega, List.take_left, shows_self_iff]
          simp [more]
    rw [seen]
    simp [room]
  · rw [if_neg fits]
    have short : ¬Shows (path.take (cap - 1)) path := by
      rintro ⟨blanks, -, longer | ⟨longer, -⟩⟩ <;>
      · have sizes := congrArg List.length longer
        rw [List.length_append, List.length_take] at sizes
        omega
    rw [List.take_append_of_le_length (by omega)]
    simp only [short, and_false, false_or]
    exact ⟨fun both => both.2, fun shows => ⟨by omega, shows⟩⟩

/-- The mount point comes back exactly, or the call fails where there is no room for it, just when
the line has one marker, is captured whole and the path is plain; of another line, when what the
buffer sees happens to be the path. -/
theorem mount_exact_iff (device : NoNul dev) (inside : NoNul path)
    (oneLine : ∀ byte ∈ path, byte ≠ 10) (stops : stop = [] ∨ stop = [46])
    (ends : EndsLine tail) :
    MountExact (rufuxMount ⟨true, true, lead dev ++ (path ++ stop) ++ tail⟩ false cap) path cap ↔
      (Regular dev path stop ∧ 0 < cap ∧ Plainly path stop cap) ∨
        (¬Regular dev path stop ∧
          (0 < cap ∨ shown (lead dev ++ (path ++ stop) ++ tail) = none) ∧
            Strayly (lead dev ++ (path ++ stop) ++ tail) path cap) := by
  rw [rufuxMount_exact]
  by_cases regular : Regular dev path stop
  · have period : ∀ byte ∈ stop, byte ≠ 0 ∧ byte ≠ 10 := by
      rcases stops with rfl | rfl <;> decide +kernel
    have view := shown_regular device
      (fun byte member => (List.mem_append.mp member).elim (inside byte) fun last =>
        (period byte last).1)
      (fun byte member => (List.mem_append.mp member).elim (oneLine byte) fun last =>
        (period byte last).2) ends regular
    simp only [regular, true_and, not_true_eq_false, false_and, or_false]
    rw [view]
    simp only [reduceCtorEq, or_false]
    exact and_congr_right fun positive => strayly_regular stops positive view
  · simp only [regular, false_and, not_false_eq_true, true_and, false_or]

/-- A stick mounted under its label. -/
def stickDev : List UInt8 := ascii "/dev/sdb1"

def stickPath : List UInt8 := ascii "/run/media/user/Win11.ISO"

theorem stickDev_noNul : NoNul stickDev := by
  unfold NoNul
  decide +kernel

theorem stickPath_plain : NoNul stickPath ∧ ∀ byte ∈ stickPath, byte ≠ 10 := by
  unfold NoNul
  decide +kernel

theorem stick_regular : Regular stickDev stickPath [46] := by
  unfold Regular
  decide +kernel

theorem mount_exact_iff_stick :
    MountExact (rufuxMount ⟨true, true, lead stickDev ++ (stickPath ++ [46]) ++ [10]⟩ false 4096)
      stickPath 4096 :=
  (mount_exact_iff stickDev_noNul stickPath_plain.1 stickPath_plain.2 (.inr rfl)
    (.inr ⟨[], rfl⟩)).mpr (.inl ⟨stick_regular, by decide, by
      unfold Plainly
      rw [if_pos (by decide +kernel)]
      exact ⟨by decide +kernel, .inl ⟨rfl, by decide +kernel⟩⟩⟩)

/-- With room for sixteen bytes a shorter path comes back, and no error. -/
theorem mount_shortened :
    ¬∀ dev path stop tail cap, NoNul dev → NoNul path → (∀ byte ∈ path, byte ≠ 10) →
      (stop = [] ∨ stop = [46]) → EndsLine tail →
      MountExact (rufuxMount ⟨true, true, lead dev ++ (path ++ stop) ++ tail⟩ false cap) path cap := by
  intro exact
  have short : rufuxMount ⟨true, true, lead stickDev ++ (stickPath ++ [46]) ++ [10]⟩ false 16 =
      .mounted (ascii "/run/media/user") := by decide +kernel
  have claimed := exact stickDev stickPath [46] [10] 16 stickDev_noNul stickPath_plain.1
    stickPath_plain.2 (.inr rfl) (.inr ⟨[], rfl⟩)
  rw [short] at claimed
  have other : Mounting.mounted (ascii "/run/media/user") ≠ .mounted stickPath := by
    decide +kernel
  rcases claimed with same | ⟨-, message, same⟩
  · exact other same
  · cases same

end Rufux.Linux
