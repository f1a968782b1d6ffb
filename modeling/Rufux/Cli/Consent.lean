import Rufux.Cli.Reading

/-!
What the options of a command line must say before a command changes anything.
-/

namespace Rufux.Cli

open Library Block Linux Create.Effects Create.Effects.Linux

section Consent

def realFlag : Arg := ascii "--real"

def dryFlag : Arg := ascii "--dry-run"

def yesFlag : Arg := ascii "--yes"

variable {O : Type} {p : Parser O}

/-- The last word on a dry run is that there is none. -/
def SaysReal (items : List Item) : Prop :=
  ∃ before after, items = before ++ .flag realFlag :: after ∧ .flag dryFlag ∉ after

/-- The option and no other sets the field, to stay. -/
structure Sets (p : Parser O) (option : Arg) (field : O → Bool) : Prop where
  known : option ∈ p.flags.map Prod.fst
  flags : ∀ entry ∈ p.flags, ∀ o, field (entry.2 o) = (entry.1 = option || field o)
  values : ∀ entry ∈ p.values, ∀ value o, field (entry.2 value o) = field o

/-- Whether a run is dry is set by the last of two options, and by no others. -/
structure Switches (p : Parser O) (dryRun : O → Bool) : Prop where
  known : ∀ option ∈ [realFlag, dryFlag], option ∈ p.flags.map Prod.fst
  flags : ∀ entry ∈ p.flags, ∀ o, dryRun (entry.2 o) =
    if entry.1 = realFlag then false else if entry.1 = dryFlag then true else dryRun o
  values : ∀ entry ∈ p.values, ∀ value o, dryRun (entry.2 value o) = dryRun o

theorem mem_of_lookup {β : Type} {table : List (Arg × β)} {word : Arg} {found : β}
    (hit : table.lookup word = some found) : (word, found) ∈ table := by
  obtain ⟨before, after, rfl, _⟩ := List.lookup_eq_some_iff.mp hit
  simp

theorem ne_of_unknown {β : Type} {table : List (Arg × β)} {word other : Arg}
    (missed : table.lookup other = none) (known : word ∈ table.map Prod.fst) : other ≠ word := by
  rintro rfl
  have found := lookup_isSome_iff.mpr known
  rw [missed] at found
  exact Bool.noConfusion found

theorem apply_value {field : O → Bool}
    (keeps : ∀ entry ∈ p.values, ∀ value o, field (entry.2 value o) = field o) (o : O)
    (option value : Arg) : field (p.apply o (.value option value)) = field o := by
  cases hit : p.values.lookup option with
  | none => simp [Parser.apply, hit]
  | some set => simpa [Parser.apply, hit] using keeps _ (mem_of_lookup hit) value o

theorem Sets.apply {option : Arg} {field : O → Bool} (sets : Sets p option field) (o : O)
    (item : Item) : field (p.apply o item) = (item = .flag option || field o) := by
  cases item with
  | flag other =>
      cases hit : p.flags.lookup other with
      | none =>
          have different := ne_of_unknown hit sets.known
          simp [Parser.apply, hit, different]
      | some set => simpa [Parser.apply, hit] using sets.flags _ (mem_of_lookup hit) o
  | value other value =>
      rw [apply_value sets.values]
      simp
  | word arg => simp [Parser.apply]

theorem Sets.read {option : Arg} {field : O → Bool} (sets : Sets p option field)
    (args : List Arg) (o : O) :
    field (p.read args o) = true ↔ .flag option ∈ p.items args ∨ field o = true := by
  rw [Parser.read_eq_foldl]
  generalize p.items args = items
  induction items generalizing o with
  | nil => simp
  | cons item items ih =>
      rw [List.foldl_cons, ih, sets.apply, List.mem_cons]
      simp only [Bool.or_eq_true, decide_eq_true_eq, eq_comm (a := item)]
      tauto

theorem Switches.apply {dryRun : O → Bool} (switches : Switches p dryRun) (o : O) (item : Item) :
    dryRun (p.apply o item) =
      if item = .flag realFlag then false else if item = .flag dryFlag then true else dryRun o := by
  cases item with
  | flag other =>
      cases hit : p.flags.lookup other with
      | none =>
          have notReal := ne_of_unknown hit (switches.known realFlag (by simp))
          have notDry := ne_of_unknown hit (switches.known dryFlag (by simp))
          simp [Parser.apply, hit, notReal, notDry]
      | some set =>
          simpa [Parser.apply, hit] using switches.flags _ (mem_of_lookup hit) o
  | value other value =>
      rw [apply_value switches.values]
      simp
  | word arg => simp [Parser.apply]

/-- A run is real only when the options say so last. -/
theorem Switches.read {dryRun : O → Bool} (switches : Switches p dryRun) {args : List Arg} {o : O}
    (dry : dryRun o = true) (real : dryRun (p.read args o) = false) : SaysReal (p.items args) := by
  have folded : ∀ {items : List Item} {o : O}, dryRun (items.foldl p.apply o) = false →
      SaysReal items ∨ (.flag dryFlag ∉ items ∧ dryRun o = false) := by
    intro items
    induction items with
    | nil => exact fun real => .inr ⟨by simp, real⟩
    | cons item items ih =>
        intro o real
        rcases ih real with ⟨before, after, rfl, last⟩ | ⟨absent, here⟩
        · exact .inl ⟨item :: before, after, rfl, last⟩
        rw [switches.apply] at here
        split at here
        next isReal => exact .inl ⟨[], items, by rw [isReal]; rfl, absent⟩
        next =>
          split at here
          next => exact Bool.noConfusion here
          next other =>
            refine .inr ⟨?_, here⟩
            intro member
            rcases List.mem_cons.mp member with same | later
            · exact other same.symm
            · exact absent later
  rw [Parser.read_eq_foldl] at real
  refine (folded real).resolve_right ?_
  rintro ⟨_, start⟩
  rw [dry] at start
  exact Bool.noConfusion start

section Instances

end Instances

end Consent

section Calls

-- each step of a block doubles the size that is counted for its instance
set_option synthInstance.maxSize 1000000000000000000

variable {dryRun yes : Bool}

end Calls

section Commands

variable {cmd first second : Arg} {rest args : List Arg}

end Commands

/-- A command line that writes an image, without more options than it needs. -/
def writeArgs : List Arg :=
  [ascii "write", ascii "a.iso", ascii "/dev/sdb", realFlag, yesFlag]

theorem main_writeArgs :
    main writeArgs = write { writeDefaults with dryRun := false, yes := true } := by
  have checked : validateFlags (ascii "write")
      [ascii "a.iso", ascii "/dev/sdb", realFlag, yesFlag] = none := by decide +kernel
  have options : writeParser.read [realFlag, yesFlag] writeDefaults =
      { writeDefaults with dryRun := false, yes := true } := by
    simp [Parser.read, writeParser, realFlag, yesFlag, ascii, List.lookup]
  have window : ¬(ascii "write" = ascii "--gui" ∨ ascii "write" = ascii "gui") := by
    simp [ascii]
  have dispatched : command (ascii "write") [ascii "a.iso", ascii "/dev/sdb", realFlag, yesFlag] =
      write (writeParser.read [realFlag, yesFlag] writeDefaults) := by
    unfold command
    exact if_pos rfl
  rw [writeArgs, main, if_neg window, checked, dispatched, options]
  rfl

end Rufux.Cli
