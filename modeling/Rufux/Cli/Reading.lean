import Rufux.Cli.Commands

/-!
The parsers of the commands against the table of options: in a command line that has passed the
check no option is passed over.
-/

namespace Rufux.Cli

open Linux Create.Effects

section Items

variable {O : Type} {p : Parser O}

/-- What an item does to the options. -/
def Parser.apply (p : Parser O) (o : O) : Item → O
  | .flag option => (p.flags.lookup option).elim o fun set => set o
  | .value option value => (p.values.lookup option).elim o fun set => set value o
  | .word _ => o

variable {arg : Arg} {rest : List Arg}

theorem Parser.items_flag (known : (p.flags.lookup arg).isSome = true) :
    p.items (arg :: rest) = .flag arg :: p.items rest := by
  cases rest <;> simp [Parser.items, known]

theorem Parser.items_value {value : Arg} (missed : (p.flags.lookup arg).isSome = false)
    (known : (p.values.lookup arg).isSome = true) :
    p.items (arg :: value :: rest) = .value arg value :: p.items rest := by
  simp [Parser.items, missed, known]

theorem Parser.items_word (missed : (p.flags.lookup arg).isSome = false)
    (absent : (p.values.lookup arg).isSome = false ∨ rest = []) :
    p.items (arg :: rest) = .word arg :: p.items rest := by
  cases rest with
  | nil => simp [Parser.items, missed]
  | cons value rest =>
      obtain unknown := absent.resolve_right (List.cons_ne_nil value rest)
      simp [Parser.items, missed, unknown]

theorem Parser.read_eq_foldl (p : Parser O) (args : List Arg) (o : O) :
    p.read args o = (p.items args).foldl p.apply o := by
  fun_induction Parser.read p args o with
  | case1 o => rfl
  | case2 arg rest o set found ih =>
      rw [Parser.items_flag (by rw [found]; rfl)]
      simpa [Parser.apply, found] using ih
  | case3 arg o missed set found value rest ih =>
      rw [Parser.items_value (by rw [missed]; rfl) (by rw [found]; rfl)]
      simpa [Parser.apply, found] using ih
  | case4 arg o missed set found =>
      rw [Parser.items_word (by rw [missed]; rfl) (.inr rfl)]
      rfl
  | case5 arg rest o missed absent ih =>
      rw [Parser.items_word (by rw [missed]; rfl) (.inl (by rw [absent]; rfl))]
      exact ih

theorem lookup_isSome_iff {β : Type} {table : List (Arg × β)} {word : Arg} :
    (table.lookup word).isSome = true ↔ word ∈ table.map Prod.fst := by
  rw [List.lookup_isSome_iff, List.mem_map]
  constructor
  · rintro ⟨entry, member, same⟩
    exact ⟨entry, member, (eq_of_beq same).symm⟩
  · rintro ⟨entry, member, rfl⟩
    exact ⟨entry, member, beq_self_eq_true entry.1⟩

end Items

/-- The names that a line of the table lists are those that a parser knows, and look like options. -/
def Agrees (sp : CmdSpec) (flags values : List Arg) : Prop :=
  (segments sp.flags).Perm flags ∧ (segments sp.values).Perm values ∧
    ∀ word ∈ segments sp.flags ++ segments sp.values, plain word = false

instance (sp : CmdSpec) (flags values : List Arg) : Decidable (Agrees sp flags values) :=
  inferInstanceAs (Decidable (_ ∧ _ ∧ _))

/-- A command: its line in the table, the arguments before its options, and the parser of these,
which knows the options of the line and no others. -/
structure Command where
  spec : CmdSpec
  listed : spec ∈ specs
  positionals : Nat
  O : Type
  parser : Parser O
  agrees : Agrees spec (parser.flags.map Prod.fst) (parser.values.map Prod.fst)

section Commands

theorem Command.isFlag (c : Command) (word : Arg) :
    (c.parser.flags.lookup word).isSome = inList c.spec.flags word := by
  rw [Bool.eq_iff_iff, lookup_isSome_iff, ← c.agrees.1.mem_iff]
  simp [inList]

theorem Command.isValue (c : Command) (word : Arg) :
    (c.parser.values.lookup word).isSome = inList c.spec.values word := by
  rw [Bool.eq_iff_iff, lookup_isSome_iff, ← c.agrees.2.1.mem_iff]
  simp [inList]

theorem Command.plain_eq_false (c : Command) {word : Arg}
    (option : inList c.spec.flags word = true ∨ inList c.spec.values word = true) :
    plain word = false := by
  refine c.agrees.2.2 word (List.mem_append.mpr ?_)
  simpa [inList] using option

/-- In accepted arguments what is no option of the command does not look like one. -/
theorem Command.plain_of_word (c : Command) {args : List Arg}
    (accepted : validateFrom c.spec args = none) :
    ∀ arg, .word arg ∈ c.parser.items args → plain arg = true := by
  fun_induction validateFrom c.spec args with
  | case1 => simp [Parser.items]
  | case2 arg rest looks ih =>
      have noFlag : inList c.spec.flags arg = false := by
        by_contra option
        have dashed := c.plain_eq_false (.inl (Bool.not_eq_false _ ▸ option))
        rw [looks] at dashed
        exact Bool.noConfusion dashed
      have noValue : inList c.spec.values arg = false := by
        by_contra option
        have dashed := c.plain_eq_false (.inr (Bool.not_eq_false _ ▸ option))
        rw [looks] at dashed
        exact Bool.noConfusion dashed
      rw [Parser.items_word (c.isFlag arg ▸ noFlag) (.inl (c.isValue arg ▸ noValue))]
      intro word member
      rcases List.mem_cons.mp member with same | later
      · obtain rfl := Item.word.inj same
        exact looks
      · exact ih accepted word later
  | case3 arg rest looks flag ih =>
      rw [Parser.items_flag (c.isFlag arg ▸ flag)]
      intro word member
      exact ih accepted word (by simpa using member)
  | case4 arg looks missed value => simp at accepted
  | case5 arg looks missed value given rest ih =>
      rw [Parser.items_value (c.isFlag arg ▸ Bool.eq_false_of_not_eq_true missed)
        (c.isValue arg ▸ value)]
      intro word member
      exact ih accepted word (by simpa using member)
  | case6 arg rest looks missed absent => simp at accepted

section Check

variable {sp : CmdSpec} {arg : Arg} {rest : List Arg}

theorem validateFrom_passes (passes : plain arg = true ∨ inList sp.flags arg = true) :
    validateFrom sp (arg :: rest) = validateFrom sp rest := by
  by_cases looks : plain arg = true
  · cases rest <;> simp [validateFrom, looks]
  · have flag := passes.resolve_left looks
    cases rest <;> simp [validateFrom, looks, flag]

theorem validateFrom_value {value : Arg} (looks : ¬plain arg = true)
    (missed : ¬inList sp.flags arg = true) (known : inList sp.values arg = true) :
    validateFrom sp (arg :: value :: rest) = validateFrom sp rest := by
  simp [validateFrom, looks, missed, known]

theorem validateFrom_unknown (looks : ¬plain arg = true) (missed : ¬inList sp.flags arg = true)
    (absent : ¬inList sp.values arg = true) : validateFrom sp (arg :: rest) ≠ none := by
  cases rest <;> simp [validateFrom, looks, missed, absent]

end Check

/-- The check goes on behind arguments the last of which does not take a value. -/
theorem validateFrom_append {sp : CmdSpec} {positional opts : List Arg}
    (accepted : validateFrom sp (positional ++ opts) = none)
    (last : ∀ arg, positional.getLast? = some arg → inList sp.values arg = false) :
    validateFrom sp opts = none := by
  have behind : ∀ {arg : Arg} {rest : List Arg},
      (∀ word, (arg :: rest).getLast? = some word → inList sp.values word = false) →
        ∀ word, rest.getLast? = some word → inList sp.values word = false := by
    intro arg rest last word found
    refine last word ?_
    rw [List.getLast?_cons, found]
    rfl
  fun_induction validateFrom sp positional with
  | case1 => simpa using accepted
  | case2 arg rest looks ih =>
      rw [List.cons_append, validateFrom_passes (.inl looks)] at accepted
      exact ih accepted (behind last)
  | case3 arg rest looks flag ih =>
      rw [List.cons_append, validateFrom_passes (.inr flag)] at accepted
      exact ih accepted (behind last)
  | case4 arg looks missed value =>
      have free := last arg rfl
      rw [value] at free
      exact Bool.noConfusion free
  | case5 arg looks missed value given rest ih =>
      rw [List.cons_append, List.cons_append, validateFrom_value looks missed value] at accepted
      exact ih accepted (behind (behind last))
  | case6 arg rest looks missed absent =>
      exact absurd accepted (validateFrom_unknown looks missed absent)

/-- The commands of the table that have options. -/
def commands : List Command :=
  [⟨specs[0], List.getElem_mem _, 0, _, listParser, by
      unfold specs listParser
      dsimp only [List.getElem_cons_succ, List.getElem_cons_zero]
      repeat rw [ascii_ofList]
      decide +kernel⟩,
    ⟨specs[1], List.getElem_mem _, 1, _, probeParser, by
      unfold specs probeParser
      dsimp only [List.getElem_cons_succ, List.getElem_cons_zero]
      repeat rw [ascii_ofList]
      decide +kernel⟩,
    ⟨specs[2], List.getElem_mem _, 1, _, checksumParser, by
      unfold specs checksumParser
      dsimp only [List.getElem_cons_succ, List.getElem_cons_zero]
      repeat rw [ascii_ofList]
      decide +kernel⟩,
    ⟨specs[3], List.getElem_mem _, 2, _, writeParser, by
      unfold specs writeParser
      dsimp only [List.getElem_cons_succ, List.getElem_cons_zero]
      repeat rw [ascii_ofList]
      decide +kernel⟩,
    ⟨specs[4], List.getElem_mem _, 1, _, partitionParser, by
      unfold specs partitionParser
      dsimp only [List.getElem_cons_succ, List.getElem_cons_zero]
      repeat rw [ascii_ofList]
      decide +kernel⟩,
    ⟨specs[5], List.getElem_mem _, 1, _, formatParser, by
      unfold specs formatParser
      dsimp only [List.getElem_cons_succ, List.getElem_cons_zero]
      repeat rw [ascii_ofList]
      decide +kernel⟩,
    ⟨specs[6], List.getElem_mem _, 2, _, dryParser, by
      unfold specs dryParser
      dsimp only [List.getElem_cons_succ, List.getElem_cons_zero]
      repeat rw [ascii_ofList]
      decide +kernel⟩,
    ⟨specs[7], List.getElem_mem _, 1, _, installBootParser, by
      unfold specs installBootParser
      dsimp only [List.getElem_cons_succ, List.getElem_cons_zero]
      repeat rw [ascii_ofList]
      decide +kernel⟩,
    ⟨specs[8], List.getElem_mem _, 1, _, persistParser, by
      unfold specs persistParser
      dsimp only [List.getElem_cons_succ, List.getElem_cons_zero]
      repeat rw [ascii_ofList]
      decide +kernel⟩,
    ⟨specs[9], List.getElem_mem _, 1, _, badblocksParser, by
      unfold specs badblocksParser
      dsimp only [List.getElem_cons_succ, List.getElem_cons_zero]
      repeat rw [ascii_ofList]
      decide +kernel⟩,
    ⟨specs[10], List.getElem_mem _, 1, _, dryParser, by
      unfold specs dryParser
      dsimp only [List.getElem_cons_succ, List.getElem_cons_zero]
      repeat rw [ascii_ofList]
      decide +kernel⟩,
    ⟨specs[11], List.getElem_mem _, 1, _, dryParser, by
      unfold specs dryParser
      dsimp only [List.getElem_cons_succ, List.getElem_cons_zero]
      repeat rw [ascii_ofList]
      decide +kernel⟩,
    ⟨specs[17], List.getElem_mem _, 0, _, downloadParser, by
      unfold specs downloadParser
      dsimp only [List.getElem_cons_succ, List.getElem_cons_zero]
      repeat rw [ascii_ofList]
      decide +kernel⟩,
    ⟨specs[18], List.getElem_mem _, 2, _, createParser, by
      unfold specs createParser
      dsimp only [List.getElem_cons_succ, List.getElem_cons_zero]
      repeat rw [ascii_ofList]
      decide +kernel⟩]

theorem commands_complete : ∀ sp ∈ specs,
    sp ∈ commands.map Command.spec ∨ (sp.flags = [] ∧ sp.values = []) := by
  have empty : ascii "" = [] := rfl
  intro sp member
  simp only [specs, List.mem_cons, List.not_mem_nil, or_false] at member
  rcases member with rfl | rfl | rfl | rfl | rfl | rfl | rfl | rfl | rfl | rfl | rfl | rfl | rfl |
    rfl | rfl | rfl | rfl | rfl | rfl <;> simp [commands, specs, empty]

theorem nodup_specs : (specs.map CmdSpec.cmd).Nodup := by
  have names : specs.map CmdSpec.cmd =
      [[108, 105, 115, 116], [112, 114, 111, 98, 101], [99, 104, 101, 99, 107, 115, 117, 109],
        [119, 114, 105, 116, 101], [112, 97, 114, 116, 105, 116, 105, 111, 110],
        [102, 111, 114, 109, 97, 116], [101, 120, 116, 114, 97, 99, 116],
        [105, 110, 115, 116, 97, 108, 108, 45, 98, 111, 111, 116],
        [112, 101, 114, 115, 105, 115, 116], [98, 97, 100, 98, 108, 111, 99, 107, 115],
        [109, 111, 117, 110, 116], [117, 109, 111, 117, 110, 116],
        [115, 101, 99, 117, 114, 101, 98, 111, 111, 116, 45, 115, 116, 97, 116, 117, 115],
        [118, 97, 108, 105, 100, 97, 116, 101, 45, 101, 102, 105], [115, 109, 97, 114, 116],
        [99, 104, 101, 99, 107, 45, 98, 111, 111, 116],
        [117, 112, 100, 97, 116, 101, 45, 99, 104, 101, 99, 107],
        [100, 111, 119, 110, 108, 111, 97, 100, 45, 119, 105, 110, 100, 111, 119, 115],
        [99, 114, 101, 97, 116, 101]] := rfl
  rw [names]
  decide +kernel

theorem find_spec {table : List CmdSpec} (nodup : (table.map CmdSpec.cmd).Nodup) {sp : CmdSpec}
    (member : sp ∈ table) : table.find? (·.cmd = sp.cmd) = some sp := by
  induction table with
  | nil => exact absurd member List.not_mem_nil
  | cons head table ih =>
      rw [List.map_cons, List.nodup_cons] at nodup
      rcases List.mem_cons.mp member with rfl | later
      · simp
      · have other : head.cmd ≠ sp.cmd := by
          intro same
          exact nodup.1 (same ▸ List.mem_map_of_mem later)
        rw [List.find?_cons_of_neg (by simpa using other)]
        exact ih nodup.2 later

/-- In an accepted command line everything behind the positional arguments is read, unless the last
of these is the name of an option that takes a value: what is neither an option of the command nor
the value of one does not look like an option. -/
theorem options_read (c : Command) (args : List Arg)
    (accepted : validateFlags c.spec.cmd args = none)
    (last : ∀ arg, (args.take c.positionals).getLast? = some arg →
      inList c.spec.values arg = false) :
    ∀ arg, .word arg ∈ c.parser.items (args.drop c.positionals) → plain arg = true := by
  rw [validateFlags, find_spec nodup_specs c.listed] at accepted
  rw [← List.take_append_drop c.positionals args] at accepted
  exact c.plain_of_word (validateFrom_append accepted last)

theorem options_read_write :
    validateFlags (ascii "write")
        [ascii "a.iso", ascii "/dev/sdb", ascii "--real", ascii "--yes", ascii "-"] = none ∧
      .word (ascii "-") ∈ writeParser.items [ascii "--real", ascii "--yes", ascii "-"] ∧
      plain (ascii "-") = true := by
  have accepted : validateFlags (ascii "write")
      [ascii "a.iso", ascii "/dev/sdb", ascii "--real", ascii "--yes", ascii "-"] = none := by
    decide +kernel
  have last : ∀ arg, ([ascii "a.iso", ascii "/dev/sdb"] : List Arg).getLast? = some arg →
      inList (specs[3]).values arg = false := by
    rintro arg ⟨⟩
    decide
  have read : .word (ascii "-") ∈ writeParser.items [ascii "--real", ascii "--yes", ascii "-"] := by
    decide +kernel
  exact ⟨accepted, read, options_read commands[3]
    [ascii "a.iso", ascii "/dev/sdb", ascii "--real", ascii "--yes", ascii "-"] accepted last
    (ascii "-") read⟩

end Commands

end Rufux.Cli
