import Rufux.Bootcheck.Authenticode
import Rufux.Bootcheck.Policy

/-!
The components that stand below their level, by the numbers that are written, and by what the
check keeps of numbers, names and lines.
-/

namespace Rufux.Bootcheck

open Library

/-- Components, or levels, and their generation. -/
abbrev Generations := List (CString × Int)

section Readings

variable (sbatLevel sb : CString)

/-- The lines with a comma, whatever ends a line. -/
def generations (text : CString) : Generations :=
  ((text.splitOnP fun char => char == 10 || char == 13).filterMap cutAtComma).map fun line =>
    (line.1, numberIn 10 line.2)

/-- The components whose generation is smaller than that of a level of their name. Names in
upper case are no components. -/
def lowNames (components levels : Generations) : List CString :=
  (components.filter fun component => levels.any fun level =>
    !isUpper level.1 && component.1 == level.1 && decide (component.2 < level.2)).map (·.1)

/-- What `revoked_by_sbat` keeps of the components: the lines up to a line feed, and numbers
of 32 bits. -/
def keptComponents : Generations :=
  ((strtokLines sb).filterMap cutAtComma).map fun line =>
    (line.1, (unsigned32 (numberIn 10 line.2) : Int))

/-- What `load_levels` keeps of the levels: sixteen lines, names of 63 bytes, and numbers of
32 bits, in the base that they start like. -/
def keptLevels : Generations :=
  (loadLevels sbatLevel 16).map fun level => (level.product, (level.version : Int))

/-- What is kept leaves the same components below their level, or some are below it in both
readings. -/
def KeptWell : Prop :=
  (∀ name, name ∈ lowNames (generations sb) (generations sbatLevel) ↔
      name ∈ lowNames (keptComponents sb) (keptLevels sbatLevel)) ∨
    (lowNames (generations sb) (generations sbatLevel) ≠ [] ∧
      lowNames (keptComponents sb) (keptLevels sbatLevel) ≠ [])

end Readings

section Verdict

variable {sbatLevel sb text : CString} {pe : Pe} {components levels : Generations} {name : CString}

theorem mem_lowNames : name ∈ lowNames components levels ↔ ∃ generation minimum,
    (name, generation) ∈ components ∧ (name, minimum) ∈ levels ∧ isUpper name = false ∧
      generation < minimum := by
  unfold lowNames
  rw [List.mem_map]
  constructor
  · rintro ⟨⟨name, generation⟩, among, rfl⟩
    obtain ⟨inside, low⟩ := List.mem_filter.mp among
    obtain ⟨⟨other, minimum⟩, listed, fits⟩ := List.any_eq_true.mp low
    simp only [Bool.and_eq_true, Bool.not_eq_true', beq_iff_eq, decide_eq_true_eq] at fits
    obtain ⟨⟨lower, rfl⟩, less⟩ := fits
    exact ⟨generation, minimum, inside, listed, lower, less⟩
  · rintro ⟨generation, minimum, inside, listed, lower, less⟩
    refine ⟨(name, generation), List.mem_filter.mpr ⟨inside, ?_⟩, rfl⟩
    refine List.any_eq_true.mpr ⟨(name, minimum), listed, ?_⟩
    simp [lower, less]

theorem unsigned32_of_small {number : Int} (low : 0 ≤ number) (high : number < 2 ^ 32) :
    (unsigned32 number : Int) = number := by
  unfold unsigned32 unsignedLong
  rw [if_neg (by omega)]
  omega

theorem splitOnP_of_lineFeeds (feeds : 13 ∉ text) :
    text.splitOnP (fun char => char == 10 || char == 13) = text.splitOn 10 := by
  rw [List.splitOn_eq_splitOnP]
  induction text with
  | nil => rfl
  | cons char rest ih =>
      have other : char ≠ 13 := by
        rintro rfl
        exact feeds List.mem_cons_self
      rw [List.splitOnP_cons_eq_if_modifyHead, List.splitOnP_cons_eq_if_modifyHead,
        ih fun inside => feeds (List.mem_cons_of_mem _ inside)]
      simp [other]

/-- The lines of a text without carriage returns. -/
theorem generations_of_lineFeeds (feeds : 13 ∉ text) : generations text =
    ((strtokLines text).filterMap cutAtComma).map fun line => (line.1, numberIn 10 line.2) := by
  unfold generations strtokLines
  rw [splitOnP_of_lineFeeds feeds, List.filterMap_filter]
  congr 2
  funext line
  split
  · rfl
  · rename_i empty
    rw [show line = [] by simpa using empty]
    rfl

/-- A list of sixteen levels with names of 63 bytes and decimal numbers of 32 bits is kept as
it is written, but for the names in upper case. -/
theorem mem_keptLevels {minimum : Int} (feeds : 13 ∉ sbatLevel)
    (few : ((strtokLines sbatLevel).filterMap cutAtComma).length ≤ 16)
    (plain : ∀ line ∈ (strtokLines sbatLevel).filterMap cutAtComma, isUpper line.1 = false →
      line.1.length ≤ 63 ∧ numberIn 0 line.2 = numberIn 10 line.2 ∧
        0 ≤ numberIn 10 line.2 ∧ numberIn 10 line.2 < 2 ^ 32) (lower : isUpper name = false) :
    (name, minimum) ∈ keptLevels sbatLevel ↔ (name, minimum) ∈ generations sbatLevel := by
  rw [generations_of_lineFeeds feeds, keptLevels, loadLevels, List.take_of_length_le few, List.map_map,
    List.mem_map, List.mem_map]
  refine exists_congr fun line => and_congr_right fun among => ?_
  rw [Prod.mk.injEq]
  dsimp only [Function.comp_apply]
  rw [Prod.mk.injEq]
  by_cases upper : isUpper line.1 = true
  · have taken : isUpper (line.1.take 63) = true := by
      unfold isUpper at upper ⊢
      rw [List.all_eq_true] at upper ⊢
      exact fun char inside => upper char (List.mem_of_mem_take inside)
    refine iff_of_false ?_ ?_
    · rintro ⟨rfl, -⟩
      rw [taken] at lower
      cases lower
    · rintro ⟨rfl, -⟩
      rw [upper] at lower
      cases lower
  · obtain ⟨short, decimal, low, high⟩ := plain line among (by simpa using upper)
    rw [List.take_of_length_le short, decimal, unsigned32_of_small low high]

/-- With such levels, and components whose lines end in line feeds and whose numbers have 32
bits, the same components are below their level. -/
theorem keptWell_of_ordinary (components : 13 ∉ sb) (levels : 13 ∉ sbatLevel)
    (few : ((strtokLines sbatLevel).filterMap cutAtComma).length ≤ 16)
    (plain : ∀ line ∈ (strtokLines sbatLevel).filterMap cutAtComma, isUpper line.1 = false →
      line.1.length ≤ 63 ∧ numberIn 0 line.2 = numberIn 10 line.2 ∧
        0 ≤ numberIn 10 line.2 ∧ numberIn 10 line.2 < 2 ^ 32)
    (small : ∀ line ∈ (strtokLines sb).filterMap cutAtComma,
      0 ≤ numberIn 10 line.2 ∧ numberIn 10 line.2 < 2 ^ 32) : KeptWell sbatLevel sb := by
  have same : keptComponents sb = generations sb := by
    rw [generations_of_lineFeeds components]
    refine List.map_congr_left ?_
    intro line inside
    rw [unsigned32_of_small (small line inside).1 (small line inside).2]
  refine Or.inl fun name => ?_
  rw [mem_lowNames, mem_lowNames, same]
  refine exists_congr fun generation => exists_congr fun minimum => and_congr_right fun _ => ?_
  by_cases lower : isUpper name = false
  · rw [mem_keptLevels levels few plain lower]
  · simp [lower]

/-- The levels that the program is built with are kept as they are written. -/
theorem builtinLevels_keptWell (components : 13 ∉ sb)
    (small : ∀ line ∈ (strtokLines sb).filterMap cutAtComma,
      0 ≤ numberIn 10 line.2 ∧ numberIn 10 line.2 < 2 ^ 32) : KeptWell builtinLevels sb := by
  refine keptWell_of_ordinary components ?_ ?_ ?_ small
  · decide +kernel
  · decide +kernel
  · decide +kernel

end Verdict

/-! ### A generation of `2 ^ 32` -/

section Wrapped

end Wrapped

end Rufux.Bootcheck
