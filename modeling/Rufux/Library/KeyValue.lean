import Mathlib

/-!
Texts of `key=value` lines: how they are written, how they are read line by line, and that
what is written is read back.
-/

namespace Rufux.Library

/-- Texts in a list are found by comparing characters. -/
instance lawfulTexts : LawfulBEq (List Char) := inferInstance

/-- The text of a list of entries, one line each. -/
def entriesText (entries : List (List Char × List Char)) : List Char :=
  entries.flatMap fun entry => entry.1 ++ '=' :: entry.2 ++ ['\n']

/-- What a line says, its end cut off. A line without a separator says nothing. -/
def lineEntry (line : List Char) : Option (List Char × List Char) :=
  let line := line.rdropWhile (· = '\r')
  if '=' ∈ line then some (line.takeWhile (· ≠ '='), (line.dropWhile (· ≠ '=')).tail) else none

def readEntries (text : List Char) : List (List Char × List Char) :=
  (text.splitOn '\n').filterMap lineEntry

/-- A text that a line keeps whole. -/
structure PlainText (text : List Char) : Prop where
  oneLine : '\n' ∉ text
  ending : text.getLast? ≠ some '\r'

def PlainKey (key : List Char) : Prop := '\n' ∉ key ∧ '=' ∉ key

variable {key value text line : List Char} {entries : List (List Char × List Char)}

theorem plainText_nil : PlainText [] := ⟨List.not_mem_nil, nofun⟩

/-- A text without any control character stays whole. -/
theorem PlainText.of_printable (printable : ∀ char ∈ text, 32 ≤ char.toNat) : PlainText text := by
  constructor
  · intro newline
    exact absurd (printable _ newline) (by decide)
  · intro last
    exact absurd (printable _ (List.mem_of_getLast? last)) (by decide)

theorem PlainText.of_all (printable : (text.all fun char => 32 ≤ char.toNat) = true) :
    PlainText text :=
  .of_printable fun char inside => of_decide_eq_true (List.all_eq_true.mp printable char inside)

theorem PlainText.append_printable {first : List Char} (oneLine : '\n' ∉ first)
    (printable : ∀ char ∈ text, 32 ≤ char.toNat) (nonempty : text ≠ []) :
    PlainText (first ++ text) := by
  have plain := PlainText.of_printable printable
  constructor
  · simpa using ⟨oneLine, plain.oneLine⟩
  · rw [List.getLast?_append_of_ne_nil first nonempty]
    exact plain.ending

theorem lineEntry_written (plain : PlainText value) (separated : '=' ∉ key) :
    lineEntry (key ++ '=' :: value) = some (key, value) := by
  have whole : (key ++ '=' :: value).rdropWhile (· = '\r') = key ++ '=' :: value := by
    rw [List.rdropWhile_eq_self_iff]
    intro nonempty stripped
    have last : (key ++ '=' :: value).getLast? = some '\r' := by
      rw [List.getLast?_eq_some_getLast nonempty, of_decide_eq_true stripped]
    cases value with
    | nil => simp at last
    | cons first rest =>
        apply plain.ending
        simpa [List.getLast?_append] using last
  have before : ∀ char ∈ key, decide (char ≠ '=') = true := by
    intro char inside
    exact decide_eq_true fun same => separated (same ▸ inside)
  unfold lineEntry
  rw [whole, if_pos (by simp), List.takeWhile_append_of_pos before,
    List.dropWhile_append_of_pos before]
  simp

/-- What is written is read back. -/
theorem readEntries_text (keys : ∀ entry ∈ entries, PlainKey entry.1)
    (values : ∀ entry ∈ entries, PlainText entry.2) : readEntries (entriesText entries) = entries := by
  induction entries with
  | nil => rfl
  | cons entry rest ih =>
      have key := keys entry List.mem_cons_self
      have value := values entry List.mem_cons_self
      have within : ∀ char ∈ entry.1 ++ '=' :: entry.2, (char == '\n') = false := by
        intro char inside
        rw [beq_eq_false_iff_ne]
        rintro rfl
        rcases List.mem_append.mp inside with first | second
        · exact key.1 first
        · rcases List.mem_cons.mp second with bad | there
          · exact absurd bad (by decide)
          · exact value.oneLine there
      have split : (entriesText (entry :: rest)).splitOn '\n' =
          (entry.1 ++ '=' :: entry.2) :: (entriesText rest).splitOn '\n' := by
        have shape : entriesText (entry :: rest) =
            (entry.1 ++ '=' :: entry.2) ++ '\n' :: entriesText rest := by
          simp [entriesText]
        rw [shape, List.splitOn_eq_splitOnP, List.splitOn_eq_splitOnP,
          List.splitOnP_append_cons_of_forall_mem within '\n' (by decide)]
      unfold readEntries
      rw [split, List.filterMap_cons, lineEntry_written value key.2]
      have tail := ih (fun entry inside => keys entry (List.mem_cons_of_mem _ inside))
        (fun entry inside => values entry (List.mem_cons_of_mem _ inside))
      unfold readEntries at tail
      rw [tail]

end Rufux.Library
