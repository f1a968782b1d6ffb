import Rufux.Library.KeyValue

/-!
Reading a text line by line through a buffer of fixed size, and what is read of a text of
`key=value` lines whatever its values hold.
-/

namespace Rufux.Library

/-- What one `fgets` into so many bytes and a terminator returns. -/
def fgets (most : Nat) (text : List Char) : List Char := text.take (min most (text.idxOf '\n' + 1))

/-- What one `fgets` after the other returns. -/
def fgetsLines (most : Nat) : Nat → List Char → List (List Char)
  | 0, _ => []
  | _ + 1, [] => []
  | fuel + 1, char :: text =>
      fgets most (char :: text) ::
        fgetsLines most fuel ((char :: text).drop (fgets most (char :: text)).length)

/-- What a line with its end says, once newlines and carriage returns are cut off its end. -/
def pieceEntry (piece : List Char) : Option (List Char × List Char) :=
  let line := piece.rdropWhile fun char => char = '\n' ∨ char = '\r'
  if '=' ∈ line then some (line.takeWhile (· ≠ '='), (line.dropWhile (· ≠ '=')).tail) else none

variable {most fuel limit : Nat} {text line piece key value front back : List Char}
  {entries : List (List Char × List Char)}

theorem fgets_line (single : '\n' ∉ line) (short : line.length < most) (rest : List Char) :
    fgets most (line ++ '\n' :: rest) = line ++ ['\n'] := by
  have place : (line ++ '\n' :: rest).idxOf '\n' = line.length := by
    rw [List.idxOf_append_of_notMem single, List.idxOf_cons_self, Nat.add_zero]
  have whole : line ++ '\n' :: rest = (line ++ ['\n']) ++ rest := by simp
  have size : min most (line.length + 1) = (line ++ ['\n']).length := by
    rw [List.length_append, List.length_singleton]
    omega
  rw [fgets, place, size, whole, List.take_left]

theorem fgets_last (single : '\n' ∉ line) (short : line.length < most) : fgets most line = line := by
  have place : line.idxOf '\n' = line.length := List.idxOf_eq_length_iff.mpr single
  rw [fgets, place]
  exact List.take_of_length_le (by omega)

theorem rdropWhile_line (single : '\n' ∉ line) :
    (line.rdropWhile fun char => char = '\n' ∨ char = '\r') = line.rdropWhile (· = '\r') := by
  induction line using List.reverseRecOn with
  | nil => rfl
  | append_singleton line char ih =>
      have other : char ≠ '\n' := fun same => single (by simp [same])
      have before : '\n' ∉ line := fun inside => single (List.mem_append_left _ inside)
      rw [List.rdropWhile_concat, List.rdropWhile_concat, ih before]
      simp [other]

theorem pieceEntry_line (single : '\n' ∉ line) : pieceEntry line = lineEntry line := by
  unfold pieceEntry lineEntry
  rw [rdropWhile_line single]

theorem pieceEntry_newline (single : '\n' ∉ line) :
    pieceEntry (line ++ ['\n']) = lineEntry line := by
  rw [← pieceEntry_line single]
  unfold pieceEntry
  rw [List.rdropWhile_concat_pos _ _ _ (by decide)]

/-- A text up to its first newline, and what follows. -/
theorem text_split (text : List Char) :
    '\n' ∉ text ∨ ∃ line rest, '\n' ∉ line ∧ text = line ++ '\n' :: rest := by
  by_cases inside : '\n' ∈ text
  · obtain ⟨line, rest, same, single⟩ := List.eq_append_cons_of_mem inside
    exact .inr ⟨line, rest, single, same⟩
  · exact .inl inside

/-- Where every line fits the buffer, it is read as if there were none. -/
theorem fgetsLines_entries (short : ∀ line ∈ text.splitOn '\n', line.length < most)
    (enough : text.length ≤ fuel) :
    (fgetsLines most fuel text).filterMap pieceEntry = readEntries text := by
  induction fuel generalizing text with
  | zero =>
      rw [List.length_eq_zero_iff.mp (Nat.le_zero.mp enough)]
      rfl
  | succ fuel ih =>
      cases shape : text with
      | nil => rfl
      | cons char tail =>
          rw [← shape]
          have step : fgetsLines most (fuel + 1) text =
              fgets most text :: fgetsLines most fuel (text.drop (fgets most text).length) := by
            rw [shape]
            rfl
          rw [step]
          rcases text_split text with single | ⟨line, rest, single, split⟩
          · have lines : text.splitOn '\n' = [text] := List.splitOn_eq_singleton single
            have fits := short text (by rw [lines]; exact List.mem_singleton_self text)
            have done : fgetsLines most fuel [] = [] := by cases fuel <;> rfl
            rw [fgets_last single fits, List.drop_length, done, readEntries, lines,
              List.filterMap_cons, List.filterMap_cons, pieceEntry_line single]
            rfl
          · have lines : text.splitOn '\n' = line :: rest.splitOn '\n' := by
              rw [split, List.splitOn_append_cons_self_of_not_mem single]
            rw [lines] at short
            have fits := short line List.mem_cons_self
            have whole : text = (line ++ ['\n']) ++ rest := by
              rw [split, List.append_assoc, List.singleton_append]
            have left : text.drop (line ++ ['\n']).length = rest := by
              rw [whole, List.drop_left]
            have piece : fgets most text = line ++ ['\n'] := by
              rw [split, fgets_line single fits]
            have smaller : rest.length ≤ fuel := by
              rw [split, List.length_append, List.length_cons] at enough
              omega
            have later := ih (fun line member => short line (List.mem_cons_of_mem _ member)) smaller
            rw [piece, left, readEntries, lines, List.filterMap_cons, List.filterMap_cons,
              pieceEntry_newline single, later]
            rfl

/-! ### Values that may break their lines -/

theorem splitOn_length (member : line ∈ text.splitOn '\n') : line.length ≤ text.length := by
  induction text generalizing line with
  | nil =>
      rw [List.splitOn_nil] at member
      rw [List.mem_singleton.mp member]
  | cons char text ih =>
      rw [List.splitOn_cons_eq_if_modifyHead] at member
      rw [List.length_cons]
      split at member
      · rcases List.mem_cons.mp member with rfl | later
        · exact Nat.zero_le _
        · exact Nat.le_succ_of_le (ih later)
      · cases lines : text.splitOn '\n' with
        | nil => exact absurd lines (List.splitOn_ne_nil '\n' text)
        | cons first rest =>
            rw [lines, List.modifyHead_cons] at member
            rcases List.mem_cons.mp member with rfl | later
            · have bound := ih (lines ▸ List.mem_cons_self)
              rw [List.length_cons]
              omega
            · exact Nat.le_succ_of_le (ih (lines ▸ List.mem_cons_of_mem _ later))

theorem splitOn_single (member : line ∈ text.splitOn '\n') : '\n' ∉ line := by
  induction text generalizing line with
  | nil =>
      rw [List.splitOn_nil] at member
      rw [List.mem_singleton.mp member]
      exact List.not_mem_nil
  | cons char text ih =>
      rw [List.splitOn_cons_eq_if_modifyHead] at member
      split at member
      · rcases List.mem_cons.mp member with rfl | later
        · exact List.not_mem_nil
        · exact ih later
      · rename_i other
        cases lines : text.splitOn '\n' with
        | nil => exact absurd lines (List.splitOn_ne_nil '\n' text)
        | cons first rest =>
            rw [lines, List.modifyHead_cons] at member
            rcases List.mem_cons.mp member with rfl | later
            · intro inside
              rcases List.mem_cons.mp inside with same | within
              · exact other (by simp [← same])
              · exact ih (lines ▸ List.mem_cons_self) within
            · exact ih (lines ▸ List.mem_cons_of_mem _ later)

/-- The lines of a keyed value: the value's own, the first one behind its key. -/
theorem splitOn_keyed (single : '\n' ∉ front) (value : List Char) :
    (front ++ value).splitOn '\n' = (value.splitOn '\n').modifyHead (front ++ ·) := by
  induction front with
  | nil =>
      cases lines : value.splitOn '\n' with
      | nil => exact absurd lines (List.splitOn_ne_nil '\n' value)
      | cons first rest => rw [List.nil_append, lines]; rfl
  | cons char front ih =>
      have other : (char == '\n') = false := by
        rw [beq_eq_false_iff_ne]
        rintro rfl
        exact single List.mem_cons_self
      have later := ih fun inside => single (List.mem_cons_of_mem _ inside)
      rw [List.cons_append, List.splitOn_cons_eq_if_modifyHead, other, later]
      cases lines : value.splitOn '\n' with
      | nil => exact absurd lines (List.splitOn_ne_nil '\n' value)
      | cons first rest => rfl

theorem lineEntry_value (single : '\n' ∉ line) (said : lineEntry line = some (key, value)) :
    PlainText value ∧ value.length ≤ line.length := by
  unfold lineEntry at said
  dsimp only at said
  split at said
  · cases said
    have part : ((line.rdropWhile (· = '\r')).dropWhile (· ≠ '=')).tail <:+
        line.rdropWhile (· = '\r') :=
      (List.tail_suffix _).trans (List.dropWhile_suffix _)
    have front : line.rdropWhile (· = '\r') <+: line := List.rdropWhile_prefix _ _
    refine ⟨⟨fun inside => single (front.subset (part.subset inside)), fun ending => ?_⟩,
      part.length_le.trans front.length_le⟩
    obtain ⟨before, same⟩ := part
    have last : (line.rdropWhile (· = '\r')).getLast? = some '\r' := by
      rw [← same, List.getLast?_append, ending]
      rfl
    have nonempty : line.rdropWhile (· = '\r') ≠ [] := by
      intro empty
      rw [empty] at last
      cases last
    have dropped := List.rdropWhile_last_not (fun char => decide (char = '\r')) line nonempty
    rw [List.getLast?_eq_some_getLast nonempty] at last
    exact dropped (decide_eq_true (Option.some.inj last))
  · cases said

theorem rdropWhile_keyed (front back : List Char) :
    (front ++ '=' :: back).rdropWhile (· = '\r') = front ++ '=' :: back.rdropWhile (· = '\r') := by
  induction back using List.reverseRecOn with
  | nil => exact List.rdropWhile_concat_neg _ _ _ (by decide)
  | append_singleton back char ih =>
      have whole : front ++ '=' :: (back ++ [char]) = (front ++ '=' :: back) ++ [char] := by simp
      rw [whole, List.rdropWhile_concat, List.rdropWhile_concat, ih]
      split <;> simp

theorem lineEntry_keyed (separated : '=' ∉ front)
    (said : lineEntry (front ++ '=' :: back) = some (key, value)) : value.length ≤ back.length := by
  have before : ∀ char ∈ front, decide (char ≠ '=') = true := fun char inside =>
    decide_eq_true fun same => separated (same ▸ inside)
  unfold lineEntry at said
  rw [rdropWhile_keyed, if_pos (by simp), List.dropWhile_append_of_pos before] at said
  cases said
  rw [List.dropWhile_cons, if_neg (by decide), List.tail_cons]
  exact (List.rdropWhile_prefix _ _).length_le

/-- The lines of a text of entries: those of each value, the first one behind its key. -/
theorem splitOn_entries (plain : PlainKey key) (value : List Char)
    (rest : List (List Char × List Char)) :
    (entriesText ((key, value) :: rest)).splitOn '\n' =
      (value.splitOn '\n').modifyHead (key ++ '=' :: ·) ++ (entriesText rest).splitOn '\n' := by
  have shape : entriesText ((key, value) :: rest) =
      ((key ++ ['=']) ++ value) ++ '\n' :: entriesText rest := by
    simp [entriesText]
  have single : '\n' ∉ key ++ ['='] := by
    intro inside
    rcases List.mem_append.mp inside with first | second
    · exact plain.1 first
    · exact absurd (List.mem_singleton.mp second) (by decide)
  have fronts : ((key ++ ['=']) ++ ·) = (key ++ '=' :: ·) := by
    funext value
    simp
  rw [shape, List.splitOn_append_cons_self, splitOn_keyed single, fronts]

/-- Whatever the values of a text of entries hold: no line is longer than a key with the longest
value, and no value that is read is longer than the longest one or keeps a line end. -/
theorem entriesText_lines {size : Nat} (keys : ∀ entry ∈ entries, PlainKey entry.1)
    (few : ∀ entry ∈ entries, entry.1.length ≤ size ∧ entry.2.length ≤ limit)
    (member : line ∈ (entriesText entries).splitOn '\n') :
    line.length ≤ size + 1 + limit ∧ ∀ key value, lineEntry line = some (key, value) →
      PlainText value ∧ value.length ≤ limit := by
  have single := splitOn_single member
  induction entries with
  | nil =>
      have empty : line = [] := List.mem_singleton.mp (by simpa [entriesText] using member)
      subst empty
      exact ⟨Nat.zero_le _, fun key value said => by cases said⟩
  | cons entry rest ih =>
      obtain ⟨key, value⟩ := entry
      have plain := keys _ List.mem_cons_self
      obtain ⟨keySize, valueSize⟩ := few _ List.mem_cons_self
      dsimp only at keySize valueSize
      rw [splitOn_entries plain] at member
      rcases List.mem_append.mp member with inside | later
      · cases lines : value.splitOn '\n' with
        | nil => exact absurd lines (List.splitOn_ne_nil '\n' value)
        | cons first others =>
            rw [lines, List.modifyHead_cons] at inside
            rcases List.mem_cons.mp inside with rfl | other
            · have bound : first.length ≤ value.length :=
                splitOn_length (lines ▸ List.mem_cons_self)
              refine ⟨?_, fun k v said => ⟨(lineEntry_value single said).1, ?_⟩⟩
              · change (key ++ '=' :: first).length ≤ size + 1 + limit
                rw [List.length_append, List.length_cons]
                omega
              · exact (lineEntry_keyed plain.2 said).trans (bound.trans valueSize)
            · have bound : line.length ≤ value.length :=
                splitOn_length (lines ▸ List.mem_cons_of_mem _ other)
              refine ⟨by omega, fun k v said => ?_⟩
              obtain ⟨whole, length⟩ := lineEntry_value single said
              exact ⟨whole, by omega⟩
      · exact ih (fun entry inside => keys entry (List.mem_cons_of_mem _ inside))
          (fun entry inside => few entry (List.mem_cons_of_mem _ inside)) later

end Rufux.Library
