import Rufux.Library.Xdr

/-!
Records sent on a stream, each as a single fragment, and what record marking reads of them.
-/

namespace Rufux.Library

/-- A record as one fragment, its last, behind the mark. -/
def markRecord (record : List UInt8) : List UInt8 :=
  wordBytes (0x80000000 ||| record.length) ++ record

section Marks

variable {record : List UInt8} (small : record.length < 0x80000000)

theorem length_markRecord : (markRecord record).length = 4 + record.length := by
  simp [markRecord, wordBytes_length]

include small

theorem mark_value : bigEndian (wordBytes (0x80000000 ||| record.length)) =
    0x80000000 + record.length := by
  have apart : 0x80000000 + record.length = 0x80000000 ||| record.length :=
    Nat.two_pow_add_eq_or_of_lt (i := 31) small 1
  rw [bigEndian_wordBytes, ← apart]
  omega

theorem markLength_mark :
    markLength (bigEndian (wordBytes (0x80000000 ||| record.length))) = record.length := by
  rw [mark_value small, markLength]
  omega

theorem markLast_mark :
    markLast (bigEndian (wordBytes (0x80000000 ||| record.length))) = true := by
  rw [mark_value small, markLast]
  simp

end Marks

section Reading

variable {limit : Nat} {record : List UInt8}

/-- A record sent as one fragment is the first that is read. -/
theorem readRecords_markRecord (small : record.length < 0x80000000) (fits : record.length ≤ limit)
    (rest : List UInt8) :
    readRecords limit [] (markRecord record ++ rest) =
      (record :: (readRecords limit [] rest).1, (readRecords limit [] rest).2) := by
  have length := markLength_mark small
  have last := markLast_mark small
  simp only [markRecord, wordBytes, List.cons_append, List.nil_append] at length last ⊢
  rw [readRecords]
  simp only [length, last, List.length_nil, List.length_append, List.take_left', List.drop_left',
    List.nil_append]
  rw [if_neg (by omega), if_neg (by omega)]
  simp

/-- No record is read of a part of the first one. -/
theorem readRecords_part (small : record.length < 0x80000000) (fits : record.length ≤ limit)
    {part : List UInt8} (front : part <+: markRecord record) (less : part ≠ markRecord record) :
    readRecords limit [] part = ([], .waiting) := by
  by_cases short : part.length < 4
  · exact readRecords_short short
  obtain ⟨missing, whole⟩ := front
  have split : part = wordBytes (0x80000000 ||| record.length) ++ part.drop 4 := by
    have same := congrArg (List.take 4) whole
    rw [List.take_append_of_le_length (by omega)] at same
    rw [markRecord, List.take_left' (wordBytes_length _)] at same
    rw [← same, List.take_append_drop]
  have some : missing ≠ [] := by
    rintro rfl
    exact less (by simpa using whole)
  have sum := congrArg List.length whole
  rw [List.length_append, length_markRecord] at sum
  have gap := List.length_pos_iff.mpr some
  have length := markLength_mark small
  rw [split]
  simp only [wordBytes, List.cons_append, List.nil_append] at length ⊢
  rw [readRecords]
  simp only [length, List.length_nil, List.length_drop]
  rw [if_neg (by omega), if_pos (by omega)]

/-- Of records sent one after the other, and a part of the next one, those that are whole are
read. -/
theorem readRecords_marked {records : List (List UInt8)} (small : limit < 0x80000000)
    (fits : ∀ record ∈ records, record.length ≤ limit) {next part : List UInt8}
    (nextFits : next.length ≤ limit) (front : part <+: markRecord next)
    (less : part ≠ markRecord next) :
    readRecords limit [] (records.flatMap markRecord ++ part) = (records, .waiting) := by
  induction records with
  | nil => exact readRecords_part (by omega) nextFits front less
  | cons record rest ih =>
      have fit := fits record List.mem_cons_self
      rw [List.flatMap_cons, List.append_assoc, readRecords_markRecord (by omega) fit,
        ih fun record member => fits record (List.mem_cons_of_mem _ member)]

/-- Records sent one after the other are read as they are. -/
theorem readRecords_flatMap_markRecord {records : List (List UInt8)} (small : limit < 0x80000000)
    (fits : ∀ record ∈ records, record.length ≤ limit) :
    readRecords limit [] (records.flatMap markRecord) = (records, .waiting) := by
  have first : ([] : List UInt8) ≠ markRecord [] := by simp [markRecord, wordBytes]
  have nothing : ([] : List UInt8).length ≤ limit := Nat.zero_le limit
  simpa using readRecords_marked small fits nothing List.nil_prefix first

end Reading

end Rufux.Library
