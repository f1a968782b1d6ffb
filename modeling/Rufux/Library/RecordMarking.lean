import Mathlib

/-!
Record marking on a byte stream: a record is a sequence of fragments, each with a four-byte
mark that says how long it is and whether it is the last one.
-/

namespace Rufux.Library

/-- A big-endian number. -/
def bigEndian (bytes : List UInt8) : Nat :=
  bytes.foldl (fun value byte => value * 256 + byte.toNat) 0

/-- The length that a mark announces. -/
def markLength (mark : Nat) : Nat := mark % 0x80000000

/-- Whether a mark announces the last fragment of its record. -/
def markLast (mark : Nat) : Bool := decide (0x80000000 ≤ mark)

/-- How the reading of a stream ends: in the middle of a record or between two, or at a mark
that would make a record longer than the limit. -/
inductive Ending where
  | waiting
  | oversized
  deriving DecidableEq

/-- The records of a whole stream, after some bytes already held for the first one. -/
def readRecords (limit : Nat) (held : List UInt8) :
    List UInt8 → List (List UInt8) × Ending
  | first :: second :: third :: fourth :: rest =>
      let mark := bigEndian [first, second, third, fourth]
      if limit < held.length + markLength mark then ([], .oversized)
      else if rest.length < markLength mark then ([], .waiting)
      else
        let record := held ++ rest.take (markLength mark)
        if markLast mark then
          let later := readRecords limit [] (rest.drop (markLength mark))
          (record :: later.1, later.2)
        else
          readRecords limit record (rest.drop (markLength mark))
  | _ => ([], .waiting)
  termination_by stream => stream.length
  decreasing_by all_goals simp only [List.length_drop, List.length_cons]; omega

theorem readRecords_short {limit : Nat} {held stream : List UInt8} (short : stream.length < 4) :
    readRecords limit held stream = ([], .waiting) := by
  rw [readRecords]
  rintro first second third fourth rest rfl
  simp only [List.length_cons] at short
  omega

/-- Every record read is within the limit, if what is held at first is. -/
theorem readRecords_bounded {limit : Nat} {held stream : List UInt8} (room : held.length ≤ limit) :
    ∀ record ∈ (readRecords limit held stream).1, record.length ≤ limit := by
  fun_induction readRecords limit held stream with
  | case1 => simp
  | case2 => simp
  | case3 held first second third fourth rest mark fits whole record last later ih =>
      intro entry member
      rcases List.mem_cons.mp member with rfl | tail
      · simp only [record, List.length_append, List.length_take]
        omega
      · exact ih (Nat.zero_le _) entry tail
  | case4 held first second third fourth rest mark fits whole record more ih =>
      apply ih
      simp only [record, List.length_append, List.length_take]
      omega
  | case5 => simp

end Rufux.Library
