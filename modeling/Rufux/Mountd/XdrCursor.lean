import Rufux.Library.Checked
import Rufux.Mountd.Rpc

/-!
The XDR reader at a position of its buffer: no sequence of reads leaves the buffer, and each read
is the one of the bytes that are left.
-/

namespace Rufux.Mountd

open Rufux.Library

/-- `XdrReader` in memory; `len` is the length of the data. -/
structure XdrCursor where
  data : List UInt8
  pos : Nat
  err : Bool
  deriving DecidableEq

/-- Four bytes of a buffer, the first one on top. -/
def be32 (data : List UInt8) (p : Nat) : Checked Nat := do
  let first ← byteAt data p
  let second ← byteAt data (p + 1)
  let third ← byteAt data (p + 2)
  let fourth ← byteAt data (p + 3)
  pure (first * 2 ^ 24 + second * 2 ^ 16 + third * 2 ^ 8 + fourth)

def be64 (data : List UInt8) (p : Nat) : Checked Nat := do
  let hi ← be32 data p
  let lo ← be32 data (p + 4)
  pure (hi * 2 ^ 32 + lo)

/-- The `memcpy` of `xdr_get_fixed`. -/
def copyOut (out : Bool) (data : List UInt8) (p n : Nat) : Checked (List UInt8) :=
  if out ∧ 0 < n then rangeAt data p n else pure []

namespace XdrCursor

variable (r : XdrCursor)

def fail : XdrCursor := { r with err := true }

/-- `xdr_get_u32`, which returns 0 with the error set. -/
def getU32 : Checked (Nat × XdrCursor) :=
  if r.err then pure (0, r.fail)
  else do
    let stop ← size (r.pos + 4)
    if r.data.length < stop then pure (0, r.fail)
    else do
      let value ← be32 r.data r.pos
      pure (value, { r with pos := stop })

def getU64 : Checked (Nat × XdrCursor) := do
  let hi ← r.getU32
  let lo ← hi.2.getU32
  pure (hi.1 * 2 ^ 32 + lo.1, lo.2)

/-- `xdr_get_fixed`; the bytes are copied where `out` is not NULL. -/
def getFixed (out : Bool) (n : Nat) : Checked (Option (List UInt8) × XdrCursor) :=
  if r.err then pure (none, r.fail)
  else do
    let left ← minus r.data.length r.pos
    if left < n then pure (none, r.fail)
    else do
      let more ← minus left n
      if more < padding n then pure (none, r.fail)
      else do
        let copied ← copyOut out r.data r.pos n
        let stop ← size (r.pos + (n + padding n))
        pure (some copied, { r with pos := stop })

def skipOpaque (maxLen : Nat) : Checked (Option (List UInt8) × XdrCursor) := do
  let n ← r.getU32
  if n.2.err ∨ maxLen < n.1 then pure (none, n.2.fail) else n.2.getFixed false n.1

/-- A string that holds a NUL sets the error once it is behind the reader. -/
def rejectNul (got : Option Name × XdrCursor) : Option Name × XdrCursor :=
  if got.1.any fun text => text.contains 0 then (none, got.2.fail) else got

def getStr (cap : Nat) : Checked (Option Name × XdrCursor) := do
  let n ← r.getU32
  if n.2.err ∨ cap ≤ n.1 then pure (none, n.2.fail)
  else do
    let got ← n.2.getFixed true n.1
    pure (rejectNul got)

/-- `xdr_get_opaque_ptr`: the position of the bytes and their number. -/
def getOpaquePtr (maxLen : Nat) : Checked (Option (Nat × Nat) × XdrCursor) := do
  let n ← r.getU32
  if n.2.err ∨ maxLen < n.1 then pure (none, n.2.fail)
  else do
    let left ← minus n.2.data.length n.2.pos
    if left < n.1 then pure (none, n.2.fail)
    else do
      let more ← minus left n.1
      if more < padding n.1 then pure (none, n.2.fail)
      else do
        let stop ← size (n.2.pos + (n.1 + padding n.1))
        pure (some (n.2.pos, n.1), { n.2 with pos := stop })

/-- `*ino_out` and `*bad_fh` for the bytes at a position. -/
def handleAt (found : Option (Nat × Nat)) : Checked (Option (Nat × Bool)) :=
  match found with
  | none => pure none
  | some (p, n) =>
      if n ≠ 8 then pure (some (0, true))
      else do
        let v ← be64 r.data p
        pure (some (v, v = 0))

def getFh : Checked (Option (Nat × Bool) × XdrCursor) := do
  let found ← r.getOpaquePtr 64
  let handle ← r.handleAt found.1
  pure (handle, found.2)

/-! ### Each read is one of the bytes that are left -/

/-- The reader's invariant. An object in memory is smaller than `PTRDIFF_MAX`. -/
structure Inside : Prop where
  bounded : r.pos ≤ r.data.length
  short : r.data.length < 2 ^ 63

/-- The reader as one of the bytes from its position on. -/
def view : XdrReader where
  rest := r.data.drop r.pos
  err := r.err

/-- What a read leaves, against the same read of the bytes that are left. -/
structure Follows {α β : Type} (value : α → β) (read : β × XdrReader) (got : α × XdrCursor) :
    Prop where
  same : (value got.1, got.2.view) = read
  data : got.2.data = r.data
  inside : got.2.Inside

section Reads

variable {r} {p n cap maxLen : Nat} {data : List UInt8}

theorem view_err (r : XdrCursor) : r.view.err = r.err := rfl

theorem view_rest_length (inside : r.Inside) : r.view.rest.length + r.pos = r.data.length := by
  have bounded := inside.bounded
  rw [view, List.length_drop]
  omega

theorem take_four (inside : p + 4 ≤ data.length) :
    (data.drop p).take 4 = [data[p], data[p + 1], data[p + 2], data[p + 3]] := by
  rw [List.drop_eq_getElem_cons (by omega), List.drop_eq_getElem_cons (by omega),
    List.drop_eq_getElem_cons (by omega), List.drop_eq_getElem_cons (by omega)]
  rfl

theorem goes_be32 (inside : p + 4 ≤ data.length) :
    Goes (be32 data p) (· = wordAt 0 (data.drop p)) := by
  refine (goes_byteAt (by omega)).bind ?_
  rintro _ rfl
  refine (goes_byteAt (by omega)).bind ?_
  rintro _ rfl
  refine (goes_byteAt (by omega)).bind ?_
  rintro _ rfl
  refine (goes_byteAt (by omega)).bind ?_
  rintro _ rfl
  refine goes_pure ?_
  rw [wordAt, Nat.mul_zero, List.drop_zero, take_four inside]
  unfold byteOf Library.bigEndian
  simp only [List.getElem?_eq_getElem, List.foldl_cons, List.foldl_nil, Option.getD_some,
    show p < data.length by omega, show p + 1 < data.length by omega,
    show p + 2 < data.length by omega, show p + 3 < data.length by omega]
  omega

theorem fail_follows {α β : Type} {value : α → β} {got : α} (inside : r.Inside) :
    r.Follows value (value got, r.view.fail) (got, r.fail) :=
  ⟨rfl, rfl, inside.bounded, inside.short⟩

theorem view_advance (r : XdrCursor) (count : Nat) :
    { r with pos := r.pos + count }.view = { r.view with rest := r.view.rest.drop count } := by
  simp only [view, List.drop_drop]

theorem getU32_goes (inside : r.Inside) :
    Goes r.getU32 (r.Follows id (xdrGetU32 r.view)) := by
  have bounded := inside.bounded
  have short := inside.short
  have left := view_rest_length inside
  unfold getU32 xdrGetU32
  by_cases failed : r.err = true
  · rw [if_pos failed, if_pos (.inl failed)]
    exact goes_pure (fail_follows inside)
  · rw [if_neg failed]
    refine (goes_fits (by omega)).bind ?_
    rintro _ rfl
    by_cases few : r.data.length < r.pos + 4
    · rw [if_pos few, if_pos (.inr (by omega))]
      exact goes_pure (fail_follows inside)
    · have room : ¬(r.view.err = true ∨ r.view.rest.length < 4) := not_or_intro failed (by omega)
      rw [if_neg few, if_neg room]
      refine (goes_be32 (by omega)).bind ?_
      rintro _ rfl
      exact goes_pure ⟨by rw [view_advance]; rfl, rfl, by dsimp only; omega, short⟩

theorem getU64_goes (inside : r.Inside) :
    Goes r.getU64 (r.Follows id (xdrGetU64 r.view)) := by
  refine (getU32_goes inside).bind fun hi first => ?_
  refine (getU32_goes first.inside).bind fun lo second => ?_
  refine goes_pure ⟨?_, second.data.trans first.data, second.inside⟩
  have firstSame := first.same
  have secondSame := second.same
  unfold xdrGetU64
  rw [← firstSame]
  dsimp only
  rw [← secondSame]
  rfl

/-- The bytes of a read that is told whether to keep them. -/
def kept (out : Bool) (got : Option (List UInt8) × XdrReader) : Option (List UInt8) × XdrReader :=
  (got.1.map fun bytes => if out then bytes else [], got.2)

theorem goes_copyOut {out : Bool} (room : p + n ≤ data.length) :
    Goes (copyOut out data p n) (· = if out then (data.drop p).take n else []) := by
  unfold copyOut
  split
  · rename_i keeps
    rw [if_pos keeps.1]
    exact goes_rangeAt room
  · rename_i nothing
    refine goes_pure ?_
    cases out with
    | false => rfl
    | true =>
      have none : n = 0 := by
        by_contra some
        exact nothing ⟨rfl, by omega⟩
      rw [if_pos rfl, none, List.take_zero]

theorem getFixed_goes (out : Bool) (n : Nat) (inside : r.Inside) :
    Goes (r.getFixed out n) (r.Follows id (kept out (xdrGetFixed n r.view))) := by
  have bounded := inside.bounded
  have short := inside.short
  have left := view_rest_length inside
  unfold getFixed xdrGetFixed
  by_cases failed : r.err = true
  · rw [if_pos failed, if_pos (.inl failed)]
    exact goes_pure (fail_follows inside)
  · rw [if_neg failed]
    refine (goes_minus bounded).bind ?_
    rintro _ rfl
    by_cases few : r.data.length - r.pos < n
    · rw [if_pos few, if_pos (.inr (by omega))]
      exact goes_pure (fail_follows inside)
    · rw [if_neg few]
      refine (goes_minus (by omega)).bind ?_
      rintro _ rfl
      by_cases fewer : r.data.length - r.pos - n < padding n
      · rw [if_pos fewer, if_pos (.inr (by omega))]
        exact goes_pure (fail_follows inside)
      · have room : ¬(r.view.err = true ∨ r.view.rest.length < n + padding n) :=
          not_or_intro failed (by omega)
        rw [if_neg fewer, if_neg room]
        have inside : r.pos + n ≤ r.data.length := by omega
        refine (goes_copyOut inside).bind ?_
        rintro _ rfl
        refine (goes_fits (by omega)).bind ?_
        rintro _ rfl
        exact goes_pure ⟨by rw [view_advance]; rfl, rfl, by dsimp only; omega, short⟩

theorem xdrGetOpaque_of {reader left : XdrReader} (read : xdrGetU32 reader = (n, left)) :
    xdrGetOpaque maxLen reader =
      if left.err ∨ maxLen < n then (none, left.fail) else xdrGetFixed n left := by
  rw [xdrGetOpaque, read]

theorem xdrGetStr_of {reader left : XdrReader} (read : xdrGetU32 reader = (n, left)) :
    xdrGetStr cap reader =
      if left.err ∨ cap ≤ n then (none, left.fail)
      else if (xdrGetFixed n left).1.any fun text => text.contains 0 then
        (none, (xdrGetFixed n left).2.fail)
      else xdrGetFixed n left := by
  rw [xdrGetStr, read]
  dsimp only
  split
  · rfl
  · split
    · rename_i later refused
      rw [refused]
      rfl
    · rename_i text later granted
      rw [granted]
      rfl

theorem Follows.read {got : Nat × XdrCursor} {read : Nat × XdrReader}
    (follows : r.Follows id read got) : read = (got.1, got.2.view) :=
  follows.same.symm

theorem Follows.trans {α β γ δ : Type} {first : α → β} {value : γ → δ} {read : β × XdrReader}
    {middle : α × XdrCursor} {later : δ × XdrReader} {got : γ × XdrCursor}
    (before : r.Follows first read middle) (follows : middle.2.Follows value later got) :
    r.Follows value later got :=
  ⟨follows.same, follows.data.trans before.data, follows.inside⟩

theorem skipOpaque_goes (maxLen : Nat) (inside : r.Inside) :
    Goes (r.skipOpaque maxLen) (r.Follows id (kept false (xdrGetOpaque maxLen r.view))) := by
  refine (getU32_goes inside).bind fun n first => ?_
  rw [xdrGetOpaque_of first.read]
  by_cases refused : n.2.err = true ∨ maxLen < n.1
  · rw [if_pos refused, if_pos (show n.2.view.err = true ∨ maxLen < n.1 from refused)]
    exact goes_pure ⟨rfl, first.data, first.inside.bounded, first.inside.short⟩
  · rw [if_neg refused, if_neg (show ¬(n.2.view.err = true ∨ maxLen < n.1) from refused)]
    exact (getFixed_goes false n.1 first.inside).mono fun got follows => first.trans follows

theorem getStr_goes (cap : Nat) (inside : r.Inside) :
    Goes (r.getStr cap) (r.Follows id (xdrGetStr cap r.view)) := by
  refine (getU32_goes inside).bind fun n first => ?_
  rw [xdrGetStr_of first.read]
  by_cases refused : n.2.err = true ∨ cap ≤ n.1
  · rw [if_pos refused, if_pos (show n.2.view.err = true ∨ cap ≤ n.1 from refused)]
    exact goes_pure ⟨rfl, first.data, first.inside.bounded, first.inside.short⟩
  · rw [if_neg refused, if_neg (show ¬(n.2.view.err = true ∨ cap ≤ n.1) from refused)]
    refine (getFixed_goes true n.1 first.inside).bind fun got second => ?_
    have whole : kept true (xdrGetFixed n.1 n.2.view) = xdrGetFixed n.1 n.2.view := by
      simp only [kept, if_true, Option.map_id']
    have same := second.same
    rw [whole] at same
    rw [← same]
    refine goes_pure ?_
    unfold rejectNul
    dsimp only [id]
    split
    · exact ⟨rfl, second.data.trans first.data, second.inside.bounded, second.inside.short⟩
    · exact ⟨rfl, second.data.trans first.data, second.inside⟩

/-- The bytes that a position and a number stand for. -/
def pointed (data : List UInt8) (found : Option (Nat × Nat)) : Option (List UInt8) :=
  found.map fun span => (data.drop span.1).take span.2

theorem getOpaquePtr_goes (maxLen : Nat) (inside : r.Inside) :
    Goes (r.getOpaquePtr maxLen) fun got =>
      r.Follows (pointed r.data) (xdrGetOpaque maxLen r.view) got ∧
        ∀ span, got.1 = some span → span.1 + span.2 ≤ r.data.length := by
  refine (getU32_goes inside).bind fun n first => ?_
  have bounded := first.inside.bounded
  have short := first.inside.short
  have left := view_rest_length first.inside
  have fails : Goes (pure (none, n.2.fail) : Checked (Option (Nat × Nat) × XdrCursor)) fun got =>
      r.Follows (pointed r.data) (none, n.2.view.fail) got ∧
        ∀ span, got.1 = some span → span.1 + span.2 ≤ r.data.length :=
    goes_pure ⟨⟨rfl, first.data, bounded, short⟩, by rintro _ ⟨⟩⟩
  rw [xdrGetOpaque_of first.read]
  by_cases refused : n.2.err = true ∨ maxLen < n.1
  · rw [if_pos refused, if_pos (show n.2.view.err = true ∨ maxLen < n.1 from refused)]
    exact fails
  · rw [if_neg refused, if_neg (show ¬(n.2.view.err = true ∨ maxLen < n.1) from refused)]
    have sound : ¬n.2.err = true := (not_or.mp refused).1
    unfold xdrGetFixed
    refine (goes_minus bounded).bind ?_
    rintro _ rfl
    by_cases few : n.2.data.length - n.2.pos < n.1
    · rw [if_pos few, if_pos (.inr (by omega))]
      exact fails
    · rw [if_neg few]
      refine (goes_minus (by omega)).bind ?_
      rintro _ rfl
      by_cases fewer : n.2.data.length - n.2.pos - n.1 < padding n.1
      · rw [if_pos fewer, if_pos (.inr (by omega))]
        exact fails
      · have room : ¬(n.2.view.err = true ∨ n.2.view.rest.length < n.1 + padding n.1) :=
          not_or_intro sound (by omega)
        rw [if_neg fewer, if_neg room]
        refine (goes_fits (by omega)).bind ?_
        rintro _ rfl
        refine goes_pure ⟨⟨?_, first.data, by dsimp only; omega, short⟩, ?_⟩
        · rw [view_advance, ← first.data]
          rfl
        · rintro _ ⟨⟩
          rw [← first.data]
          dsimp only
          omega

theorem goes_be64 (inside : p + 8 ≤ data.length) :
    Goes (be64 data p) (· = bigEndian ((data.drop p).take 8)) := by
  refine (goes_be32 (by omega)).bind ?_
  rintro _ rfl
  refine (goes_be32 (by omega)).bind ?_
  rintro _ rfl
  refine goes_pure ?_
  have halves : (data.drop p).take 8 = (data.drop p).take 4 ++ (data.drop (p + 4)).take 4 := by
    rw [← List.drop_drop, ← List.take_add]
  rw [halves, wordAt, wordAt, Nat.mul_zero, List.drop_zero, List.drop_zero,
    take_four (by omega), take_four (by omega)]
  simp only [bigEndian, Library.bigEndian, List.cons_append, List.nil_append, List.foldl_cons,
    List.foldl_nil]
  omega

/-- What `xdr_get_fh` makes of a handle. -/
def handleOf (fh : Handle) : Nat × Bool :=
  ((xdrGetFh fh).getD 0, (xdrGetFh fh).isNone)

theorem handleAt_goes {found : Option (Nat × Nat)}
    (room : ∀ span, found = some span → span.1 + span.2 ≤ r.data.length) :
    Goes (r.handleAt found) (· = (pointed r.data found).map handleOf) := by
  cases found with
  | none => exact goes_pure rfl
  | some span =>
    obtain ⟨p, n⟩ := span
    have inside := room (p, n) rfl
    have length : ((r.data.drop p).take n).length = n := by
      rw [List.length_take, List.length_drop]
      omega
    simp only [handleAt, pointed, Option.map_some, handleOf, xdrGetFh]
    rw [length]
    by_cases eight : n = 8
    · subst eight
      rw [if_neg (not_not_intro rfl), if_pos rfl]
      refine (goes_be64 inside).bind ?_
      rintro _ rfl
      refine goes_pure ?_
      split
      · rename_i zero
        rw [zero]
        rfl
      · rename_i live
        rw [decide_eq_false live]
        rfl
    · rw [if_pos eight, if_neg eight]
      exact goes_pure rfl

theorem getFh_goes (inside : r.Inside) :
    Goes r.getFh (r.Follows id ((xdrGetHandle r.view).1.map handleOf, (xdrGetHandle r.view).2)) := by
  refine (getOpaquePtr_goes 64 inside).bind fun found first => ?_
  refine (handleAt_goes first.2).bind ?_
  rintro _ rfl
  refine goes_pure ⟨?_, first.1.data, first.1.inside⟩
  rw [xdrGetHandle, ← first.1.same]
  rfl

end Reads

end XdrCursor

/-! ### Sequences of reads -/

inductive XdrCall
  | u32
  | u64
  | fixed (n : Nat)
  | skip (maxLen : Nat)
  | str (cap : Nat)
  | ptr (maxLen : Nat)
  | fh

/-- What a read returns: a number, or bytes or a handle with `none` for -1. -/
inductive XdrTaken
  | number (value : Nat)
  | content (bytes : Option (List UInt8))
  | handle (found : Option (Nat × Bool))
  deriving DecidableEq

/-- A read that finds the error set returns 0 or -1. -/
def XdrTaken.Refused : XdrTaken → Prop
  | .number value => value = 0
  | .content bytes => bytes = none
  | .handle found => found = none

namespace XdrCall

def take : XdrCall → XdrCursor → Checked (XdrTaken × XdrCursor)
  | .u32, r => do
      let got ← r.getU32
      pure (.number got.1, got.2)
  | .u64, r => do
      let got ← r.getU64
      pure (.number got.1, got.2)
  | .fixed n, r => do
      let got ← r.getFixed true n
      pure (.content got.1, got.2)
  | .skip maxLen, r => do
      let got ← r.skipOpaque maxLen
      pure (.content got.1, got.2)
  | .str cap, r => do
      let got ← r.getStr cap
      pure (.content got.1, got.2)
  | .ptr maxLen, r => do
      let got ← r.getOpaquePtr maxLen
      pure (.content (XdrCursor.pointed r.data got.1), got.2)
  | .fh, r => do
      let got ← r.getFh
      pure (.handle got.1, got.2)

/-- The same reads of the bytes that are left. -/
def read : XdrCall → XdrReader → XdrTaken × XdrReader
  | .u32, reader => (.number (xdrGetU32 reader).1, (xdrGetU32 reader).2)
  | .u64, reader => (.number (xdrGetU64 reader).1, (xdrGetU64 reader).2)
  | .fixed n, reader => (.content (xdrGetFixed n reader).1, (xdrGetFixed n reader).2)
  | .skip maxLen, reader =>
      let got := XdrCursor.kept false (xdrGetOpaque maxLen reader)
      (.content got.1, got.2)
  | .str cap, reader => (.content (xdrGetStr cap reader).1, (xdrGetStr cap reader).2)
  | .ptr maxLen, reader => (.content (xdrGetOpaque maxLen reader).1, (xdrGetOpaque maxLen reader).2)
  | .fh, reader =>
      (.handle ((xdrGetHandle reader).1.map XdrCursor.handleOf), (xdrGetHandle reader).2)

end XdrCall

theorem XdrCursor.Follows.taken {r : XdrCursor} {α β : Type} {value : α → β} {read : β × XdrReader}
    {got : α × XdrCursor} (follows : r.Follows value read got) (result : β → XdrTaken) :
    r.Follows id (result read.1, read.2) (result (value got.1), got.2) :=
  ⟨by rw [← follows.same]; rfl, follows.data, follows.inside⟩

theorem take_goes (call : XdrCall) {r : XdrCursor} (inside : r.Inside) :
    Goes (call.take r) (r.Follows id (call.read r.view)) := by
  cases call with
  | u32 => exact (XdrCursor.getU32_goes inside).bind fun _ got => goes_pure (got.taken .number)
  | u64 => exact (XdrCursor.getU64_goes inside).bind fun _ got => goes_pure (got.taken .number)
  | fixed n =>
    have whole : XdrCursor.kept true (xdrGetFixed n r.view) = xdrGetFixed n r.view := by
      simp only [XdrCursor.kept, if_true, Option.map_id']
    exact (XdrCursor.getFixed_goes true n inside).bind fun _ got =>
      goes_pure ((whole ▸ got).taken .content)
  | skip maxLen =>
    exact (XdrCursor.skipOpaque_goes maxLen inside).bind fun _ got =>
      goes_pure (got.taken .content)
  | str cap =>
    exact (XdrCursor.getStr_goes cap inside).bind fun _ got => goes_pure (got.taken .content)
  | ptr maxLen =>
    exact (XdrCursor.getOpaquePtr_goes maxLen inside).bind fun _ got =>
      goes_pure (got.1.taken .content)
  | fh => exact (XdrCursor.getFh_goes inside).bind fun _ got => goes_pure (got.taken .handle)

def takeAll : List XdrCall → XdrCursor → Checked (List XdrTaken × XdrCursor)
  | [], r => pure ([], r)
  | call :: rest, r => do
      let got ← call.take r
      let later ← takeAll rest got.2
      pure (got.1 :: later.1, later.2)

def readAll : List XdrCall → XdrReader → List XdrTaken × XdrReader
  | [], reader => ([], reader)
  | call :: rest, reader =>
      let got := call.read reader
      let later := readAll rest got.2
      (got.1 :: later.1, later.2)

theorem takeAll_goes (calls : List XdrCall) {r : XdrCursor} (inside : r.Inside) :
    Goes (takeAll calls r) (r.Follows id (readAll calls r.view)) := by
  induction calls generalizing r with
  | nil => exact goes_pure ⟨rfl, rfl, inside⟩
  | cons call rest ih =>
    refine (take_goes call inside).bind fun got first => ?_
    refine (ih first.inside).bind fun later second => ?_
    refine goes_pure ⟨?_, second.data.trans first.data, second.inside⟩
    rw [readAll, ← first.same]
    dsimp only [id]
    rw [← second.same]
    rfl

theorem take_refused (call : XdrCall) {r : XdrCursor} (failed : r.err = true) :
    ∃ taken, call.take r = .ok (taken, r) ∧ taken.Refused := by
  have stays : r.fail = r := by
    rw [XdrCursor.fail, ← failed]
  have word : r.getU32 = .ok (0, r) := by
    rw [XdrCursor.getU32, if_pos failed, stays]
    rfl
  have pointer (maxLen : Nat) : r.getOpaquePtr maxLen = .ok (none, r) := by
    rw [XdrCursor.getOpaquePtr, word, ok_bind, if_pos (.inl failed), stays]
    rfl
  cases call with
  | u32 => exact ⟨.number 0, by rw [XdrCall.take, word]; rfl, rfl⟩
  | u64 =>
    have words : r.getU64 = .ok (0, r) := by
      rw [XdrCursor.getU64, word, ok_bind, word, ok_bind, Nat.zero_mul]
      rfl
    exact ⟨.number 0, by rw [XdrCall.take, words]; rfl, rfl⟩
  | fixed n =>
    refine ⟨.content none, ?_, rfl⟩
    rw [XdrCall.take, XdrCursor.getFixed, if_pos failed, stays]
    rfl
  | skip maxLen =>
    refine ⟨.content none, ?_, rfl⟩
    rw [XdrCall.take, XdrCursor.skipOpaque, word, ok_bind, if_pos (.inl failed), stays]
    rfl
  | str cap =>
    refine ⟨.content none, ?_, rfl⟩
    rw [XdrCall.take, XdrCursor.getStr, word, ok_bind, if_pos (.inl failed), stays]
    rfl
  | ptr maxLen => exact ⟨.content none, by rw [XdrCall.take, pointer]; rfl, rfl⟩
  | fh => exact ⟨.handle none, by rw [XdrCall.take, XdrCursor.getFh, pointer]; rfl, rfl⟩

/-- Once the error is set, every later read fails and the reader stays where it is. -/
theorem takeAll_refused (calls : List XdrCall) {r : XdrCursor} (failed : r.err = true) :
    ∃ taken, takeAll calls r = .ok (taken, r) ∧ ∀ each ∈ taken, each.Refused := by
  induction calls with
  | nil => exact ⟨[], rfl, fun _ member => absurd member List.not_mem_nil⟩
  | cons call rest ih =>
    obtain ⟨first, took, refused⟩ := take_refused call failed
    obtain ⟨later, takes, refuses⟩ := ih
    refine ⟨first :: later, ?_, List.forall_mem_cons.mpr ⟨refused, refuses⟩⟩
    rw [takeAll, took, ok_bind, takes]
    rfl

end Rufux.Mountd
