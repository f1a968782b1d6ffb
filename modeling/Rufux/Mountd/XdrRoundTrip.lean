import Rufux.Mountd.ReplySize
import Rufux.Mountd.XdrCursor

/-!
What the XDR writer puts into its buffer is what the reader takes out of it.
-/

namespace Rufux.Mountd

open Rufux.Library Rpc

/-- `XdrBuf`: `len` is the length of the data. -/
structure XdrBuf where
  data : List UInt8
  cap : Nat
  err : Bool
  deriving DecidableEq

/-- Whether `realloc` enlarges a buffer; no object reaches `PTRDIFF_MAX`. -/
structure Realloc where
  grants : XdrBuf → Nat → Bool
  bounded : ∀ b ncap, grants b ncap = true → ncap < 2 ^ 63

/-- The loop of `xdr_reserve`, which is never entered with a capacity of zero. -/
def doubled (need ncap : Nat) : Nat :=
  if 0 < ncap ∧ ncap < need then doubled need (ncap * 2) else ncap
termination_by need - ncap

theorem le_doubled {need ncap : Nat} (positive : 0 < ncap) : need ≤ doubled need ncap := by
  fun_induction doubled need ncap with
  | case1 ncap room ih => exact ih (by omega)
  | case2 ncap ends => omega

/-- What the writer is asked to put, with the limit that its reader passes. -/
inductive XdrItem
  | u32 (value : UInt32)
  | u64 (value : UInt64)
  | fixed (bytes : List UInt8)
  | varying (maxLen : Nat) (bytes : List UInt8) (word : maxLen < 2 ^ 32)
      (fits : bytes.length ≤ maxLen)
  | str (cap : Nat) (text : Name) (word : text.length < 2 ^ 32) (fits : text.length < cap)
      (clean : text.contains 0 = false)
  | fh (ino : UInt64) (live : ino ≠ 0)

namespace XdrBuf

variable (realloc : Realloc) (b : XdrBuf)

/-- `xdr_reserve`, which returns -1 where it leaves the error set. -/
def reserve (add : Nat) : XdrBuf :=
  if b.err ∨ b.data.length + add ≤ b.cap then b
  else
    let ncap := doubled (b.data.length + add) (if b.cap ≠ 0 then b.cap * 2 else 512)
    if realloc.grants b ncap then { b with cap := ncap } else { b with err := true }

/-- Bytes that are put only where there is room for all of them. -/
def append (bytes : List UInt8) : XdrBuf :=
  let room := b.reserve realloc bytes.length
  if room.err then room else { room with data := room.data ++ bytes }

def putU32 (value : Nat) : XdrBuf := b.append realloc (wordBytes value)

def putU64 (value : Nat) : XdrBuf :=
  (b.putU32 realloc (value / 2 ^ 32)).putU32 realloc value

def putFixed (bytes : List UInt8) : XdrBuf := b.append realloc (paddedBytes bytes)

def putOpaque (bytes : List UInt8) : XdrBuf :=
  (b.putU32 realloc (bytes.length % 2 ^ 32)).putFixed realloc
    (bytes.take (bytes.length % 2 ^ 32))

def putStr (text : Name) : XdrBuf := b.putOpaque realloc text

def putFh (ino : Nat) : XdrBuf := b.putOpaque realloc (xdrPutFh ino)

def put : XdrItem → XdrBuf
  | .u32 value => b.putU32 realloc value.toNat
  | .u64 value => b.putU64 realloc value.toNat
  | .fixed bytes => b.putFixed realloc bytes
  | .varying _ bytes _ _ => b.putOpaque realloc bytes
  | .str _ text _ _ _ => b.putStr realloc text
  | .fh ino _ => b.putFh realloc ino.toNat

end XdrBuf

def emptyBuf : XdrBuf where
  data := []
  cap := 0
  err := false

/-- The buffer after these items, put in order. -/
def putAll (realloc : Realloc) (items : List XdrItem) (b : XdrBuf) : XdrBuf :=
  items.foldl (fun b item => b.put realloc item) b

namespace XdrItem

/-- The bytes of an item, where there is room for them. -/
def bytes : XdrItem → List UInt8
  | .u32 value => wordBytes value.toNat
  | .u64 value => u64Bytes value.toNat
  | .fixed bytes => paddedBytes bytes
  | .varying _ bytes _ _ => opaqueBytes bytes
  | .str _ text _ _ _ => opaqueBytes text
  | .fh ino _ => opaqueBytes (xdrPutFh ino.toNat)

/-- The writer of a reply. -/
def emit : XdrItem → Rpc Unit
  | .u32 value => xdrPutU32 value.toNat
  | .u64 value => xdrPutU64 value.toNat
  | .fixed bytes => xdrPutFixed bytes
  | .varying _ bytes _ _ => xdrPutOpaque bytes
  | .str _ text _ _ _ => xdrPutStr text
  | .fh ino _ => xdrPutHandle ino.toNat

/-- The matching read. -/
def call : XdrItem → XdrCall
  | .u32 _ => .u32
  | .u64 _ => .u64
  | .fixed bytes => .fixed bytes.length
  | .varying maxLen _ _ _ => .ptr maxLen
  | .str cap _ _ _ _ => .str cap
  | .fh _ _ => .fh

/-- What the matching read returns. -/
def value : XdrItem → XdrTaken
  | .u32 value => .number value.toNat
  | .u64 value => .number value.toNat
  | .fixed bytes => .content (some bytes)
  | .varying _ bytes _ _ => .content (some bytes)
  | .str _ text _ _ _ => .content (some text)
  | .fh ino _ => .handle (some (ino.toNat, false))

end XdrItem

/-- A reply holds the same bytes as a buffer that had room for them. -/
theorem emits_item (item : XdrItem) : Emits item.emit item.bytes := by
  cases item with
  | u32 value => exact emits_put _
  | u64 value => exact emits_u64 _
  | fixed bytes => exact emits_put _
  | varying maxLen bytes word fits => exact emits_bytes _
  | str cap text word fits clean => exact emits_bytes _
  | fh ino live => exact emits_bytes _

/-! ### The buffer -/

/-- `b'` is `b` with these bytes behind it, unless an allocation failed. -/
structure Appended (b : XdrBuf) (bytes : List UInt8) (b' : XdrBuf) : Prop where
  before : b'.err = false → b.err = false
  data : b'.err = false → b'.data = b.data ++ bytes
  room : b.data.length ≤ b.cap ∧ b.cap < 2 ^ 63 → b'.data.length ≤ b'.cap ∧ b'.cap < 2 ^ 63

theorem Appended.trans {b middle b' : XdrBuf} {front back : List UInt8}
    (first : Appended b front middle) (second : Appended middle back b') :
    Appended b (front ++ back) b' where
  before sound := first.before (second.before sound)
  data sound := by rw [second.data sound, first.data (second.before sound), List.append_assoc]
  room held := second.room (first.room held)

section Writer

variable (realloc : Realloc) (b : XdrBuf)

/-- What `xdr_reserve` leaves. -/
structure Reserves (add : Nat) (b' : XdrBuf) : Prop where
  data : b'.data = b.data
  before : b'.err = false → b.err = false
  room : b'.err = false → b.data.length + add ≤ b'.cap
  holds : b.data.length ≤ b.cap ∧ b.cap < 2 ^ 63 → b.data.length ≤ b'.cap ∧ b'.cap < 2 ^ 63

theorem reserve_reserves (add : Nat) : Reserves b add (b.reserve realloc add) := by
  unfold XdrBuf.reserve
  split
  · rename_i ready
    refine ⟨rfl, id, fun sound => ?_, id⟩
    rcases ready with failed | room
    · rw [sound] at failed
      cases failed
    · exact room
  · rename_i more
    have start : 0 < if b.cap ≠ 0 then b.cap * 2 else 512 := by
      split <;> omega
    have enough := @le_doubled (b.data.length + add) _ start
    generalize doubled _ _ = ncap at enough ⊢
    dsimp only
    split
    · rename_i granted
      exact ⟨rfl, id, fun _ => enough, fun _ =>
        ⟨Nat.le_trans (Nat.le_add_right _ _) enough, realloc.bounded b ncap granted⟩⟩
    · exact ⟨rfl, by rintro ⟨⟩, by rintro ⟨⟩, id⟩

theorem append_appends (bytes : List UInt8) : Appended b bytes (b.append realloc bytes) := by
  have reserves := reserve_reserves realloc b bytes.length
  unfold XdrBuf.append
  dsimp only
  split
  · rename_i failed
    refine ⟨reserves.before, fun sound => ?_, fun held => reserves.data ▸ reserves.holds held⟩
    rw [sound] at failed
    cases failed
  · rename_i sound
    have clean := Bool.eq_false_iff.mpr sound
    refine ⟨reserves.before, fun _ => by rw [reserves.data], fun held => ⟨?_, ?_⟩⟩
    · rw [List.length_append, reserves.data]
      exact reserves.room clean
    · exact (reserves.holds held).2

theorem putOpaque_appends (bytes : List UInt8) :
    Appended b (opaqueBytes bytes) (b.putOpaque realloc bytes) :=
  (append_appends realloc b _).trans (append_appends realloc _ _)

theorem put_appends (item : XdrItem) : Appended b item.bytes (b.put realloc item) := by
  cases item with
  | u32 value => exact append_appends realloc b _
  | u64 value => exact (append_appends realloc b _).trans (append_appends realloc _ _)
  | fixed bytes => exact append_appends realloc b _
  | varying maxLen bytes word fits => exact putOpaque_appends realloc b bytes
  | str cap text word fits clean => exact putOpaque_appends realloc b text
  | fh ino live => exact putOpaque_appends realloc b _

theorem putAll_appends (items : List XdrItem) :
    Appended b (items.flatMap XdrItem.bytes) (putAll realloc items b) := by
  induction items generalizing b with
  | nil => exact ⟨id, fun _ => (List.append_nil _).symm, id⟩
  | cons item rest ih => exact (put_appends realloc b item).trans (ih (b.put realloc item))

end Writer

/-! ### Reading it back -/

/-- The reader of bytes with these in front of the rest. -/
def before (bytes rest : List UInt8) : XdrReader := ⟨bytes ++ rest, false⟩

theorem read_u32 (value : Nat) (rest : List UInt8) :
    xdrGetU32 (before (wordBytes value) rest) = (value % 2 ^ 32, ⟨rest, false⟩) := by
  have long : ¬((before (wordBytes value) rest).err = true ∨
      (before (wordBytes value) rest).rest.length < 4) := by
    rintro (failed | few)
    · cases failed
    · rw [before, List.length_append, wordBytes_length] at few
      omega
  rw [xdrGetU32, if_neg long]
  have word := @wordAt_append 0 [] rest rfl value
  rw [List.nil_append] at word
  rw [before, word]
  rfl

theorem read_u64 {value : Nat} (small : value < 2 ^ 64) (rest : List UInt8) :
    xdrGetU64 (before (u64Bytes value) rest) = (value, ⟨rest, false⟩) := by
  have split : before (u64Bytes value) rest =
      before (wordBytes (value / 2 ^ 32)) (wordBytes value ++ rest) := by
    rw [before, before, u64Bytes, List.append_assoc]
  rw [xdrGetU64, split, read_u32]
  change ((_ : Nat) * 2 ^ 32 + (xdrGetU32 (before (wordBytes value) rest)).1,
    (xdrGetU32 (before (wordBytes value) rest)).2) = _
  rw [read_u32]
  refine Prod.ext ?_ rfl
  dsimp only
  omega

theorem read_fixed (bytes rest : List UInt8) :
    xdrGetFixed bytes.length (before (paddedBytes bytes) rest) = (some bytes, ⟨rest, false⟩) := by
  have whole := paddedBytes_length bytes
  have long : ¬((before (paddedBytes bytes) rest).err = true ∨
      (before (paddedBytes bytes) rest).rest.length < bytes.length + padding bytes.length) := by
    rintro (failed | few)
    · cases failed
    · rw [before, List.length_append] at few
      omega
  rw [xdrGetFixed, if_neg long, before, ← whole, List.drop_left, paddedBytes, List.append_assoc,
    List.take_left]

theorem opaqueBytes_of_short {bytes : List UInt8} (short : bytes.length < 2 ^ 32) :
    opaqueBytes bytes = wordBytes bytes.length ++ paddedBytes bytes := by
  rw [opaqueBytes, Nat.mod_eq_of_lt short, List.take_length]

theorem read_length {bytes : List UInt8} (short : bytes.length < 2 ^ 32) (rest : List UInt8) :
    xdrGetU32 (before (opaqueBytes bytes) rest) =
      (bytes.length, before (paddedBytes bytes) rest) := by
  have split : before (opaqueBytes bytes) rest =
      before (wordBytes bytes.length) (paddedBytes bytes ++ rest) := by
    rw [before, before, opaqueBytes_of_short short, List.append_assoc]
  rw [split, read_u32, Nat.mod_eq_of_lt short]
  rfl

theorem read_opaque {maxLen : Nat} {bytes : List UInt8} (short : bytes.length < 2 ^ 32)
    (fits : bytes.length ≤ maxLen) (rest : List UInt8) :
    xdrGetOpaque maxLen (before (opaqueBytes bytes) rest) = (some bytes, ⟨rest, false⟩) := by
  have sound : ¬((before (paddedBytes bytes) rest).err = true ∨ maxLen < bytes.length) :=
    not_or_intro (by rintro ⟨⟩) (by omega)
  rw [XdrCursor.xdrGetOpaque_of (read_length short rest), if_neg sound, read_fixed]

theorem read_str {cap : Nat} {text : Name} (short : text.length < 2 ^ 32)
    (fits : text.length < cap) (clean : text.contains 0 = false) (rest : List UInt8) :
    xdrGetStr cap (before (opaqueBytes text) rest) = (some text, ⟨rest, false⟩) := by
  have sound : ¬((before (paddedBytes text) rest).err = true ∨ cap ≤ text.length) :=
    not_or_intro (by rintro ⟨⟩) (by omega)
  rw [XdrCursor.xdrGetStr_of (read_length short rest), if_neg sound, read_fixed, Option.any_some,
    clean]
  rfl

theorem read_item (item : XdrItem) (rest : List UInt8) :
    item.call.read (before item.bytes rest) = (item.value, ⟨rest, false⟩) := by
  cases item with
  | u32 value =>
    simp only [XdrItem.call, XdrItem.bytes, XdrCall.read, read_u32, XdrItem.value]
    rw [Nat.mod_eq_of_lt value.toNat_lt]
  | u64 value =>
    simp only [XdrItem.call, XdrItem.bytes, XdrCall.read, read_u64 value.toNat_lt, XdrItem.value]
  | fixed bytes => simp only [XdrItem.call, XdrItem.bytes, XdrCall.read, read_fixed, XdrItem.value]
  | varying maxLen bytes word fits =>
    simp only [XdrItem.call, XdrItem.bytes, XdrCall.read, XdrItem.value,
      read_opaque (Nat.lt_of_le_of_lt fits word) fits]
  | str cap text word fits clean =>
    simp only [XdrItem.call, XdrItem.bytes, XdrCall.read, XdrItem.value, read_str word fits clean]
  | fh ino live =>
    have positive : 0 < ino.toNat := by
      rw [Nat.pos_iff_ne_zero]
      intro zero
      exact live (UInt64.toNat_inj.mp zero)
    have eight : (xdrPutFh ino.toNat).length = 8 := rfl
    have handle : xdrGetHandle (before (opaqueBytes (xdrPutFh ino.toNat)) rest) =
        (some (xdrPutFh ino.toNat), ⟨rest, false⟩) :=
      read_opaque (by omega) (by omega) rest
    simp only [XdrItem.call, XdrItem.bytes, XdrCall.read, XdrItem.value, handle, Option.map_some,
      XdrCursor.handleOf, xdrGetFh_xdrPutFh ino.toNat positive ino.toNat_lt, Option.getD_some,
      Option.isNone_some]

theorem readAll_items (items : List XdrItem) (rest : List UInt8) :
    readAll (items.map XdrItem.call) (before (items.flatMap XdrItem.bytes) rest) =
      (items.map XdrItem.value, ⟨rest, false⟩) := by
  induction items with
  | nil => rfl
  | cons item later ih =>
    have split : before ((item :: later).flatMap XdrItem.bytes) rest =
        before item.bytes (later.flatMap XdrItem.bytes ++ rest) := by
      rw [before, before, List.flatMap_cons, List.append_assoc]
    rw [List.map_cons, readAll, split, read_item]
    change (_ :: (readAll _ (before _ rest)).1, (readAll _ (before _ rest)).2) = _
    rw [ih]
    rfl

/-- A reader at the start of a buffer. -/
def XdrCursor.start (data : List UInt8) : XdrCursor where
  data := data
  pos := 0
  err := false

theorem takeAll_items {data : List UInt8} (items : List XdrItem)
    (holds : data = items.flatMap XdrItem.bytes) (short : data.length < 2 ^ 63) :
    takeAll (items.map XdrItem.call) (.start data) =
      .ok (items.map XdrItem.value, { data := data, pos := data.length, err := false }) := by
  have inside : (XdrCursor.start data).Inside := ⟨Nat.zero_le _, short⟩
  obtain ⟨⟨taken, r⟩, took, follows⟩ := takeAll_goes (items.map XdrItem.call) inside
  have view : (XdrCursor.start data).view = before (items.flatMap XdrItem.bytes) [] := by
    rw [before, List.append_nil, ← holds]
    rfl
  have same := follows.same
  rw [view, readAll_items, Prod.mk.injEq] at same
  obtain ⟨values, left⟩ := same
  have kept := follows.data
  have bounded := follows.inside.bounded
  obtain ⟨found, pos, err⟩ := r
  obtain ⟨rest, clean⟩ := XdrReader.mk.inj left
  dsimp only [XdrCursor.start, id] at kept bounded values rest clean
  subst kept values clean
  have ends : pos = found.length := Nat.le_antisymm bounded (List.drop_eq_nil_iff.mp rest)
  rw [took, ends]

/-- Strings in memory: every object is smaller than `PTRDIFF_MAX`. -/
structure Message where
  bytes : List UInt8
  short : bytes.length < 2 ^ 63

theorem xdr_roundTrip_and_bounded :
    (∀ (realloc : Realloc) (items : List XdrItem), (putAll realloc items emptyBuf).err = false →
      takeAll (items.map XdrItem.call) (.start (putAll realloc items emptyBuf).data) =
        .ok (items.map XdrItem.value,
          { data := (putAll realloc items emptyBuf).data,
            pos := (putAll realloc items emptyBuf).data.length, err := false })) ∧
      ∀ (msg : Message) (calls : List XdrCall), ∃ taken r,
        takeAll calls (.start msg.bytes) = .ok (taken, r) ∧ r.data = msg.bytes ∧
          r.pos ≤ msg.bytes.length ∧
            (r.err = true → ∀ more, ∃ refused, takeAll more r = .ok (refused, r) ∧
              ∀ each ∈ refused, each.Refused) := by
  refine ⟨fun realloc items sound => ?_, fun msg calls => ?_⟩
  · have appends := putAll_appends realloc emptyBuf items
    have room := appends.room ⟨Nat.zero_le _, by decide⟩
    exact takeAll_items items (appends.data sound) (by omega)
  · have inside : (XdrCursor.start msg.bytes).Inside := ⟨Nat.zero_le _, msg.short⟩
    obtain ⟨⟨taken, r⟩, took, follows⟩ := takeAll_goes calls inside
    have bounded := follows.inside.bounded
    rw [follows.data] at bounded
    exact ⟨taken, r, took, follows.data, bounded, fun failed more => takeAll_refused more failed⟩

end Rufux.Mountd
