import Rufux.Mountd.Rpc

/-!
The size of READDIR and READDIRPLUS replies against the size that the client asked for.
-/

namespace Rufux.Mountd

open Rufux.Library Rpc

/-- A handler that calls nothing and appends these bytes to the reply. -/
def Emits (handler : Rpc Unit) (bytes : List UInt8) : Prop :=
  ∀ wire, handler wire = .done (.ok (), { wire with out := wire.out ++ bytes })

theorem emits_put (bytes : List UInt8) : Emits (put bytes) bytes := fun _ => rfl

theorem Emits.run {handler : Rpc Unit} {bytes : List UInt8} (emits : Emits handler bytes)
    {α : Type} (rest : Unit → Rpc α) (wire : Wire) :
    (handler >>= rest) wire = rest () { wire with out := wire.out ++ bytes } := by
  change CallProg.bind (handler wire) _ = _
  rw [emits wire]
  rfl

theorem Emits.bind {first : Rpc Unit} {rest : Unit → Rpc Unit} {front back : List UInt8}
    (left : Emits first front) (right : Emits (rest ()) back) :
    Emits (first >>= rest) (front ++ back) := by
  intro wire
  rw [left.run, right, List.append_assoc]

def u64Bytes (value : Nat) : List UInt8 := wordBytes (value / 2 ^ 32) ++ wordBytes value

def opaqueBytes (bytes : List UInt8) : List UInt8 :=
  wordBytes (bytes.length % 2 ^ 32) ++ paddedBytes (bytes.take (bytes.length % 2 ^ 32))

theorem emits_u64 (value : Nat) : Emits (xdrPutU64 value) (u64Bytes value) :=
  (emits_put _).bind (emits_put _)

theorem emits_bytes (bytes : List UInt8) : Emits (xdrPutOpaque bytes) (opaqueBytes bytes) :=
  (emits_put _).bind (emits_put _)

theorem u64Bytes_length (value : Nat) : (u64Bytes value).length = 8 := rfl

/-- The estimate of a string is no less than what is written. -/
theorem opaqueBytes_length (bytes : List UInt8) :
    (opaqueBytes bytes).length ≤ xdrPaddedStrlen bytes := by
  have bound := Nat.mod_le bytes.length (2 ^ 32)
  rw [opaqueBytes, List.length_append, wordBytes_length, paddedBytes_length, List.length_take,
    Nat.min_eq_left bound, xdrPaddedStrlen]
  unfold padding
  omega

def fattr3Bytes (attr : AttrWords) : List UInt8 :=
  wordBytes attr.type ++ (wordBytes (attr.mode % 0o10000) ++ (wordBytes attr.nlink ++
    (wordBytes attr.uid ++ (wordBytes attr.gid ++ (u64Bytes attr.size ++ (u64Bytes attr.used ++
      (wordBytes attr.rdev1 ++ (wordBytes attr.rdev2 ++ (u64Bytes attr.fsid ++
        (u64Bytes attr.fileid ++ (wordBytes attr.atimeSec ++ (wordBytes attr.atimeNsec ++
          (wordBytes attr.mtimeSec ++ (wordBytes attr.mtimeNsec ++ (wordBytes attr.ctimeSec ++
            wordBytes attr.ctimeNsec)))))))))))))))

theorem emits_fattr3 (attr : AttrWords) : Emits (xdrPutFattr3 attr) (fattr3Bytes attr) := by
  unfold xdrPutFattr3
  iterate 5 refine (emits_put _).bind ?_
  iterate 2 refine (emits_u64 _).bind ?_
  iterate 2 refine (emits_put _).bind ?_
  iterate 2 refine (emits_u64 _).bind ?_
  iterate 5 refine (emits_put _).bind ?_
  exact emits_put _

def postOpAttrBytes : Option NfsAttr → List UInt8
  | none => wordBytes 0
  | some attr => wordBytes 1 ++ fattr3Bytes attr.words

theorem emits_postOpAttr (attr : Option NfsAttr) :
    Emits (xdrPutPostOpAttr attr) (postOpAttrBytes attr) := by
  cases attr with
  | none => exact emits_put _
  | some attr => exact (emits_put _).bind (emits_fattr3 attr.words)

theorem postOpAttrBytes_length (attr : Option NfsAttr) :
    (postOpAttrBytes attr).length = postOpAttrSize attr := by
  cases attr <;> rfl

theorem postOpAttrSize_le (attr : Option NfsAttr) : postOpAttrSize attr ≤ 88 := by
  unfold postOpAttrSize
  split <;> decide

def postOpFhBytes : Option Nat → List UInt8
  | none => wordBytes 0
  | some ino => wordBytes 1 ++ opaqueBytes (xdrPutFh ino)

theorem emits_postOpFh (ino : Option Nat) : Emits (xdrPutPostOpFh ino) (postOpFhBytes ino) := by
  cases ino with
  | none => exact emits_put _
  | some ino => exact (emits_put _).bind (emits_bytes _)

theorem postOpFhBytes_length (ino : Option Nat) : (postOpFhBytes ino).length ≤ 16 := by
  cases ino with
  | none => exact (by decide : 4 ≤ 16)
  | some ino =>
    have handle := opaqueBytes_length (xdrPutFh ino)
    have eight : (xdrPutFh ino).length = 8 := rfl
    rw [xdrPaddedStrlen, eight] at handle
    rw [postOpFhBytes, List.length_append, wordBytes_length]
    omega

/-! ### The loops over the entries -/

/-- An entry with the mark in front of it. -/
def entryBytes (item : DirEntryItem × Nat) : List UInt8 :=
  wordBytes 1 ++ (u64Bytes item.1.fileid ++ (opaqueBytes item.1.name ++ u64Bytes (item.2 + 1)))

theorem emits_entry (item : DirEntryItem × Nat) {rest : Unit → Rpc Unit} (wire : Wire) :
    (xdrPutU32 1 >>= fun _ => putEntry3 item >>= rest) wire =
      rest () { wire with out := wire.out ++ entryBytes item } := by
  have entry : Emits (putEntry3 item)
      (u64Bytes item.1.fileid ++ (opaqueBytes item.1.name ++ u64Bytes (item.2 + 1))) :=
    (emits_u64 _).bind ((emits_bytes _).bind (emits_u64 _))
  have mark : Emits (xdrPutU32 1) (wordBytes 1) := emits_put _
  rw [mark.run, entry.run, List.append_assoc]
  rfl

theorem entryBytes_length (item : DirEntryItem × Nat) :
    (entryBytes item).length ≤ readdirEntrySize item := by
  have name := opaqueBytes_length item.1.name
  simp only [entryBytes, List.length_append, wordBytes_length, u64Bytes_length]
  unfold readdirEntrySize
  omega

def endBytes (eof : Bool) : List UInt8 := wordBytes 0 ++ wordBytes (if eof then 1 else 0)

theorem emits_end (eof : Bool) : Emits (endEntries eof) (endBytes eof) :=
  (emits_put _).bind (emits_put _)

/-- The entries behind `used` bytes of a reply stay inside the limit with what ends them, but for
an entry that is the first and the only one. -/
def Sized (limit used : Nat) (emitted : Bool) (entries : List (List UInt8)) : Prop :=
  used + entries.flatten.length + 8 ≤ limit ∨ entries = [] ∨
    emitted = false ∧ entries.length = 1

theorem sized_cons {limit used estimate : Nat} {emitted : Bool} {bytes : List UInt8}
    {entries : List (List UInt8)} (small : bytes.length ≤ estimate)
    (fits : emitted = true → used + estimate + 8 ≤ limit)
    (rest : Sized limit (used + bytes.length) true entries) :
    Sized limit used emitted (bytes :: entries) := by
  rw [Sized, List.flatten_cons, List.length_append]
  rcases rest with inside | rfl | ⟨never, -⟩
  · exact .inl (by omega)
  · cases emitted with
    | true =>
      have room := fits rfl
      exact .inl (by rw [List.flatten_nil, List.length_nil]; omega)
    | false => exact .inr (.inr ⟨rfl, rfl⟩)
  · cases never

/-- What a loop over the entries leaves behind a reply that starts at `start`. -/
def Fills (start limit : Nat) (items : List (DirEntryItem × Nat)) (emitted : Bool) (wire : Wire)
    (outcome : Except Refusal Unit × Wire) : Prop :=
  outcome.1 = .ok () ∧ ∃ page entries eof, page <+: items ∧
    List.Forall₂ (fun item bytes => entryBytes item <+: bytes) page entries ∧
      outcome.2.out = wire.out ++ (entries.flatten ++ endBytes eof) ∧
        Sized limit (wire.out.length - start) emitted entries ∧
          (emitted = false → items ≠ [] → page ≠ [])

theorem fills_end (start limit : Nat) {items : List (DirEntryItem × Nat)} {emitted : Bool}
    (eof : Bool) (wire : Wire) (stops : emitted = true ∨ items = []) :
    ((endEntries eof) wire).Every fun _ => Fills start limit items emitted wire := by
  rw [emits_end eof wire]
  refine ⟨rfl, [], [], eof, List.nil_prefix, .nil, rfl, .inr (.inl rfl), ?_⟩
  rintro rfl remaining
  rcases stops with never | rfl
  · cases never
  · exact absurd rfl remaining

theorem Fills.cons {start limit estimate : Nat} {item : DirEntryItem × Nat}
    {rest : List (DirEntryItem × Nat)} {emitted : Bool} {wire : Wire} {bytes : List UInt8}
    {outcome : Except Refusal Unit × Wire} (inside : start ≤ wire.out.length)
    (starts : entryBytes item <+: bytes) (small : bytes.length ≤ estimate)
    (fits : ¬(emitted = true ∧ limit < wire.out.length - start + estimate + 8))
    (fills : Fills start limit rest true { wire with out := wire.out ++ bytes } outcome) :
    Fills start limit (item :: rest) emitted wire outcome := by
  obtain ⟨done, page, entries, eof, cut, encodes, wrote, sized, -⟩ := fills
  refine ⟨done, item :: page, bytes :: entries, eof, List.cons_prefix_cons.mpr ⟨rfl, cut⟩,
    .cons starts encodes, ?_, ?_, fun _ _ => List.cons_ne_nil _ _⟩
  · rw [wrote, List.flatten_cons]
    simp only [List.append_assoc]
  · refine sized_cons small (fun more => ?_) ?_
    · by_contra wide
      exact fits ⟨more, by omega⟩
    · have used : (wire.out ++ bytes).length - start = wire.out.length - start + bytes.length := by
        rw [List.length_append]
        omega
      rw [← used]
      exact sized

theorem putEntries_fills {start limit : Nat} (items : List (DirEntryItem × Nat)) (emitted : Bool)
    (wire : Wire) (inside : start ≤ wire.out.length) :
    (putEntries start limit items emitted wire).Every fun _ =>
      Fills start limit items emitted wire := by
  induction items generalizing emitted wire with
  | nil => exact fills_end start limit true wire (.inr rfl)
  | cons item rest ih =>
    change ((ite _ _ _ : Rpc Unit) wire).Every _
    split
    · rename_i full
      exact fills_end start limit false wire (.inl full.1)
    · rename_i fits
      rw [emits_entry]
      have later := ih true { wire with out := wire.out ++ entryBytes item } (by
        rw [List.length_append]
        omega)
      exact later.mono fun _ outcome fills =>
        fills.cons inside (List.prefix_refl _) (entryBytes_length item) fits

theorem putEntriesPlus_fills {start limit : Nat} (items : List (DirEntryItem × Nat))
    (emitted : Bool) (wire : Wire) (inside : start ≤ wire.out.length) :
    (putEntriesPlus start limit items emitted wire).Every fun _ =>
      Fills start limit items emitted wire := by
  induction items generalizing emitted wire with
  | nil => exact fills_end start limit true wire (.inr rfl)
  | cons item rest ih =>
    change ((ite _ _ _ : Rpc Unit) wire).Every _
    split
    · rename_i full
      exact fills_end start limit false wire (.inl full.1)
    · rename_i fits
      intro found
      change ((xdrPutU32 1 >>= fun _ => putEntry3 item >>= _) wire).Every _
      rw [emits_entry, (emits_postOpAttr _).run, (emits_postOpFh _).run]
      have small := entryBytes_length item
      have attr := postOpAttrBytes_length (Except.toOption found)
      have handle := postOpFhBytes_length ((Except.toOption found).map fun _ => item.1.fileid)
      have most := postOpAttrSize_le (Except.toOption found)
      have later := ih true { wire with
        out := wire.out ++ (entryBytes item ++ (postOpAttrBytes (Except.toOption found) ++
          postOpFhBytes ((Except.toOption found).map fun _ => item.1.fileid))) } (by
        rw [List.length_append]
        omega)
      simp only [List.append_assoc]
      exact later.mono fun _ outcome fills =>
        fills.cons inside (List.prefix_append _ _) (by
          simp only [List.length_append]
          omega) fits

/-! ### The replies -/

/-- A `READDIR3resok` or `READDIRPLUS3resok` with the first entries behind the cookie. With the
status in front of it, it is longer than the limit only for a single entry, which is sent even
where it does not fit. -/
def ListsWithin (limit : Nat) (attr : Option NfsAttr) (items : List (DirEntryItem × Nat))
    (resok : List UInt8) : Prop :=
  ∃ page entries eof, page <+: items ∧
    List.Forall₂ (fun item bytes => entryBytes item <+: bytes) page entries ∧
      resok = postOpAttrBytes attr ++ (List.replicate 8 0 ++ (entries.flatten ++ endBytes eof)) ∧
        (4 + resok.length ≤ limit ∨ page.length = 1) ∧ (items ≠ [] → page ≠ [])

/-- What READDIR and READDIRPLUS answer to a listing. -/
def ListingResults (cookie least limit : Nat)
    (listed : Except NfsError (List DirEntryItem) × Option NfsAttr) (results : List UInt8) : Prop :=
  match listed.1 with
  | .error error => results = wordBytes error.status.code ++ postOpAttrBytes listed.2
  | .ok list =>
      if limit < least then
        results = wordBytes Nfsstat.toosmall.code ++ postOpAttrBytes listed.2
      else
        ∃ resok, results = wordBytes Nfsstat.ok.code ++ resok ∧
          ListsWithin limit listed.2 (listingFrom cookie list) resok

theorem Fills.listsWithin {limit : Nat} {items : List (DirEntryItem × Nat)} {wire : Wire}
    {attr : Option NfsAttr} {outcome : Except Refusal Unit × Wire} (roomy : 128 ≤ limit)
    (fills : Fills wire.out.length limit items false { wire with
      out := wire.out ++ (wordBytes 0 ++ (postOpAttrBytes attr ++ List.replicate 8 0)) } outcome) :
    outcome.1 = .ok () ∧ ∃ resok, outcome.2.out = wire.out ++ (wordBytes 0 ++ resok) ∧
      ListsWithin limit attr items resok := by
  obtain ⟨done, page, entries, eof, cut, encodes, wrote, sized, moves⟩ := fills
  have matched := encodes.length_eq
  have attrSize := postOpAttrBytes_length attr
  have attrMost := postOpAttrSize_le attr
  have closing : (endBytes eof).length = 8 := rfl
  refine ⟨done, postOpAttrBytes attr ++ (List.replicate 8 0 ++ (entries.flatten ++ endBytes eof)),
    ?_, page, entries, eof, cut, encodes, rfl, ?_, moves rfl⟩
  · rw [wrote]
    simp only [List.append_assoc]
  · simp only [List.length_append, List.length_replicate, wordBytes_length] at sized ⊢
    rcases sized with inside | rfl | ⟨-, single⟩
    · exact .inl (by omega)
    · exact .inl (by rw [List.flatten_nil, List.length_nil]; omega)
    · exact .inr (matched.trans single)

theorem emits_refusal (status : Nfsstat) (attr : Option NfsAttr) :
    Emits (putStatus status >>= fun _ => xdrPutPostOpAttr attr)
      (wordBytes status.code ++ postOpAttrBytes attr) :=
  Emits.bind (emits_put _) (emits_postOpAttr attr)

theorem putListing_results {dirIno cookie least limit : Nat} (wire : Wire)
    {entries : Nat → List (DirEntryItem × Nat) → Rpc Unit} (least128 : 128 ≤ least)
    (fills : ∀ start items before, start ≤ before.out.length →
      (entries start items before).Every fun _ => Fills start limit items false before) :
    (putListing dirIno cookie least limit entries wire).Every fun events outcome =>
      ∃ listed later, events = ⟨.readdir dirIno, listed⟩ :: later ∧ outcome.1 = .ok () ∧
        ∃ results, outcome.2.out = wire.out ++ results ∧
          ListingResults cookie least limit listed results := by
  rintro ⟨listed, attr⟩
  cases listed with
  | error error =>
    have answer := emits_refusal error.status attr wire
    change ((putStatus error.status >>= fun _ => xdrPutPostOpAttr attr) wire).Every _
    exact answer ▸ ⟨_, _, rfl, rfl, _, rfl, rfl⟩
  | ok list =>
    change ((ite _ _ _ : Rpc Unit) wire).Every _
    split
    · rename_i small
      have answer := emits_refusal .toosmall attr wire
      change ((putStatus .toosmall >>= fun _ => xdrPutPostOpAttr attr) wire).Every _
      refine answer ▸ ⟨_, _, rfl, rfl, _, rfl, ?_⟩
      exact (if_pos small).mpr rfl
    · rename_i roomy
      have header : Emits (xdrPutU32 0) (wordBytes 0) := emits_put _
      have verf : Emits (xdrPutFixed (List.replicate 8 0)) (List.replicate 8 0) := emits_put _
      change ((xdrPutU32 0 >>= fun _ => xdrPutPostOpAttr attr >>= fun _ =>
        xdrPutFixed (List.replicate 8 0) >>= fun _ =>
          entries wire.out.length (listingFrom cookie list)) wire).Every _
      rw [header.run, (emits_postOpAttr attr).run, verf.run]
      simp only [List.append_assoc]
      refine (fills _ _ _ (by rw [List.length_append]; omega)).mono fun events outcome filled => ?_
      obtain ⟨done, resok, wrote, within⟩ := filled.listsWithin (by omega)
      refine ⟨_, _, rfl, done, _, wrote, ?_⟩
      exact (if_neg roomy).mpr ⟨resok, rfl, within⟩

/-- What a READDIR or a READDIRPLUS asks for. -/
structure ListRequest where
  dir : Handle
  cookie : Nat
  limit : Nat
  deriving DecidableEq

def readdirRequest (reader : XdrReader) : Option ListRequest :=
  let dir := xdrGetHandle reader
  let cookie := xdrGetU64 dir.2
  let cverf := xdrGetFixed 8 cookie.2
  let maxBytes := xdrGetU32 cverf.2
  if dir.1.isSome ∧ cverf.1.isSome ∧ maxBytes.2.err = false then
    dir.1.map fun dir => ⟨dir, cookie.1, maxBytes.1⟩
  else none

def readdirplusRequest (reader : XdrReader) : Option ListRequest :=
  let dir := xdrGetHandle reader
  let cookie := xdrGetU64 dir.2
  let cverf := xdrGetFixed 8 cookie.2
  let dircount := xdrGetU32 cverf.2
  let maxcount := xdrGetU32 dircount.2
  if dir.1.isSome ∧ cverf.1.isSome ∧ maxcount.2.err = false then
    dir.1.map fun dir => ⟨dir, cookie.1, maxcount.1⟩
  else none

theorem checkedArg_bind {α β : Type} {get : XdrReader → Option α × XdrReader} {wire : Wire}
    {value : α} (got : (get wire.reader).1 = some value) (rest : α → Rpc β) :
    (checkedArg get >>= rest) wire = rest value { wire with reader := (get wire.reader).2 } := by
  change CallProg.bind (checkedArg get wire) _ = _
  unfold checkedArg
  split
  · rename_i refused
    rw [refused] at got
    cases got
  · rename_i found left taken
    rw [taken] at got ⊢
    cases got
    rfl

theorem arg_bind {α β : Type} (get : XdrReader → α × XdrReader) (rest : α → Rpc β) (wire : Wire) :
    (arg get >>= rest) wire =
      rest (get wire.reader).1 { wire with reader := (get wire.reader).2 } :=
  rfl

theorem checkArgs_bind {β : Type} {wire : Wire} (clean : wire.reader.err = false)
    (rest : Unit → Rpc β) : (checkArgs >>= rest) wire = rest () wire := by
  change CallProg.bind (checkArgs wire) _ = _
  rw [checkArgs, if_neg (by rw [clean]; decide)]
  rfl

theorem nfsproc3Readdir_results {wire : Wire} {request : ListRequest} {dirIno : Nat}
    (decoded : readdirRequest wire.reader = some request)
    (sound : xdrGetFh request.dir = some dirIno) :
    (nfsproc3Readdir wire).Every fun events outcome =>
      ∃ listed later, events = ⟨.readdir dirIno, listed⟩ :: later ∧ outcome.1 = .ok () ∧
        ∃ results, outcome.2.out = wire.out ++ results ∧
          ListingResults request.cookie 128 request.limit listed results := by
  unfold readdirRequest at decoded
  dsimp only at decoded
  split at decoded
  · rename_i args
    obtain ⟨-, verf, clean⟩ := args
    obtain ⟨dir, gotDir, rfl⟩ := Option.map_eq_some_iff.mp decoded
    obtain ⟨cverf, gotVerf⟩ := Option.isSome_iff_exists.mp verf
    unfold nfsproc3Readdir
    rw [checkedArg_bind gotDir, arg_bind, checkedArg_bind gotVerf, arg_bind, checkArgs_bind clean,
      sound]
    dsimp only
    generalize xdrGetU32 _ = limit, (xdrGetU64 _).1 = cookie
    exact putListing_results { reader := limit.2, out := wire.out } (Nat.le_refl _)
      fun start items before inside => putEntries_fills items false before inside
  · cases decoded

theorem nfsproc3Readdirplus_results {wire : Wire} {request : ListRequest} {dirIno : Nat}
    (decoded : readdirplusRequest wire.reader = some request)
    (sound : xdrGetFh request.dir = some dirIno) :
    (nfsproc3Readdirplus wire).Every fun events outcome =>
      ∃ listed later, events = ⟨.readdir dirIno, listed⟩ :: later ∧ outcome.1 = .ok () ∧
        ∃ results, outcome.2.out = wire.out ++ results ∧
          ListingResults request.cookie 256 request.limit listed results := by
  unfold readdirplusRequest at decoded
  dsimp only at decoded
  split at decoded
  · rename_i args
    obtain ⟨-, verf, clean⟩ := args
    obtain ⟨dir, gotDir, rfl⟩ := Option.map_eq_some_iff.mp decoded
    obtain ⟨cverf, gotVerf⟩ := Option.isSome_iff_exists.mp verf
    unfold nfsproc3Readdirplus
    rw [checkedArg_bind gotDir, arg_bind, checkedArg_bind gotVerf, arg_bind, arg_bind,
      checkArgs_bind clean, sound]
    dsimp only
    generalize xdrGetU32 (xdrGetU32 _).2 = limit, (xdrGetU64 _).1 = cookie
    exact putListing_results { reader := limit.2, out := wire.out } (by decide)
      fun start items before inside => putEntriesPlus_fills items false before inside
  · cases decoded

inductive ListProc
  | readdir
  | readdirplus

namespace ListProc

def handler : ListProc → Rpc Unit
  | .readdir => nfsproc3Readdir
  | .readdirplus => nfsproc3Readdirplus

def request : ListProc → XdrReader → Option ListRequest
  | .readdir => readdirRequest
  | .readdirplus => readdirplusRequest

/-- The least size that is served. -/
def least : ListProc → Nat
  | .readdir => 128
  | .readdirplus => 256

end ListProc

theorem listing_within_limit (proc : ListProc) {wire : Wire} {request : ListRequest} {dirIno : Nat}
    (decoded : proc.request wire.reader = some request)
    (sound : xdrGetFh request.dir = some dirIno) :
    (proc.handler wire).Every fun events outcome =>
      ∃ listed later, events = ⟨.readdir dirIno, listed⟩ :: later ∧ outcome.1 = .ok () ∧
        ∃ results, outcome.2.out = wire.out ++ results ∧
          ListingResults request.cookie proc.least request.limit listed results := by
  cases proc with
  | readdir => exact nfsproc3Readdir_results decoded sound
  | readdirplus => exact nfsproc3Readdirplus_results decoded sound

/-- A READDIR from the start of directory 5, with room for 128 bytes. -/
def narrowRequest : Wire where
  reader :=
    { rest := opaqueBytes (xdrPutFh 5) ++ u64Bytes 0 ++ List.replicate 8 0 ++ wordBytes 128,
      err := false }
  out := []

theorem narrowRequest_decoded :
    ListProc.readdir.request narrowRequest.reader = some ⟨xdrPutFh 5, 0, 128⟩ := by
  decide +kernel

theorem listing_within_limit_narrow :
    (ListProc.readdir.handler narrowRequest).Every fun events outcome =>
      ∃ listed later, events = ⟨.readdir 5, listed⟩ :: later ∧ outcome.1 = .ok () ∧
        ∃ results, outcome.2.out = narrowRequest.out ++ results ∧
          ListingResults 0 128 128 listed results :=
  listing_within_limit .readdir narrowRequest_decoded (by decide)

def narrowAttr : NfsAttr where
  type := .dir
  mode := 0o755
  nlink := 2
  uid := 0
  gid := 0
  size := 4096
  used := 4096
  fsid := 1
  fileid := 5
  atimeSec := 0
  atimeNsec := 0
  mtimeSec := 0
  mtimeNsec := 0
  ctimeSec := 0
  ctimeNsec := 0

/-- The reply of a run that lists a directory, with this answer, and calls nothing else. -/
def replyToListing (answer : Except NfsError (List DirEntryItem) × Option NfsAttr) :
    CallProg FsOp FsOp.Result (Except Refusal Unit × Wire) → List UInt8
  | .call (.readdir _) next =>
      match next answer with
      | .done outcome => outcome.2.out
      | .call _ _ => []
  | _ => []

theorem replyToListing_every {answer : Except NfsError (List DirEntryItem) × Option NfsAttr}
    {prog : CallProg FsOp FsOp.Result (Except Refusal Unit × Wire)} {post : List UInt8 → Prop}
    (every : prog.Every fun _ outcome => post outcome.2.out)
    (replied : replyToListing answer prog ≠ []) : post (replyToListing answer prog) := by
  unfold replyToListing at replied ⊢
  split at replied
  · rename_i dirIno next
    have answered := every answer
    dsimp only at answered replied ⊢
    split at replied
    · rename_i outcome finished
      rw [finished] at answered
      exact answered
    · exact absurd rfl replied
  · exact absurd rfl replied

def narrowReply : List UInt8 :=
  replyToListing (.ok [⟨5, [46]⟩, ⟨5, [46, 46]⟩], some narrowAttr)
    (ListProc.readdir.handler narrowRequest)

theorem narrowReply_split :
    narrowReply = wordBytes Nfsstat.ok.code ++ narrowReply.drop 4 ∧
      (narrowReply.drop 4).length = 132 := by
  decide +kernel

/-- The entry `.` makes a reply of 132 bytes where 128 were asked for. -/
theorem firstEntry_exceeds_limit :
    ¬∀ (proc : ListProc) (wire : Wire) (request : ListRequest),
      proc.request wire.reader = some request →
        (proc.handler wire).Every fun _ outcome => ∀ resok,
          outcome.2.out = wire.out ++ (wordBytes Nfsstat.ok.code ++ resok) →
            resok.length ≤ request.limit := by
  intro respects
  have every := respects .readdir narrowRequest _ narrowRequest_decoded
  have replied : narrowReply ≠ [] := by
    intro empty
    have length := narrowReply_split.2
    rw [empty] at length
    cases length
  have within := @replyToListing_every _ _ (fun out => ∀ resok,
    out = narrowRequest.out ++ (wordBytes Nfsstat.ok.code ++ resok) → resok.length ≤ 128) every
      replied (narrowReply.drop 4) narrowReply_split.1
  rw [narrowReply_split.2] at within
  exact absurd within (by decide)

end Rufux.Mountd
