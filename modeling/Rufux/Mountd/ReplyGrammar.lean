import Rufux.Mountd.Rpc

/-!
The reply grammar of ONC RPC version 2, MOUNT version 3 and NFS version 3, and which
replies of the daemon it accepts.
-/

namespace Rufux.Mountd

open Rufux.Library Rufux.Library.Grammar

/-- The values that `ftype3` declares. -/
def ftype3Codes : List Nat := [1, 2, 3, 4, 5, 6, 7]

/-- The values that `nfsstat3` declares besides `NFS3_OK`. -/
def nfsstat3Codes : List Nat :=
  [1, 2, 5, 6, 13, 17, 18, 19, 20, 21, 22, 27, 28, 30, 31, 63, 66, 69, 70, 71, 10001, 10002, 10003,
    10004, 10005, 10006, 10007, 10008]

/-- The values that `mountstat3` declares besides `MNT3_OK`. -/
def mountstat3Codes : List Nat := [1, 2, 5, 13, 20, 22, 63, 10004, 10006]

def boolGrammar : Grammar := oneOf [0, 1]

/-- That many words in front of the rest. -/
def words : Nat → Grammar → Grammar
  | 0, rest => rest
  | count + 1, rest => anyWord.andThen (words count rest)

/-- A string or an opaque value without a bound of its own. -/
def unbounded : Grammar := varying (2 ^ 32 - 1)

/-- What follows the type of an attribute block. -/
def fattr3Rest : Grammar :=
  words 4 (hyper.andThen (hyper.andThen (words 2 (hyper.andThen (hyper.andThen (words 5 anyWord))))))

def fattr3 : Grammar := (oneOf ftype3Codes).andThen fattr3Rest

def postOpAttr : Grammar := optional fattr3

def wccAttr : Grammar := hyper.andThen (words 3 anyWord)

def wccData : Grammar := (optional wccAttr).andThen postOpAttr

def nfsFh3 : Grammar := varying 64

def postOpFh3 : Grammar := optional nfsFh3

def writeverf3 : Grammar := fixed 8

/-- A result union: one body under the good status, another under the statuses of a failure. -/
def resultUnion (failures : List Nat) (ok fail : Grammar) : Grammar :=
  union fun status =>
    if status = 0 then some ok else if failures.contains status then some fail else none

def nfsUnion (ok fail : Grammar) : Grammar := resultUnion nfsstat3Codes ok fail

def entry3 : Grammar := hyper.andThen (unbounded.andThen hyper)

def entryplus3 : Grammar := entry3.andThen (postOpAttr.andThen postOpFh3)

def dirlist (entry : Grammar) : Grammar := (chain entry).andThen boolGrammar

def createResults : Grammar :=
  nfsUnion (postOpFh3.andThen (postOpAttr.andThen wccData)) wccData

def readdirResults (entry : Grammar) : Grammar :=
  nfsUnion (postOpAttr.andThen ((fixed 8).andThen (dirlist entry))) postOpAttr

/-- The results of the NFS procedures. -/
def nfsResults : Nat → Option Grammar
  | 0 => some nothing
  | 1 => some (nfsUnion fattr3 nothing)
  | 2 => some (nfsUnion wccData wccData)
  | 3 => some (nfsUnion (nfsFh3.andThen (postOpAttr.andThen postOpAttr)) postOpAttr)
  | 4 => some (nfsUnion (postOpAttr.andThen anyWord) postOpAttr)
  | 5 => some (nfsUnion (postOpAttr.andThen unbounded) postOpAttr)
  | 6 => some (nfsUnion (postOpAttr.andThen (anyWord.andThen (boolGrammar.andThen unbounded)))
      postOpAttr)
  | 7 => some (nfsUnion (wccData.andThen (anyWord.andThen ((oneOf [0, 1, 2]).andThen writeverf3)))
      wccData)
  | 8 => some createResults
  | 9 => some createResults
  | 10 => some createResults
  | 11 => some createResults
  | 12 => some (nfsUnion wccData wccData)
  | 13 => some (nfsUnion wccData wccData)
  | 14 => some (nfsUnion (wccData.andThen wccData) (wccData.andThen wccData))
  | 15 => some (nfsUnion (postOpAttr.andThen wccData) (postOpAttr.andThen wccData))
  | 16 => some (readdirResults entry3)
  | 17 => some (readdirResults entryplus3)
  | 18 => some (nfsUnion (postOpAttr.andThen (hyper.andThen (hyper.andThen (hyper.andThen
      (hyper.andThen (hyper.andThen (hyper.andThen anyWord))))))) postOpAttr)
  | 19 => some (nfsUnion (postOpAttr.andThen (words 7 (hyper.andThen (words 2 anyWord))))
      postOpAttr)
  | 20 => some (nfsUnion (postOpAttr.andThen (words 2 (boolGrammar.andThen
      (boolGrammar.andThen (boolGrammar.andThen boolGrammar))))) postOpAttr)
  | 21 => some (nfsUnion (wccData.andThen writeverf3) wccData)
  | _ => none

def dirpath : Grammar := varying 1024

def mountName : Grammar := varying 255

def mountbody : Grammar := mountName.andThen dirpath

def exportnode : Grammar := dirpath.andThen (chain mountName)

/-- The results of the MOUNT procedures. -/
def mountResults : Nat → Option Grammar
  | 0 => some nothing
  | 1 => some (resultUnion mountstat3Codes (nfsFh3.andThen (array anyWord)) nothing)
  | 2 => some (chain mountbody)
  | 3 => some nothing
  | 4 => some nothing
  | 5 => some (chain exportnode)
  | _ => none

def results (prog proc : Nat) : Option Grammar :=
  if prog = mountProgram then mountResults proc
  else if prog = nfsProgram then nfsResults proc
  else none

/-- What follows the accept status. -/
def acceptedBody (prog proc : Nat) : Nat → Option Grammar
  | 0 => results prog proc
  | 1 => some nothing
  | 2 => some hyper
  | 3 => some nothing
  | 4 => some nothing
  | 5 => some nothing
  | _ => none

/-- What follows the reject status: the versions, or an `auth_stat`. -/
def rejectedBody : Nat → Option Grammar
  | 0 => some hyper
  | 1 => some (oneOf [0, 1, 2, 3, 4, 5, 6, 7, 8, 9, 10, 11, 12, 13, 14])
  | _ => none

/-- A reply to a call with this number, for this procedure. -/
def replyGrammar (xid prog proc : Nat) : Grammar :=
  (oneOf [xid]).andThen ((oneOf [1]).andThen (union fun
    | 0 => some (anyWord.andThen ((varying 400).andThen (union (acceptedBody prog proc))))
    | 1 => some (union rejectedBody)
    | _ => none))

/-- The operation stored every block that the reply marks as present, or the words that
were there before read as one. -/
def Stored (stack : AttrWords) (event : FsEvent) : Prop :=
  match event with
  | ⟨.create _ _ _ _, result⟩ | ⟨.mkdir _ _ _, result⟩ | ⟨.symlink _ _ _ _, result⟩ =>
      result.status = .ok → result.attr = none → stack.type % 2 ^ 32 ∈ ftype3Codes
  | _ => True

/-- A handler that neither calls nor writes. -/
def Decodes {α : Type} (handler : Rpc α) : Prop :=
  ∀ wire, ∃ outcome, handler wire = .done outcome ∧ outcome.2.out = wire.out

namespace Decodes

variable {α β : Type}

theorem bind {first : Rpc α} {rest : α → Rpc β} (left : Decodes first)
    (right : ∀ value, Decodes (rest value)) : Decodes (first >>= rest) := by
  intro wire
  obtain ⟨⟨outcome, middle⟩, computed, keeps⟩ := left wire
  change ∃ outcome, CallProg.bind (first wire) _ = _ ∧ _
  rw [computed]
  cases outcome with
  | error refusal => exact ⟨_, rfl, keeps⟩
  | ok value =>
      obtain ⟨outcome, finished, kept⟩ := right value middle
      exact ⟨outcome, finished, kept.trans keeps⟩

theorem pure (value : α) : Decodes (Pure.pure value : Rpc α) := fun _ => ⟨_, rfl, rfl⟩

theorem refuse (refusal : Refusal) : Decodes (Rpc.refuse refusal : Rpc α) := fun _ => ⟨_, rfl, rfl⟩

theorem outLength : Decodes Rpc.outLength := fun _ => ⟨_, rfl, rfl⟩

theorem arg (get : XdrReader → α × XdrReader) : Decodes (Rpc.arg get) := fun _ => ⟨_, rfl, rfl⟩

theorem checkedArg (get : XdrReader → Option α × XdrReader) : Decodes (Rpc.checkedArg get) := by
  intro wire
  unfold Rpc.checkedArg
  split <;> exact ⟨_, rfl, rfl⟩

theorem checkArgs : Decodes Rpc.checkArgs := by
  intro wire
  unfold Rpc.checkArgs
  split <;> exact ⟨_, rfl, rfl⟩

theorem createHow : Decodes Mountd.createHow := by
  refine bind (arg _) fun cmode => ?_
  split
  · exact bind (checkedArg _) fun sattr => pure _
  · exact bind (checkedArg _) fun sattr => pure _
  · exact bind (checkedArg _) fun verf => pure _
  · exact refuse _

theorem mknodArgs (ftype : Nat) : Decodes (Mountd.mknodArgs ftype) := by
  unfold Mountd.mknodArgs
  split
  · exact bind (checkedArg _) fun _ => bind (arg _) fun _ => bind (arg _) fun _ => pure _
  · split
    · exact bind (checkedArg _) fun _ => pure _
    · exact pure _

end Decodes

/-- A handler that only appends to the reply, and, unless it refuses, whole words with
this property. -/
def Appends {α : Type} (fits : List FsEvent → List UInt8 → Prop) (handler : Rpc α) : Prop :=
  ∀ wire, (handler wire).Every fun events outcome =>
    ∃ body, outcome.2.out = wire.out ++ body ∧
      ∀ value, outcome.1 = .ok value → 4 ∣ body.length ∧ fits events body

namespace Appends

variable {fits : List FsEvent → List UInt8 → Prop} {α β : Type}

theorem bind {first : Rpc α} {rest : α → Rpc β} {front back : List FsEvent → List UInt8 → Prop}
    (left : Appends front first) (right : ∀ value, Appends back (rest value))
    (joins : ∀ events more early late, front events early → back more late →
      fits (events ++ more) (early ++ late)) : Appends fits (first >>= rest) := by
  intro wire
  change (CallProg.bind (first wire) _).Every _
  rw [CallProg.every_bind]
  apply (left wire).mono
  rintro events ⟨outcome, middle⟩ ⟨early, atFront, wrote⟩
  cases outcome with
  | error refusal => exact ⟨early, atFront, fun _ bad => nomatch bad⟩
  | ok value =>
      obtain ⟨aligned, fitsFront⟩ := wrote value rfl
      apply (right value middle).mono
      rintro more ⟨outcome, final⟩ ⟨late, atBack, wrote⟩
      refine ⟨early ++ late, ?_, ?_⟩
      · rw [atBack, atFront, List.append_assoc]
      · intro result finished
        obtain ⟨alignedBack, fitsBack⟩ := wrote result finished
        rw [List.length_append]
        exact ⟨Nat.dvd_add aligned alignedBack, joins _ _ _ _ fitsFront fitsBack⟩

theorem mono {weaker : List FsEvent → List UInt8 → Prop} {handler : Rpc α}
    (appends : Appends fits handler) (implies : ∀ events body, fits events body → weaker events body) :
    Appends weaker handler := by
  intro wire
  apply (appends wire).mono
  rintro events outcome ⟨body, atEnd, wrote⟩
  refine ⟨body, atEnd, fun value finished => ?_⟩
  obtain ⟨aligned, holds⟩ := wrote value finished
  exact ⟨aligned, implies _ _ holds⟩

theorem decode {handler : Rpc α} (decodes : Decodes handler) (holds : fits [] []) :
    Appends fits handler := by
  intro wire
  obtain ⟨outcome, computed, keeps⟩ := decodes wire
  rw [computed]
  exact ⟨[], by rw [keeps, List.append_nil], fun _ _ => ⟨Nat.dvd_zero 4, holds⟩⟩

theorem put {bytes : List UInt8} (aligned : 4 ∣ bytes.length) (holds : fits [] bytes) :
    Appends fits (Rpc.put bytes) :=
  fun _ => ⟨bytes, rfl, fun _ _ => ⟨aligned, holds⟩⟩

end Appends

theorem appendsWord (value : Nat) :
    Appends (fun events body => events = [] ∧ body = wordBytes value) (xdrPutU32 value) :=
  Appends.put (Nat.dvd_refl 4) ⟨rfl, rfl⟩

/-- The bytes are read by the grammar, unless the words of a block that was never stored
stop it. -/
def ReadsIfStored (stack : AttrWords) (grammar : Grammar) (events : List FsEvent)
    (body : List UInt8) : Prop :=
  ((∀ event ∈ events, Stored stack event) → grammar.Reads body) ∧
    ((∃ event ∈ events, ¬Stored stack event) → grammar.Stuck body)

theorem ReadsIfStored.of_reads {stack : AttrWords} {grammar : Grammar} {body : List UInt8}
    (reads : grammar.Reads body) : ReadsIfStored stack grammar [] body := by
  refine ⟨fun _ => reads, ?_⟩
  rintro ⟨event, member, _⟩
  exact absurd member List.not_mem_nil

theorem ReadsIfStored.append {stack : AttrWords} {grammar later : Grammar}
    (events more : List FsEvent) (front back : List UInt8)
    (left : ReadsIfStored stack grammar events front)
    (right : ReadsIfStored stack later more back) :
    ReadsIfStored stack (grammar.andThen later) (events ++ more) (front ++ back) := by
  constructor
  · intro stored
    obtain ⟨first, second⟩ := List.forall_mem_append.mp stored
    exact (left.1 first).andThen (right.1 second)
  · intro failure
    by_cases first : ∃ event ∈ events, ¬Stored stack event
    · exact (left.2 first).andThen
    · obtain ⟨event, member, missing⟩ := failure
      push Not at first
      rcases List.mem_append.mp member with early | late
      · exact absurd (first event early) missing
      · exact (left.1 first).andThen_stuck (right.2 ⟨event, late, missing⟩)

/-- A handler that writes what a grammar reads, if every block it marks was stored. -/
def Writes {α : Type} (stack : AttrWords) (grammar : Grammar) (handler : Rpc α) : Prop :=
  Appends (ReadsIfStored stack grammar) handler

namespace Writes

variable {stack : AttrWords} {grammar later : Grammar} {α β : Type}

theorem bind {first : Rpc α} {rest : α → Rpc β} (left : Writes stack grammar first)
    (right : ∀ value, Writes stack later (rest value)) :
    Writes stack (grammar.andThen later) (first >>= rest) :=
  Appends.bind left right ReadsIfStored.append

/-- A step that writes nothing. -/
theorem after {first : Rpc α} {rest : α → Rpc β} (left : Writes stack nothing first)
    (right : ∀ value, Writes stack grammar (rest value)) :
    Writes stack grammar (first >>= rest) := by
  have both := bind left right
  rwa [nothing_andThen] at both

theorem before {first : Rpc α} {rest : α → Rpc β} (left : Writes stack grammar first)
    (right : ∀ value, Writes stack nothing (rest value)) :
    Writes stack grammar (first >>= rest) := by
  have both := bind left right
  rwa [andThen_nothing] at both

theorem decode {handler : Rpc α} (decodes : Decodes handler) : Writes stack nothing handler :=
  Appends.decode decodes (ReadsIfStored.of_reads reads_nothing)

theorem pure (value : α) : Writes stack nothing (Pure.pure value : Rpc α) :=
  decode (Decodes.pure value)

theorem arg (get : XdrReader → α × XdrReader) : Writes stack nothing (Rpc.arg get) :=
  decode (Decodes.arg get)

theorem checkedArg (get : XdrReader → Option α × XdrReader) :
    Writes stack nothing (Rpc.checkedArg get) :=
  decode (Decodes.checkedArg get)

theorem checkArgs : Writes stack nothing Rpc.checkArgs :=
  decode Decodes.checkArgs

theorem refuse (refusal : Refusal) : Writes stack grammar (Rpc.refuse refusal : Rpc α) :=
  fun _ => ⟨[], (List.append_nil _).symm, fun _ bad => nomatch bad⟩

theorem call {op : FsOp} (stored : ∀ result, Stored stack ⟨op, result⟩) :
    Writes stack nothing (Rpc.call op) := by
  intro wire result
  refine ⟨[], (List.append_nil _).symm, fun _ _ => ⟨Nat.dvd_zero 4, fun _ => reads_nothing, ?_⟩⟩
  rintro ⟨event, member, missing⟩
  rw [List.mem_singleton.mp member] at missing
  exact absurd (stored result) missing

theorem put {bytes : List UInt8} (aligned : 4 ∣ bytes.length) (reads : grammar.Reads bytes) :
    Writes stack grammar (Rpc.put bytes) :=
  Appends.put aligned (ReadsIfStored.of_reads reads)

theorem putU32 {allowed : Nat → Bool} {value : Nat} (fits : allowed (value % 2 ^ 32) = true) :
    Writes stack (word allowed) (xdrPutU32 value) :=
  put (Nat.dvd_refl 4) (reads_word fits)

theorem putAny (value : Nat) : Writes stack anyWord (xdrPutU32 value) := putU32 rfl

theorem putU64 (value : Nat) : Writes stack hyper (xdrPutU64 value) :=
  bind (putAny _) fun _ => putAny _

theorem putFixed {size : Nat} {bytes : List UInt8} (exactly : bytes.length = size) :
    Writes stack (fixed size) (xdrPutFixed bytes) := by
  rw [← exactly]
  apply put _ (reads_fixed bytes)
  rw [paddedBytes_length]
  exact padding_aligns _

/-- A word that chooses what follows it. -/
theorem choose {branch : Nat → Option Grammar} {value : Nat} {rest : Unit → Rpc α}
    (chosen : branch (value % 2 ^ 32) = some grammar) (right : Writes stack grammar (rest ())) :
    Writes stack (union branch) (xdrPutU32 value >>= rest) := by
  refine Appends.bind (appendsWord value) (fun _ => right) ?_
  rintro events more early late ⟨rfl, rfl⟩ follows
  exact ⟨fun stored => Reads.union chosen (follows.1 stored),
    fun missing => Stuck.union chosen (follows.2 missing)⟩

theorem putOpaque {limit : Nat} {bytes : List UInt8} (fits : bytes.length % 2 ^ 32 ≤ limit) :
    Writes stack (varying limit) (xdrPutOpaque bytes) := by
  have size : (bytes.take (bytes.length % 2 ^ 32)).length = bytes.length % 2 ^ 32 := by
    rw [List.length_take]
    exact Nat.min_eq_left (Nat.mod_le _ _)
  apply choose _ (putFixed size)
  rw [Nat.mod_mod, if_pos fits]

theorem putStr (text : Name) : Writes stack unbounded (xdrPutStr text) :=
  putOpaque (Nat.le_pred_of_lt (Nat.mod_lt _ (by decide)))

theorem putHandle (ino : Nat) : Writes stack nfsFh3 (xdrPutHandle ino) :=
  putOpaque (by change 8 % 2 ^ 32 ≤ 64; decide)

theorem putPresent {rest : Unit → Rpc α} (right : Writes stack grammar (rest ())) :
    Writes stack (optional grammar) (xdrPutU32 1 >>= rest) :=
  choose rfl right

theorem putOptional {put : α → Rpc Unit} (value : Option α)
    (writes : ∀ found, Writes stack grammar (put found)) :
    Writes stack (optional grammar) (xdrPutOptional put value) := by
  cases value with
  | none =>
      have both : Writes stack (optional grammar) (xdrPutU32 0 >>= fun _ => Pure.pure ()) :=
        choose rfl (pure ())
      exact both
  | some found => exact putPresent (writes found)

/-- What `xdr_put_fattr3` writes after the type. -/
theorem putFattr3Rest (attr : AttrWords) : Writes stack fattr3Rest (do
    xdrPutU32 (attr.mode % 0o10000)
    xdrPutU32 attr.nlink
    xdrPutU32 attr.uid
    xdrPutU32 attr.gid
    xdrPutU64 attr.size
    xdrPutU64 attr.used
    xdrPutU32 attr.rdev1
    xdrPutU32 attr.rdev2
    xdrPutU64 attr.fsid
    xdrPutU64 attr.fileid
    xdrPutU32 attr.atimeSec
    xdrPutU32 attr.atimeNsec
    xdrPutU32 attr.mtimeSec
    xdrPutU32 attr.mtimeNsec
    xdrPutU32 attr.ctimeSec
    xdrPutU32 attr.ctimeNsec) := by
  iterate 4 refine bind (putAny _) fun _ => ?_
  iterate 2 refine bind (putU64 _) fun _ => ?_
  iterate 2 refine bind (putAny _) fun _ => ?_
  iterate 2 refine bind (putU64 _) fun _ => ?_
  iterate 5 refine bind (putAny _) fun _ => ?_
  exact putAny _

theorem putFattr3 {attr : AttrWords} (typed : attr.type % 2 ^ 32 ∈ ftype3Codes) :
    Writes stack fattr3 (xdrPutFattr3 attr) :=
  bind (putU32 (List.contains_iff_mem.mpr typed)) fun _ => putFattr3Rest attr

theorem code_mem_ftype3Codes (type : Ftype3) : type.code % 2 ^ 32 ∈ ftype3Codes := by
  cases type <;> decide

theorem putPostOpAttr (attr : Option NfsAttr) :
    Writes stack postOpAttr (xdrPutPostOpAttr attr) :=
  putOptional attr fun found => putFattr3 (code_mem_ftype3Codes found.type)

theorem putPreOpAttr (pre : Option WccPre) :
    Writes stack (optional wccAttr) (xdrPutPreOpAttr pre) := by
  apply putOptional
  intro found
  refine bind (putU64 _) fun _ => ?_
  iterate 3 refine bind (putAny _) fun _ => ?_
  exact putAny _

theorem putWccData (pre : Option WccPre) (post : Option NfsAttr) :
    Writes stack wccData (xdrPutWccData pre post) :=
  bind (putPreOpAttr pre) fun _ => putPostOpAttr post

theorem putPostOpFh (ino : Option Nat) : Writes stack postOpFh3 (xdrPutPostOpFh ino) :=
  putOptional ino fun found => putHandle found

theorem code_ne_ok {status : Nfsstat} (failed : status ≠ .ok) :
    status.code % 2 ^ 32 ≠ 0 ∧ nfsstat3Codes.contains (status.code % 2 ^ 32) = true := by
  cases status <;> first | exact absurd rfl failed | decide

/-- The status and the body that goes with it. -/
theorem putResult {ok fail : Grammar} {status : Nfsstat} {rest : Unit → Rpc α}
    (good : status = .ok → Writes stack ok (rest ()))
    (bad : status ≠ .ok → Writes stack fail (rest ())) :
    Writes stack (nfsUnion ok fail) (putStatus status >>= rest) := by
  rw [nfsUnion, resultUnion, putStatus]
  by_cases succeeded : status = .ok
  · apply choose _ (good succeeded)
    rw [succeeded]
    rfl
  · obtain ⟨nonzero, listed⟩ := code_ne_ok succeeded
    apply choose _ (bad succeeded)
    rw [if_neg nonzero, if_pos listed]

/-- The reply to a malformed handle. -/
theorem putFailure {ok fail : Grammar} {status : Nfsstat} {rest : Unit → Rpc α}
    (failed : status ≠ .ok) (bad : Writes stack fail (rest ())) :
    Writes stack (nfsUnion ok fail) (putStatus status >>= rest) :=
  putResult (fun succeeded => absurd succeeded failed) fun _ => bad

theorem putLastFailure {ok : Grammar} {status : Nfsstat} (failed : status ≠ .ok) :
    Writes stack (nfsUnion ok nothing) (putStatus status) := by
  have both : Writes stack (nfsUnion ok nothing) (putStatus status >>= fun _ => Pure.pure ()) :=
    putFailure failed (pure ())
  exact both

section Handlers

variable {ok fail : Grammar}

theorem whenFound {found : Except NfsError α} {body : α → Rpc Unit}
    (good : ∀ value, Writes stack grammar (body value)) (succeeded : outcomeStatus found = .ok) :
    Writes stack grammar (Mountd.whenFound found body) := by
  cases found with
  | error failure => exact absurd succeeded failure.failed
  | ok value => exact good value

theorem whenMissing {found : Except NfsError α} {body : α → Rpc Unit}
    (failed : outcomeStatus found ≠ .ok) :
    Writes stack nothing (Mountd.whenFound found body) := by
  cases found with
  | error failure => exact pure ()
  | ok value => exact absurd rfl failed

/-- The attributes of an object, and what was found of it. -/
theorem putFound {found : Except NfsError α} {attr : Option NfsAttr} {body : α → Rpc Unit}
    (good : ∀ value, Writes stack ok (body value)) :
    Writes stack (nfsUnion (postOpAttr.andThen ok) postOpAttr) (do
      putStatus (outcomeStatus found)
      xdrPutPostOpAttr attr
      Mountd.whenFound found body) := by
  apply putResult
  · exact fun succeeded => bind (putPostOpAttr attr) fun _ => whenFound good succeeded
  · exact fun failed => before (putPostOpAttr attr) fun _ => whenMissing failed

theorem whenOk {status : Nfsstat} {body : Rpc Unit} (good : Writes stack grammar body)
    (succeeded : status = .ok) : Writes stack grammar (Mountd.whenOk status body) := by
  rw [Mountd.whenOk, if_pos succeeded]
  exact good

theorem whenFailed {status : Nfsstat} {body : Rpc Unit} (failed : status ≠ .ok) :
    Writes stack nothing (Mountd.whenOk status body) := by
  rw [Mountd.whenOk, if_neg failed]
  exact pure ()

/-- A handler that goes no further than a malformed handle, or answers a sound one. -/
theorem handle {fh : Handle} {malformed : Rpc Unit} {sound : Nat → Rpc Unit}
    (bad : Writes stack grammar malformed) (good : ∀ ino, Writes stack grammar (sound ino)) :
    Writes stack grammar (match xdrGetFh fh with
      | none => malformed
      | some ino => sound ino) := by
  cases xdrGetFh fh with
  | none => exact bad
  | some ino => exact good ino

theorem badHandleAttr : Writes stack (nfsUnion ok postOpAttr) (do
    putStatus .badhandle
    xdrPutPostOpAttr none) :=
  putFailure (by decide) (putPostOpAttr none)

theorem badHandleWcc : Writes stack (nfsUnion ok wccData) (do
    putStatus .badhandle
    xdrPutWccData none none) :=
  putFailure (by decide) (putWccData none none)

theorem nfsproc3Getattr : Writes stack (nfsUnion fattr3 nothing) Mountd.nfsproc3Getattr := by
  refine after (checkedArg _) fun fh => handle (putLastFailure (by decide)) fun ino => ?_
  refine after (call fun _ => trivial) fun found => putResult ?_ whenMissing
  exact whenFound fun attr => putFattr3 (code_mem_ftype3Codes attr.type)

theorem setattrGuarded (ino : Nat) (sattr : SAttr3) (guard : Option (Nat × Nat)) :
    Writes stack (nfsUnion wccData wccData) (Mountd.setattrGuarded ino sattr guard) := by
  refine after (call fun _ => trivial) fun found => ?_
  cases found with
  | error failure => exact putFailure (by decide) (putWccData none none)
  | ok attr =>
      change Writes stack _ (ite _ _ _)
      split
      · exact putFailure (by decide) (putWccData _ _)
      · refine after (call fun _ => trivial) fun set => ?_
        cases set with
        | ok after => exact putResult (fun _ => putWccData _ _) fun _ => putWccData _ _
        | error failure =>
            refine after (call fun _ => trivial) fun found => ?_
            exact putFailure failure.failed (putWccData _ _)

theorem nfsproc3Setattr : Writes stack (nfsUnion wccData wccData) Mountd.nfsproc3Setattr := by
  refine after (checkedArg _) fun fh => after (checkedArg _) fun sattr => ?_
  refine after (arg _) fun guard => after checkArgs fun _ => ?_
  exact handle badHandleWcc fun ino => setattrGuarded ino sattr guard

theorem nfsproc3Lookup :
    Writes stack (nfsUnion (nfsFh3.andThen (postOpAttr.andThen postOpAttr)) postOpAttr)
      Mountd.nfsproc3Lookup := by
  refine after (checkedArg _) fun dir => after (checkedArg _) fun name => ?_
  refine handle badHandleAttr fun dirIno => ?_
  refine after (call fun _ => trivial) fun found => after (call fun _ => trivial) fun dirAttr => ?_
  cases found with
  | error failure => exact putFailure failure.failed (putPostOpAttr _)
  | ok child =>
      apply putResult
      · intro _
        refine bind (putHandle _) fun _ => bind (putPostOpAttr _) fun _ => ?_
        exact putPostOpAttr _
      · exact fun failed => absurd rfl failed

theorem nfsproc3Access :
    Writes stack (nfsUnion (postOpAttr.andThen anyWord) postOpAttr) Mountd.nfsproc3Access := by
  refine after (checkedArg _) fun fh => after (arg _) fun wanted => after checkArgs fun _ => ?_
  refine handle badHandleAttr fun ino => after (call fun _ => trivial) fun found => ?_
  exact putFound fun attr => putAny _

theorem nfsproc3Readlink :
    Writes stack (nfsUnion (postOpAttr.andThen unbounded) postOpAttr) Mountd.nfsproc3Readlink := by
  refine after (checkedArg _) fun fh => handle badHandleAttr fun ino => ?_
  refine after (call fun _ => trivial) fun result => ?_
  exact putFound putStr

theorem nfsproc3Read :
    Writes stack (nfsUnion (postOpAttr.andThen (anyWord.andThen (boolGrammar.andThen unbounded)))
      postOpAttr) Mountd.nfsproc3Read := by
  refine after (checkedArg _) fun fh => after (arg _) fun offset => after (arg _) fun count => ?_
  refine after checkArgs fun _ => handle badHandleAttr fun ino => ?_
  refine after (call fun _ => trivial) fun result => putResult ?_ ?_
  · intro succeeded
    refine bind (putPostOpAttr _) fun _ => whenOk ?_ succeeded
    refine bind (putAny _) fun _ => bind (putU32 ?_) fun _ => putStr _
    cases result.eof <;> rfl
  · exact fun failed => before (putPostOpAttr _) fun _ => whenFailed failed

theorem nfsproc3Write (daemon : Daemon) :
    Writes stack (nfsUnion (wccData.andThen (anyWord.andThen ((oneOf [0, 1, 2]).andThen
      writeverf3))) wccData) (Mountd.nfsproc3Write daemon) := by
  refine after (checkedArg _) fun fh => after (arg _) fun offset => after (arg _) fun count => ?_
  refine after (arg _) fun stable => after (checkedArg _) fun data => ?_
  refine handle badHandleWcc fun ino => after (call fun _ => trivial) fun result => putResult ?_ ?_
  · intro succeeded
    refine bind (putWccData _ _) fun _ => whenOk ?_ succeeded
    refine bind (putAny _) fun _ => bind (putU32 ?_) fun _ => putFixed daemon.writeverf_length
    cases result.committed <;> rfl
  · exact fun failed => before (putWccData _ _) fun _ => whenFailed failed

/-- A new object whose block is sound. -/
theorem putCreated {daemon : Daemon} {result : ObjResult}
    (stored : result.status = .ok → result.attr = none →
      daemon.stack.type % 2 ^ 32 ∈ ftype3Codes) :
    Writes stack createResults (Mountd.putCreated daemon result) := by
  apply putResult
  · intro succeeded
    have object : Writes stack (postOpFh3.andThen postOpAttr) (do
        xdrPutPostOpFh (some result.ino)
        xdrPutU32 1
        xdrPutFattr3 ((result.attr.map NfsAttr.words).getD daemon.stack)) := by
      refine bind (putPostOpFh _) fun _ => putPresent (putFattr3 ?_)
      cases known : result.attr with
      | none => exact stored succeeded known
      | some attr => exact code_mem_ftype3Codes attr.type
    have whole := bind (whenOk object succeeded) fun _ => putWccData result.pre result.post
    rwa [andThen_assoc] at whole
  · intro failed
    exact after (whenFailed failed) fun _ => putWccData _ _

theorem nfsproc3Mknod : Writes stack createResults Mountd.nfsproc3Mknod := by
  refine after (checkedArg _) fun dir => after (checkedArg _) fun name => ?_
  refine after (arg _) fun ftype => after (decode (Decodes.mknodArgs ftype)) fun _ => ?_
  refine after checkArgs fun _ => handle badHandleWcc fun dirIno => ?_
  refine after (call fun _ => trivial) fun found => ?_
  exact putFailure (by decide) (putWccData _ _)

theorem nfsproc3Unlink {unlink : Nat → Name → Rpc DirResult}
    (quiet : ∀ dirIno name, Writes stack nothing (unlink dirIno name)) :
    Writes stack (nfsUnion wccData wccData) (Mountd.nfsproc3Unlink unlink) := by
  refine after (checkedArg _) fun dir => after (checkedArg _) fun name => ?_
  refine handle badHandleWcc fun dirIno => after (quiet dirIno name) fun result => ?_
  exact putResult (fun _ => putWccData _ _) fun _ => putWccData _ _

theorem nfsproc3Rename :
    Writes stack (nfsUnion (wccData.andThen wccData) (wccData.andThen wccData))
      Mountd.nfsproc3Rename := by
  refine after (checkedArg _) fun fromDir => after (checkedArg _) fun fromName => ?_
  refine after (checkedArg _) fun toDir => after (checkedArg _) fun toName => ?_
  have twice : ∀ pre post otherPre otherPost,
      Writes stack (wccData.andThen wccData) (do
        xdrPutWccData pre post
        xdrPutWccData otherPre otherPost) :=
    fun _ _ _ _ => bind (putWccData _ _) fun _ => putWccData _ _
  split
  · refine after (call fun _ => trivial) fun result => ?_
    exact putResult (fun _ => twice _ _ _ _) fun _ => twice _ _ _ _
  · exact putFailure (by decide) (twice _ _ _ _)

theorem nfsproc3Link :
    Writes stack (nfsUnion (postOpAttr.andThen wccData) (postOpAttr.andThen wccData))
      Mountd.nfsproc3Link := by
  refine after (checkedArg _) fun fh => after (checkedArg _) fun dir => ?_
  refine after (checkedArg _) fun name => ?_
  have both : ∀ attr pre post, Writes stack (postOpAttr.andThen wccData) (do
      xdrPutPostOpAttr attr
      xdrPutWccData pre post) :=
    fun _ _ _ => bind (putPostOpAttr _) fun _ => putWccData _ _
  split
  · refine after (call fun _ => trivial) fun result => ?_
    exact putResult (fun _ => both _ _ _) fun _ => both _ _ _
  · exact putFailure (by decide) (both _ _ _)

theorem putEntry3 (item : DirEntryItem × Nat) : Writes stack entry3 (Mountd.putEntry3 item) :=
  bind (putU64 _) fun _ => bind (putStr _) fun _ => putU64 _

theorem endEntries {entry : Grammar} (eof : Bool) :
    Writes stack (dirlist entry) (Mountd.endEntries eof) := by
  rw [dirlist, chain_andThen]
  apply choose rfl
  apply putU32
  cases eof <;> rfl

theorem putEntries (start limit : Nat) (items : List (DirEntryItem × Nat)) (emitted : Bool) :
    Writes stack (dirlist entry3) (Mountd.putEntries start limit items emitted) := by
  induction items generalizing emitted with
  | nil => exact endEntries true
  | cons item rest ih =>
      refine after (decode Decodes.outLength) fun length => ?_
      split
      · exact endEntries false
      · rw [dirlist, chain_andThen]
        exact choose rfl (bind (putEntry3 item) fun _ => ih true)

theorem putEntriesPlus (start limit : Nat) (items : List (DirEntryItem × Nat)) (emitted : Bool) :
    Writes stack (dirlist entryplus3) (Mountd.putEntriesPlus start limit items emitted) := by
  induction items generalizing emitted with
  | nil => exact endEntries true
  | cons item rest ih =>
      refine after (decode Decodes.outLength) fun length => ?_
      split
      · exact endEntries false
      · refine after (call fun _ => trivial) fun found => ?_
        rw [dirlist, chain_andThen, entryplus3, andThen_assoc, andThen_assoc]
        refine choose rfl (bind (putEntry3 item) fun _ => ?_)
        exact bind (putPostOpAttr _) fun _ => bind (putPostOpFh _) fun _ => ih true

theorem putListing {entry : Grammar} (dirIno cookie least limit : Nat)
    {entries : Nat → List (DirEntryItem × Nat) → Rpc Unit}
    (writes : ∀ start items, Writes stack (dirlist entry) (entries start items)) :
    Writes stack (readdirResults entry)
      (Mountd.putListing dirIno cookie least limit entries) := by
  refine after (call fun _ => trivial) fun listed => ?_
  obtain ⟨list, attr⟩ := listed
  cases list with
  | error failure => exact putFailure failure.failed (putPostOpAttr _)
  | ok list =>
      change Writes stack _ (ite _ _ _)
      split
      · exact putFailure (by decide) (putPostOpAttr _)
      · refine after (decode Decodes.outLength) fun start => putResult (fun _ => ?_) fun failed => absurd rfl failed
        refine bind (putPostOpAttr _) fun _ => bind (putFixed ?_) fun _ => writes _ _
        exact List.length_replicate

theorem nfsproc3Readdir : Writes stack (readdirResults entry3) Mountd.nfsproc3Readdir := by
  refine after (checkedArg _) fun dir => after (arg _) fun cookie => ?_
  refine after (checkedArg _) fun verf => after (arg _) fun maxBytes => after checkArgs fun _ => ?_
  refine handle badHandleAttr fun dirIno => ?_
  exact putListing dirIno cookie _ _ fun start items => putEntries start maxBytes items false

theorem nfsproc3Readdirplus :
    Writes stack (readdirResults entryplus3) Mountd.nfsproc3Readdirplus := by
  refine after (checkedArg _) fun dir => after (arg _) fun cookie => ?_
  refine after (checkedArg _) fun verf => after (arg _) fun dircount => after (arg _) fun limit => ?_
  refine after checkArgs fun _ => handle badHandleAttr fun dirIno => ?_
  exact putListing dirIno cookie _ _ fun start items => putEntriesPlus start limit items false

theorem nfsproc3Fsstat :
    Writes stack (nfsUnion (postOpAttr.andThen (hyper.andThen (hyper.andThen (hyper.andThen
      (hyper.andThen (hyper.andThen (hyper.andThen anyWord))))))) postOpAttr)
      Mountd.nfsproc3Fsstat := by
  refine after (checkedArg _) fun fh => handle badHandleAttr fun ino => ?_
  refine after (call fun _ => trivial) fun result => putFound fun info => ?_
  iterate 6 refine bind (putU64 _) fun _ => ?_
  exact putAny _

theorem nfsproc3Info {body : Grammar} {fields : Rpc Unit} (writes : Writes stack body fields) :
    Writes stack (nfsUnion (postOpAttr.andThen body) postOpAttr) (Mountd.nfsproc3Info fields) := by
  refine after (checkedArg _) fun fh => handle badHandleAttr fun ino => ?_
  exact after (call fun _ => trivial) fun found => putFound fun _ => writes

theorem nfsproc3Fsinfo :
    Writes stack (nfsUnion (postOpAttr.andThen (words 7 (hyper.andThen (words 2 anyWord))))
      postOpAttr) Mountd.nfsproc3Fsinfo := by
  apply nfsproc3Info
  iterate 7 refine bind (putAny _) fun _ => ?_
  refine bind (putU64 _) fun _ => ?_
  iterate 2 refine bind (putAny _) fun _ => ?_
  exact putAny _

theorem nfsproc3Pathconf :
    Writes stack (nfsUnion (postOpAttr.andThen (words 2 (boolGrammar.andThen
      (boolGrammar.andThen (boolGrammar.andThen boolGrammar))))) postOpAttr)
      Mountd.nfsproc3Pathconf := by
  apply nfsproc3Info
  iterate 2 refine bind (putAny _) fun _ => ?_
  iterate 3 refine bind (putU32 rfl) fun _ => ?_
  exact putU32 rfl

theorem nfsproc3Commit (daemon : Daemon) :
    Writes stack (nfsUnion (wccData.andThen writeverf3) wccData)
      (Mountd.nfsproc3Commit daemon) := by
  refine after (checkedArg _) fun fh => after (arg _) fun _ => after (arg _) fun _ => ?_
  refine after checkArgs fun _ => handle badHandleWcc fun ino => ?_
  refine after (call fun _ => trivial) fun result => putResult ?_ ?_
  · intro succeeded
    refine bind (putWccData _ _) fun _ => whenOk (putFixed daemon.writeverf_length) succeeded
  · exact fun failed => before (putWccData _ _) fun _ => whenFailed failed

theorem mountproc3Mnt :
    Writes stack (resultUnion mountstat3Codes (nfsFh3.andThen (array anyWord)) nothing)
      Mountd.mountproc3Mnt := by
  refine after (checkedArg _) fun path => ?_
  split
  · have both : Writes stack (resultUnion mountstat3Codes (nfsFh3.andThen (array anyWord)) nothing)
        (xdrPutU32 2 >>= fun _ => Pure.pure ()) := choose rfl (pure ())
    exact both
  · apply choose rfl
    refine after (call fun _ => trivial) fun ino => bind (putHandle _) fun _ => ?_
    apply choose rfl
    refine bind (putAny _) fun _ => ?_
    change Writes stack (anyWord.andThen nothing) _
    rw [andThen_nothing]
    exact putAny _

end Handlers

end Writes

/-- A handler that appends what the grammar does not read, whatever is called. -/
def Breaks {α : Type} (grammar : Grammar) (handler : Rpc α) : Prop :=
  Appends (fun _ body => grammar.Stuck body) handler

namespace Breaks

variable {grammar later : Grammar} {α β : Type}

theorem left (stack : AttrWords) {first : Rpc α} {rest : α → Rpc β} {written : Grammar} (broken : Breaks grammar first)
    (right : ∀ value, Writes stack written (rest value)) :
    Breaks (grammar.andThen later) (first >>= rest) :=
  Appends.bind broken right fun _ _ _ _ stuck _ => stuck.andThen

theorem right (stack : AttrWords) {first : Rpc α} {rest : α → Rpc β} (sound : Writes stack grammar first)
    (broken : ∀ value, Breaks later (rest value)) :
    Breaks (grammar.andThen later) (first >>= rest) := by
  refine Appends.bind sound broken fun events more early late reads stuck => ?_
  by_cases missing : ∃ event ∈ events, ¬Stored stack event
  · exact (reads.2 missing).andThen
  · push Not at missing
    exact (reads.1 missing).andThen_stuck stuck

theorem choose {branch : Nat → Option Grammar} {value : Nat} {rest : Unit → Rpc α}
    (chosen : branch (value % 2 ^ 32) = some grammar) (broken : Breaks grammar (rest ())) :
    Breaks (union branch) (xdrPutU32 value >>= rest) := by
  refine Appends.bind (appendsWord value) (fun _ => broken) ?_
  rintro events more early late ⟨rfl, rfl⟩ stuck
  exact Stuck.union chosen stuck

theorem putU32 {allowed : Nat → Bool} {value : Nat} (bad : allowed (value % 2 ^ 32) = false) :
    Breaks (word allowed) (xdrPutU32 value) :=
  Appends.put (Nat.dvd_refl 4) (stuck_word bad)

/-- A new object whose block is whatever lay on the stack. -/
theorem putCreated {daemon : Daemon} {result : ObjResult} (succeeded : result.status = .ok)
    (missing : result.attr = none) (untyped : daemon.stack.type % 2 ^ 32 ∉ ftype3Codes) :
    Breaks createResults (Mountd.putCreated daemon result) := by
  have block : Breaks postOpAttr (do
      xdrPutU32 1
      xdrPutFattr3 ((result.attr.map NfsAttr.words).getD daemon.stack)) := by
    change Breaks (optional fattr3) _
    refine choose rfl ?_
    rw [missing]
    refine left daemon.stack (putU32 ?_) fun _ => Writes.putFattr3Rest daemon.stack
    exact Bool.eq_false_iff.mpr fun typed => untyped (List.contains_iff_mem.mp typed)
  have object : Breaks (postOpFh3.andThen postOpAttr) (Mountd.whenOk result.status do
      xdrPutPostOpFh (some result.ino)
      xdrPutU32 1
      xdrPutFattr3 ((result.attr.map NfsAttr.words).getD daemon.stack)) := by
    rw [whenOk, if_pos succeeded]
    exact right daemon.stack (Writes.putPostOpFh _) fun _ => block
  rw [createResults, nfsUnion, resultUnion, Mountd.putCreated, putStatus, ← andThen_assoc]
  apply choose (by rw [succeeded]; rfl)
  exact left daemon.stack object fun _ => Writes.putWccData result.pre result.post

end Breaks

namespace Writes

variable {stack : AttrWords} {grammar : Grammar}

theorem callCreated {daemon : Daemon} (op : FsOp) (toObject : op.Result → ObjResult)
    (stored : ∀ result, Stored daemon.stack ⟨op, result⟩ ↔
      ((toObject result).status = .ok → (toObject result).attr = none →
        daemon.stack.type % 2 ^ 32 ∈ ftype3Codes)) :
    Writes daemon.stack createResults
      (Rpc.call op >>= fun result => Mountd.putCreated daemon (toObject result)) := by
  intro wire result
  by_cases sound : Stored daemon.stack ⟨op, result⟩
  · apply (putCreated ((stored result).mp sound) wire).mono
    rintro events outcome ⟨body, atEnd, wrote⟩
    refine ⟨body, atEnd, fun value finished => ?_⟩
    obtain ⟨aligned, reads, stops⟩ := wrote value finished
    refine ⟨aligned, fun all => ?_, ?_⟩
    · exact reads fun event member => all event (List.mem_cons_of_mem _ member)
    · rintro ⟨event, member, missing⟩
      rcases List.mem_cons.mp member with rfl | later
      · exact absurd sound missing
      · exact stops ⟨event, later, missing⟩
  · obtain ⟨succeeded, missing, untyped⟩ : (toObject result).status = .ok ∧
        (toObject result).attr = none ∧ daemon.stack.type % 2 ^ 32 ∉ ftype3Codes := by
      have unsound := mt (stored result).mpr sound
      push Not at unsound
      exact unsound
    apply (Breaks.putCreated succeeded missing untyped wire).mono
    rintro events outcome ⟨body, atEnd, wrote⟩
    refine ⟨body, atEnd, fun value finished => ?_⟩
    obtain ⟨aligned, stuck⟩ := wrote value finished
    refine ⟨aligned, fun all => ?_, fun _ => stuck⟩
    exact absurd (all _ List.mem_cons_self) sound

theorem nfsproc3Create (daemon : Daemon) :
    Writes daemon.stack createResults (Mountd.nfsproc3Create daemon) := by
  refine after (checkedArg _) fun dir => after (checkedArg _) fun name => ?_
  refine after (decode Decodes.createHow) fun how => handle badHandleWcc fun dirIno => ?_
  exact callCreated (.create dirIno name how.1 how.2) id fun _ => Iff.rfl

theorem nfsproc3Mkdir (daemon : Daemon) :
    Writes daemon.stack createResults (Mountd.nfsproc3Mkdir daemon) := by
  refine after (checkedArg _) fun dir => after (checkedArg _) fun name => ?_
  refine after (checkedArg _) fun sattr => handle badHandleWcc fun dirIno => ?_
  exact callCreated (.mkdir dirIno name sattr) id fun _ => Iff.rfl

theorem nfsproc3Symlink (daemon : Daemon) :
    Writes daemon.stack createResults (Mountd.nfsproc3Symlink daemon) := by
  refine after (checkedArg _) fun dir => after (checkedArg _) fun name => ?_
  refine after (checkedArg _) fun sattr => after (checkedArg _) fun target => ?_
  refine handle badHandleWcc fun dirIno => ?_
  exact callCreated (.symlink dirIno name sattr target) id fun _ => Iff.rfl

end Writes

/-- Every NFS procedure writes the results of its own kind, and there are no others. -/
theorem handleNfsProc_writes (daemon : Daemon) (proc : Nat) :
    match nfsResults proc with
    | some grammar => Writes daemon.stack grammar (handleNfsProc daemon proc)
    | none => handleNfsProc daemon proc = Rpc.refuse .procUnavail := by
  match proc with
  | 0 => exact Writes.pure ()
  | 1 => exact Writes.nfsproc3Getattr
  | 2 => exact Writes.nfsproc3Setattr
  | 3 => exact Writes.nfsproc3Lookup
  | 4 => exact Writes.nfsproc3Access
  | 5 => exact Writes.nfsproc3Readlink
  | 6 => exact Writes.nfsproc3Read
  | 7 => exact Writes.nfsproc3Write daemon
  | 8 => exact Writes.nfsproc3Create daemon
  | 9 => exact Writes.nfsproc3Mkdir daemon
  | 10 => exact Writes.nfsproc3Symlink daemon
  | 11 => exact Writes.nfsproc3Mknod
  | 12 => exact Writes.nfsproc3Unlink fun _ _ => Writes.call fun _ => trivial
  | 13 => exact Writes.nfsproc3Unlink fun _ _ => Writes.call fun _ => trivial
  | 14 => exact Writes.nfsproc3Rename
  | 15 => exact Writes.nfsproc3Link
  | 16 => exact Writes.nfsproc3Readdir
  | 17 => exact Writes.nfsproc3Readdirplus
  | 18 => exact Writes.nfsproc3Fsstat
  | 19 => exact Writes.nfsproc3Fsinfo
  | 20 => exact Writes.nfsproc3Pathconf
  | 21 => exact Writes.nfsproc3Commit daemon
  | _ + 22 => rfl

namespace Writes

variable {stack : AttrWords} {grammar last : Grammar}

theorem chainEnd : Writes stack (chain grammar) (xdrPutU32 0) := by
  have both : Writes stack (chain grammar) (xdrPutU32 0 >>= fun _ => Pure.pure ()) := by
    rw [chain_eq]
    exact choose rfl (pure ())
  exact both

theorem mountproc3Export : Writes stack (chain exportnode) (do
    xdrPutU32 1
    xdrPutStr [slashByte]
    xdrPutU32 1
    xdrPutStr loopbackName
    xdrPutU32 0
    xdrPutU32 0) := by
  rw [chain_eq]
  apply choose rfl
  rw [exportnode, andThen_assoc]
  refine bind (putOpaque (by decide)) fun _ => ?_
  rw [chain_andThen]
  apply choose rfl
  exact bind (putOpaque (by decide)) fun _ => bind chainEnd fun _ => chainEnd

end Writes

theorem handleMountProc_writes (stack : AttrWords) (proc : Nat) :
    match mountResults proc with
    | some grammar => Writes stack grammar (handleMountProc proc)
    | none => handleMountProc proc = Rpc.refuse .procUnavail := by
  match proc with
  | 0 => exact Writes.pure ()
  | 1 => exact Writes.mountproc3Mnt
  | 2 => exact Writes.chainEnd
  | 3 => exact Writes.after (Writes.checkedArg _) fun _ => Writes.call fun _ => trivial
  | 4 => exact Writes.call fun _ => trivial
  | 5 => exact Writes.mountproc3Export
  | _ + 6 => rfl

end Rufux.Mountd
