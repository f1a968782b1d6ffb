import Rufux.Mountd.ReplyGrammar

/-!
The order in which a handler works: it reads all of its arguments before it calls the
backend, and once it has called the backend it answers.
-/

namespace Rufux.Mountd

open Rufux.Library

/-- The status that a call reports. -/
def FsOp.status : (op : FsOp) → op.Result → Nfsstat
  | .rootIno, _ | .syncAll, _ => .ok
  | .getattr _, result | .setattr _ _, result => outcomeStatus result
  | .lookup _ _, result => outcomeStatus result
  | .readlink _, result => outcomeStatus result.1
  | .read _ _ _, result => result.status
  | .write _ _ _ _, result => result.status
  | .create _ _ _ _, result | .mkdir _ _ _, result | .symlink _ _ _ _, result => result.status
  | .remove _ _, result | .rmdir _ _, result | .commit _, result => result.status
  | .rename _ _ _ _, result => result.status
  | .link _ _ _, result => result.status
  | .readdir _, result => outcomeStatus result.1
  | .fsstat _, result => outcomeStatus result.1

/-- `NFS3ERR_BADHANDLE` is for handles that cannot be decoded; no operation reports it. -/
def FsSound (event : FsEvent) : Prop := event.1.status event.2 ≠ .badhandle

/-- What an answered call wrote: a status first, and not that of a malformed handle. -/
def StartsSound (events : List FsEvent) (body : List UInt8) : Prop :=
  (∀ event ∈ events, FsSound event) →
    ∃ (status : Nfsstat) (rest : List UInt8),
      body = wordBytes status.code ++ rest ∧ status ≠ .badhandle

/-- A handler that does not refuse, and appends bytes with this property. -/
def Answers {α : Type} (fits : List FsEvent → List UInt8 → Prop) (handler : Rpc α) : Prop :=
  ∀ wire, (handler wire).Every fun events outcome =>
    (∃ value, outcome.1 = .ok value) ∧
      ∃ body, outcome.2.out = wire.out ++ body ∧ fits events body

abbrev Completes {α : Type} (handler : Rpc α) : Prop := Answers (fun _ _ => True) handler

/-- A handler that answers without the backend. -/
abbrev Quiet {α : Type} (handler : Rpc α) : Prop := Answers (fun events _ => events = []) handler

/-- A handler that answers whenever it has called the backend. -/
def DecodesFirst {α : Type} (fits : List FsEvent → List UInt8 → Prop) (handler : Rpc α) : Prop :=
  ∀ wire, (handler wire).Every fun events outcome =>
    events = [] ∨ (∃ value, outcome.1 = .ok value) ∧
      ∃ body, outcome.2.out = wire.out ++ body ∧ fits events body

namespace Answers

variable {fits : List FsEvent → List UInt8 → Prop} {α β : Type}

theorem bind {first : Rpc α} {rest : α → Rpc β} {front back : List FsEvent → List UInt8 → Prop}
    (left : Answers front first) (right : ∀ value, Answers back (rest value))
    (joins : ∀ events more early late, front events early → back more late →
      fits (events ++ more) (early ++ late)) : Answers fits (first >>= rest) := by
  intro wire
  change (CallProg.bind (first wire) _).Every _
  rw [CallProg.every_bind]
  apply (left wire).mono
  rintro events ⟨outcome, middle⟩ ⟨⟨value, finished⟩, early, atFront, fitsFront⟩
  cases finished
  apply (right value middle).mono
  rintro more ⟨outcome, final⟩ ⟨ended, late, atBack, fitsBack⟩
  refine ⟨ended, early ++ late, ?_, joins _ _ _ _ fitsFront fitsBack⟩
  rw [atBack, atFront, List.append_assoc]

theorem mono {weaker : List FsEvent → List UInt8 → Prop} {handler : Rpc α}
    (answers : Answers fits handler)
    (implies : ∀ events body, fits events body → weaker events body) :
    Answers weaker handler := by
  intro wire
  apply (answers wire).mono
  rintro events outcome ⟨finished, body, atEnd, holds⟩
  exact ⟨finished, body, atEnd, implies _ _ holds⟩

theorem completes {first : Rpc α} {rest : α → Rpc β} (left : Completes first)
    (right : ∀ value, Completes (rest value)) : Completes (first >>= rest) :=
  bind left right fun _ _ _ _ _ _ => trivial

theorem callThen {op : FsOp} {rest : op.Result → Rpc α}
    (right : ∀ result, Answers (fun more => fits (⟨op, result⟩ :: more)) (rest result)) :
    Answers fits (Rpc.call op >>= rest) :=
  fun wire result => right result wire

theorem lengthThen {rest : Nat → Rpc α} (right : ∀ length, Answers fits (rest length)) :
    Answers fits (Rpc.outLength >>= rest) :=
  fun wire => right wire.out.length wire

theorem call (op : FsOp) : Completes (Rpc.call op) :=
  fun _ result => ⟨⟨result, rfl⟩, [], (List.append_nil _).symm, trivial⟩

/-- A status in front of the rest of an answer. -/
theorem status {status : Nfsstat} {rest : Unit → Rpc α}
    (starts : ∀ more body, fits more (wordBytes status.code ++ body))
    (right : Completes (rest ())) : Answers fits (putStatus status >>= rest) := by
  intro wire
  apply (right { wire with out := wire.out ++ wordBytes status.code }).mono
  rintro events outcome ⟨finished, body, atEnd, _⟩
  refine ⟨finished, wordBytes status.code ++ body, ?_, starts events body⟩
  rw [atEnd, List.append_assoc]

end Answers

namespace Quiet

variable {α β : Type}

theorem completes {handler : Rpc α} (quiet : Quiet handler) : Completes handler :=
  Answers.mono quiet fun _ _ _ => trivial

theorem bind {first : Rpc α} {rest : α → Rpc β} (left : Quiet first)
    (right : ∀ value, Quiet (rest value)) : Quiet (first >>= rest) := by
  refine Answers.bind left right ?_
  rintro events more early late rfl rfl
  rfl

theorem pure (value : α) : Quiet (Pure.pure value : Rpc α) :=
  fun _ => ⟨⟨value, rfl⟩, [], (List.append_nil _).symm, rfl⟩

theorem put (bytes : List UInt8) : Quiet (Rpc.put bytes) :=
  fun _ => ⟨⟨(), rfl⟩, bytes, rfl, rfl⟩

theorem putU32 (value : Nat) : Quiet (xdrPutU32 value) := put _

theorem putU64 (value : Nat) : Quiet (xdrPutU64 value) := bind (putU32 _) fun _ => putU32 _

theorem putOpaque (bytes : List UInt8) : Quiet (xdrPutOpaque bytes) :=
  bind (putU32 _) fun _ => put _

theorem putOptional {put : α → Rpc Unit} (value : Option α) (quiet : ∀ found, Quiet (put found)) :
    Quiet (xdrPutOptional put value) := by
  cases value with
  | none => exact putU32 0
  | some found => exact bind (putU32 1) fun _ => quiet found

theorem putFattr3 (attr : AttrWords) : Quiet (xdrPutFattr3 attr) := by
  iterate 5 refine bind (putU32 _) fun _ => ?_
  iterate 2 refine bind (putU64 _) fun _ => ?_
  iterate 2 refine bind (putU32 _) fun _ => ?_
  iterate 2 refine bind (putU64 _) fun _ => ?_
  iterate 5 refine bind (putU32 _) fun _ => ?_
  exact putU32 _

theorem putPostOpAttr (attr : Option NfsAttr) : Quiet (xdrPutPostOpAttr attr) :=
  putOptional attr fun found => putFattr3 found.words

theorem putPostOpFh (ino : Option Nat) : Quiet (xdrPutPostOpFh ino) :=
  putOptional ino fun found => putOpaque (xdrPutFh found)

theorem putWccData (pre : Option WccPre) (post : Option NfsAttr) :
    Quiet (xdrPutWccData pre post) := by
  refine bind (putOptional pre fun found => ?_) fun _ => putPostOpAttr post
  refine bind (putU64 _) fun _ => ?_
  iterate 3 refine bind (putU32 _) fun _ => ?_
  exact putU32 _

theorem whenOk {status : Nfsstat} {body : Rpc Unit} (quiet : Quiet body) :
    Quiet (Mountd.whenOk status body) := by
  unfold Mountd.whenOk
  split
  · exact quiet
  · exact pure ()

theorem whenFound {found : Except NfsError α} {body : α → Rpc Unit}
    (quiet : ∀ value, Quiet (body value)) : Quiet (Mountd.whenFound found body) := by
  cases found with
  | error failure => exact pure ()
  | ok value => exact quiet value

theorem putCreated (daemon : Daemon) (result : ObjResult) :
    Quiet (do
      Mountd.whenOk result.status do
        xdrPutPostOpFh (some result.ino)
        xdrPutU32 1
        xdrPutFattr3 ((result.attr.map NfsAttr.words).getD daemon.stack)
      xdrPutWccData result.pre result.post) := by
  refine bind (whenOk ?_) fun _ => putWccData _ _
  exact bind (putPostOpFh _) fun _ => bind (putU32 1) fun _ => putFattr3 _

theorem putEntry3 (item : DirEntryItem × Nat) : Quiet (Mountd.putEntry3 item) :=
  bind (putU64 _) fun _ => bind (putOpaque _) fun _ => putU64 _

theorem endEntries (eof : Bool) : Quiet (Mountd.endEntries eof) :=
  bind (putU32 _) fun _ => putU32 _

end Quiet

theorem completes_putEntries (start limit : Nat) (items : List (DirEntryItem × Nat))
    (emitted : Bool) : Completes (putEntries start limit items emitted) := by
  induction items generalizing emitted with
  | nil => exact (Quiet.endEntries true).completes
  | cons item rest ih =>
      refine Answers.lengthThen fun length => ?_
      split
      · exact (Quiet.endEntries false).completes
      · refine Answers.completes (Quiet.putU32 1).completes fun _ => ?_
        exact Answers.completes (Quiet.putEntry3 item).completes fun _ => ih true

theorem completes_putEntriesPlus (start limit : Nat) (items : List (DirEntryItem × Nat))
    (emitted : Bool) : Completes (putEntriesPlus start limit items emitted) := by
  induction items generalizing emitted with
  | nil => exact (Quiet.endEntries true).completes
  | cons item rest ih =>
      refine Answers.lengthThen fun length => ?_
      split
      · exact (Quiet.endEntries false).completes
      · refine Answers.callThen fun found => ?_
        refine Answers.completes (Quiet.putU32 1).completes fun _ => ?_
        refine Answers.completes (Quiet.putEntry3 item).completes fun _ => ?_
        refine Answers.completes (Quiet.putPostOpAttr _).completes fun _ => ?_
        exact Answers.completes (Quiet.putPostOpFh _).completes fun _ => ih true

namespace DecodesFirst

variable {fits : List FsEvent → List UInt8 → Prop} {α β : Type}

theorem decode {first : Rpc α} {rest : α → Rpc β} (left : Decodes first)
    (right : ∀ value, DecodesFirst fits (rest value)) : DecodesFirst fits (first >>= rest) := by
  intro wire
  change (CallProg.bind (first wire) _).Every _
  obtain ⟨⟨outcome, middle⟩, computed, keeps⟩ := left wire
  rw [computed]
  cases outcome with
  | error refusal => exact Or.inl rfl
  | ok value =>
      apply (right value middle).mono
      rintro events outcome (silent | ⟨finished, body, atEnd, holds⟩)
      · exact Or.inl silent
      · exact Or.inr ⟨finished, body, by rw [atEnd, keeps], holds⟩

theorem answer {handler : Rpc α} (answers : Answers fits handler) : DecodesFirst fits handler := by
  intro wire
  apply (answers wire).mono
  intro events outcome answered
  exact Or.inr answered

theorem quiet {handler : Rpc α} (quiet : Quiet handler) : DecodesFirst fits handler := by
  intro wire
  apply (quiet wire).mono
  rintro events outcome ⟨_, _, _, silent⟩
  exact Or.inl silent

theorem refuse (refusal : Refusal) : DecodesFirst fits (Rpc.refuse refusal : Rpc α) :=
  fun _ => Or.inl rfl

theorem handle {fh : Handle} {malformed : Rpc Unit} {sound : Nat → Rpc Unit}
    (bad : Quiet malformed) (good : ∀ ino, Answers fits (sound ino)) :
    DecodesFirst fits (match xdrGetFh fh with
      | none => malformed
      | some ino => sound ino) := by
  cases xdrGetFh fh with
  | none => exact quiet bad
  | some ino => exact answer (good ino)

theorem badHandleAttr : Quiet (do
    putStatus .badhandle
    xdrPutPostOpAttr none) :=
  Quiet.bind (Quiet.putU32 _) fun _ => Quiet.putPostOpAttr none

theorem badHandleWcc : Quiet (do
    putStatus .badhandle
    xdrPutWccData none none) :=
  Quiet.bind (Quiet.putU32 _) fun _ => Quiet.putWccData none none

theorem starts {op : FsOp} {result : op.Result} (more : List FsEvent) (body : List UInt8) :
    StartsSound (⟨op, result⟩ :: more) (wordBytes (op.status result).code ++ body) :=
  fun sound => ⟨op.status result, body, rfl, sound _ List.mem_cons_self⟩

theorem startsWith {status : Nfsstat} (sound : status ≠ .badhandle) (events : List FsEvent)
    (body : List UInt8) : StartsSound events (wordBytes status.code ++ body) :=
  fun _ => ⟨status, body, rfl, sound⟩

theorem nfsproc3Getattr : DecodesFirst StartsSound Mountd.nfsproc3Getattr := by
  refine decode (.checkedArg _) fun fh => handle (Quiet.putU32 _) fun ino => ?_
  refine Answers.callThen fun found => Answers.status starts ?_
  exact (Quiet.whenFound fun attr => Quiet.putFattr3 _).completes

theorem setattrGuarded (ino : Nat) (sattr : SAttr3) (guard : Option (Nat × Nat)) :
    Answers StartsSound (Mountd.setattrGuarded ino sattr guard) := by
  refine Answers.callThen fun found => ?_
  cases found with
  | error failure => 
      exact Answers.status (fun _ => startsWith (by decide) _) (Quiet.putWccData _ _).completes
  | ok attr =>
      change Answers _ (ite _ _ _)
      split
      · exact Answers.status (fun _ => startsWith (by decide) _) (Quiet.putWccData _ _).completes
      · refine Answers.callThen fun set => ?_
        cases set with
        | ok after =>
            exact Answers.status (fun _ => startsWith (by decide) _) (Quiet.putWccData _ _).completes
        | error failure =>
            refine Answers.callThen fun found => ?_
            refine Answers.status (fun more body sound => ?_) (Quiet.putWccData _ _).completes
            exact ⟨failure.status, body, rfl, sound _ (List.mem_cons_of_mem _ List.mem_cons_self)⟩

theorem nfsproc3Setattr : DecodesFirst StartsSound Mountd.nfsproc3Setattr := by
  refine decode (.checkedArg _) fun fh => decode (.checkedArg _) fun sattr => ?_
  refine decode (.arg _) fun guard => decode .checkArgs fun _ => ?_
  exact handle badHandleWcc fun ino => setattrGuarded ino sattr guard

theorem nfsproc3Lookup : DecodesFirst StartsSound Mountd.nfsproc3Lookup := by
  refine decode (.checkedArg _) fun dir => decode (.checkedArg _) fun name => ?_
  refine handle badHandleAttr fun dirIno => Answers.callThen fun found => ?_
  refine Answers.callThen fun dirAttr => ?_
  cases found with
  | error failure => exact Answers.status (fun _ => starts _) (Quiet.putPostOpAttr _).completes
  | ok child =>
      refine Answers.status (fun _ => startsWith (by decide) _) (Quiet.completes ?_)
      refine Quiet.bind (Quiet.putOpaque _) fun _ => Quiet.bind (Quiet.putPostOpAttr _) fun _ => ?_
      exact Quiet.putPostOpAttr _

/-- A handler that reports attributes, and what it found under `NFS3_OK`. -/
theorem found {op : FsOp} {status : op.Result → Nfsstat} {attr : op.Result → Option NfsAttr}
    {body : op.Result → Rpc Unit} (same : ∀ result, status result = op.status result)
    (quiet : ∀ result, Quiet (body result)) :
    Answers StartsSound (Rpc.call op >>= fun result => do
      putStatus (status result)
      xdrPutPostOpAttr (attr result)
      body result) := by
  refine Answers.callThen fun result => ?_
  rw [same]
  refine Answers.status starts (Quiet.completes ?_)
  exact Quiet.bind (Quiet.putPostOpAttr _) fun _ => quiet result

/-- A handler that reports the attributes from before and after, and what was done. -/
theorem changed {op : FsOp} {status : op.Result → Nfsstat} {pre : op.Result → Option WccPre}
    {post : op.Result → Option NfsAttr} {body : op.Result → Rpc Unit}
    (same : ∀ result, status result = op.status result)
    (quiet : ∀ result, Quiet (body result)) :
    Answers StartsSound (Rpc.call op >>= fun result => do
      putStatus (status result)
      xdrPutWccData (pre result) (post result)
      body result) := by
  refine Answers.callThen fun result => ?_
  rw [same]
  refine Answers.status starts (Quiet.completes ?_)
  exact Quiet.bind (Quiet.putWccData _ _) fun _ => quiet result

theorem nfsproc3Access : DecodesFirst StartsSound Mountd.nfsproc3Access := by
  refine decode (.checkedArg _) fun fh => decode (.arg _) fun wanted => ?_
  refine decode .checkArgs fun _ => handle badHandleAttr fun ino => ?_
  exact found (fun _ => rfl) fun result => Quiet.whenFound fun attr => Quiet.putU32 _

theorem nfsproc3Readlink : DecodesFirst StartsSound Mountd.nfsproc3Readlink := by
  refine decode (.checkedArg _) fun fh => handle badHandleAttr fun ino => ?_
  exact found (fun _ => rfl) fun result => Quiet.whenFound Quiet.putOpaque

theorem nfsproc3Read : DecodesFirst StartsSound Mountd.nfsproc3Read := by
  refine decode (.checkedArg _) fun fh => decode (.arg _) fun offset => ?_
  refine decode (.arg _) fun count => decode .checkArgs fun _ => handle badHandleAttr fun ino => ?_
  refine found (fun _ => rfl) fun result => Quiet.whenOk ?_
  refine Quiet.bind (Quiet.putU32 _) fun _ => Quiet.bind (Quiet.putU32 _) fun _ => ?_
  exact Quiet.putOpaque _

theorem nfsproc3Write (daemon : Daemon) :
    DecodesFirst StartsSound (Mountd.nfsproc3Write daemon) := by
  refine decode (.checkedArg _) fun fh => decode (.arg _) fun offset => ?_
  refine decode (.arg _) fun count => decode (.arg _) fun stable => ?_
  refine decode (.checkedArg _) fun data => handle badHandleWcc fun ino => ?_
  refine changed (fun _ => rfl) fun result => Quiet.whenOk ?_
  exact Quiet.bind (Quiet.putU32 _) fun _ => Quiet.bind (Quiet.putU32 _) fun _ => Quiet.put _

/-- CREATE, MKDIR and SYMLINK from the call on. -/
theorem created (daemon : Daemon) (op : FsOp) (toObject : op.Result → ObjResult)
    (same : ∀ result, (toObject result).status = op.status result) :
    Answers StartsSound
      (Rpc.call op >>= fun result => Mountd.putCreated daemon (toObject result)) := by
  refine Answers.callThen fun result => ?_
  refine Answers.status (fun more body => ?_) (Quiet.putCreated daemon _).completes
  rw [same]
  exact starts more body

theorem nfsproc3Create (daemon : Daemon) :
    DecodesFirst StartsSound (Mountd.nfsproc3Create daemon) := by
  refine decode (.checkedArg _) fun dir => decode (.checkedArg _) fun name => ?_
  refine decode .createHow fun how => handle badHandleWcc fun dirIno => ?_
  exact created daemon (.create dirIno name how.1 how.2) id fun _ => rfl

theorem nfsproc3Mkdir (daemon : Daemon) :
    DecodesFirst StartsSound (Mountd.nfsproc3Mkdir daemon) := by
  refine decode (.checkedArg _) fun dir => decode (.checkedArg _) fun name => ?_
  refine decode (.checkedArg _) fun sattr => handle badHandleWcc fun dirIno => ?_
  exact created daemon (.mkdir dirIno name sattr) id fun _ => rfl

theorem nfsproc3Symlink (daemon : Daemon) :
    DecodesFirst StartsSound (Mountd.nfsproc3Symlink daemon) := by
  refine decode (.checkedArg _) fun dir => decode (.checkedArg _) fun name => ?_
  refine decode (.checkedArg _) fun sattr => decode (.checkedArg _) fun target => ?_
  refine handle badHandleWcc fun dirIno => ?_
  exact created daemon (.symlink dirIno name sattr target) id fun _ => rfl

theorem nfsproc3Mknod : DecodesFirst StartsSound Mountd.nfsproc3Mknod := by
  refine decode (.checkedArg _) fun dir => decode (.checkedArg _) fun name => ?_
  refine decode (.arg _) fun ftype => decode (.mknodArgs ftype) fun _ => ?_
  refine decode .checkArgs fun _ => handle badHandleWcc fun dirIno => ?_
  refine Answers.callThen fun found => ?_
  exact Answers.status (fun _ => startsWith (by decide) _) (Quiet.putWccData _ _).completes

theorem nfsproc3Unlink {unlink : Nat → Name → Rpc DirResult}
    (answers : ∀ dirIno name, Answers StartsSound (unlink dirIno name >>= fun result => do
      putStatus result.status
      xdrPutWccData result.pre result.post)) :
    DecodesFirst StartsSound (Mountd.nfsproc3Unlink unlink) := by
  refine decode (.checkedArg _) fun dir => decode (.checkedArg _) fun name => ?_
  exact handle badHandleWcc fun dirIno => answers dirIno name

theorem nfsproc3Remove : DecodesFirst StartsSound Mountd.nfsproc3Remove :=
  nfsproc3Unlink fun _ _ => Answers.callThen fun _ =>
    Answers.status starts (Quiet.putWccData _ _).completes

theorem nfsproc3Rmdir : DecodesFirst StartsSound Mountd.nfsproc3Rmdir :=
  nfsproc3Unlink fun _ _ => Answers.callThen fun _ =>
    Answers.status starts (Quiet.putWccData _ _).completes

theorem nfsproc3Rename : DecodesFirst StartsSound Mountd.nfsproc3Rename := by
  refine decode (.checkedArg _) fun fromDir => decode (.checkedArg _) fun fromName => ?_
  refine decode (.checkedArg _) fun toDir => decode (.checkedArg _) fun toName => ?_
  split
  · exact answer (changed (fun _ => rfl) fun result => Quiet.putWccData _ _)
  · refine quiet (Quiet.bind (Quiet.putU32 _) fun _ => ?_)
    exact Quiet.bind (Quiet.putWccData _ _) fun _ => Quiet.putWccData _ _

theorem nfsproc3Link : DecodesFirst StartsSound Mountd.nfsproc3Link := by
  refine decode (.checkedArg _) fun fh => decode (.checkedArg _) fun dir => ?_
  refine decode (.checkedArg _) fun name => ?_
  split
  · exact answer (found (fun _ => rfl) fun result => Quiet.putWccData _ _)
  · refine quiet (Quiet.bind (Quiet.putU32 _) fun _ => ?_)
    exact Quiet.bind (Quiet.putPostOpAttr _) fun _ => Quiet.putWccData _ _

theorem putListing (dirIno cookie least limit : Nat)
    {entries : Nat → List (DirEntryItem × Nat) → Rpc Unit}
    (completes : ∀ start items, Completes (entries start items)) :
    Answers StartsSound (Mountd.putListing dirIno cookie least limit entries) := by
  refine Answers.callThen fun listed => ?_
  obtain ⟨list, attr⟩ := listed
  cases list with
  | error failure => exact Answers.status (fun _ => starts _) (Quiet.putPostOpAttr _).completes
  | ok list =>
      change Answers _ (ite _ _ _)
      split
      · exact Answers.status (fun _ => startsWith (by decide) _) (Quiet.putPostOpAttr _).completes
      · refine Answers.lengthThen fun start => ?_
        refine Answers.status (fun _ => startsWith (by decide) _) ?_
        refine Answers.completes (Quiet.putPostOpAttr _).completes fun _ => ?_
        exact Answers.completes (Quiet.put _).completes fun _ => completes _ _

theorem nfsproc3Readdir : DecodesFirst StartsSound Mountd.nfsproc3Readdir := by
  refine decode (.checkedArg _) fun dir => decode (.arg _) fun cookie => ?_
  refine decode (.checkedArg _) fun verf => decode (.arg _) fun maxBytes => ?_
  refine decode .checkArgs fun _ => handle badHandleAttr fun dirIno => ?_
  exact putListing dirIno cookie _ _ fun start items =>
    completes_putEntries start maxBytes items false

theorem nfsproc3Readdirplus : DecodesFirst StartsSound Mountd.nfsproc3Readdirplus := by
  refine decode (.checkedArg _) fun dir => decode (.arg _) fun cookie => ?_
  refine decode (.checkedArg _) fun verf => decode (.arg _) fun dircount => ?_
  refine decode (.arg _) fun limit => decode .checkArgs fun _ => ?_
  refine handle badHandleAttr fun dirIno => ?_
  exact putListing dirIno cookie _ _ fun start items =>
    completes_putEntriesPlus start limit items false

theorem nfsproc3Fsstat : DecodesFirst StartsSound Mountd.nfsproc3Fsstat := by
  refine decode (.checkedArg _) fun fh => handle badHandleAttr fun ino => ?_
  refine found (fun _ => rfl) fun result => Quiet.whenFound fun info => ?_
  iterate 6 refine Quiet.bind (Quiet.putU64 _) fun _ => ?_
  exact Quiet.putU32 _

theorem nfsproc3Info {fields : Rpc Unit} (quiet : Quiet fields) :
    DecodesFirst StartsSound (Mountd.nfsproc3Info fields) := by
  refine decode (.checkedArg _) fun fh => handle badHandleAttr fun ino => ?_
  exact found (fun _ => rfl) fun result => Quiet.whenFound fun _ => quiet

theorem nfsproc3Fsinfo : DecodesFirst StartsSound Mountd.nfsproc3Fsinfo := by
  apply nfsproc3Info
  iterate 7 refine Quiet.bind (Quiet.putU32 _) fun _ => ?_
  refine Quiet.bind (Quiet.putU64 _) fun _ => ?_
  iterate 2 refine Quiet.bind (Quiet.putU32 _) fun _ => ?_
  exact Quiet.putU32 _

theorem nfsproc3Pathconf : DecodesFirst StartsSound Mountd.nfsproc3Pathconf := by
  apply nfsproc3Info
  iterate 5 refine Quiet.bind (Quiet.putU32 _) fun _ => ?_
  exact Quiet.putU32 _

theorem nfsproc3Commit (daemon : Daemon) :
    DecodesFirst StartsSound (Mountd.nfsproc3Commit daemon) := by
  refine decode (.checkedArg _) fun fh => decode (.arg _) fun _ => decode (.arg _) fun _ => ?_
  refine decode .checkArgs fun _ => handle badHandleWcc fun ino => ?_
  exact changed (fun _ => rfl) fun result => Quiet.whenOk (Quiet.put _)

end DecodesFirst

/-- No NFS procedure calls the backend before it has read all of its arguments. -/
theorem handleNfsProc_decodesFirst (daemon : Daemon) (proc : Nat) :
    DecodesFirst StartsSound (handleNfsProc daemon proc) := by
  unfold handleNfsProc
  split
  · exact DecodesFirst.quiet (Quiet.pure ())
  · exact DecodesFirst.nfsproc3Getattr
  · exact DecodesFirst.nfsproc3Setattr
  · exact DecodesFirst.nfsproc3Lookup
  · exact DecodesFirst.nfsproc3Access
  · exact DecodesFirst.nfsproc3Readlink
  · exact DecodesFirst.nfsproc3Read
  · exact DecodesFirst.nfsproc3Write daemon
  · exact DecodesFirst.nfsproc3Create daemon
  · exact DecodesFirst.nfsproc3Mkdir daemon
  · exact DecodesFirst.nfsproc3Symlink daemon
  · exact DecodesFirst.nfsproc3Mknod
  · exact DecodesFirst.nfsproc3Remove
  · exact DecodesFirst.nfsproc3Rmdir
  · exact DecodesFirst.nfsproc3Rename
  · exact DecodesFirst.nfsproc3Link
  · exact DecodesFirst.nfsproc3Readdir
  · exact DecodesFirst.nfsproc3Readdirplus
  · exact DecodesFirst.nfsproc3Fsstat
  · exact DecodesFirst.nfsproc3Fsinfo
  · exact DecodesFirst.nfsproc3Pathconf
  · exact DecodesFirst.nfsproc3Commit daemon
  · exact DecodesFirst.refuse .procUnavail

theorem handleMountProc_decodesFirst (proc : Nat) :
    DecodesFirst (fun _ _ => True) (handleMountProc proc) := by
  unfold handleMountProc
  split
  · exact DecodesFirst.quiet (Quiet.pure ())
  · refine DecodesFirst.decode (.checkedArg _) fun path => ?_
    split
    · exact DecodesFirst.quiet (Quiet.putU32 2)
    · refine DecodesFirst.answer (Answers.completes (Quiet.putU32 0).completes fun _ => ?_)
      refine Answers.callThen fun ino => Quiet.completes ?_
      refine Quiet.bind (Quiet.putOpaque _) fun _ => Quiet.bind (Quiet.putU32 2) fun _ => ?_
      exact Quiet.bind (Quiet.putU32 1) fun _ => Quiet.putU32 0
  · exact DecodesFirst.quiet (Quiet.putU32 0)
  · exact DecodesFirst.decode (.checkedArg _) fun _ => DecodesFirst.answer (Answers.call .syncAll)
  · exact DecodesFirst.answer (Answers.call .syncAll)
  · apply DecodesFirst.quiet
    refine Quiet.bind (Quiet.putU32 1) fun _ => Quiet.bind (Quiet.putOpaque _) fun _ => ?_
    refine Quiet.bind (Quiet.putU32 1) fun _ => Quiet.bind (Quiet.putOpaque _) fun _ => ?_
    exact Quiet.bind (Quiet.putU32 0) fun _ => Quiet.putU32 0
  · exact DecodesFirst.refuse .procUnavail

end Rufux.Mountd
