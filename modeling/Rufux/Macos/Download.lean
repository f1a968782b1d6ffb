import Rufux.Macos.Msdl

/-!
What the attempts of a download leave in the partial file, and when a download that is
reported as done is the remote file.
-/

namespace Rufux.Macos

open Library

section Writes

variable {second : Nat} {turns : List (Turn Empty)} {file : File} {chunk : List UInt8}

/-- The write loop appends a part of its buffer, all of it if it comes to its end. -/
theorem writeAll_partFile {start off : Nat} {wrote : Wrote File Empty}
    (ran : (partFile second).writeAll false start chunk turns file off = some wrote) :
    ∃ count, wrote.world.bytes = file.bytes ++ (chunk.drop off).take count ∧
      (wrote.stop = none → chunk.length ≤ off + count) := by
  induction turns generalizing file off with
  | nil =>
      unfold Backing.writeAll at ran
      split at ran
      · cases ran
        exact ⟨0, by rw [List.take_zero, List.append_nil], fun _ => by omega⟩
      · cases ran
  | cons turn rest ih =>
      unfold Backing.writeAll at ran
      split at ran
      · cases ran
        exact ⟨0, by rw [List.take_zero, List.append_nil], fun _ => by omega⟩
      · rename_i more
        cases turn with
        | happened event => cases event
        | interrupted => exact ih ran
        | failed why =>
            cases ran
            exact ⟨0, by rw [List.take_zero, List.append_nil], by rintro ⟨⟩⟩
        | moved count =>
            dsimp only at ran
            rw [if_neg (by simp)] at ran
            generalize bounded : min count (chunk.length - off) = size at ran
            obtain ⟨later, bytes, all⟩ := ih ran
            refine ⟨size + later, ?_, fun done => by have := all done; omega⟩
            have parts : (chunk.drop off).take size ++ (chunk.drop (off + size)).take later =
                (chunk.drop off).take (size + later) := by
              rw [← List.drop_drop, ← List.take_add]
            rw [bytes, ← parts, ← List.append_assoc]
            rfl

end Writes

section Receiving

variable {attempt : Attempt} {status : Nat} {stream after : DlStream} {chunk : List UInt8}
  {chunks : List (List UInt8)} {taken : Bool}

/-- The digest context, where there is one, has been fed what the partial file holds. -/
def DlStream.Tracks (stream : DlStream) : Prop :=
  ∀ fed, stream.sha = some fed → fed = stream.file.bytes

theorem checkStatus_tracks (tracks : stream.Tracks) :
    (checkStatus attempt status stream).Tracks := by
  unfold checkStatus
  split
  · exact tracks
  · split
    · intro fed kept
      obtain ⟨_, -, rfl⟩ := Option.map_eq_some_iff.mp kept
      rfl
    · exact tracks

theorem checkStatus_checked (checked : stream.checkedStatus = true) :
    checkStatus attempt status stream = stream :=
  if_pos checked

theorem checkedStatus_checkStatus : (checkStatus attempt status stream).checkedStatus = true := by
  unfold checkStatus
  split
  · assumption
  · split <;> rfl

theorem writeErr_checkStatus : (checkStatus attempt status stream).writeErr = stream.writeErr := by
  unfold checkStatus
  split
  · rfl
  · split <;> rfl

theorem dlWriteCb_nil : dlWriteCb attempt status stream [] = some (stream, true) := if_pos rfl

/-- The first chunk with a byte in it is the one that looks at the status. -/
theorem dlWriteCb_checkStatus (filled : chunk ≠ []) :
    dlWriteCb attempt status (checkStatus attempt status stream) chunk =
      dlWriteCb attempt status stream chunk := by
  unfold dlWriteCb
  rw [if_neg filled, if_neg filled, checkStatus_checked checkedStatus_checkStatus]

/-- A chunk is appended to what there is, up to a failing write. -/
theorem dlWriteCb_spec (ran : dlWriteCb attempt status stream chunk = some (after, taken))
    (filled : chunk ≠ []) (checked : stream.checkedStatus = true) :
    ∃ count, after.file.bytes = stream.file.bytes ++ chunk.take count ∧
      after.checkedStatus = true ∧
      (taken = true → chunk.length ≤ count ∧ after.writeErr = stream.writeErr ∧
        (stream.Tracks → after.Tracks)) ∧
      (taken = false → after.writeErr ≠ none) := by
  unfold dlWriteCb at ran
  rw [if_neg filled, checkStatus_checked checked] at ran
  dsimp only at ran
  split at ran
  · cases ran
  · rename_i file turns wrote
    cases ran
    obtain ⟨count, bytes, all⟩ := writeAll_partFile wrote
    rw [List.drop_zero] at bytes
    have whole := all rfl
    refine ⟨count, bytes, checked, fun _ => ⟨by omega, rfl, ?_⟩, fun bad => nomatch bad⟩
    intro tracks fed kept
    obtain ⟨before, there, rfl⟩ := Option.map_eq_some_iff.mp kept
    dsimp only at bytes ⊢
    rw [bytes, tracks before there, List.take_of_length_le (by omega)]
  · rename_i off why file turns wrote
    cases ran
    obtain ⟨count, bytes, -⟩ := writeAll_partFile wrote
    rw [List.drop_zero] at bytes
    exact ⟨count, bytes, checked, fun bad => (nomatch bad), fun _ bad => (nomatch bad)⟩
  · rename_i off file turns wrote
    cases ran
    obtain ⟨count, bytes, -⟩ := writeAll_partFile wrote
    rw [List.drop_zero] at bytes
    exact ⟨count, bytes, checked, fun bad => (nomatch bad), fun _ bad => (nomatch bad)⟩

/-- What a body has done once its chunks have been offered: a part of it stands behind what
there was, all of it if every chunk was taken. -/
structure Received (base : List UInt8) (body : List UInt8) (stream after : DlStream)
    (taken : Bool) : Prop where
  bytes : ∃ count, after.file.bytes = base ++ body.take count ∧
    (taken = true → body.length ≤ count)
  errors : taken = true → after.writeErr = stream.writeErr
  tracks : taken = true → stream.Tracks → after.Tracks
  failed : taken = false → after.writeErr ≠ none

/-- Once the status has been looked at, a body is appended. -/
theorem receive_checked (checked : stream.checkedStatus = true)
    (ran : receive attempt status chunks stream = some (after, taken)) :
    Received stream.file.bytes chunks.flatten stream after taken := by
  induction chunks generalizing stream with
  | nil =>
      cases ran
      exact ⟨⟨0, (List.append_nil _).symm, fun _ => Nat.le_refl 0⟩, fun _ => rfl, fun _ kept => kept,
        fun bad => nomatch bad⟩
  | cons chunk rest ih =>
      unfold receive at ran
      by_cases filled : chunk = []
      · subst filled
        rw [dlWriteCb_nil] at ran
        rw [List.flatten_cons, List.nil_append]
        exact ih checked ran
      · split at ran
        · cases ran
        · rename_i stopped wrote
          cases ran
          obtain ⟨count, bytes, -, -, failed⟩ := dlWriteCb_spec wrote filled checked
          refine ⟨⟨min count chunk.length, ?_, fun bad => nomatch bad⟩, fun bad => (nomatch bad),
            fun bad => (nomatch bad), failed⟩
          rw [bytes, List.flatten_cons, List.take_append_of_le_length (Nat.min_le_right _ _),
            ← List.take_eq_take_min]
        · rename_i next wrote
          obtain ⟨count, bytes, still, took, -⟩ := dlWriteCb_spec wrote filled checked
          obtain ⟨whole, error, tracks⟩ := took rfl
          rw [List.take_of_length_le whole] at bytes
          obtain ⟨⟨more, behind, all⟩, errors, tracks', failed⟩ := ih still ran
          refine ⟨⟨chunk.length + more, ?_, fun done => ?_⟩, fun done => (errors done).trans error,
            fun done kept => tracks' done (tracks kept), failed⟩
          · rw [behind, bytes, List.flatten_cons, List.take_length_add_append, List.append_assoc]
          · have := all done
            rw [List.flatten_cons, List.length_append]
            omega

/-- A full representation that answers a request to continue starts the file afresh. -/
def Restarts (attempt : Attempt) (status resumeFrom : Nat) (body : List UInt8) : Prop :=
  body ≠ [] ∧ 0 < resumeFrom ∧ status = 200 ∧ attempt.truncates = true

instance (attempt : Attempt) (status resumeFrom : Nat) (body : List UInt8) :
    Decidable (Restarts attempt status resumeFrom body) :=
  inferInstanceAs (Decidable (_ ∧ _ ∧ _ ∧ _))

theorem bytes_checkStatus (unchecked : stream.checkedStatus = false) {body : List UInt8}
    (filled : body ≠ []) : (checkStatus attempt status stream).file.bytes =
      if Restarts attempt status stream.resumeFrom body then [] else stream.file.bytes := by
  unfold checkStatus
  rw [if_neg (by rw [unchecked]; decide)]
  by_cases restarts : 0 < stream.resumeFrom ∧ status = 200 ∧ attempt.truncates = true
  · rw [if_pos restarts, if_pos ⟨filled, restarts⟩]
    rfl
  · rw [if_neg restarts, if_neg (fun again => restarts again.2)]

theorem receive_spec (unchecked : stream.checkedStatus = false)
    (ran : receive attempt status chunks stream = some (after, taken)) :
    Received (if Restarts attempt status stream.resumeFrom chunks.flatten then []
      else stream.file.bytes) chunks.flatten stream after taken := by
  induction chunks with
  | nil =>
      rw [if_neg (fun restarts => restarts.1 rfl)]
      cases ran
      exact ⟨⟨0, (List.append_nil _).symm, fun _ => Nat.le_refl 0⟩, fun _ => rfl, fun _ kept => kept,
        fun bad => nomatch bad⟩
  | cons chunk rest ih =>
      by_cases filled : chunk = []
      · subst filled
        unfold receive at ran
        rw [dlWriteCb_nil] at ran
        rw [List.flatten_cons, List.nil_append]
        exact ih ran
      · have again : receive attempt status (chunk :: rest) (checkStatus attempt status stream) =
            some (after, taken) := by
          unfold receive at ran ⊢
          rw [dlWriteCb_checkStatus filled]
          exact ran
        obtain ⟨bytes, errors, tracks, failed⟩ :=
          receive_checked checkedStatus_checkStatus again
        have body : (chunk :: rest).flatten ≠ [] := by
          rw [List.flatten_cons]
          exact fun none => filled (List.append_eq_nil_iff.mp none).1
        rw [bytes_checkStatus unchecked body] at bytes
        exact ⟨bytes, fun done => (errors done).trans writeErr_checkStatus,
          fun done kept => tracks done (checkStatus_tracks kept), failed⟩

end Receiving
section Attempts

variable {remote : List UInt8}

/-- A server that has the remote file: representations and ranges it sends are parts of it from
where they should begin, and whole when the transfer goes through. -/
def Serves (remote : List UInt8) (serve : Nat → Response) : Prop :=
  ∀ resumeFrom,
    ((serve resumeFrom).status = 200 →
      (serve resumeFrom).body <+: remote ∧
        ((serve resumeFrom).error = none → (serve resumeFrom).body = remote)) ∧
    ((serve resumeFrom).status = 206 →
      (serve resumeFrom).body <+: remote.drop resumeFrom ∧
        ((serve resumeFrom).error = none → (serve resumeFrom).body = remote.drop resumeFrom))

/-- What keeps the partial file a part of the remote one: answers that carry none of the file
have no body, a range is refused only where nothing is left, and a file that is to be started
afresh can be emptied. -/
structure Clean (remote : List UInt8) (attempt : Attempt) : Prop where
  bodiless : ∀ resumeFrom, (attempt.serve resumeFrom).status ≠ 200 →
    (attempt.serve resumeFrom).status ≠ 206 → (attempt.serve resumeFrom).body = []
  exhausted : ∀ resumeFrom, 0 < resumeFrom → (attempt.serve resumeFrom).status = 416 →
    remote.length ≤ resumeFrom
  empties : ∀ resumeFrom, 0 < resumeFrom → (attempt.serve resumeFrom).status = 200 →
    attempt.truncates = true

def Progress.bytes (progress : Progress) : List UInt8 :=
  (progress.part.map File.bytes).getD []

/-- What one response leaves of a partial file that is a part of the remote one. -/
theorem received_isPrefix {attempt : Attempt} {held : List UInt8} {stream after : DlStream}
    {taken : Bool} (serves : Serves remote attempt.serve) (clean : Clean remote attempt)
    (before : held <+: remote)
    (received : Received
      (if Restarts attempt (attempt.serve held.length).status held.length
          (attempt.serve held.length).body then [] else held)
      (attempt.serve held.length).body stream after taken) :
    after.file.bytes <+: remote ∧
      (taken = true → (attempt.serve held.length).error = none →
        (attempt.serve held.length).status = 200 ∨ (attempt.serve held.length).status = 206 →
          after.file.bytes = remote) ∧
      ((attempt.serve held.length).status = 416 → after.file.bytes = held) := by
  obtain ⟨count, bytes, all⟩ := received.bytes
  have serves := serves held.length
  have bodiless := clean.bodiless held.length
  have empties := clean.empties held.length
  generalize attempt.serve held.length = response at *
  have whole_body (done : taken = true) : response.body.take count = response.body :=
    List.take_of_length_le (all done)
  by_cases full : response.status = 200
  · obtain ⟨part, whole⟩ := serves.1 full
    have afresh (empty : after.file.bytes = response.body.take count) :
        after.file.bytes <+: remote ∧ (taken = true → response.error = none →
          response.status = 200 ∨ response.status = 206 → after.file.bytes = remote) := by
      rw [empty]
      exact ⟨(List.take_prefix _ _).trans part, fun done fine _ => by
        rw [whole_body done, whole fine]⟩
    have other : response.status = 416 → after.file.bytes = held :=
      fun refused => absurd (full.symm.trans refused) (by decide)
    by_cases restarts : Restarts attempt response.status held.length response.body
    · rw [if_pos restarts, List.nil_append] at bytes
      exact ⟨(afresh bytes).1, (afresh bytes).2, other⟩
    · rw [if_neg restarts] at bytes
      by_cases empty : response.body = []
      · rw [empty, List.take_nil, List.append_nil] at bytes
        refine ⟨by rw [bytes]; exact before, fun _ fine _ => ?_, other⟩
        have nothing : remote = [] := (whole fine).symm.trans empty
        rw [nothing] at before ⊢
        rw [bytes, List.prefix_nil.mp before]
      · have fresh : held = [] := by
          by_contra something
          have longer : 0 < held.length := List.length_pos_iff.mpr something
          exact restarts ⟨empty, longer, full, empties longer full⟩
        rw [fresh, List.nil_append] at bytes
        exact ⟨(afresh bytes).1, (afresh bytes).2, other⟩
  · rw [if_neg (fun restarts => full restarts.2.2.1)] at bytes
    obtain ⟨rest, split⟩ := before
    by_cases range : response.status = 206
    · obtain ⟨part, whole⟩ := serves.2 range
      rw [← split, List.drop_left] at part whole
      refine ⟨?_, fun done fine _ => ?_, fun refused => absurd (range.symm.trans refused) (by decide)⟩
      · rw [bytes, ← split]
        exact List.prefix_append_right_inj held |>.mpr ((List.take_prefix _ _).trans part)
      · rw [bytes, whole_body done, whole fine, split]
    · rw [bodiless full range, List.take_nil, List.append_nil] at bytes
      refine ⟨?_, fun _ _ carried => absurd carried (not_or.mpr ⟨full, range⟩), fun _ => bytes⟩
      rw [bytes, ← split]
      exact List.prefix_append held rest

/-- An attempt keeps a partial file that is a part of the remote one so, and completes only
what is the remote file. -/
theorem runAttempt_isPrefix {part : String} {attempt : Attempt} {progress after : Progress}
    {verdict : Verdict} (serves : Serves remote attempt.serve) (clean : Clean remote attempt)
    (ran : runAttempt part attempt progress = some (verdict, after))
    (before : progress.bytes <+: remote) :
    after.bytes <+: remote ∧ ∀ file, verdict = .complete file → file.bytes = remote := by
  have held : (progress.part.getD ⟨[], attempt.second⟩).bytes = progress.bytes := by
    unfold Progress.bytes
    cases progress.part <;> rfl
  unfold runAttempt at ran
  split at ran
  · cases ran
    exact ⟨before, fun _ bad => nomatch bad⟩
  · dsimp only at ran
    generalize progress.part.getD ⟨[], attempt.second⟩ = file at held ran
    rw [← held] at before
    split at ran
    · cases ran
      exact ⟨before, fun _ bad => nomatch bad⟩
    · split at ran
      · cases ran
      · rename_i stream taken received
        have kept := received_isPrefix serves clean before (receive_spec rfl received)
        split at ran
        · cases ran
          exact ⟨kept.1, fun _ bad => nomatch bad⟩
        · split at ran
          · rename_i done
            cases ran
            refine ⟨kept.1, fun file same => ?_⟩
            cases same
            exact kept.2.1 done.1 done.2.1 done.2.2
          · split at ran
            · rename_i refused
              cases ran
              refine ⟨kept.1, fun file same => ?_⟩
              cases same
              rw [kept.2.2 refused.2]
              exact before.eq_of_length_le (clean.exhausted _ refused.1 refused.2)
            · split at ran
              all_goals
                cases ran
                exact ⟨kept.1, fun _ bad => nomatch bad⟩

theorem runAttempts_isPrefix {part last : String} {attempts : Nat → Attempt} {left number : Nat}
    {progress after : Progress} {result : Except String File}
    (serves : ∀ number, Serves remote (attempts number).serve)
    (clean : ∀ number, Clean remote (attempts number))
    (ran : runAttempts part attempts left number last progress = some (result, after))
    (before : progress.bytes <+: remote) :
    after.bytes <+: remote ∧ ∀ file, result = .ok file → file.bytes = remote := by
  induction left generalizing number last progress with
  | zero =>
      cases ran
      exact ⟨before, fun _ bad => nomatch bad⟩
  | succ left ih =>
      unfold runAttempts at ran
      split at ran
      · cases ran
      · rename_i attempted
        cases ran
        exact ⟨(runAttempt_isPrefix (serves number) (clean number) attempted before).1,
          fun _ bad => nomatch bad⟩
      · rename_i attempted
        exact ih ran (runAttempt_isPrefix (serves number) (clean number) attempted before).1
      · rename_i attempted
        cases ran
        have kept := runAttempt_isPrefix (serves number) (clean number) attempted before
        exact ⟨kept.1, fun _ same => by cases same; exact kept.2 _ rfl⟩

end Attempts

section Downloads

variable {D : Type} {sha256 : List UInt8 → D} {url dir path : String} {remote : List UInt8}
  {state after : Msdl D} {script : FetchScript} {result : Fetch}

theorem partPath_ne (path : String) : partPath path ≠ path := by
  intro same
  have length : (partPath path).length = path.length + ".part".length := by
    simp only [partPath, String.length_append]
    rfl
  rw [same] at length
  have positive : 0 < ".part".length := by decide
  omega

@[simp] theorem setFile_same (files : String → Option File) (file : Option File) :
    setFile files path file path = file :=
  if_pos rfl

theorem setFile_other {name : String} (files : String → Option File) (file : Option File)
    (other : name ≠ path) : setFile files path file name = files name :=
  if_neg other

/-- Everything a call does: it refuses or finds the file there and changes nothing, or it makes
its attempts, which leave the partial file or become the final one. -/
theorem fetch_cases (ran : rufuxMsdlFetch sha256 url dir script state = some (result, after)) :
    ((∃ why, result = .failed why) ∧ after = state) ∨
    (result = .reused ∧ after = state ∧ ∃ file, state.files (isoPath url dir) = some file) ∨
    ∃ outcome progress,
      runAttempts (partPath (isoPath url dir)) script.attempts 4 0 "network error"
        (firstProgress script (isoPath url dir) state) = some (outcome, progress) ∧
      (((∃ why, result = .failed why) ∧
          after = { state with
            files := setFile state.files (partPath (isoPath url dir)) progress.part }) ∨
        ∃ file, outcome = .ok file ∧ result = .downloaded ∧
          after = {
            files := setFile (setFile state.files (partPath (isoPath url dir)) none)
              (isoPath url dir) (some file)
            shaCache := (recordOf sha256 script (isoPath url dir) file progress.sha).or
              state.shaCache }) := by
  unfold rufuxMsdlFetch at ran
  dsimp only at ran
  split at ran
  · cases ran
    exact .inl ⟨⟨_, rfl⟩, rfl⟩
  · split at ran
    · cases ran
      exact .inl ⟨⟨_, rfl⟩, rfl⟩
    · split at ran
      · cases ran
        exact .inl ⟨⟨_, rfl⟩, rfl⟩
      · split at ran
        · rename_i there
          cases ran
          refine .inr (.inl ⟨rfl, rfl, ?_⟩)
          cases found : state.files (isoPath url dir) with
          | none =>
              rw [found] at there
              cases there.1
          | some file => exact ⟨file, rfl⟩
        · split at ran
          · cases ran
          · rename_i attempted
            cases ran
            exact .inr (.inr ⟨_, _, attempted, .inl ⟨⟨_, rfl⟩, rfl⟩⟩)
          · rename_i attempted
            split at ran
            · cases ran
              exact .inr (.inr ⟨_, _, attempted, .inl ⟨⟨_, rfl⟩, rfl⟩⟩)
            · cases ran
              exact .inr (.inr ⟨_, _, attempted, .inr ⟨_, rfl, rfl, rfl⟩⟩)

/-- A call whose server has the remote file and whose attempts keep the partial file clean. -/
def CleanCall (remote : List UInt8) (script : FetchScript) : Prop :=
  ∀ number, Serves remote (script.attempts number).serve ∧ Clean remote (script.attempts number)

/-- The state after some calls for one file, each of which meets a condition. -/
inductive Downloads (sha256 : List UInt8 → D) (url dir : String) (allowed : FetchScript → Prop)
    (start : Msdl D) : Msdl D → Prop
  | none : Downloads sha256 url dir allowed start start
  | call {state after : Msdl D} {script : FetchScript} {result : Fetch} :
      Downloads sha256 url dir allowed start state → allowed script →
      rufuxMsdlFetch sha256 url dir script state = some (result, after) →
      Downloads sha256 url dir allowed start after

/-- The partial file is a part of the remote file, and a finished file is the remote file. -/
structure Intact (url dir : String) (remote : List UInt8) (state : Msdl D) : Prop where
  part : ∀ file, state.files (partPath (isoPath url dir)) = some file → file.bytes <+: remote
  final : ∀ file, state.files (isoPath url dir) = some file → file.bytes = remote

theorem firstProgress_isPrefix (intact : Intact url dir remote state) :
    (firstProgress script (isoPath url dir) state).bytes <+: remote := by
  unfold firstProgress Progress.bytes
  cases there : state.files (partPath (isoPath url dir)) with
  | none => exact List.nil_prefix
  | some file => exact intact.part file there

/-- A clean call keeps the files intact, and its success is the remote file. -/
theorem fetch_intact (clean : CleanCall remote script) (intact : Intact url dir remote state)
    (ran : rufuxMsdlFetch sha256 url dir script state = some (result, after)) :
    Intact url dir remote after ∧
      (result = .reused ∨ result = .downloaded →
        ∃ file, after.files (isoPath url dir) = some file ∧ file.bytes = remote) := by
  rcases fetch_cases ran with ⟨⟨why, rfl⟩, rfl⟩ | ⟨rfl, rfl, file, found⟩ |
    ⟨outcome, progress, attempted, ⟨⟨why, rfl⟩, rfl⟩ | ⟨file, rfl, rfl, rfl⟩⟩
  · exact ⟨intact, fun bad => by cases bad <;> contradiction⟩
  · exact ⟨intact, fun _ => ⟨file, found, intact.final file found⟩⟩
  · have kept := (runAttempts_isPrefix (fun number => (clean number).1)
      (fun number => (clean number).2) attempted (firstProgress_isPrefix intact)).1
    refine ⟨⟨?_, ?_⟩, fun bad => by cases bad <;> contradiction⟩
    · intro file there
      dsimp only at there
      rw [setFile_same] at there
      unfold Progress.bytes at kept
      rw [there] at kept
      exact kept
    · intro file there
      dsimp only at there
      rw [setFile_other _ _ (partPath_ne _).symm] at there
      exact intact.final file there
  · have remote_file := (runAttempts_isPrefix (fun number => (clean number).1)
      (fun number => (clean number).2) attempted (firstProgress_isPrefix intact)).2 file rfl
    refine ⟨⟨?_, ?_⟩, fun _ => ⟨file, setFile_same _ _, remote_file⟩⟩
    · intro other there
      dsimp only at there
      rw [setFile_other _ _ (partPath_ne _), setFile_same] at there
      cases there
    · intro other there
      dsimp only at there
      rw [setFile_same] at there
      cases there
      exact remote_file

theorem Downloads.intact {start : Msdl D} (intact : Intact url dir remote start)
    (calls : Downloads sha256 url dir (CleanCall remote) start state) :
    Intact url dir remote state := by
  induction calls with
  | none => exact intact
  | call _ allowed called ih => exact (fetch_intact allowed ih called).1

end Downloads

end Rufux.Macos
