import Rufux.Library.Run
import Rufux.Macos.Download

/-!
The digest kept while downloading: it is the digest of the final file, and the hash reported
later is the one of the file that is asked about unless a download without a digest ends at
the same place, with the same size and in the same second.
-/

namespace Rufux.Macos

open Library

section Tracking

variable {D : Type} {sha256 : List UInt8 → D}

/-- What an attempt that completes the file has fed to the digest is the file. -/
theorem runAttempt_tracks {part : String} {attempt : Attempt} {progress after : Progress}
    {file : File} {fed : List UInt8}
    (ran : runAttempt part attempt progress = some (.complete file, after))
    (kept : after.sha = some fed) : fed = file.bytes := by
  unfold runAttempt at ran
  split at ran
  · cases ran
  · dsimp only at ran
    generalize progress.part.getD ⟨[], attempt.second⟩ = held at ran
    split at ran
    · cases ran
    · split at ran
      · cases ran
      · rename_i stream taken received
        have spec := receive_spec rfl received
        have seeded : DlStream.Tracks ⟨held, false, held.bytes.length,
            if attempt.seeds then progress.sha.map fun _ => held.bytes else none, none,
            attempt.turns⟩ := by
          intro bytes there
          dsimp only at there
          split at there
          · obtain ⟨_, -, rfl⟩ := Option.map_eq_some_iff.mp there
            rfl
          · cases there
        split at ran
        · cases ran
        · rename_i fine
          have all : taken = true := by
            cases part : taken with
            | true => rfl
            | false => exact absurd fine (spec.failed part)
          split at ran
          · cases ran
            exact spec.tracks all seeded fed kept
          · split at ran
            · cases ran
              exact spec.tracks all seeded fed kept
            · split at ran <;> cases ran

theorem runAttempts_tracks {part last : String} {attempts : Nat → Attempt} {left number : Nat}
    {progress after : Progress} {file : File} {fed : List UInt8}
    (ran : runAttempts part attempts left number last progress = some (.ok file, after))
    (kept : after.sha = some fed) : fed = file.bytes := by
  induction left generalizing number last progress with
  | zero => cases ran
  | succ left ih =>
      unfold runAttempts at ran
      split at ran
      · cases ran
      · cases ran
      · exact ih ran
      · rename_i attempted
        cases ran
        exact runAttempt_tracks attempted kept

end Tracking

section Sessions

variable {D : Type} (sha256 : List UInt8 → D)

/-- The program's state and the downloads that have finished, the last one first. -/
structure Session (D : Type) where
  state : Msdl D
  finished : List (String × File)

inductive Event where
  | fetch (url dir : String) (script : FetchScript)
  /-- Anything else happens to the files. -/
  | changed (files : String → Option File)

def sessionStep (session : Session D) : Event → Session D
  | .changed files => { session with state := { session.state with files := files } }
  | .fetch url dir script =>
      match rufuxMsdlFetch sha256 url dir script session.state with
      | none => session
      | some (.downloaded, after) =>
          match after.files (isoPath url dir) with
          | none => ⟨after, session.finished⟩
          | some file => ⟨after, (isoPath url dir, file) :: session.finished⟩
      | some (_, after) => ⟨after, session.finished⟩

/-- The file stands for a path, a size and a second. -/
def Stands (path : String) (size mtime : Nat) (entry : String × File) : Prop :=
  entry.1 = path ∧ entry.2.bytes.length = size ∧ entry.2.mtime = mtime

instance (path : String) (size mtime : Nat) (entry : String × File) :
    Decidable (Stands path size mtime entry) :=
  inferInstanceAs (Decidable (_ ∧ _ ∧ _))

/-- What the last download that finished there, so large and then, has written. -/
def lastDownload (finished : List (String × File)) (path : String) (size mtime : Nat) :
    Option (List UInt8) :=
  (finished.find? fun entry => decide (Stands path size mtime entry)).map fun entry =>
    entry.2.bytes

/-- A hash answered from the record is the hash of what the download of that file has
written; every other hash is computed from the file. -/
def Reports (session : Session D) : Prop :=
  ∀ path script hex, rufuxMsdlSha256 sha256 session.state path script = some hex →
    ∃ file, session.state.files path = some file ∧
      if script.stats = true ∧ (cachedDigest session.state path).isSome then
        (lastDownload session.finished path file.bytes.length file.mtime).map sha256 = some hex
      else hex = sha256 (file.bytes.take script.delivered)

/-- A download ends without its digest where the standing record fits its file. -/
def Stale (session : Session D) : Event → Prop
  | .changed _ => False
  | .fetch url dir script =>
      ∃ after file record, rufuxMsdlFetch sha256 url dir script session.state =
          some (.downloaded, after) ∧
        (∀ outcome progress, runAttempts (partPath (isoPath url dir)) script.attempts 4 0
            "network error" (firstProgress script (isoPath url dir) session.state) =
              some (outcome, progress) →
          progress.sha = none ∨ script.digests = false ∨ script.stats = false) ∧
        after.files (isoPath url dir) = some file ∧ session.state.shaCache = some record ∧
        Stands record.path record.size record.mtime (isoPath url dir, file) ∧
        record.hex ≠ sha256 file.bytes

variable {sha256} {session : Session D} {event : Event} {path : String} {file : File}

/-- The standing record is the digest of the last download that it fits. -/
def Kept (sha256 : List UInt8 → D) (session : Session D) : Prop :=
  ∀ record, session.state.shaCache = some record →
    (lastDownload session.finished record.path record.size record.mtime).map sha256 =
      some record.hex

theorem cachedDigest_eq {state : Msdl D} {hex : D} (there : state.files path = some file)
    (hit : cachedDigest state path = some hex) :
    ∃ record, state.shaCache = some record ∧ hex = record.hex ∧
      Stands record.path record.size record.mtime (path, file) := by
  unfold cachedDigest at hit
  cases cached : state.shaCache with
  | none =>
      rw [there, cached] at hit
      cases hit
  | some record =>
      rw [there, cached] at hit
      dsimp only at hit
      split at hit
      · rename_i fits
        cases hit
        exact ⟨record, rfl, rfl, fits.1.symm, fits.2.1.symm, fits.2.2.symm⟩
      · cases hit

theorem Kept.reports (kept : Kept sha256 session) : Reports sha256 session := by
  intro path script hex answered
  unfold rufuxMsdlSha256 at answered
  cases there : session.state.files path with
  | none =>
      have miss : cachedDigest session.state path = none := by
        unfold cachedDigest
        rw [there]
      rw [miss, there, ite_self] at answered
      cases answered
  | some file =>
      refine ⟨file, rfl, ?_⟩
      by_cases stats : script.stats = true
      · rw [if_pos stats] at answered
        cases hit : cachedDigest session.state path with
        | some found =>
            rw [hit] at answered
            cases answered
            rw [if_pos ⟨stats, rfl⟩]
            obtain ⟨record, cached, rfl, same, size, time⟩ := cachedDigest_eq there hit
            have standing := kept record cached
            rw [← same, ← size, ← time] at standing
            exact standing
        | none =>
            rw [hit, there] at answered
            dsimp only at answered
            rw [if_neg (fun bad => by cases bad.2)]
            split at answered
            · exact (Option.some.inj answered).symm
            · cases answered
      · rw [if_neg stats, there] at answered
        dsimp only at answered
        rw [if_neg (fun bad => stats bad.1)]
        split at answered
        · exact (Option.some.inj answered).symm
        · cases answered

theorem lastDownload_cons {finished : List (String × File)} {size mtime : Nat}
    (stands : Stands path size mtime (path, file)) :
    lastDownload ((path, file) :: finished) path size mtime = some file.bytes := by
  simp only [lastDownload, List.find?_cons, decide_eq_true stands, Option.map_some]

theorem lastDownload_other {finished : List (String × File)} {size mtime : Nat}
    {entry : String × File} (other : ¬ Stands path size mtime entry) :
    lastDownload (entry :: finished) path size mtime = lastDownload finished path size mtime := by
  simp only [lastDownload, List.find?_cons, decide_eq_false other]

/-- What a fetch does to a session. -/
theorem sessionStep_fetch (url dir : String) (script : FetchScript) :
    (sessionStep sha256 session (.fetch url dir script)).state.shaCache = session.state.shaCache ∧
        (sessionStep sha256 session (.fetch url dir script)).finished = session.finished ∨
      ∃ after file progress, rufuxMsdlFetch sha256 url dir script session.state =
          some (.downloaded, after) ∧
        runAttempts (partPath (isoPath url dir)) script.attempts 4 0 "network error"
          (firstProgress script (isoPath url dir) session.state) = some (.ok file, progress) ∧
        after.files (isoPath url dir) = some file ∧
        after.shaCache = (recordOf sha256 script (isoPath url dir) file progress.sha).or
          session.state.shaCache ∧
        sessionStep sha256 session (.fetch url dir script) =
          ⟨after, (isoPath url dir, file) :: session.finished⟩ := by
  unfold sessionStep
  dsimp only
  split
  · exact .inl ⟨rfl, rfl⟩
  · rename_i after ran
    right
    rcases fetch_cases ran with ⟨⟨why, bad⟩, -⟩ | ⟨bad, -⟩ |
      ⟨outcome, progress, attempted, ⟨⟨why, bad⟩, -⟩ | ⟨file, rfl, -, rfl⟩⟩
    · cases bad
    · cases bad
    · cases bad
    · have there := @setFile_same (isoPath url dir) (setFile session.state.files
        (partPath (isoPath url dir)) none) (some file)
      refine ⟨_, file, progress, ran, attempted, there, rfl, ?_⟩
      dsimp only
      rw [there]
  · rename_i result after other ran
    left
    rcases fetch_cases ran with ⟨-, rfl⟩ | ⟨-, rfl, -⟩ |
      ⟨outcome, progress, attempted, ⟨-, rfl⟩ | ⟨file, -, rfl, -⟩⟩
    · exact ⟨rfl, rfl⟩
    · exact ⟨rfl, rfl⟩
    · exact ⟨rfl, rfl⟩
    · exact absurd rfl other

theorem recordOf_eq_none {script : FetchScript} {fed : Option (List UInt8)}
    (none : recordOf sha256 script path file fed = none) :
    fed = .none ∨ script.digests = false ∨ script.stats = false := by
  unfold recordOf at none
  split at none
  · exact .inl (Option.map_eq_none_iff.mp none)
  · rename_i lost
    right
    cases digests : script.digests with
    | false => exact .inl rfl
    | true => exact .inr (Bool.eq_false_iff.mpr fun stats => lost ⟨digests, stats⟩)

theorem recordOf_eq_some {script : FetchScript} {fed : Option (List UInt8)} {record : ShaRecord D}
    (kept : recordOf sha256 script path file fed = some record) :
    ∃ bytes, fed = some bytes ∧ script.digests = true ∧ script.stats = true ∧
      record = ⟨path, file.bytes.length, file.mtime, sha256 bytes⟩ := by
  unfold recordOf at kept
  split at kept
  · rename_i both
    obtain ⟨bytes, rfl, rfl⟩ := Option.map_eq_some_iff.mp kept
    exact ⟨bytes, rfl, both.1, both.2, rfl⟩
  · cases kept

/-- A step that is not stale keeps the record the digest of the download it fits. -/
theorem Kept.step (kept : Kept sha256 session) (fresh : ¬ Stale sha256 session event) :
    Kept sha256 (sessionStep sha256 session event) := by
  cases event with
  | changed files => exact kept
  | fetch url dir script =>
      rcases @sessionStep_fetch _ sha256 session url dir script with
        ⟨cache, log⟩ | ⟨after, file, progress, ran, attempted, there, cache, same⟩
      · intro record cached
        rw [cache] at cached
        rw [log]
        exact kept record cached
      · rw [same]
        intro record cached
        dsimp only at cached ⊢
        rw [cache] at cached
        cases made : recordOf sha256 script (isoPath url dir) file progress.sha with
        | some new =>
            rw [made] at cached
            cases cached
            obtain ⟨fed, tracked, -, -, rfl⟩ := recordOf_eq_some made
            dsimp only
            rw [lastDownload_cons ⟨rfl, rfl, rfl⟩, runAttempts_tracks attempted tracked]
            rfl
        | none =>
            rw [made, Option.none_or] at cached
            by_cases stands : Stands record.path record.size record.mtime (isoPath url dir, file)
            · obtain ⟨place, -⟩ := id stands
              dsimp only at place
              rw [← place] at stands ⊢
              rw [lastDownload_cons stands]
              by_contra wrong
              apply fresh
              refine ⟨after, file, record, ran, ?_, there, cached, by rw [← place]; exact stands,
                fun right => wrong (by rw [right]; rfl)⟩
              intro outcome other attempted'
              rw [attempted] at attempted'
              cases attempted'
              exact recordOf_eq_none made
            · rw [lastDownload_other stands]
              exact kept record cached

end Sessions

end Rufux.Macos
