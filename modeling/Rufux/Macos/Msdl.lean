import Rufux.Library.Transfers

/-!
The downloader: one file fetched into a partial file that later attempts continue, renamed
when it is complete, and a digest kept along the way for the hash that is reported later.
-/

namespace Rufux.Macos

open Library

/-- What follows the first `://`, or everything. -/
def afterScheme (url : List Char) : List Char :=
  match url.tails.find? fun tail => "://".toList.isPrefixOf tail with
  | some tail => tail.drop 3
  | none => url

/-- `iso_name`. -/
def isoName (url : String) : String :=
  let base := ((afterScheme url.toList).reverse.takeWhile (· ≠ '/')).reverse
  let kept := (base.takeWhile fun letter => letter ≠ '?' ∧ letter ≠ '#').take 255
  let out := kept.map fun letter =>
    if letter.isAlphanum ∨ letter = '.' ∨ letter = '_' ∨ letter = '-' then letter else '_'
  let ending := (out.drop (out.length - 4)).map Char.toLower
  if out.length < 5 ∨ ending ≠ ".iso".toList then "Windows.iso" else String.ofList out

structure File where
  bytes : List UInt8
  /-- The second of the last write. -/
  mtime : Nat
deriving DecidableEq

/-- A partial file under writes at its end, in one second. -/
def partFile (second : Nat) : Backing File Empty where
  truncate _ := ⟨[], second⟩
  write file _ bytes := ⟨file.bytes ++ bytes, second⟩
  read file start count := (file.bytes.drop start).take count
  flush file := file
  happen _ event := nomatch event
  length_read _ _ count := List.length_take_le count _

/-- A response as the transfer library hands it over, and what the transfer ends with. -/
structure Response where
  status : Nat
  chunks : List (List UInt8)
  /-- The text of an error, none for a transfer that went through. -/
  error : Option String

def Response.body (response : Response) : List UInt8 := response.chunks.flatten

/-- What one attempt meets. The server answers a request for the bytes from some place on. -/
structure Attempt where
  openFails : Option String
  /-- Reading the partial file back for the digest works. -/
  seeds : Bool
  curlInit : Bool
  serve : Nat → Response
  truncates : Bool
  turns : List (Turn Empty)
  second : Nat

/-- `DlStreamCtx`: the digest is the bytes it has been fed. -/
structure DlStream where
  file : File
  checkedStatus : Bool
  resumeFrom : Nat
  sha : Option (List UInt8)
  writeErr : Option String
  turns : List (Turn Empty)

/-- The first look at the status: a full representation replaces what there is. -/
def checkStatus (attempt : Attempt) (status : Nat) (stream : DlStream) : DlStream :=
  if stream.checkedStatus then stream
  else if 0 < stream.resumeFrom ∧ status = 200 ∧ attempt.truncates then
    { stream with
      checkedStatus := true
      file := (partFile attempt.second).truncate stream.file
      resumeFrom := 0
      sha := stream.sha.map fun _ => [] }
  else { stream with checkedStatus := true }

/-- `dl_write_cb`: the stream after a chunk, and whether all of it was taken. -/
def dlWriteCb (attempt : Attempt) (status : Nat) (stream : DlStream) (chunk : List UInt8) :
    Option (DlStream × Bool) :=
  if chunk = [] then some (stream, true)
  else
    let stream := checkStatus attempt status stream
    match (partFile attempt.second).writeAll false 0 chunk stream.turns stream.file 0 with
    | none => none
    | some ⟨none, file, turns⟩ =>
        some ({ stream with
          file := file
          turns := turns
          sha := stream.sha.map fun fed => fed ++ chunk }, true)
    | some ⟨some (_, .failed why), file, turns⟩ =>
        some ({ stream with file := file, turns := turns, writeErr := some why }, false)
    | some ⟨some (_, .stalled), file, turns⟩ =>
        some ({ stream with file := file, turns := turns, writeErr := some "" }, false)

/-- The chunks of a body, until the callback does not take one. -/
def receive (attempt : Attempt) (status : Nat) :
    List (List UInt8) → DlStream → Option (DlStream × Bool)
  | [], stream => some (stream, true)
  | chunk :: rest, stream =>
      match dlWriteCb attempt status stream chunk with
      | none => none
      | some (stream, false) => some (stream, false)
      | some (stream, true) => receive attempt status rest stream

inductive Verdict where
  | gaveUp (why : String)
  | retry (why : String)
  | complete (file : File)

/-- The partial file and the digest context between attempts. -/
structure Progress where
  part : Option File
  sha : Option (List UInt8)

def runAttempt (part : String) (attempt : Attempt) (progress : Progress) :
    Option (Verdict × Progress) :=
  match attempt.openFails with
  | some why => some (.gaveUp s!"cannot open '{part}': {why}", progress)
  | none =>
      let file := progress.part.getD ⟨[], attempt.second⟩
      let sha := if attempt.seeds then progress.sha.map fun _ => file.bytes else none
      let resumeFrom := file.bytes.length
      if !attempt.curlInit then
        some (.gaveUp "cannot initialize libcurl", ⟨some file, sha⟩)
      else
        let response := attempt.serve resumeFrom
        match receive attempt response.status response.chunks
            ⟨file, false, resumeFrom, sha, none, attempt.turns⟩ with
        | none => none
        | some (stream, taken) =>
            let after : Progress := ⟨some stream.file, stream.sha⟩
            match stream.writeErr with
            | some why => some (.gaveUp s!"disk write error on '{part}': {why}", after)
            | none =>
                let status := response.status
                if taken ∧ response.error = none ∧ (status = 200 ∨ status = 206) then
                  some (.complete stream.file, after)
                else if 0 < resumeFrom ∧ status = 416 then some (.complete stream.file, after)
                else if 400 ≤ status then some (.retry s!"HTTP {status}", after)
                else some (.retry (response.error.getD "No error"), after)

/-- The attempts of one call: so many are left, the next has this number. -/
def runAttempts (part : String) (attempts : Nat → Attempt) :
    Nat → Nat → String → Progress → Option (Except String File × Progress)
  | 0, _, last, progress =>
      some (.error
        s!"download failed ({last}). The partial file was kept; run the same command to resume",
        progress)
  | left + 1, number, _, progress =>
      match runAttempt part (attempts number) progress with
      | none => none
      | some (.gaveUp why, progress) => some (.error why, progress)
      | some (.retry why, progress) => runAttempts part attempts left (number + 1) why progress
      | some (.complete file, progress) => some (.ok file, progress)

/-- `g_sha_cache`. -/
structure ShaRecord (D : Type) where
  path : String
  size : Nat
  mtime : Nat
  hex : D

structure Msdl (D : Type) where
  files : String → Option File
  shaCache : Option (ShaRecord D)

structure FetchScript where
  /-- `RUFUX_MSDL_MOCK` names a local server. -/
  mock : Bool
  directory : Bool
  /-- `RUFUX_MSDL_STRICT_EXISTS`. -/
  strict : Bool
  /-- A digest context could be had. -/
  context : Bool
  attempts : Nat → Attempt
  renameFails : Option String
  digests : Bool
  stats : Bool

/-- How a fetch ends; the last two are both reported as success. -/
inductive Fetch where
  | failed (why : String)
  | reused
  | downloaded

def setFile (files : String → Option File) (path : String) (file : Option File) :
    String → Option File :=
  fun name => if name = path then file else files name

def isoPath (url dir : String) : String :=
  let name := isoName url
  let place := String.ofList (dir.toList.take 3000)
  s!"{place}/{name}"

def partPath (path : String) : String := s!"{path}.part"

/-- The record of a finished file, if its digest was kept to the end. -/
def recordOf {D : Type} (sha256 : List UInt8 → D) (script : FetchScript) (path : String)
    (file : File) (sha : Option (List UInt8)) : Option (ShaRecord D) :=
  if script.digests ∧ script.stats then
    sha.map fun fed => ⟨path, file.bytes.length, file.mtime, sha256 fed⟩
  else none

def firstProgress {D : Type} (script : FetchScript) (path : String) (state : Msdl D) : Progress :=
  ⟨state.files (partPath path), if script.context then some [] else none⟩

/-- `rufux_msdl_fetch`, with the digest of a list of bytes as a parameter. -/
def rufuxMsdlFetch {D : Type} (sha256 : List UInt8 → D) (url dir : String)
    (script : FetchScript) (state : Msdl D) : Option (Fetch × Msdl D) :=
  let path := isoPath url dir
  let part := partPath path
  if ¬ ("https://".toList.isPrefixOf url.toList ∨
      script.mock ∧ "http://127.0.0.1".toList.isPrefixOf url.toList) then
    some (.failed "refusing to download over an unencrypted connection", state)
  else if !script.directory then some (.failed s!"'{dir}' is not a directory", state)
  else if (state.files path).isSome ∧ script.strict then
    some (.failed s!"'{path}' already exists; move it away or pick another folder", state)
  else if (state.files path).any (fun file => file.bytes ≠ []) ∧ state.files part = none then
    some (.reused, state)
  else
    match runAttempts part script.attempts 4 0 "network error" (firstProgress script path state) with
    | none => none
    | some (.error why, progress) =>
        some (.failed why, { state with files := setFile state.files part progress.part })
    | some (.ok file, progress) =>
        match script.renameFails with
        | some why =>
            some (.failed s!"cannot rename '{part}': {why}",
              { state with files := setFile state.files part progress.part })
        | none =>
            some (.downloaded,
              { files := setFile (setFile state.files part none) path (some file)
                shaCache := (recordOf sha256 script path file progress.sha).or state.shaCache })

/-- What the kept digest answers for a path, if its record fits the file there. -/
def cachedDigest {D : Type} (state : Msdl D) (path : String) : Option D :=
  match state.files path, state.shaCache with
  | some file, some record =>
      if record.path = path ∧ record.size = file.bytes.length ∧ record.mtime = file.mtime then
        some record.hex
      else none
  | _, _ => none

/-- What `rufux_msdl_sha256` meets; a read error ends its reading early. -/
structure HashScript where
  stats : Bool
  opens : Bool
  context : Bool
  delivered : Nat

/-- `rufux_msdl_sha256`. -/
def rufuxMsdlSha256 {D : Type} (sha256 : List UInt8 → D) (state : Msdl D) (path : String)
    (script : HashScript) : Option D :=
  match if script.stats then cachedDigest state path else none with
  | some hex => some hex
  | none =>
      match state.files path with
      | none => none
      | some file =>
          if script.opens ∧ script.context then some (sha256 (file.bytes.take script.delivered))
          else none

end Rufux.Macos
