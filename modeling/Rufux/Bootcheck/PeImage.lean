import Rufux.Library.Checked
import Rufux.Library.Tiling

/-!
The reader of EFI executables: headers, the spans that the signature hash covers, the text of
a section, the resource tree and the signature. All of it works on the bytes of a file.
-/

namespace Rufux.Bootcheck

open Library

abbrev CString := List UInt8

def maxEfi : Nat := 64 * 2 ^ 20

/-- What `read_all` has read of a file of an EFI executable. -/
structure Image where
  b : List UInt8
  short : b.length ≤ maxEfi

/-- `read_all`. -/
def readAll (max : Nat) (file : List UInt8) : Option (List UInt8) :=
  if file.length = 0 ∨ max < file.length then none else some file

def readImage (file : List UInt8) : Option Image :=
  if h : file.length = 0 ∨ maxEfi < file.length then none else some ⟨file, by omega⟩

/-- An executable that `pe_open` accepts. -/
structure Pe extends Image where
  plus : Bool
  machine : Nat
  nsec : Nat
  opt : Nat
  dd : Nat
  secs : Nat
  sizeOfHeaders : Nat
  gap : opt + 96 ≤ dd
  dirs : dd + 8 * 16 ≤ b.length
  table : secs + nsec * 40 ≤ b.length

def peOpen (image : Image) : Checked (Option Pe) := do
  if image.b.length < 0x100 then pure none
  else
    let first ← byteAt image.b 0
    let second ← byteAt image.b 1
    if first ≠ 'M'.toNat ∨ second ≠ 'Z'.toNat then pure none
    else
      let pe ← rd32 image.b 0x3c
      let headEnd ← size (pe + 24 + 96)
      if image.b.length < headEnd then pure none
      else
        let signature ← rangeAt image.b pe 4
        if signature ≠ [0x50, 0x45, 0, 0] then pure none
        else
          let machine ← rd16 image.b (pe + 4)
          let nsec ← rd16 image.b (pe + 6)
          let osz ← rd16 image.b (pe + 20)
          let opt ← fits 32 (pe + 24)
          let magic ← rd16 image.b opt
          if magic ≠ 0x10b ∧ magic ≠ 0x20b then pure none
          else
            let plus := decide (magic = 0x20b)
            let dd := opt + if plus then 112 else 96
            let _ ← size dd
            let sizeOfHeaders ← rd32 image.b (opt + 60)
            let secs := opt + osz
            let _ ← size secs
            let _ ← size (dd + 8 * 16)
            let _ ← size (secs + nsec * 40)
            if h : image.b.length < dd + 8 * 16 ∨ image.b.length < secs + nsec * 40 then pure none
            else
              pure <| some
                { image with
                  plus, machine, nsec, opt, dd, secs, sizeOfHeaders
                  gap := by dsimp only [dd]; split <;> omega
                  dirs := by omega
                  table := by omega }

def peArch (pe : Pe) : String :=
  if pe.machine = 0x8664 then "x64"
  else if pe.machine = 0x14c then "ia32"
  else if pe.machine = 0x1c0 ∨ pe.machine = 0x1c4 then "arm"
  else if pe.machine = 0xaa64 then "aarch64"
  else "other"

section Reader

variable (pe : Pe)

/-- `sec_hdr`. -/
def secHdr (i : Nat) : Nat := pe.secs + i * 40

/-! ### The signature hash -/

/-- `EVP_DigestUpdate`, with the bytes that go into the hash. -/
def digestUpdate (start count : Nat) : Checked Span := do
  let _ ← rangeAt pe.b start count
  pure ⟨start, count⟩

/-- A section finds its place among the earlier ones, which stand with the last one first. -/
def insertSection (i : Nat) : List Nat → Checked (List Nat)
  | [] => pure [i]
  | prev :: before => do
      let other ← rd32 pe.b (secHdr pe prev + 20)
      let own ← rd32 pe.b (secHdr pe i + 20)
      if own < other then
        let rest ← insertSection i before
        pure (prev :: rest)
      else pure (i :: prev :: before)

/-- The first `n` sections by their place in the file, the last one first. -/
def sortSections : Nat → Checked (List Nat)
  | 0 => pure []
  | n + 1 => do
      let sorted ← sortSections n
      insertSection pe n sorted

/-- The spans of sections and the new total, unless one of them reaches past the file. -/
def hashSections : List Nat → Nat → Checked (Option (List Span × Nat))
  | [], total => pure (some ([], total))
  | i :: rest, total => do
      let rs ← rd32 pe.b (secHdr pe i + 16)
      let rp ← rd32 pe.b (secHdr pe i + 20)
      if rs = 0 then hashSections rest total
      else
        let stop ← size (rp + rs)
        if pe.b.length < stop then pure none
        else
          let span ← digestUpdate pe rp rs
          let total ← size (total + rs)
          let later ← hashSections rest total
          pure (later.map fun found => (span :: found.1, found.2))

/-- Where the certificate table starts, which ends the file. -/
def tailEnd (certSize : Nat) : Checked Nat :=
  if certSize ≠ 0 ∧ certSize ≤ pe.b.length then minus pe.b.length certSize else pure pe.b.length

/-- What follows the sections, up to the certificate table. -/
def hashTail (certSize total : Nat) : Checked (List Span) := do
  if total < pe.b.length then
    let stop ← tailEnd pe certSize
    if total < stop then
      let count ← minus stop total
      let span ← digestUpdate pe total count
      pure [span]
    else pure []
  else pure []

/-- `pe_sha256`, as the spans whose bytes are hashed one after the other. -/
def peSha256 : Checked (Option (List Span)) := do
  let chk ← size (pe.opt + 64)
  let secDir ← size (pe.dd + 4 * 8)
  let _certOff ← rd32 pe.b secDir
  let certSize ← rd32 pe.b (secDir + 4)
  let secDirEnd ← size (secDir + 8)
  if pe.b.length < pe.sizeOfHeaders ∨ pe.sizeOfHeaders < secDirEnd then pure none
  else
    let first ← digestUpdate pe 0 chk
    let gap ← minus secDir (chk + 4)
    let second ← digestUpdate pe (chk + 4) gap
    let left ← minus pe.sizeOfHeaders secDirEnd
    let third ← digestUpdate pe secDirEnd left
    let idx ← sortSections pe (if 96 < pe.nsec then 96 else pe.nsec)
    let hashed ← hashSections pe idx.reverse pe.sizeOfHeaders
    match hashed with
    | none => pure none
    | some (spans, total) =>
        let tail ← hashTail pe certSize total
        pure (some (first :: second :: third :: spans ++ tail))

/-! ### Sections -/

/-- The loop of `pe_section_text`, with so many sections left. The copy ends in a NUL. -/
def sectionText (name : CString) : Nat → Nat → Checked (Option (List UInt8))
  | 0, _ => pure none
  | left + 1, i => do
      let h := secHdr pe i
      let field ← rangeAt pe.b h 8
      if field.takeWhile (· ≠ 0) ≠ name.take 8 then sectionText name left (i + 1)
      else
        let vs ← rd32 pe.b (h + 8)
        let rs ← rd32 pe.b (h + 16)
        let rp ← rd32 pe.b (h + 20)
        let n := if vs ≠ 0 ∧ vs < rs then vs else rs
        let stop ← size (rp + n)
        if pe.b.length < stop then pure none
        else
          let _ ← size (n + 1)
          let text ← rangeAt pe.b rp n
          pure (some (text ++ [0]))

def peSectionText (name : CString) : Checked (Option (List UInt8)) := sectionText pe name pe.nsec 0

def findRva (rva : Nat) : Nat → Nat → Checked (Option Nat)
  | 0, _ => pure none
  | left + 1, i => do
      let h := secHdr pe i
      let va ← rd32 pe.b (h + 12)
      let vs ← rd32 pe.b (h + 8)
      let rs ← rd32 pe.b (h + 16)
      let rp ← rd32 pe.b (h + 20)
      let span := if rs < vs then vs else rs
      if rva < va then findRva rva left (i + 1)
      else
        let delta ← minus rva va
        if delta < span then
          let off ← size (rp + delta)
          pure (if off < pe.b.length then some off else none)
        else findRva rva left (i + 1)

/-- `rva_to_off`. -/
def rvaToOff (rva : Nat) : Checked (Option Nat) := findRva pe rva pe.nsec 0

/-! ### The resource tree -/

/-- The characters of a name against those at an offset. -/
def sameName : CString → Nat → Checked Bool
  | [], _ => pure true
  | char :: rest, index => do
      let unit ← rd16 pe.b index
      if unit ≠ char.toNat then pure false else sameName rest (index + 2)

/-- The name of an entry, where it is inside the file. -/
def entryNamed (root nm : Nat) (name : CString) : Checked Bool := do
  let so ← size (root + nm % 2 ^ 31)
  let lengthEnd ← size (so + 2)
  if pe.b.length < lengthEnd then pure false
  else
    let l ← rd16 pe.b so
    if l ≠ name.length then pure false
    else
      let nameEnd ← size (so + 2 + l * 2)
      if pe.b.length < nameEnd then pure false else sameName pe name (so + 2)

def entryMatches (root nm : Nat) (name : CString) (inside : Bool) : Checked Bool :=
  if !inside ∧ 2 ^ 31 ≤ nm then entryNamed pe root nm name else pure inside

/-- The loop over the entries of a directory, with so many of them left. -/
def rsrcEntries (root dir : Nat) (name : CString) (inside : Bool)
    (below : Nat → Bool → Checked (Option (Nat × Nat))) : Nat → Nat → Checked (Option (Nat × Nat))
  | 0, _ => pure none
  | left + 1, i => do
      let e ← size (dir + 16 + i * 8)
      let entryEnd ← size (e + 8)
      if pe.b.length < entryEnd then pure none
      else
        let nm ← rd32 pe.b e
        let of ← rd32 pe.b (e + 4)
        let matched ← entryMatches pe root nm name inside
        if 2 ^ 31 ≤ of then
          let child ← size (root + of % 2 ^ 31)
          let found ← below child matched
          match found with
          | some leaf => pure (some leaf)
          | none => rsrcEntries root dir name inside below left (i + 1)
        else if matched then
          let de ← size (root + of)
          let leafEnd ← size (de + 16)
          if pe.b.length < leafEnd then pure none
          else
            let rva ← rd32 pe.b de
            let count ← rd32 pe.b (de + 4)
            pure (some (rva, count))
        else rsrcEntries root dir name inside below left (i + 1)

/-- `rsrc_find`, with so many levels left of the five. It returns address and size. -/
def rsrcFind (root : Nat) (name : CString) : Nat → Nat → Bool → Checked (Option (Nat × Nat))
  | 0, _, _ => pure none
  | levels + 1, dir, inside => do
      let headEnd ← size (dir + 16)
      if pe.b.length < headEnd then pure none
      else
        let named ← rd16 pe.b (dir + 12)
        let ids ← rd16 pe.b (dir + 14)
        let entries ← fits 32 (named + ids)
        if 512 < entries then pure none
        else rsrcEntries pe root dir name inside (rsrcFind root name levels) entries 0

/-! ### The signature -/

/-- What `d2i_PKCS7` and the accessors return. -/
structure Pkcs7 where
  signed : Bool
  /-- The encoded bodies of the certificates, empty where there is none. -/
  tbs : List (List UInt8)
  issuer : CString

/-- The functions of OpenSSL. -/
structure Openssl where
  sha256 : List UInt8 → List UInt8
  d2iPkcs7 : List UInt8 → Option Pkcs7

/-- `Sig`, of a file that is signed. -/
structure Sig where
  issuer : CString
  tbs : List (List UInt8)

variable (openssl : Openssl)

def Pkcs7.sig (p7 : Pkcs7) : Sig :=
  ⟨p7.issuer.take 127, ((p7.tbs.filter (· ≠ [])).take 16).map openssl.sha256⟩

def readSig : Checked (Option Sig) := do
  let sd ← size (pe.dd + 4 * 8)
  let off ← rd32 pe.b sd
  let sz ← rd32 pe.b (sd + 4)
  let stop ← size (off + sz)
  if off = 0 ∨ sz < 16 ∨ pe.b.length < stop then pure none
  else
    let dl ← rd32 pe.b off
    if dl < 8 ∨ sz < dl then pure none
    else
      let kind ← rd16 pe.b (off + 6)
      if kind ≠ 0x0002 then pure none
      else
        let count ← minus dl 8
        let content ← rangeAt pe.b (off + 8) count
        pure <| (openssl.d2iPkcs7 content).bind fun p7 =>
          if p7.signed then some (p7.sig openssl) else none

end Reader

end Rufux.Bootcheck
