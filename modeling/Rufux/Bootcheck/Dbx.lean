import Rufux.Bootcheck.PeImage

/-!
The walk over a file of revoked signatures, with every comparison that it makes, and when it
stays inside the entries and finds exactly the hashes that the file lists.
-/

namespace Rufux.Bootcheck

open Library

def guidSha256 : List UInt8 :=
  [0x26, 0x16, 0xc4, 0xc1, 0x4c, 0x50, 0x92, 0x40, 0xac, 0xa9, 0x41, 0xf9, 0x36, 0x93, 0x43, 0x28]

def guidX509Sha256 : List UInt8 :=
  [0x92, 0xa4, 0xd2, 0x3b, 0xc0, 0x96, 0x79, 0x40, 0xb4, 0x20, 0xfc, 0xf9, 0x8e, 0xf1, 0x03, 0xed]

inductive Revoked where
  | binary
  | certificate
deriving DecidableEq

def Revoked.what : Revoked → String
  | .binary => "its hash is in the UEFI DBX (revoked binary)"
  | .certificate => "a certificate in its signature chain is revoked by the UEFI DBX"

/-- A comparison: the entry that it is about, and the bytes that it reads. -/
structure Look where
  entry : Span
  read : Span

structure Walked where
  hit : Option Revoked
  looks : List Look

def Walked.nothing : Walked := ⟨none, []⟩

def Walked.after (first : List Look) (later : Walked) : Walked :=
  ⟨later.hit, first ++ later.looks⟩

section Walk

-- The file as `read_all` leaves it, with a NUL behind it.
variable (buffer : List UInt8) (len : Nat)

/-- The comparisons of one entry, up to the first that succeeds. -/
def compareAll (entry : Span) : List (List UInt8 × Revoked) → Checked Walked
  | [] => pure .nothing
  | (hash, why) :: rest => do
      let v ← size (entry.start + 16)
      let bytes ← rangeAt buffer v 32
      if bytes = hash then pure ⟨some why, [⟨entry, ⟨v, 32⟩⟩]⟩
      else
        let later ← compareAll entry rest
        pure (later.after [⟨entry, ⟨v, 32⟩⟩])

/-- What an entry of a list of that kind is compared with. -/
def candidates (guid hash : List UInt8) (tbs : List (List UInt8)) : List (List UInt8 × Revoked) :=
  (if guid = guidSha256 then [(hash, .binary)] else []) ++
    if guid = guidX509Sha256 then tbs.map (·, .certificate) else []

/-- The size from which on an entry is compared. -/
def leastSize (guid : List UInt8) : Nat := 48 - if guid = guidSha256 then 16 else 0

def compareEntry (guid hash : List UInt8) (tbs : List (List UInt8)) (ssz e : Nat) :
    Checked Walked :=
  if (guid = guidSha256 ∨ guid = guidX509Sha256) ∧ leastSize guid ≤ ssz then
    compareAll buffer ⟨e, ssz⟩ (candidates guid hash tbs)
  else pure .nothing

/-- The entries of a list, with so many of them left. -/
def dbxEntries (guid hash : List UInt8) (tbs : List (List UInt8)) (ssz : Nat) :
    Nat → Nat → Checked Walked
  | 0, _ => pure .nothing
  | left + 1, e => do
      let here ← compareEntry buffer guid hash tbs ssz e
      if here.hit.isSome then pure here
      else
        let next ← size (e + ssz)
        let later ← dbxEntries guid hash tbs ssz left next
        pure (later.after here.looks)

/-- The lists from an offset on. -/
def dbxWalk (hash : List UInt8) (tbs : List (List UInt8)) (off : Nat) : Checked Walked := do
  let _ ← size (off + 28)
  if off + 28 ≤ len then
    let lsz ← rd32 buffer (off + 16)
    let hsz ← rd32 buffer (off + 20)
    let ssz ← rd32 buffer (off + 24)
    let _ ← size (off + lsz)
    let _ ← size (hsz + 28)
    if lsz < 28 ∨ len < off + lsz ∨ ssz < 16 ∨ lsz < hsz + 28 then pure .nothing
    else
      let rest ← minus lsz 28
      let space ← minus rest hsz
      let guid ← rangeAt buffer off 16
      let first ← dbxEntries buffer guid hash tbs ssz (space / ssz) (off + 28 + hsz)
      if first.hit.isSome then pure first
      else
        let later ← dbxWalk hash tbs (off + lsz)
        pure (later.after first.looks)
  else pure .nothing
termination_by len - off
decreasing_by omega

end Walk

/-- `dbx_has`, of the bytes of the file. -/
def dbxHas (file hash : List UInt8) (tbs : List (List UInt8)) : Checked Walked :=
  match readAll (8 * 2 ^ 20) file with
  | none => pure .nothing
  | some d => do
      if 16 + 24 < d.length then
        let certificate ← rd32 (d ++ [0]) 16
        let off ← size (16 + certificate)
        dbxWalk (d ++ [0]) d.length hash tbs off
      else pure .nothing

/-! ### The lists of a file -/

structure SigList where
  guid : List UInt8
  lsz : Nat
  hsz : Nat
  ssz : Nat
deriving DecidableEq

def SigList.count (list : SigList) : Nat := (list.lsz - 28 - list.hsz) / list.ssz

section Lists

variable (d hash : List UInt8) (tbs : List (List UInt8))

/-- The list that stands at an offset, all of it inside the file. -/
def listAt (off : Nat) : Option SigList :=
  let lsz := le32 d (off + 16)
  let hsz := le32 d (off + 20)
  let ssz := le32 d (off + 24)
  if off + 28 ≤ d.length ∧ 28 ≤ lsz ∧ off + lsz ≤ d.length ∧ 16 ≤ ssz ∧ hsz + 28 ≤ lsz then
    some ⟨(d.drop off).take 16, lsz, hsz, ssz⟩
  else none

/-- One list stands behind the other. -/
inductive Chain : Nat → Nat → Prop
  | here (off : Nat) : Chain off off
  | next {off stop : Nat} {list : SigList} (found : listAt d off = some list)
      (later : Chain (off + list.lsz) stop) : Chain off stop

/-- The hash behind the owner of an entry. -/
def entryHash (off : Nat) (list : SigList) (i : Nat) : List UInt8 :=
  (d.drop (off + 28 + list.hsz + i * list.ssz + 16)).take 32

/-- An entry of the list has room for a hash, which is the binary's or, in a list of
certificates, one of theirs. -/
def Lists (off : Nat) : Prop :=
  ∃ list, listAt d off = some list ∧ 48 ≤ list.ssz ∧ ∃ i < list.count,
    (list.guid = guidSha256 ∧ entryHash d off list i = hash) ∨
      (list.guid = guidX509Sha256 ∧ entryHash d off list i ∈ tbs)

/-- The entries of a list of hashes are too short for one, but not for the walk's test. -/
def Narrow (off : Nat) : Prop :=
  ∃ list, listAt d off = some list ∧ list.guid = guidSha256 ∧ 32 ≤ list.ssz ∧ list.ssz < 48 ∧
    0 < list.count

/-- Where the first list stands. -/
def firstList : Nat := 16 + le32 d 16

/-- The file revokes the binary or one of the certificates. -/
def Listed : Prop := ∃ off, Chain d (firstList d) off ∧ Lists d hash tbs off

end Lists

def Look.Inside (look : Look) : Prop :=
  look.entry.start ≤ look.read.start ∧
    look.read.start + look.read.count ≤ look.entry.start + look.entry.count

/-- The walk ends, it compares bytes of entries that are inside the file, and it reports
whether the file lists a hash. -/
def DbxExact (file hash : List UInt8) (tbs : List (List UInt8)) : Prop :=
  ∃ walked, dbxHas file hash tbs = .ok walked ∧
    (∀ look ∈ walked.looks, look.Inside ∧ look.entry.start + look.entry.count ≤ file.length) ∧
    (walked.hit.isSome ↔ Listed file hash tbs)

/-- Every list of hashes with too short entries stands behind one that lists a hash. -/
def NarrowUnreached (file hash : List UInt8) (tbs : List (List UInt8)) (start : Nat) : Prop :=
  ∀ off, Chain file start off → Narrow file off →
    ∃ earlier, earlier < off ∧ Chain file start earlier ∧ Lists file hash tbs earlier

section Exact

variable {d guid hash : List UInt8} {tbs : List (List UInt8)} {entry : Span} {off e ssz left : Nat}
  {cands : List (List UInt8 × Revoked)} {list : SigList} {walked : Walked}

theorem byteOf_terminated (d : List UInt8) (p : Nat) : byteOf (d ++ [0]) p = byteOf d p := by
  unfold byteOf
  rcases Nat.lt_or_ge p d.length with inside | behind
  · rw [List.getElem?_append_left inside]
  · rw [List.getElem?_append_right behind, List.getElem?_eq_none behind]
    cases p - d.length with
    | zero => rfl
    | succ more => rfl

theorem le32_terminated (d : List UInt8) (p : Nat) : le32 (d ++ [0]) p = le32 d p := by
  simp only [le32, byteOf_terminated]

theorem range_terminated {p count : Nat} (inside : p + count ≤ d.length) :
    ((d ++ [0]).drop p).take count = (d.drop p).take count := by
  rw [List.drop_append_of_le_length (by omega), List.take_append_of_le_length]
  rw [List.length_drop]
  omega

theorem goes_word {p : Nat} (inside : p + 4 ≤ d.length) : Goes (rd32 (d ++ [0]) p) (· = le32 d p) := by
  have room : p + 4 ≤ (d ++ [0]).length := by
    rw [List.length_append]
    omega
  exact (goes_rd32 room).mono fun value same => same.trans (le32_terminated d p)

/-- All comparisons of an entry read the same bytes. -/
theorem compareAll_goes (short : d.length ≤ 2 ^ 23) (inside : entry.start + 48 ≤ d.length) :
    Goes (compareAll (d ++ [0]) entry cands) fun walked =>
      (∀ look ∈ walked.looks, look = ⟨entry, ⟨entry.start + 16, 32⟩⟩) ∧
      (walked.hit.isSome ↔ ∃ cand ∈ cands, (d.drop (entry.start + 16)).take 32 = cand.1) := by
  induction cands with
  | nil => exact goes_pure ⟨nofun, by simp [Walked.nothing]⟩
  | cons cand rest ih =>
      have room : entry.start + 16 + 32 ≤ (d ++ [0]).length := by
        rw [List.length_append]
        omega
      refine (goes_fits (by omega)).bind ?_
      rintro _ rfl
      refine (goes_rangeAt room).bind ?_
      rintro _ rfl
      rw [range_terminated (by omega)]
      split
      · rename_i same
        refine goes_pure ⟨fun look among => List.mem_singleton.mp among, ?_⟩
        exact iff_of_true rfl ⟨cand, List.mem_cons_self, same⟩
      · rename_i other
        refine ih.bind ?_
        rintro later ⟨looks, hit⟩
        refine goes_pure ⟨?_, ?_⟩
        · intro look among
          rcases List.mem_cons.mp among with rfl | among
          · rfl
          · exact looks look among
        · rw [Walked.after, hit]
          simp [other]

theorem exists_candidates {bytes : List UInt8} :
    (∃ cand ∈ candidates guid hash tbs, bytes = cand.1) ↔
      (guid = guidSha256 ∧ bytes = hash) ∨ (guid = guidX509Sha256 ∧ bytes ∈ tbs) := by
  unfold candidates
  constructor
  · rintro ⟨cand, among, rfl⟩
    rcases List.mem_append.mp among with first | second
    · split at first
      · rename_i sha
        cases List.mem_singleton.mp first
        exact Or.inl ⟨sha, rfl⟩
      · cases first
    · split at second
      · rename_i x509
        obtain ⟨tbsHash, inside, rfl⟩ := List.mem_map.mp second
        exact Or.inr ⟨x509, inside⟩
      · cases second
  · rintro (⟨sha, rfl⟩ | ⟨x509, inside⟩)
    · exact ⟨_, List.mem_append_left _ (by rw [if_pos sha]; exact List.mem_singleton_self _), rfl⟩
    · exact ⟨(bytes, .certificate), List.mem_append_right _ (by
        rw [if_pos x509]
        exact List.mem_map.mpr ⟨bytes, inside, rfl⟩), rfl⟩

/-- Entries of hashes are not of a size that only the test takes for enough. -/
def Wide (guid : List UInt8) (ssz : Nat) : Prop := guid = guidSha256 → 32 ≤ ssz → 48 ≤ ssz

theorem compareEntry_goes (short : d.length ≤ 2 ^ 23) (wide : Wide guid ssz)
    (inside : e + ssz ≤ d.length) :
    Goes (compareEntry (d ++ [0]) guid hash tbs ssz e) fun walked =>
      (∀ look ∈ walked.looks, look.Inside ∧ look.entry.start + look.entry.count ≤ d.length) ∧
      (walked.hit.isSome ↔ 48 ≤ ssz ∧ ((guid = guidSha256 ∧ (d.drop (e + 16)).take 32 = hash) ∨
        (guid = guidX509Sha256 ∧ (d.drop (e + 16)).take 32 ∈ tbs))) := by
  unfold compareEntry
  split
  · rename_i taken
    have enough : 48 ≤ ssz := by
      obtain ⟨-, room⟩ := taken
      unfold leastSize at room
      split at room
      · rename_i sha
        exact wide sha room
      · exact room
    refine ((@compareAll_goes _ ⟨e, ssz⟩) short (by dsimp only; omega)).mono ?_
    rintro walked ⟨looks, hit⟩
    refine ⟨?_, ?_⟩
    · intro look among
      cases looks look among
      refine ⟨⟨Nat.le_add_right _ _, ?_⟩, inside⟩
      change e + 16 + 32 ≤ e + ssz
      omega
    · rw [hit, exists_candidates]
      exact ⟨fun found => ⟨enough, found⟩, fun found => found.2⟩
  · rename_i refused
    refine goes_pure ⟨nofun, iff_of_false Bool.false_ne_true ?_⟩
    rintro ⟨enough, found⟩
    refine refused ⟨?_, ?_⟩
    · exact found.imp And.left And.left
    · unfold leastSize
      split <;> omega

theorem dbxEntries_goes (short : d.length ≤ 2 ^ 23) (wide : 0 < left → Wide guid ssz)
    (inside : e + left * ssz ≤ d.length) :
    Goes (dbxEntries (d ++ [0]) guid hash tbs ssz left e) fun walked =>
      (∀ look ∈ walked.looks, look.Inside ∧ look.entry.start + look.entry.count ≤ d.length) ∧
      (walked.hit.isSome ↔ 48 ≤ ssz ∧ ∃ i < left,
        (guid = guidSha256 ∧ (d.drop (e + i * ssz + 16)).take 32 = hash) ∨
          (guid = guidX509Sha256 ∧ (d.drop (e + i * ssz + 16)).take 32 ∈ tbs)) := by
  induction left generalizing e with
  | zero => exact goes_pure ⟨nofun, iff_of_false Bool.false_ne_true (by simp)⟩
  | succ left ih =>
      rw [Nat.succ_mul] at inside
      refine (compareEntry_goes short (wide (Nat.succ_pos _)) (by omega)).bind ?_
      rintro here ⟨looks, hit⟩
      split
      · rename_i found
        obtain ⟨enough, same⟩ := hit.mp found
        refine goes_pure ⟨looks, iff_of_true found ⟨enough, 0, by omega, ?_⟩⟩
        rwa [Nat.zero_mul, Nat.add_zero]
      · rename_i missed
        refine (goes_fits (by omega)).bind ?_
        rintro _ rfl
        refine (ih (fun _ => wide (Nat.succ_pos _)) (by omega)).bind ?_
        rintro later ⟨laterLooks, laterHit⟩
        refine goes_pure ⟨?_, ?_⟩
        · intro look among
          rcases List.mem_append.mp among with first | second
          · exact looks look first
          · exact laterLooks look second
        · have place : ∀ i, e + ssz + i * ssz + 16 = e + (i + 1) * ssz + 16 := by
            intro i
            rw [Nat.succ_mul]
            omega
          rw [Walked.after, laterHit]
          constructor
          · rintro ⟨enough, i, less, same⟩
            rw [place] at same
            exact ⟨enough, i + 1, by omega, same⟩
          · rintro ⟨enough, i, less, same⟩
            cases i with
            | zero =>
                rw [Nat.zero_mul, Nat.add_zero] at same
                exact absurd (hit.mpr ⟨enough, same⟩) missed
            | succ i =>
                rw [← place] at same
                exact ⟨enough, i, by omega, same⟩

theorem compareAll_first {buffer : List UInt8} {cand : List UInt8 × Revoked}
    (ran : compareAll buffer entry (cand :: cands) = .ok walked) :
    (⟨entry, ⟨entry.start + 16, 32⟩⟩ : Look) ∈ walked.looks := by
  unfold compareAll at ran
  obtain ⟨v, sum, ran⟩ := of_bind_eq_ok ran
  cases of_fits_eq_ok sum
  obtain ⟨bytes, -, ran⟩ := of_bind_eq_ok ran
  split at ran
  · cases ran
    exact List.mem_cons_self
  · obtain ⟨later, -, ran⟩ := of_bind_eq_ok ran
    cases ran
    exact List.mem_cons_self

/-- A list of hashes whose entries are too short is read past its entries. -/
theorem dbxEntries_narrow (sha : guid = guidSha256) (room : 32 ≤ ssz) (narrow : ssz < 48)
    (ran : dbxEntries (d ++ [0]) guid hash tbs ssz (left + 1) e = .ok walked) :
    ∃ look ∈ walked.looks, ¬ look.Inside := by
  have outside : ¬ (⟨⟨e, ssz⟩, ⟨e + 16, 32⟩⟩ : Look).Inside := by
    rintro ⟨-, less⟩
    change e + 16 + 32 ≤ e + ssz at less
    omega
  have taken : (guid = guidSha256 ∨ guid = guidX509Sha256) ∧ leastSize guid ≤ ssz := by
    refine ⟨Or.inl sha, ?_⟩
    rw [leastSize, if_pos sha]
    exact room
  unfold dbxEntries at ran
  obtain ⟨here, compared, ran⟩ := of_bind_eq_ok ran
  rw [compareEntry, if_pos taken, candidates, if_pos sha] at compared
  have first := compareAll_first compared
  split at ran
  · cases ran
    exact ⟨_, first, outside⟩
  · obtain ⟨next, -, ran⟩ := of_bind_eq_ok ran
    obtain ⟨later, -, ran⟩ := of_bind_eq_ok ran
    cases ran
    exact ⟨_, List.mem_append_left _ first, outside⟩

/-! ### The walk over the lists -/

theorem listAt_some (found : listAt d off = some list) :
    off + list.lsz ≤ d.length ∧ 28 ≤ list.lsz ∧ list.hsz + 28 ≤ list.lsz ∧ 16 ≤ list.ssz ∧
      off + 28 + list.hsz + list.count * list.ssz ≤ d.length := by
  unfold listAt at found
  dsimp only at found
  split at found
  · rename_i fits
    cases found
    have whole := Nat.div_mul_le_self (le32 d (off + 16) - 28 - le32 d (off + 20)) (le32 d (off + 24))
    dsimp only [SigList.count]
    refine ⟨fits.2.2.1, fits.2.1, fits.2.2.2.2, fits.2.2.2.1, ?_⟩
    omega
  · cases found

/-- What the walk does at an offset, in terms of the list there. -/
def walkList (d hash : List UInt8) (tbs : List (List UInt8)) (off : Nat) :
    Option SigList → Checked Walked
  | none => pure .nothing
  | some list => do
      let first ← dbxEntries (d ++ [0]) list.guid hash tbs list.ssz list.count (off + 28 + list.hsz)
      if first.hit.isSome then pure first
      else
        let later ← dbxWalk (d ++ [0]) d.length hash tbs (off + list.lsz)
        pure (later.after first.looks)

theorem dbxWalk_eq (short : d.length ≤ 2 ^ 23) (near : off < 2 ^ 34) :
    dbxWalk (d ++ [0]) d.length hash tbs off = walkList d hash tbs off (listAt d off) := by
  have lsz := le32_lt d (off + 16)
  have hsz := le32_lt d (off + 20)
  unfold dbxWalk
  rw [size, (goes_fits (by omega)).eq, ok_bind]
  by_cases inside : off + 28 ≤ d.length
  · rw [if_pos inside, (goes_word (by omega)).eq, ok_bind, (goes_word (by omega)).eq, ok_bind,
      (goes_word (by omega)).eq, ok_bind, size, (goes_fits (by omega)).eq, ok_bind, size,
      (goes_fits (by omega)).eq, ok_bind]
    by_cases bad : le32 d (off + 16) < 28 ∨ d.length < off + le32 d (off + 16) ∨
        le32 d (off + 24) < 16 ∨ le32 d (off + 16) < le32 d (off + 20) + 28
    · rw [if_pos bad, listAt, if_neg (by omega)]
      rfl
    · have guid : rangeAt (d ++ [0]) off 16 = .ok ((d.drop off).take 16) := by
        rw [(goes_rangeAt (by rw [List.length_append]; omega)).eq, range_terminated (by omega)]
      rw [if_neg bad, (goes_minus (by omega)).eq, ok_bind, (goes_minus (by omega)).eq, ok_bind, guid,
        ok_bind, listAt, if_pos (by omega)]
      rfl
  · rw [if_neg inside, listAt, if_neg (by omega)]
    rfl

theorem Chain.le {stop : Nat} (chain : Chain d off stop) : off ≤ stop := by
  induction chain with
  | here => exact Nat.le_refl _
  | next found _ ih => exact Nat.le_trans (Nat.le_add_right _ _) ih

/-- The chain goes through the next list or ends here. -/
theorem Chain.cases_on_list {stop : Nat} (chain : Chain d off stop)
    (found : listAt d off = some list) : stop = off ∨ Chain d (off + list.lsz) stop := by
  cases chain with
  | here => exact Or.inl rfl
  | next other later =>
      rw [found] at other
      cases other
      exact Or.inr later

/-- The walk from an offset goes well. -/
def WalksExactly (d hash : List UInt8) (tbs : List (List UInt8)) (off : Nat) : Prop :=
  ∃ walked, dbxWalk (d ++ [0]) d.length hash tbs off = .ok walked ∧
    (∀ look ∈ walked.looks, look.Inside ∧ look.entry.start + look.entry.count ≤ d.length) ∧
    (walked.hit.isSome ↔ ∃ stop, Chain d off stop ∧ Lists d hash tbs stop)

/-- From each offset on the walk goes well exactly when no list of too short entries is met
before a hash is found. -/
theorem walksExactly_iff (short : d.length ≤ 2 ^ 23) (near : off < 2 ^ 34) :
    WalksExactly d hash tbs off ↔ NarrowUnreached d hash tbs off := by
  induction distance : d.length - off using Nat.strongRecOn generalizing off with
  | ind distance ih =>
      subst distance
      unfold WalksExactly
      rw [dbxWalk_eq short near]
      cases found : listAt d off with
      | none =>
          have only : ∀ stop, Chain d off stop → stop = off := by
            intro stop chain
            cases chain with
            | here => rfl
            | next other _ => rw [found] at other; cases other
          refine iff_of_true ⟨.nothing, rfl, nofun, iff_of_false Bool.false_ne_true ?_⟩ ?_
          · rintro ⟨stop, chain, list, here, -⟩
            rw [only stop chain, found] at here
            cases here
          · rintro stop chain ⟨list, here, -⟩
            rw [only stop chain, found] at here
            cases here
      | some list =>
          obtain ⟨fits, least, -, -, entries⟩ := listAt_some found
          have closer : d.length - (off + list.lsz) < d.length - off := by omega
          have later := ih _ closer (by omega) rfl
          by_cases narrow : Narrow d off
          · obtain ⟨same, here, sha, room, tight, some⟩ := narrow
            rw [found] at here
            cases here
            refine iff_of_false ?_ ?_
            · rintro ⟨walked, ran, looks, -⟩
              obtain ⟨first, compared, ran⟩ := of_bind_eq_ok ran
              obtain ⟨count, counted⟩ := Nat.exists_eq_succ_of_ne_zero (Nat.ne_of_gt some)
              rw [counted] at compared
              obtain ⟨look, among, outside⟩ := dbxEntries_narrow sha room tight compared
              split at ran
              · cases ran
                exact outside (looks look among).1
              · obtain ⟨rest, -, ran⟩ := of_bind_eq_ok ran
                cases ran
                exact outside (looks look (List.mem_append_left _ among)).1
            · intro unreached
              obtain ⟨earlier, less, chain, -⟩ :=
                unreached off (.here off) ⟨list, found, sha, room, tight, some⟩
              exact absurd chain.le (by omega)
          · have wide : 0 < list.count → Wide list.guid list.ssz := by
              intro some sha room
              by_contra tight
              exact narrow ⟨list, found, sha, room, by omega, some⟩
            obtain ⟨first, compared, looks, hit⟩ :=
              @dbxEntries_goes d list.guid hash tbs (off + 28 + list.hsz) list.ssz list.count short wide
                entries
            have listed : first.hit.isSome ↔ Lists d hash tbs off := by
              rw [hit]
              constructor
              · rintro ⟨enough, i, less, same⟩
                exact ⟨list, found, enough, i, less, same⟩
              · rintro ⟨other, here, enough, i, less, same⟩
                rw [found] at here
                cases here
                exact ⟨enough, i, less, same⟩
            rw [walkList, compared, ok_bind]
            by_cases stops : first.hit.isSome
            · rw [if_pos stops]
              refine iff_of_true ⟨first, rfl, looks, iff_of_true stops
                ⟨off, .here off, listed.mp stops⟩⟩ ?_
              intro other chain short
              refine ⟨off, ?_, .here off, listed.mp stops⟩
              rcases Nat.lt_or_eq_of_le chain.le with less | rfl
              · exact less
              · exact absurd short narrow
            · rw [if_neg stops]
              have onward : ∀ {stop}, Chain d off stop → Lists d hash tbs stop →
                  Chain d (off + list.lsz) stop := by
                intro stop chain lists
                rcases chain.cases_on_list found with rfl | further
                · exact absurd (listed.mpr lists) stops
                · exact further
              have same : WalksExactly d hash tbs (off + list.lsz) ↔
                  NarrowUnreached d hash tbs off := by
                rw [later]
                constructor
                · intro unreached other chain short
                  rcases chain.cases_on_list found with rfl | further
                  · exact absurd short narrow
                  · obtain ⟨earlier, less, reached, lists⟩ := unreached other further short
                    exact ⟨earlier, less, .next found reached, lists⟩
                · intro unreached other chain short
                  obtain ⟨earlier, less, reached, lists⟩ := unreached other (.next found chain) short
                  exact ⟨earlier, less, onward reached lists, lists⟩
              rw [← same]
              have found_later : (∃ stop, Chain d off stop ∧ Lists d hash tbs stop) ↔
                  ∃ stop, Chain d (off + list.lsz) stop ∧ Lists d hash tbs stop :=
                ⟨fun ⟨stop, chain, lists⟩ => ⟨stop, onward chain lists, lists⟩,
                  fun ⟨stop, chain, lists⟩ => ⟨stop, .next found chain, lists⟩⟩
              rw [found_later]
              constructor
              · rintro ⟨walked, ran, looked, exactly⟩
                obtain ⟨rest, walks, ran⟩ := of_bind_eq_ok ran
                cases ran
                exact ⟨rest, walks, fun look among => looked look (List.mem_append_right _ among),
                  exactly⟩
              · rintro ⟨rest, walks, looked, exactly⟩
                refine ⟨rest.after first.looks, by rw [walks]; rfl, ?_, exactly⟩
                intro look among
                rcases List.mem_append.mp among with now | further
                · exact looks look now
                · exact looked look further

theorem dbxHas_short {file : List UInt8} (short : ¬ 16 + 24 < file.length) :
    dbxHas file hash tbs = .ok .nothing := by
  unfold dbxHas
  split
  · rfl
  · rename_i d taken
    unfold readAll at taken
    split at taken
    · cases taken
    · cases taken
      rw [if_neg short]
      rfl

/-- A file with a header and of a size that is read. -/
theorem dbxExact_of_header {file : List UInt8} (header : 16 + 24 < file.length)
    (short : file.length ≤ 8 * 2 ^ 20) :
    DbxExact file hash tbs ↔ NarrowUnreached file hash tbs (firstList file) := by
  have taken : readAll (8 * 2 ^ 20) file = some file := if_neg (by omega)
  have start := le32_lt file 16
  have walks := @walksExactly_iff file hash tbs (firstList file) (by omega)
    (by unfold firstList; omega)
  unfold DbxExact dbxHas
  rw [taken]
  dsimp only
  rw [if_pos header, (goes_word (by omega)).eq, ok_bind, size, (goes_fits (by omega)).eq, ok_bind]
  exact walks

/-- The walk over the file ends, stays inside the entries and reports what the file lists,
exactly when no list of hashes has entries between 32 and 47 bytes long before a hash is found.
A file of more than 8 MiB is not walked over and must not list a hash. -/
theorem dbxExact_iff (file hash : List UInt8) (tbs : List (List UInt8)) :
    DbxExact file hash tbs ↔
      (8 * 2 ^ 20 < file.length → ¬ Listed file hash tbs) ∧
        (file.length ≤ 8 * 2 ^ 20 → NarrowUnreached file hash tbs (firstList file)) := by
  by_cases long : 8 * 2 ^ 20 < file.length
  · have refused : dbxHas file hash tbs = .ok .nothing := by
      unfold dbxHas readAll
      rw [if_pos (Or.inr long)]
      rfl
    unfold DbxExact
    rw [refused]
    constructor
    · rintro ⟨walked, ran, -, listed⟩
      cases ran
      exact ⟨fun _ found => absurd (listed.mpr found) Bool.false_ne_true, fun short => by omega⟩
    · rintro ⟨unlisted, -⟩
      exact ⟨.nothing, rfl, nofun, iff_of_false Bool.false_ne_true (unlisted long)⟩
  · by_cases header : 16 + 24 < file.length
    · rw [dbxExact_of_header header (by omega)]
      exact ⟨fun unreached => ⟨fun more => absurd more long, fun _ => unreached⟩,
        fun both => both.2 (by omega)⟩
    · have empty : ∀ stop, Chain file (firstList file) stop → listAt file stop = none := by
        intro stop chain
        have behind := chain.le
        rw [listAt, if_neg]
        unfold firstList at behind
        omega
      unfold DbxExact
      rw [dbxHas_short header]
      refine iff_of_true ⟨.nothing, rfl, nofun, iff_of_false Bool.false_ne_true ?_⟩ ⟨fun more => ?_, ?_⟩
      · rintro ⟨stop, chain, list, here, -⟩
        rw [empty stop chain] at here
        cases here
      · exact absurd more long
      · rintro - stop chain ⟨list, here, -⟩
        rw [empty stop chain] at here
        cases here

/-- A time, a certificate of 24 bytes and a list of one hash whose entry has 32 bytes. -/
def narrowFile : List UInt8 :=
  List.replicate 16 0 ++ [24, 0, 0, 0] ++ List.replicate 20 0 ++ guidSha256 ++ [60, 0, 0, 0] ++
    [0, 0, 0, 0] ++ [32, 0, 0, 0] ++ List.replicate 32 0

/-- The comparison reads 16 bytes past the file. -/
theorem narrowFile_overread : ¬ ∀ file hash tbs, DbxExact file hash tbs := by
  intro all
  have list : listAt narrowFile 40 = some ⟨guidSha256, 60, 0, 32⟩ := by decide +kernel
  have start : firstList narrowFile = 40 := by decide +kernel
  have unreached := (dbxExact_of_header (by decide) (by decide)).mp (all narrowFile [] [])
  rw [start] at unreached
  obtain ⟨earlier, less, chain, -⟩ :=
    unreached 40 (.here 40) ⟨_, list, rfl, by decide, by decide, by decide⟩
  exact absurd chain.le (by omega)

end Exact

end Rufux.Bootcheck
