import Rufux.Bootcheck.Policy

/-!
No byte string makes the reader of executables look outside its buffer or compute an offset
that its type does not hold.
-/

namespace Rufux.Bootcheck

open Library

section Reader

variable {image : Image} {pe : Pe} {i n total start count root dir nm index rva certSize left : Nat}
  {name : CString} {order : List Nat}

/-- Sums of a few words and offsets into the file are small. -/
theorem goes_size {value : Nat} (small : value < 2 ^ 40) : Goes (size value) (· = value) :=
  goes_fits (Nat.lt_trans small (by decide))

theorem Image.length_le (image : Image) : image.b.length ≤ 2 ^ 26 := image.short

theorem peOpen_goes (image : Image) : Goes (peOpen image) fun opened =>
    ∀ pe, opened = some pe → pe.b = image.b := by
  have short := image.length_le
  have nothing : Goes (pure none : Checked (Option Pe)) fun opened =>
      ∀ pe, opened = some pe → pe.b = image.b := goes_pure nofun
  have accepted : ∀ pe : Pe, pe.b = image.b → Goes (pure (some pe) : Checked (Option Pe))
      fun opened => ∀ pe, opened = some pe → pe.b = image.b := by
    intro pe same
    refine goes_pure ?_
    rintro _ ⟨⟩
    exact same
  unfold peOpen
  split
  · exact nothing
  · rename_i long
    refine (goes_byteAt (by omega)).bind ?_
    rintro _ rfl
    refine (goes_byteAt (by omega)).bind ?_
    rintro _ rfl
    split
    · exact nothing
    · have bound := le32_lt image.b 0x3c
      refine (goes_rd32 (by omega)).bind ?_
      rintro _ rfl
      generalize le32 image.b 0x3c = pe at bound ⊢
      refine (goes_size (by omega)).bind ?_
      rintro _ rfl
      split
      · exact nothing
      · refine (goes_rangeAt (by omega)).bind ?_
        rintro _ rfl
        split
        · exact nothing
        · refine (goes_rd16 (by omega)).bind ?_
          rintro machine -
          have few := le16_lt image.b (pe + 6)
          refine (goes_rd16 (by omega)).bind ?_
          rintro _ rfl
          have narrow := le16_lt image.b (pe + 20)
          refine (goes_rd16 (by omega)).bind ?_
          rintro _ rfl
          refine (goes_fits (by omega)).bind ?_
          rintro _ rfl
          refine (goes_rd16 (by omega)).bind ?_
          rintro magic -
          split
          · exact nothing
          · have wide : (if decide (magic = 0x20b) = true then 112 else 96) ≤ 112 := by
              split <;> omega
            refine (goes_size (by omega)).bind ?_
            rintro _ -
            refine (goes_rd32 (by omega)).bind ?_
            rintro _ rfl
            refine (goes_size (by omega)).bind ?_
            rintro _ -
            refine (goes_size (by omega)).bind ?_
            rintro _ -
            refine (goes_size (by omega)).bind ?_
            rintro _ -
            split <;> split
            · exact nothing
            · exact accepted _ rfl
            · exact nothing
            · exact accepted _ rfl

/-! ### The signature hash -/

theorem Pe.length_le (pe : Pe) : pe.b.length ≤ 2 ^ 26 := pe.short

/-- The header of a section is inside the file. -/
theorem secHdr_inside (pe : Pe) (within : i < pe.nsec) : secHdr pe i + 40 ≤ pe.b.length := by
  have table := pe.table
  unfold secHdr
  omega

theorem digestUpdate_goes (inside : start + count ≤ pe.b.length) :
    Goes (digestUpdate pe start count) (· = ⟨start, count⟩) :=
  (goes_rangeAt inside).bind fun _ _ => goes_pure rfl

/-- What a section header says of the section's place in the file. -/
def sectionSpan (pe : Pe) (i : Nat) : Span :=
  ⟨le32 pe.b (secHdr pe i + 20), le32 pe.b (secHdr pe i + 16)⟩

/-- The sections that are not empty. -/
def rawSpans (pe : Pe) (order : List Nat) : List Span :=
  (order.map (sectionSpan pe)).filter (·.count ≠ 0)

def LaterFirst (pe : Pe) (order : List Nat) : Prop :=
  order.Pairwise fun i j => (sectionSpan pe j).start ≤ (sectionSpan pe i).start

theorem insertSection_goes (own : i < pe.nsec) (within : ∀ prev ∈ order, prev < pe.nsec) :
    Goes (insertSection pe i order) fun sorted =>
      sorted.Perm (i :: order) ∧ (LaterFirst pe order → LaterFirst pe sorted) := by
  induction order with
  | nil => exact goes_pure ⟨.refl _, fun _ => List.pairwise_singleton _ _⟩
  | cons prev before ih =>
      have header := secHdr_inside pe (within prev List.mem_cons_self)
      have ownHeader := secHdr_inside pe own
      refine (goes_rd32 (by omega)).bind ?_
      rintro _ rfl
      refine (goes_rd32 (by omega)).bind ?_
      rintro _ rfl
      split
      · rename_i less
        refine (ih fun other among => within other (List.mem_cons_of_mem _ among)).bind ?_
        rintro rest ⟨perm, ordered⟩
        refine goes_pure ⟨(perm.cons prev).trans (.swap i prev before), ?_⟩
        intro sorted
        obtain ⟨first, later⟩ := List.pairwise_cons.mp sorted
        refine List.pairwise_cons.mpr ⟨?_, ordered later⟩
        intro j inside
        rcases List.mem_cons.mp (perm.subset inside) with rfl | among
        · exact Nat.le_of_lt less
        · exact first j among
      · rename_i least
        refine goes_pure ⟨.refl _, ?_⟩
        intro sorted
        refine List.pairwise_cons.mpr ⟨?_, sorted⟩
        have near : (sectionSpan pe prev).start ≤ (sectionSpan pe i).start := Nat.le_of_not_lt least
        intro j inside
        rcases List.mem_cons.mp inside with rfl | among
        · exact near
        · exact Nat.le_trans ((List.pairwise_cons.mp sorted).1 j among) near

/-- The insertions sort the first sections. -/
theorem sortSections_goes (within : n ≤ pe.nsec) :
    Goes (sortSections pe n) fun sorted => sorted.Perm (List.range n) ∧ LaterFirst pe sorted := by
  induction n with
  | zero => exact goes_pure ⟨.refl _, .nil⟩
  | succ n ih =>
      refine (ih (by omega)).bind ?_
      rintro sorted ⟨perm, ordered⟩
      have earlier : ∀ prev ∈ sorted, prev < pe.nsec := by
        intro prev inside
        have := List.mem_range.mp (perm.subset inside)
        omega
      refine (insertSection_goes within earlier).mono ?_
      rintro more ⟨added, kept⟩
      refine ⟨?_, kept ordered⟩
      rw [List.range_succ]
      exact (added.trans (perm.cons n)).trans (List.perm_append_singleton n _).symm

/-- The sections that are hashed are those with data, and each adds its size to the total. -/
theorem hashSections_goes (within : ∀ j ∈ order, j < pe.nsec)
    (small : total + order.length * 2 ^ 26 ≤ 2 ^ 35) :
    Goes (hashSections pe order total) fun hashed =>
      (∀ found, hashed = some found →
        found = (rawSpans pe order, total + covered (rawSpans pe order))) ∧
      (hashed = none → ∃ span ∈ rawSpans pe order, pe.b.length < span.start + span.count) := by
  induction order generalizing total with
  | nil =>
      refine goes_pure ⟨?_, nofun⟩
      rintro _ ⟨⟩
      rfl
  | cons i rest ih =>
      have header := secHdr_inside pe (within i List.mem_cons_self)
      have short := pe.length_le
      rw [List.length_cons] at small
      have later := fun j among => within j (List.mem_cons_of_mem i among)
      refine (goes_rd32 (by omega)).bind ?_
      rintro _ rfl
      refine (goes_rd32 (by omega)).bind ?_
      rintro _ rfl
      have less : total + rest.length * 2 ^ 26 ≤ total + (rest.length + 1) * 2 ^ 26 :=
        Nat.add_le_add_left (Nat.mul_le_mul_right _ (Nat.le_succ _)) _
      have count := le32_lt pe.b (secHdr pe i + 16)
      have place := le32_lt pe.b (secHdr pe i + 20)
      split
      · rename_i empty
        have skipped : rawSpans pe (i :: rest) = rawSpans pe rest :=
          List.filter_cons_of_neg (by simp [sectionSpan, empty])
        rw [skipped]
        exact ih later (Nat.le_trans less small)
      · rename_i some
        have taken : rawSpans pe (i :: rest) = sectionSpan pe i :: rawSpans pe rest :=
          List.filter_cons_of_pos (by simp [sectionSpan, some])
        rw [taken]
        refine (goes_size (by omega)).bind ?_
        rintro _ rfl
        split
        · rename_i past
          refine goes_pure ⟨nofun, fun _ => ⟨_, List.mem_cons_self, past⟩⟩
        · refine (digestUpdate_goes (by omega)).bind ?_
          rintro _ rfl
          refine (goes_size (by omega)).bind ?_
          rintro _ rfl
          have smaller : total + le32 pe.b (secHdr pe i + 16) + rest.length * 2 ^ 26 ≤ 2 ^ 35 := by
            omega
          refine (ih later smaller).bind ?_
          rintro hashed ⟨found, failed⟩
          refine goes_pure ⟨?_, ?_⟩
          · intro both same
            obtain ⟨inner, within, rfl⟩ := Option.map_eq_some_iff.mp same
            cases found inner within
            refine Prod.ext rfl ?_
            change _ = total + covered (sectionSpan pe i :: rawSpans pe rest)
            rw [covered_cons, ← Nat.add_assoc]
            rfl
          · intro same
            obtain ⟨span, among, past⟩ := failed (Option.map_eq_none_iff.mp same)
            exact ⟨span, List.mem_cons_of_mem _ among, past⟩

theorem tailEnd_goes : Goes (tailEnd pe certSize) (· ≤ pe.b.length) := by
  unfold tailEnd
  split
  · rename_i cert
    exact (goes_minus cert.2).mono fun stop same => by omega
  · exact goes_pure (Nat.le_refl _)

theorem hashTail_goes : Goes (hashTail pe certSize total) fun _ => True := by
  unfold hashTail
  split
  · refine tailEnd_goes.bind ?_
    intro stop bound
    split
    · refine (goes_minus (by omega)).bind ?_
      rintro _ rfl
      refine (digestUpdate_goes (by omega)).bind ?_
      rintro _ -
      exact goes_pure trivial
    · exact goes_pure trivial
  · exact goes_pure trivial

/-- The sections that are hashed, unless there is room for less. -/
def hashedCount (pe : Pe) : Nat := if 96 < pe.nsec then 96 else pe.nsec

/-- The hash covers the headers without the checksum and the certificate entry, the sections
in the order of the file, and what `hashTail` adds. -/
theorem peSha256_goes (pe : Pe) : Goes (peSha256 pe) fun hashed =>
    (∀ spans, hashed = some spans → ∃ order tail, order.Perm (List.range (hashedCount pe)) ∧
      order.Pairwise (fun i j => (sectionSpan pe i).start ≤ (sectionSpan pe j).start) ∧
      hashTail pe (le32 pe.b (pe.dd + 4 * 8 + 4))
        (pe.sizeOfHeaders + covered (rawSpans pe order)) = .ok tail ∧
      pe.dd + 4 * 8 + 8 ≤ pe.sizeOfHeaders ∧
      spans = ⟨0, pe.opt + 64⟩ :: ⟨pe.opt + 64 + 4, pe.dd + 4 * 8 - (pe.opt + 64 + 4)⟩ ::
        ⟨pe.dd + 4 * 8 + 8, pe.sizeOfHeaders - (pe.dd + 4 * 8 + 8)⟩ :: rawSpans pe order ++ tail) ∧
    (hashed = none → pe.b.length < pe.sizeOfHeaders ∨ pe.sizeOfHeaders < pe.dd + 4 * 8 + 8 ∨
      ∃ span ∈ rawSpans pe (List.range pe.nsec), pe.b.length < span.start + span.count) := by
  have gap := pe.gap
  have dirs := pe.dirs
  have short := pe.length_le
  unfold peSha256
  refine (goes_size (by omega)).bind ?_
  rintro _ rfl
  refine (goes_size (by omega)).bind ?_
  rintro _ rfl
  refine (goes_rd32 (by omega)).bind ?_
  rintro _ -
  refine (goes_rd32 (by omega)).bind ?_
  rintro _ rfl
  refine (goes_size (by omega)).bind ?_
  rintro _ rfl
  split
  · rename_i refused
    exact goes_pure ⟨nofun, fun _ => by omega⟩
  · rename_i headers
    refine (digestUpdate_goes (by omega)).bind ?_
    rintro _ rfl
    refine (goes_minus (by omega)).bind ?_
    rintro _ rfl
    refine (digestUpdate_goes (by omega)).bind ?_
    rintro _ rfl
    refine (goes_minus (by omega)).bind ?_
    rintro _ rfl
    refine (digestUpdate_goes (by omega)).bind ?_
    rintro _ rfl
    have counted : hashedCount pe ≤ pe.nsec ∧ hashedCount pe ≤ 96 := by
      unfold hashedCount
      split <;> omega
    refine (sortSections_goes counted.1).bind ?_
    rintro sorted ⟨perm, ordered⟩
    have turned : sorted.reverse.Perm (List.range (hashedCount pe)) :=
      (List.reverse_perm sorted).trans perm
    have few : sorted.reverse.length ≤ 96 := by
      rw [turned.length_eq, List.length_range]
      exact counted.2
    have small : pe.sizeOfHeaders + sorted.reverse.length * 2 ^ 26 ≤ 2 ^ 35 := by
      have product := Nat.mul_le_mul_right (2 ^ 26) few
      omega
    have within : ∀ j ∈ sorted.reverse, j < pe.nsec := by
      intro j inside
      have := List.mem_range.mp (turned.subset inside)
      omega
    refine (hashSections_goes within small).bind ?_
    rintro hashed ⟨found, failed⟩
    cases hashed with
    | none =>
        refine goes_pure ⟨nofun, fun _ => ?_⟩
        obtain ⟨span, inside, past⟩ := failed rfl
        refine Or.inr (Or.inr ⟨span, ?_, past⟩)
        obtain ⟨among, nonempty⟩ := List.mem_filter.mp inside
        obtain ⟨j, listed, rfl⟩ := List.mem_map.mp among
        exact List.mem_filter.mpr
          ⟨List.mem_map.mpr ⟨j, List.mem_range.mpr (within j listed), rfl⟩, nonempty⟩
    | some both =>
        cases found both rfl
        obtain ⟨tail, ran, -⟩ := @hashTail_goes pe
          (pe.sizeOfHeaders + covered (rawSpans pe sorted.reverse)) (le32 pe.b (pe.dd + 4 * 8 + 4))
        dsimp only
        rw [ran]
        refine goes_pure ⟨?_, nofun⟩
        rintro _ ⟨⟩
        exact ⟨sorted.reverse, tail, turned, List.pairwise_reverse.mpr ordered, ran, by omega, rfl⟩

/-! ### Sections and resources -/

theorem sectionText_goes (within : i + left ≤ pe.nsec) :
    Goes (sectionText pe name left i) fun found => ∀ copy, found = some copy →
      ∃ text, copy = text ++ [0] := by
  induction left generalizing i with
  | zero => exact goes_pure nofun
  | succ left ih =>
      have header := secHdr_inside pe (show i < pe.nsec by omega)
      have short := pe.length_le
      refine (goes_rangeAt (by omega)).bind ?_
      rintro _ -
      split
      · exact ih (by omega)
      · have virtual := le32_lt pe.b (secHdr pe i + 8)
        have raw := le32_lt pe.b (secHdr pe i + 16)
        have place := le32_lt pe.b (secHdr pe i + 20)
        refine (goes_rd32 (by omega)).bind ?_
        rintro _ rfl
        refine (goes_rd32 (by omega)).bind ?_
        rintro _ rfl
        refine (goes_rd32 (by omega)).bind ?_
        rintro _ rfl
        have count : (if le32 pe.b (secHdr pe i + 8) ≠ 0 ∧
            le32 pe.b (secHdr pe i + 8) < le32 pe.b (secHdr pe i + 16) then
              le32 pe.b (secHdr pe i + 8) else le32 pe.b (secHdr pe i + 16)) < 2 ^ 32 := by
          split <;> omega
        dsimp only
        generalize (if le32 pe.b (secHdr pe i + 8) ≠ 0 ∧
          le32 pe.b (secHdr pe i + 8) < le32 pe.b (secHdr pe i + 16) then
            le32 pe.b (secHdr pe i + 8) else le32 pe.b (secHdr pe i + 16)) = n at count ⊢
        refine (goes_size (by omega)).bind ?_
        rintro _ rfl
        split
        · exact goes_pure nofun
        · refine (goes_size (by omega)).bind ?_
          rintro _ -
          refine (goes_rangeAt (by omega)).bind ?_
          rintro text -
          refine goes_pure ?_
          rintro _ ⟨⟩
          exact ⟨text, rfl⟩

theorem peSectionText_goes (pe : Pe) (name : CString) :
    Goes (peSectionText pe name) fun found => ∀ copy, found = some copy →
      ∃ text, copy = text ++ [0] :=
  sectionText_goes (Nat.le_of_eq (Nat.zero_add _))

theorem findRva_goes (within : i + left ≤ pe.nsec) :
    Goes (findRva pe rva left i) fun found => ∀ off, found = some off → off < pe.b.length := by
  induction left generalizing i with
  | zero => exact goes_pure nofun
  | succ left ih =>
      have header := secHdr_inside pe (show i < pe.nsec by omega)
      have virtual := le32_lt pe.b (secHdr pe i + 8)
      have raw := le32_lt pe.b (secHdr pe i + 16)
      have place := le32_lt pe.b (secHdr pe i + 20)
      refine (goes_rd32 (by omega)).bind ?_
      rintro _ rfl
      refine (goes_rd32 (by omega)).bind ?_
      rintro _ rfl
      refine (goes_rd32 (by omega)).bind ?_
      rintro _ rfl
      refine (goes_rd32 (by omega)).bind ?_
      rintro _ rfl
      have span : (if le32 pe.b (secHdr pe i + 16) < le32 pe.b (secHdr pe i + 8) then
          le32 pe.b (secHdr pe i + 8) else le32 pe.b (secHdr pe i + 16)) < 2 ^ 32 := by
        split <;> omega
      dsimp only
      generalize (if le32 pe.b (secHdr pe i + 16) < le32 pe.b (secHdr pe i + 8) then
        le32 pe.b (secHdr pe i + 8) else le32 pe.b (secHdr pe i + 16)) = span at span ⊢
      split
      · exact ih (by omega)
      · refine (goes_minus (by omega)).bind ?_
        rintro _ rfl
        split
        · refine (goes_size (by omega)).bind ?_
          rintro _ rfl
          refine goes_pure ?_
          intro off same
          split at same
          · cases same
            assumption
          · cases same
        · exact ih (by omega)

theorem rvaToOff_goes (pe : Pe) (rva : Nat) :
    Goes (rvaToOff pe rva) fun found => ∀ off, found = some off → off < pe.b.length :=
  findRva_goes (Nat.le_of_eq (Nat.zero_add _))

theorem sameName_goes (inside : index + 2 * name.length ≤ pe.b.length) :
    Goes (sameName pe name index) fun _ => True := by
  induction name generalizing index with
  | nil => exact goes_pure trivial
  | cons char rest ih =>
      rw [List.length_cons] at inside
      refine (goes_rd16 (by omega)).bind ?_
      rintro _ -
      split
      · exact goes_pure trivial
      · exact ih (by omega)

theorem entryMatches_goes {inside : Bool} (within : root < pe.b.length) :
    Goes (entryMatches pe root nm name inside) fun _ => True := by
  have short := pe.length_le
  have offset : nm % 2 ^ 31 < 2 ^ 31 := Nat.mod_lt _ (by decide)
  unfold entryMatches
  split
  · unfold entryNamed
    refine (goes_size (by omega)).bind ?_
    rintro _ rfl
    refine (goes_size (by omega)).bind ?_
    rintro _ rfl
    split
    · exact goes_pure trivial
    · have units := le16_lt pe.b (root + nm % 2 ^ 31)
      refine (goes_rd16 (by omega)).bind ?_
      rintro _ rfl
      split
      · exact goes_pure trivial
      · refine (goes_size (by omega)).bind ?_
        rintro _ rfl
        split
        · exact goes_pure trivial
        · exact sameName_goes (by omega)
  · exact goes_pure trivial

/-- The entries of a directory, wherever it stands and whatever is below it. -/
theorem rsrcEntries_goes {inside : Bool} {below : Nat → Bool → Checked (Option (Nat × Nat))}
    (within : root < pe.b.length) (near : dir < 2 ^ 33) (few : i + left ≤ 512)
    (deeper : ∀ child matched, child < 2 ^ 33 → Goes (below child matched) fun _ => True) :
    Goes (rsrcEntries pe root dir name inside below left i) fun _ => True := by
  have short := pe.length_le
  induction left generalizing i with
  | zero => exact goes_pure trivial
  | succ left ih =>
      refine (goes_size (by omega)).bind ?_
      rintro _ rfl
      refine (goes_size (by omega)).bind ?_
      rintro _ rfl
      split
      · exact goes_pure trivial
      · refine (goes_rd32 (by omega)).bind ?_
        rintro _ rfl
        refine (goes_rd32 (by omega)).bind ?_
        rintro _ rfl
        refine (entryMatches_goes within).bind ?_
        rintro matched -
        have offset := le32_lt pe.b (dir + 16 + i * 8 + 4)
        split
        · have low : le32 pe.b (dir + 16 + i * 8 + 4) % 2 ^ 31 < 2 ^ 31 :=
            Nat.mod_lt _ (by decide)
          refine (goes_size (by omega)).bind ?_
          rintro _ rfl
          refine (deeper _ matched (by omega)).bind ?_
          rintro found -
          cases found with
          | some leaf => exact goes_pure trivial
          | none => exact ih (by omega)
        · split
          · refine (goes_size (by omega)).bind ?_
            rintro _ rfl
            refine (goes_size (by omega)).bind ?_
            rintro _ rfl
            split
            · exact goes_pure trivial
            · refine (goes_rd32 (by omega)).bind ?_
              rintro _ -
              refine (goes_rd32 (by omega)).bind ?_
              rintro _ -
              exact goes_pure trivial
          · exact ih (by omega)

/-- The walk through the tree, cyclic or not. -/
theorem rsrcFind_goes {levels : Nat} {inside : Bool} (within : root < pe.b.length)
    (near : dir < 2 ^ 33) : Goes (rsrcFind pe root name levels dir inside) fun _ => True := by
  have short := pe.length_le
  induction levels generalizing dir inside with
  | zero => exact goes_pure trivial
  | succ levels ih =>
      refine (goes_size (by omega)).bind ?_
      rintro _ rfl
      split
      · exact goes_pure trivial
      · have named := le16_lt pe.b (dir + 12)
        have ids := le16_lt pe.b (dir + 14)
        refine (goes_rd16 (by omega)).bind ?_
        rintro _ rfl
        refine (goes_rd16 (by omega)).bind ?_
        rintro _ rfl
        refine (goes_fits (by omega)).bind ?_
        rintro _ rfl
        split
        · exact goes_pure trivial
        · exact rsrcEntries_goes within near (by omega) fun child matched small => ih small

theorem readSig_goes (openssl : Openssl) (pe : Pe) : Goes (readSig pe openssl) fun _ => True := by
  have dirs := pe.dirs
  have short := pe.length_le
  have place := le32_lt pe.b (pe.dd + 4 * 8)
  have count := le32_lt pe.b (pe.dd + 4 * 8 + 4)
  unfold readSig
  refine (goes_size (by omega)).bind ?_
  rintro _ rfl
  refine (goes_rd32 (by omega)).bind ?_
  rintro _ rfl
  refine (goes_rd32 (by omega)).bind ?_
  rintro _ rfl
  refine (goes_size (by omega)).bind ?_
  rintro _ rfl
  split
  · exact goes_pure trivial
  · refine (goes_rd32 (by omega)).bind ?_
    rintro _ rfl
    split
    · exact goes_pure trivial
    · refine (goes_rd16 (by omega)).bind ?_
      rintro _ -
      split
      · exact goes_pure trivial
      · refine (goes_minus (by omega)).bind ?_
        rintro _ rfl
        refine (goes_rangeAt (by omega)).bind ?_
        rintro _ -
        exact goes_pure trivial

/-! ### The checks -/

theorem revokedBySbat_goes (sbatLevel : CString) (pe : Pe) :
    Goes (revokedBySbat sbatLevel pe) fun _ => True := by
  refine (peSectionText_goes pe _).bind ?_
  intro found terminated
  cases found with
  | none => exact goes_pure trivial
  | some copy =>
      obtain ⟨text, rfl⟩ := terminated copy rfl
      exact (goes_stringIn text 0).bind fun _ _ => goes_pure trivial

theorem svnLevels_goes {levels : List Level} (within : root < pe.b.length) :
    Goes (svnLevels pe root levels) fun _ => True := by
  have short := pe.length_le
  induction levels with
  | nil => exact goes_pure trivial
  | cons level rest ih =>
      unfold svnLevels
      split
      · exact ih
      · refine (rsrcFind_goes within (by omega)).bind ?_
        rintro leaf -
        cases leaf with
        | none => exact ih
        | some leaf =>
            dsimp only
            split
            · exact ih
            · refine (rvaToOff_goes pe leaf.1).bind ?_
              intro off bound
              cases off with
              | none => exact ih
              | some o =>
                  have := bound o rfl
                  dsimp only
                  refine (goes_size (by omega)).bind ?_
                  rintro _ rfl
                  split
                  · exact ih
                  · refine (goes_rd32 (by omega)).bind ?_
                    rintro _ -
                    split
                    · exact goes_pure trivial
                    · exact ih

theorem revokedBySvn_goes (sbatLevel : CString) (pe : Pe) :
    Goes (revokedBySvn sbatLevel pe) fun _ => True := by
  have dirs := pe.dirs
  refine (goes_rd32 (by omega)).bind ?_
  rintro rr -
  refine (goes_rd32 (by omega)).bind ?_
  rintro _ -
  split
  · exact goes_pure trivial
  · refine (rvaToOff_goes pe rr).bind ?_
    intro root bound
    cases root with
    | none => exact goes_pure trivial
    | some root => exact svnLevels_goes (bound root rfl)

end Reader

/-- What goes through for an executable that is accepted: the hash, any section's text, any
address, any walk through the resource tree, the signature and the checks. -/
structure Inspects (pe : Pe) : Prop where
  hash : Goes (peSha256 pe) fun _ => True
  text : ∀ name, Goes (peSectionText pe name) fun _ => True
  address : ∀ rva, Goes (rvaToOff pe rva) fun found => ∀ off ∈ found, off < pe.b.length
  tree : ∀ root name levels dir inside, root < pe.b.length → dir < 2 ^ 33 →
    Goes (rsrcFind pe root name levels dir inside) fun _ => True
  signature : ∀ openssl, Goes (readSig pe openssl) fun _ => True
  components : ∀ sbatLevel, Goes (revokedBySbat sbatLevel pe) fun _ => True
  version : ∀ sbatLevel, Goes (revokedBySvn sbatLevel pe) fun _ => True

/-- Whatever the bytes of a file are, opening it as an executable and inspecting it reads
inside the buffer, and no offset wraps. -/
theorem peInspection_bounded (image : Image) :
    Goes (peOpen image) fun opened => ∀ pe ∈ opened, pe.b = image.b ∧ Inspects pe := by
  refine (peOpen_goes image).mono ?_
  intro opened same pe accepted
  refine ⟨same pe accepted, ?_⟩
  exact
    { hash := (peSha256_goes pe).mono fun _ _ => trivial
      text := fun name => (peSectionText_goes pe name).mono fun _ _ => trivial
      address := rvaToOff_goes pe
      tree := fun root name levels dir inside within near => rsrcFind_goes within near
      signature := fun openssl => readSig_goes openssl pe
      components := fun sbatLevel => revokedBySbat_goes sbatLevel pe
      version := fun sbatLevel => revokedBySvn_goes sbatLevel pe }

end Rufux.Bootcheck
