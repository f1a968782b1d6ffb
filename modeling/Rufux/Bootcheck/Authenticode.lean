import Rufux.Bootcheck.PeBounds

/-!
The bytes that the signature hash covers, against those that a signature is over: the file
without the checksum, the certificate entry and the certificate table.
-/

namespace Rufux.Bootcheck

open Library

section Layout

variable (pe : Pe)

/-- The entry of the certificate table in the data directories. -/
def secDir : Nat := pe.dd + 4 * 8

def certOff : Nat := le32 pe.b (secDir pe)

def certSize : Nat := le32 pe.b (secDir pe + 4)

/-- Where the certificate table starts, or the file ends. -/
def certStart : Nat := if certSize pe = 0 then pe.b.length else certOff pe

/-- The positions that a signature is over. -/
def signedPositions : List Nat :=
  (List.range pe.b.length).filter fun p =>
    ¬ (pe.opt + 64 ≤ p ∧ p < pe.opt + 64 + 4) ∧ ¬ (secDir pe ≤ p ∧ p < secDir pe + 8) ∧
      p < certStart pe

/-- The raw data of the sections fills the file from the headers on, in some order, and the
certificate table ends it. -/
structure Laid : Prop where
  entry : secDir pe + 8 ≤ pe.sizeOfHeaders
  headers : pe.sizeOfHeaders ≤ pe.b.length
  certificates : certSize pe ≠ 0 → certOff pe + certSize pe = pe.b.length
  sections : ∃ spans stop, spans.Perm (rawSpans pe (List.range pe.nsec)) ∧
    Tiles pe.sizeOfHeaders spans stop ∧ stop ≤ certStart pe

/-- Each of these positions is hashed once, in their order, and no other one is. -/
def HashesSigned : Prop :=
  ∃ spans, peSha256 pe = .ok (some spans) ∧ positions spans = signedPositions pe

/-- Of the sections with data, those behind the 96th of the table are behind the others in
the file. -/
def FirstSectionsFirst : Prop :=
  ∀ i j, i < 96 → 96 ≤ j → j < pe.nsec → (sectionSpan pe i).count ≠ 0 →
    (sectionSpan pe j).count ≠ 0 → (sectionSpan pe i).start < (sectionSpan pe j).start

end Layout

section Coverage

variable {pe : Pe} {total : Nat} {order : List Nat} {spans : List Span}

theorem Laid.certStart_le (laid : Laid pe) : certStart pe ≤ pe.b.length := by
  unfold certStart
  split
  · exact Nat.le_refl _
  · rename_i some
    have := laid.certificates some
    omega

theorem range'_join {start count middle stop : Nat} (meets : start + count = middle)
    (inside : middle ≤ stop) : List.range' start count ++ List.range' middle (stop - middle) =
      List.range' start (stop - start) := by
  subst meets
  have whole : stop - start = count + (stop - (start + count)) := by omega
  rw [whole, List.range'_append_1]

/-- A file in seven stretches: a field of four bytes, one of eight, a border and an end. -/
theorem range_stretches {chk dir border stop length : Nat} (first : chk + 4 ≤ dir)
    (second : dir + 8 ≤ border) (third : border ≤ stop) (fourth : stop ≤ length) :
    List.range length = List.range' 0 chk ++ (List.range' chk 4 ++
      (List.range' (chk + 4) (dir - (chk + 4)) ++ (List.range' dir 8 ++
        (List.range' (dir + 8) (border - (dir + 8)) ++ (List.range' border (stop - border) ++
          List.range' stop (length - stop)))))) := by
  rw [range'_join (by omega) fourth, range'_join (by omega) (by omega), range'_join rfl (by omega),
    range'_join (by omega) (by omega), range'_join rfl (by omega), range'_join (by omega) (by omega),
    List.range_eq_range', Nat.sub_zero]

theorem filter_stretches {chk dir border stop length : Nat} (first : chk + 4 ≤ dir)
    (second : dir + 8 ≤ border) (third : border ≤ stop) (fourth : stop ≤ length) :
    (List.range length).filter (fun p =>
        ¬ (chk ≤ p ∧ p < chk + 4) ∧ ¬ (dir ≤ p ∧ p < dir + 8) ∧ p < stop) =
      List.range' 0 chk ++ (List.range' (chk + 4) (dir - (chk + 4)) ++
        (List.range' (dir + 8) (border - (dir + 8)) ++ List.range' border (stop - border))) := by
  have kept : ∀ {start count : Nat} {q : Nat → Bool},
      (∀ p, start ≤ p → p < start + count → q p = true) →
        (List.range' start count).filter q = List.range' start count := by
    intro start count q all
    rw [List.filter_eq_self]
    intro p inside
    exact all p (List.mem_range'_1.mp inside).1 (List.mem_range'_1.mp inside).2
  have dropped : ∀ {start count : Nat} {q : Nat → Bool},
      (∀ p, start ≤ p → p < start + count → q p = false) →
        (List.range' start count).filter q = [] := by
    intro start count q all
    rw [List.filter_eq_nil_iff]
    intro p inside
    rw [all p (List.mem_range'_1.mp inside).1 (List.mem_range'_1.mp inside).2]
    exact Bool.false_ne_true
  rw [range_stretches first second third fourth]
  simp only [List.filter_append]
  rw [kept fun p low high => ?_, dropped fun p low high => ?_, kept fun p low high => ?_,
    dropped fun p low high => ?_, kept fun p low high => ?_, kept fun p low high => ?_,
    dropped fun p low high => ?_]
  · rw [List.nil_append, List.nil_append, List.append_nil]
  all_goals
    simp only [decide_eq_true_eq, decide_eq_false_iff_not]
    omega

/-- The signed positions before the sections, and all those from there on. -/
theorem signedPositions_eq (laid : Laid pe) : signedPositions pe =
    List.range' 0 (pe.opt + 64) ++ (List.range' (pe.opt + 64 + 4) (secDir pe - (pe.opt + 64 + 4)) ++
      (List.range' (secDir pe + 8) (pe.sizeOfHeaders - (secDir pe + 8)) ++
        List.range' pe.sizeOfHeaders (certStart pe - pe.sizeOfHeaders))) := by
  have gap := pe.gap
  obtain ⟨tiled, last, perm, tiles, within⟩ := laid.sections
  have behind : pe.sizeOfHeaders ≤ certStart pe := by
    have := tiles.length
    omega
  have chk : pe.opt + 64 + 4 ≤ secDir pe := by
    unfold secDir
    omega
  exact filter_stretches chk laid.entry behind laid.certStart_le

/-- Behind the sections the hash goes on up to the certificate table. -/
theorem hashTail_positions (laid : Laid pe) (within : total ≤ certStart pe) :
    Goes (hashTail pe (certSize pe) total) fun tail =>
      positions tail = List.range' total (certStart pe - total) := by
  have bound := laid.certStart_le
  have ended : Goes (tailEnd pe (certSize pe)) (· = certStart pe) := by
    unfold tailEnd certStart
    by_cases none : certSize pe = 0
    · rw [if_pos none, if_neg (by omega)]
      exact goes_pure rfl
    · have some := laid.certificates none
      rw [if_neg none, if_pos (by omega)]
      exact (goes_minus (by omega)).mono fun stop same => by omega
  unfold hashTail
  split
  · refine ended.bind ?_
    rintro _ rfl
    split
    · refine (goes_minus (by omega)).bind ?_
      rintro _ rfl
      refine (digestUpdate_goes (by omega)).bind ?_
      rintro _ rfl
      exact goes_pure (List.append_nil _)
    · have nothing : certStart pe - total = 0 := by omega
      rw [nothing]
      exact goes_pure rfl
  · have nothing : certStart pe - total = 0 := by omega
    rw [nothing]
    exact goes_pure rfl

theorem rawSpans_append (more : List Nat) :
    rawSpans pe (order ++ more) = rawSpans pe order ++ rawSpans pe more := by
  rw [rawSpans, List.map_append, List.filter_append]
  rfl

theorem mem_rawSpans {span : Span} : span ∈ rawSpans pe order ↔
    ∃ i ∈ order, sectionSpan pe i = span ∧ span.count ≠ 0 := by
  rw [rawSpans, List.mem_filter, List.mem_map]
  simp only [decide_eq_true_eq]
  exact ⟨fun ⟨⟨i, inside, same⟩, data⟩ => ⟨i, inside, same, data⟩,
    fun ⟨i, inside, same, data⟩ => ⟨⟨i, inside, same⟩, data⟩⟩

theorem rawSpans_perm {other : List Nat} (perm : order.Perm other) :
    (rawSpans pe order).Perm (rawSpans pe other) :=
  (perm.map _).filter _

/-- The sections behind those that are hashed one by one. -/
def laterSections (pe : Pe) : List Nat :=
  List.range' (hashedCount pe) (pe.nsec - hashedCount pe)

theorem mem_hashed {i : Nat} : i ∈ List.range (hashedCount pe) ↔ i < 96 ∧ i < pe.nsec := by
  unfold hashedCount
  rw [List.mem_range]
  split <;> omega

theorem mem_laterSections {j : Nat} : j ∈ laterSections pe ↔ 96 ≤ j ∧ j < pe.nsec := by
  unfold laterSections hashedCount
  rw [List.mem_range'_1]
  split <;> omega

/-- The hashed sections and the later ones are all sections. -/
theorem sections_split (laid : Laid pe) (perm : order.Perm (List.range (hashedCount pe))) :
    ∃ tiled stop, tiled.Perm (rawSpans pe order ++ rawSpans pe (laterSections pe)) ∧
      Tiles pe.sizeOfHeaders tiled stop ∧ stop ≤ certStart pe ∧
      tiled.Pairwise (fun first second => first.start < second.start) := by
  obtain ⟨tiled, stop, same, tiles, within⟩ := laid.sections
  have all : List.range pe.nsec = List.range (hashedCount pe) ++ laterSections pe := by
    have count : pe.nsec = hashedCount pe + (pe.nsec - hashedCount pe) := by
      unfold hashedCount
      split <;> omega
    unfold laterSections
    have join := @List.range'_append_1 0 (hashedCount pe) (pe.nsec - hashedCount pe)
    rw [Nat.zero_add, ← count] at join
    rw [List.range_eq_range', List.range_eq_range']
    exact join.symm
  refine ⟨tiled, stop, ?_, tiles, within, tiles.increasing ?_⟩
  · rw [all, rawSpans_append] at same
    exact same.trans ((rawSpans_perm perm).symm.append_right _)
  · intro span inside
    obtain ⟨-, -, -, data⟩ := mem_rawSpans.mp (same.subset inside)
    exact data

/-- Where the first sections come first, the hashed ones fill the file from the headers on. -/
theorem tiles_of_firstSectionsFirst (laid : Laid pe) (first : FirstSectionsFirst pe)
    (perm : order.Perm (List.range (hashedCount pe)))
    (sorted : order.Pairwise fun i j => (sectionSpan pe i).start ≤ (sectionSpan pe j).start) :
    Tiles pe.sizeOfHeaders (rawSpans pe order) (pe.sizeOfHeaders + covered (rawSpans pe order)) := by
  obtain ⟨tiled, stop, same, tiles, -, increasing⟩ := sections_split laid perm
  let later := (rawSpans pe (laterSections pe)).mergeSort fun first second =>
    decide (first.start ≤ second.start)
  have laterPerm : later.Perm (rawSpans pe (laterSections pe)) := List.mergeSort_perm _ _
  have rejoined : (rawSpans pe order ++ later).Perm tiled :=
    (laterPerm.append_left _).trans same.symm
  have weakly : (rawSpans pe order ++ later).Pairwise fun first second =>
      first.start ≤ second.start := by
    rw [List.pairwise_append]
    refine ⟨?_, ?_, ?_⟩
    · have mapped : (order.map (sectionSpan pe)).Pairwise fun first second =>
          first.start ≤ second.start := List.pairwise_map.mpr sorted
      exact mapped.filter _
    · have := (@List.pairwise_mergeSort _ (fun first second : Span => decide (first.start ≤ second.start))) (by intros; simp_all; omega) (by intros; simp; omega)
        (rawSpans pe (laterSections pe))
      simpa using this
    · intro early inside late among
      obtain ⟨i, listed, rfl, data⟩ := mem_rawSpans.mp inside
      obtain ⟨j, listedLater, rfl, someLater⟩ := mem_rawSpans.mp (laterPerm.subset among)
      have near := mem_hashed.mp (perm.subset listed)
      have far := mem_laterSections.mp listedLater
      exact Nat.le_of_lt (first i j near.1 far.1 far.2 data someLater)
  have apart : ((rawSpans pe order ++ later).map (·.start)).Nodup := by
    rw [(rejoined.map _).nodup_iff]
    exact List.pairwise_map.mpr (increasing.imp Nat.ne_of_lt)
  have strictly : (rawSpans pe order ++ later).Pairwise fun first second =>
      first.start < second.start :=
    weakly.imp₂ (fun _ _ le ne => Nat.lt_of_le_of_ne le ne) (List.pairwise_map.mp apart)
  have equal : rawSpans pe order ++ later = tiled :=
    rejoined.eq_of_pairwise (fun _ _ _ _ less more => absurd less (Nat.lt_asymm more)) strictly
      increasing
  rw [← equal] at tiles
  exact (tiles_append.mp tiles).1

/-- Where the hashed sections fill the file from the headers on, the first ones come first. -/
theorem firstSectionsFirst_of_positions (laid : Laid pe)
    (perm : order.Perm (List.range (hashedCount pe)))
    (filled : positions (rawSpans pe order) =
      List.range' pe.sizeOfHeaders (covered (rawSpans pe order))) : FirstSectionsFirst pe := by
  obtain ⟨tiled, stop, same, tiles, -, -⟩ := sections_split laid perm
  have all := positions_perm same
  rw [tiles.positions, positions_append] at all
  have apart := all.nodup_iff.mp List.nodup_range'
  intro i j near far within some someLater
  have early : sectionSpan pe i ∈ rawSpans pe order :=
    mem_rawSpans.mpr ⟨i, perm.symm.subset (mem_hashed.mpr ⟨near, by omega⟩), rfl, some⟩
  have late : sectionSpan pe j ∈ rawSpans pe (laterSections pe) :=
    mem_rawSpans.mpr ⟨j, mem_laterSections.mpr ⟨far, within⟩, rfl, someLater⟩
  have here := start_mem_positions early some
  have there := start_mem_positions late someLater
  have behind := (List.mem_range'_1.mp (all.symm.subset (List.mem_append_right _ there))).1
  have outside : (sectionSpan pe j).start ∉ positions (rawSpans pe order) :=
    fun inside => (List.nodup_append.mp apart).2.2 _ inside _ there rfl
  rw [filled, List.mem_range'_1] at here outside
  omega

/-- The hash is over the signed bytes exactly when no section behind the 96th of the table is
before one of the others in the file. -/
theorem hashesSigned_iff (laid : Laid pe) : HashesSigned pe ↔ FirstSectionsFirst pe := by
  obtain ⟨hashed, ran, good, failed⟩ := peSha256_goes pe
  cases hashed with
  | none =>
      obtain ⟨tiled, stop, perm, tiles, within⟩ := laid.sections
      have bound := laid.certStart_le
      rcases failed rfl with short | outside | ⟨span, inside, past⟩
      · exact absurd laid.headers (by omega)
      · exact absurd laid.entry (by unfold secDir; omega)
      · have := tiles.end_le (perm.symm.subset inside)
        omega
  | some spans =>
      obtain ⟨order, tail, perm, sorted, tailRan, -, rfl⟩ := good spans rfl
      obtain ⟨tiled, stop, split, tiles, within, -⟩ := sections_split laid perm
      have fits : pe.sizeOfHeaders + covered (rawSpans pe order) ≤ certStart pe := by
        have whole := covered_perm split
        have joined : covered (rawSpans pe order ++ rawSpans pe (laterSections pe)) =
            covered (rawSpans pe order) + covered (rawSpans pe (laterSections pe)) := by
          rw [covered, List.map_append, List.sum_append]
          rfl
        have last := tiles.length
        omega
      have rest := (hashTail_positions laid fits).of_eq tailRan
      have join := range'_join rfl fits
      have filled : HashesSigned pe ↔ positions (rawSpans pe order) =
          List.range' pe.sizeOfHeaders (covered (rawSpans pe order)) := by
        have covers : HashesSigned pe ↔ positions (rawSpans pe order) ++ positions tail =
            List.range' pe.sizeOfHeaders (certStart pe - pe.sizeOfHeaders) := by
          unfold HashesSigned
          rw [ran, signedPositions_eq laid]
          simp only [Except.ok.injEq, Option.some.injEq, exists_eq_left', List.cons_append,
            positions_cons, positions_append]
          rw [List.append_cancel_left_eq, show secDir pe = pe.dd + 4 * 8 from rfl,
            List.append_cancel_left_eq, List.append_cancel_left_eq]
        rw [covers, rest, ← join]
        exact ⟨fun same => (List.append_inj same (by rw [length_positions, List.length_range'])).1,
          fun same => by rw [same]⟩
      rw [filled]
      constructor
      · exact firstSectionsFirst_of_positions laid perm
      · intro first
        rw [(tiles_of_firstSectionsFirst laid first perm sorted).positions, Nat.add_sub_cancel_left]

end Coverage

/-! ### Executables with a few bytes of data -/

section Executables

variable {image : Image} {pe : Pe} {spans : List Span} {data : List UInt8} {i k : Nat}

def wordLe (value : Nat) : List UInt8 :=
  [UInt8.ofNat value, UInt8.ofNat (value / 2 ^ 8), UInt8.ofNat (value / 2 ^ 16),
    UInt8.ofNat (value / 2 ^ 24)]

def sectionHeader (span : Span) : List UInt8 :=
  List.replicate 16 0 ++ wordLe span.count ++ wordLe span.start ++ List.replicate 16 0

/-- The headers of a PE32+ executable before its section table; no table of certificates. -/
def frontBytes (nsec : Nat) : List UInt8 :=
  ascii "MZ" ++ List.replicate 58 0 ++ wordLe 0x40 ++ ascii "PE" ++ [0, 0] ++ [0x64, 0x86] ++
    (wordLe nsec).take 2 ++ List.replicate 12 0 ++ [240, 0, 0, 0] ++ [0x0b, 0x02] ++
    List.replicate 58 0 ++ wordLe (328 + 40 * nsec) ++ List.replicate 176 0

def peBytes (spans : List Span) (data : List UInt8) : List UInt8 :=
  frontBytes spans.length ++ (spans.flatMap sectionHeader ++ data)

theorem frontBytes_length (nsec : Nat) : (frontBytes nsec).length = 328 := by
  simp only [frontBytes, List.length_append, List.length_replicate]
  rfl

theorem sectionHeader_length (span : Span) : (sectionHeader span).length = 40 := rfl

theorem sectionHeaders_length : (spans.flatMap sectionHeader).length = 40 * spans.length := by
  induction spans with
  | nil => rfl
  | cons span spans ih =>
      rw [List.flatMap_cons, List.length_append, sectionHeader_length, ih, List.length_cons]
      omega

theorem sectionHeaders_get (inside : i < spans.length) (within : k < 40) :
    (spans.flatMap sectionHeader ++ data)[i * 40 + k]? = (sectionHeader spans[i])[k]? := by
  induction spans generalizing i with
  | nil => exact absurd inside (Nat.not_lt_zero i)
  | cons span spans ih =>
      rw [List.flatMap_cons, List.append_assoc]
      cases i with
      | zero =>
          rw [List.getElem?_append_left (by rw [sectionHeader_length]; omega), Nat.zero_mul,
            Nat.zero_add]
          rfl
      | succ i =>
          have later : (i + 1) * 40 + k - (sectionHeader span).length = i * 40 + k := by
            rw [sectionHeader_length]
            omega
          rw [List.getElem?_append_right (by rw [sectionHeader_length]; omega), later,
            ih (by simpa using inside)]
          rfl

/-- The table says of each section where it is. -/
theorem sectionSpan_peBytes (bytes : pe.b = peBytes spans data) (secs : pe.secs = 328)
    (inside : i < spans.length) (start : spans[i].start < 2 ^ 32) (count : spans[i].count < 2 ^ 32) :
    sectionSpan pe i = spans[i] := by
  have byte : ∀ k, k < 40 → byteOf pe.b (secHdr pe i + k) = byteOf (sectionHeader spans[i]) k := by
    intro k within
    have place : secHdr pe i + k - (frontBytes spans.length).length = i * 40 + k := by
      rw [frontBytes_length, secHdr, secs]
      omega
    have behind : (frontBytes spans.length).length ≤ secHdr pe i + k := by
      rw [frontBytes_length, secHdr, secs]
      omega
    rw [byteOf, bytes, peBytes, List.getElem?_append_right behind, place,
      sectionHeaders_get inside within]
    rfl
  have word : ∀ k, k + 3 < 40 →
      le32 pe.b (secHdr pe i + k) = le32 (sectionHeader spans[i]) k := by
    intro k within
    rw [le32, Nat.add_assoc _ k 1, Nat.add_assoc _ k 2, Nat.add_assoc _ k 3, byte k (by omega),
      byte (k + 1) (by omega), byte (k + 2) (by omega), byte (k + 3) (by omega)]
    rfl
  have read : ∀ span : Span, span.start < 2 ^ 32 → span.count < 2 ^ 32 →
      (⟨le32 (sectionHeader span) 20, le32 (sectionHeader span) 16⟩ : Span) = span := by
    rintro ⟨start, count⟩ small few
    dsimp only at small few
    have first : le32 (sectionHeader ⟨start, count⟩) 20 = start := by
      simp only [le32, byteOf, sectionHeader, wordLe, List.replicate, List.cons_append,
        List.nil_append, List.getElem?_cons_succ, List.getElem?_cons_zero, Option.getD_some,
        UInt8.toNat_ofNat']
      omega
    have second : le32 (sectionHeader ⟨start, count⟩) 16 = count := by
      simp only [le32, byteOf, sectionHeader, wordLe, List.replicate, List.cons_append,
        List.nil_append, List.getElem?_cons_succ, List.getElem?_cons_zero, Option.getD_some,
        UInt8.toNat_ofNat']
      omega
    rw [first, second]
  rw [sectionSpan, word 20 (by omega), word 16 (by omega), read _ start count]

theorem rawSpans_peBytes (bytes : pe.b = peBytes spans data) (secs : pe.secs = 328)
    (small : ∀ span ∈ spans, span.start < 2 ^ 32 ∧ span.count < 2 ^ 32) :
    rawSpans pe (List.range spans.length) = spans.filter (·.count ≠ 0) := by
  have whole : (List.range spans.length).map (sectionSpan pe) = spans := by
    refine List.ext_getElem (by simp) ?_
    intro i inside among
    rw [List.getElem_map, List.getElem_range]
    have bounds := small _ (List.getElem_mem among)
    exact sectionSpan_peBytes bytes secs among bounds.1 bounds.2
  rw [rawSpans, whole]

/-- What `pe_open` notes besides the bytes. -/
def Pe.notes (pe : Pe) : Bool × List Nat :=
  (pe.plus, [pe.machine, pe.nsec, pe.opt, pe.dd, pe.secs, pe.sizeOfHeaders])

theorem peOpen_of_notes (noted : (peOpen pe.toImage).toOption.map (Option.map Pe.notes) =
    some (some pe.notes)) : peOpen pe.toImage = .ok (some pe) := by
  obtain ⟨opened, ran, same⟩ := peOpen_goes pe.toImage
  rw [ran] at noted ⊢
  obtain ⟨other, rfl, equal⟩ := Option.map_eq_some_iff.mp (Option.some.inj noted)
  have bytes := same other rfl
  obtain ⟨⟨b, short⟩, plus, machine, nsec, opt, dd, secs, sizeOfHeaders, _, _, _⟩ := pe
  obtain ⟨⟨b', short'⟩, plus', machine', nsec', opt', dd', secs', sizeOfHeaders', _, _, _⟩ := other
  simp only [Pe.notes, Prod.mk.injEq, List.cons.injEq, and_true] at equal bytes
  obtain ⟨rfl, rfl, rfl, rfl, rfl, rfl, rfl⟩ := equal
  cases bytes
  rfl

/-- The second one of two sections stands first in the file. -/
def swappedSpans : List Span := [⟨409, 1⟩, ⟨408, 1⟩]

def swappedPe : Pe where
  b := peBytes swappedSpans (ascii "BA")
  short := by decide +kernel
  plus := true
  machine := 0x8664
  nsec := 2
  opt := 88
  dd := 200
  secs := 328
  sizeOfHeaders := 408
  gap := by decide
  dirs := by decide +kernel
  table := by decide +kernel

theorem swappedPe_opened : peOpen swappedPe.toImage = .ok (some swappedPe) :=
  peOpen_of_notes (by decide +kernel)

theorem swappedPe_laid : Laid swappedPe where
  entry := by decide
  headers := by decide +kernel
  certificates := by
    have none : certSize swappedPe = 0 := by decide +kernel
    exact fun some => absurd none some
  sections := ⟨[⟨408, 1⟩, ⟨409, 1⟩], 410, by decide +kernel, ⟨rfl, rfl, rfl⟩, by decide +kernel⟩

theorem hashesSigned_iff_swapped : HashesSigned swappedPe ↔ FirstSectionsFirst swappedPe :=
  hashesSigned_iff swappedPe_laid

/-- The last one of 97 sections stands first in the file. -/
def manySpans : List Span := ⟨4209, 1⟩ :: List.replicate 95 ⟨0, 0⟩ ++ [⟨4208, 1⟩]

theorem manyBytes_length : (peBytes manySpans (ascii "BA")).length = 4210 := by
  rw [peBytes, List.length_append, List.length_append, frontBytes_length, sectionHeaders_length]
  rfl

def manyPe : Pe where
  b := peBytes manySpans (ascii "BA")
  short := by rw [manyBytes_length]; decide
  plus := true
  machine := 0x8664
  nsec := 97
  opt := 88
  dd := 200
  secs := 328
  sizeOfHeaders := 4208
  gap := by decide
  dirs := by rw [manyBytes_length]; decide
  table := by rw [manyBytes_length]; decide

theorem manyPe_opened : peOpen manyPe.toImage = .ok (some manyPe) :=
  peOpen_of_notes (by decide +kernel)

theorem manyPe_laid : Laid manyPe := by
  have spans : rawSpans manyPe (List.range 97) = [⟨4209, 1⟩, ⟨4208, 1⟩] :=
    ((@rawSpans_peBytes _ manySpans) rfl rfl (by decide)).trans (by decide)
  have length : manyPe.b.length = 4210 := manyBytes_length
  have none : certSize manyPe = 0 := by decide +kernel
  have start : certStart manyPe = 4210 := (if_pos none).trans length
  exact
    { entry := by decide
      headers := by rw [length]; decide
      certificates := fun some => absurd none some
      sections := ⟨[⟨4208, 1⟩, ⟨4209, 1⟩], 4210, spans ▸ List.Perm.swap _ _ _, ⟨rfl, rfl, rfl⟩,
        Nat.le_of_eq start.symm⟩ }

/-- The hash has the section that stands last twice and the other one not at all. -/
theorem manySections_missed : ¬ ∀ (image : Image) (pe : Pe), peOpen image = .ok (some pe) →
    Laid pe → HashesSigned pe := by
  intro all
  have place : ∀ i (inside : i < manySpans.length), sectionSpan manyPe i = manySpans[i] := by
    intro i inside
    have small : ∀ span ∈ manySpans, span.start < 2 ^ 32 ∧ span.count < 2 ^ 32 := by decide
    have bounds := small _ (List.getElem_mem inside)
    exact sectionSpan_peBytes rfl rfl inside bounds.1 bounds.2
  have zero := place 0 (by decide)
  have last := place 96 (by decide)
  have first := (hashesSigned_iff manyPe_laid).mp (all _ manyPe manyPe_opened manyPe_laid)
  have less := first 0 96 (by decide) (by decide) (by decide) (by rw [zero]; decide)
    (by rw [last]; decide)
  rw [zero, last] at less
  exact absurd less (by decide)

end Executables

end Rufux.Bootcheck
