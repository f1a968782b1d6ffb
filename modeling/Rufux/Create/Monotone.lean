import Rufux.Create.LinuxFlows
import Rufux.Create.MacosFlows

/-!
When the percentages of a run never fall and end at 100.
-/

namespace Rufux.Create

open Library Reporting

/-- The percentages never decrease nor exceed 100, and those of a run that succeeds end at 100. -/
def Monotone (run : Step Unit) : Prop :=
  run.all.Pairwise (· ≤ ·) ∧ (∀ percent ∈ run.all, percent ≤ 100) ∧
    (run.outcome = some () → run.all.getLast? = some 100)

/-! ### Windows and milestones -/

theorem share_le (span : Nat) (count : Count) : count.share span ≤ span := by
  unfold Count.share
  split
  · exact Nat.zero_le span
  · exact Nat.min_le_left _ _

theorem within_all (base span : Nat) (called : Called) :
    (within base span called).all = called.counts.map (mapped base span) := by
  simp [within, report, must, all, bind]

theorem within_outcome (base span : Nat) (called : Called) :
    (within base span called).outcome = if called.ok then some () else none := by
  simp [within, report, must, bind]

theorem climbs_within {base span : Nat} (inside : base + span ≤ 100) (called : Called) :
    Climbs base (base + span) (within base span called) := by
  refine Climbs.bind (climbs_report fun percent counted => ?_) (fun _ _ => climbs_must called.ok)
    (Nat.le_add_right base span) (Nat.le_refl _)
  obtain ⟨count, _, rfl⟩ := List.mem_map.mp counted
  have bound := share_le span count
  unfold mapped
  omega

variable {low high : Nat}

theorem climbs_within_bind {base span : Nat} {called : Called} {next : Unit → Step Unit}
    (second : Climbs (base + span) high (next ())) (up : low ≤ base) (on : base + span ≤ high)
    (inside : base + span ≤ 100) : Climbs low high (within base span called >>= next) :=
  ((climbs_within inside called).mono up (Nat.le_refl _)).bind (fun _ _ => second)
    (Nat.le_trans up (Nat.le_add_right base span)) on

theorem climbs_stage {percent : Nat} (inside : percent ≤ 100) : Climbs percent percent (stage percent) := by
  unfold stage
  rw [if_pos inside]
  exact climbs_report fun value listed => by
    obtain rfl := List.mem_singleton.mp listed
    exact ⟨Nat.le_refl _, Nat.le_refl _⟩

theorem climbs_stage_bind {percent : Nat} {next : Unit → Step Unit}
    (second : Climbs percent high (next ())) (up : low ≤ percent) (on : percent ≤ high)
    (inside : percent ≤ 100) : Climbs low high (stage percent >>= next) :=
  ((climbs_stage inside).mono up (Nat.le_refl _)).bind (fun _ _ => second) up on

theorem climbs_onlyIf_must_bind {wanted ok : Bool} {next : Unit → Step Unit}
    (second : Climbs low high (next ())) :
    Climbs low high (onlyIf wanted (must ok) >>= next) := by
  cases wanted with
  | false => exact second
  | true => exact climbs_must_bind fun _ => second

/-- The optional clearing of the boot area between two milestones. -/
theorem climbs_zeroHead_bind {wanted : Bool} {base span : Nat} {zeroed : Zeroed}
    {next : Unit → Step Unit} (second : Climbs (base + span) high (next ())) (up : low ≤ base)
    (on : base + span ≤ high) (inside : base + span ≤ 100) :
    Climbs low high (onlyIf wanted (zeroHead base span zeroed) >>= next) := by
  cases wanted with
  | false => exact second.mono (Nat.le_trans up (Nat.le_add_right base span)) (Nat.le_refl _)
  | true => exact climbs_within_bind second up on inside

theorem climbs_final (below : low ≤ 100) : Climbs low 100 (stage 100) :=
  (climbs_stage (Nat.le_refl _)).mono below (Nat.le_refl _)

/-! ### The bad-block passes -/

section Passes

variable {destination : Destination} {span passes : Nat} {scans : Nat → Scanned}

/-- What a pass reports. -/
def passPart (span passes : Nat) (scans : Nat → Scanned) (i : Nat) : List Nat :=
  (scans i).called.counts.map (mapped (passBase span passes i) (span / passes))

/-- A pass runs when those before it found nothing bad. -/
def PassReached (scans : Nat → Scanned) (i : Nat) : Prop := ∀ j < i, (scans j).called.ok = true

/-- No pass whose window wraps around the range of `unsigned` reports anything. -/
def FewPasses (span passes : Nat) (scans : Nat → Scanned) : Prop :=
  ∀ i < passes, PassReached scans i → 2 ^ 32 ≤ span * i → (scans i).called.counts = []

theorem counts_of_ok {scanned : Scanned} (ok : scanned.called.ok = true) :
    scanned.called.counts ≠ [] := by
  simp only [Scanned.called, Bool.and_eq_true] at ok ⊢
  rw [if_pos ok.1]
  simp

theorem badblocksFrom_all (whole : destination ≠ .directory) (i left : Nat) :
    (badblocksFrom destination span passes scans i (left + 1)).all =
      passPart span passes scans i ++ if (scans i).called.ok then
        (badblocksFrom destination span passes scans (i + 1) left).all else [] := by
  have step : badblocksFrom destination span passes scans i (left + 1) =
      within (passBase span passes i) (span / passes) (scans i).called >>= fun _ =>
        badblocksFrom destination span passes scans (i + 1) left := by
    rw [badblocksFrom, decide_eq_true whole]
    rfl
  rw [step]
  cases ok : (scans i).called.ok with
  | false =>
    rw [all_bind_none _ (by rw [within_outcome, ok]; rfl), within_all, if_neg (by decide),
      List.append_nil]
    rfl
  | true =>
    rw [all_bind _ (by rw [within_outcome, ok]; rfl), within_all, if_pos rfl]
    rfl

theorem badblocksFrom_directory (i left : Nat) :
    (badblocksFrom .directory span passes scans i left).all = [] := by
  cases left with
  | zero => rfl
  | succ left => rfl

/-- Every report comes from a pass. -/
theorem mem_badblocksFrom {i left percent : Nat}
    (inside : percent ∈ (badblocksFrom destination span passes scans i left).all) :
    ∃ k, k < i + left ∧ percent ∈ passPart span passes scans k := by
  by_cases whole : destination = .directory
  · rw [whole, badblocksFrom_directory] at inside
    nomatch inside
  · induction left generalizing i with
    | zero => nomatch inside
    | succ left ih =>
      rw [badblocksFrom_all whole] at inside
      rcases List.mem_append.mp inside with inside | inside
      · exact ⟨i, by omega, inside⟩
      · split at inside
        · obtain ⟨k, below, from_pass⟩ := ih inside
          exact ⟨k, by omega, from_pass⟩
        · nomatch inside

/-- The passes that are all run report everything they have. -/
theorem badblocksFrom_mem {i left k percent : Nat}
    (done : (badblocksFrom destination span passes scans i left).outcome = some ())
    (from_ : i ≤ k) (below : k < i + left) (inside : percent ∈ passPart span passes scans k) :
    percent ∈ (badblocksFrom destination span passes scans i left).all := by
  induction left generalizing i with
  | zero => omega
  | succ left ih =>
    by_cases whole : destination = .directory
    · subst whole
      nomatch done
    · rw [badblocksFrom_all whole]
      rcases Nat.eq_or_lt_of_le from_ with rfl | later
      · exact List.mem_append_left _ inside
      · rw [badblocksFrom, decide_eq_true whole, must_true_bind] at done
        cases ok : (scans i).called.ok with
        | false =>
          rw [bind_none _ (by rw [within_outcome, ok]; rfl)] at done
          nomatch done
        | true =>
          rw [bind_some _ (by rw [within_outcome, ok]; rfl)] at done
          exact List.mem_append_right _ (ih done later (by omega))

/-- A pass and the one after it report in this order. -/
theorem badblocksFrom_order {i left k : Nat} (whole : destination ≠ .directory) (from_ : i ≤ k)
    (below : k + 1 < i + left) (reached : ∀ j, i ≤ j → j ≤ k → (scans j).called.ok = true)
    (sorted : (badblocksFrom destination span passes scans i left).all.Pairwise (· ≤ ·)) :
    ∀ percent ∈ passPart span passes scans k, ∀ other ∈ passPart span passes scans (k + 1),
      percent ≤ other := by
  induction left generalizing i with
  | zero => omega
  | succ left ih =>
    rw [badblocksFrom_all whole, reached i (Nat.le_refl _) from_, if_pos rfl] at sorted
    obtain ⟨_, rest, order⟩ := List.pairwise_append.mp sorted
    rcases Nat.eq_or_lt_of_le from_ with rfl | later
    · cases left with
      | zero => omega
      | succ left =>
        intro percent inside other inside'
        refine order percent inside other ?_
        rw [badblocksFrom_all whole]
        exact List.mem_append_left _ inside'
    · exact ih later (by omega) (fun j least most => reached j (by omega) most) rest

theorem passBase_of_lt {i : Nat} (small : span * i < 2 ^ 32) :
    passBase span passes i = span * i / passes := by
  rw [passBase, Nat.mod_eq_of_lt small]

theorem climbs_badblocksFrom (narrow : span ≤ 10) {i left : Nat} (total : i + left = passes)
    (few : ∀ k, i ≤ k → k < passes → (∀ j, i ≤ j → j < k → (scans j).called.ok = true) →
      2 ^ 32 ≤ span * k → (scans k).called.counts = []) :
    Climbs (if span * i < 2 ^ 32 then span * i / passes else span) span
      (badblocksFrom destination span passes scans i left) := by
  induction left generalizing i with
  | zero => exact climbs_pure ()
  | succ left ih =>
    refine climbs_must_bind fun _ => ?_
    by_cases small : span * i < 2 ^ 32
    · rw [if_pos small, passBase_of_lt small]
      have most : span * (i + 1) / passes ≤ span :=
        Nat.div_le_of_le_mul (by rw [Nat.mul_comm]; exact Nat.mul_le_mul_right span (by omega))
      have step : span * i / passes + span / passes ≤ span * (i + 1) / passes := by
        rw [Nat.mul_succ]
        exact Nat.div_add_div_le_add_div
      refine (climbs_within (by omega) (scans i).called).bind (fun _ done => ?_)
        (Nat.le_add_right _ _) (Nat.le_trans step most)
      have ok : (scans i).called.ok = true := by
        rw [within_outcome] at done
        split at done
        · assumption
        · nomatch done
      have next : i + 1 + left = passes := by omega
      have rest := ih next fun k least below reached => few k (by omega) below fun j from_ before => by
        rcases Nat.eq_or_lt_of_le from_ with rfl | later
        · exact ok
        · exact reached j later before
      refine rest.mono ?_ (Nat.le_refl _)
      split <;> omega
    · have silent := few i (Nat.le_refl _) (by omega) (fun j least below => by omega)
        (Nat.not_lt.mp small)
      have failed : (scans i).called.ok = false := by
        cases ok : (scans i).called.ok with
        | false => rfl
        | true => exact absurd silent (counts_of_ok ok)
      refine climbs_silent ?_
      rw [all_bind_none _ (by rw [within_outcome, failed]; rfl), within_all, silent]
      rfl

theorem climbs_runBadblocks (narrow : span ≤ 10) (few : FewPasses span passes scans) :
    Climbs 0 span (runBadblocks destination span passes scans) := by
  have climbs := @climbs_badblocksFrom destination _ _ _ narrow _ _ (Nat.zero_add passes)
    fun k _ below reached => few k below fun j before => reached j (Nat.zero_le j) before
  exact climbs.mono (Nat.zero_le _) (Nat.le_refl _)

/-- A pass whose window wraps around comes out below the last one that does not. -/
theorem few_of_sorted (kind : span = 8 ∨ span = 10) (int : passes < 2 ^ 31)
    (whole : destination ≠ .directory)
    (sorted : (runBadblocks destination span passes scans).all.Pairwise (· ≤ ·)) :
    FewPasses span passes scans := by
  -- the first pass that wraps
  obtain ⟨first, wraps, before, least⟩ : ∃ first, 2 ^ 32 ≤ span * (first + 1) ∧
      span * first < 2 ^ 32 ∧ 2 ^ 32 ≤ span * first + span := by
    rcases kind with rfl | rfl
    · exact ⟨536870911, by decide, by decide, by decide⟩
    · exact ⟨429496729, by decide, by decide, by decide⟩
  have wide : span ≤ 10 := by omega
  have silent (here : first + 1 < passes) (reached : PassReached scans (first + 1)) :
      (scans (first + 1)).called.counts = [] := by
    have ok := reached first (Nat.lt_succ_self first)
    obtain ⟨count, some_count⟩ := List.exists_mem_of_ne_nil _ (counts_of_ok ok)
    by_contra loud
    obtain ⟨other, some_other⟩ := List.exists_mem_of_ne_nil _ loud
    have order := badblocksFrom_order whole (Nat.zero_le first)
      (by omega : first + 1 < 0 + passes) (fun j _ most => reached j (by omega)) sorted
      _ (List.mem_map_of_mem some_count) _ (List.mem_map_of_mem some_other)
    have many : 10 < passes := by
      rcases kind with rfl | rfl <;> omega
    have flat : span / passes = 0 := Nat.div_eq_of_lt (by omega)
    have up : 1 ≤ passBase span passes first := by
      rw [passBase_of_lt before, Nat.le_div_iff_mul_le (by omega)]
      omega
    have down : passBase span passes (first + 1) = 0 := by
      rw [passBase, Nat.mul_succ]
      exact Nat.div_eq_of_lt (by omega)
    have none_left := share_le (span / passes) other
    unfold mapped at order
    omega
  intro i below reached wrapped
  have late : first + 1 ≤ i := by
    by_contra early
    have bound := Nat.mul_le_mul_left span (by omega : i ≤ first)
    omega
  rcases Nat.eq_or_lt_of_le late with rfl | later
  · exact silent below reached
  · have earlier := silent (by omega) fun j inside => reached j (by omega)
    exact absurd earlier (counts_of_ok (reached (first + 1) later))

end Passes

/-! ### Up to the flow -/

section Start

variable {o : CreateOpts} {start : StartCalls}

/-- The checks let the run start. -/
def Admitted (o : CreateOpts) (start : StartCalls) : Prop :=
  (o.dryRun || o.yes) = true ∧
    (o.dryRun = false → start.destination = .disk →
      start.root = true ∧ start.unmounted = true ∧ (start.smart || o.ignoreSmart) = true)

theorem succeeds_admission : (admission o start).succeeds = true ↔ Admitted o start := by
  unfold admission Admitted
  simp only [succeeds_bind, succeeds_must, succeeds_onlyIf, Bool.and_eq_true]
  cases o.dryRun <;> by_cases disk : start.destination = .disk <;> simp [disk, and_assoc]

/-- The passes that a real run makes on a target that can be scanned are few. -/
def StartFits (o : CreateOpts) (start : StartCalls) : Prop :=
  o.dryRun = false → start.destination ≠ .directory → Admitted o start →
    FewPasses (badblocksSpan o.mode) o.badblockPasses start.scans

/-- No bad-block pass reports more than the milestone that comes after the passes. -/
def LowStart (o : CreateOpts) (start : StartCalls) (first : Nat) : Prop :=
  ∀ i < o.badblockPasses,
    ∀ percent ∈ passPart (badblocksSpan o.mode) o.badblockPasses start.scans i, percent ≤ first

theorem onlyIf_must_all (wanted ok : Bool) : (onlyIf wanted (must ok) : Step Unit).all = [] := by
  cases wanted <;> rfl

theorem silent_bind {α β : Type} {step : Step α} {next : α → Step β} (silent : step.all = [])
    (rest : ∀ value, (next value).all = []) : (step >>= next).all = [] := by
  cases done : step.outcome with
  | none => rw [all_bind_none _ done, silent]
  | some value => rw [all_bind _ done, silent, rest value, List.append_nil]

theorem admission_all (o : CreateOpts) (start : StartCalls) : (admission o start).all = [] :=
  silent_bind rfl fun _ => silent_bind (onlyIf_must_all _ _) fun _ => onlyIf_must_all _ _

theorem badblocksSpan_kind (mode : Mode) : badblocksSpan mode = 8 ∨ badblocksSpan mode = 10 := by
  unfold badblocksSpan
  split
  · exact .inr rfl
  · exact .inl rfl

theorem prepare_dryRun (dry : o.dryRun = true) : prepare o start = pure () := by
  unfold prepare admission
  rw [dry]
  rfl

theorem prepare_real (real : o.dryRun = false) : prepare o start =
    admission o start >>= fun _ =>
      runBadblocks start.destination (badblocksSpan o.mode) o.badblockPasses start.scans >>= fun _ =>
        onlyIf (!o.quickFormat && start.destination = .disk && o.mode = .dd)
          (zeroHead 10 5 start.zero) := by
  unfold prepare
  rw [real]
  rfl

theorem climbs_prepare (fits : StartFits o start) :
    Climbs 0 (if o.mode = .dd then 15 else 8) (prepare o start) := by
  cases dry : o.dryRun with
  | true =>
    rw [prepare_dryRun dry]
    exact climbs_pure ()
  | false =>
    rw [prepare_real dry]
    have narrow : badblocksSpan o.mode ≤ 10 := by
      rcases badblocksSpan_kind o.mode with kind | kind <;> omega
    refine Climbs.bind (climbs_silent (admission_all o start)) (fun _ done => ?_) (Nat.le_refl 0)
      (Nat.zero_le _)
    have passes : Climbs 0 (badblocksSpan o.mode)
        (runBadblocks start.destination (badblocksSpan o.mode) o.badblockPasses start.scans) := by
      by_cases whole : start.destination = .directory
      · rw [whole]
        exact climbs_silent (badblocksFrom_directory 0 _)
      · exact climbs_runBadblocks narrow (fits dry whole (succeeds_admission.mp (succeeds_iff.mpr done)))
    by_cases raw : o.mode = .dd
    · have span : badblocksSpan o.mode = 10 := if_pos raw
      rw [if_pos raw]
      rw [span] at passes ⊢
      exact passes.bind (fun _ _ => (climbs_within (by decide) _).onlyIf _) (by decide) (by decide)
    · have span : badblocksSpan o.mode = 8 := if_neg raw
      rw [if_neg raw]
      rw [span] at passes ⊢
      refine passes.bind (fun _ _ => ?_) (Nat.zero_le 8) (Nat.le_refl 8)
      rw [decide_eq_false raw, Bool.and_false]
      exact climbs_pure ()

/-- In the other modes all that is reported before the flow comes from the passes. -/
theorem prepare_le {first : Nat} (raw : o.mode ≠ .dd) (low : o.dryRun = false → LowStart o start first) :
    ∀ percent ∈ (prepare o start).all, percent ≤ first := by
  intro percent inside
  cases dry : o.dryRun with
  | true =>
    rw [prepare_dryRun dry] at inside
    nomatch inside
  | false =>
    rw [prepare_real dry, decide_eq_false raw, Bool.and_false] at inside
    rcases mem_bind.mp inside with inside | ⟨_, _, inside⟩
    · rw [admission_all] at inside
      nomatch inside
    · rcases mem_bind.mp inside with inside | ⟨_, _, inside⟩
      · obtain ⟨i, below, from_pass⟩ := mem_badblocksFrom inside
        exact low dry i (by omega) percent from_pass
      · nomatch inside

theorem prepare_directory (raw : o.mode ≠ .dd) (directory : start.destination = .directory) :
    (prepare o start).all = [] := by
  cases dry : o.dryRun with
  | true =>
    rw [prepare_dryRun dry]
    rfl
  | false =>
    rw [prepare_real dry, directory, decide_eq_false raw, Bool.and_false]
    exact silent_bind (admission_all o start) fun _ =>
      silent_bind (badblocksFrom_directory 0 _) fun _ => rfl

/-- What a sorted run says of the passes before its flow. -/
theorem start_of_sorted {flow : Step Unit}
    (sorted : (prepare o start >>= fun _ => flow).all.Pairwise (· ≤ ·)) :
    StartFits o start ∧ ∀ first ∈ flow.all, o.dryRun = false → (prepare o start).succeeds = true →
      LowStart o start first := by
  constructor
  · intro dry whole admitted
    have prepared := sorted_of_bind sorted
    rw [prepare_real dry] at prepared
    have after := sorted_of_bind_some prepared (succeeds_iff.mp (succeeds_admission.mpr admitted))
    have passes := sorted_of_bind after
    exact few_of_sorted (badblocksSpan_kind o.mode) o.passesInt whole passes
  · intro first inside dry succeeded i below percent from_pass
    rw [all_bind _ (succeeds_iff.mp succeeded)] at sorted
    refine (List.pairwise_append.mp sorted).2.2 percent ?_ first inside
    have prepared := succeeds_iff.mp succeeded
    rw [prepare_real dry] at prepared ⊢
    refine mem_bind.mpr (.inr ?_)
    cases admitted : (admission o start).outcome with
    | none =>
      rw [bind_none _ admitted] at prepared
      nomatch prepared
    | some value =>
      rw [bind_some _ admitted] at prepared
      refine ⟨value, rfl, mem_bind.mpr (.inl ?_)⟩
      cases passed : (runBadblocks start.destination (badblocksSpan o.mode) o.badblockPasses
          start.scans).outcome with
      | none =>
        rw [bind_none _ passed] at prepared
        nomatch prepared
      | some value =>
        exact badblocksFrom_mem passed (Nat.zero_le i) (by omega) from_pass

/-- A run is sorted when its parts are and the flow starts no lower than the passes came. -/
theorem climbs_run {flow : Step Unit} {low : Nat} (fits : StartFits o start)
    (climbs : (prepare o start).succeeds = true → Climbs low 100 flow)
    (rises : (prepare o start >>= fun _ => flow).Rises)
    (above : (prepare o start).succeeds = true → flow.all ≠ [] →
      ∀ percent ∈ (prepare o start).all, percent ≤ low) :
    (prepare o start >>= fun _ => flow).all.Pairwise (· ≤ ·) ∧
      ∀ percent ∈ (prepare o start >>= fun _ => flow).all, percent ≤ 100 := by
  have hundred : (if o.mode = .dd then 15 else 8) ≤ 100 := by split <;> decide
  obtain ⟨sorted, bounds⟩ := climbs_prepare fits rises.left
  cases prepared : (prepare o start).outcome with
  | none =>
    rw [all_bind_none _ prepared]
    exact ⟨sorted, fun percent inside => Nat.le_trans (bounds percent inside).2 hundred⟩
  | some value =>
    have reached := succeeds_iff.mpr prepared
    obtain ⟨sorted', bounds'⟩ := climbs reached (rises.right prepared)
    rw [all_bind _ prepared]
    refine ⟨List.pairwise_append.mpr ⟨sorted, sorted', fun percent inside other inside' => ?_⟩, ?_⟩
    · have below := above reached (List.ne_nil_of_mem inside') percent inside
      exact Nat.le_trans below (bounds' other inside').1
    · intro percent inside
      rcases List.mem_append.mp inside with inside | inside
      · exact Nat.le_trans (bounds percent inside).2 hundred
      · exact (bounds' percent inside).2

end Start

/-! ### The flows -/

theorem climbs_writeImage (o : CreateOpts) (calls : DdCalls) : Climbs 15 100 (writeImage o calls) := by
  unfold writeImage writeSpan
  cases o.verify with
  | true =>
    refine climbs_within_bind ?_ (Nat.le_refl _) (by decide) (by decide)
    exact ((climbs_within (by decide) calls.verify).onlyIf _)
  | false => exact climbs_within_bind (climbs_pure ()) (by decide) (by decide) (by decide)

theorem climbs_vdiskWrite (o : CreateOpts) (calls : DdCalls) : Climbs 15 100 (vdiskWrite o calls) := by
  unfold vdiskWrite writeSpan
  refine climbs_must_bind fun _ => ?_
  split
  · cases o.verify with
    | true => exact (climbs_within (by decide) once).mono (Nat.le_refl _) (by decide)
    | false => exact climbs_within (by decide) once
  · cases o.verify with
    | true =>
      refine climbs_within_bind ?_ (Nat.le_refl _) (by decide) (by decide)
      exact climbs_must_bind fun _ => climbs_within (by decide) once
    | false => exact climbs_within_bind (climbs_pure ()) (by decide) (by decide) (by decide)

theorem climbs_flowDd (o : CreateOpts) (calls : DdCalls) : Climbs 15 100 (flowDd o calls) := by
  unfold flowDd
  split
  · exact climbs_must _
  · exact (climbs_vdiskWrite o calls).bind (fun _ _ => climbs_final (Nat.le_refl _)) (by decide)
      (Nat.le_refl _)
  · exact climbs_must_bind fun _ => (climbs_writeImage o calls).bind
      (fun _ _ => climbs_final (Nat.le_refl _)) (by decide) (Nat.le_refl _)

theorem climbs_flowExtractDir (o : CreateOpts) (calls : ExtractDirCalls) :
    Climbs 0 100 (flowExtractDir o calls) := by
  refine climbs_must_bind fun _ => ?_
  refine climbs_within_bind ?_ (Nat.le_refl _) (by decide) (by decide)
  refine climbs_onlyIf_must_bind ?_
  refine climbs_onlyIf_must_bind ?_
  exact climbs_final (by decide)

namespace Linux

theorem climbs_flowExtractDisk (o : CreateOpts) (log : Bool) (calls : ExtractDiskCalls) :
    Climbs 4 100 (flowExtractDisk o log calls) := by
  refine climbs_must_bind fun _ => ?_
  split
  · exact climbs_pure ()
  · refine climbs_must_bind fun _ => ?_
    refine climbs_stage_bind ?_ (Nat.le_refl _) (by decide) (by decide)
    refine climbs_must_bind fun _ => ?_
    refine climbs_zeroHead_bind ?_ (by decide) (by decide) (by decide)
    refine climbs_must_bind fun _ => ?_
    refine climbs_stage_bind ?_ (by decide) (by decide) (by decide)
    refine climbs_onlyIf_must_bind ?_
    refine climbs_must_bind fun _ => ?_
    have copy : Climbs 8 82 (within 8 74 calls.extract >>= fun _ =>
        onlyIf o.extendedLabel (must calls.autorun) >>= fun _ =>
          onlyIf o.persist (must calls.persist)) :=
      climbs_within_bind (climbs_onlyIf_must_bind ((climbs_must _).onlyIf _)) (by decide) (by decide)
        (by decide)
    refine copy.attempt.bind (fun copied _ => ?_) (by decide) (by decide)
    refine climbs_stage_bind ?_ (by decide) (by decide) (by decide)
    refine climbs_stage_bind ?_ (by decide) (by decide) (by decide)
    exact climbs_must_bind fun _ => climbs_final (by decide)

theorem climbs_flowFormat (o : CreateOpts) (destination : Destination) (calls : FormatCalls) :
    Climbs 30 100 (flowFormat o destination calls) := by
  unfold flowFormat
  split
  · exact climbs_pure ()
  · split
    · refine climbs_must_bind fun _ => ?_
      refine climbs_stage_bind ?_ (Nat.le_refl _) (by decide) (by decide)
      refine climbs_must_bind fun _ => ?_
      refine climbs_zeroHead_bind ?_ (by decide) (by decide) (by decide)
      refine climbs_must_bind fun _ => ?_
      refine climbs_stage_bind ?_ (by decide) (by decide) (by decide)
      refine climbs_onlyIf_must_bind ?_
      exact climbs_must_bind fun _ => climbs_final (by decide)
    · exact climbs_must_bind fun _ => climbs_final (by decide)

theorem climbs_flowDos (o : CreateOpts) (destination : Destination) (calls : DosCalls) :
    Climbs 10 100 (flowDos o destination calls) := by
  unfold flowDos
  split
  · exact climbs_pure ()
  · refine climbs_must_bind fun _ => ?_
    refine climbs_must_bind fun _ => ?_
    refine climbs_stage_bind ?_ (Nat.le_refl _) (by decide) (by decide)
    refine climbs_must_bind fun _ => ?_
    refine climbs_must_bind fun _ => ?_
    refine climbs_stage_bind ?_ (by decide) (by decide) (by decide)
    refine climbs_must_bind fun _ => ?_
    refine climbs_stage_bind ?_ (by decide) (by decide) (by decide)
    dsimp only
    generalize (calls.copyFiles && calls.unmount && calls.bootRecords) = ok
    cases ok with
    | true => exact climbs_stage_bind (climbs_must _) (by decide) (by decide) (by decide)
    | false => exact climbs_stage_bind (climbs_must _) (by decide) (by decide) (by decide)

theorem climbs_flowWindows (o : CreateOpts) (log : Bool) (calls : WindowsCalls) :
    Climbs 5 100 (flowWindows o log calls) := by
  refine climbs_must_bind fun _ => ?_
  split
  · exact climbs_pure ()
  · refine climbs_must_bind fun _ => ?_
    refine climbs_onlyIf_must_bind ?_
    refine climbs_must_bind fun _ => ?_
    refine climbs_stage_bind ?_ (Nat.le_refl _) (by decide) (by decide)
    refine climbs_must_bind fun _ => ?_
    refine climbs_onlyIf_must_bind ?_
    refine climbs_zeroHead_bind ?_ (by decide) (by decide) (by decide)
    refine climbs_must_bind fun _ => ?_
    refine climbs_must_bind fun _ => ?_
    refine climbs_stage_bind ?_ (by decide) (by decide) (by decide)
    refine climbs_must_bind fun _ => ?_
    have copy : Climbs 10 80 (within 10 70 calls.extract >>= fun _ =>
        onlyIf o.wue (must calls.customize)) :=
      climbs_within_bind ((climbs_must _).onlyIf _) (by decide) (by decide) (by decide)
    refine copy.attempt.bind (fun copied _ => ?_) (by decide) (by decide)
    refine climbs_stage_bind ?_ (by decide) (by decide) (by decide)
    refine climbs_stage_bind ?_ (by decide) (by decide) (by decide)
    exact climbs_must_bind fun _ => climbs_final (by decide)

end Linux

namespace Macos

theorem climbs_copyTree (o : CreateOpts) {span : Nat} (inside : 8 + span ≤ 100)
    (calls : ExtractDiskCalls) : Climbs 8 (8 + span) (copyTree o span calls) :=
  climbs_within_bind (climbs_onlyIf_must_bind ((climbs_must _).onlyIf _)) (Nat.le_refl _)
    (Nat.le_refl _) inside

theorem climbs_stagedTree (o : CreateOpts) (calls : ExtractDiskCalls) :
    Climbs 8 90 (stagedTree o calls) := by
  refine climbs_must_bind fun _ => ?_
  refine climbs_onlyIf_must_bind ?_
  refine climbs_stage_bind ?_ (Nat.le_refl _) (by decide) (by decide)
  refine (climbs_copyTree o (by decide) calls).bind (fun _ _ => ?_) (by decide) (by decide)
  have last {low : Nat} (below : low ≤ 90) : Climbs low 90 (stage 90) :=
    (climbs_stage (by decide)).mono below (Nat.le_refl _)
  split
  · refine climbs_must_bind fun _ => ?_
    exact climbs_onlyIf_must_bind (last (by decide))
  · exact climbs_within_bind (last (by decide)) (Nat.le_refl _) (by decide) (by decide)

theorem climbs_mountedTree (o : CreateOpts) (calls : ExtractDiskCalls) :
    Climbs 8 90 (mountedTree o calls) := by
  refine climbs_must_bind fun _ => ?_
  refine climbs_stage_bind ?_ (Nat.le_refl _) (by decide) (by decide)
  refine climbs_onlyIf_must_bind ?_
  refine climbs_must_bind fun _ => ?_
  refine (climbs_copyTree o (by decide) calls).bind (fun _ _ => ?_) (by decide) (by decide)
  refine climbs_stage_bind ?_ (by decide) (by decide) (by decide)
  exact climbs_stage_bind (climbs_must _) (by decide) (by decide) (by decide)

theorem climbs_flowExtractDisk (o : CreateOpts) (calls : ExtractDiskCalls) :
    Climbs 4 100 (flowExtractDisk o calls) := by
  refine climbs_must_bind fun _ => ?_
  split
  · exact climbs_must _
  · refine climbs_must_bind fun _ => ?_
    refine climbs_stage_bind ?_ (Nat.le_refl _) (by decide) (by decide)
    refine climbs_must_bind fun _ => ?_
    refine climbs_zeroHead_bind ?_ (by decide) (by decide) (by decide)
    have last : Climbs 90 100 (must calls.mbr >>= fun _ => stage 100) :=
      climbs_must_bind fun _ => climbs_final (by decide)
    split
    · exact ((climbs_stagedTree o calls).mono (by decide) (Nat.le_refl _)).bind (fun _ _ => last)
        (by decide) (by decide)
    · exact ((climbs_mountedTree o calls).mono (by decide) (Nat.le_refl _)).bind (fun _ _ => last)
        (by decide) (by decide)

theorem climbs_flowFormat (o : CreateOpts) (destination : Destination) (calls : FormatCalls) :
    Climbs 30 100 (flowFormat o destination calls) := by
  unfold flowFormat
  split
  · exact climbs_must _
  · split
    · refine climbs_must_bind fun _ => ?_
      refine climbs_stage_bind ?_ (Nat.le_refl _) (by decide) (by decide)
      refine climbs_must_bind fun _ => ?_
      refine climbs_zeroHead_bind ?_ (by decide) (by decide) (by decide)
      refine climbs_must_bind fun _ => ?_
      refine climbs_stage_bind ?_ (by decide) (by decide) (by decide)
      refine climbs_onlyIf_must_bind ?_
      exact climbs_must_bind fun _ => climbs_final (by decide)
    · exact climbs_must_bind fun _ => climbs_final (by decide)

theorem climbs_flowDos (o : CreateOpts) (calls : DosCalls) : Climbs 10 100 (flowDos o calls) := by
  unfold flowDos
  split
  · exact climbs_must _
  · refine climbs_must_bind fun _ => ?_
    refine climbs_must_bind fun _ => ?_
    refine climbs_stage_bind ?_ (Nat.le_refl _) (by decide) (by decide)
    refine climbs_must_bind fun _ => ?_
    refine climbs_must_bind fun _ => ?_
    refine climbs_stage_bind ?_ (by decide) (by decide) (by decide)
    refine climbs_must_bind fun _ => ?_
    refine climbs_must_bind fun _ => ?_
    refine climbs_stage_bind ?_ (by decide) (by decide) (by decide)
    exact climbs_must_bind fun _ => climbs_final (by decide)

theorem climbs_layDown (o : CreateOpts) (calls : WindowsCalls) : Climbs 5 10 (layDown o calls) := by
  refine climbs_must_bind fun _ => ?_
  refine climbs_must_bind fun _ => ?_
  refine climbs_stage_bind ?_ (Nat.le_refl _) (by decide) (by decide)
  refine climbs_must_bind fun _ => ?_
  refine climbs_onlyIf_must_bind ?_
  refine climbs_zeroHead_bind ?_ (by decide) (by decide) (by decide)
  refine climbs_must_bind fun _ => ?_
  refine climbs_must_bind fun _ => ?_
  exact (climbs_stage (by decide)).mono (by decide) (Nat.le_refl _)

theorem climbs_fatTree (o : CreateOpts) (calls : WindowsCalls) : Climbs 10 90 (fatTree o calls) := by
  refine climbs_must_bind fun _ => ?_
  refine climbs_within_bind ?_ (Nat.le_refl _) (by decide) (by decide)
  refine climbs_onlyIf_must_bind ?_
  refine climbs_stage_bind ?_ (by decide) (by decide) (by decide)
  refine climbs_must_bind fun _ => ?_
  exact climbs_stage_bind (climbs_must _) (by decide) (by decide) (by decide)

theorem climbs_beforeInstallImage (o : CreateOpts) (calls : WindowsCalls) :
    Climbs 5 50 (beforeInstallImage o calls) := by
  refine (climbs_layDown o calls).bind (fun _ _ => ?_) (by decide) (by decide)
  refine climbs_must_bind fun _ => ?_
  refine climbs_within_bind ?_ (Nat.le_refl _) (by decide) (by decide)
  refine climbs_onlyIf_must_bind ?_
  refine climbs_must_bind fun _ => ?_
  exact (climbs_within (by decide) calls.populate).mono (by decide) (Nat.le_refl _)

theorem climbs_wholeTree (o : CreateOpts) (calls : WindowsCalls) :
    Climbs 10 90 (wholeTree o calls) := by
  refine climbs_within_bind ?_ (Nat.le_refl _) (by decide) (by decide)
  refine climbs_onlyIf_must_bind ?_
  refine climbs_must_bind fun _ => ?_
  refine climbs_within_bind ?_ (by decide) (by decide) (by decide)
  exact (climbs_stage (by decide)).mono (by decide) (Nat.le_refl _)

theorem climbs_writeScratchCopy (calls : WindowsCalls) : Climbs 50 88 (writeScratchCopy calls) := by
  refine climbs_must_bind fun _ => ?_
  refine climbs_within_bind ?_ (Nat.le_refl _) (by decide) (by decide)
  refine climbs_must_bind fun _ => ?_
  exact climbs_within (by decide) calls.writeCopy

/-- A direct write of the install image that fails reported no more than the scratch copy that
takes its place reports. -/
def FallbackFits (calls : WindowsCalls) : Prop :=
  ∀ direct, calls.direct = some direct → direct.ok = false → calls.imageScratch = true →
    ∀ count ∈ direct.counts,
      (∀ other ∈ calls.copyOut.counts, mapped 50 38 count ≤ mapped 50 19 other) ∧
      (calls.copyOut.ok = true → calls.copied = true →
        ∀ other ∈ calls.writeCopy.counts, mapped 50 38 count ≤ mapped 69 19 other)

theorem mem_writeScratchCopy {calls : WindowsCalls} {percent : Nat} :
    percent ∈ (writeScratchCopy calls).all ↔ calls.imageScratch = true ∧
      ((∃ count ∈ calls.copyOut.counts, mapped 50 19 count = percent) ∨
        calls.copyOut.ok = true ∧ calls.copied = true ∧
          ∃ count ∈ calls.writeCopy.counts, mapped 69 19 count = percent) := by
  unfold writeScratchCopy
  cases scratch : calls.imageScratch with
  | false => simp [must_false_bind, all]
  | true =>
    rw [must_true_bind]
    cases ok : calls.copyOut.ok with
    | false =>
      have failed : (within 50 19 calls.copyOut).outcome = none := by
        rw [within_outcome, ok]
        rfl
      rw [all_bind_none _ failed, within_all]
      simp
    | true =>
      have done : (within 50 19 calls.copyOut).outcome = some () := by
        rw [within_outcome, ok]
        rfl
      rw [all_bind _ done, within_all]
      cases copied : calls.copied with
      | false => simp [must_false_bind, all]
      | true =>
        rw [must_true_bind, within_all]
        simp

theorem attempt_within_outcome (base span : Nat) (called : Called) :
    (attempt (within base span called)).outcome = some called.ok := by
  unfold attempt Reporting.succeeds
  rw [within_outcome]
  cases called.ok <;> rfl

/-- The reports of the install image are those of the direct write, and those of the scratch
copy where it failed. -/
theorem writeInstallImage_all {calls : WindowsCalls} {direct : Called}
    (given : calls.direct = some direct) : (writeInstallImage calls).all =
      direct.counts.map (mapped 50 38) ++
        if direct.ok then [] else (writeScratchCopy calls).all := by
  unfold writeInstallImage
  rw [given]
  have whole := all_bind (fun wrote => onlyIf (!wrote) (writeScratchCopy calls))
    (attempt_within_outcome 50 38 direct)
  refine whole.trans ?_
  have attempted : (attempt (within 50 38 direct)).all = direct.counts.map (mapped 50 38) :=
    within_all 50 38 direct
  rw [attempted]
  cases direct.ok <;> rfl

theorem climbs_writeInstallImage {calls : WindowsCalls} (fits : FallbackFits calls) :
    Climbs 50 88 (writeInstallImage calls) := by
  cases given : calls.direct with
  | none =>
    have same : writeInstallImage calls = writeScratchCopy calls := by
      unfold writeInstallImage
      rw [given]
    rw [same]
    exact climbs_writeScratchCopy calls
  | some direct =>
    intro rises
    have unfolded : writeInstallImage calls =
        attempt (within 50 38 direct) >>= fun wrote => onlyIf (!wrote) (writeScratchCopy calls) := by
      unfold writeInstallImage
      rw [given]
    rw [unfolded] at rises
    obtain ⟨sorted, bounds⟩ := climbs_within (by decide) direct rises.left
    have later := rises.right (attempt_within_outcome 50 38 direct)
    rw [within_all] at sorted bounds
    rw [writeInstallImage_all given]
    cases wrote : direct.ok with
    | true =>
      rw [if_pos rfl, List.append_nil]
      exact ⟨sorted, bounds⟩
    | false =>
      rw [wrote] at later
      obtain ⟨sorted', bounds'⟩ := climbs_writeScratchCopy calls later
      rw [if_neg (by decide)]
      refine ⟨List.pairwise_append.mpr ⟨sorted, sorted', ?_⟩, ?_⟩
      · intro percent counted other inside
        obtain ⟨count, listed, rfl⟩ := List.mem_map.mp counted
        obtain ⟨scratch, from_copy⟩ := mem_writeScratchCopy.mp inside
        obtain ⟨first, second⟩ := fits direct given wrote scratch count listed
        rcases from_copy with ⟨next, listed', rfl⟩ | ⟨ok, copied, next, listed', rfl⟩
        · exact first next listed'
        · exact second ok copied next listed'
      · intro percent inside
        rcases List.mem_append.mp inside with inside | inside
        · exact bounds percent inside
        · exact bounds' percent inside

theorem climbs_fillTree {o : CreateOpts} {calls : WindowsCalls}
    (fits : o.fs ≠ .fat32 → streams o calls = true → (beforeInstallImage o calls).succeeds = true →
      FallbackFits calls) : Climbs 5 90 (fillTree o calls) := by
  have last {low : Nat} (below : low ≤ 90) : Climbs low 90 (stage 90) :=
    (climbs_stage (by decide)).mono below (Nat.le_refl _)
  unfold fillTree
  split
  · exact (climbs_layDown o calls).bind (fun _ _ => climbs_fatTree o calls) (by decide) (by decide)
  · rename_i fat
    split
    · rename_i streamed
      refine (climbs_beforeInstallImage o calls).bind (fun value done => ?_) (by decide) (by decide)
      have reached : (beforeInstallImage o calls).succeeds = true := by
        rw [Reporting.succeeds, done]
        rfl
      exact (climbs_writeInstallImage (fits fat streamed reached)).bind
        (fun _ _ => last (by decide)) (by decide) (by decide)
    · refine (climbs_layDown o calls).bind (fun _ _ => ?_) (by decide) (by decide)
      exact climbs_must_bind fun _ => climbs_wholeTree o calls

theorem climbs_flowWindows {o : CreateOpts} {calls : WindowsCalls}
    (fits : o.dryRun = false → o.fs = .ntfs → streams o calls = true →
      (beforeInstallImage o calls).succeeds = true → FallbackFits calls) :
    Climbs 5 100 (flowWindows o calls) := by
  refine climbs_must_bind fun kind => ?_
  split
  · exact climbs_must _
  · rename_i real
    refine (climbs_fillTree fun other => fits (Bool.not_eq_true _ ▸ real) ?_).bind
      (fun _ _ => climbs_final (by decide)) (by decide) (by decide)
    simpa [other] using kind

end Macos

end Rufux.Create
