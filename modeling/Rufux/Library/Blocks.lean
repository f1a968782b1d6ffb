import Rufux.Library.Calls

/-!
Blocks of a C function: calls in order, local variables, and a jump out of the block. A monitor
reads the calls of a run and stops at the first one it forbids.
-/

namespace Rufux.Library

section Monitors

variable {Op : Type} {Res : Op → Type} {Stage α : Type}

/-- What a monitor makes of a call in a stage, if it allows it. -/
structure Monitor (Op : Type) (Res : Op → Type) (Stage : Type) where
  next : Stage → CallEvent Op Res → Option Stage

def Monitor.watch (monitor : Monitor Op Res Stage) :
    List (CallEvent Op Res) → Stage → Option Stage
  | [], stage => some stage
  | event :: later, stage => (monitor.next stage event).bind (monitor.watch later)

/-- Every run from the stage is allowed and ends as the postcondition says. -/
def CallProg.Passes (monitor : Monitor Op Res Stage) :
    CallProg Op Res α → Stage → (α → Stage → Prop) → Prop
  | .done value, stage, post => post value stage
  | .call op next, stage, post =>
      ∀ result, ∃ after, monitor.next stage ⟨op, result⟩ = some after ∧
        (next result).Passes monitor after post

/-- Only such calls are made, and every value is such a one. -/
def CallProg.Makes (allowed : Op → Prop) (post : α → Prop) : CallProg Op Res α → Prop
  | .done value => post value
  | .call op next => allowed op ∧ ∀ result, (next result).Makes allowed post

namespace CallProg

section Makes

variable {allowed wider : Op → Prop} {post weaker : α → Prop}

theorem Makes.mono {prog : CallProg Op Res α} (makes : prog.Makes allowed post)
    (calls : ∀ op, allowed op → wider op) (values : ∀ value, post value → weaker value) :
    prog.Makes wider weaker := by
  induction prog with
  | done value => exact values value makes
  | call op next ih => exact ⟨calls op makes.1, fun result => ih result (makes.2 result)⟩

theorem Makes.bind {β : Type} {prog : CallProg Op Res β} {rest : β → CallProg Op Res α}
    {middle : β → Prop} (first : prog.Makes allowed middle)
    (later : ∀ value, middle value → (rest value).Makes allowed post) :
    (prog.bind rest).Makes allowed post := by
  induction prog with
  | done value => exact later value first
  | call op next ih => exact ⟨first.1, fun result => ih result (first.2 result)⟩

theorem Makes.run {σ : Type} {prog : CallProg Op Res α} (makes : prog.Makes allowed post)
    (backend : (op : Op) → σ → Res op × σ) (state : σ) :
    ∀ event ∈ (prog.run backend state).events, allowed event.1 := by
  induction prog generalizing state with
  | done value =>
      intro event member
      exact absurd member List.not_mem_nil
  | call op next ih =>
      intro event member
      rcases List.mem_cons.mp member with rfl | later
      · exact makes.1
      · exact ih _ (makes.2 _) _ event later

theorem Makes.passes {monitor : Monitor Op Res Stage} {stage : Stage} {prog : CallProg Op Res α}
    (makes : prog.Makes allowed post)
    (still : ∀ op result, allowed op → monitor.next stage ⟨op, result⟩ = some stage) :
    prog.Passes monitor stage fun value last => post value ∧ last = stage := by
  induction prog with
  | done value => exact ⟨makes, rfl⟩
  | call op next ih =>
      intro result
      exact ⟨stage, still op result makes.1, ih result (makes.2 result)⟩

end Makes

variable {monitor : Monitor Op Res Stage} {post weaker : α → Stage → Prop}

theorem Passes.mono {prog : CallProg Op Res α} {stage : Stage}
    (passes : prog.Passes monitor stage post)
    (implies : ∀ value stage, post value stage → weaker value stage) :
    prog.Passes monitor stage weaker := by
  induction prog generalizing stage with
  | done value => exact implies value stage passes
  | call op next ih =>
      intro result
      obtain ⟨after, allowed, rest⟩ := passes result
      exact ⟨after, allowed, ih result rest⟩

theorem passes_bind {β : Type} {prog : CallProg Op Res β} {rest : β → CallProg Op Res α}
    {stage : Stage} :
    (prog.bind rest).Passes monitor stage post ↔
      prog.Passes monitor stage fun value stage => (rest value).Passes monitor stage post := by
  induction prog generalizing stage with
  | done value => exact Iff.rfl
  | call op next ih =>
      simp only [bind_call, Passes]
      refine forall_congr' fun result => exists_congr fun after => ?_
      rw [ih]

theorem Passes.run {σ : Type} {prog : CallProg Op Res α} {stage : Stage}
    (passes : prog.Passes monitor stage post)
    (backend : (op : Op) → σ → Res op × σ) (state : σ) :
    ∃ after, monitor.watch (prog.run backend state).events stage = some after ∧
      post (prog.run backend state).value after := by
  induction prog generalizing stage state with
  | done value => exact ⟨stage, rfl, passes⟩
  | call op next ih =>
      obtain ⟨after, allowed, rest⟩ := passes (backend op state).1
      obtain ⟨last, watched, holds⟩ := ih _ rest (backend op state).2
      refine ⟨last, ?_, holds⟩
      simp only [CallProg.run, Monitor.watch, allowed]
      exact watched

end CallProg

/-- Calls that are not harmless are allowed after a guard. The stage says whether one has been
seen. -/
def Monitor.guarded (guard : CallEvent Op Res → Bool) (harmless : Op → Bool) :
    Monitor Op Res Bool where
  next seen event := if harmless event.1 || seen then some (seen || guard event) else none

section Guarded

variable {guard : CallEvent Op Res → Bool} {harmless : Op → Bool}

theorem watch_guarded_split {events : List (CallEvent Op Res)} {seen last : Bool}
    (watched : (Monitor.guarded guard harmless).watch events seen = some last)
    {before after : List (CallEvent Op Res)} {event : CallEvent Op Res}
    (split : events = before ++ event :: after) (dangerous : harmless event.1 = false) :
    seen = true ∨ ∃ earlier ∈ before, guard earlier = true := by
  induction before generalizing events seen with
  | nil =>
      subst split
      simp only [List.nil_append, Monitor.watch, Monitor.guarded, dangerous, Bool.false_or]
        at watched
      cases seen with
      | true => exact .inl rfl
      | false => simp at watched
  | cons head before ih =>
      subst split
      simp only [List.cons_append, Monitor.watch] at watched
      obtain ⟨middle, stepped, watched⟩ := Option.bind_eq_some_iff.mp watched
      simp only [Monitor.guarded] at stepped
      split at stepped
      · obtain rfl := Option.some.inj stepped
        rcases ih watched rfl with passed | ⟨earlier, member, holds⟩
        · rcases Bool.or_eq_true_iff.mp passed with already | now
          · exact .inl already
          · exact .inr ⟨head, List.mem_cons_self, now⟩
        · exact .inr ⟨earlier, List.mem_cons_of_mem head member, holds⟩
      · simp at stepped

theorem watch_guarded_seen {events : List (CallEvent Op Res)} {seen : Bool}
    (watched : (Monitor.guarded guard harmless).watch events seen = some true) :
    seen = true ∨ ∃ event ∈ events, guard event = true := by
  induction events generalizing seen with
  | nil => exact .inl (Option.some.inj watched)
  | cons head events ih =>
      simp only [Monitor.watch] at watched
      obtain ⟨middle, stepped, watched⟩ := Option.bind_eq_some_iff.mp watched
      simp only [Monitor.guarded] at stepped
      split at stepped
      · obtain rfl := Option.some.inj stepped
        rcases ih watched with passed | ⟨event, member, holds⟩
        · rcases Bool.or_eq_true_iff.mp passed with already | now
          · exact .inl already
          · exact .inr ⟨head, List.mem_cons_self, now⟩
        · exact .inr ⟨event, List.mem_cons_of_mem head member, holds⟩
      · simp at stepped

/-- Once a guard has been seen everything is allowed. -/
theorem CallProg.passes_guarded (prog : CallProg Op Res α) :
    prog.Passes (Monitor.guarded guard harmless) true fun _ seen => seen = true := by
  induction prog with
  | done value => exact rfl
  | call op next ih =>
      intro result
      exact ⟨true, by simp [Monitor.guarded], ih result⟩

theorem CallProg.Passes.widen {wider : CallEvent Op Res → Bool} {prog : CallProg Op Res α}
    {seen known : Bool} {post : α → Bool → Prop}
    (passes : prog.Passes (Monitor.guarded guard harmless) seen post)
    (implies : ∀ event, guard event = true → wider event = true)
    (knows : seen = true → known = true) :
    prog.Passes (Monitor.guarded wider harmless) known fun value last =>
      ∃ seen, (seen = true → last = true) ∧ post value seen := by
  induction prog generalizing seen known with
  | done value => exact ⟨seen, knows, passes⟩
  | call op next ih =>
      intro result
      obtain ⟨after, stepped, rest⟩ := passes result
      simp only [Monitor.guarded] at stepped
      split at stepped
      next fits =>
        obtain rfl := Option.some.inj stepped
        refine ⟨known || wider ⟨op, result⟩, ?_, ih result rest ?_⟩
        · simp only [Bool.or_eq_true] at fits
          simp only [Monitor.guarded, Bool.or_eq_true, fits.imp_right knows, if_true]
        · simp only [Bool.or_eq_true]
          exact Or.imp knows (implies _)
      next => simp at stepped

end Guarded

end Monitors

/-- Calls and local variables; no value when the block has been left early. -/
def Block (Op : Type) (Res : Op → Type) (L α : Type) : Type := L → CallProg Op Res (Option α × L)

namespace Block

variable {Op : Type} {Res : Op → Type} {L α β Stage : Type}

instance : Monad (Block Op Res L) where
  pure value := fun locals => .done (some value, locals)
  bind block rest := fun locals =>
    (block locals).bind fun ended =>
      match ended.1 with
      | some value => rest value ended.2
      | none => .done (none, ended.2)

def leave : Block Op Res L α := fun locals => .done (none, locals)

def ask (op : Op) : Block Op Res L (Res op) :=
  fun locals => .call op fun result => .done (some result, locals)

def must (ok : Bool) : Block Op Res L Unit := if ok then pure () else leave

def onlyIf (wanted : Bool) (block : Block Op Res L Unit) : Block Op Res L Unit :=
  if wanted then block else pure ()

@[simp]
theorem onlyIf_true (block : Block Op Res L Unit) : onlyIf true block = block :=
  rfl

@[simp]
theorem onlyIf_false (block : Block Op Res L Unit) : onlyIf false block = pure () :=
  rfl

def locals : Block Op Res L L := fun locals => .done (some locals, locals)

def update (change : L → L) : Block Op Res L Unit := fun locals => .done (some (), change locals)

/-- The block, and whether it ran to its end. -/
def attempt (block : Block Op Res L Unit) : Block Op Res L Bool :=
  fun locals => (block locals).bind fun ended => .done (some ended.1.isSome, ended.2)

/-- A function with local variables of its own, and what it runs before it returns. -/
def scope {M : Type} (start : M) (body : Block Op Res M Unit) (cleanup : Block Op Res M Unit) :
    Block Op Res L Unit :=
  fun locals => (body start).bind fun ended =>
    (cleanup ended.2).bind fun _ => .done (ended.1, locals)

/-- The calls of a block in a run, the value that it leaves and the state of the backend. -/
def execute {σ : Type} (backend : (op : Op) → σ → Res op × σ) (block : Block Op Res L α)
    (start : L) (state : σ) : CallProg.Outcome Op Res (Option α) σ :=
  let outcome := (block start).run backend state
  { outcome with value := outcome.value.1 }

/-- Every answer in a run is one that the backend gives in some state. -/
theorem answered_of_mem {σ : Type} (backend : (op : Op) → σ → Res op × σ)
    (block : Block Op Res L α) (start : L) (state : σ) :
    ∀ event ∈ (block.execute backend start state).events,
      ∃ before, event.2 = (backend event.1 before).1 :=
  CallProg.answered_of_mem backend (block start) state

/-- From these variables and this stage every run is allowed and ends as the postcondition
says. -/
def Wp (monitor : Monitor Op Res Stage) (block : Block Op Res L α)
    (post : Option α → L → Stage → Prop) (locals : L) (stage : Stage) : Prop :=
  (block locals).Passes monitor stage fun ended stage => post ended.1 ended.2 stage

section Rules

variable {monitor : Monitor Op Res Stage} {post weaker : Option α → L → Stage → Prop}
  {own : L} {stage : Stage}

theorem Wp.mono {block : Block Op Res L α} (wp : block.Wp monitor post own stage)
    (implies : ∀ value own stage,
      post value own stage → weaker value own stage) :
    block.Wp monitor weaker own stage :=
  CallProg.Passes.mono wp fun ended stage => implies ended.1 ended.2 stage

@[simp]
theorem wp_pure (value : α) :
    (pure value : Block Op Res L α).Wp monitor post own stage ↔
      post (some value) own stage :=
  Iff.rfl

@[simp]
theorem wp_leave :
    (leave : Block Op Res L α).Wp monitor post own stage ↔ post none own stage :=
  Iff.rfl

/-- How a block goes on: with the rest, or out of it. -/
def Goes (monitor : Monitor Op Res Stage) (rest : β → Block Op Res L α)
    (post : Option α → L → Stage → Prop) (value : Option β) (own : L) (stage : Stage) :
    Prop :=
  match value with
  | some value => (rest value).Wp monitor post own stage
  | none => post none own stage

theorem wp_bind (block : Block Op Res L β) (rest : β → Block Op Res L α) :
    (block >>= rest).Wp monitor post own stage ↔
      block.Wp monitor (Goes monitor rest post) own stage := by
  change ((block own).bind _).Passes monitor stage _ ↔ _
  refine CallProg.passes_bind.trans ?_
  constructor
  · intro passes
    refine CallProg.Passes.mono passes ?_
    rintro ⟨value, after⟩ last holds
    cases value with
    | none => exact holds
    | some value => exact holds
  · intro passes
    refine CallProg.Passes.mono passes ?_
    rintro ⟨value, after⟩ last holds
    cases value with
    | none => exact holds
    | some value => exact holds

@[simp]
theorem goes_none (rest : β → Block Op Res L α) :
    Goes monitor rest post none own stage ↔ post none own stage :=
  Iff.rfl

theorem wp_ask {op : Op} {post : Option (Res op) → L → Stage → Prop} :
    (ask op : Block Op Res L (Res op)).Wp monitor post own stage ↔
      ∀ result, ∃ after, monitor.next stage ⟨op, result⟩ = some after ∧
        post (some result) own after :=
  Iff.rfl

@[simp]
theorem wp_update (change : L → L) {post : Option Unit → L → Stage → Prop} :
    (update change : Block Op Res L Unit).Wp monitor post own stage ↔
      post (some ()) (change own) stage :=
  Iff.rfl

@[simp]
theorem wp_locals {post : Option L → L → Stage → Prop} :
    (locals : Block Op Res L L).Wp monitor post own stage ↔
      post (some own) own stage :=
  Iff.rfl

theorem wp_ask_bind {op : Op} {rest : Res op → Block Op Res L α} :
    (ask op >>= rest).Wp monitor post own stage ↔
      ∀ result, ∃ after, monitor.next stage ⟨op, result⟩ = some after ∧
        (rest result).Wp monitor post own after :=
  (wp_bind _ _).trans wp_ask

theorem leave_bind (rest : β → Block Op Res L α) :
    (leave : Block Op Res L β) >>= rest = leave :=
  rfl

theorem wp_attempt {block : Block Op Res L Unit} {post : Option Bool → L → Stage → Prop} :
    (attempt block).Wp monitor post own stage ↔
      block.Wp monitor (fun value => post (some value.isSome)) own stage :=
  CallProg.passes_bind

theorem wp_scope {M : Type} {start : M} {body cleanup : Block Op Res M Unit}
    {post : Option Unit → L → Stage → Prop} :
    (scope start body cleanup).Wp monitor post own stage ↔
      body.Wp monitor
        (fun value inner stage =>
          cleanup.Wp monitor (fun _ _ stage => post value own stage) inner stage)
        start stage := by
  refine CallProg.passes_bind.trans ?_
  unfold Wp
  simp only [CallProg.passes_bind, CallProg.Passes]

/-- What holds of every run of the block is what its executions show. -/
theorem Wp.execute {block : Block Op Res L α} (wp : block.Wp monitor post own stage)
    {σ : Type} (backend : (op : Op) → σ → Res op × σ) (state : σ) :
    ∃ last after,
      monitor.watch (block.execute backend own state).events stage = some after ∧
        post (block.execute backend own state).value last after := by
  obtain ⟨after, watched, holds⟩ := CallProg.Passes.run wp backend state
  exact ⟨_, after, watched, holds⟩

end Rules

section Steady

variable {monitor : Monitor Op Res Stage} {stage : Stage}

/-- Every run from the stage is allowed and ends in it, the variables as they were. -/
def Steady (monitor : Monitor Op Res Stage) (stage : Stage) (block : Block Op Res L α) : Prop :=
  ∀ own, block.Wp monitor (fun _ after last => after = own ∧ last = stage) own stage

theorem Steady.bind {block : Block Op Res L β} {rest : β → Block Op Res L α}
    (first : block.Steady monitor stage) (later : ∀ value, (rest value).Steady monitor stage) :
    (block >>= rest).Steady monitor stage := by
  intro own
  refine (wp_bind block rest).mpr ((first own).mono ?_)
  rintro value after last ⟨rfl, rfl⟩
  cases value with
  | none => exact ⟨rfl, rfl⟩
  | some value => exact later value after

theorem Steady.onlyIf {block : Block Op Res L Unit} {wanted : Bool}
    (steady : block.Steady monitor stage) : (Block.onlyIf wanted block).Steady monitor stage := by
  cases wanted with
  | true => exact steady
  | false => exact fun _ => ⟨rfl, rfl⟩

theorem Steady.ite {wanted : Prop} [Decidable wanted] {block other : Block Op Res L α}
    (yes : block.Steady monitor stage) (no : other.Steady monitor stage) :
    (if wanted then block else other).Steady monitor stage := by
  split
  next => exact yes
  next => exact no

end Steady

section Hoare

variable {monitor : Monitor Op Res Stage} {left pre middle post : L → Stage → Prop}

def Ends (post left : L → Stage → Prop) (value : Option α) (own : L) (stage : Stage) : Prop :=
  match value with
  | some _ => post own stage
  | none => left own stage

/-- From the precondition every run is allowed. It ends in the postcondition, or is left in what
holds of every jump out of the block. -/
def Hoare (monitor : Monitor Op Res Stage) (left pre : L → Stage → Prop)
    (block : Block Op Res L α) (post : L → Stage → Prop) : Prop :=
  ∀ own stage, pre own stage → block.Wp monitor (Ends post left) own stage

theorem Hoare.bind {block : Block Op Res L β} {rest : β → Block Op Res L α}
    (first : block.Hoare monitor left pre middle)
    (later : ∀ value, (rest value).Hoare monitor left middle post) :
    (block >>= rest).Hoare monitor left pre post := by
  intro own stage holds
  refine (wp_bind block rest).mpr ((first own stage holds).mono ?_)
  intro value after last ended
  cases value with
  | none => exact ended
  | some value => exact later value after last ended

theorem Hoare.weaken {block : Block Op Res L α} (hoare : block.Hoare monitor left pre middle)
    (implies : ∀ own stage, middle own stage → post own stage) :
    block.Hoare monitor left pre post := by
  intro own stage holds
  refine (hoare own stage holds).mono ?_
  intro value after last ended
  cases value with
  | none => exact ended
  | some value => exact implies after last ended

theorem Hoare.strengthen {block : Block Op Res L α} (hoare : block.Hoare monitor left middle post)
    (implies : ∀ own stage, pre own stage → middle own stage) :
    block.Hoare monitor left pre post :=
  fun own stage holds => hoare own stage (implies own stage holds)

theorem Hoare.onlyIf {block : Block Op Res L Unit} {wanted : Bool}
    (keeps : wanted = true → block.Hoare monitor left pre pre) :
    (Block.onlyIf wanted block).Hoare monitor left pre pre := by
  cases wanted with
  | true => exact keeps rfl
  | false => exact fun _ _ holds => holds

theorem Hoare.ite {wanted : Prop} [Decidable wanted] {block other : Block Op Res L α}
    (yes : wanted → block.Hoare monitor left pre post)
    (no : ¬wanted → other.Hoare monitor left pre post) :
    (if wanted then block else other).Hoare monitor left pre post := by
  split
  next holds => exact yes holds
  next fails => exact no fails

end Hoare

/-- A test that evaluates to true. -/
class Holds (test : Bool) : Prop where
  holds : test = true

instance : Holds true := ⟨rfl⟩

/-- The block makes allowed calls only and leaves its variables alone. The instances follow the
text of a block. -/
class Uses (allowed : Op → Bool) (block : Block Op Res L α) : Prop where
  makes : ∀ own, (block own).Makes (allowed · = true) fun ended => ended.2 = own

section Uses

variable {allowed wider : Op → Bool}

instance uses_pure (value : α) : (pure value : Block Op Res L α).Uses allowed :=
  ⟨fun _ => rfl⟩

instance uses_leave : (leave : Block Op Res L α).Uses allowed :=
  ⟨fun _ => rfl⟩

instance uses_ask {op : Op} [fits : Holds (allowed op)] :
    (ask op : Block Op Res L (Res op)).Uses allowed :=
  ⟨fun _ => ⟨fits.holds, fun _ => rfl⟩⟩

instance uses_must (ok : Bool) : (must ok : Block Op Res L Unit).Uses allowed := by
  cases ok with
  | true => exact uses_pure ()
  | false => exact uses_leave

theorem Uses.mono {block : Block Op Res L α} (uses : block.Uses allowed)
    (implies : ∀ op, allowed op = true → wider op = true) : block.Uses wider :=
  ⟨fun own => (uses.makes own).mono implies fun _ same => same⟩

instance uses_bind {block : Block Op Res L β} {rest : β → Block Op Res L α}
    [first : block.Uses allowed] [later : ∀ value, (rest value).Uses allowed] :
    (block >>= rest).Uses allowed := by
  constructor
  intro own
  refine (first.makes own).bind ?_
  rintro ⟨value, after⟩ same
  dsimp only at same
  subst same
  cases value with
  | none => exact rfl
  | some value => exact (later value).makes after

instance uses_onlyIf {block : Block Op Res L Unit} {wanted : Bool} [uses : block.Uses allowed] :
    (onlyIf wanted block).Uses allowed := by
  cases wanted with
  | true => exact uses
  | false => exact uses_pure ()

instance uses_attempt {block : Block Op Res L Unit} [uses : block.Uses allowed] :
    (attempt block).Uses allowed :=
  ⟨fun own => (uses.makes own).bind fun _ same => same⟩

instance uses_ite {wanted : Prop} {decision : Decidable wanted} {block other : Block Op Res L α}
    [yes : block.Uses allowed] [no : other.Uses allowed] :
    (if wanted then block else other).Uses allowed := by
  split
  next => exact yes
  next => exact no

/-- Calls that the monitor does not mind leave the stage as it was. -/
theorem Uses.steady {monitor : Monitor Op Res Stage} {stage : Stage} {block : Block Op Res L α}
    (uses : block.Uses allowed)
    (still : ∀ op result, allowed op = true → monitor.next stage ⟨op, result⟩ = some stage) :
    block.Steady monitor stage :=
  fun own => (uses.makes own).passes still

theorem Uses.execute {block : Block Op Res L α} (uses : block.Uses allowed) {σ : Type}
    (backend : (op : Op) → σ → Res op × σ) (own : L) (state : σ) :
    ∀ event ∈ (block.execute backend own state).events, allowed event.1 = true :=
  (uses.makes own).run backend state

end Uses

section Guarded

variable {guard : CallEvent Op Res → Bool} {harmless : Op → Bool}

/-- Only harmless calls come before a guard. -/
def Guarded (guard : CallEvent Op Res → Bool) (harmless : Op → Bool) (block : Block Op Res L α) :
    Prop :=
  ∀ own stage, block.Wp (Monitor.guarded guard harmless) (fun _ _ _ => True) own stage

/-- The block is guarded, and a guard has been seen when it is not left. -/
def Opens (guard : CallEvent Op Res → Bool) (harmless : Op → Bool) (block : Block Op Res L α) :
    Prop :=
  ∀ own stage, block.Wp (Monitor.guarded guard harmless)
    (fun value _ seen => value.isSome = true → seen = true) own stage

theorem Opens.guarded {block : Block Op Res L α} (opens : block.Opens guard harmless) :
    block.Guarded guard harmless :=
  fun own stage => (opens own stage).mono fun _ _ _ _ => trivial

/-- Blocks of harmless calls are guarded. -/
theorem Uses.guarded {block : Block Op Res L α} (uses : block.Uses harmless) :
    block.Guarded guard harmless := by
  intro own stage
  have makes := uses.makes own
  unfold Wp
  generalize block own = prog at makes
  induction prog generalizing stage with
  | done ended => trivial
  | call op next ih =>
      intro result
      refine ⟨stage || guard ⟨op, result⟩, ?_, ih result _ (makes.2 result)⟩
      simp only [Monitor.guarded, makes.1, Bool.true_or, if_true]

theorem Guarded.bind {block : Block Op Res L β} {rest : β → Block Op Res L α}
    (first : block.Guarded guard harmless) (later : ∀ value, (rest value).Guarded guard harmless) :
    (block >>= rest).Guarded guard harmless := by
  intro own stage
  refine (wp_bind block rest).mpr ((first own stage).mono ?_)
  intro value after seen _
  cases value with
  | none => trivial
  | some value => exact later value after seen

/-- Nothing is left to check after a block that opens. -/
theorem Opens.bind_guarded {block : Block Op Res L β} {rest : β → Block Op Res L α}
    (opens : block.Opens guard harmless) : (block >>= rest).Guarded guard harmless := by
  intro own stage
  refine (wp_bind block rest).mpr ((opens own stage).mono ?_)
  intro value after seen passed
  cases value with
  | none => trivial
  | some value =>
      obtain rfl := passed rfl
      exact (CallProg.passes_guarded _).mono fun _ _ _ => trivial

theorem Opens.bind_left {block : Block Op Res L β} {rest : β → Block Op Res L α}
    (opens : block.Opens guard harmless) : (block >>= rest).Opens guard harmless := by
  intro own stage
  refine (wp_bind block rest).mpr ((opens own stage).mono ?_)
  intro value after seen passed
  cases value with
  | none => simp
  | some value =>
      obtain rfl := passed rfl
      exact (CallProg.passes_guarded _).mono fun _ last still _ => still

theorem Opens.bind_right {block : Block Op Res L β} {rest : β → Block Op Res L α}
    (first : block.Guarded guard harmless) (later : ∀ value, (rest value).Opens guard harmless) :
    (block >>= rest).Opens guard harmless := by
  intro own stage
  refine (wp_bind block rest).mpr ((first own stage).mono ?_)
  intro value after seen _
  cases value with
  | none => simp
  | some value => exact later value after seen

/-- After a call each answer is a guard or what follows it opens. -/
theorem opens_ask_or {op : Op} (fits : harmless op = true) {rest : Res op → Block Op Res L α}
    (later : ∀ result, guard ⟨op, result⟩ = true ∨ (rest result).Opens guard harmless) :
    (ask op >>= rest).Opens guard harmless := by
  intro own stage
  refine wp_ask_bind.mpr ?_
  intro result
  refine ⟨stage || guard ⟨op, result⟩, by simp [Monitor.guarded, fits], ?_⟩
  rcases later result with guards | opens
  · rw [guards, Bool.or_true]
    exact (CallProg.passes_guarded _).mono fun _ last still _ => still
  · exact opens own _

theorem opens_leave : (leave : Block Op Res L α).Opens guard harmless :=
  fun _ _ absent => absurd absent Bool.false_ne_true

/-- A call whose good answer is a guard, and a jump out of the block for the other answers. -/
theorem opens_ask {op : Op} (fits : harmless op = true) (good : Res op → Bool)
    (guards : ∀ result, good result = true → guard ⟨op, result⟩ = true)
    (rest : Unit → Block Op Res L α) :
    (ask op >>= fun result => must (good result) >>= rest).Opens guard harmless := by
  refine opens_ask_or fits ?_
  intro result
  by_cases accepted : good result = true
  · exact .inl (guards result accepted)
  · right
    simp only [must, accepted]
    exact opens_leave

theorem opens_ask_last {op : Op} (fits : harmless op = true) (good : Res op → Bool)
    (guards : ∀ result, good result = true → guard ⟨op, result⟩ = true) :
    (ask op >>= fun result => must (good result) : Block Op Res L Unit).Opens guard harmless := by
  refine opens_ask_or fits ?_
  intro result
  by_cases accepted : good result = true
  · exact .inl (guards result accepted)
  · right
    simp only [must, accepted]
    exact opens_leave

/-- More calls can be guards. -/
theorem Opens.widen {wider : CallEvent Op Res → Bool} {block : Block Op Res L α}
    (opens : block.Opens guard harmless)
    (implies : ∀ event, guard event = true → wider event = true) :
    block.Opens wider harmless := by
  intro own stage
  refine ((opens own stage).widen implies id).mono ?_
  rintro ended last ⟨seen, later, holds⟩ stays
  exact later (holds stays)

theorem Guarded.onlyIf {block : Block Op Res L Unit} {wanted : Bool}
    (guarded : wanted = true → block.Guarded guard harmless) :
    (Block.onlyIf wanted block).Guarded guard harmless := by
  cases wanted with
  | true => exact guarded rfl
  | false => exact fun _ _ => trivial

theorem Guarded.ite {wanted : Prop} [Decidable wanted] {block other : Block Op Res L α}
    (yes : wanted → block.Guarded guard harmless) (no : ¬wanted → other.Guarded guard harmless) :
    (if wanted then block else other).Guarded guard harmless := by
  split
  next holds => exact yes holds
  next fails => exact no fails

theorem Guarded.attempt {block : Block Op Res L Unit} (guarded : block.Guarded guard harmless) :
    (Block.attempt block).Guarded guard harmless :=
  fun own stage => wp_attempt.mpr (guarded own stage)

theorem guarded_update {change : L → L} :
    (update change : Block Op Res L Unit).Guarded guard harmless :=
  fun _ _ => trivial

theorem guarded_locals : (locals : Block Op Res L L).Guarded guard harmless :=
  fun _ _ => trivial

theorem Guarded.scope {M : Type} {start : M} {body cleanup : Block Op Res M Unit}
    (first : body.Guarded guard harmless) (later : cleanup.Guarded guard harmless) :
    (Block.scope start body cleanup : Block Op Res L Unit).Guarded guard harmless := by
  intro own stage
  refine wp_scope.mpr ((first start stage).mono ?_)
  intro value inner seen _
  exact later inner seen

theorem Opens.ite {wanted : Prop} [Decidable wanted] {block other : Block Op Res L α}
    (yes : wanted → block.Opens guard harmless) (no : ¬wanted → other.Opens guard harmless) :
    (if wanted then block else other).Opens guard harmless := by
  split
  next holds => exact yes holds
  next fails => exact no fails

theorem Opens.scope {M : Type} {start : M} {body cleanup : Block Op Res M Unit}
    (first : body.Opens guard harmless) (later : cleanup.Guarded guard harmless) :
    (Block.scope start body cleanup : Block Op Res L Unit).Opens guard harmless := by
  intro own stage
  refine wp_scope.mpr ((first start stage).mono ?_)
  intro value inner seen passed
  cases value with
  | none => exact (later inner seen).mono fun _ _ _ _ => by simp
  | some value =>
      obtain rfl := passed rfl
      exact (CallProg.passes_guarded _).mono fun _ last still _ => still

/-- In a run of a block that opens a guard is among the calls, when it ran to its end. -/
theorem Opens.execute {block : Block Op Res L α} (opens : block.Opens guard harmless)
    {σ : Type} (backend : (op : Op) → σ → Res op × σ) (own : L) (state : σ)
    (ended : (block.execute backend own state).value.isSome = true) :
    ∃ event ∈ (block.execute backend own state).events, guard event = true := by
  obtain ⟨_, last, watched, seen⟩ := (opens own false).execute backend state
  obtain rfl := seen ended
  rcases watch_guarded_seen watched with seen | found
  · exact absurd seen Bool.false_ne_true
  · exact found

/-- In a run of a guarded block a guard comes before each call that is not harmless. -/
theorem Guarded.execute {block : Block Op Res L α} (guarded : block.Guarded guard harmless)
    {σ : Type} (backend : (op : Op) → σ → Res op × σ) (own : L) (state : σ)
    {before after : List (CallEvent Op Res)} {event : CallEvent Op Res}
    (split : (block.execute backend own state).events = before ++ event :: after)
    (dangerous : harmless event.1 = false) : ∃ earlier ∈ before, guard earlier = true := by
  obtain ⟨_, last, watched, _⟩ := (guarded own false).execute backend state
  rcases watch_guarded_split watched split dangerous with seen | found
  · exact absurd seen Bool.false_ne_true
  · exact found

end Guarded

section Answers

variable (answers : (op : Op) → Res op)

/-- The value and the variables that a block leaves when each call has one answer. -/
def answer (block : Block Op Res L α) (own : L) : Option α × L :=
  ((block own).run (fun op (_ : Unit) => (answers op, ())) ()).value

/-- The calls that it makes then. -/
def asked (block : Block Op Res L α) (own : L) : List Op :=
  ((block own).run (fun op (_ : Unit) => (answers op, ())) ()).events.map Sigma.fst

theorem asked_eq_execute (block : Block Op Res L α) (own : L) :
    asked answers block own =
      (block.execute (fun op (_ : Unit) => (answers op, ())) own ()).events.map Sigma.fst :=
  rfl

@[simp]
theorem answer_pure (value : α) (own : L) :
    answer answers (pure value : Block Op Res L α) own = (some value, own) :=
  rfl

@[simp]
theorem asked_pure (value : α) (own : L) :
    asked answers (pure value : Block Op Res L α) own = [] :=
  rfl

@[simp]
theorem answer_must (ok : Bool) (own : L) :
    answer answers (must ok : Block Op Res L Unit) own = (if ok then some () else none, own) := by
  cases ok <;> rfl

@[simp]
theorem asked_must (ok : Bool) (own : L) :
    asked answers (must ok : Block Op Res L Unit) own = [] := by
  cases ok <;> rfl

@[simp]
theorem answer_ask (op : Op) (own : L) :
    answer answers (ask op : Block Op Res L (Res op)) own = (some (answers op), own) :=
  rfl

@[simp]
theorem asked_ask (op : Op) (own : L) :
    asked answers (ask op : Block Op Res L (Res op)) own = [op] :=
  rfl

@[simp]
theorem answer_onlyIf (wanted : Bool) (block : Block Op Res L Unit) (own : L) :
    answer answers (onlyIf wanted block) own =
      if wanted then answer answers block own else (some (), own) := by
  cases wanted <;> rfl

@[simp]
theorem asked_onlyIf (wanted : Bool) (block : Block Op Res L Unit) (own : L) :
    asked answers (onlyIf wanted block) own = if wanted then asked answers block own else [] := by
  cases wanted <;> rfl

@[simp]
theorem answer_bind (block : Block Op Res L β) (rest : β → Block Op Res L α) (own : L) :
    answer answers (block >>= rest) own =
      match answer answers block own with
      | (some value, after) => answer answers (rest value) after
      | (none, after) => (none, after) := by
  unfold answer
  change (((block own).bind _).run _ ()).value = _
  rw [CallProg.run_bind]
  dsimp only
  generalize (block own).run (fun op (_ : Unit) => (answers op, ())) () = first
  rcases first with ⟨events, ⟨value, after⟩, state⟩
  cases value with
  | none => rfl
  | some value => rfl

@[simp]
theorem asked_bind (block : Block Op Res L β) (rest : β → Block Op Res L α) (own : L) :
    asked answers (block >>= rest) own =
      asked answers block own ++
        match answer answers block own with
        | (some value, after) => asked answers (rest value) after
        | (none, _) => [] := by
  unfold answer asked
  change (((block own).bind _).run _ ()).events.map Sigma.fst = _
  rw [CallProg.run_bind]
  dsimp only
  rw [List.map_append]
  congr 1
  generalize (block own).run (fun op (_ : Unit) => (answers op, ())) () = first
  rcases first with ⟨events, ⟨value, after⟩, state⟩
  cases value with
  | none => rfl
  | some value => rfl

theorem mem_asked_bind {block : Block Op Res L β} {rest : β → Block Op Res L α} {own : L} {op : Op}
    (first : op ∈ asked answers block own) : op ∈ asked answers (block >>= rest) own := by
  rw [asked_bind]
  exact List.mem_append_left _ first

theorem mem_asked_rest {block : Block Op Res L β} {rest : β → Block Op Res L α} {own after : L}
    {value : β} {op : Op} (ended : answer answers block own = (some value, after))
    (later : op ∈ asked answers (rest value) after) :
    op ∈ asked answers (block >>= rest) own := by
  rw [asked_bind, ended]
  exact List.mem_append_right _ later

end Answers

end Block

end Rufux.Library
