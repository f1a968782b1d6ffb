import Rufux.Mountd.DecodeFirst

/-!
What `dispatch_rpc_call` sends back: the header of a call decides how its reply begins,
and the whole reply is one that the grammar accepts.
-/

namespace Rufux.Mountd

open Rufux.Library Rufux.Library.Grammar

/-- The reader stands at this word of the message, unless it has failed. -/
def XdrReader.At (msg : List UInt8) (index : Nat) (reader : XdrReader) : Prop :=
  reader.err = false → reader.rest = msg.drop (4 * index)

theorem xdrGetU32_clean {reader : XdrReader} (clean : (xdrGetU32 reader).2.err = false) :
    reader.err = false ∧ (xdrGetU32 reader).1 = wordAt 0 reader.rest ∧
      (xdrGetU32 reader).2.rest = reader.rest.drop 4 := by
  unfold xdrGetU32 at clean ⊢
  split at clean
  · exact nomatch clean
  · rename_i sound
    rw [if_neg sound]
    exact ⟨clean, rfl, rfl⟩

theorem XdrReader.At.next {msg : List UInt8} {index : Nat} {reader : XdrReader}
    (at_word : reader.At msg index) : (xdrGetU32 reader).2.At msg (index + 1) := by
  intro clean
  obtain ⟨sound, _, rest⟩ := xdrGetU32_clean clean
  rw [rest, at_word sound, List.drop_drop]
  rfl

theorem XdrReader.At.value {msg : List UInt8} {index : Nat} {reader : XdrReader}
    (at_word : reader.At msg index) (clean : (xdrGetU32 reader).2.err = false) :
    (xdrGetU32 reader).1 = wordAt index msg := by
  obtain ⟨sound, value, _⟩ := xdrGetU32_clean clean
  rw [value, at_word sound, wordAt_drop, Nat.add_zero]

theorem xdrGetOpaque_clean {maxLen : Nat} {reader left : XdrReader} {bytes : List UInt8}
    (found : xdrGetOpaque maxLen reader = (some bytes, left)) : reader.err = false := by
  unfold xdrGetOpaque at found
  dsimp only at found
  split at found
  · exact nomatch found
  · rename_i sound
    have clean : (xdrGetU32 reader).2.err = false :=
      Bool.eq_false_iff.mpr fun failed => sound (Or.inl failed)
    exact (xdrGetU32_clean clean).1

/-- What the header of a call leads to. -/
def Opening.Fits (msg : List UInt8) : Opening → Prop
  | .dropped => True
  | .answered reply =>
      reply = wordsBytes [wordAt 0 msg, 1, 1, 0, 2, 2] ∨
        reply = wordsBytes [wordAt 0 msg, 1, 0, 0, 0] ++ wordBytes 1 ∨
        reply = wordsBytes [wordAt 0 msg, 1, 0, 0, 0] ++ wordsBytes [2, 3, 3]
  | .accepted prog proc wire =>
      prog = wordAt 3 msg ∧ proc = wordAt 5 msg ∧
        (prog = mountProgram ∨ prog = nfsProgram) ∧
        wire.out = wordsBytes [wordAt 0 msg, 1, 0, 0, 0]

theorem openCall_fits (msg : List UInt8) : (openCall msg).Fits msg := by
  have start : XdrReader.At msg 0 { rest := msg, err := false } := fun _ => rfl
  unfold openCall
  dsimp only
  split
  · trivial
  rename_i call
  push Not at call
  have callClean := Bool.eq_false_iff.mpr call.1
  have xid := start.value (xdrGetU32_clean callClean).1
  split
  · trivial
  rename_i versClean
  have versSound := Bool.eq_false_iff.mpr versClean
  split
  · exact Or.inl (by rw [xid])
  split
  · trivial
  rename_i credFound
  have credClean := xdrGetOpaque_clean credFound
  split
  · trivial
  rename_i verfFound
  obtain ⟨procClean, _, _⟩ := xdrGetU32_clean credClean
  have proc := start.next.next.next.next.next.value procClean
  obtain ⟨versReadClean, _, _⟩ := xdrGetU32_clean procClean
  have prog := start.next.next.next.value (xdrGetU32_clean versReadClean).1
  split
  · exact Or.inr (Or.inl (by rw [xid]))
  rename_i known
  split
  · exact Or.inr (Or.inr (by rw [xid]))
  refine ⟨prog, proc, ?_, by rw [xid]⟩
  by_contra unknown
  exact known (not_or.mp unknown)

theorem reads_hyper (hi lo : Nat) : hyper.Reads (wordBytes hi ++ wordBytes lo) :=
  (reads_anyWord hi).andThen (reads_anyWord lo)

theorem reads_xid {xid : Nat} (small : xid < 2 ^ 32) : (oneOf [xid]).Reads (wordBytes xid) := by
  apply reads_word
  rw [Nat.mod_eq_of_lt small]
  exact List.contains_iff_mem.mpr List.mem_cons_self

theorem reads_reply : (oneOf [1]).Reads (wordBytes 1) := reads_word rfl

/-- The words that open an accepted reply say nothing about what follows them. -/
theorem replyGrammar_accepted {xid : Nat} (prog proc : Nat) (small : xid < 2 ^ 32)
    (rest : List UInt8) :
    (replyGrammar xid prog proc).parse (wordsBytes [xid, 1, 0, 0, 0] ++ rest) =
      (union (acceptedBody prog proc)).parse rest := by
  have front : wordsBytes [xid, 1, 0, 0, 0] ++ rest =
      wordBytes xid ++ (wordBytes 1 ++ (wordBytes 0 ++ (wordBytes 0 ++
        ((wordBytes 0 ++ paddedBytes []) ++ rest)))) := rfl
  have verf : (varying 400).Reads (wordBytes 0 ++ paddedBytes []) :=
    reads_varying [] (Nat.zero_le _) (by decide)
  rw [front, replyGrammar, (reads_xid small).parse_andThen, reads_reply.parse_andThen,
    union_wordBytes]
  change (anyWord.andThen ((varying 400).andThen (union (acceptedBody prog proc)))).parse _ = _
  rw [(reads_anyWord 0).parse_andThen, verf.parse_andThen]

/-- A reply to a version of the protocol that the server does not speak. -/
theorem replyGrammar_denied {xid : Nat} (prog proc : Nat) (small : xid < 2 ^ 32) :
    (replyGrammar xid prog proc).Whole (wordsBytes [xid, 1, 1, 0, 2, 2]) := by
  have denied : (replyGrammar xid prog proc).Reads
      (wordBytes xid ++ (wordBytes 1 ++ (wordBytes 1 ++ (wordBytes 0 ++
        (wordBytes 2 ++ wordBytes 2))))) :=
    (reads_xid small).andThen (reads_reply.andThen
      (Reads.union rfl (Reads.union rfl (reads_hyper 2 2))))
  exact denied.whole

/-- A reply whose accept status is one of a rejected call. -/
theorem replyGrammar_rejected {xid status : Nat} {grammar : Grammar} {body : List UInt8}
    (prog proc : Nat) (small : xid < 2 ^ 32)
    (chosen : acceptedBody prog proc (status % 2 ^ 32) = some grammar)
    (reads : grammar.Reads body) :
    (replyGrammar xid prog proc).Whole
      (wordsBytes [xid, 1, 0, 0, 0] ++ (wordBytes status ++ body)) := by
  rw [Whole, replyGrammar_accepted prog proc small]
  exact (Reads.union chosen reads).whole

/-- The reply to a call that is not for this server. -/
theorem answered_whole {msg reply : List UInt8} (opened : openCall msg = .answered reply)
    (prog proc : Nat) : wordAt 0 reply = wordAt 0 msg ∧ 4 ∣ reply.length ∧
      (replyGrammar (wordAt 0 msg) prog proc).Whole reply := by
  have fits := openCall_fits msg
  rw [opened] at fits
  have small := wordAt_lt 0 msg
  have xid (rest : List UInt8) : wordAt 0 (wordBytes (wordAt 0 msg) ++ rest) = wordAt 0 msg :=
    ((@wordAt_append _ []) rfl _).trans (Nat.mod_eq_of_lt small)
  rcases fits with rfl | rfl | rfl
  · exact ⟨xid _, ⟨6, rfl⟩, replyGrammar_denied prog proc small⟩
  · exact ⟨xid _, ⟨6, rfl⟩, replyGrammar_rejected prog proc small rfl reads_nothing⟩
  · exact ⟨xid _, ⟨8, rfl⟩, replyGrammar_rejected prog proc small rfl (reads_hyper 3 3)⟩

/-- The handlers write the results of the procedure after the accept status. -/
theorem handleCall_writes (daemon : Daemon) {prog : Nat} (proc : Nat)
    (known : prog = mountProgram ∨ prog = nfsProgram) :
    Writes daemon.stack (union (acceptedBody prog proc)) (handleCall daemon prog proc) := by
  have refused (grammar : Grammar) {handler : Rpc Unit}
      (same : handler = Rpc.refuse .procUnavail) :
      Writes daemon.stack grammar (xdrPutU32 0 >>= fun _ => handler) := by
    rw [same]
    exact fun _ => ⟨wordBytes 0, rfl, fun _ bad => nomatch bad⟩
  rcases known with rfl | rfl
  · have writes := handleMountProc_writes daemon.stack proc
    cases found : mountResults proc with
    | none =>
        rw [found] at writes
        exact refused _ writes
    | some grammar =>
        rw [found] at writes
        exact Writes.choose found writes
  · have writes := handleNfsProc_writes daemon proc
    cases found : nfsResults proc with
    | none =>
        rw [found] at writes
        exact refused _ writes
    | some grammar =>
        rw [found] at writes
        exact Writes.choose found writes

/-- A call that reached the backend is answered, its results after the accept status. -/
theorem handleCall_answers (daemon : Daemon) (prog proc : Nat) (wire : Wire) :
    (handleCall daemon prog proc wire).Every fun events outcome =>
      events = [] ∨ (∃ value, outcome.1 = .ok value) ∧
        ∃ body, outcome.2.out = wire.out ++ (wordBytes 0 ++ body) ∧
          (prog ≠ mountProgram → StartsSound events body) := by
  by_cases mount : prog = mountProgram
  · subst mount
    apply (handleMountProc_decodesFirst proc { wire with out := wire.out ++ wordBytes 0 }).mono
    rintro events outcome (silent | ⟨finished, body, atEnd, _⟩)
    · exact Or.inl silent
    · refine Or.inr ⟨finished, body, ?_, fun other => absurd rfl other⟩
      rw [atEnd, List.append_assoc]
  · have same : handleCall daemon prog proc wire =
        handleNfsProc daemon proc { wire with out := wire.out ++ wordBytes 0 } := by
      rw [handleCall, if_neg mount]
      rfl
    rw [same]
    apply (handleNfsProc_decodesFirst daemon proc { wire with out := wire.out ++ wordBytes 0 }).mono
    rintro events outcome (silent | ⟨finished, body, atEnd, starts⟩)
    · exact Or.inl silent
    · refine Or.inr ⟨finished, body, ?_, fun _ => starts⟩
      rw [atEnd, List.append_assoc]

section Dispatch

variable {σ : Type} (daemon : Daemon) (backend : (op : FsOp) → σ → op.Result × σ) (state : σ)
  (msg : List UInt8)

/-- Everything the handlers encoded is gone once one of them has refused the call. -/
def RolledBack (reply : List UInt8) : Prop :=
  ∀ prog proc wire refusal left, openCall msg = .accepted prog proc wire →
    ((handleCall daemon prog proc wire).run backend state).value = (.error refusal, left) →
      reply = wire.out ++ wordBytes refusal.acceptStat

/-- The reply, if there is one, answers this call, in whole words that the grammar accepts. -/
def ReplyWellFormed : Prop :=
  ∀ reply, ((dispatchRpcCall daemon msg).run backend state).value = some reply →
    wordAt 0 reply = wordAt 0 msg ∧ 4 ∣ reply.length ∧
      (replyGrammar (wordAt 0 msg) (wordAt 3 msg) (wordAt 5 msg)).Whole reply ∧
        RolledBack daemon backend state msg reply

theorem dispatchRpcCall_accepted {prog proc : Nat} {wire : Wire}
    (opened : openCall msg = .accepted prog proc wire) :
    let served := (handleCall daemon prog proc wire).run backend state
    ((dispatchRpcCall daemon msg).run backend state).value =
        some (closeCall wire.out.length served.value) ∧
      ((dispatchRpcCall daemon msg).run backend state).events = served.events := by
  simp only [dispatchRpcCall, opened, CallProg.run_bind, CallProg.run, List.append_nil, and_self]

/-- What an accepted call gets back, in terms of what its handler did. -/
theorem accepted_reply {prog proc : Nat} {wire : Wire}
    (opened : openCall msg = .accepted prog proc wire) :
    ∃ reply, ((dispatchRpcCall daemon msg).run backend state).value = some reply ∧
      wordAt 0 reply = wordAt 0 msg ∧ 4 ∣ reply.length ∧ RolledBack daemon backend state msg reply ∧
      ((∀ event ∈ ((dispatchRpcCall daemon msg).run backend state).events,
          Stored daemon.stack event) ↔
        (replyGrammar (wordAt 0 msg) (wordAt 3 msg) (wordAt 5 msg)).Whole reply) := by
  obtain ⟨sent, calls⟩ := dispatchRpcCall_accepted daemon backend state msg opened
  have fits := openCall_fits msg
  rw [opened] at fits
  obtain ⟨rfl, rfl, known, header⟩ := fits
  have small := wordAt_lt 0 msg
  have xid (rest : List UInt8) : wordAt 0 (wire.out ++ rest) = wordAt 0 msg := by
    rw [header]
    exact ((@wordAt_append _ []) rfl _).trans (Nat.mod_eq_of_lt small)
  have headerLength : wire.out.length = 20 := by
    rw [header]
    rfl
  obtain ⟨body, atEnd, wrote⟩ := (handleCall_writes daemon (wordAt 5 msg) known wire).run backend state
  have answers := (handleCall_answers daemon (wordAt 3 msg) (wordAt 5 msg) wire).run backend state
  rcases shape : (handleCall daemon (wordAt 3 msg) (wordAt 5 msg) wire).run backend state with
    ⟨events, ⟨outcome, left⟩, later⟩
  rw [shape] at sent calls atEnd wrote answers
  rw [calls]
  refine ⟨_, sent, ?_⟩
  cases outcome with
  | error refusal =>
      have silent : events = [] := by
        rcases answers with silent | ⟨⟨_, bad⟩, _⟩
        · exact silent
        · exact nomatch bad
      have undone : closeCall wire.out.length (.error refusal, left) =
          wire.out ++ wordBytes refusal.acceptStat := by
        change left.out.take wire.out.length ++ _ = _
        rw [atEnd, List.take_left]
      rw [undone]
      refine ⟨xid _, ?_, ?_, iff_of_true ?_ ?_⟩
      · rw [List.length_append, headerLength, wordBytes_length]
        decide
      · intro prog proc other refusal' left' opened' refused
        cases opened.symm.trans opened'
        rw [shape] at refused
        cases refused
        rfl
      · intro event member
        rw [silent] at member
        exact absurd member List.not_mem_nil
      · rw [header]
        cases refusal with
        | garbageArgs => exact replyGrammar_rejected _ _ small rfl reads_nothing
        | procUnavail => exact replyGrammar_rejected _ _ small rfl reads_nothing
  | ok value =>
      obtain ⟨aligned, reads, stuck⟩ := wrote value rfl
      have kept : closeCall wire.out.length (.ok value, left) = wire.out ++ body := atEnd
      rw [kept]
      refine ⟨xid _, ?_, ?_, ?_⟩
      · rw [List.length_append, headerLength]
        exact Nat.dvd_add (by decide) aligned
      · intro prog proc other refusal left' opened' refused
        cases opened.symm.trans opened'
        rw [shape] at refused
        exact nomatch refused
      · rw [Whole, header, replyGrammar_accepted _ _ small]
        constructor
        · exact fun stored => (reads stored).whole
        · intro whole event member
          by_contra missing
          exact (stuck ⟨event, member, missing⟩).not_whole whole

/-- The reply is well formed exactly when every attribute block it marks as present was
stored. -/
theorem reply_wellFormed_iff :
    ReplyWellFormed daemon backend state msg ↔
      ∀ event ∈ ((dispatchRpcCall daemon msg).run backend state).events,
        Stored daemon.stack event := by
  cases opened : openCall msg with
  | dropped =>
      rw [ReplyWellFormed, dispatchRpcCall, opened]
      refine iff_of_true (fun reply sent => nomatch sent) fun event member => ?_
      exact absurd member List.not_mem_nil
  | answered reply =>
      rw [ReplyWellFormed, dispatchRpcCall, opened]
      refine iff_of_true ?_ fun event member => absurd member List.not_mem_nil
      intro other sent
      cases sent
      obtain ⟨xid, aligned, whole⟩ := answered_whole opened (wordAt 3 msg) (wordAt 5 msg)
      refine ⟨xid, aligned, whole, ?_⟩
      intro prog proc wire refusal left accepted
      exact nomatch opened.symm.trans accepted
  | accepted prog proc wire =>
      obtain ⟨reply, sent, xid, aligned, back, whole⟩ :=
        accepted_reply daemon backend state msg opened
      constructor
      · intro wellFormed
        exact whole.mpr (wellFormed reply sent).2.2.1
      · intro stored other sentOther
        cases sent.symm.trans sentOther
        exact ⟨xid, aligned, whole.mp stored, back⟩

end Dispatch

end Rufux.Mountd
