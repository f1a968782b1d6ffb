import Rufux.Library.RecordSending
import Rufux.Library.Serial
import Rufux.Mountd.Poll

/-!
One readable event of a connection: what it reads does not depend on the other connections, and
what it sends are the replies to the calls that it read.
-/

namespace Rufux.Mountd

open Library

section Sending

/-- A sending is whole exactly when it ended well; otherwise a part of the bytes went out. -/
def Sent.Fits (buf : List UInt8) (sent : Sent) : Prop :=
  sent.out <+: buf ∧ (sent.ok = true ↔ sent.out = buf)

theorem sendAllLoopback_fits (buf : List UInt8) (steps : List SendStep) :
    (sendAllLoopback buf steps).Fits buf := by
  induction steps generalizing buf with
  | nil =>
      constructor
      · exact List.nil_prefix
      · simp only [sendAllLoopback, List.isEmpty_iff]
        exact eq_comm
  | cons step left ih =>
      simp only [sendAllLoopback]
      by_cases empty : buf = []
      · simp [empty, Sent.Fits]
      · rw [if_neg empty]
        cases step with
        | wrote more =>
            obtain ⟨front, whole⟩ := ih (buf.drop (more + 1))
            have split := List.take_append_drop (more + 1) buf
            constructor
            · conv_rhs => rw [← split]
              exact (List.prefix_append_right_inj _).mpr front
            · rw [whole]
              conv_rhs => rhs; rw [← split]
              exact List.append_right_inj _ |>.symm
        | interrupted => exact ih buf
        | full ready =>
            cases ready with
            | true => exact ih buf
            | false => simp [Sent.Fits, eq_comm, empty]
        | failed => simp [Sent.Fits, eq_comm, empty]

theorem sendRpcRecord_fits {payload : List UInt8} (small : payload.length ≤ longestReply)
    (steps : List SendStep) : (sendRpcRecord payload steps).Fits (markRecord payload) := by
  have header := sendAllLoopback_fits (wordBytes (0x80000000 ||| payload.length)) steps
  rw [sendRpcRecord, if_neg (by omega), markRecord]
  generalize sendAllLoopback (wordBytes (0x80000000 ||| payload.length)) steps = first at header ⊢
  obtain ⟨front, whole⟩ := header
  by_cases sent : first.ok = true
  · have body := sendAllLoopback_fits payload first.left
    have out := whole.mp sent
    simp only [sent, if_true]
    by_cases some : 0 < payload.length
    · simp only [Sent.Fits, if_pos some, out]
      constructor
      · exact (List.prefix_append_right_inj _).mpr body.1
      · rw [body.2]
        exact (List.append_right_inj _).symm
    · have empty : payload = [] := List.eq_nil_of_length_eq_zero (by omega)
      rw [if_neg some]
      simp [Sent.Fits, sent, out, empty]
  · rw [if_neg sent]
    constructor
    · exact front.trans (List.prefix_append _ _)
    · constructor
      · intro ended
        exact absurd ended sent
      · intro all
        have short := front.length_le
        rw [all, List.length_append] at short
        have empty : payload = [] := List.eq_nil_of_length_eq_zero (by omega)
        rw [empty, List.append_nil] at all
        rw [empty] at whole
        exact whole.mpr all

/-- The replies to some calls went out whole, one after the other. -/
def SentAll (answered : List (Option (List UInt8))) (sent : List UInt8) : Prop :=
  ∃ replies : List (List UInt8), answered = replies.map some ∧
    (∀ reply ∈ replies, reply.length ≤ longestReply) ∧ sent = replies.flatMap markRecord

/-- The reply to the last of some calls did not go out, or not as a whole. -/
def SentShort (answered : List (Option (List UInt8))) (sent : List UInt8) : Prop :=
  ∃ (replies : List (List UInt8)) (last : Option (List UInt8)) (part : List UInt8),
    answered = replies.map some ++ [last] ∧
    (∀ reply ∈ replies, reply.length ≤ longestReply) ∧ sent = replies.flatMap markRecord ++ part ∧
    (part = [] ∨ ∃ reply, last = some reply ∧ reply.length ≤ longestReply ∧
      part <+: markRecord reply ∧ part ≠ markRecord reply)

variable {answered : List (Option (List UInt8))} {sent : List UInt8}

theorem SentAll.then (all : SentAll answered sent) {reply : List UInt8} {steps : List SendStep}
    (ended : (sendRpcRecord reply steps).ok = true) :
    SentAll (answered ++ [some reply]) (sent ++ (sendRpcRecord reply steps).out) := by
  obtain ⟨replies, rfl, fit, rfl⟩ := all
  have small : reply.length ≤ longestReply := by
    by_contra long
    rw [sendRpcRecord, if_pos (by omega)] at ended
    exact Bool.noConfusion ended
  have whole := (sendRpcRecord_fits small steps).2.mp ended
  refine ⟨replies ++ [reply], by simp, ?_, by simp [whole]⟩
  intro other member
  rcases List.mem_append.mp member with old | new
  · exact fit other old
  · exact List.mem_singleton.mp new ▸ small

theorem SentAll.thenShort (all : SentAll answered sent) {reply : List UInt8}
    {steps : List SendStep} (broken : (sendRpcRecord reply steps).ok = false) :
    SentShort (answered ++ [some reply]) (sent ++ (sendRpcRecord reply steps).out) := by
  obtain ⟨replies, rfl, fit, rfl⟩ := all
  refine ⟨replies, some reply, _, rfl, fit, rfl, ?_⟩
  by_cases small : reply.length ≤ longestReply
  · obtain ⟨front, whole⟩ := sendRpcRecord_fits small steps
    refine .inr ⟨reply, rfl, small, front, ?_⟩
    intro all
    rw [whole.mpr all] at broken
    exact Bool.noConfusion broken
  · left
    rw [sendRpcRecord, if_pos (by omega)]

theorem SentAll.thenDropped (all : SentAll answered sent) : SentShort (answered ++ [none]) sent := by
  obtain ⟨replies, rfl, fit, rfl⟩ := all
  exact ⟨replies, none, [], rfl, fit, by simp, .inl rfl⟩

/-- What the peer reads of replies that all went out are these replies. -/
theorem SentAll.read (all : SentAll answered sent) :
    ((readRecords longestReply [] sent).1).map some = answered := by
  obtain ⟨replies, rfl, fit, rfl⟩ := all
  rw [readRecords_flatMap_markRecord (by decide) fit]

/-- What the peer reads of replies the last of which is not whole are the others. -/
theorem SentShort.read (short : SentShort answered sent) :
    ((readRecords longestReply [] sent).1).map some <+: answered ∧
      answered.length = (readRecords longestReply [] sent).1.length + 1 := by
  obtain ⟨replies, last, part, rfl, fit, rfl, rest⟩ := short
  have read : (readRecords longestReply [] (replies.flatMap markRecord ++ part)).1 = replies := by
    rcases rest with rfl | ⟨reply, rfl, small, front, less⟩
    · rw [List.append_nil, readRecords_flatMap_markRecord (by decide) fit]
    · rw [readRecords_marked (by decide) fit small front less]
  rw [read]
  simp

end Sending

section Reading

/-- What a client slot makes of one more byte: it goes on, it has read too long a mark, or it has
read the last byte of a record. -/
inductive Settled where
  | going (client : RpcClient)
  | oversized
  | record (client : RpcClient) (msg : List UInt8)

/-- The end of a fragment. -/
def RpcClient.ended (c : RpcClient) : Settled :=
  if c.fragLast then .record { c with haveHdr := false, msg := [] } c.msg
  else .going { c with haveHdr := false }

def RpcClient.settled (c : RpcClient) : Settled :=
  if c.haveHdr = false then
    if c.hdr.length < 4 then .going c
    else
      match takeHeader c with
      | none => .oversized
      | some c => if 0 < c.fragRem then .going c else c.ended
  else if 0 < c.fragRem then .going c
  else c.ended

def RpcClient.next (c : RpcClient) (byte : UInt8) : Settled :=
  RpcClient.settled (if c.haveHdr = false then { c with hdr := c.hdr ++ [byte] }
    else { c with msg := c.msg ++ [byte], fragRem := c.fragRem - 1 })

variable {σ : Type} (dispatch : σ → List UInt8 → σ × Bool)

def Conn.after (conn : Conn σ) : Settled → Conn σ
  | .going client => { conn with client }
  | .oversized => clientClose conn
  | .record client msg =>
      let (server, accepted) := dispatch conn.server msg
      let next := { conn with client, server, handed := conn.handed ++ [msg] }
      if accepted then next else clientClose next

theorem Conn.after_client (conn : Conn σ) (client : RpcClient) (settled : Settled) :
    ({ conn with client } : Conn σ).after dispatch settled = conn.after dispatch settled := by
  cases settled <;> rfl

theorem complete_eq (conn : Conn σ) (client : RpcClient) :
    complete dispatch { conn with client } = conn.after dispatch client.ended := by
  by_cases last : client.fragLast = true
  · cases accepted : (dispatch conn.server client.msg).2 with
    | true => simp [complete, finishFragment, RpcClient.ended, Conn.after, last, accepted]
    | false =>
        simp [complete, finishFragment, RpcClient.ended, Conn.after, last, accepted, clientClose]
  · simp [complete, finishFragment, RpcClient.ended, Conn.after, last]

theorem settle_eq (conn : Conn σ) :
    settle dispatch conn = conn.after dispatch conn.client.settled := by
  simp only [settle, RpcClient.settled]
  split
  · split
    · rfl
    · cases takeHeader conn.client with
      | none => rfl
      | some taken =>
          dsimp only
          split
          · rfl
          · exact complete_eq dispatch conn taken
  · split
    · rfl
    · exact complete_eq dispatch conn conn.client

/-- The next byte of an open connection, whatever server is behind it. -/
theorem feed_open {conn : Conn σ} (live : conn.closed = false) (byte : UInt8) :
    feed dispatch conn byte = conn.after dispatch (conn.client.next byte) := by
  rw [feed, if_neg (by simp [live]), settle_eq, RpcClient.next, absorb]
  split
  · exact Conn.after_client dispatch conn _ _
  · exact Conn.after_client dispatch conn _ _

end Reading

section Events

/-- A reader whose server takes every record. -/
def always (_ : Unit) (_ : List UInt8) : Unit × Bool := ((), true)

def scanned (stream : List UInt8) : Conn Unit := stream.foldl (feed always) { server := () }

theorem scanned_handed (stream : List UInt8) :
    (scanned stream).handed = (readRecords mountdMaxRpcMsg [] stream).1 := by
  have read := (@feed_reads _ always) [] stream { server := () } (fresh_between ())
  have taken : ∀ (records handed : List (List UInt8)) (ending : Ending),
      (handOver always () handed records ending).1 = handed ++ records := by
    intro records
    induction records with
    | nil => simp [handOver]
    | cons first rest ih => simp [handOver, always, ih]
  simpa [taken, scanned, Conn.outcome] using congrArg Prod.fst read

theorem handed_grows (conn : Conn Unit) (byte : UInt8) :
    conn.handed <+: (feed always conn byte).handed := by
  cases live : conn.closed with
  | true => simp [feed, live]
  | false =>
      rw [feed_open always live]
      cases conn.client.next byte with
      | going client => exact List.prefix_refl _
      | oversized => exact List.prefix_refl _
      | record client msg => exact List.prefix_append _ _

variable {σ : Type} (dispatch : σ → List UInt8 → σ × Option (List UInt8)) (peer : Nat)

/-- What the calls of one connection, made one after the other, are answered with. -/
def answersTo (world : σ) (handed : List (List UInt8)) : List (Option (List UInt8)) :=
  ofClient peer (answers dispatch world (handed.map (Prod.mk peer)))

def worldAfter (world : σ) (handed : List (List UInt8)) : σ :=
  serial dispatch world (handed.map (Prod.mk peer))

theorem answersTo_snoc (world : σ) (handed : List (List UInt8)) (msg : List UInt8) :
    answersTo dispatch peer world (handed ++ [msg]) =
      answersTo dispatch peer world handed ++
        [(dispatch (worldAfter dispatch peer world handed) msg).2] := by
  rw [answersTo, List.map_append, answers_append, ofClient_append]
  simp [answersTo, worldAfter, answers, ofClient]

theorem worldAfter_snoc (world : σ) (handed : List (List UInt8)) (msg : List UInt8) :
    worldAfter dispatch peer world (handed ++ [msg]) =
      (dispatch (worldAfter dispatch peer world handed) msg).1 := by
  simp [worldAfter, serial]

/-- A connection in the middle of an event, against a reader of the same stream: it has come as far
as the reader, and has answered all that it read. -/
structure Level (world : σ) (old : List (List UInt8)) (past : List (Option (List UInt8)))
    (reader : Conn Unit) (conn : Conn (Outlet σ)) : Prop where
  closed : conn.closed = reader.closed
  client : conn.client = reader.client
  handed : reader.handed = old ++ conn.handed
  served : conn.server.world = worldAfter dispatch peer world conn.handed
  sent : SentAll (past ++ answersTo dispatch peer world conn.handed) conn.server.sent

/-- A connection that was closed at a call, the reply to which is missing. -/
structure Short (world : σ) (old : List (List UInt8)) (past : List (Option (List UInt8)))
    (reader : Conn Unit) (conn : Conn (Outlet σ)) : Prop where
  closed : conn.closed = true
  client : conn.client = {}
  handed : old ++ conn.handed <+: reader.handed
  served : conn.server.world = worldAfter dispatch peer world conn.handed
  sent : SentShort (past ++ answersTo dispatch peer world conn.handed) conn.server.sent

variable {dispatch peer} {world : σ} {old : List (List UInt8)}
  {past : List (Option (List UInt8))} {reader : Conn Unit} {conn : Conn (Outlet σ)}

theorem Short.feed (short : Short dispatch peer world old past reader conn) (byte : UInt8) :
    Short dispatch peer world old past (feed always reader byte)
      (feed (answerCall dispatch) conn byte) := by
  rw [show Mountd.feed (answerCall dispatch) conn byte = conn by simp [Mountd.feed, short.closed]]
  exact { short with handed := short.handed.trans (handed_grows reader byte) }

/-- A record is handed on: the call is answered, or the connection is closed at it. -/
theorem Level.record (level : Level dispatch peer world old past reader conn)
    (live : conn.closed = false) (client : RpcClient) (msg : List UInt8) :
    Level dispatch peer world old past (reader.after always (.record client msg))
        (conn.after (answerCall dispatch) (.record client msg)) ∨
      Short dispatch peer world old past (reader.after always (.record client msg))
        (conn.after (answerCall dispatch) (.record client msg)) := by
  have answer := answersTo_snoc dispatch peer world conn.handed msg
  have after := worldAfter_snoc dispatch peer world conn.handed msg
  have open' : reader.closed = false := level.closed ▸ live
  rw [← level.served] at answer after
  have same : reader.handed ++ [msg] = old ++ (conn.handed ++ [msg]) := by
    rw [level.handed, List.append_assoc]
  have sent := level.sent
  rcases called : dispatch conn.server.world msg with ⟨next, _ | reply⟩
  · rw [called] at answer after
    refine .inr ⟨?_, ?_, ?_, ?_, ?_⟩
    · simp [Conn.after, answerCall, called, clientClose]
    · simp [Conn.after, answerCall, called, clientClose]
    · simp [Conn.after, answerCall, called, clientClose, always, same]
    · simp [Conn.after, answerCall, called, clientClose, after]
    · simp only [Conn.after, answerCall, called, clientClose, answer, Bool.false_eq_true, if_false]
      rw [← List.append_assoc]
      exact sent.thenDropped
  · rw [called] at answer after
    cases ended : (sendRpcRecord reply conn.server.steps).ok with
    | true =>
        refine .inl ⟨?_, ?_, ?_, ?_, ?_⟩
        · simp [Conn.after, answerCall, called, ended, always, live, open']
        · simp [Conn.after, answerCall, called, ended, always]
        · simp [Conn.after, answerCall, called, ended, always, same]
        · simp [Conn.after, answerCall, called, ended, after]
        · simp only [Conn.after, answerCall, called, ended, answer, if_true]
          rw [← List.append_assoc]
          exact sent.then ended
    | false =>
        refine .inr ⟨?_, ?_, ?_, ?_, ?_⟩
        · simp [Conn.after, answerCall, called, ended, clientClose]
        · simp [Conn.after, answerCall, called, ended, clientClose]
        · simp [Conn.after, answerCall, called, ended, clientClose, always, same]
        · simp [Conn.after, answerCall, called, ended, clientClose, after]
        · simp only [Conn.after, answerCall, called, ended, clientClose, answer,
            Bool.false_eq_true, if_false]
          rw [← List.append_assoc]
          exact sent.thenShort ended

theorem Level.feed (level : Level dispatch peer world old past reader conn) (byte : UInt8) :
    Level dispatch peer world old past (feed always reader byte)
        (feed (answerCall dispatch) conn byte) ∨
      Short dispatch peer world old past (feed always reader byte)
        (feed (answerCall dispatch) conn byte) := by
  cases live : conn.closed with
  | true =>
      left
      have closed := level.closed ▸ live
      simpa [Mountd.feed, live, closed] using level
  | false =>
      have open' : reader.closed = false := level.closed ▸ live
      rw [feed_open always open', feed_open (answerCall dispatch) live, level.client]
      cases reader.client.next byte with
      | going client => exact .inl { level with client := rfl }
      | oversized => exact .inl { level with closed := rfl, client := rfl }
      | record client msg => exact level.record live client msg

/-- Bytes of one event keep a connection level with the reader until it is closed at a call. -/
theorem Level.foldl (bytes : List UInt8) (level : Level dispatch peer world old past reader conn) :
    Level dispatch peer world old past (bytes.foldl (Mountd.feed always) reader)
        (bytes.foldl (Mountd.feed (answerCall dispatch)) conn) ∨
      Short dispatch peer world old past (bytes.foldl (Mountd.feed always) reader)
        (bytes.foldl (Mountd.feed (answerCall dispatch)) conn) := by
  induction bytes generalizing reader conn with
  | nil => exact .inl level
  | cons byte rest ih =>
      rcases level.feed byte with still | short
      · exact ih still
      · right
        clear ih level
        induction rest generalizing reader conn byte with
        | nil => exact short
        | cons next rest ih => exact ih next (short.feed next)

end Events

end Rufux.Mountd
