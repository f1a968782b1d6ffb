import Rufux.Mountd.PollEvents
import Rufux.Mountd.RpcReply

/-!
The poll loop over whole runs: the server is as if it had handled the calls one after the other, and
each peer was answered its own calls, in the order it made them.
-/

namespace Rufux.Mountd

open Library

section Scanning

theorem scanned_append (stream more : List UInt8) :
    scanned (stream ++ more) = more.foldl (feed always) (scanned stream) :=
  List.foldl_append

theorem scanned_idle (stream : List UInt8) : (scanned stream).Idle := by
  obtain ⟨bytes, ends⟩ := onePiece_bytes stream false
  obtain ⟨fed, idle⟩ := pollReadable_feeds always (fresh_idle ()) (onePiece stream false)
  rw [feedScript_bytes, bytes, ends, if_neg Bool.false_ne_true] at fed
  rw [fed] at idle
  exact idle

theorem Conn.Idle.client_of_closed {σ : Type} {conn : Conn σ} (idle : conn.Idle)
    (closed : conn.closed = true) : conn.client = {} := by
  rcases idle with same | ⟨opened, _⟩
  · rw [same]
    rfl
  · have live := opened.live
    rw [closed] at live
    exact Bool.noConfusion live

end Scanning

variable {σ : Type} (dispatch : σ → List UInt8 → σ × Option (List UInt8))

section Events

variable (peer : Nat) (world : σ) (old : List (List UInt8)) (past : List (Option (List UInt8)))
  (reader : Conn Unit) (conn : Conn (Outlet σ))

/-- What a connection comes to in one event. -/
structure Event : Prop where
  served : conn.server.world = worldAfter dispatch peer world conn.handed
  live : conn.closed = false → Level dispatch peer world old past reader conn
  gone : conn.closed = true → conn.client = {}
  kept : (reader.handed = old ++ conn.handed ∧
      SentAll (past ++ answersTo dispatch peer world conn.handed) conn.server.sent) ∨
    (old ++ conn.handed <+: reader.handed ∧
      SentShort (past ++ answersTo dispatch peer world conn.handed) conn.server.sent)

variable {dispatch peer world old past reader conn}

theorem Level.event (level : Level dispatch peer world old past reader conn) (idle : conn.Idle)
    (script : List Delivery) :
    Event dispatch peer world old past ((bytesOf script).foldl (Mountd.feed always) reader)
      (pollReadable (answerCall dispatch) conn script) := by
  obtain ⟨fed, still⟩ := pollReadable_feeds (answerCall dispatch) idle script
  rw [feedScript_bytes] at fed
  have gone := still.client_of_closed
  rcases level.foldl (bytesOf script) with level | short
  · cases ends : endsIn script with
    | true =>
        rw [ends, if_pos rfl] at fed
        rw [fed] at gone ⊢
        exact ⟨level.served, fun live => Bool.noConfusion live, gone,
          .inl ⟨level.handed, level.sent⟩⟩
    | false =>
        rw [ends, if_neg Bool.false_ne_true] at fed
        rw [fed] at gone ⊢
        exact ⟨level.served, fun _ => level, gone, .inl ⟨level.handed, level.sent⟩⟩
  · have closed := short.closed
    cases ends : endsIn script with
    | true =>
        rw [ends, if_pos rfl] at fed
        rw [fed] at gone ⊢
        exact ⟨short.served, fun live => Bool.noConfusion live, gone,
          .inr ⟨short.handed, short.sent⟩⟩
    | false =>
        rw [ends, if_neg Bool.false_ne_true] at fed
        rw [fed] at gone ⊢
        refine ⟨short.served, ?_, gone, .inr ⟨short.handed, short.sent⟩⟩
        intro live
        rw [closed] at live
        exact Bool.noConfusion live

end Events

namespace Poll

section Peers

variable (world : σ) (p : Poll σ) (peer : Nat)

/-- The calls made for a peer. -/
def callsOf : List (List UInt8) := ofClient peer p.calls

/-- What these calls are answered with when all the calls are made one after the other. -/
def answersOf : List (Option (List UInt8)) := ofClient peer (answers dispatch world p.calls)

/-- The messages in what a peer has sent. -/
def messagesOf : List (List UInt8) := (readRecords mountdMaxRpcMsg [] (p.received peer)).1

/-- The replies in what a peer was sent. -/
def repliesTo : List (List UInt8) := (readRecords longestReply [] (p.sent peer)).1

/-- All that a peer sent was called, and the calls were answered. -/
structure Whole : Prop where
  calls : p.callsOf peer = p.messagesOf peer
  sent : SentAll (p.answersOf dispatch world peer) (p.sent peer)

/-- The last of the calls made for a peer was not answered. -/
structure Cut : Prop where
  calls : p.callsOf peer <+: p.messagesOf peer
  sent : SentShort (p.answersOf dispatch world peer) (p.sent peer)

/-- A slot and the connection in it. -/
structure Served (i : Fin maxRpcClients) : Prop where
  whole : p.Whole dispatch world peer
  client : (p.slots i).client = (scanned (p.received peer)).client
  live : (scanned (p.received peer)).closed = false

/-- The server between two turns, `world` being the state it started in. -/
structure Orderly : Prop where
  served : p.world = serial dispatch world p.calls
  known : ∀ i peer, (p.slots i).fd = some peer → peer < p.accepted
  unknown : ∀ peer, p.accepted ≤ peer →
    p.received peer = [] ∧ p.sent peer = [] ∧ p.callsOf peer = []
  apart : ∀ i j peer, (p.slots i).fd = some peer → (p.slots j).fd = some peer → i = j
  free : ∀ i, (p.slots i).fd = none → (p.slots i).client = {}
  held : ∀ i peer, (p.slots i).fd = some peer → p.Served dispatch world peer i
  peers : ∀ peer, p.Whole dispatch world peer ∨ p.Cut dispatch world peer

/-- Nothing happened to a peer. -/
structure Alike (p p' : Poll σ) : Prop where
  received : p'.received peer = p.received peer
  sent : p'.sent peer = p.sent peer
  calls : p'.callsOf peer = p.callsOf peer
  answers : p'.answersOf dispatch world peer = p.answersOf dispatch world peer

end Peers

section Steps

variable {dispatch} {world : σ} {p p' : Poll σ} {peer : Nat} {i : Fin maxRpcClients}

theorem Whole.alike (whole : p.Whole dispatch world peer) (alike : Alike dispatch world peer p p') :
    p'.Whole dispatch world peer := by
  constructor
  · rw [alike.calls, messagesOf, alike.received]
    exact whole.calls
  · rw [alike.answers, alike.sent]
    exact whole.sent

theorem Cut.alike (cut : p.Cut dispatch world peer) (alike : Alike dispatch world peer p p') :
    p'.Cut dispatch world peer := by
  constructor
  · rw [alike.calls, messagesOf, alike.received]
    exact cut.calls
  · rw [alike.answers, alike.sent]
    exact cut.sent

theorem Served.alike (served : p.Served dispatch world peer i)
    (alike : Alike dispatch world peer p p')
    (same : (p'.slots i).client = (p.slots i).client) : p'.Served dispatch world peer i := by
  refine ⟨served.whole.alike alike, ?_, ?_⟩
  · rw [same, alike.received]
    exact served.client
  · rw [alike.received]
    exact served.live

theorem Served.idle (served : p.Served dispatch world peer i) (steps : List SendStep) :
    (p.conn i peer steps).Idle := by
  rcases scanned_idle (p.received peer) with closed | ⟨opened, more⟩
  · have flag := congrArg Conn.closed closed
    rw [served.live] at flag
    exact Bool.noConfusion flag
  · right
    have header := opened.header
    rw [← served.client] at header
    rw [wanted, ← served.client] at more
    exact ⟨⟨rfl, header⟩, more⟩

theorem Served.level (served : p.Served dispatch world peer i) (steps : List SendStep) :
    Level dispatch peer p.world (p.callsOf peer) (p.answersOf dispatch world peer)
      (scanned (p.received peer)) (p.conn i peer steps) where
  closed := served.live.symm
  client := served.client
  handed := by
    rw [scanned_handed, conn, List.append_nil]
    exact served.whole.calls.symm
  served := rfl
  sent := by
    rw [conn, answersTo]
    simpa [answers, ofClient] using served.whole.sent

theorem ofClient_answers_other {other : Nat} (different : other ≠ peer) (state : σ)
    (handed : List (List UInt8)) :
    ofClient other (answers dispatch state (handed.map (Prod.mk peer))) = [] := by
  have length := (answered_ofClient dispatch other state (handed.map (Prod.mk peer))).length_eq
  rw [ofClient_other different.symm] at length
  exact List.eq_nil_of_length_eq_zero length.symm

section Slots

variable {slots : Fin maxRpcClients → Slot} {slot : Slot} {j : Fin maxRpcClients}

theorem seated_update (seated : (Function.update slots i slot j).fd = some peer) :
    (j = i ∧ slot.fd = some peer) ∨ (j ≠ i ∧ (slots j).fd = some peer) := by
  by_cases same : j = i
  · subst same
    rw [Function.update_self] at seated
    exact .inl ⟨rfl, seated⟩
  · rw [Function.update_of_ne same] at seated
    exact .inr ⟨same, seated⟩

theorem free_update (free : ∀ k, (slots k).fd = none → (slots k).client = {})
    (empty : slot.fd = none → slot.client = {})
    (unseated : (Function.update slots i slot j).fd = none) :
    (Function.update slots i slot j).client = {} := by
  by_cases same : j = i
  · subst same
    rw [Function.update_self] at unseated ⊢
    exact empty unseated
  · rw [Function.update_of_ne same] at unseated ⊢
    exact free j unseated

end Slots

section Noting

variable (got : List UInt8) (after : Conn (Outlet σ))

theorem callsOf_note :
    (p.note i peer got after).callsOf peer = p.callsOf peer ++ after.handed := by
  rw [callsOf, note, ofClient_append, ofClient_same, callsOf]

theorem answersOf_note (served : p.world = serial dispatch world p.calls) :
    (p.note i peer got after).answersOf dispatch world peer =
      p.answersOf dispatch world peer ++ answersTo dispatch peer p.world after.handed := by
  rw [answersOf, note, answers_append, ofClient_append, ← served]
  rfl

/-- An event of one connection is none of the others. -/
theorem note_alike {other : Nat} (different : other ≠ peer) :
    Alike dispatch world other p (p.note i peer got after) where
  received := Function.update_of_ne different _ _
  sent := Function.update_of_ne different _ _
  calls := by
    rw [callsOf, note, ofClient_append, ofClient_other different.symm, List.append_nil, callsOf]
  answers := by
    rw [answersOf, note, answers_append, ofClient_append, ofClient_answers_other different,
      List.append_nil, answersOf]

theorem messagesOf_note :
    (p.note i peer got after).messagesOf peer = (scanned (p.received peer ++ got)).handed := by
  simp only [messagesOf, note, scanned_handed, Function.update_self]

theorem sent_note : (p.note i peer got after).sent peer = after.server.sent :=
  Function.update_self ..

theorem note_whole (served : p.world = serial dispatch world p.calls)
    (all : (scanned (p.received peer ++ got)).handed = p.callsOf peer ++ after.handed)
    (sent : SentAll (p.answersOf dispatch world peer ++ answersTo dispatch peer p.world after.handed)
      after.server.sent) : (p.note i peer got after).Whole dispatch world peer := by
  constructor
  · rw [callsOf_note, messagesOf_note, all]
  · rw [answersOf_note got after served, sent_note]
    exact sent

theorem note_cut (served : p.world = serial dispatch world p.calls)
    (front : p.callsOf peer ++ after.handed <+: (scanned (p.received peer ++ got)).handed)
    (sent : SentShort (p.answersOf dispatch world peer ++
      answersTo dispatch peer p.world after.handed) after.server.sent) :
    (p.note i peer got after).Cut dispatch world peer := by
  constructor
  · rw [callsOf_note, messagesOf_note]
    exact front
  · rw [answersOf_note got after served, sent_note]
    exact sent

theorem Orderly.note (orderly : p.Orderly dispatch world) (seated : (p.slots i).fd = some peer)
    (event : Event dispatch peer p.world (p.callsOf peer) (p.answersOf dispatch world peer)
      (scanned (p.received peer ++ got)) after) : (p.note i peer got after).Orderly dispatch world := by
  have alike : ∀ other, other ≠ peer → Alike dispatch world other p (p.note i peer got after) :=
    fun other different => note_alike got after different
  -- A slot that is taken now was taken before, and its connection is open.
  have kept : ∀ j other, ((p.note i peer got after).slots j).fd = some other →
      (p.slots j).fd = some other ∧ (j = i → after.closed = false) := by
    intro j other taken
    rcases seated_update taken with ⟨rfl, here⟩ | ⟨elsewhere, before⟩
    · cases closed : after.closed with
      | true => simp [closed] at here
      | false =>
          rw [closed, if_neg Bool.false_ne_true] at here
          exact ⟨seated.trans here, fun _ => rfl⟩
    · exact ⟨before, fun same => absurd same elsewhere⟩
  constructor
  case served =>
    rw [Poll.note, serial_append, ← orderly.served]
    exact event.served
  case known => exact fun j other taken => orderly.known j other (kept j other taken).1
  case unknown =>
    intro other beyond
    have different : other ≠ peer := by
      rintro rfl
      exact absurd (orderly.known i other seated) (Nat.not_lt.mpr beyond)
    obtain ⟨received, sent, calls⟩ := orderly.unknown other beyond
    have same := alike other different
    exact ⟨same.received.trans received, same.sent.trans sent, same.calls.trans calls⟩
  case apart =>
    exact fun j k other first second =>
      orderly.apart j k other (kept j other first).1 (kept k other second).1
  case free =>
    intro j unseated
    refine free_update orderly.free (fun empty => event.gone ?_) unseated
    by_contra live
    simp [live] at empty
  case held =>
    intro j other taken
    obtain ⟨before, live⟩ := kept j other taken
    by_cases same : other = peer
    · subst same
      have here := orderly.apart j i other before seated
      subst here
      have level := event.live (live rfl)
      have received : (p.note j other got after).received other = p.received other ++ got :=
        Function.update_self ..
      have client : ((p.note j other got after).slots j).client = after.client := by
        simp only [Poll.note, Function.update_self]
      refine ⟨note_whole got after orderly.served level.handed level.sent, ?_, ?_⟩
      · rw [client, received]
        exact level.client
      · rw [received, ← level.closed]
        exact live rfl
    · have elsewhere : j ≠ i := by
        rintro rfl
        exact same (Option.some.inj (before.symm.trans seated))
      refine (orderly.held j other before).alike (alike other same) ?_
      simp only [Poll.note, Function.update_of_ne elsewhere]
  case peers =>
    intro other
    by_cases same : other = peer
    · subst same
      rcases event.kept with ⟨all, sent⟩ | ⟨front, sent⟩
      · exact .inl (note_whole got after orderly.served all sent)
      · exact .inr (note_cut got after orderly.served front sent)
    · rcases orderly.peers other with whole | cut
      · exact .inl (whole.alike (alike other same))
      · exact .inr (cut.alike (alike other same))

end Noting

theorem Orderly.peersAlike (orderly : p.Orderly dispatch world)
    (alike : ∀ peer, Alike dispatch world peer p p') (peer : Nat) :
    p'.Whole dispatch world peer ∨ p'.Cut dispatch world peer := by
  rcases orderly.peers peer with whole | cut
  · exact .inl (whole.alike (alike peer))
  · exact .inr (cut.alike (alike peer))

/-- A slot that is emptied leaves every peer as it was. -/
theorem Orderly.setSlot (orderly : p.Orderly dispatch world) :
    (p.setSlot i {}).Orderly dispatch world := by
  have alike : ∀ peer, Alike dispatch world peer p (p.setSlot i {}) :=
    fun peer => ⟨rfl, rfl, rfl, rfl⟩
  have kept : ∀ j peer, ((p.setSlot i {}).slots j).fd = some peer →
      j ≠ i ∧ (p.slots j).fd = some peer := by
    intro j peer taken
    rcases seated_update taken with ⟨_, here⟩ | before
    · nomatch here
    · exact before
  constructor
  case served => exact orderly.served
  case known => exact fun j peer taken => orderly.known j peer (kept j peer taken).2
  case unknown => exact orderly.unknown
  case apart =>
    exact fun j k peer first second =>
      orderly.apart j k peer (kept j peer first).2 (kept k peer second).2
  case free => exact fun j unseated => free_update orderly.free (fun _ => rfl) unseated
  case held =>
    intro j peer taken
    obtain ⟨elsewhere, before⟩ := kept j peer taken
    refine (orderly.held j peer before).alike (alike peer) ?_
    simp only [Poll.setSlot, Function.update_of_ne elsewhere]
  case peers => exact orderly.peersAlike alike

theorem Orderly.serveSlot (orderly : p.Orderly dispatch world) (i : Fin maxRpcClients)
    (revents : Revents) : (p.serveSlot dispatch i revents).Orderly dispatch world := by
  rw [Poll.serveSlot]
  cases seated : (p.slots i).fd with
  | none => exact orderly
  | some peer =>
      by_cases broken : revents.broken = true
      · simp only [broken, if_true]
        exact orderly.setSlot
      by_cases readable : revents.readable = true
      · simp only [broken, readable, if_true]
        have served := orderly.held i peer seated
        have event := (served.level revents.steps).event (served.idle revents.steps) revents.script
        rw [← scanned_append] at event
        exact orderly.note _ _ seated event
      · simp only [broken, readable]
        exact orderly

/-- The peer that is accepted next has sent and was sent nothing. -/
theorem Orderly.stranger (orderly : p.Orderly dispatch world) :
    p.Whole dispatch world p.accepted ∧ p.received p.accepted = [] := by
  obtain ⟨received, sent, calls⟩ := orderly.unknown p.accepted (Nat.le_refl _)
  have length := (answered_ofClient dispatch p.accepted world p.calls).length_eq
  have none : p.answersOf dispatch world p.accepted = [] :=
    List.eq_nil_of_length_eq_zero (by rw [answersOf, ← length, ← callsOf, calls, List.length_nil])
  refine ⟨⟨?_, ?_⟩, received⟩
  · rw [calls, messagesOf, received, readRecords_short (by decide)]
  · rw [none, sent]
    exact ⟨[], rfl, by simp, rfl⟩

/-- A connection that is closed at once, for want of a slot. -/
theorem Orderly.skip (orderly : p.Orderly dispatch world) :
    Orderly dispatch world { p with accepted := p.accepted + 1 } := by
  have alike : ∀ peer, Alike dispatch world peer p { p with accepted := p.accepted + 1 } :=
    fun peer => ⟨rfl, rfl, rfl, rfl⟩
  constructor
  case served => exact orderly.served
  case known => exact fun i peer taken => Nat.lt_succ_of_lt (orderly.known i peer taken)
  case unknown => exact fun peer beyond => orderly.unknown peer (Nat.le_of_succ_le beyond)
  case apart => exact orderly.apart
  case free => exact orderly.free
  case held => exact fun i peer taken => (orderly.held i peer taken).alike (alike peer) rfl
  case peers => exact orderly.peersAlike alike

theorem Orderly.seat (orderly : p.Orderly dispatch world) (empty : (p.slots i).fd = none) :
    (({ p with accepted := p.accepted + 1 } : Poll σ).setSlot i
      { p.slots i with fd := some p.accepted }).Orderly dispatch world := by
  have alike : ∀ peer, Alike dispatch world peer p
      (({ p with accepted := p.accepted + 1 } : Poll σ).setSlot i
        { p.slots i with fd := some p.accepted }) :=
    fun peer => ⟨rfl, rfl, rfl, rfl⟩
  -- Whoever has a slot is the new peer, in slot i, or has kept an old one.
  have kept : ∀ j peer, (Function.update p.slots i { p.slots i with fd := some p.accepted } j).fd =
      some peer → (j = i ∧ peer = p.accepted) ∨ (j ≠ i ∧ (p.slots j).fd = some peer) := by
    intro j peer taken
    rcases seated_update taken with ⟨here, new⟩ | before
    · exact .inl ⟨here, (Option.some.inj new).symm⟩
    · exact .inr before
  obtain ⟨whole, received⟩ := orderly.stranger
  constructor
  case served => exact orderly.served
  case known =>
    intro j peer taken
    rcases kept j peer taken with ⟨_, rfl⟩ | ⟨_, before⟩
    · exact Nat.lt_succ_self _
    · exact Nat.lt_succ_of_lt (orderly.known j peer before)
  case unknown => exact fun peer beyond => orderly.unknown peer (Nat.le_of_succ_le beyond)
  case apart =>
    intro j k peer first second
    rcases kept j peer first with ⟨rfl, rfl⟩ | ⟨_, before⟩
    · rcases kept k p.accepted second with ⟨rfl, _⟩ | ⟨_, before⟩
      · rfl
      · exact absurd (orderly.known k _ before) (Nat.lt_irrefl _)
    · rcases kept k peer second with ⟨rfl, rfl⟩ | ⟨_, also⟩
      · exact absurd (orderly.known j _ before) (Nat.lt_irrefl _)
      · exact orderly.apart j k peer before also
  case free =>
    intro j unseated
    exact free_update orderly.free (fun taken => nomatch taken) unseated
  case held =>
    intro j peer taken
    rcases kept j peer taken with ⟨rfl, rfl⟩ | ⟨elsewhere, before⟩
    · refine ⟨whole.alike (alike p.accepted), ?_, ?_⟩
      · rw [(alike p.accepted).received, received]
        simp only [Poll.setSlot, Function.update_self]
        exact orderly.free j empty
      · rw [(alike p.accepted).received, received]
        rfl
    · refine (orderly.held j peer before).alike (alike peer) ?_
      simp only [Poll.setSlot, Function.update_of_ne elsewhere]
  case peers => exact orderly.peersAlike alike

theorem Orderly.acceptPeer (orderly : p.Orderly dispatch world) (arrival : Arrival) :
    (p.acceptPeer arrival).Orderly dispatch world := by
  cases arrival with
  | interrupted => exact orderly
  | refused => exact orderly
  | loopback =>
      rw [Poll.acceptPeer]
      cases found : (List.finRange maxRpcClients).find? fun i => (p.slots i).fd.isNone with
      | none => exact orderly.skip
      | some i =>
          have empty := List.find?_some found
          exact orderly.seat (Option.isNone_iff_eq_none.mp empty)

theorem Orderly.turn (orderly : p.Orderly dispatch world) (arrivals : List Arrival)
    (revents : Fin maxRpcClients → Revents) :
    (p.turn dispatch arrivals revents).Orderly dispatch world := by
  have accepting : ∀ q : Poll σ, q.Orderly dispatch world →
      (arrivals.foldl Poll.acceptPeer q).Orderly dispatch world := by
    induction arrivals with
    | nil => exact fun q orderly => orderly
    | cons arrival rest ih => exact fun q orderly => ih _ (orderly.acceptPeer arrival)
  have serving : ∀ (slots : List (Fin maxRpcClients)) (q : Poll σ), q.Orderly dispatch world →
      (slots.foldl (fun q i => q.serveSlot dispatch i (revents i)) q).Orderly dispatch world := by
    intro slots
    induction slots with
    | nil => exact fun q orderly => orderly
    | cons i rest ih => exact fun q orderly => ih _ (orderly.serveSlot i (revents i))
  exact serving p.polled _ (accepting p orderly)

theorem Orderly.loop (orderly : p.Orderly dispatch world) (answers : List PollAnswer) :
    (p.loop dispatch answers).Orderly dispatch world := by
  induction answers generalizing p with
  | nil => exact orderly
  | cons answer rest ih =>
      cases answer with
      | nothing => exact ih orderly
      | failed => exact orderly
      | ready arrivals revents => exact ih (orderly.turn arrivals revents)

variable (dispatch) in
theorem orderly_start (world : σ) : Orderly dispatch world { world } := by
  constructor
  case served => rfl
  case known => exact fun i peer taken => nomatch taken
  case unknown => exact fun peer _ => ⟨rfl, rfl, rfl⟩
  case apart => exact fun i j peer taken => nomatch taken
  case free => exact fun i _ => rfl
  case held => exact fun i peer taken => nomatch taken
  case peers =>
    intro peer
    left
    constructor
    · have nothing : readRecords mountdMaxRpcMsg [] [] = ([], .waiting) :=
        readRecords_short (by decide)
      exact (congrArg Prod.fst nothing).symm
    · exact ⟨[], rfl, by simp, rfl⟩

end Steps

section Runs

variable (world : σ) (answers : List PollAnswer)

/-- What a peer has from the server at some moment of a run. -/
structure Answered (p : Poll σ) (peer : Nat) : Prop where
  calls : p.callsOf peer <+: p.messagesOf peer
  replies : (p.repliesTo peer).map some <+: p.answersOf dispatch world peer
  missing : (p.callsOf peer).length ≤ (p.repliesTo peer).length + 1

variable {dispatch world} {p : Poll σ} {peer : Nat}

theorem Whole.answered (whole : p.Whole dispatch world peer) :
    (p.repliesTo peer).map some = p.answersOf dispatch world peer :=
  whole.sent.read

theorem Orderly.answered (orderly : p.Orderly dispatch world) (peer : Nat) :
    Answered dispatch world p peer := by
  have same := (answered_ofClient dispatch peer world p.calls).length_eq
  rcases orderly.peers peer with whole | cut
  · have replies := whole.answered
    refine ⟨whole.calls ▸ List.prefix_refl _, replies ▸ List.prefix_refl _, ?_⟩
    rw [callsOf, same, ← answersOf, ← replies, List.length_map]
    exact Nat.le_succ _
  · obtain ⟨front, length⟩ := cut.sent.read
    refine ⟨cut.calls, front, ?_⟩
    rw [callsOf, same]
    exact Nat.le_of_eq length

end Runs

end Poll

/-- Whatever connections come and go, however their bytes are cut up and interleaved, and however
much of each reply is taken, the server has only made the calls of its peers one after the other:
the calls made for a peer are the first messages it sent, each made once and in their order, and
what the peer can read are the answers to them, but for the last when the connection broke there.
As long as it is connected, nothing is missing. -/
theorem poll_serial (world : σ) (events : List PollAnswer) :
    let p := Poll.loop dispatch { world } events
    p.world = serial dispatch world p.calls ∧
      (∀ peer, p.callsOf peer <+: p.messagesOf peer ∧
        (p.repliesTo peer).map some <+: p.answersOf dispatch world peer ∧
        (p.callsOf peer).length ≤ (p.repliesTo peer).length + 1) ∧
      ∀ i peer, (p.slots i).fd = some peer → p.callsOf peer = p.messagesOf peer ∧
        (p.repliesTo peer).map some = p.answersOf dispatch world peer := by
  have orderly := (Poll.orderly_start dispatch world).loop events
  refine ⟨orderly.served, ?_, ?_⟩
  · intro peer
    obtain ⟨calls, replies, missing⟩ := orderly.answered peer
    exact ⟨calls, replies, missing⟩
  · intro i peer seated
    have whole := (orderly.held i peer seated).whole
    exact ⟨whole.calls, whole.answered⟩

section Daemon

variable (daemon : Daemon) (backend : (op : FsOp) → σ → op.Result × σ)

/-- `dispatch_rpc_call` as the loop uses it. -/
def Daemon.serve (live : σ) (msg : List UInt8) : σ × Option (List UInt8) :=
  let run := (dispatchRpcCall daemon msg).run backend live
  (run.state, run.value)

theorem serve_xid {live : σ} {msg reply : List UInt8}
    (sent : (daemon.serve backend live msg).2 = some reply) : wordAt 0 reply = wordAt 0 msg := by
  rw [Daemon.serve] at sent
  cases opened : openCall msg with
  | dropped =>
      rw [dispatchRpcCall, opened] at sent
      cases sent
  | answered other =>
      rw [dispatchRpcCall, opened] at sent
      cases sent
      exact (answered_whole opened 0 0).1
  | accepted prog proc wire =>
      obtain ⟨other, also, xid, _⟩ := accepted_reply daemon backend live msg opened
      rw [also] at sent
      cases sent
      exact xid

/-- In every run of the daemon the replies that a peer reads are to the messages that it sent, in
their order: each carries the transaction id of its own message. -/
theorem replies_matched (live : σ) (events : List PollAnswer) (peer : Nat) :
    let p := Poll.loop (daemon.serve backend) { world := live } events
    List.Forall₂ (fun msg reply => wordAt 0 reply = wordAt 0 msg)
      ((p.messagesOf peer).take (p.repliesTo peer).length) (p.repliesTo peer) := by
  intro p
  have orderly := (Poll.orderly_start (daemon.serve backend) live).loop events
  obtain ⟨⟨later, messages⟩, ⟨others, answers⟩, _⟩ := orderly.answered peer
  have all := answered_ofClient (daemon.serve backend) peer live p.calls
  have length : (p.repliesTo peer).length ≤ (p.callsOf peer).length := by
    rw [Poll.callsOf, all.length_eq, ← Poll.answersOf, ← answers, List.length_append,
      List.length_map]
    exact Nat.le_add_right _ _
  have matched := List.forall₂_take (p.repliesTo peer).length all
  rw [← Poll.answersOf, ← answers, List.take_left' (List.length_map _),
    List.forall₂_map_right_iff] at matched
  rw [← messages, List.take_append_of_le_length length]
  apply matched.imp
  rintro msg reply ⟨before, sent⟩
  exact serve_xid daemon backend sent

end Daemon

end Rufux.Mountd
