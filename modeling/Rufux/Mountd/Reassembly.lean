import Rufux.Mountd.Stream

/-!
Reassembly does not depend on how the stream is cut: reading is a fold over the bytes, and
the fold hands on the records that record marking finds in the whole stream.
-/

namespace Rufux.Mountd

open Library

variable {σ : Type} (dispatch : σ → List UInt8 → σ × Bool)

/-- The fragment's end, and the slot closed if the dispatcher drops the connection. -/
def complete (conn : Conn σ) : Conn σ :=
  match finishFragment dispatch conn with
  | (true, conn) => conn
  | (false, conn) => clientClose conn

/-- What follows the last byte received, up to the next `recv`. -/
def settle (conn : Conn σ) : Conn σ :=
  let c := conn.client
  if c.haveHdr = false then
    if c.hdr.length < 4 then conn
    else
      match takeHeader c with
      | none => clientClose conn
      | some c =>
          if 0 < c.fragRem then { conn with client := c }
          else complete dispatch { conn with client := c }
  else if 0 < c.fragRem then conn
  else complete dispatch conn

def absorb (conn : Conn σ) (got : List UInt8) : Conn σ :=
  let c := conn.client
  if c.haveHdr = false then { conn with client := { c with hdr := c.hdr ++ got } }
  else { conn with client := { c with msg := c.msg ++ got, fragRem := c.fragRem - got.length } }

/-- The connection after one more byte. -/
def feed (conn : Conn σ) (byte : UInt8) : Conn σ :=
  if conn.closed then conn else settle dispatch (absorb conn [byte])

def feedScript (conn : Conn σ) : List Delivery → Conn σ
  | [] => conn
  | .data first rest :: script => feedScript ((first :: rest).foldl (feed dispatch) conn) script
  | .interrupted :: script => feedScript conn script
  | .ended :: script => feedScript (clientClose conn) script

/-- How many bytes the next `recv` asks for. -/
def wanted (conn : Conn σ) : Nat :=
  if conn.client.haveHdr = false then 4 - conn.client.hdr.length else conn.client.fragRem

/-- An open connection whose header bytes are gone once the header is read. -/
structure Conn.Open (conn : Conn σ) : Prop where
  live : conn.closed = false
  header : conn.client.haveHdr = true → conn.client.hdr = []

variable {dispatch}

section Feeding

theorem feed_closed {conn : Conn σ} (closed : conn.closed = true) (bytes : List UInt8) :
    bytes.foldl (feed dispatch) conn = conn := by
  induction bytes with
  | nil => rfl
  | cons byte rest ih => rw [List.foldl_cons, feed, if_pos closed, ih]

theorem feedScript_closed (conn : Conn σ) (script : List Delivery) :
    feedScript dispatch (clientClose conn) script = clientClose conn := by
  induction script with
  | nil => rfl
  | cons delivery rest ih =>
      cases delivery with
      | data first bytes =>
          rw [feedScript, feed_closed rfl]
          exact ih
      | interrupted => exact ih
      | ended => exact ih

theorem settle_of_wanted {conn : Conn σ} (more : 0 < wanted conn) :
    settle dispatch conn = conn := by
  simp only [wanted] at more
  simp only [settle]
  split
  · rename_i noHeader
    rw [if_pos noHeader] at more
    exact if_pos (by omega)
  · rename_i header
    rw [if_neg header] at more
    exact if_pos more

theorem absorb_append (conn : Conn σ) (first second : List UInt8) :
    absorb (absorb conn first) second = absorb conn (first ++ second) := by
  simp only [absorb]
  split
  · rename_i noHeader
    simp [noHeader]
  · rename_i header
    simp [header, Nat.sub_sub]

theorem wanted_absorb (conn : Conn σ) (got : List UInt8) :
    wanted (absorb conn got) = wanted conn - got.length := by
  simp only [absorb, wanted]
  split
  · simp [Nat.sub_sub]
  · simp

variable (dispatch) in
/-- A piece that one `recv` returns is as good as its bytes one by one. -/
theorem feed_piece {conn : Conn σ} (live : conn.closed = false) {got : List UInt8}
    (nonempty : got ≠ []) (most : got.length ≤ wanted conn) :
    got.foldl (feed dispatch) conn = settle dispatch (absorb conn got) := by
  induction got generalizing conn with
  | nil => exact absurd rfl nonempty
  | cons byte rest ih =>
      simp only [List.length_cons] at most
      rw [List.foldl_cons, feed, if_neg (by simp [live])]
      cases rest with
      | nil => rfl
      | cons second rest =>
          simp only [List.length_cons] at most
          have left := wanted_absorb conn [byte]
          simp only [List.length_singleton] at left
          rw [settle_of_wanted (by omega)]
          have still : (absorb conn [byte]).closed = false := by
            simp only [absorb]
            split <;> exact live
          rw [ih still (by simp) (by simp only [List.length_cons]; omega), absorb_append]
          rfl

variable (dispatch) in
theorem recv_bytes_feed {len : Nat} {script rest : List Delivery} {got : List UInt8}
    (positive : 0 < len) (received : recv len script = .bytes got rest) :
    got ≠ [] ∧ got.length ≤ len ∧
      ∀ conn, feedScript dispatch conn script =
        feedScript dispatch (got.foldl (feed dispatch) conn) rest := by
  unfold recv at received
  split at received
  · nomatch received
  · nomatch received
  · nomatch received
  · rename_i first tail script
    have split := List.take_append_drop len (first :: tail)
    have short : ((first :: tail).take len).length ≤ len := by
      rw [List.length_take]
      omega
    have some : (first :: tail).take len ≠ [] := by
      rw [ne_eq, List.take_eq_nil_iff]
      simp
      omega
    simp only at received
    split at received
    · rename_i dropped
      cases received
      refine ⟨some, short, fun conn => ?_⟩
      rw [dropped, List.append_nil] at split
      rw [split, feedScript]
    · rename_i next left dropped
      cases received
      refine ⟨some, short, fun conn => ?_⟩
      rw [feedScript, feedScript, ← List.foldl_append, ← dropped, split]

theorem recv_interrupted_feed {len : Nat} {script rest : List Delivery} (conn : Conn σ)
    (received : recv len script = .interrupted rest) :
    feedScript dispatch conn script = feedScript dispatch conn rest := by
  unfold recv at received
  split at received
  · cases received
  · cases received
    rfl
  · cases received
  · simp only at received
    split at received <;> cases received

theorem recv_ended_feed {len : Nat} {script : List Delivery} (conn : Conn σ)
    (received : recv len script = .ended) :
    feedScript dispatch conn script = clientClose conn := by
  unfold recv at received
  split at received
  · cases received
  · cases received
  · exact feedScript_closed conn _
  · simp only at received
    split at received <;> cases received

theorem recv_wouldBlock {len : Nat} {script : List Delivery}
    (received : recv len script = .wouldBlock) : script = [] := by
  unfold recv at received
  split at received
  · rfl
  · cases received
  · cases received
  · simp only at received
    split at received <;> cases received

end Feeding

section Turns

variable (dispatch) in
theorem finishFragment_closed (conn : Conn σ) :
    (finishFragment dispatch conn).2.closed = conn.closed := by
  simp only [finishFragment]
  split <;> rfl

theorem clientClose_idem (conn : Conn σ) : clientClose (clientClose conn) = clientClose conn := rfl

/-- What a turn leaves to be read, and with what, is what it found. -/
def Turn.Feeds (dispatch : σ → List UInt8 → σ × Bool) (outcome : Conn σ) : Turn σ → Prop
  | .wait conn => conn.Open ∧ 0 < wanted conn ∧ outcome = conn
  | .close conn => outcome = clientClose conn
  | .again conn script => conn.Open ∧ outcome = feedScript dispatch (settle dispatch conn) script

variable (dispatch) in
/-- A turn at a `recv` feeds what it received. -/
theorem recv_feeds {conn : Conn σ} (opened : conn.Open) (more : 0 < wanted conn)
    (script : List Delivery) :
    Turn.Feeds dispatch (feedScript dispatch (settle dispatch conn) script)
      (match recv (wanted conn) script with
      | .ended => .close conn
      | .interrupted rest => .again conn rest
      | .wouldBlock => .wait conn
      | .bytes got rest => .again (absorb conn got) rest) := by
  rw [settle_of_wanted more]
  cases received : recv (wanted conn) script with
  | wouldBlock =>
      rw [recv_wouldBlock received]
      exact ⟨opened, more, rfl⟩
  | interrupted rest =>
      refine ⟨opened, ?_⟩
      rw [settle_of_wanted more]
      exact recv_interrupted_feed conn received
  | ended => exact recv_ended_feed conn received
  | bytes got rest =>
      obtain ⟨nonempty, most, feeds⟩ := recv_bytes_feed dispatch more received
      refine ⟨?_, ?_⟩
      · simp only [absorb]
        split
        · rename_i noHeader
          exact ⟨opened.live, fun header => absurd header (by simp [noHeader])⟩
        · exact ⟨opened.live, opened.header⟩
      · rw [feeds, feed_piece dispatch opened.live nonempty most]

theorem turn_recv {conn : Conn σ} (more : 0 < wanted conn) (script : List Delivery) :
    turn dispatch conn script =
      match recv (wanted conn) script with
      | .ended => .close conn
      | .interrupted rest => .again conn rest
      | .wouldBlock => .wait conn
      | .bytes got rest => .again (absorb conn got) rest := by
  cases header : conn.client.haveHdr with
  | false =>
      simp only [wanted, header, if_true] at more
      simp only [turn, wanted, absorb, header, if_true, show conn.client.hdr.length < 4 by omega]
      all_goals rfl
  | true =>
      simp only [wanted, header, reduceCtorEq, if_false] at more
      simp only [turn, wanted, absorb, header, more, reduceCtorEq, if_true, if_false]
      all_goals rfl

variable (dispatch) in
theorem turn_feeds {conn : Conn σ} (opened : conn.Open) (script : List Delivery) :
    Turn.Feeds dispatch (feedScript dispatch (settle dispatch conn) script)
      (turn dispatch conn script) := by
  by_cases more : 0 < wanted conn
  · rw [turn_recv more]
    exact recv_feeds dispatch opened more script
  · cases header : conn.client.haveHdr with
    | false =>
        simp only [wanted, header, if_true] at more
        have full : ¬ conn.client.hdr.length < 4 := by omega
        simp only [turn, settle, header, full, if_true, if_false]
        cases took : takeHeader conn.client with
        | none => exact feedScript_closed conn script
        | some taken =>
            obtain ⟨read, empty, _⟩ := takeHeader_taken took
            refine ⟨⟨opened.live, fun _ => empty⟩, ?_⟩
            simp only [settle, read, reduceCtorEq, if_false]
    | true =>
        simp only [wanted, header, reduceCtorEq, if_false] at more
        have cleared := finishFragment_client dispatch conn
        have live := finishFragment_closed dispatch conn
        simp only [turn, settle, complete, header, more, reduceCtorEq, if_false]
        cases finished : finishFragment dispatch conn with
        | mk goes next =>
            rw [finished] at cleared live
            have empty : next.client.hdr = [] := cleared.2.trans (opened.header header)
            have unread : next.client.haveHdr = false := cleared.1
            cases goes with
            | true =>
                refine ⟨⟨live.trans opened.live, fun _ => empty⟩, ?_⟩
                rw [settle_of_wanted (by simp [wanted, unread, empty])]
            | false => exact feedScript_closed next script

theorem clientOnReadable_eq (conn : Conn σ) (script : List Delivery) :
    clientOnReadable dispatch conn script =
      match turn dispatch conn script with
      | .wait conn => (0, conn)
      | .close conn => (-1, conn)
      | .again next rest => clientOnReadable dispatch next rest := by
  rw [clientOnReadable]
  split <;> simp_all only

/-- What `client_on_readable` leaves of a connection: one that waits for the next event, or
one that the poll loop closes. -/
def PollLeaves (conn : Conn σ) : Int × Conn σ → Prop
  | (rc, next) => (rc = 0 ∧ next.Open ∧ 0 < wanted next ∧ conn = next) ∨
      (rc = -1 ∧ conn = clientClose next)

variable (dispatch) in
theorem clientOnReadable_feeds {conn : Conn σ} (opened : conn.Open) (script : List Delivery) :
    PollLeaves (feedScript dispatch (settle dispatch conn) script)
      (clientOnReadable dispatch conn script) := by
  induction conn, script using clientOnReadable.induct dispatch with
  | case1 conn script next turned =>
      have fed := turn_feeds dispatch opened script
      rw [turned] at fed
      rw [clientOnReadable_eq, turned]
      exact Or.inl ⟨rfl, fed.1, fed.2.1, fed.2.2⟩
  | case2 conn script next turned =>
      have fed := turn_feeds dispatch opened script
      rw [turned] at fed
      rw [clientOnReadable_eq, turned]
      exact Or.inr ⟨rfl, fed⟩
  | case3 conn script next rest turned ih =>
      have fed := turn_feeds dispatch opened script
      rw [turned] at fed
      rw [clientOnReadable_eq, turned, fed.2]
      exact ih fed.1

/-- A connection between two events: closed, or open and waiting for bytes. -/
def Conn.Idle (conn : Conn σ) : Prop :=
  conn = clientClose conn ∨ (conn.Open ∧ 0 < wanted conn)

variable (dispatch) in
theorem pollReadable_feeds {conn : Conn σ} (idle : conn.Idle) (script : List Delivery) :
    pollReadable dispatch conn script = feedScript dispatch conn script ∧
      (pollReadable dispatch conn script).Idle := by
  rcases idle with closed | ⟨opened, more⟩
  · have flag : conn.closed = true := by rw [closed]; rfl
    rw [pollReadable, if_pos flag, closed, feedScript_closed]
    exact ⟨rfl, Or.inl rfl⟩
  · have left := clientOnReadable_feeds dispatch opened script
    rw [settle_of_wanted more] at left
    rw [pollReadable, if_neg (by simp [opened.live])]
    generalize clientOnReadable dispatch conn script = result at left ⊢
    obtain ⟨rc, next⟩ := result
    rcases left with ⟨rfl, still, asks, same⟩ | ⟨rfl, same⟩
    · exact ⟨same.symm, Or.inr ⟨still, asks⟩⟩
    · exact ⟨same.symm, Or.inl rfl⟩

theorem feedScript_append (conn : Conn σ) (first second : List Delivery) :
    feedScript dispatch conn (first ++ second) =
      feedScript dispatch (feedScript dispatch conn first) second := by
  induction first generalizing conn with
  | nil => rfl
  | cons delivery rest ih => cases delivery <;> exact ih _

theorem serveEvents_feeds {conn : Conn σ} (idle : conn.Idle) (events : List (List Delivery)) :
    serveEvents dispatch conn events = feedScript dispatch conn events.flatten := by
  induction events generalizing conn with
  | nil => rfl
  | cons event rest ih =>
      obtain ⟨fed, still⟩ := pollReadable_feeds dispatch idle event
      rw [List.flatten_cons, feedScript_append, ← fed, ← ih still]
      rfl

end Turns

section Streams

/-- What the kernel delivers up to the end of the stream, as one byte string. -/
def bytesOf : List Delivery → List UInt8
  | [] => []
  | .data first rest :: script => first :: rest ++ bytesOf script
  | .interrupted :: script => bytesOf script
  | .ended :: _ => []

/-- Whether the stream ends, rather than more may come. -/
def endsIn : List Delivery → Bool
  | [] => false
  | .data _ _ :: script => endsIn script
  | .interrupted :: script => endsIn script
  | .ended :: _ => true

/-- A stream delivered by a single readable event in a single piece. -/
def onePiece (stream : List UInt8) (ends : Bool) : List Delivery :=
  (match stream with
    | [] => []
    | first :: rest => [.data first rest]) ++ if ends then [.ended] else []

theorem feedScript_bytes (conn : Conn σ) (script : List Delivery) :
    feedScript dispatch conn script =
      if endsIn script then clientClose ((bytesOf script).foldl (feed dispatch) conn)
      else (bytesOf script).foldl (feed dispatch) conn := by
  induction script generalizing conn with
  | nil => rfl
  | cons delivery rest ih =>
      cases delivery with
      | data first tail =>
          rw [feedScript, ih]
          simp only [endsIn, bytesOf, List.foldl_append]
      | interrupted => exact ih conn
      | ended => exact feedScript_closed conn rest

theorem onePiece_bytes (stream : List UInt8) (ends : Bool) :
    bytesOf (onePiece stream ends) = stream ∧ endsIn (onePiece stream ends) = ends := by
  cases stream <;> cases ends <;> simp [onePiece, bytesOf, endsIn]

/-- Any delivery of a stream leaves what its delivery in one piece leaves. -/
theorem serveEvents_onePiece {conn : Conn σ} (idle : conn.Idle) (events : List (List Delivery)) :
    serveEvents dispatch conn events =
      serveEvents dispatch conn [onePiece (bytesOf events.flatten) (endsIn events.flatten)] := by
  have same := onePiece_bytes (bytesOf events.flatten) (endsIn events.flatten)
  rw [serveEvents_feeds idle, serveEvents_feeds idle, List.flatten_singleton, feedScript_bytes,
    feedScript_bytes conn (onePiece _ _), same.1, same.2]

end Streams

section Records

variable (dispatch) in
/-- Handing records on until the dispatcher drops the connection: what was handed on, the
server then, and whether the connection is closed. -/
def handOver (server : σ) (handed : List (List UInt8)) :
    List (List UInt8) → Ending → List (List UInt8) × σ × Bool
  | [], ending => (handed, server, decide (ending = .oversized))
  | record :: rest, ending =>
      let (server, accepted) := dispatch server record
      if accepted then handOver server (handed ++ [record]) rest ending
      else (handed ++ [record], server, true)

theorem handOver_subset (server : σ) (handed records : List (List UInt8)) (ending : Ending) :
    ∀ record ∈ (handOver dispatch server handed records ending).1,
      record ∈ handed ∨ record ∈ records := by
  induction records generalizing server handed with
  | nil =>
      intro record member
      exact Or.inl member
  | cons first rest ih =>
      intro record member
      simp only [handOver] at member
      split at member
      · rcases ih _ _ record member with old | later
        · simp only [List.mem_append, List.mem_singleton] at old
          grind
        · exact Or.inr (List.mem_cons_of_mem _ later)
      · simp only [List.mem_append, List.mem_singleton] at member
        grind

def Conn.outcome (conn : Conn σ) : List (List UInt8) × σ × Bool :=
  (conn.handed, conn.server, conn.closed)

/-- A connection between two fragments, with the bytes held of the current record. -/
structure Conn.Between (conn : Conn σ) (held : List UInt8) : Prop where
  live : conn.closed = false
  unread : conn.client.haveHdr = false
  hdr : conn.client.hdr = []
  msg : conn.client.msg = held

theorem takeHeader_eq_none {c : RpcClient} :
    takeHeader c = none ↔ mountdMaxRpcMsg < c.msg.length + markLength (Library.bigEndian c.hdr) := by
  simp only [takeHeader]
  split
  · simp only [true_iff]
    omega
  · split
    all_goals
      constructor
      · intro bad
        cases bad
      · omega

variable (dispatch) in
/-- The bytes of a fragment complete it, also when there are none. -/
theorem feed_fragment {conn : Conn σ} (live : conn.closed = false)
    (header : conn.client.haveHdr = true) {fragment : List UInt8}
    (whole : fragment.length = conn.client.fragRem) :
    fragment.foldl (feed dispatch) (settle dispatch conn) =
      complete dispatch { conn with client := {
        conn.client with msg := conn.client.msg ++ fragment, fragRem := 0 } } := by
  have asks : wanted conn = conn.client.fragRem := by simp [wanted, header]
  cases fragment with
  | nil =>
      have none : conn.client.fragRem = 0 := whole.symm
      obtain ⟨client, closed, server, handed⟩ := conn
      obtain ⟨hdr, fragRem, fragLast, haveHdr, msg, msgCap⟩ := client
      cases header
      cases none
      simp [settle]
  | cons first rest =>
      rw [settle_of_wanted (by rw [asks, ← whole]; simp),
        feed_piece dispatch live (by simp) (by omega)]
      simp [settle, absorb, header, whole]

theorem feed_mark {conn : Conn σ} {held : List UInt8} (between : conn.Between held)
    (first second third fourth : UInt8) (rest : List UInt8) :
    (first :: second :: third :: fourth :: rest).foldl (feed dispatch) conn =
      rest.foldl (feed dispatch) (settle dispatch
        { conn with client := { conn.client with hdr := [first, second, third, fourth] } }) := by
  have asks : wanted conn = 4 := by simp [wanted, between.unread, between.hdr]
  have piece := feed_piece dispatch between.live
    (List.cons_ne_nil first [second, third, fourth]) (by simp [asks])
  simp only [absorb, between.unread, between.hdr, List.nil_append, if_true] at piece
  rw [← between.unread] at piece
  rw [← piece]
  rfl

theorem settle_mark {conn : Conn σ} {taken : RpcClient} (unread : conn.client.haveHdr = false)
    (full : ¬ conn.client.hdr.length < 4) (took : takeHeader conn.client = some taken) :
    settle dispatch conn = settle dispatch { conn with client := taken } := by
  have read := (takeHeader_taken took).1
  simp only [settle, unread, full, took, read, reduceCtorEq, if_true, if_false]

variable (dispatch) in
/-- Reading a mark within the limit leaves a connection in the middle of its fragment. -/
theorem feed_mark_taken {conn : Conn σ} {held : List UInt8} (between : conn.Between held)
    (first second third fourth : UInt8)
    (fits : ¬ mountdMaxRpcMsg <
      held.length + markLength (Library.bigEndian [first, second, third, fourth])) :
    ∃ taken : RpcClient, taken.haveHdr = true ∧ taken.hdr = [] ∧ taken.msg = held ∧
      taken.fragRem = markLength (Library.bigEndian [first, second, third, fourth]) ∧
      taken.fragLast = markLast (Library.bigEndian [first, second, third, fourth]) ∧
      ∀ rest, (first :: second :: third :: fourth :: rest).foldl (feed dispatch) conn =
        rest.foldl (feed dispatch) (settle dispatch { conn with client := taken }) := by
  cases took : takeHeader { conn.client with hdr := [first, second, third, fourth] } with
  | none =>
      have tooLong := takeHeader_eq_none.mp took
      rw [between.msg] at tooLong
      exact absurd tooLong fits
  | some taken =>
      obtain ⟨read, empty, msg, rem, last, _⟩ := takeHeader_taken took
      refine ⟨taken, read, empty, msg.trans between.msg, rem, last, fun rest => ?_⟩
      rw [feed_mark between]
      congr 1
      exact settle_mark between.unread (by simp) took

variable (dispatch) in
/-- Reading a mark and the whole of its fragment. -/
theorem feed_whole {conn : Conn σ} {held rest : List UInt8} {mark : Nat}
    (between : conn.Between held) (first second third fourth : UInt8)
    (marks : mark = Library.bigEndian [first, second, third, fourth])
    (fits : ¬ mountdMaxRpcMsg < held.length + markLength mark)
    (whole : ¬ rest.length < markLength mark) :
    ∃ client : RpcClient, client.msg = held ++ rest.take (markLength mark) ∧
      client.fragLast = markLast mark ∧ client.hdr = [] ∧
      (first :: second :: third :: fourth :: rest).foldl (feed dispatch) conn =
        (rest.drop (markLength mark)).foldl (feed dispatch)
          (complete dispatch { conn with client }) := by
  rw [marks] at fits
  obtain ⟨taken, read, empty, msg, rem, last, feeds⟩ :=
    feed_mark_taken dispatch between _ _ _ _ fits
  rw [← marks] at rem last
  have length : (rest.take (markLength mark)).length = taken.fragRem := by
    rw [rem]
    exact List.length_take_of_le (Nat.le_of_not_lt whole)
  have ended := feed_fragment dispatch
    (show ({ conn with client := taken } : Conn σ).closed = false from between.live) read length
  rw [msg] at ended
  refine ⟨{ taken with msg := held ++ rest.take (markLength mark), fragRem := 0 },
    rfl, last, empty, ?_⟩
  calc (first :: second :: third :: fourth :: rest).foldl (feed dispatch) conn
      _ = (rest.take (markLength mark) ++ rest.drop (markLength mark)).foldl (feed dispatch)
          (settle dispatch { conn with client := taken }) := by rw [List.take_append_drop, feeds]
      _ = (rest.drop (markLength mark)).foldl (feed dispatch) (complete dispatch { conn with
          client := { taken with msg := held ++ rest.take (markLength mark), fragRem := 0 } }) := by
        rw [List.foldl_append, ended]

theorem feed_reads (held stream : List UInt8) :
    ∀ conn : Conn σ, conn.Between held → (stream.foldl (feed dispatch) conn).outcome =
      handOver dispatch conn.server conn.handed (readRecords mountdMaxRpcMsg held stream).1
        (readRecords mountdMaxRpcMsg held stream).2 := by
  fun_induction readRecords mountdMaxRpcMsg held stream with
  | case1 held first second third fourth rest mark tooLong =>
      intro conn between
      have refused : takeHeader { conn.client with hdr := [first, second, third, fourth] } = none :=
        takeHeader_eq_none.mpr (by rw [between.msg]; exact tooLong)
      rw [feed_mark between]
      simp only [settle, between.unread, List.length_cons, List.length_nil, if_true]
      rw [if_neg (by omega), ← between.unread, refused, feed_closed rfl]
      rfl
  | case2 held first second third fourth rest mark fits short =>
      intro conn between
      obtain ⟨taken, read, empty, msg, rem, last, feeds⟩ :=
        feed_mark_taken dispatch between _ _ _ _ fits
      have asks : wanted { conn with client := taken } = markLength mark := by
        simp [wanted, read, rem, mark]
      rw [feeds, settle_of_wanted (by omega)]
      by_cases none : rest = []
      · subst none
        simp [Conn.outcome, handOver, between.live]
      · have piece := feed_piece dispatch
          (show ({ conn with client := taken } : Conn σ).closed = false from between.live)
          none (by omega)
        have left := wanted_absorb { conn with client := taken } rest
        rw [piece, settle_of_wanted (by omega)]
        simp [Conn.outcome, handOver, absorb, read, between.live]
  | case3 held first second third fourth rest mark fits whole record last later ih =>
      intro conn between
      obtain ⟨client, msg, lastMark, empty, feeds⟩ :=
        feed_whole dispatch between _ _ _ _ rfl fits whole
      rw [feeds]
      have isLast : client.fragLast = true := lastMark.trans last
      rw [handOver, ← show client.msg = record from msg]
      simp only [complete, finishFragment, isLast, if_true]
      cases accepted : (dispatch conn.server client.msg).2 with
      | true => exact ih _ ⟨between.live, rfl, empty, rfl⟩
      | false =>
          rw [feed_closed rfl]
          rfl
  | case4 held first second third fourth rest mark fits whole record more ih =>
      intro conn between
      obtain ⟨client, msg, lastMark, empty, feeds⟩ :=
        feed_whole dispatch between _ _ _ _ rfl fits whole
      rw [feeds]
      have notLast : client.fragLast = false := lastMark.trans (by simpa using more)
      simp only [complete, finishFragment, notLast, reduceCtorEq, if_false]
      exact ih _ ⟨between.live, rfl, empty, msg⟩
  | case5 held stream short =>
      intro conn between
      have few : stream.length < 4 := by
        rcases stream with _ | ⟨first, _ | ⟨second, _ | ⟨third, _ | ⟨fourth, rest⟩⟩⟩⟩
        · simp
        · simp
        · simp
        · simp
        · exact absurd rfl (short first second third fourth rest)
      have asks : wanted conn = 4 := by simp [wanted, between.unread, between.hdr]
      by_cases none : stream = []
      · subst none
        simp [Conn.outcome, handOver, between.live]
      · have left := wanted_absorb conn stream
        rw [feed_piece dispatch between.live none (by omega), settle_of_wanted (by omega)]
        simp [Conn.outcome, handOver, absorb, between.unread, between.live]

end Records

section Buffer

variable (dispatch)

/-- The states of a connection at every test of the loops, over any deliveries. -/
inductive Reached (server : σ) : Conn σ → Prop
  | start : Reached server { server }
  | again {conn next : Conn σ} {script rest : List Delivery} : Reached server conn →
      turn dispatch conn script = .again next rest → Reached server next
  | wait {conn next : Conn σ} {script : List Delivery} : Reached server conn →
      turn dispatch conn script = .wait next → Reached server next
  | close {conn next : Conn σ} {script : List Delivery} : Reached server conn →
      turn dispatch conn script = .close next → Reached server (clientClose next)

/-- The rest of a fragment fits behind what the buffer holds. -/
def Buffered (conn : Conn σ) : Prop :=
  conn.client.haveHdr = true → conn.client.msg.length + conn.client.fragRem ≤ conn.client.msgCap

variable {dispatch}

theorem turn_wait {conn next : Conn σ} {script : List Delivery}
    (turned : turn dispatch conn script = .wait next) : next = conn := by
  by_cases more : 0 < wanted conn
  · rw [turn_recv more] at turned
    split at turned
    all_goals cases turned
    rfl
  · simp only [turn] at turned
    split at turned
    · rename_i unread
      rw [wanted, if_pos unread] at more
      rw [if_neg (by omega)] at turned
      split at turned <;> nomatch turned
    · rename_i header
      rw [wanted, if_neg header] at more
      rw [if_neg more] at turned
      split at turned <;> nomatch turned

theorem turn_buffered {conn next : Conn σ} {script rest : List Delivery} (buffered : Buffered conn)
    (turned : turn dispatch conn script = .again next rest) : Buffered next := by
  by_cases more : 0 < wanted conn
  · rw [turn_recv more] at turned
    cases received : recv (wanted conn) script with
    | ended => rw [received] at turned; cases turned
    | wouldBlock => rw [received] at turned; cases turned
    | interrupted _ =>
        rw [received] at turned
        cases turned
        exact buffered
    | bytes got left =>
        rw [received] at turned
        cases turned
        have most := (recv_bytes_feed dispatch more received).2.1
        cases header : conn.client.haveHdr with
        | false =>
            intro read
            simp [absorb, header] at read
        | true =>
            intro _
            have room := buffered header
            simp only [wanted, header, reduceCtorEq, if_false] at most
            simp only [absorb, header, reduceCtorEq, if_false, List.length_append]
            omega
  · simp only [turn] at turned
    split at turned
    · rename_i unread
      rw [wanted, if_pos unread] at more
      rw [if_neg (by omega)] at turned
      split at turned
      · cases turned
      · rename_i taken took
        cases turned
        intro _
        exact (takeHeader_taken took).2.2.2.2.2.1
    · rename_i header
      rw [wanted, if_neg header] at more
      rw [if_neg more] at turned
      have cleared := (finishFragment_client dispatch conn).1
      split at turned
      · rename_i after finished
        cases turned
        intro read
        rw [finished, read] at cleared
        cases cleared
      · cases turned

theorem Reached.buffered {server : σ} {conn : Conn σ} (reached : Reached dispatch server conn) :
    Buffered conn := by
  induction reached with
  | start => intro read; nomatch read
  | again _ turned ih => exact turn_buffered ih turned
  | wait _ turned ih => rwa [turn_wait turned]
  | close _ _ _ => intro read; nomatch read

end Buffer

theorem fresh_between (server : σ) : ({ server } : Conn σ).Between [] := ⟨rfl, rfl, rfl, rfl⟩

theorem fresh_idle (server : σ) : ({ server } : Conn σ).Idle :=
  Or.inr ⟨⟨rfl, fun _ => rfl⟩, Nat.succ_pos 3⟩

/-- However a stream is delivered, a connection ends up as if it came in one piece: what it
hands on are the records of the whole stream up to the first one the dispatcher drops the
connection at, and it closes there, at a record past the limit or at the end of the stream.
At no point may more bytes come than the buffer has room for. -/
theorem stream_reassembly (dispatch : σ → List UInt8 → σ × Bool) (server : σ) :
    (∀ events : List (List Delivery),
      let stream := bytesOf events.flatten
      let ends := endsIn events.flatten
      let records := readRecords mountdMaxRpcMsg [] stream
      let conn := serveEvents dispatch { server } events
      conn = serveEvents dispatch { server } [onePiece stream ends] ∧
        conn.handed = (handOver dispatch server [] records.1 records.2).1 ∧
        conn.server = (handOver dispatch server [] records.1 records.2).2.1 ∧
        conn.closed = ((handOver dispatch server [] records.1 records.2).2.2 || ends) ∧
        ∀ record ∈ conn.handed, record.length ≤ mountdMaxRpcMsg) ∧
    ∀ conn, Reached dispatch server conn → conn.client.haveHdr = true →
      conn.client.msg.length + conn.client.fragRem ≤ conn.client.msgCap := by
  refine ⟨fun events => ?_, fun conn reached => reached.buffered⟩
  have read := (@feed_reads _ dispatch) [] (bytesOf events.flatten) _ (fresh_between server)
  have outcome : (serveEvents dispatch { server } events).outcome =
      let taken := handOver dispatch server []
        (readRecords mountdMaxRpcMsg [] (bytesOf events.flatten)).1
        (readRecords mountdMaxRpcMsg [] (bytesOf events.flatten)).2
      (taken.1, taken.2.1, taken.2.2 || endsIn events.flatten) := by
    rw [serveEvents_feeds (fresh_idle server), feedScript_bytes, ← read]
    cases endsIn events.flatten with
    | false => simp [Conn.outcome]
    | true => simp [Conn.outcome, clientClose]
  have handed := congrArg Prod.fst outcome
  refine ⟨serveEvents_onePiece (fresh_idle server) events, handed, ?_, ?_, ?_⟩
  · exact congrArg (fun out => out.2.1) outcome
  · exact congrArg (fun out => out.2.2) outcome
  · intro record member
    rw [show (serveEvents dispatch { server } events).handed = _ from handed] at member
    rcases handOver_subset server [] _ _ record member with none | found
    · nomatch none
    · exact readRecords_bounded (Nat.zero_le _) record found

end Rufux.Mountd
