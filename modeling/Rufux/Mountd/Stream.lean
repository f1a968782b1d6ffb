import Rufux.Library.RecordMarking

/-!
The connection side of the server: `client_on_readable` with its partial header, fragment
remainder and message buffer, and the records it hands on whatever the kernel delivers.
-/

namespace Rufux.Mountd

open Library

def mountdMaxRpcMsg : Nat := 2 * 1024 * 1024

/-- A client slot. The lists are the bytes received so far, of which the source counts
`hdr_got` and `msg_len`. -/
structure RpcClient where
  hdr : List UInt8 := []
  fragRem : Nat := 0
  fragLast : Bool := false
  haveHdr : Bool := false
  msg : List UInt8 := []
  msgCap : Nat := 0
  deriving DecidableEq

/-- One readable event as its `recv` calls see it: pieces of data, interruptions, and the end
of the stream. When nothing is left the call would block. -/
inductive Delivery where
  | data (first : UInt8) (rest : List UInt8)
  | interrupted
  | ended

inductive Recv where
  | wouldBlock
  | interrupted (script : List Delivery)
  | ended
  | bytes (got : List UInt8) (script : List Delivery)

def recv (len : Nat) : List Delivery → Recv
  | [] => .wouldBlock
  | .interrupted :: script => .interrupted script
  | .ended :: _ => .ended
  | .data first rest :: script =>
      let got := (first :: rest).take len
      match (first :: rest).drop len with
      | [] => .bytes got script
      | next :: left => .bytes got (.data next left :: script)

def Delivery.weight : Delivery → Nat
  | .data _ rest => rest.length + 2
  | .interrupted => 1
  | .ended => 1

def scriptWeight (script : List Delivery) : Nat := (script.map Delivery.weight).sum

theorem recv_interrupted_weight {len : Nat} {script rest : List Delivery}
    (received : recv len script = .interrupted rest) : scriptWeight rest < scriptWeight script := by
  unfold recv at received
  split at received
  · cases received
  · cases received
    simp [scriptWeight, Delivery.weight]
  · cases received
  · simp only at received
    split at received <;> cases received

theorem recv_bytes_weight {len : Nat} {script rest : List Delivery} {got : List UInt8}
    (positive : 0 < len) (received : recv len script = .bytes got rest) :
    scriptWeight rest < scriptWeight script := by
  unfold recv at received
  split at received
  · nomatch received
  · nomatch received
  · nomatch received
  · rename_i first tail script
    simp only at received
    split at received
    · cases received
      simp only [scriptWeight, List.map_cons, List.sum_cons, Delivery.weight]
      omega
    · rename_i next left dropped
      cases received
      have length := congrArg List.length dropped
      simp only [List.length_drop, List.length_cons] at length
      simp only [scriptWeight, List.map_cons, List.sum_cons, Delivery.weight]
      omega

/-- The buffer's capacity after doubling until it holds what is needed. -/
def growCap (need ncap : Nat) : Nat :=
  if 0 < ncap ∧ ncap < need then growCap need (ncap * 2) else ncap
  termination_by need - ncap

theorem growCap_enough {need ncap : Nat} (positive : 0 < ncap) : need ≤ growCap need ncap := by
  fun_induction growCap need ncap with
  | case1 ncap short ih => exact ih (by omega)
  | case2 ncap enough => omega

/-- Reads the mark and makes room for its fragment, or refuses a record past the limit. -/
def takeHeader (c : RpcClient) : Option RpcClient :=
  let rm := Library.bigEndian c.hdr
  let c := { c with
    fragLast := markLast rm, fragRem := markLength rm, hdr := [], haveHdr := true }
  if mountdMaxRpcMsg < c.fragRem ∨ mountdMaxRpcMsg < c.msg.length + c.fragRem then none
  else
    let need := c.msg.length + c.fragRem
    if c.msgCap < need then
      some { c with msgCap := growCap need (if c.msgCap ≠ 0 then c.msgCap * 2 else 4096) }
    else some c

section Server

variable {σ : Type} (dispatch : σ → List UInt8 → σ × Bool)

/-- A connection with the server behind it and the records handed on so far. The slot is
closed when its descriptor is. -/
structure Conn (σ : Type) where
  client : RpcClient := {}
  closed : Bool := false
  server : σ
  handed : List (List UInt8) := []

def clientClose (conn : Conn σ) : Conn σ := { conn with client := {}, closed := true }

/-- The end of a fragment: a last one hands the message to `dispatch_rpc_call`. Whether the
connection goes on. -/
def finishFragment (conn : Conn σ) : Bool × Conn σ :=
  let c := conn.client
  if c.fragLast then
    let (server, accepted) := dispatch conn.server c.msg
    (accepted, { conn with
      client := { c with haveHdr := false, msg := [] }, server, handed := conn.handed ++ [c.msg] })
  else (true, { conn with client := { c with haveHdr := false } })

/-- What one test of the loops of `client_on_readable` leads to: the two ways to return, or
the next test. -/
inductive Turn (σ : Type) where
  | wait (conn : Conn σ)
  | close (conn : Conn σ)
  | again (conn : Conn σ) (script : List Delivery)

def turn (conn : Conn σ) (script : List Delivery) : Turn σ :=
  let c := conn.client
  if c.haveHdr = false then
    if c.hdr.length < 4 then
      match recv (4 - c.hdr.length) script with
      | .ended => .close conn
      | .interrupted rest => .again conn rest
      | .wouldBlock => .wait conn
      | .bytes got rest => .again { conn with client := { c with hdr := c.hdr ++ got } } rest
    else
      match takeHeader c with
      | none => .close conn
      | some c => .again { conn with client := c } script
  else if 0 < c.fragRem then
    match recv c.fragRem script with
    | .ended => .close conn
    | .interrupted rest => .again conn rest
    | .wouldBlock => .wait conn
    | .bytes got rest =>
        .again { conn with client := {
          c with msg := c.msg ++ got, fragRem := c.fragRem - got.length } } rest
  else
    match finishFragment dispatch conn with
    | (true, conn) => .again conn script
    | (false, conn) => .close conn

/-- How many tests may follow before the next `recv`. -/
def RpcClient.stage (c : RpcClient) : Nat :=
  if c.haveHdr = false then if 4 ≤ c.hdr.length then 2 else 0
  else if 0 < c.fragRem then 0
  else if 4 ≤ c.hdr.length then 3 else 1

theorem takeHeader_taken {c taken : RpcClient} (took : takeHeader c = some taken) :
    taken.haveHdr = true ∧ taken.hdr = [] ∧ taken.msg = c.msg ∧
      taken.fragRem = markLength (Library.bigEndian c.hdr) ∧ taken.fragLast = markLast (Library.bigEndian c.hdr) ∧
      taken.msg.length + taken.fragRem ≤ taken.msgCap ∧
      taken.msg.length + taken.fragRem ≤ mountdMaxRpcMsg := by
  simp only [takeHeader] at took
  split at took
  · nomatch took
  · rename_i fits
    split at took
    · cases took
      refine ⟨rfl, rfl, rfl, rfl, rfl, growCap_enough ?_, by simp only; omega⟩
      split <;> omega
    · rename_i room
      cases took
      exact ⟨rfl, rfl, rfl, rfl, rfl, Nat.le_of_not_lt room, by simp only; omega⟩

theorem finishFragment_client (conn : Conn σ) :
    (finishFragment dispatch conn).2.client.haveHdr = false ∧
      (finishFragment dispatch conn).2.client.hdr = conn.client.hdr := by
  simp only [finishFragment]
  split <;> exact ⟨rfl, rfl⟩

theorem turn_decreases {conn next : Conn σ} {script rest : List Delivery}
    (turned : turn dispatch conn script = .again next rest) :
    scriptWeight rest < scriptWeight script ∨
      (rest = script ∧ next.client.stage < conn.client.stage) := by
  simp only [turn] at turned
  split at turned
  · rename_i noHeader
    split at turned
    · split at turned
      · nomatch turned
      · rename_i received
        cases turned
        exact Or.inl (recv_interrupted_weight received)
      · nomatch turned
      · rename_i received
        cases turned
        exact Or.inl (recv_bytes_weight (by omega) received)
    · rename_i full
      split at turned
      · nomatch turned
      · rename_i taken took
        cases turned
        obtain ⟨have', empty, _⟩ := takeHeader_taken took
        refine Or.inr ⟨rfl, ?_⟩
        simp only [RpcClient.stage, noHeader, have', empty, List.length_nil]
        grind
  · rename_i header
    split at turned
    · rename_i positive
      split at turned
      · nomatch turned
      · rename_i received
        cases turned
        exact Or.inl (recv_interrupted_weight received)
      · nomatch turned
      · rename_i received
        cases turned
        exact Or.inl (recv_bytes_weight positive received)
    · rename_i finished
      split at turned
      · rename_i conn' ended
        cases turned
        refine Or.inr ⟨rfl, ?_⟩
        have cleared := finishFragment_client dispatch conn
        rw [ended] at cleared
        simp only [RpcClient.stage, header, finished]
        grind
      · nomatch turned

def clientOnReadable (conn : Conn σ) (script : List Delivery) : Int × Conn σ :=
  match turned : turn dispatch conn script with
  | .wait conn => (0, conn)
  | .close conn => (-1, conn)
  | .again next rest => clientOnReadable next rest
  termination_by (scriptWeight script, conn.client.stage)
  decreasing_by
    rcases turn_decreases dispatch turned with lighter | ⟨rfl, earlier⟩
    · exact Prod.Lex.left _ _ lighter
    · exact Prod.Lex.right _ earlier

/-- A readable event in the poll loop. -/
def pollReadable (conn : Conn σ) (script : List Delivery) : Conn σ :=
  if conn.closed then conn
  else
    let (rc, conn) := clientOnReadable dispatch conn script
    if rc ≠ 0 then clientClose conn else conn

def serveEvents (conn : Conn σ) (events : List (List Delivery)) : Conn σ :=
  events.foldl (pollReadable dispatch) conn

end Server

end Rufux.Mountd
