import Rufux.Library.Xdr
import Rufux.Mountd.Reassembly

/-!
The poll loop of the server: its client slots, the connections it accepts, the events it serves and
the replies it sends.
-/

namespace Rufux.Mountd

open Library

/-- `MAX_RPC_CLIENTS`. -/
def maxRpcClients : Nat := 32

/-- What one `send` comes to: some bytes taken, at most `more + 1` of them, an interruption, a full
buffer with the outcome of the `poll` for room, or an error. -/
inductive SendStep where
  | wrote (more : Nat)
  | interrupted
  | full (ready : Bool)
  | failed
  deriving DecidableEq

/-- How a sending ended, and what the peer was sent. -/
structure Sent where
  ok : Bool
  out : List UInt8
  left : List SendStep
  deriving DecidableEq

/-- A list of steps that is used up stands for an error. -/
def sendAllLoopback (buf : List UInt8) : List SendStep → Sent
  | [] => { ok := buf.isEmpty, out := [], left := [] }
  | step :: left =>
      if buf = [] then { ok := true, out := [], left := step :: left }
      else
        match step with
        | .wrote more =>
            let rest := sendAllLoopback (buf.drop (more + 1)) left
            { rest with out := buf.take (more + 1) ++ rest.out }
        | .interrupted => sendAllLoopback buf left
        | .full true => sendAllLoopback buf left
        | .full false => { ok := false, out := [], left }
        | .failed => { ok := false, out := [], left }

/-- The longest record that can be sent. -/
def longestReply : Nat := 0x7FFFFFFF

def sendRpcRecord (payload : List UInt8) (steps : List SendStep) : Sent :=
  if longestReply < payload.length then { ok := false, out := [], left := steps }
  else
    let header := sendAllLoopback (wordBytes (0x80000000 ||| payload.length)) steps
    if header.ok then
      if 0 < payload.length then
        let body := sendAllLoopback payload header.left
        { body with out := header.out ++ body.out }
      else header
    else header

/-- The server as `client_on_readable` finds it while it serves one connection. -/
structure Outlet (σ : Type) where
  world : σ
  steps : List SendStep
  sent : List UInt8

structure Slot where
  fd : Option Nat := none
  client : RpcClient := {}

/-- What `poll` reports for the descriptor of a slot, and what it then delivers and takes. -/
structure Revents where
  broken : Bool := false
  readable : Bool := false
  script : List Delivery := []
  steps : List SendStep := []

/-- What one `accept` comes to. A peer that is not the loopback host, or whose descriptor cannot be
set up, is closed at once. -/
inductive Arrival where
  | interrupted
  | refused
  | loopback

inductive PollAnswer where
  | nothing
  | failed
  | ready (arrivals : List Arrival) (revents : Fin maxRpcClients → Revents)

/-- The server with its slots. Connections are numbered as they are accepted; for each there is what
its peer sent and was sent, and `calls` are the messages dispatched so far. -/
structure Poll (σ : Type) where
  slots : Fin maxRpcClients → Slot := fun _ => {}
  accepted : Nat := 0
  world : σ
  received : Nat → List UInt8 := fun _ => []
  sent : Nat → List UInt8 := fun _ => []
  calls : List (Nat × List UInt8) := []

section Loop

variable {σ : Type} (dispatch : σ → List UInt8 → σ × Option (List UInt8))

/-- The end of a record: the call, and its reply. -/
def answerCall (outlet : Outlet σ) (msg : List UInt8) : Outlet σ × Bool :=
  match dispatch outlet.world msg with
  | (world, none) => ({ outlet with world }, false)
  | (world, some reply) =>
      let sent := sendRpcRecord reply outlet.steps
      ({ world, steps := sent.left, sent := outlet.sent ++ sent.out }, sent.ok)

namespace Poll

variable (p : Poll σ)

def setSlot (i : Fin maxRpcClients) (slot : Slot) : Poll σ :=
  { p with slots := Function.update p.slots i slot }

def acceptPeer : Arrival → Poll σ
  | .interrupted => p
  | .refused => p
  | .loopback =>
      let p' := { p with accepted := p.accepted + 1 }
      match (List.finRange maxRpcClients).find? fun i => (p.slots i).fd.isNone with
      | some i => p'.setSlot i { p.slots i with fd := some p.accepted }
      | none => p'

/-- The connection in a slot, as it stands. -/
def conn (i : Fin maxRpcClients) (peer : Nat) (steps : List SendStep) : Conn (Outlet σ) where
  client := (p.slots i).client
  server := { world := p.world, steps, sent := p.sent peer }

/-- What an event leaves of the connection in a slot, which has sent more bytes by then. -/
def note (i : Fin maxRpcClients) (peer : Nat) (got : List UInt8) (after : Conn (Outlet σ)) :
    Poll σ :=
  { p with
    slots := Function.update p.slots i
      { fd := if after.closed then none else some peer, client := after.client }
    world := after.server.world
    received := Function.update p.received peer (p.received peer ++ got)
    sent := Function.update p.sent peer after.server.sent
    calls := p.calls ++ after.handed.map (Prod.mk peer) }

/-- A readable event of the connection in a slot. -/
def exchange (i : Fin maxRpcClients) (peer : Nat) (revents : Revents) : Poll σ :=
  p.note i peer (bytesOf revents.script)
    (pollReadable (answerCall dispatch) (p.conn i peer revents.steps) revents.script)

def serveSlot (i : Fin maxRpcClients) (revents : Revents) : Poll σ :=
  match (p.slots i).fd with
  | none => p
  | some peer =>
      if revents.broken then p.setSlot i {}
      else if revents.readable then p.exchange dispatch i peer revents
      else p

def polled : List (Fin maxRpcClients) :=
  (List.finRange maxRpcClients).filter fun i => (p.slots i).fd.isSome

/-- One turn of the loop, whose `poll` came back with events. -/
def turn (arrivals : List Arrival) (revents : Fin maxRpcClients → Revents) : Poll σ :=
  p.polled.foldl (fun p i => p.serveSlot dispatch i (revents i)) (arrivals.foldl acceptPeer p)

/-- The loop up to a stop signal, which may come after any turn, or an error of `poll`. -/
def loop (p : Poll σ) : List PollAnswer → Poll σ
  | [] => p
  | .nothing :: answers => loop p answers
  | .failed :: _ => p
  | .ready arrivals revents :: answers => loop (p.turn dispatch arrivals revents) answers

end Poll

end Loop

end Rufux.Mountd
