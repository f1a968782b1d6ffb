import Rufux.Mountd.Backend
import Rufux.Mountd.NameUniqueness
import Rufux.Mountd.PollSerial

/-!
Whole runs of the server over its own backend: calls that are turned away leave no trace, and what
every operation of the backend keeps is kept, such as that the names in a directory of an ext volume
are different.
-/

namespace Rufux.Mountd

open Library

/-- What every operation of the backend keeps holds throughout a run of the server. -/
theorem poll_keeps {σ : Type} {daemon : Daemon} {backend : (op : FsOp) → σ → op.Result × σ}
    {keeps : σ → Prop} (step : ∀ op live, keeps live → keeps (backend op live).2) {live : σ}
    (first : keeps live) (events : List PollAnswer) :
    keeps (Poll.loop (daemon.serve backend) { world := live } events).world := by
  have orderly := (Poll.orderly_start (daemon.serve backend) live).loop events
  rw [orderly.served]
  refine serial_keeps _ (fun before msg kept => ?_) first _
  exact (dispatchRpcCall daemon msg).run_keeps backend step kept

section Garbage

instance (msg : List UInt8) (reply : Option (List UInt8)) : Decidable (TurnedAway msg reply) :=
  match reply with
  | none => .isTrue trivial
  | some reply => inferInstanceAs (Decidable (wordAt 2 reply = 1 ∨ wordAt 5 reply ≠ 0 ∨
      wordAt 3 msg = nfsProgram ∧ wordAt 6 reply = Nfsstat.badhandle.code))

/-- Calls that are dropped, rejected or answered with `NFS3ERR_BADHANDLE` leave no trace in any run:
the volume is the one that the other calls made, one after the other. -/
theorem garbage_without_trace (server : Server) (supply : Nat → Calls) (daemon : Daemon)
    (live : Live) (events : List PollAnswer) :
    let serve := daemon.serve (server.backend supply)
    let p := Poll.loop serve { world := live } events
    p.world = serial serve live (heeded serve (fun msg reply => decide (TurnedAway msg reply)) live
      p.calls) := by
  intro serve p
  have orderly := (Poll.orderly_start serve live).loop events
  have silent : ∀ before msg, decide (TurnedAway msg (serve before msg).2) = true →
      (serve before msg).1 = before := by
    intro before msg away
    apply CallProg.run_state_of_silent
    exact turnedAway_silent daemon (server.backend supply) (backend_sound server supply) before msg
      (of_decide_eq_true away)
  rw [serial_heeded serve silent]
  exact orderly.served

end Garbage

section Names

variable (server : Server) (supply : Nat → Calls)

/-- The look-ups that CREATE, LINK and RENAME make for a new name tell whether it is there. -/
def LookupsTell : Prop :=
  ∀ turn, (supply turn).ext.fault (.lookup .dir) = none ∧
    (supply turn).ext.fault (.lookup .target) ≠ some .fileNotFound

variable {server supply}

theorem backend_namesUnique (tell : LookupsTell supply) (op : FsOp) (live : Live)
    (kept : live.volume.NamesUnique) :
    (server.backend supply op live).2.volume.NamesUnique := by
  obtain ⟨volume, turn⟩ := live
  cases volume with
  | ntfs mount => exact kept.elim
  | ext volume =>
      have unique : volume.NamesUnique := kept
      obtain ⟨known, missing⟩ := tell turn
      cases op with
      | rootIno => exact kept
      | syncAll => exact unique.of_entries (editsInode_flush _ volume 0).entries
      | getattr ino => exact kept
      | setattr ino sattr => exact unique.of_entries (editsInode_opSetattr _ _ volume _ sattr).entries
      | lookup dirIno name => exact kept
      | readlink ino => exact kept
      | readdir dirIno => exact kept
      | fsstat ino => exact kept
      | read ino offset count => exact kept
      | write ino offset data stable =>
          exact unique.of_entries (editsInode_opWrite _ _ volume _ offset _ _).entries
      | create dirIno name mode sattr => exact extOpCreate_unique unique mode sattr (.inl known)
      | mkdir dirIno name sattr => exact extOpMkdir_unique unique (some sattr)
      | symlink dirIno name sattr target => exact extOpSymlink_unique unique (some sattr) target
      | remove dirIno name => exact extOpRemove_unique unique
      | rmdir dirIno name => exact extOpRmdir_unique unique
      | rename fromDirIno fromName toDirIno toName => exact extOpRename_unique unique (.inl missing)
      | link ino dirIno name => exact extOpLink_unique unique ino (.inl known)
      | commit ino => exact unique.of_entries (editsInode_opCommit _ _ volume _).entries

/-- Whatever the clients of the server send, and however it arrives, no directory of the volume ever
holds a name twice. -/
theorem names_unique_over_wire (server : Server) (supply : Nat → Calls) (daemon : Daemon)
    (tell : LookupsTell supply) (volume : ExtVolume) (unique : volume.NamesUnique)
    (events : List PollAnswer) :
    (Poll.loop (daemon.serve (server.backend supply)) { world := ⟨.ext volume, 0⟩ }
      events).world.volume.NamesUnique := by
  have start : (fun live : Live => live.volume.NamesUnique) ⟨.ext volume, 0⟩ := unique
  exact poll_keeps (backend_namesUnique tell) start events

/-- One client connects and sends a CREATE. -/
def createEvents : List PollAnswer :=
  [.ready [.loopback] fun _ => {},
    .ready [] fun _ =>
      { readable := true
        script := onePiece (markRecord createCallA) false
        steps := List.replicate 8 (.wrote 4095) }]

theorem names_unique_over_wire_create :
    (Poll.loop (Daemon.zeroed.serve (Server.plain.backend fun _ => Calls.quiet 20))
      { world := ⟨.ext twoFiles, 0⟩ } createEvents).world.volume.NamesUnique := by
  have tell : LookupsTell fun _ => Calls.quiet 20 := by
    intro turn
    constructor
    · rfl
    · simp [Calls.quiet, ExtCalls.quiet]
  exact names_unique_over_wire .plain _ .zeroed tell twoFiles twoFiles_unique createEvents

end Names

end Rufux.Mountd
