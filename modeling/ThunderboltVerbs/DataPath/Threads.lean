import ThunderboltVerbs.DataPath.Link

/-!
# The threads of the transmit half (`kernel/path.c`)

Senders, completions, cancellations and the scheduler work on one path. A step is a section under
`tx_lock` or what a thread does after it: calling a done callback, counting `tx_inflight` down, calling
`tbv_path_schedule_tx`. The staging frames are numbered here; `posted` has the frame of each packet of
`txPosted`, or none for a packet that the ring reads in place.
-/

namespace ThunderboltVerbs.DataPath
open Proto

structure StagingFrames where
  free : List Nat
  posting : Option Nat := none
  posted : List (Option Nat) := []
  deriving DecidableEq, Repr

namespace StagingFrames

def stage (frames : StagingFrames) (staging : Bool) : StagingFrames :=
  if staging then { frames with free := frames.free.tail, posting := frames.free.head? } else frames

def hand (frames : StagingFrames) : StagingFrames :=
  { frames with posting := none, posted := frames.posted ++ [frames.posting] }

def takeBack (frames : StagingFrames) : StagingFrames :=
  { frames with free := frames.free ++ frames.posting.toList, posting := none }

def complete (frames : StagingFrames) (i : Nat) : StagingFrames :=
  { frames with
    free := frames.free ++ frames.posted[i]?.join.toList
    posted := frames.posted.eraseIdx i }

end StagingFrames

/-- `callers` are about to call `tbv_path_schedule_tx`. A completion has taken its packet off the ring
(`completing`), then has released it (`leaving`). `aborting` counts refused posts that have put their packet
back and have yet to count `tx_inflight` down, and `dropping` is the packet of a refused post that did not,
with whether `tx_inflight` still counts it. `releasing` are packets that a cancellation or a flush took out of
a queue, and `owed` the callbacks that a cancellation noted. -/
structure TxThreads where
  path : Path
  frames : StagingFrames
  callers : Nat := 0
  completing : List TxPacket := []
  leaving : Nat := 0
  aborting : Nat := 0
  dropping : Option (TxPacket × Bool) := none
  releasing : List TxPacket := []
  owed : List Nat := []
  enqueued : List Nat := []
  called : List Nat := []
  deriving DecidableEq

/-- `tbv_path_cancel_data_done_ctx` and `tbv_path_cancel_data_owner_ctx`. -/
inductive CancelKey
  | done (ctx : Nat)
  | owner (ctx : Nat)
  deriving DecidableEq, Repr

def CancelKey.matches (key : CancelKey) (packet : TxPacket) : Bool :=
  match key with
  | .done ctx => packet.done = some ctx
  | .owner ctx => packet.ownerCtx = some ctx

inductive Enqueue
  | control (frame : WireFrame) (done : Option Nat) (alloc : Bool)
  | data (packet : TxPacket)
  | list (packets : List TxPacket)
  | reserved (packets : List TxPacket)
  deriving DecidableEq, Repr

inductive TxAction
  | enableTunnel
  | disableTunnel
  | enqueue (what : Enqueue)
  | reserve (frames : Nat)
  | release (frames : Nat)
  | addCredits (credits : Nat)
  | setCapacity (rxRingSize : Nat)
  | schedule
  | take
  | post (error : Option Errno)
  | aborted
  | drop
  | released
  | complete (i : Nat)
  | finish (i : Nat)
  | leave
  | cancel (key : CancelKey) (visible : Bool)
  | flush
  | releasePacket (i : Nat)
  | callOwed (i : Nat)
  deriving DecidableEq, Repr

def TxPacket.fresh (packet : TxPacket) : Bool := !packet.control && !packet.rawStreamCounted

def Enqueue.fresh : Enqueue → Bool
  | .control _ _ _ => true
  | .data packet => packet.fresh
  | .list packets => packets.all TxPacket.fresh
  | .reserved packets => packets.all TxPacket.fresh

def Enqueue.isEmpty : Enqueue → Bool
  | .control _ _ _ | .data _ => false
  | .list packets | .reserved packets => packets.isEmpty

def Enqueue.done : Enqueue → List Nat
  | .control _ done _ => done.toList
  | .data packet => packet.done.toList
  | .list packets => packets.filterMap TxPacket.done
  | .reserved packets => packets.filterMap TxPacket.done

def Path.enqueue (p : Path) : Enqueue → Except Errno Path
  | .control frame done alloc => p.enqueueControl frame done alloc
  | .data packet => p.enqueueData packet
  | .list packets => p.enqueueDataList packets packets.length
  | .reserved packets => p.enqueueReservedDataList packets packets.length

/-! ## Cancellation -/

/-- One of the two walks of `tbv_path_cancel_data_match` over the packets in the ring: it notes the callbacks
of the packets that match, as long as there is room for them. -/
def cancelRecordDone (key : CancelKey) (walked : TxPacket → Bool) :
    Nat → List TxPacket → List TxPacket × List Nat × Nat
  | room, [] => ([], [], room)
  | room, packet :: rest =>
      match packet.done with
      | some ctx =>
          if walked packet && key.matches packet && room ≠ 0 then
            let outcome := cancelRecordDone key walked (room - 1) rest
            ({ packet with done := none, ownerCtx := none } :: outcome.1, ctx :: outcome.2.1, outcome.2.2)
          else
            let outcome := cancelRecordDone key walked room rest
            (packet :: outcome.1, outcome.2)
      | none =>
          let outcome := cancelRecordDone key walked room rest
          (packet :: outcome.1, outcome.2)

/-- The walk over the staging frames, then that over `tx_zcopy_inflight`. -/
def cancelInRing (key : CancelKey) (room : Nat) (packets : List TxPacket) : List TxPacket × List Nat :=
  let staged := cancelRecordDone key (fun packet => !packet.zcopy && !packet.control) room packets
  let inPlace := cancelRecordDone key (fun packet => packet.zcopy) staged.2.2 staged.1
  (inPlace.1, staged.2.1 ++ inPlace.2.1)

def Scheduler.packet? : Scheduler → Option TxPacket
  | .posting packet _ _ _ _ => some packet
  | _ => none

def Scheduler.withPacket (scheduler : Scheduler) (packet : Option TxPacket) : Scheduler :=
  match scheduler, packet with
  | .posting _ fromControlQueue charged oldRaw oldStart, some packet =>
      .posting packet fromControlQueue charged oldRaw oldStart
  | scheduler, _ => scheduler

def Path.rawStreamCanceled (p : Path) : CancelKey → Bool
  | .done _ => false
  | .owner ctx => p.txRawStream.active && p.txRawStream.owner = some ctx

/-- The packets in the ring, and the one that is being posted if its frame holds it already. -/
def Path.inRing (p : Path) (visible : Bool) : List TxPacket :=
  p.txPosted ++ if visible then p.scheduler.packet?.toList else []

/-- The locked section of `tbv_path_cancel_data_match`. -/
def Path.cancelDataMatch (p : Path) (key : CancelKey) (visible : Bool) : Path × List Nat :=
  let ring := cancelInRing key (max p.txFrameCount 1) (p.inRing visible)
  ({ p with
      txRawStream := if p.rawStreamCanceled key then {} else p.txRawStream
      txDataQueue := p.txDataQueue.filter fun packet => !key.matches packet
      txDataQueued := p.txDataQueued - (p.txDataQueue.filter key.matches).length
      txPosted := ring.1.take p.txPosted.length
      scheduler := p.scheduler.withPacket (ring.1.drop p.txPosted.length).head? }, ring.2)

/-- The locked section of `tbv_path_flush_tx_queue`. The tunnel is down, so a thread inside the scheduler
leaves it at its next look, whether or not `tx_scheduling` is still set. -/
def Path.flushTxQueue (p : Path) : Path :=
  { p with
    state := .stopped
    txControlQueue := []
    txDataQueue := []
    txControlQueued := 0
    txDataQueued := 0
    txDataReserved := 0
    txRawStream := {} }

namespace TxThreads

/-! ## The scheduler -/

def take (s : TxThreads) (nativeTxMaxInflight : Nat) : TxThreads :=
  let path := s.path.scheduleTake nativeTxMaxInflight
  let frames :=
    match path.scheduler with
    | .posting packet fromControlQueue _ _ _ => s.frames.stage (Path.needsStaging packet fromControlQueue)
    | _ => s.frames
  { s with path, frames }

/-- `tb_ring_tx` refused the frame; `tx_inflight` is counted down after the lock is released. -/
def refused (s : TxThreads) (packet : TxPacket) (fromControlQueue charged : Bool) (oldRaw : RawStream)
    (oldStart : Nat) (error : Errno) : TxThreads :=
  let failed := s.path.postFailed packet fromControlQueue charged oldRaw oldStart error
  let requeued := s.path.requeues packet error
  { s with
    path := { failed with txInflight := s.path.txInflight }
    frames := s.frames.takeBack
    aborting := if requeued then s.aborting + 1 else s.aborting
    dropping := if requeued then s.dropping else some (packet, true) }

def post (s : TxThreads) (error : Option Errno) : Option TxThreads :=
  match s.path.scheduler with
  | .posting packet fromControlQueue charged oldRaw oldStart =>
      match error with
      | none =>
          some { s with path := s.path.posted packet, frames := s.frames.hand }
      | some error => some (s.refused packet fromControlQueue charged oldRaw oldStart error)
  | _ => none

def countDown (s : TxThreads) : TxThreads :=
  { s with path := { s.path with txInflight := s.path.txInflight - 1 } }

def aborted (s : TxThreads) : Option TxThreads :=
  if s.aborting = 0 then none else some { s.countDown with aborting := s.aborting - 1 }

def drop (s : TxThreads) : Option TxThreads :=
  match s.dropping with
  | none => none
  | some (packet, true) => some { s.countDown with dropping := some (packet, false) }
  | some (packet, false) => some { s with dropping := none, called := s.called ++ packet.done.toList }

def released (s : TxThreads) : Option TxThreads :=
  if s.path.scheduler = .releasing ∧ s.dropping = none then
    some { s with path := { s.path with scheduler := .idle } }
  else none

/-! ## Completions -/

/-- The locked section of `tbv_path_tx_complete` and of `tbv_path_zcopy_tx_complete`. -/
def complete (s : TxThreads) (i : Nat) : Option TxThreads :=
  s.path.txPosted[i]?.map fun packet =>
    { s with
      path :=
        { s.path with
          txPosted := s.path.txPosted.eraseIdx i
          txFree := if packet.zcopy then s.path.txFree else s.path.txFree + 1 }
      frames := s.frames.complete i
      completing := s.completing ++ [packet] }

def finish (s : TxThreads) (i : Nat) : Option TxThreads :=
  s.completing[i]?.map fun packet =>
    { s with
      path :=
        { s.path with
          txRawStream := Path.finishRawStream s.path.txRawStream packet
          txControlFree := s.path.controlFreeAfter packet }
      completing := s.completing.eraseIdx i
      leaving := s.leaving + 1
      called := s.called ++ packet.done.toList }

def leave (s : TxThreads) : Option TxThreads :=
  if s.leaving = 0 then none
  else some { s.countDown with leaving := s.leaving - 1, callers := s.callers + 1 }

/-! ## Removal -/

def cancel (s : TxThreads) (key : CancelKey) (visible : Bool) : TxThreads :=
  let canceled := s.path.cancelDataMatch key visible
  { s with
    path := canceled.1
    releasing := s.releasing ++
      (s.path.txDataQueue.filter key.matches).map fun packet => { packet with ownerCtx := none }
    owed := s.owed ++ canceled.2
    callers := if s.path.rawStreamCanceled key then s.callers + 1 else s.callers }

def flush (s : TxThreads) : Option TxThreads :=
  if s.path.state = .tunnelEnabled then none
  else
    some { s with
      path := s.path.flushTxQueue
      releasing := s.releasing ++ s.path.txControlQueue ++ s.path.txDataQueue }

def releasePacket (s : TxThreads) (i : Nat) : Option TxThreads :=
  s.releasing[i]?.map fun packet =>
    { s with
      path := { s.path with txControlFree := s.path.controlFreeAfter packet }
      releasing := s.releasing.eraseIdx i
      called := s.called ++ packet.done.toList }

def callOwed (s : TxThreads) (i : Nat) : Option TxThreads :=
  s.owed[i]?.map fun ctx => { s with owed := s.owed.eraseIdx i, called := s.called ++ [ctx] }

/-! ## Steps -/

/-- An enqueue that fails changes nothing, and the packets are freed without a callback. -/
def enqueue (s : TxThreads) (what : Enqueue) : TxThreads :=
  match s.path.enqueue what with
  | .error _ => s
  | .ok path =>
      { s with
        path
        callers := if what.isEmpty then s.callers else s.callers + 1
        enqueued := s.enqueued ++ what.done }

def addCredits (s : TxThreads) (credits : Nat) : TxThreads :=
  let path := s.path.addRemoteRxCredits credits
  { s with
    path
    callers := if path.txRemoteDataCredits = s.path.txRemoteDataCredits then s.callers else s.callers + 1 }

def step (nativeTxMaxInflight : Nat) (s : TxThreads) : TxAction → Option TxThreads
  | .enableTunnel =>
      if s.path.state = .ringStarted then
        some { s with path := { s.path with state := .tunnelEnabled } }
      else none
  | .disableTunnel =>
      if s.path.state = .tunnelEnabled then
        some { s with path := { s.path with state := .ringStarted } }
      else none
  | .enqueue what => if what.fresh then some (s.enqueue what) else none
  | .reserve frames =>
      match s.path.reserveData frames with
      | .error _ => some s
      | .ok path => some { s with path }
  | .release frames => some { s with path := s.path.releaseDataReservation frames }
  | .addCredits credits => some (s.addCredits credits)
  | .setCapacity rxRingSize =>
      some { s with path := s.path.setRemoteRxCapacity rxRingSize, callers := s.callers + 1 }
  | .schedule =>
      if s.callers = 0 then none
      else some { s with path := s.path.scheduleEnter, callers := s.callers - 1 }
  | .take => if s.path.scheduler = .looping then some (s.take nativeTxMaxInflight) else none
  | .post error => s.post error
  | .aborted => s.aborted
  | .drop => s.drop
  | .released => s.released
  | .complete i => s.complete i
  | .finish i => s.finish i
  | .leave => s.leave
  | .cancel key visible => some (s.cancel key visible)
  | .flush => s.flush
  | .releasePacket i => s.releasePacket i
  | .callOwed i => s.callOwed i

structure Quiet (s : TxThreads) : Prop where
  scheduler : s.path.scheduler = .idle
  completing : s.completing = []
  leaving : s.leaving = 0
  aborting : s.aborting = 0
  dropping : s.dropping = none
  releasing : s.releasing = []
  owed : s.owed = []

/-- A completion by a single thread is `Path.txComplete`. -/
theorem complete_finish_leave {s t u v : TxThreads} {i : Nat} (idle : s.completing = [])
    (completed : s.complete i = some t) (finished : t.finish 0 = some u) (left : u.leave = some v) :
    s.path.txComplete i = some v.path := by
  simp only [complete, Option.map_eq_some_iff] at completed
  obtain ⟨packet, found, rfl⟩ := completed
  simp only [finish, idle, List.nil_append, List.getElem?_cons_zero, Option.map_some, Option.some.injEq] at finished
  subst finished
  simp only [leave, Nat.add_one_ne_zero, if_false, Option.some.injEq] at left
  subst left
  simp [Path.txComplete, found, countDown, Path.controlFreeAfter]

end TxThreads

def TxThreads.started (cfg : PathConfig) : TxThreads where
  path := Path.started cfg
  frames := { free := List.range cfg.txRingSize }

def txSystem (cfg : PathConfig) (nativeTxMaxInflight : Nat) : Lib.System TxThreads TxAction where
  init s := s = .started cfg
  step := TxThreads.step nativeTxMaxInflight

end ThunderboltVerbs.DataPath
