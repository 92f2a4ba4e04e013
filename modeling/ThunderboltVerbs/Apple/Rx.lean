import ThunderboltVerbs.Receive.State
import ThunderboltVerbs.Lib.System
import Mathlib.Data.List.Forall2

/-!
# Receiving Apple frames (`kernel/ibdev.c`)

Apple frames carry no sequence number: a message ends with the frame whose EOF is 3. A message is put
together in a slot of the pending ring, which is `ready` in order and the slot `active` after it. Everything
runs under `rx_lock`. RAW reception is disabled, so frames come as they were sent.

`seen` and `spoiled` are not in the source. The first reads the frames that came as messages, the second
has the numbers of the messages of which a frame was dropped. A slot and a completion name the messages
that their frames belong to.
-/

namespace ThunderboltVerbs.Apple
open Proto Verbs Receive

def appleFrameSize : Nat := 4096
def appleMaxMsgSize : Nat := 16 * 1024 * 1024
def frameEnd : Nat := 3

structure AppleFrame where
  sof : Nat
  eof : Nat
  payload : List UInt8
  deriving DecidableEq, Repr

/-- The messages of a stream of frames, and the bytes of the one that has not ended. -/
structure Framing where
  messages : List (List UInt8) := []
  current : Option (List UInt8) := none
  deriving DecidableEq, Repr

def Framing.push (framing : Framing) (frame : AppleFrame) : Framing :=
  let bytes := framing.current.getD [] ++ frame.payload
  if frame.eof = frameEnd then { messages := framing.messages ++ [bytes] }
  else { framing with current := some bytes }

/-- `struct tbv_apple_pending_rx`. -/
structure Pending where
  bytes : List UInt8 := []
  status : WcStatus := .success
  sources : List Nat := []
  deriving DecidableEq, Repr

structure Completion where
  wrId : Nat
  status : WcStatus
  byteLen : Nat
  data : List UInt8
  sources : List Nat
  deriving DecidableEq, Repr

/-- What a call finds: the module parameters, whether a buffer is large enough or can be grown, and the
registered regions. -/
structure AppleEnv where
  rxPendingBytes : Nat
  rxPendingTotalBytes : Nat
  alloc : Bool
  mrs : Nat → Option Mr

structure AppleQp where
  slotCount : Nat
  active : Option Pending := none
  ready : List Pending := []
  pendingBytes : Nat := 0
  discard : Bool := false
  closing : Bool := false
  recvq : List RecvWqe := []
  cq : Cq
  seen : Framing := {}
  spoiled : List Nat := []
  completions : List Completion := []
  deriving DecidableEq

namespace AppleQp

/-! ## Completions -/

def popRecv (q : AppleQp) : Option (RecvWqe × AppleQp) :=
  match q.recvq with
  | [] => none
  | wqe :: rest => if q.closing then none else some (wqe, { q with recvq := rest })

/-- `tbv_rx_copy_to_wqe` from the start of the buffer: the number of bytes copied. -/
def copyToWqe (env : AppleEnv) (wqe : RecvWqe) (len : Nat) : Option Nat :=
  let copyLen := min len wqe.length
  if copyLen = 0 then some 0
  else
    match env.mrs wqe.lkey with
    | none => none
    | some mr => if mr.takesCopy (wqe.addr % 2 ^ 64) copyLen then some copyLen else none

def pushWc (q : AppleQp) (completion : Completion) : AppleQp :=
  if q.cq.overflowed ∨ q.cq.count = q.cq.cqe then { q with cq := { q.cq with overflowed := true } }
  else
    { q with
      cq := { q.cq with count := q.cq.count + 1 }
      completions := q.completions ++ [completion] }

def completion (env : AppleEnv) (wqe : RecvWqe) (p : Pending) : Completion :=
  let delivered := copyToWqe env wqe (min p.bytes.length wqe.length)
  { wrId := wqe.wrId
    status :=
      if delivered = none then .locProtErr
      else if p.bytes.length > wqe.length then .locLenErr
      else p.status
    byteLen := delivered.getD 0
    data := p.bytes.take (delivered.getD 0)
    sources := p.sources }

def drainFrom (env : AppleEnv) : List Pending → AppleQp → AppleQp
  | [], q => { q with ready := [] }
  | p :: rest, q =>
      match q.popRecv with
      | none => { q with ready := p :: rest }
      | some (wqe, q) =>
          let q := q.pushWc (completion env wqe p)
          drainFrom env rest { q with pendingBytes := q.pendingBytes - p.bytes.length }

def drainPending (q : AppleQp) (env : AppleEnv) : AppleQp := drainFrom env q.ready q

/-! ## Frames -/

def pendingActive (q : AppleQp) (env : AppleEnv) : Option Pending :=
  match q.active with
  | some p => some p
  | none =>
      if q.slotCount ≤ q.ready.length ∨ env.rxPendingBytes = 0 ∨ env.rxPendingTotalBytes = 0 then none
      else some {}

/-- The limits are below `2^32`, so a sum that overflows is above them. -/
def copyPiece (q : AppleQp) (env : AppleEnv) (p : Pending) (len : Nat) : Except Errno Unit :=
  let maxBytes := min env.rxPendingBytes appleMaxMsgSize
  if maxBytes = 0 ∨ p.bytes.length + len > maxBytes then .error .eMsgSize
  else if env.rxPendingTotalBytes = 0 ∨ q.pendingBytes + len > env.rxPendingTotalBytes then .error .eNoSpc
  else if !env.alloc then .error .eNoMem
  else .ok ()

/-- `tbv_apple_rx_copy_frame_to_buf`, and the status of the slot after it. -/
def copyFrame (q : AppleQp) (env : AppleEnv) (p : Pending) (payload : List UInt8) (message : Nat) : AppleQp :=
  match q.copyPiece env p payload.length with
  | .ok () =>
      { q with
        active := some { p with bytes := p.bytes ++ payload, sources := p.sources ++ [message] }
        pendingBytes := q.pendingBytes + payload.length }
  | .error error =>
      { q with
        active := some { p with
          status := if error = .eMsgSize ∨ error = .eNoSpc then .locLenErr else .locProtErr } }

def finish (q : AppleQp) : AppleQp :=
  match q.active with
  | none => q
  | some p => { q with active := none, ready := q.ready ++ [p] }

def startsMessage (frame : AppleFrame) : Bool := frame.sof ≠ 0 || frame.eof = frameEnd

/-- The part of `tbv_ibdev_rx_apple_frame` after the first drain. -/
def takeFrame (q : AppleQp) (env : AppleEnv) (frame : AppleFrame) : AppleQp :=
  let message := q.seen.messages.length
  let q := { q with seen := q.seen.push frame }
  if q.discard then
    { q with discard := frame.eof ≠ frameEnd, spoiled := message :: q.spoiled }
  else if q.active = none ∧ !startsMessage frame then { q with spoiled := message :: q.spoiled }
  else
    match q.pendingActive env with
    | none => { q with discard := frame.eof ≠ frameEnd, spoiled := message :: q.spoiled }
    | some p =>
        let q := q.copyFrame env p frame.payload message
        if frame.eof = frameEnd then q.finish.drainPending env else q

def rxFrame (q : AppleQp) (env : AppleEnv) (frame : AppleFrame) : AppleQp :=
  if frame.payload = [] ∨ frame.payload.length > appleFrameSize then q
  else (q.drainPending env).takeFrame env frame

/-- `tbv_qp_flush_apple_pending`. -/
def flushPending (q : AppleQp) : AppleQp :=
  { q with
    discard := false
    active := none
    ready := []
    pendingBytes := 0
    spoiled := if q.active.isSome then q.seen.messages.length :: q.spoiled else q.spoiled }

end AppleQp

/-! ## What a copy and a drain do -/

namespace AppleQp

theorem copyFrame_eq (q : AppleQp) (env : AppleEnv) (p : Pending) (payload : List UInt8) (message : Nat) :
    ∃ p' pendingBytes, q.copyFrame env p payload message = { q with active := some p', pendingBytes } ∧
      (∀ source ∈ p'.sources, source ∈ p.sources ∨ source = message) ∧
      (p'.status = .success → p.status = .success ∧ p'.bytes = p.bytes ++ payload) := by
  simp only [copyFrame]
  split
  · refine ⟨_, _, rfl, ?_, fun success => ⟨success, rfl⟩⟩
    intro source member
    simpa using member
  · refine ⟨_, q.pendingBytes, rfl, fun source member => .inl member, fun success => ?_⟩
    simp only at success
    split at success <;> cases success

/-- Slots are taken off the front of the ready ones, and a receive request is completed with each unless the
completion queue is full. -/
structure Drained (env : AppleEnv) (q q' : AppleQp) (drained : List Pending) (completed : List Completion) : Prop where
  active : q'.active = q.active
  discard : q'.discard = q.discard
  seen : q'.seen = q.seen
  spoiled : q'.spoiled = q.spoiled
  ready : q.ready = drained ++ q'.ready
  completions : q'.completions = q.completions ++ completed
  each : List.SublistForall₂ (fun c p => ∃ wqe, c = completion env wqe p) completed drained

theorem drainFrom_drained (env : AppleEnv) (ready : List Pending) (q : AppleQp) :
    ∃ drained completed, Drained env { q with ready } (drainFrom env ready q) drained completed := by
  induction ready generalizing q with
  | nil => exact ⟨[], [], rfl, rfl, rfl, rfl, rfl, (List.append_nil _).symm, .nil⟩
  | cons p rest ih =>
      simp only [drainFrom]
      cases popped : q.popRecv with
      | none => exact ⟨[], [], rfl, rfl, rfl, rfl, rfl, (List.append_nil _).symm, .nil⟩
      | some head =>
          obtain ⟨wqe, q'⟩ := head
          have taken : ∃ recvq, q' = { q with recvq } := by
            simp only [popRecv] at popped
            split at popped
            · cases popped
            split at popped
            · cases popped
            · cases popped
              exact ⟨_, rfl⟩
          obtain ⟨recvq, rfl⟩ := taken
          simp only [pushWc]
          split
          · obtain ⟨drained, completed, after⟩ := ih _
            exact ⟨p :: drained, completed, after.active, after.discard, after.seen, after.spoiled,
              congrArg (p :: ·) after.ready, after.completions, .cons_right after.each⟩
          · obtain ⟨drained, completed, after⟩ := ih _
            refine ⟨p :: drained, completion env wqe p :: completed, after.active, after.discard, after.seen,
              after.spoiled, congrArg (p :: ·) after.ready, ?_, .cons ⟨wqe, rfl⟩ after.each⟩
            rw [after.completions, List.append_assoc]
            rfl

theorem drainPending_drained (q : AppleQp) (env : AppleEnv) :
    ∃ drained completed, Drained env q (q.drainPending env) drained completed :=
  drainFrom_drained env q.ready q

end AppleQp

/-! ## Steps -/

inductive RxAction
  | frame (env : AppleEnv) (frame : AppleFrame)
  | postRecv (wqe : RecvWqe)
  | drain (env : AppleEnv)
  | pollCq
  | flush
  | close

def AppleQp.step (q : AppleQp) : RxAction → Option AppleQp
  | .frame env frame => some (q.rxFrame env frame)
  | .postRecv wqe => some { q with recvq := q.recvq ++ [wqe] }
  | .drain env => some (q.drainPending env)
  | .pollCq => some { q with cq := { q.cq with count := q.cq.count - 1 } }
  | .flush => some q.flushPending
  | .close => some { q with closing := true }

def AppleQp.created (slotCount : Nat) (cq : Cq) : AppleQp := { slotCount, cq }

def plainEnv : AppleEnv where
  rxPendingBytes := appleMaxMsgSize
  rxPendingTotalBytes := 4 * appleMaxMsgSize
  alloc := true
  mrs := fun _ => some { start := 4096, length := 65536 }

def rxSystem : Lib.System AppleQp RxAction where
  init q := ∃ slotCount cqe, q = .created slotCount { cqe }
  step := AppleQp.step

end ThunderboltVerbs.Apple
