import ThunderboltVerbs.Apple.Rx

/-!
# The pending ring (`kernel/ibdev.c`)

A QP has one array of slots. The slots from `head` on hold messages that wait for a receive request, the one
after them the message that is arriving. `tbv_path_apple_rx_raw_mode` is always false, so a frame has no trailer
and no check sum.

`finished` and `drained` are not in the source: the messages that ended, and those that were taken off the ring,
since the last flush.
-/

namespace ThunderboltVerbs.Apple
open Proto Verbs Receive

def pendingMaxSlots : Nat := 16384

/-- The module parameters and the size of a page. -/
structure RxLimits where
  pageSize : Nat
  page_pos : 0 < pageSize
  pendingSlots : Nat
  pendingBytes : Nat
  pendingTotalBytes : Nat

def RxLimits.maxBytes (limits : RxLimits) : Nat := min limits.pendingBytes appleMaxMsgSize

/-- `struct tbv_apple_pending_rx`. No buffer is a buffer of capacity 0. -/
structure PendingRx where
  buf : List UInt8 := []
  capacity : Nat := 0
  delivered : Nat := 0
  status : WcStatus := .success
  active : Bool := false
  ready : Bool := false
  deriving DecidableEq, Repr

namespace PendingRx

def reset (p : PendingRx) : PendingRx := { p with delivered := 0, status := .success, active := false, ready := false }

/-- The message as far as it has arrived. -/
def message (p : PendingRx) : Pending := { bytes := p.buf.take p.delivered, status := p.status }

end PendingRx

structure RingQp where
  slotCount : Nat
  pending : List PendingRx
  head : Nat := 0
  tail : Nat := 0
  readyCount : Nat := 0
  pendingBytes : Nat := 0
  active : Option Nat := none
  discard : Bool := false
  closing : Bool := false
  recvq : List RecvWqe := []
  cq : Cq
  completions : List Completion := []
  finished : List Pending := []
  drained : List Pending := []
  deriving DecidableEq

/-! ## Growing a buffer -/

/-- The loop that doubles the capacity, of which `maxBytes` is the highest. -/
def grow (maxBytes required newCapacity : Nat) (positive : 0 < newCapacity) : Nat :=
  if newCapacity < required then
    let doubled := newCapacity * 2
    if 2 ^ 32 ≤ doubled ∨ maxBytes < doubled then maxBytes
    else grow maxBytes required doubled (Nat.mul_pos positive Nat.two_pos)
  else newCapacity
termination_by required - newCapacity

def PendingRx.newCapacity (limits : RxLimits) (p : PendingRx) (required : Nat) : Nat :=
  if positive : 0 < p.capacity then grow limits.maxBytes required p.capacity positive
  else grow limits.maxBytes required limits.pageSize limits.page_pos

namespace RingQp

def slot (q : RingQp) (k : Nat) : PendingRx := q.pending.getD k {}

def setSlot (q : RingQp) (k : Nat) (p : PendingRx) : RingQp := { q with pending := q.pending.set k p }

/-! ## Slots -/

/-- `tbv_apple_pending_release` -/
def release (q : RingQp) (k : Nat) : RingQp :=
  let p := q.slot k
  let pendingBytes :=
    if p.delivered = 0 then q.pendingBytes
    else if p.delivered ≤ q.pendingBytes then q.pendingBytes - p.delivered
    else 0
  { q.setSlot k p.reset with pendingBytes }

/-- `tbv_qp_flush_apple_pending` -/
def flushPending (q : RingQp) : RingQp :=
  let q := if q.pending = [] then q else (List.range q.slotCount).foldl release q
  { q with
    discard := false
    head := 0
    tail := 0
    readyCount := 0
    pendingBytes := 0
    active := none
    finished := []
    drained := [] }

/-- `tbv_apple_pending_active_locked`: the slot of the arriving message, a new one if there is none. -/
def pendingActive (limits : RxLimits) (q : RingQp) : Option (Nat × RingQp) :=
  match q.active with
  | some k => some (k, q)
  | none =>
      if q.pending = [] ∨ q.slotCount = 0 then none
      else if q.slotCount ≤ q.readyCount then none
      else if limits.pendingBytes = 0 then none
      else if limits.pendingTotalBytes = 0 then none
      else
        some (q.tail,
          { q.setSlot q.tail { (q.slot q.tail).reset with active := true } with active := some q.tail })

/-- `tbv_apple_pending_finish_locked` -/
def finish (q : RingQp) : RingQp :=
  match q.active with
  | none => q
  | some k =>
      let p := q.slot k
      { q.setSlot k { p with active := false, ready := true } with
        active := none
        readyCount := q.readyCount + 1
        tail := (q.tail + 1) % q.slotCount
        finished := q.finished ++ [p.message] }

/-! ## Receive requests -/

def popRecv (q : RingQp) : Option (RecvWqe × RingQp) :=
  match q.recvq with
  | [] => none
  | wqe :: rest => if q.closing then none else some (wqe, { q with recvq := rest })

def pushWc (q : RingQp) (completion : Completion) : RingQp :=
  if q.cq.overflowed ∨ q.cq.count = q.cq.cqe then { q with cq := { q.cq with overflowed := true } }
  else
    { q with
      cq := { q.cq with count := q.cq.count + 1 }
      completions := q.completions ++ [completion] }

/-- One turn of the drain, for a receive request that was popped. -/
def drainOne (env : AppleEnv) (wqe : RecvWqe) (q : RingQp) : RingQp :=
  let p := q.slot q.head
  let q := (q.pushWc (AppleQp.completion env wqe p.message)).release q.head
  { q with
    head := (q.head + 1) % q.slotCount
    readyCount := q.readyCount - 1
    drained := q.drained ++ [p.message] }

/-- The loop has one turn for each slot that is ready. -/
def drainFrom (env : AppleEnv) : Nat → RingQp → RingQp
  | 0, q => q
  | turns + 1, q =>
      match q.popRecv with
      | none => q
      | some (wqe, q) => drainFrom env turns (q.drainOne env wqe)

/-- `tbv_apple_rx_drain_pending_locked` -/
def drainPending (q : RingQp) (env : AppleEnv) : RingQp := drainFrom env q.readyCount q

/-! ## Frames -/

/-- The buffer of the slot holds `required` bytes, if it can. -/
def reserve (limits : RxLimits) (alloc : Bool) (p : PendingRx) (required : Nat) : Except Errno PendingRx :=
  if p.capacity < required then
    let capacity := p.newCapacity limits required
    if capacity < required then .error .eMsgSize
    else if !alloc then .error .eNoMem
    else .ok { p with buf := p.buf.take p.delivered ++ List.replicate (capacity - p.delivered) 0, capacity }
  else .ok p

/-- `tbv_apple_rx_copy_piece_to_buf` -/
def copyPiece (limits : RxLimits) (alloc : Bool) (q : RingQp) (k : Nat) (src : List UInt8) : RingQp × Option Errno :=
  let p := q.slot k
  let len := src.length
  let required := p.delivered + len
  let totalRequired := q.pendingBytes + len
  if len = 0 then (q, none)
  else if 2 ^ 32 ≤ required then (q, some .eMsgSize)
  else if limits.maxBytes = 0 ∨ limits.maxBytes < required then (q, some .eMsgSize)
  else if limits.pendingTotalBytes = 0 ∨ 2 ^ 32 ≤ totalRequired ∨ limits.pendingTotalBytes < totalRequired then
    (q, some .eNoSpc)
  else
    match reserve limits alloc p required with
    | .error error => (q, some error)
    | .ok p =>
        ({ q.setSlot k { p with
              buf := p.buf.take p.delivered ++ src ++ p.buf.drop (p.delivered + len)
              delivered := required } with
            pendingBytes := totalRequired }, none)

/-- The copy of a frame, and the status of the slot after it. -/
def copyFrame (limits : RxLimits) (alloc : Bool) (q : RingQp) (k : Nat) (payload : List UInt8) : RingQp :=
  match copyPiece limits alloc q k payload with
  | (q, none) => q
  | (q, some error) =>
      q.setSlot k { q.slot k with status := if error = .eMsgSize ∨ error = .eNoSpc then .locLenErr else .locProtErr }

/-- The part of `tbv_ibdev_rx_apple_frame` after the first drain. -/
def takeFrame (limits : RxLimits) (env : AppleEnv) (q : RingQp) (frame : AppleFrame) : RingQp :=
  if q.discard then { q with discard := frame.eof ≠ frameEnd }
  else if q.active = none ∧ !AppleQp.startsMessage frame then q
  else
    match pendingActive limits q with
    | none => { q with discard := frame.eof ≠ frameEnd }
    | some (k, q) =>
        let q := copyFrame limits env.alloc q k frame.payload
        if frame.eof = frameEnd then q.finish.drainPending env else q

/-- `tbv_ibdev_rx_apple_frame` of the bound rail. -/
def rxFrame (limits : RxLimits) (env : AppleEnv) (q : RingQp) (frame : AppleFrame) : RingQp :=
  if frame.payload = [] ∨ frame.payload.length > appleFrameSize then q
  else takeFrame limits env (q.drainPending env) frame

end RingQp

/-! ## Steps -/

inductive RingAction
  | frame (alloc : Bool) (mrs : Nat → Option Mr) (frame : AppleFrame)
  | postRecv (wqe : RecvWqe)
  | finish
  | drain (mrs : Nat → Option Mr)
  | pollCq
  | flush
  | close

/-- What a call finds. -/
def RxLimits.env (limits : RxLimits) (alloc : Bool) (mrs : Nat → Option Mr) : AppleEnv where
  rxPendingBytes := limits.pendingBytes
  rxPendingTotalBytes := limits.pendingTotalBytes
  alloc
  mrs

def RingQp.step (limits : RxLimits) (q : RingQp) : RingAction → Option RingQp
  | .frame alloc mrs frame => some (q.rxFrame limits (limits.env alloc mrs) frame)
  | .postRecv wqe => some { q with recvq := q.recvq ++ [wqe] }
  | .finish => some q.finish
  | .drain mrs => some (q.drainPending (limits.env true mrs))
  | .pollCq => some { q with cq := { q.cq with count := q.cq.count - 1 } }
  | .flush => some q.flushPending
  | .close => some { q with closing := true }

/-- The part of `tbv_create_qp` for an Apple QP. -/
def RingQp.create (limits : RxLimits) (cq : Cq) : Option RingQp :=
  let slots := min limits.pendingSlots pendingMaxSlots
  if slots = 0 ∨ limits.pendingBytes = 0 ∨ limits.pendingTotalBytes = 0 then none
  else some { slotCount := slots, pending := List.replicate slots {}, cq }

def ringSystem (limits : RxLimits) : Lib.System RingQp RingAction where
  init q := ∃ cqe, RingQp.create limits { cqe } = some q
  step := RingQp.step limits

end ThunderboltVerbs.Apple
