import ThunderboltVerbs.Proto.NativeData
import ThunderboltVerbs.Lib.Ring
import ThunderboltVerbs.Lib.Calls

/-!
# The completion-order queue (`proto/reliability.c`)

Operations complete in the order in which they were pushed. The entries are an array of `TBV_REL_ORDER_MAX`
cells, of which the first `capacity` are used as a ring. A drained cell is cleared.
-/

namespace ThunderboltVerbs.Reliability
open Proto Lib

def orderMax : Nat := 128

structure OrderEntry where
  opId : UInt32 := 0
  status : UInt8 := 0
  occupied : Bool := false
  ready : Bool := false
  deriving DecidableEq, Repr

structure OrderQueue where
  capacity : Nat
  head : Nat := 0
  count : Nat := 0
  entries : List OrderEntry := List.replicate orderMax {}
  deriving DecidableEq, Repr

structure OrderCompletion where
  opId : UInt32
  status : UInt8
  deriving DecidableEq, Repr

def orderInit (capacity : Nat) : Except Errno OrderQueue :=
  if capacity = 0 ∨ capacity > orderMax then .error .eInval else .ok { capacity }

namespace OrderQueue

def index (q : OrderQueue) (offset : Nat) : Nat := (q.head + offset) % q.capacity

def entry (q : OrderQueue) (offset : Nat) : OrderEntry := q.entries.getD (q.index offset) {}

def isOp (opId : UInt32) (entry : OrderEntry) : Bool := entry.occupied && entry.opId = opId

def push (q : OrderQueue) (opId : UInt32) : OrderQueue × Except Errno (List OrderCompletion) :=
  if q.capacity = 0 then (q, .error .eInval)
  else if q.count = q.capacity then (q, .error .eNoSpc)
  else if (List.range q.count).any fun i => isOp opId (q.entry i) then (q, .error .eExist)
  else
    ({ q with entries := q.entries.set (q.index q.count) { opId, occupied := true }, count := q.count + 1 }, .ok [])

def mark (q : OrderQueue) (opId : UInt32) (status : UInt8) : OrderQueue × Except Errno (List OrderCompletion) :=
  if q.capacity = 0 then (q, .error .eInval)
  else
    match (List.range q.count).find? fun i => isOp opId (q.entry i) with
    | none => (q, .error .eNoEnt)
    | some i =>
        let entry := q.entry i
        if entry.ready then (q, if entry.status = status then .ok [] else .error .eAlready)
        else ({ q with entries := q.entries.set (q.index i) { entry with ready := true, status } }, .ok [])

def flushEntry (status : UInt8) (entry : OrderEntry) : OrderEntry :=
  if !entry.ready then { entry with ready := true, status } else entry

def flush (q : OrderQueue) (status : UInt8) : OrderQueue × Except Errno (List OrderCompletion) :=
  if q.capacity = 0 then (q, .error .eInval)
  else
    ({ q with
        entries := (List.range q.count).foldl
          (fun entries i => entries.set (q.index i) (flushEntry status (entries.getD (q.index i) {}))) q.entries },
      .ok [])

/-- The loop of `tbv_rel_order_drain`, which has room for `room` more completions. -/
def drainLoop : Nat → OrderQueue → OrderQueue × List OrderCompletion
  | 0, q => (q, [])
  | room + 1, q =>
      let entry := q.entries.getD q.head {}
      if q.count = 0 ∨ !entry.occupied ∨ !entry.ready then (q, [])
      else
        let later := drainLoop room
          { q with entries := q.entries.set q.head {}, head := (q.head + 1) % q.capacity, count := q.count - 1 }
        (later.1, { opId := entry.opId, status := entry.status } :: later.2)

/-- `hasOut` tells whether the caller gave an array for the completions. -/
def drain (q : OrderQueue) (max : Nat) (hasOut : Bool) : OrderQueue × Except Errno (List OrderCompletion) :=
  if q.capacity = 0 ∨ (max ≠ 0 ∧ !hasOut) then (q, .error .eInval)
  else
    let drained := drainLoop max q
    (if drained.1.count = 0 then { drained.1 with head := 0 } else drained.1, .ok drained.2)

end OrderQueue

inductive OrderCall
  | push (opId : UInt32)
  | mark (opId : UInt32) (status : UInt8)
  | flush (status : UInt8)
  | drain (max : Nat) (hasOut : Bool)
  deriving DecidableEq, Repr

def OrderQueue.call (q : OrderQueue) : OrderCall → OrderQueue × Except Errno (List OrderCompletion)
  | .push opId => q.push opId
  | .mark opId status => q.mark opId status
  | .flush status => q.flush status
  | .drain max hasOut => q.drain max hasOut

/-! ## The abstract queue -/

/-- The operations in the order in which they were pushed, with the status of those that have one. -/
abbrev Fifo := List (UInt32 × Option UInt8)

namespace Fifo

def push (capacity : Nat) (fifo : Fifo) (opId : UInt32) : Fifo × Except Errno (List OrderCompletion) :=
  if fifo.length = capacity then (fifo, .error .eNoSpc)
  else if opId ∈ fifo.map Prod.fst then (fifo, .error .eExist)
  else (fifo ++ [(opId, none)], .ok [])

/-- An operation keeps the first status it was given. -/
def settle (which : UInt32 → Bool) (status : UInt8) (fifo : Fifo) : Fifo :=
  fifo.map fun op => if which op.1 then (op.1, some (op.2.getD status)) else op

def mark (fifo : Fifo) (opId : UInt32) (status : UInt8) : Fifo × Except Errno (List OrderCompletion) :=
  match fifo.find? fun op => op.1 = opId with
  | none => (fifo, .error .eNoEnt)
  | some (_, some given) => (fifo, if given = status then .ok [] else .error .eAlready)
  | some (_, none) => (fifo.settle (· = opId) status, .ok [])

/-- The operations at the front that have a status. -/
def finished : Nat → Fifo → List OrderCompletion
  | room + 1, (opId, some status) :: rest => { opId, status } :: finished room rest
  | _, _ => []

def drain (fifo : Fifo) (max : Nat) (hasOut : Bool) : Fifo × Except Errno (List OrderCompletion) :=
  if max ≠ 0 ∧ !hasOut then (fifo, .error .eInval)
  else (fifo.drop (fifo.finished max).length, .ok (fifo.finished max))

def call (capacity : Nat) (fifo : Fifo) : OrderCall → Fifo × Except Errno (List OrderCompletion)
  | .push opId => fifo.push capacity opId
  | .mark opId status => fifo.mark opId status
  | .flush status => (fifo.settle (fun _ => true) status, .ok [])
  | .drain max hasOut => fifo.drain max hasOut

end Fifo

end ThunderboltVerbs.Reliability
