import ThunderboltVerbs.Config.Transport
import ThunderboltVerbs.Driver.PlacementRuns
import ThunderboltVerbs.Lib.Counted

/-!
# How long a queue pair lives (`kernel/ibdev.c`)

The numbers, the table and the references of queue pairs, with one step for each section under a lock and for each
access to a reference count. A queue pair is called by the allocation that it is in, and no allocation gets the
name of an earlier one.
-/

namespace ThunderboltVerbs.Driver
open Config Lib

structure LiveQp where
  qpNum : Nat
  backend : BackendType
  closing : Bool := false
  deriving DecidableEq, Repr

/-- What a thread has to do with a queue pair. `looking` has the lock of the table and has found the queue pair
open; `waking` is the end of `tbv_qp_put` after a reference that was not the last one; `working` is the timeout
work, queued or running. From `closing` on the thread is in `tbv_destroy_qp`. -/
inductive QpCall
  | creating (qpNum : Nat) (backend : BackendType)
  | handle (qp : Nat)
  | looking (qp : Nat)
  | holding (qp : Nat)
  | waking (qp : Nat)
  | working (qp : Nat)
  | closing (qp : Nat)
  | waiting (qp : Nat)
  | alone (qp : Nat)
  | erased (qp : Nat)
  | draining (qp : Nat) (qpNum : Nat) (backend : BackendType)
  deriving DecidableEq, Repr

namespace QpCall

/-- The queue pair that the thread has a reference to. -/
def ref? : QpCall → Option Nat
  | handle qp | holding qp | closing qp | waiting qp | alone qp | erased qp => some qp
  | creating .. | looking _ | waking _ | working _ | draining .. => none

/-- The queue pair whose memory is for this thread to free. -/
def owner? : QpCall → Option Nat
  | handle qp | closing qp | waiting qp | alone qp | erased qp | draining qp _ _ => some qp
  | creating .. | looking _ | holding _ | waking _ | working _ => none

/-- The queue pair whose memory the thread goes on to read or write. -/
def touches? : QpCall → Option Nat
  | handle qp | looking qp | holding qp | waking qp | working qp | closing qp | waiting qp | alone qp | erased qp
  | draining qp _ _ => some qp
  | creating .. => none

/-- The number that the thread has for a queue pair that is still to come. -/
def number? : QpCall → Option Nat
  | creating qpNum _ => some qpNum
  | _ => none

def isLooking : QpCall → Bool
  | looking _ => true
  | _ => false

end QpCall

/-- A queue pair that a consumer was given. -/
structure PublishedQp where
  qp : Nat
  qpNum : Nat
  backend : BackendType
  deriving DecidableEq, Repr

/-! ## Steps -/

def applePrimaryQpn : Nat := qpnMin

/-- `ida_alloc_range`, for `count` numbers from `first` on. -/
def idaAlloc (ida : List Nat) : Nat → Nat → Option Nat
  | _, 0 => none
  | first, count + 1 => if first ∈ ida then idaAlloc ida (first + 1) count else some first

def nativeQpnMin (appleEnabled : Bool) : Nat := if appleEnabled then qpnMin + 0x1000 else qpnMin

/-- `xa` has the numbers with their queue pairs; `published` is what a consumer ever got, the latest first. -/
structure QpTable where
  appleEnabled : Bool
  ida : List Nat := []
  xa : List (Nat × Nat) := []
  qps : List (Counted Nat LiveQp) := []
  calls : List QpCall := []
  next : Nat := 0
  published : List PublishedQp := []

namespace QpTable

def allocQpn (s : QpTable) : BackendType → Option Nat
  | .native => idaAlloc s.ida (nativeQpnMin s.appleEnabled) (qpnMax + 1 - nativeQpnMin s.appleEnabled)
  | .apple => idaAlloc s.ida applePrimaryQpn 1

def find (s : QpTable) (qp : Nat) : Option (Counted Nat LiveQp) := s.qps.find? fun object => object.key = qp

/-- The call `c` goes on as `news`. -/
def goOn (s : QpTable) (c : Nat) (news : List QpCall) : QpTable :=
  { s with calls := news ++ s.calls.eraseIdx c }

/-- Nobody has the lock of the table. -/
def xaFree (s : QpTable) : Bool := !s.calls.any QpCall.isLooking

/-- The end of `tbv_create_qp`; `ok` says whether all memory could be had. -/
def publish (s : QpTable) (c qpNum : Nat) (backend : BackendType) (ok : Bool) : QpTable :=
  if ok && !s.xa.any fun entry => entry.1 = qpNum then
    let entered : QpTable :=
      { s with
        xa := (qpNum, s.next) :: s.xa
        qps := s.qps ++ [{ key := s.next, refs := 1, value := { qpNum, backend } }]
        next := s.next + 1
        published := { qp := s.next, qpNum, backend } :: s.published }
    entered.goOn c [.handle s.next]
  else { s with ida := s.ida.erase qpNum }.goOn c []

end QpTable

inductive QpTableAction
  | alloc (backend : BackendType)
  | publish (c : Nat) (ok : Bool)
  | look (qpNum : Nat)
  | take (c : Nat)
  | getLive (qp : Nat)
  | put (c : Nat)
  | wake (c : Nat)
  | schedule (qp : Nat)
  | workDone (c : Nat)
  | destroy (c : Nat)
  | cancelWork (c : Nat)
  | timeOut (c : Nat)
  | seeAlone (c : Nat)
  | erase (c : Nat)
  | putOwn (c : Nat)
  | free (c : Nat)
  deriving DecidableEq, Repr

namespace QpTable

def step (s : QpTable) : QpTableAction → Option QpTable
  | .alloc backend =>
      some <|
        match s.allocQpn backend with
        | none => s
        | some qpNum => { s with ida := qpNum :: s.ida, calls := .creating qpNum backend :: s.calls }
  | .publish c ok =>
      match s.calls[c]? with
      | some (.creating qpNum backend) => if s.xaFree then some (s.publish c qpNum backend ok) else none
      | _ => none
  | .look qpNum =>
      -- The queue pair is closed under a lock of its own, so it may close once it was seen open.
      if s.xaFree then
        some <|
          match (s.xa.find? fun entry => entry.1 = qpNum).bind fun entry => s.find entry.2 with
          | some object =>
              if object.value.closing then s else { s with calls := .looking object.key :: s.calls }
          | none => s
      else none
  | .take c =>
      match s.calls[c]? with
      | some (.looking qp) =>
          match s.find qp with
          | some _ => some ({ s with qps := Counted.retain qp s.qps }.goOn c [.holding qp])
          | none => none
      | _ => none
  | .getLive qp =>
      if .handle qp ∈ s.calls ∨ .holding qp ∈ s.calls then
        (s.find qp).map fun object =>
          if object.value.closing then s
          else { s with qps := Counted.retain qp s.qps, calls := .holding qp :: s.calls }
      else none
  | .put c =>
      match s.calls[c]? with
      | some (.holding qp) =>
          (s.find qp).map fun object =>
            -- `complete` is over before the thread that waits for it goes on.
            { s with qps := Counted.release qp s.qps }.goOn c (if object.refs = 1 then [] else [.waking qp])
      | _ => none
  | .wake c =>
      match s.calls[c]? with
      | some (.waking _) => some (s.goOn c [])
      | _ => none
  | .schedule qp =>
      if .handle qp ∈ s.calls ∨ .holding qp ∈ s.calls ∨ .working qp ∈ s.calls then
        (s.find qp).map fun object => if object.value.closing then s else { s with calls := .working qp :: s.calls }
      else none
  | .workDone c =>
      match s.calls[c]? with
      | some (.working _) => some (s.goOn c [])
      | _ => none
  | .destroy c =>
      match s.calls[c]? with
      | some (.handle qp) =>
          some ({ s with qps := Counted.modify qp (fun value => { value with closing := true }) s.qps }.goOn c
            [.closing qp])
      | _ => none
  | .cancelWork c =>
      match s.calls[c]? with
      | some (.closing qp) => if .working qp ∈ s.calls then none else some (s.goOn c [.waiting qp])
      | _ => none
  | .timeOut c =>
      match s.calls[c]? with
      | some (.waiting qp) =>
          (s.find qp).bind fun object => if object.refs = 1 then none else some (s.goOn c [.handle qp])
      | _ => none
  | .seeAlone c =>
      match s.calls[c]? with
      | some (.waiting qp) =>
          (s.find qp).bind fun object => if object.refs = 1 then some (s.goOn c [.alone qp]) else none
      | _ => none
  | .erase c =>
      match s.calls[c]? with
      | some (.alone qp) =>
          if s.xaFree then
            (s.find qp).map fun object =>
              { s with xa := s.xa.filter fun entry => entry.1 ≠ object.value.qpNum }.goOn c [.erased qp]
          else none
      | _ => none
  | .putOwn c =>
      match s.calls[c]? with
      | some (.erased qp) =>
          (s.find qp).map fun object =>
            { s with qps := Counted.release qp s.qps }.goOn c [.draining qp object.value.qpNum object.value.backend]
      | _ => none
  | .free c =>
      match s.calls[c]? with
      | some (.draining qp qpNum backend) =>
          if (s.find qp).isSome then none
          else
            some <| match backend with
              | .native => s.goOn c []
              | .apple => { s with ida := s.ida.erase qpNum }.goOn c []
      | _ => none

end QpTable

def qpTableSystem (appleEnabled : Bool) : System QpTable QpTableAction where
  init s := s = { appleEnabled }
  step := QpTable.step

end ThunderboltVerbs.Driver
