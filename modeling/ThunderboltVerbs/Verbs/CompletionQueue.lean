import ThunderboltVerbs.Lib.Calls
import ThunderboltVerbs.Lib.Ring
import ThunderboltVerbs.Receive.State

/-!
# Completion queues (`kernel/ibdev.c`)

Each call is one critical section of the lock of the queue. A work completion is of any type; an entry that
was never written is `default`.
-/

namespace ThunderboltVerbs.Verbs
open Proto Receive Lib

def maxCqe : Nat := 4096

structure CompletionQueue (ω : Type) where
  /-- `base.comp_handler` is set. -/
  compHandler : Bool
  entries : List ω
  cqe : Nat
  head : Nat := 0
  tail : Nat := 0
  count : Nat := 0
  notifyArmed : Bool := false
  overflowed : Bool := false

/-- The calls on a queue. A work completion comes with the queue pair it names. -/
inductive CqCall (ω : Type)
  | push (wc : ω) (qp : Option Nat)
  | poll (numEntries : Int) (wc : Bool)
  | reqNotify

/-- `handled` is a call of the completion handler and `queued` one of `tbv_qp_queue_error`. -/
inductive CqResult (ω : Type)
  | pushed (ret : Option Errno) (handled : Bool) (queued : Option Nat)
  | polled (ret : Except Errno Nat) (wcs : List ω)
  | notified (ret : Except Errno Nat)

variable {ω : Type}

/-- `tbv_create_cq`, with the answer of the allocator; `cqe` is that of the attributes, if there are any. -/
def createCq [Inhabited ω] (compHandler : Bool) (cqe : Option Nat) (kcalloc : Bool) :
    Except Errno (CompletionQueue ω) :=
  match cqe with
  | none => .error .eInval
  | some cqe =>
      if cqe = 0 ∨ cqe > maxCqe then .error .eInval
      else if !kcalloc then .error .eNoMem
      else .ok { compHandler, entries := List.replicate cqe default, cqe }

namespace CompletionQueue

def push (q : CompletionQueue ω) (wc : ω) (qp : Option Nat) : CompletionQueue ω × CqResult ω :=
  let notify := q.notifyArmed
  if q.overflowed || q.count = q.cqe then
    ({ q with overflowed := true, notifyArmed := false }, .pushed (some .eNoSpc) (notify && q.compHandler) qp)
  else
    ({ q with
        entries := q.entries.set q.tail wc
        tail := (q.tail + 1) % q.cqe
        count := q.count + 1
        notifyArmed := false },
      .pushed none (notify && q.compHandler) none)

/-- The loop of `tbv_poll_cq`, with `more` entries of the array left. -/
def pollLoop [Inhabited ω] (q : CompletionQueue ω) : Nat → CompletionQueue ω × List ω
  | 0 => (q, [])
  | more + 1 =>
      if q.count ≠ 0 then
        let wc := q.entries.getD q.head default
        let rest := pollLoop { q with head := (q.head + 1) % q.cqe, count := q.count - 1 } more
        (rest.1, wc :: rest.2)
      else (q, [])

/-- `tbv_poll_cq`; `wc` says whether there is an array for the entries. -/
def poll [Inhabited ω] (q : CompletionQueue ω) (numEntries : Int) (wc : Bool) : CompletionQueue ω × CqResult ω :=
  if numEntries ≤ 0 || !wc then (q, .polled (.ok 0) [])
  else
    let (after, polled) := q.pollLoop numEntries.toNat
    (after, .polled (if polled.length = 0 && after.overflowed then .error .eIo else .ok polled.length) polled)

def reqNotify (q : CompletionQueue ω) : CompletionQueue ω × CqResult ω :=
  if q.overflowed then (q, .notified (.error .eIo))
  else ({ q with notifyArmed := true }, .notified (.ok (if q.count ≠ 0 then 1 else 0)))

def call [Inhabited ω] (q : CompletionQueue ω) : CqCall ω → CompletionQueue ω × CqResult ω
  | .push wc qp => q.push wc qp
  | .poll numEntries wc => q.poll numEntries wc
  | .reqNotify => q.reqNotify

end CompletionQueue

/-! ## The queue that it stands for -/

structure CqFifo (ω : Type) where
  capacity : Nat
  compHandler : Bool
  waiting : List ω := []
  armed : Bool := false
  overflowed : Bool := false

namespace CqFifo

def push (f : CqFifo ω) (wc : ω) (qp : Option Nat) : CqFifo ω × CqResult ω :=
  if f.overflowed || f.waiting.length = f.capacity then
    ({ f with overflowed := true, armed := false }, .pushed (some .eNoSpc) (f.armed && f.compHandler) qp)
  else
    ({ f with waiting := f.waiting ++ [wc], armed := false }, .pushed none (f.armed && f.compHandler) none)

def poll (f : CqFifo ω) (numEntries : Int) (wc : Bool) : CqFifo ω × CqResult ω :=
  if numEntries ≤ 0 || !wc then (f, .polled (.ok 0) [])
  else
    let polled := f.waiting.take numEntries.toNat
    ({ f with waiting := f.waiting.drop numEntries.toNat },
      .polled (if polled.length = 0 && f.overflowed then .error .eIo else .ok polled.length) polled)

def reqNotify (f : CqFifo ω) : CqFifo ω × CqResult ω :=
  if f.overflowed then (f, .notified (.error .eIo))
  else ({ f with armed := true }, .notified (.ok (if f.waiting.length ≠ 0 then 1 else 0)))

def call (f : CqFifo ω) : CqCall ω → CqFifo ω × CqResult ω
  | .push wc qp => f.push wc qp
  | .poll numEntries wc => f.poll numEntries wc
  | .reqNotify => f.reqNotify

end CqFifo

/-- The cells from `head` on, round the ring, are the entries that wait. -/
structure CompletionQueue.Holds (q : CompletionQueue ω) (f : CqFifo ω) : Prop where
  window : Window q.entries q.cqe q.head f.waiting
  tail : q.tail = (q.head + q.count) % q.cqe
  count : q.count = f.waiting.length
  cqe : q.cqe = f.capacity
  compHandler : q.compHandler = f.compHandler
  notifyArmed : q.notifyArmed = f.armed
  overflowed : q.overflowed = f.overflowed

namespace CompletionQueue.Holds

variable {q : CompletionQueue ω} {f : CqFifo ω}

theorem push (holds : q.Holds f) (wc : ω) (qp : Option Nat) :
    (q.push wc qp).2 = (f.push wc qp).2 ∧ (q.push wc qp).1.Holds (f.push wc qp).1 := by
  have refuses : (q.overflowed || decide (q.count = q.cqe)) =
      (f.overflowed || decide (f.waiting.length = f.capacity)) := by
    rw [holds.overflowed, holds.count, holds.cqe]
  have fires : (q.notifyArmed && q.compHandler) = (f.armed && f.compHandler) := by
    rw [holds.notifyArmed, holds.compHandler]
  unfold CompletionQueue.push CqFifo.push
  simp only [refuses, fires]
  split
  · exact ⟨rfl, { holds with notifyArmed := rfl, overflowed := rfl }⟩
  · rename_i room
    have free : f.waiting.length < q.cqe := by
      have fits := holds.window.fits
      have full : f.waiting.length ≠ f.capacity := by
        simp only [Bool.or_eq_true, decide_eq_true_eq, not_or] at room
        exact room.2
      have capacity := holds.cqe
      omega
    have place : q.tail = (q.head + f.waiting.length) % q.cqe := holds.count ▸ holds.tail
    refine ⟨rfl, { holds with window := ?_, tail := ?_, count := ?_, notifyArmed := rfl }⟩
    · show Window (q.entries.set q.tail wc) q.cqe q.head (f.waiting ++ [wc])
      rw [place]
      exact holds.window.push free wc
    · show (q.tail + 1) % q.cqe = (q.head + (q.count + 1)) % q.cqe
      rw [holds.tail, Nat.mod_add_mod, Nat.add_assoc]
    · show q.count + 1 = (f.waiting ++ [wc]).length
      rw [holds.count, List.length_append, List.length_singleton]

theorem pollLoop [Inhabited ω] (holds : q.Holds f) (more : Nat) :
    (q.pollLoop more).2 = f.waiting.take more ∧
      (q.pollLoop more).1.Holds { f with waiting := f.waiting.drop more } := by
  induction more generalizing q f with
  | zero => exact ⟨rfl, holds⟩
  | succ more ih =>
      unfold CompletionQueue.pollLoop
      cases waiting : f.waiting with
      | nil =>
          have none : q.count = 0 := by rw [holds.count, waiting]; rfl
          rw [if_neg (not_not.mpr none)]
          refine ⟨rfl, ?_⟩
          rw [List.drop_nil, ← waiting]
          exact holds
      | cons wc rest =>
          have count : q.count = rest.length + 1 := by rw [holds.count, waiting]; rfl
          have window : Window q.entries q.cqe q.head (wc :: rest) := waiting ▸ holds.window
          rw [if_pos (by omega)]
          have first : q.entries.getD q.head default = wc := by
            rw [List.getD_eq_getElem?_getD, window.first]
            rfl
          have popped : Holds { q with head := (q.head + 1) % q.cqe, count := q.count - 1 }
              { f with waiting := rest } := by
            refine { holds with window := window.pop, tail := ?_, count := ?_ }
            · show q.tail = ((q.head + 1) % q.cqe + (q.count - 1)) % q.cqe
              rw [ring_next, holds.tail, Nat.sub_add_cancel (by omega)]
            · show q.count - 1 = rest.length
              omega
          obtain ⟨later, after⟩ := ih popped
          refine ⟨?_, after⟩
          simp only [first, later, List.take_succ_cons]

theorem poll [Inhabited ω] (holds : q.Holds f) (numEntries : Int) (wc : Bool) :
    (q.poll numEntries wc).2 = (f.poll numEntries wc).2 ∧
      (q.poll numEntries wc).1.Holds (f.poll numEntries wc).1 := by
  obtain ⟨polled, after⟩ := holds.pollLoop numEntries.toNat
  simp only [CompletionQueue.poll, CqFifo.poll]
  split
  · exact ⟨rfl, holds⟩
  · rw [polled, after.overflowed]
    exact ⟨rfl, after⟩

theorem reqNotify (holds : q.Holds f) : q.reqNotify.2 = f.reqNotify.2 ∧ q.reqNotify.1.Holds f.reqNotify.1 := by
  have found : (if q.count ≠ 0 then 1 else 0) = if f.waiting.length ≠ 0 then 1 else 0 := by rw [holds.count]
  unfold CompletionQueue.reqNotify CqFifo.reqNotify
  by_cases mark : f.overflowed = true
  · rw [if_pos (holds.overflowed.trans mark), if_pos mark]
    exact ⟨rfl, holds⟩
  · rw [if_neg (fun set => mark (holds.overflowed.symm.trans set)), if_neg mark, found]
    exact ⟨rfl, { holds with notifyArmed := rfl }⟩

theorem call [Inhabited ω] (holds : q.Holds f) (c : CqCall ω) :
    (q.call c).2 = (f.call c).2 ∧ (q.call c).1.Holds (f.call c).1 := by
  cases c with
  | push wc qp => exact holds.push wc qp
  | poll numEntries wc => exact holds.poll numEntries wc
  | reqNotify => exact holds.reqNotify

end CompletionQueue.Holds

theorem createCq_holds [Inhabited ω] {compHandler kcalloc : Bool} {cqe : Option Nat} {q : CompletionQueue ω}
    (created : createCq compHandler cqe kcalloc = .ok q) :
    q.Holds { capacity := q.cqe, compHandler } ∧ q.compHandler = compHandler := by
  unfold createCq at created
  split at created
  · cases created
  split at created
  · cases created
  split at created
  · cases created
  rename_i cqe sized _
  cases created
  refine ⟨?_, rfl⟩
  constructor
  case window => exact .empty (List.length_replicate).ge (Nat.pos_of_ne_zero fun zero => sized (Or.inl zero))
  case tail => exact (Nat.zero_mod _).symm
  all_goals rfl

/-! ## What a sequence of calls amounts to -/

def CqCall.isPush : CqCall ω → Bool
  | .push _ _ => true
  | _ => false

def CqCall.isReqNotify : CqCall ω → Bool
  | .reqNotify => true
  | _ => false

namespace CqResult

def refused : CqResult ω → Bool
  | .pushed (some _) _ _ => true
  | _ => false

def handled : CqResult ω → Bool
  | .pushed _ handled _ => handled
  | _ => false

def entries : CqResult ω → List ω
  | .polled _ wcs => wcs
  | _ => []

def returned : CqResult ω → Except Errno Nat
  | .pushed none _ _ => .ok 0
  | .pushed (some error) _ _ => .error error
  | .polled ret _ => ret
  | .notified ret => ret

end CqResult

/-- The completions whose push returned 0, in the order of the calls. -/
def acceptedPushes : List (CqCall ω) → List (CqResult ω) → List ω
  | .push wc _ :: script, result :: results =>
      if result.refused then acceptedPushes script results else wc :: acceptedPushes script results
  | _ :: script, _ :: results => acceptedPushes script results
  | _, _ => []

/-- The completions that polls have handed out. -/
def polledEntries (results : List (CqResult ω)) : List ω := results.flatMap CqResult.entries

namespace CqFifo

variable {f : CqFifo ω}

theorem call_capacity (f : CqFifo ω) (c : CqCall ω) :
    (f.call c).1.capacity = f.capacity ∧ (f.call c).1.compHandler = f.compHandler := by
  cases c <;> simp only [call, push, poll, reqNotify] <;> split <;> exact ⟨rfl, rfl⟩

/-- Nothing is lost, doubled or overtaken by one call. -/
theorem call_conserves (f : CqFifo ω) (c : CqCall ω) :
    f.waiting ++ acceptedPushes [c] [(f.call c).2] = (f.call c).2.entries ++ (f.call c).1.waiting := by
  cases c with
  | push wc qp =>
      simp only [call, push]
      split
      · exact List.append_nil _
      · rfl
  | poll numEntries wc =>
      simp only [call, poll]
      split
      · exact List.append_nil _
      · exact (List.append_nil _).trans (List.take_append_drop _ _).symm
  | reqNotify =>
      simp only [call, reqNotify]
      split <;> exact List.append_nil _

theorem acceptedPushes_cons (c : CqCall ω) (script : List (CqCall ω)) (result : CqResult ω)
    (results : List (CqResult ω)) : acceptedPushes (c :: script) (result :: results) =
      acceptedPushes [c] [result] ++ acceptedPushes script results := by
  cases c with
  | push wc qp =>
      simp only [acceptedPushes]
      split <;> rfl
  | poll numEntries wc => rfl
  | reqNotify => rfl

theorem conserves (f : CqFifo ω) (script : List (CqCall ω)) :
    f.waiting ++ acceptedPushes script (calls call f script).2 =
      polledEntries (calls call f script).2 ++ (calls call f script).1.waiting := by
  induction script generalizing f with
  | nil => exact List.append_nil _
  | cons c script ih =>
      simp only [calls]
      rw [acceptedPushes_cons, ← List.append_assoc, call_conserves, List.append_assoc, ih]
      exact (List.append_assoc ..).symm

theorem call_overflowed (f : CqFifo ω) (c : CqCall ω) :
    (f.call c).1.overflowed = (f.overflowed || (f.call c).2.refused) := by
  cases c with
  | push wc qp =>
      simp only [call, push]
      split
      · exact (Bool.or_true _).symm
      · exact (Bool.or_false _).symm
  | poll numEntries wc =>
      simp only [call, poll]
      split <;> exact (Bool.or_false _).symm
  | reqNotify =>
      simp only [call, reqNotify]
      split <;> exact (Bool.or_false _).symm

/-- The mark is set by the first refusal and never goes away. -/
theorem overflowed_iff (f : CqFifo ω) (script : List (CqCall ω)) :
    (calls call f script).1.overflowed = (f.overflowed || (calls call f script).2.any CqResult.refused) := by
  induction script generalizing f with
  | nil => exact (Bool.or_false _).symm
  | cons c script ih =>
      simp only [calls, List.any_cons]
      rw [ih, call_overflowed, Bool.or_assoc]

theorem call_armed {c : CqCall ω} (quiet : c.isPush = false) (armed : f.armed = true) :
    (f.call c).1.armed = true := by
  cases c with
  | push wc qp => cases quiet
  | poll numEntries wc =>
      simp only [call, poll]
      split <;> exact armed
  | reqNotify =>
      simp only [call, reqNotify]
      split
      · exact armed
      · rfl

theorem calls_armed {script : List (CqCall ω)} (quiet : ∀ c ∈ script, c.isPush = false)
    (armed : f.armed = true) :
    (calls call f script).1.armed = true := by
  induction script generalizing f with
  | nil => exact armed
  | cons c script ih =>
      exact ih (fun c member => quiet c (List.mem_cons_of_mem _ member))
        (call_armed (quiet c List.mem_cons_self) armed)

theorem call_disarmed {c : CqCall ω} (silent : c.isReqNotify = false) (disarmed : f.armed = false) :
    (f.call c).1.armed = false := by
  cases c with
  | push wc qp =>
      simp only [call, push]
      split <;> rfl
  | poll numEntries wc =>
      simp only [call, poll]
      split <;> exact disarmed
  | reqNotify => cases silent

theorem calls_disarmed {script : List (CqCall ω)} (silent : ∀ c ∈ script, c.isReqNotify = false)
    (disarmed : f.armed = false) : (calls call f script).1.armed = false := by
  induction script generalizing f with
  | nil => exact disarmed
  | cons c script ih =>
      exact ih (fun c member => silent c (List.mem_cons_of_mem _ member))
        (call_disarmed (silent c List.mem_cons_self) disarmed)

theorem push_handled (f : CqFifo ω) (wc : ω) (qp : Option Nat) :
    (f.push wc qp).2.handled = (f.armed && f.compHandler) ∧ (f.push wc qp).1.armed = false := by
  unfold push
  split <;> exact ⟨rfl, rfl⟩

theorem calls_compHandler (f : CqFifo ω) (script : List (CqCall ω)) :
    (calls call f script).1.compHandler = f.compHandler := by
  induction script generalizing f with
  | nil => rfl
  | cons c script ih => exact (ih (f.call c).1).trans (call_capacity f c).2

theorem push_refused (f : CqFifo ω) (wc : ω) (qp : Option Nat) :
    (f.push wc qp).2.refused = (f.overflowed || decide (f.waiting.length = f.capacity)) := by
  unfold push
  cases f.overflowed || decide (f.waiting.length = f.capacity) <;> rfl

theorem poll_eIo_iff (f : CqFifo ω) {numEntries : Int} (positive : 0 < numEntries) :
    (f.poll numEntries true).2.returned = .error .eIo ↔ f.overflowed = true ∧ f.waiting.length = 0 := by
  unfold poll
  rw [if_neg (by simpa using positive)]
  have wanted : numEntries.toNat ≠ 0 := by omega
  show (if (f.waiting.take numEntries.toNat).length = 0 && f.overflowed then Except.error Errno.eIo
    else .ok (f.waiting.take numEntries.toNat).length) = .error .eIo ↔ _
  rw [List.length_take]
  split
  · rename_i both
    simp only [Bool.and_eq_true, decide_eq_true_eq] at both
    exact iff_of_true rfl ⟨both.2, by omega⟩
  · rename_i either
    simp only [Bool.and_eq_true, decide_eq_true_eq, not_and] at either
    apply iff_of_false (by simp)
    rintro ⟨mark, empty⟩
    exact either (by omega) mark

theorem reqNotify_returned (f : CqFifo ω) :
    f.reqNotify.2.returned = if f.overflowed then .error .eIo else .ok (if f.waiting.length ≠ 0 then 1 else 0) := by
  unfold reqNotify
  cases f.overflowed <;> rfl

theorem reqNotify_armed {f : CqFifo ω} (zero : f.reqNotify.2.returned = .ok 0) : f.reqNotify.1.armed = true := by
  unfold reqNotify at zero ⊢
  split
  · rename_i mark
    rw [if_pos mark] at zero
    cases zero
  · rfl

end CqFifo

/-! ## The queue of the receive path -/

/-- The receive path counts the entries of its queue. -/
def CompletionQueue.counts (q : CompletionQueue ω) : Cq where
  cqe := q.cqe
  count := q.count
  overflowed := q.overflowed

theorem cqPush_counts (rx : RxQp) {q : CompletionQueue Wc} (same : rx.cq = q.counts) (psn : Nat) (wc : Wc)
    (qp : Option Nat) :
    (rx.cqPush psn wc).1.cq = (q.push wc qp).1.counts ∧ (rx.cqPush psn wc).2 = !(q.push wc qp).2.refused := by
  have room : (rx.cq.overflowed = true ∨ rx.cq.count = rx.cq.cqe) ↔
      (q.overflowed || decide (q.count = q.cqe)) = true := by
    rw [same, Bool.or_eq_true, decide_eq_true_iff]
    rfl
  unfold RxQp.cqPush CompletionQueue.push
  by_cases full : rx.cq.overflowed = true ∨ rx.cq.count = rx.cq.cqe
  · rw [if_pos full, if_pos (room.mp full), same]
    exact ⟨rfl, rfl⟩
  · rw [if_neg full, if_neg (mt room.mpr full), same]
    exact ⟨rfl, rfl⟩

/-! ## All sequences of calls -/

/-- What holds after the calls of `script`, of which the results were `results`. -/
structure CompletionQueue.Meets [Inhabited ω] (q : CompletionQueue ω) (script : List (CqCall ω))
    (results : List (CqResult ω)) : Prop where
  fifo : ∃ waiting, acceptedPushes script results = polledEntries results ++ waiting ∧ waiting.length = q.count
  sized : q.count ≤ q.cqe
  refuses : ∀ wc qp, (q.push wc qp).2.refused = (results.any CqResult.refused || decide (q.count = q.cqe))
  polls : ∀ numEntries, 0 < numEntries →
    ((q.poll numEntries true).2.returned = .error .eIo ↔
      results.any CqResult.refused = true ∧ q.count = 0)
  asks : q.reqNotify.2.returned =
    if results.any CqResult.refused then .error .eIo else .ok (if q.count ≠ 0 then 1 else 0)
  refusedAsk : results.any CqResult.refused = true → q.reqNotify.1 = q
  wakes : q.reqNotify.2.returned = .ok 0 → ∀ quiet : List (CqCall ω), (∀ c ∈ quiet, c.isPush = false) →
    ∀ wc qp, ((calls call q.reqNotify.1 quiet).1.push wc qp).2.handled = q.compHandler
  once : ∀ wc qp (silent : List (CqCall ω)), (∀ c ∈ silent, c.isReqNotify = false) →
    ∀ wc' qp', ((calls call (q.push wc qp).1 silent).1.push wc' qp').2.handled = false

theorem CompletionQueue.Holds.calls [Inhabited ω] {q : CompletionQueue ω} {f : CqFifo ω} (holds : q.Holds f)
    (script : List (CqCall ω)) :
    (calls CompletionQueue.call q script).2 = (calls CqFifo.call f script).2 ∧
      (calls CompletionQueue.call q script).1.Holds (calls CqFifo.call f script).1 :=
  calls_refine (fun _ _ c related => related.call c) holds script

theorem completion_queue_fifo [Inhabited ω] {compHandler kcalloc : Bool} {cqe : Option Nat}
    {q : CompletionQueue ω} (created : createCq compHandler cqe kcalloc = .ok q) (script : List (CqCall ω)) :
    (calls CompletionQueue.call q script).2 =
        (calls CqFifo.call { capacity := q.cqe, compHandler } script).2 ∧
      (calls CompletionQueue.call q script).1.Meets script (calls CompletionQueue.call q script).2 := by
  obtain ⟨start, -⟩ := createCq_holds created
  obtain ⟨same, holds⟩ := start.calls script
  have marked := CqFifo.overflowed_iff { capacity := q.cqe, compHandler } script
  have conserved := CqFifo.conserves { capacity := q.cqe, compHandler } script
  rw [← same] at marked conserved
  rw [Bool.false_or] at marked
  refine ⟨same, ?_⟩
  generalize (calls CompletionQueue.call q script).2 = results at marked conserved
  generalize (calls CompletionQueue.call q script).1 = after at holds
  generalize (calls CqFifo.call { capacity := q.cqe, compHandler } script).1 = f at holds marked conserved
  constructor
  case fifo => exact ⟨f.waiting, conserved, holds.count.symm⟩
  case sized => exact holds.count ▸ holds.window.fits
  case refuses =>
    intro wc qp
    rw [(holds.push wc qp).1, ← marked, holds.count, holds.cqe, CqFifo.push_refused]
  case polls =>
    intro numEntries positive
    rw [(holds.poll numEntries true).1, ← marked, holds.count]
    exact f.poll_eIo_iff positive
  case asks =>
    rw [holds.reqNotify.1, ← marked, holds.count, CqFifo.reqNotify_returned]
  case refusedAsk =>
    intro mark
    rw [← marked, ← holds.overflowed] at mark
    unfold CompletionQueue.reqNotify
    rw [if_pos mark]
  case wakes =>
    intro zero quiet noPush wc qp
    obtain ⟨answer, asked⟩ := holds.reqNotify
    have armed : f.reqNotify.1.armed = true := CqFifo.reqNotify_armed (answer ▸ zero)
    have later := (asked.calls quiet).2
    rw [(later.push wc qp).1, (CqFifo.push_handled _ wc qp).1, CqFifo.calls_armed noPush armed, Bool.true_and,
      CqFifo.calls_compHandler]
    exact (CqFifo.call_capacity f .reqNotify).2.trans holds.compHandler.symm
  case once =>
    intro wc qp silent noAsk wc' qp'
    have later := ((holds.push wc qp).2.calls silent).2
    rw [(later.push wc' qp').1, (CqFifo.push_handled _ wc' qp').1,
      CqFifo.calls_disarmed noAsk (CqFifo.push_handled f wc qp).2, Bool.false_and]

def oneEntry : CompletionQueue Nat := { compHandler := true, entries := [0], cqe := 1 }

def overflowOne : List (CqCall Nat) := [.push 7 none, .push 8 (some 3)]

/-- The handler runs for the push that is refused, and the accepted entry is still handed out. -/
theorem completion_queue_fifo_oneEntry :
    ((calls CompletionQueue.call oneEntry [.push 7 none, .reqNotify]).1.push 8 (some 3)).2.refused = true ∧
      acceptedPushes (overflowOne ++ [.poll 4 true])
        (calls CompletionQueue.call oneEntry (overflowOne ++ [.poll 4 true])).2 = [7] := by
  have created : createCq true (some 1) true = .ok oneEntry := rfl
  constructor
  · rw [(completion_queue_fifo created [.push 7 none, .reqNotify]).2.refuses]
    rfl
  · obtain ⟨waiting, kept, length⟩ :=
      (completion_queue_fifo created (overflowOne ++ [.poll 4 true])).2.fifo
    rw [List.eq_nil_of_length_eq_zero length] at kept
    exact kept

/-- A poll of no entries returns 0, and a queue that overflowed cannot be armed, whatever it holds. -/
theorem completion_queue_guards :
    (¬∀ (q : CompletionQueue Nat), createCq true (some 1) true = .ok q →
      ∀ (script : List (CqCall Nat)) (numEntries : Int),
        (calls CompletionQueue.call q script).2.any CqResult.refused = true →
        (((calls CompletionQueue.call q script).1.poll numEntries true).2.returned = .error .eIo ↔
          (calls CompletionQueue.call q script).1.count = 0)) ∧
      ¬∀ (q : CompletionQueue Nat), createCq true (some 1) true = .ok q →
        ∀ script : List (CqCall Nat), (calls CompletionQueue.call q script).1.count ≠ 0 →
          (calls CompletionQueue.call q script).1.reqNotify.2.returned = .ok 1 := by
  constructor
  · intro literal
    have empty := (literal oneEntry rfl (overflowOne ++ [.poll 1 true]) 0 rfl).mpr rfl
    cases empty
  · intro literal
    have answered := literal oneEntry rfl overflowOne (by decide)
    cases answered

end ThunderboltVerbs.Verbs
