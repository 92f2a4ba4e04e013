import ThunderboltVerbs.Driver.Qp
import ThunderboltVerbs.Apple.Rx
import ThunderboltVerbs.Receive.Waiting

/-!
# What waits for receive requests

A queue pair that uses the Apple transport has the pending ring beside its reorder list; both take from the
same receive requests. A chain of requests that fails at one of them is posted up to there, and nothing is
drained then.
-/

namespace ThunderboltVerbs.Driver
open Proto Verbs Receive Apple Lib

/-! ## The ring -/

/-- The slots that are ready were drained as far as there were requests. -/
structure Emptied (q q' : AppleQp) : Prop where
  closing : q'.closing = q.closing
  recvq : q'.recvq <:+ q.recvq
  ready : q'.ready = [] ∨ q'.recvq = [] ∨ q'.closing = true

theorem popRecv_cases (q : AppleQp) :
    q.popRecv = none ∧ (q.recvq = [] ∨ q.closing = true) ∨
      ∃ wqe recvq, q.popRecv = some (wqe, { q with recvq }) ∧ q.recvq = wqe :: recvq := by
  simp only [AppleQp.popRecv]
  split <;> rename_i requests
  · exact .inl ⟨rfl, .inl requests⟩
  split <;> rename_i closing
  · exact .inl ⟨rfl, .inr closing⟩
  · exact .inr ⟨_, _, rfl, requests⟩

theorem emptied_drainFrom (env : AppleEnv) (ready : List Pending) (q : AppleQp) :
    Emptied q (AppleQp.drainFrom env ready q) := by
  induction ready generalizing q with
  | nil => exact ⟨rfl, List.suffix_rfl, .inl rfl⟩
  | cons p rest ih =>
      simp only [AppleQp.drainFrom]
      rcases popRecv_cases q with ⟨popped, out⟩ | ⟨wqe, recvq, popped, requests⟩
      · rw [popped]
        exact ⟨rfl, List.suffix_rfl, .inr out⟩
      · rw [popped]
        simp only [AppleQp.pushWc]
        have fewer : recvq <:+ q.recvq := requests ▸ List.suffix_cons wqe recvq
        split
        · exact ⟨(ih _).closing, (ih _).recvq.trans fewer, (ih _).ready⟩
        · exact ⟨(ih _).closing, (ih _).recvq.trans fewer, (ih _).ready⟩

theorem emptied_drainPending (env : AppleEnv) (q : AppleQp) : Emptied q (q.drainPending env) :=
  emptied_drainFrom env q.ready q

theorem emptied_takeFrame (env : AppleEnv) (frame : AppleFrame) {q q' : AppleQp} (emptied : Emptied q q') :
    Emptied q (q'.takeFrame env frame) := by
  simp only [AppleQp.takeFrame]
  split
  · exact ⟨emptied.closing, emptied.recvq, emptied.ready⟩
  split
  · exact ⟨emptied.closing, emptied.recvq, emptied.ready⟩
  split
  · exact ⟨emptied.closing, emptied.recvq, emptied.ready⟩
  · rename_i p _
    obtain ⟨p', bytes, copied, -⟩ := AppleQp.copyFrame_eq { q' with seen := q'.seen.push frame } env p
      frame.payload q'.seen.messages.length
    simp only [copied]
    split
    · have drained := emptied_drainPending env
        ({ q' with seen := q'.seen.push frame, active := some p', pendingBytes := bytes } : AppleQp).finish
      exact ⟨drained.closing.trans emptied.closing, drained.recvq.trans emptied.recvq, drained.ready⟩
    · exact ⟨emptied.closing, emptied.recvq, emptied.ready⟩

theorem emptied_rxFrame (env : AppleEnv) (frame : AppleFrame) {q : AppleQp}
    (start : q.ready = [] ∨ q.recvq = [] ∨ q.closing = true) : Emptied q (q.rxFrame env frame) := by
  simp only [AppleQp.rxFrame]
  split
  · exact ⟨rfl, List.suffix_rfl, start⟩
  · exact emptied_takeFrame env frame (emptied_drainPending env q)

/-! ## Posting a chain of requests -/

def recvWrOk (mrs : Nat → Option Mr) (wr : RecvWr) : Bool :=
  wr.sgList.length ≤ 1 && (wr.sgList.findSome? (NativeQp.validateRecvSge mrs)).isNone

namespace NativeQp

variable {q : NativeQp} {mrs : Nat → Option Mr} {wrs : List RecvWr}

/-- Every request of the chain is in order and there is room for all. -/
def takesAll (q : NativeQp) (mrs : Nat → Option Mr) (wrs : List RecvWr) : Bool :=
  wrs.all (recvWrOk mrs) && q.rx.recvq.length + wrs.length ≤ q.recvqSize

/-- The first request is refused already. -/
def takesNone (q : NativeQp) (mrs : Nat → Option Mr) (wrs : List RecvWr) : Bool :=
  !q.tx.allowsPost || wrs.head?.any fun wr => !recvWrOk mrs wr || q.rx.recvq.length = q.recvqSize

theorem postRecvOne_eq (mrs : Nat → Option Mr) (wr : RecvWr) (allowed : q.tx.allowsPost = true) :
    (∃ error, q.postRecvOne mrs wr = .error error ∧
        (recvWrOk mrs wr = false ∨ q.rx.recvq.length = q.recvqSize)) ∨
      q.postRecvOne mrs wr = .ok { q with rx := { q.rx with recvq := q.rx.recvq ++ [recvWqe wr] } } ∧
        recvWrOk mrs wr = true ∧ q.rx.recvq.length ≠ q.recvqSize := by
  simp only [postRecvOne, recvWrOk]
  split <;> rename_i many
  · exact .inl ⟨_, rfl, .inl (by simp [many])⟩
  split <;> rename_i invalid
  · exact .inl ⟨_, rfl, .inl (by simp [invalid])⟩
  rw [allowed]
  simp only [Bool.not_true, Bool.false_eq_true, if_false]
  split <;> rename_i full
  · exact .inl ⟨_, rfl, .inr full⟩
  · exact .inr ⟨rfl, by simp [invalid, Nat.le_of_not_lt many], full⟩

theorem postRecvs_eq (mrs : Nat → Option Mr) (wrs : List RecvWr) (allowed : q.tx.allowsPost = true) :
    ∃ taken, (postRecvs mrs wrs q).1 = { q with rx := { q.rx with recvq := q.rx.recvq ++ taken } } := by
  induction wrs generalizing q with
  | nil => exact ⟨[], by simp [postRecvs]⟩
  | cons wr rest ih =>
      simp only [postRecvs]
      rcases postRecvOne_eq mrs wr allowed with ⟨error, refused, -⟩ | ⟨taken, -, -⟩
      · exact ⟨[], by simp [refused]⟩
      · obtain ⟨more, eq⟩ := ih (q := { q with rx := { q.rx with recvq := q.rx.recvq ++ [recvWqe wr] } }) allowed
        refine ⟨recvWqe wr :: more, ?_⟩
        rw [taken]
        simpa using eq

theorem postRecvs_all (allowed : q.tx.allowsPost = true) (all : q.takesAll mrs wrs = true) :
    (postRecvs mrs wrs q).2 = none := by
  induction wrs generalizing q with
  | nil => rfl
  | cons wr rest ih =>
      simp only [takesAll, List.all_cons, Bool.and_eq_true, decide_eq_true_eq, List.length_cons] at all
      obtain ⟨⟨ok, others⟩, room⟩ := all
      simp only [postRecvs]
      rcases postRecvOne_eq mrs wr allowed with ⟨error, refused, bad | full⟩ | ⟨taken, -, -⟩
      · simp [ok] at bad
      · omega
      · rw [taken]
        refine ih (q := { q with rx := { q.rx with recvq := q.rx.recvq ++ [recvWqe wr] } }) allowed ?_
        simp only [takesAll, others, Bool.true_and, decide_eq_true_eq, List.length_append, List.length_singleton]
        omega

theorem postRecvs_none (allowed : q.tx.allowsPost = true) (none : q.takesNone mrs wrs = true) :
    (postRecvs mrs wrs q).1 = q := by
  simp only [takesNone, allowed, Bool.not_true, Bool.false_or] at none
  cases wrs with
  | nil => rfl
  | cons wr rest =>
      simp only [List.head?_cons, Option.any_some, Bool.or_eq_true, Bool.not_eq_true', decide_eq_true_eq] at none
      simp only [postRecvs]
      rcases postRecvOne_eq mrs wr allowed with ⟨error, refused, -⟩ | ⟨-, ok, room⟩
      · rw [refused]
      · rcases none with bad | full
        · simp [ok] at bad
        · exact absurd full room

end NativeQp

/-! ## A queue pair with both -/

structure Endpoint where
  native : NativeQp
  apple : Option AppleQp := none

inductive RecvAction
  | postRecv (env : RxEnv) (wrs : List RecvWr) (sent : Bool)
  | nativeFrame (env : RxEnv) (frame : Frame)
  | appleFrame (env : AppleEnv) (frame : AppleFrame)
  | pollCq (cq : Cq)

namespace Endpoint

/-- The ring with the requests and the completion queue of the queue pair. -/
def ring (q : Endpoint) (pending : AppleQp) : AppleQp :=
  { pending with recvq := q.native.rx.recvq, cq := q.native.rx.cq, closing := q.native.rx.closing }

/-- The queue pair after the ring took requests. -/
def withRing (q : Endpoint) (after : AppleQp) : Endpoint where
  native :=
    { q.native with
      rx := { q.native.rx with recvq := after.recvq, cq := after.cq }
      recvCreditsAdvertised := q.native.recvCreditsAdvertised - (q.native.rx.recvq.length - after.recvq.length) }
  apple := some after

def onRing (q : Endpoint) (f : AppleQp → AppleQp) : Endpoint :=
  match q.apple with
  | none => q
  | some pending => q.withRing (f (q.ring pending))

/-- A drain of the ring reads the registered regions only. -/
def pendingEnv (env : RxEnv) : AppleEnv where
  rxPendingBytes := 0
  rxPendingTotalBytes := 0
  alloc := false
  mrs := env.mrs

/-- `tbv_post_recv`; a queue pair on the Apple transport advertises no credits. -/
def postRecv (q : Endpoint) (env : RxEnv) (wrs : List RecvWr) (sent : Bool) : Endpoint :=
  if !q.native.tx.allowsPost then q
  else
    let (posted, error) := NativeQp.postRecvs env.mrs wrs q.native
    if posted.rx.recvq.length = q.native.rx.recvq.length then { q with native := posted }
    else
      let advertised := if q.apple.isSome then posted else (posted.advertiseRecvCredits sent).1
      let q := { q with native := advertised }
      match error with
      | some _ => q
      | none =>
          let q := q.onRing fun ring => ring.drainPending (pendingEnv env)
          { q with native := (q.native.received (q.native.rx.drain env)).1 }

def step (q : Endpoint) : RecvAction → Option Endpoint
  | .postRecv env wrs sent => some (q.postRecv env wrs sent)
  | .nativeFrame env frame => some { q with native := (q.native.rxNativeFrame env frame).1 }
  | .appleFrame env frame => some (q.onRing fun ring => ring.rxFrame env frame)
  | .pollCq cq => some { q with native := { q.native with rx := { q.native.rx with cq } } }

/-- On a native queue pair this is the model of the driver. -/
theorem postRecv_native (native : NativeQp) (env : RxEnv) (wrs : List RecvWr) (sent : Bool) :
    ({ native } : Endpoint).postRecv env wrs sent = { native := (native.postRecv env wrs sent).1 } := by
  simp only [postRecv, NativeQp.postRecv]
  split
  · rfl
  split
  · rfl
  · cases (NativeQp.postRecvs env.mrs wrs native).2 <;> rfl

end Endpoint

/-! ## Every run -/

namespace NativeQp

variable {q : NativeQp}

/-- A frame goes to the receive half, or it leaves it alone, or it empties it with an error. -/
theorem rxNativeFrame_rx (env : RxEnv) (frame : Frame) :
    q.validEndpoint frame.header = true ∧ (q.rxNativeFrame env frame).1.rx = q.rx.handleFrame env frame ∨
      (q.rxNativeFrame env frame).1.rx = q.rx ∨
      (q.rxNativeFrame env frame).1.rx.recvq = [] ∧ (q.rxNativeFrame env frame).1.rx.reorder = .empty := by
  simp only [rxNativeFrame]
  split
  · refine .inr (.inl ?_)
    split
    · rfl
    · simp only [acceptRecvCredit]
      split
      · rfl
      split
      · split <;> rfl
      · split <;> rfl
  split <;> rename_i valid
  · exact .inr (.inl rfl)
  split
  · simp only [acked]
    split
    · exact .inr (.inl rfl)
    split
    · simp only [markError]
      split
      · exact .inr (.inl rfl)
      · exact .inr (.inr ⟨rfl, rfl⟩)
    · exact .inr (.inl rfl)
  · refine .inr (.inl ?_)
    simp only [readAcked]
    split <;> rfl
  · exact .inr (.inl rfl)
  · exact .inl ⟨by simpa using valid, rfl⟩

end NativeQp

namespace Endpoint

def recvSystem : System Endpoint RecvAction where
  init q := q.native.rx.reorder = .empty ∧ ∀ pending ∈ q.apple, pending.ready = []
  step := Endpoint.step

/-- Neither the reorder list nor the ring has a message that could go. -/
def NothingWaits (q : Endpoint) : Prop :=
  (q.native.rx.idle = true → q.native.rx.Clear q.native.rx.rxExpectedPsn) ∧
    ∀ pending ∈ q.apple, pending.ready = []

/-- A chain that fails after its first request comes only while nothing waits, and so does a frame that ends
an active message without a drain. -/
def Meets (q : Endpoint) : RecvAction → Prop
  | .postRecv env wrs _ =>
      q.native.takesAll env.mrs wrs = true ∨ q.native.takesNone env.mrs wrs = true ∨ q.NothingWaits
  | .nativeFrame env frame => q.native.validEndpoint frame.header = true → q.native.rx.Followed env frame
  | _ => True

structure Settled (q : Endpoint) : Prop where
  buffer : q.native.rx.reorder.Represented
  clear : q.native.rx.available ≠ [] → q.native.rx.idle = true → q.native.rx.Clear q.native.rx.rxExpectedPsn
  rings : ∀ pending ∈ q.apple, q.native.rx.available ≠ [] → pending.ready = []

variable {q : Endpoint}

theorem onRing_rx (f : AppleQp → AppleQp) :
    ∃ recvq cq, (q.onRing f).native.rx = { q.native.rx with recvq, cq } := by
  simp only [onRing]
  split
  · exact ⟨q.native.rx.recvq, q.native.rx.cq, rfl⟩
  · exact ⟨_, _, rfl⟩

/-- What the ring leaves are requests that were there, and with one left no slot is ready. -/
theorem onRing_rings {f : AppleQp → AppleQp}
    (emptied : ∀ pending ∈ q.apple, Emptied (q.ring pending) (f (q.ring pending))) :
    (q.onRing f).native.rx.available <:+ q.native.rx.available ∧
      ∀ pending ∈ (q.onRing f).apple, (q.onRing f).native.rx.available ≠ [] → pending.ready = [] := by
  cases apple : q.apple with
  | none =>
      have same : q.onRing f = q := by simp only [onRing, apple]
      rw [same, apple]
      exact ⟨List.suffix_rfl, by simp⟩
  | some pending =>
      have taken : q.onRing f = q.withRing (f (q.ring pending)) := by simp only [onRing, apple]
      have emptied := emptied pending (by simp [apple])
      have closing : (f (q.ring pending)).closing = q.native.rx.closing := emptied.closing
      have fewer : (f (q.ring pending)).recvq <:+ q.native.rx.recvq := emptied.recvq
      rw [taken]
      simp only [withRing, RxQp.available]
      refine ⟨?_, fun other same some => ?_⟩
      · by_cases closed : q.native.rx.closing = true
        · simp [closed]
        · simpa [closed] using fewer
      · obtain rfl : f (q.ring pending) = other := by simpa using same
        rcases emptied.ready with ready | out | closed
        · exact ready
        · simp [out] at some
        · simp [← closing, closed] at some

theorem Settled.onRing {f : AppleQp → AppleQp} (settled : q.Settled)
    (emptied : ∀ pending ∈ q.apple, Emptied (q.ring pending) (f (q.ring pending))) : (q.onRing f).Settled := by
  obtain ⟨fewer, rings⟩ := onRing_rings emptied
  obtain ⟨recvq, cq, rx⟩ := onRing_rx (q := q) f
  refine ⟨by rw [rx]; exact settled.buffer, fun some => ?_, rings⟩
  have before : q.native.rx.available ≠ [] := fun none => some (List.suffix_nil.mp (none ▸ fewer))
  rw [rx]
  exact settled.clear before

theorem Settled.appleFrame (settled : q.Settled) (env : AppleEnv) (frame : AppleFrame) :
    (q.onRing fun ring => ring.rxFrame env frame).Settled := by
  refine settled.onRing fun pending member => emptied_rxFrame env frame ?_
  by_cases none : q.native.rx.available = []
  · simp only [RxQp.available, ite_eq_left_iff, Bool.not_eq_true] at none
    simp only [ring]
    cases closing : q.native.rx.closing with
    | true => exact .inr (.inr rfl)
    | false => exact .inr (.inl (none closing))
  · exact .inl (settled.rings pending member none)

theorem Settled.nativeFrame (settled : q.Settled) {env : RxEnv} {frame : Frame}
    (followed : q.native.validEndpoint frame.header = true → q.native.rx.Followed env frame) :
    Settled { q with native := (q.native.rxNativeFrame env frame).1 } := by
  have buffer := settled.buffer
  rcases q.native.rxNativeFrame_rx env frame with ⟨valid, handled⟩ | same | ⟨requests, empty⟩
  · have start : q.native.rx.Served q.native.rx.available := ⟨List.suffix_rfl, settled.clear⟩
    have served := start.handleFrame buffer.distinct (followed valid)
    rw [← handled] at served
    refine ⟨?_, served.clear, fun pending member some => settled.rings pending member fun none => ?_⟩
    · exact handled ▸ Reorder.Represented.closed.handleFrame buffer frame
    · exact some (List.suffix_nil.mp (none ▸ served.available))
  · refine ⟨?_, ?_, ?_⟩ <;> simp only [same]
    · exact buffer
    · exact settled.clear
    · exact settled.rings
  · have none : (q.native.rxNativeFrame env frame).1.rx.available = [] := by
      simp [RxQp.available, requests]
    refine ⟨?_, fun some => absurd none some, fun _ _ some => absurd none some⟩
    simp only [empty]
    exact Reorder.Represented.closed.empty

theorem advertised_rx (q : NativeQp) (sent : Bool) : (q.advertiseRecvCredits sent).1.rx = q.rx := by
  simp only [NativeQp.advertiseRecvCredits]
  split <;> rfl

/-- The drains after a chain that was taken whole settle everything. -/
theorem settled_drained {native : NativeQp} (env : RxEnv) (buffer : native.rx.reorder.Represented) :
    let q' := { q with native }.onRing fun ring => ring.drainPending (pendingEnv env)
    Settled { q' with native := (q'.native.received (q'.native.rx.drain env)).1 } := by
  intro q'
  obtain ⟨fewer, rings⟩ := onRing_rings (q := { q with native })
    (f := fun ring => ring.drainPending (pendingEnv env))
    fun pending _ => emptied_drainPending (pendingEnv env) (ring { q with native } pending)
  obtain ⟨recvq, cq, rx⟩ := onRing_rx (q := { q with native }) fun ring => ring.drainPending (pendingEnv env)
  have buffer' : q'.native.rx.reorder.Represented := rx ▸ buffer
  have served := served_drain env buffer'.distinct (List.suffix_refl q'.native.rx.available)
  refine ⟨Reorder.Represented.closed.drain buffer', served.clear, fun pending member some => ?_⟩
  exact rings pending member fun none => some (List.suffix_nil.mp (none ▸ served.available))

theorem Settled.postRecv (settled : q.Settled) {env : RxEnv} {wrs : List RecvWr} (sent : Bool)
    (meets : q.native.takesAll env.mrs wrs = true ∨ q.native.takesNone env.mrs wrs = true ∨ q.NothingWaits) :
    (q.postRecv env wrs sent).Settled := by
  simp only [Endpoint.postRecv]
  split <;> rename_i refused
  · exact settled
  have allowed : q.native.tx.allowsPost = true := by simpa using refused
  obtain ⟨taken, posted⟩ := NativeQp.postRecvs_eq env.mrs wrs allowed
  split <;> rename_i length
  · rw [posted] at length ⊢
    obtain rfl : taken = [] := by simpa using length
    simpa using settled
  have rx : (if q.apple.isSome = true then (NativeQp.postRecvs env.mrs wrs q.native).1 else
      ((NativeQp.postRecvs env.mrs wrs q.native).1.advertiseRecvCredits sent).1).rx =
      { q.native.rx with recvq := q.native.rx.recvq ++ taken } := by
    split
    · rw [posted]
    · rw [advertised_rx, posted]
  split <;> rename_i result
  · have waits : q.NothingWaits := by
      rcases meets with all | none | waits
      · rw [NativeQp.postRecvs_all allowed all] at result
        cases result
      · rw [NativeQp.postRecvs_none allowed none] at length
        exact absurd rfl length
      · exact waits
    refine ⟨?_, fun _ => ?_, fun pending member _ => waits.2 pending member⟩
    · simp only [rx]
      exact settled.buffer
    · simp only [rx]
      exact waits.1
  · refine settled_drained env ?_
    rw [rx]
    exact settled.buffer

theorem Settled.step {action : RecvAction} {q' : Endpoint} (settled : q.Settled) (meets : q.Meets action)
    (stepped : q.step action = some q') : q'.Settled := by
  cases action <;> simp only [Endpoint.step, Option.some.injEq] at stepped <;> subst stepped
  case postRecv env wrs sent => exact settled.postRecv sent meets
  case nativeFrame env frame => exact settled.nativeFrame meets
  case appleFrame env frame => exact settled.appleFrame env frame
  case pollCq cq => exact ⟨settled.buffer, settled.clear, settled.rings⟩

theorem nothing_waits (reachable : recvSystem.ReachableVia Meets q) (live : q.native.rx.closing = false)
    (requests : 0 < q.native.rx.recvq.length) (noMsg : q.native.rx.rxMsg = none)
    (noWrite : q.native.rx.rxWrite = none) :
    (∀ msg ∈ q.native.rx.rxReorder, msg.psn = q.native.rx.rxExpectedPsn → msg.complete = false) ∧
      ∀ pending ∈ q.apple, pending.ready = [] := by
  have settled : q.Settled := by
    refine System.ReachableVia.invariant ?_ (fun _ _ _ held meets stepped => held.step meets stepped) reachable
    intro start ⟨empty, ready⟩
    have none : start.native.rx.rxReorder = [] := congrArg Reorder.msgs empty
    refine ⟨empty ▸ Reorder.Represented.closed.empty, fun _ _ msg member => ?_, fun pending member _ => ?_⟩
    · rw [none] at member
      cases member
    · exact ready pending member
  have some : q.native.rx.available ≠ [] := by
    simp only [RxQp.available, live, Bool.false_eq_true, if_false]
    exact List.ne_nil_of_length_pos requests
  have idle : q.native.rx.idle = true := by simp [RxQp.idle, noMsg, noWrite]
  exact ⟨settled.clear some idle, fun pending member => settled.rings pending member some⟩

/-! ## Runs -/

instance : Decidable q.NothingWaits := inferInstanceAs (Decidable (_ ∧ _))

instance : ∀ action, Decidable (q.Meets action)
  | .postRecv env wrs _ => inferInstanceAs (Decidable
      (q.native.takesAll env.mrs wrs = true ∨ q.native.takesNone env.mrs wrs = true ∨ q.NothingWaits))
  | .nativeFrame env frame => inferInstanceAs (Decidable
      (q.native.validEndpoint frame.header = true → q.native.rx.Followed env frame))
  | .appleFrame _ _ => inferInstanceAs (Decidable True)
  | .pollCq _ => inferInstanceAs (Decidable True)

def connected (apple : Option AppleQp) : Endpoint where
  native :=
    { pd := 0
      tx := { state := .rts, refs := 1, qpNum := 0, destQpKnown := true, destQpNum := 0, retryCnt := 0, rnrRetry := 0
              maxSendWr := 4, sendPsn := 0 }
      rx := { emptyRxQp with remoteWrite := true }
      recvqSize := 4 }
  apple := apple

def openEnv : RxEnv where
  mrs := fun _ => some { start := 0, length := 4096, remoteWrite := true }
  now := 0

theorem length_oneByte : ([7] : List UInt8).length = 1 := rfl

/-- A fragment of a message of `total` bytes. -/
def oneByte (opcode : DataOp) (psn total : Nat) : Frame where
  header := { opcode, flags := if total = 1 then flagLast else 0, psn, length := 1, immData := total }
  payload := [7]
  sized := length_oneByte

theorem length_readRequest : ([] : List UInt8).length = 0 := rfl

def readRequest (psn : Nat) : Frame where
  header := { opcode := .rdmaReadReq, flags := flagLast, psn, immData := 1 }
  payload := []
  sized := length_readRequest

def wr : RecvWr := { wrId := 1, sgList := [] }

def twoSges : RecvWr := { wrId := 2, sgList := List.replicate 2 { addr := 0, length := 0, lkey := 0 } }

theorem nothing_waits_deliveredOnPost :
    ∃ q, recvSystem.ReachableVia Meets q ∧ q.native.rx.rxExpectedPsn = 7 ∧ q.native.rx.recvq.length = 1 ∧
      (∀ msg ∈ q.native.rx.rxReorder, msg.psn = q.native.rx.rxExpectedPsn → msg.complete = false) ∧
      ∀ pending ∈ q.apple, pending.ready = [] := by
  obtain ⟨q, reachable, passed⟩ := System.exists_reachableVia recvSystem Meets
    [.nativeFrame openEnv (oneByte .send 6 1), .nativeFrame openEnv (readRequest 5), .postRecv openEnv [wr, wr] true]
    (fun q => q.native.rx.rxExpectedPsn = 7 && q.native.rx.recvq.length = 1 && !q.native.rx.closing &&
      q.native.rx.idle) (s := connected none) ⟨rfl, by simp [connected]⟩ (by decide)
  simp only [Bool.and_eq_true, decide_eq_true_eq, Bool.not_eq_true', RxQp.idle, Option.isNone_iff_eq_none] at passed
  obtain ⟨⟨⟨psn, one⟩, live⟩, noMsg, noWrite⟩ := passed
  exact ⟨q, reachable, psn, one, nothing_waits reachable live (one ▸ Nat.zero_lt_one) noMsg noWrite⟩

/-- A live queue pair in no error has a request left, and yet a message that could be delivered. -/
def strands (q : Endpoint) : Bool :=
  0 < q.native.rx.recvq.length && q.native.rx.idle && !q.native.rx.closing && q.native.tx.state ≠ .err &&
    ((q.native.rx.rxReorder.any fun msg => msg.psn = q.native.rx.rxExpectedPsn && msg.complete) ||
      q.apple.any fun pending => pending.ready ≠ [])

/-- A chain that fails at its second request. -/
def failedChain : List RecvAction :=
  [.nativeFrame openEnv (oneByte .send 6 1), .nativeFrame openEnv (readRequest 5),
    .postRecv openEnv [wr, twoSges] true]

def failedAppleChain : List RecvAction :=
  [.appleFrame plainEnv { sof := 0, eof := frameEnd, payload := [7] }, .postRecv openEnv [wr, twoSges] true]

/-- A SEND that is active is ended by one of another length at its PSN. -/
def foreignSend : List RecvAction :=
  [.postRecv openEnv [wr, wr] true, .nativeFrame openEnv (oneByte .send 5 2),
    .nativeFrame openEnv (oneByte .send 6 1), .nativeFrame openEnv (oneByte .send 5 1)]

/-- While a WRITE is active a SEND takes its PSN; the WRITE is ended by the next one. -/
def overtakenWrite : List RecvAction :=
  [.postRecv openEnv [wr, wr] true, .nativeFrame openEnv (oneByte .rdmaWrite 5 2),
    .nativeFrame openEnv (oneByte .send 6 1), .nativeFrame openEnv (oneByte .send 5 1),
    .nativeFrame openEnv (oneByte .rdmaWrite 6 1)]

theorem message_stranded :
    (∃ q, recvSystem.Reachable q ∧ (q.strands && q.apple.isNone) = true) ∧
      ∃ q, recvSystem.Reachable q ∧ (q.strands && q.apple.isSome) = true := by
  constructor
  · exact System.exists_reachableVia recvSystem (fun _ _ => True) failedChain _ (s := connected none)
      ⟨rfl, by simp [connected]⟩ (by decide)
  · exact System.exists_reachableVia recvSystem (fun _ _ => True) failedAppleChain _
      (s := connected (some (.created 4 { cqe := 4 }))) ⟨rfl, by simp [connected, AppleQp.created]⟩ (by decide)

example : (recvSystem.runVia (fun _ _ => True) (connected none) foreignSend).any strands = true := by decide

example : (recvSystem.runVia (fun _ _ => True) (connected none) overtakenWrite).any strands = true := by decide

end Endpoint

end ThunderboltVerbs.Driver
