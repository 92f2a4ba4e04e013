import ThunderboltVerbs.Receive.Growth
import ThunderboltVerbs.Receive.Recovery
import ThunderboltVerbs.Verbs.Complete

/-!
# The sender and the receiver agree on success

A connection of two queue pairs. Data frames of every request that has been posted and every answer that
the receiver has ever given may arrive at any time, any number of times or never.
-/

namespace ThunderboltVerbs.Receive
open Proto Verbs Lib

/-! ## The system -/

/-- The contexts of the sender are named by the numbers of their requests. -/
structure Connection where
  sender : Qp
  posted : Nat
  completed : List SendEntry
  receiver : Receiver

inductive LinkAction
  | post
  | receive (action : RxAction)
  | ack (answer now : Nat)
  | reap (clock : Qp.Clock)
  | retried (n : Nat) (reason : PostReason) (ret : Option Errno) (now : Nat)
  | txDone (n : Nat) (status : Option Errno) (now : Nat)
  | readDone (n : Nat)
  | markError

def Effect.answer : Effect → Option (Nat × SendAckStatus)
  | .ack _ _ psn status | .reack _ _ psn status => some (psn, status)
  | _ => none

namespace Connection

variable (c : Connection)

def settle (result : Qp × List SendEntry) : Connection :=
  { c with sender := result.1, completed := c.completed ++ result.2 }

def before (answer : Nat) : List Effect :=
  c.receiver.q.trace.drop (c.receiver.q.trace.length - answer)

end Connection

namespace Stream

variable (s : Stream)

def sendCtx (qp : Qp) (n : Nat) (msg : Message) (psn : Nat) : SendCtx where
  wrId := n
  msg := msg.sendMsg s.destQp s.srcQp psn
  signaled := true
  maxRetries := qp.sendMaxRetries
  maxRnrRetries := qp.sendMaxRnrRetries
  recvCreditRequired := recvCreditRequired msg.op
  sqCounted := true

def accept (c : Connection) : Option Connection :=
  match s.request c.posted with
  | .data msg =>
      match takeCredit c.sender msg.op with
      | .error _ => none
      | .ok (credited, _) =>
          match credited.reserveSendq with
          | .error _ => none
          | .ok counted =>
              let (numbered, psn) := counted.takePsn
              let ctx := s.sendCtx c.sender c.posted msg psn
              some { c with sender := numbered.queueSend c.posted ctx, posted := c.posted + 1 }
  | .read totalLen _ _ =>
      match c.sender.reserveSendq with
      | .error _ => none
      | .ok counted =>
          let (numbered, psn) := counted.takePsn
          let read : ReadCtx :=
            { wrId := c.posted, psn, totalLen, segs := [], signaled := true, sqCounted := true }
          some { c with sender := numbered.queueRead c.posted read, posted := c.posted + 1 }

def linkStep (c : Connection) : LinkAction → Option Connection
  | .post => s.accept c
  | .receive action =>
      if action.reach ≤ c.posted then (s.rxStep c.receiver action).map fun r => { c with receiver := r }
      else none
  | .ack answer now =>
      ((nth c.receiver.q.trace answer).bind Effect.answer).map fun (psn, status) =>
        c.settle (c.sender.handleSendAck psn status now)
  | .reap clock => some (c.settle (c.sender.timeoutReapSends clock))
  | .retried n reason ret now => some (c.settle (c.sender.retried n reason ret now))
  | .txDone n status now => some (c.settle (c.sender.sendTxDone n (s.psn n) status now))
  | .readDone n => some { c with sender := (c.sender.unqueueRead n).1 }
  | .markError =>
      if c.sender.closing || c.sender.state = .err then none
      else some (c.settle { c.sender with state := .err }.flushSends)

def link : System Connection LinkAction where
  init c := c.posted = 0 ∧ c.completed = [] ∧ c.sender.pendingSends = [] ∧
    c.sender.sendPsn = s.psn 0 ∧ c.receiver.q.Fresh s
  step := s.linkStep

/-- No PSN comes round again while a request with it is pending or one of its frames is under way, and a
duplicate of a request that failed comes while the ACK history covers it. -/
def Punctual (c : Connection) : LinkAction → Prop
  | .post => ∀ entry ∈ c.sender.pendingSends, c.posted < entry.1 + 2 ^ 23
  | .receive action => Conforming c.receiver action ∧ AnswerableStep s True c.receiver action
  | .ack answer _ => c.posted ≤ consumedCount (c.before answer) + 2 ^ 23
  | _ => True

end Stream

/-! ## The invariant -/

/-- A context of the sender is that of its request; it succeeds only if the request did. -/
structure Truthful (s : Stream) (trace : List Effect) (entry : SendEntry) : Prop where
  psn : entry.2.msg.psn = s.psn entry.1
  success : entry.2.Succeeded → outcome trace entry.1 = some .ok

structure Agrees (s : Stream) (c : Connection) : Prop where
  receiver : ∃ k, Inv s True c.posted k c.receiver.clock c.receiver.q
  sendPsn : c.sender.sendPsn = s.psn c.posted
  young : ∀ entry ∈ c.sender.pendingSends, entry.1 < c.posted ∧ c.posted ≤ entry.1 + 2 ^ 23
  pending : ∀ entry ∈ c.sender.pendingSends, Truthful s c.receiver.q.trace entry
  completed : ∀ entry ∈ c.completed, Truthful s c.receiver.q.trace entry
  ready : ∀ entry ∈ c.completed, entry.2.ready = true

variable {s : Stream} {c c' : Connection}

theorem Truthful.mono {trace later : List Effect} {entry : SendEntry} (truthful : Truthful s trace entry)
    (grows : trace <:+ later) : Truthful s later entry where
  psn := truthful.psn
  success := fun success => by
    have known := truthful.success success
    rw [outcome_suffix grows (outcome_lt known)]
    exact known

theorem Truthful.settles {granted : Nat → Prop} {trace : List Effect} {old new : SendEntry}
    (truthful : Truthful s trace old) (settles : SettlesFrom granted old new)
    (right : granted old.2.msg.psn → outcome trace old.1 = some .ok) : Truthful s trace new where
  psn := by rw [settles.msg, settles.addr, truthful.psn]
  success := fun success => by
    rw [settles.addr]
    rcases settles.success success with earlier | now
    · exact truthful.success earlier
    · exact right now

theorem Agrees.settle {granted : Nat → Prop} {result : Qp × List SendEntry} (agrees : Agrees s c)
    (settles : Settles granted c.sender result)
    (right : ∀ entry ∈ c.sender.pendingSends, granted entry.2.msg.psn →
      outcome c.receiver.q.trace entry.1 = some .ok) : Agrees s (c.settle result) where
  receiver := agrees.receiver
  sendPsn := settles.sendPsn.trans agrees.sendPsn
  young := fun entry member => by
    obtain ⟨old, inside, from_⟩ := settles.pending entry member
    rw [from_.addr]
    exact agrees.young old inside
  pending := fun entry member => by
    obtain ⟨old, inside, from_⟩ := settles.pending entry member
    exact (agrees.pending old inside).settles from_ (right old inside)
  completed := fun entry member => by
    rcases List.mem_append.mp member with before | now
    · exact agrees.completed entry before
    · obtain ⟨old, inside, from_⟩ := settles.completed entry now
      exact (agrees.pending old inside).settles from_ (right old inside)
  ready := fun entry member => by
    rcases List.mem_append.mp member with before | now
    · exact agrees.ready entry before
    · exact settles.ready entry now

theorem Agrees.settle_plain {result : Qp × List SendEntry} (agrees : Agrees s c)
    (settles : Settles (fun _ => False) c.sender result) : Agrees s (c.settle result) :=
  agrees.settle settles fun _ _ impossible => impossible.elim

theorem Agrees.granted {answer psn : Nat} {effect : Effect} (agrees : Agrees s c)
    (found : nth c.receiver.q.trace answer = some effect) (ok : effect.answer = some (psn, .ok))
    (punctual : c.posted ≤ consumedCount (c.before answer) + 2 ^ 23) :
    ∀ entry ∈ c.sender.pendingSends, entry.2.msg.psn = psn % psnMod →
      outcome c.receiver.q.trace entry.1 = some .ok := by
  intro entry member same
  obtain ⟨k, inv⟩ := agrees.receiver
  obtain ⟨later, split⟩ := nth_split found
  have suffix : c.before answer <:+ c.receiver.q.trace := List.drop_suffix _ _
  have lawful : Lawful s True effect (c.before answer) := by
    have always := inv.base.sound.lawful
    rw [split] at always
    exact always.at
  have succeeded : Succeeded s psn (c.before answer) := by
    cases effect with
    | ack _ _ answered status =>
        obtain ⟨rfl, rfl⟩ : answered = psn ∧ status = .ok := by simpa [Effect.answer] using ok
        exact lawful
    | reack _ _ answered status =>
        obtain ⟨rfl, rfl⟩ : answered = psn ∧ status = .ok := by simpa [Effect.answer] using ok
        exact lawful trivial
    | _ => cases ok
  obtain ⟨n, before, young, psnEq, success⟩ := succeeded
  have consumed := consumedCount_suffix suffix
  rw [inv.base.sound.count] at consumed
  have reach := inv.reach
  have bounds := agrees.young entry member
  have number : entry.1 = n := by
    apply s.psn_inj (by omega) (by omega)
    rw [← (agrees.pending entry member).psn, same, ← psnEq, s.psn_mod]
  rw [number, outcome_suffix suffix before]
  exact success

theorem Agrees.accept (agrees : Agrees s c) (punctual : s.Punctual c .post)
    (step : s.accept c = some c') : Agrees s c' := by
  obtain ⟨k, inv⟩ := agrees.receiver
  have psnMod' : c.sender.sendPsn % psnMod = s.psn c.posted := by rw [agrees.sendPsn, s.psn_mod]
  have next : psnNext (s.psn c.posted) = s.psn (c.posted + 1) := s.psnNext_psn c.posted
  have older : ∀ entry ∈ c.sender.pendingSends, entry.1 < c.posted + 1 ∧ c.posted + 1 ≤ entry.1 + 2 ^ 23 := by
    intro entry member
    have bounds := agrees.young entry member
    have spared := punctual entry member
    omega
  simp only [Stream.accept] at step
  split at step <;> rename_i request
  · rename_i msg
    cases credit : takeCredit c.sender msg.op with
    | error error => simp [credit] at step
    | ok result =>
        obtain ⟨credited, taken⟩ := result
        obtain ⟨credits, rfl⟩ := takeCredit_eq credit
        simp only [credit] at step
        cases reserve : { c.sender with remoteRecvCredits := credits }.reserveSendq with
        | error error => simp [reserve] at step
        | ok counted =>
            obtain rfl := reserveSendq_eq reserve
            simp only [reserve] at step
            obtain rfl := Option.some.inj step
            have fresh : Truthful s c.receiver.q.trace
                (c.posted, { s.sendCtx c.sender c.posted msg (c.sender.sendPsn % psnMod) with pending := true }) := by
              refine ⟨psnMod', fun success => ?_⟩
              simp [SendCtx.Succeeded, Stream.sendCtx] at success
            refine ⟨⟨k, inv.more (by simp)⟩, ?_, ?_, ?_, agrees.completed, agrees.ready⟩
            · simp only [Qp.takePsn, Qp.queueSend, psnMod', next]
            · intro entry member
              rcases List.mem_append.mp member with old | added
              · exact older entry old
              · obtain rfl := List.mem_singleton.mp added
                simp
            · intro entry member
              rcases List.mem_append.mp member with old | added
              · exact agrees.pending entry old
              · obtain rfl := List.mem_singleton.mp added
                exact fresh
  · cases reserve : c.sender.reserveSendq with
    | error error => simp [reserve] at step
    | ok counted =>
        obtain rfl := reserveSendq_eq reserve
        simp only [reserve] at step
        obtain rfl := Option.some.inj step
        refine ⟨⟨k, inv.more (by simp)⟩, ?_, older, agrees.pending, agrees.completed, agrees.ready⟩
        simp only [Qp.takePsn, Qp.queueRead, psnMod', next]

theorem Agrees.step {action : LinkAction} (agrees : Agrees s c) (punctual : s.Punctual c action)
    (step : s.linkStep c action = some c') : Agrees s c' := by
  cases action with
  | post => exact agrees.accept punctual step
  | receive action =>
      simp only [Stream.linkStep] at step
      split at step
      · rename_i known
        obtain ⟨r, moved, rfl⟩ := Option.map_eq_some_iff.mp step
        obtain ⟨k, inv⟩ := agrees.receiver
        obtain ⟨k', _, inv'⟩ := inv.step known punctual.1 punctual.2 moved
        have grows : c.receiver.q.trace <:+ r.q.trace := grows_rxStep moved
        exact { agrees with
          receiver := ⟨k', inv'⟩
          pending := fun entry member => (agrees.pending entry member).mono grows
          completed := fun entry member => (agrees.completed entry member).mono grows }
      · cases step
  | ack answer now =>
      obtain ⟨⟨psn, status⟩, found, rfl⟩ := Option.map_eq_some_iff.mp step
      obtain ⟨effect, here, answered⟩ := Option.bind_eq_some_iff.mp found
      refine agrees.settle settles_handleSendAck fun entry member granted => ?_
      rw [granted.1] at answered
      exact agrees.granted here answered punctual entry member granted.2
  | reap clock =>
      obtain rfl := Option.some.inj step
      exact agrees.settle_plain settles_timeoutReapSends
  | retried n reason ret now =>
      obtain rfl := Option.some.inj step
      exact agrees.settle_plain settles_retried
  | txDone n status now =>
      obtain rfl := Option.some.inj step
      exact agrees.settle_plain settles_sendTxDone
  | readDone n =>
      obtain rfl := Option.some.inj step
      have same := unqueueRead_sends c.sender n
      exact { agrees with
        sendPsn := same.2.trans agrees.sendPsn
        young := same.1 ▸ agrees.young
        pending := same.1 ▸ agrees.pending }
  | markError =>
      simp only [Stream.linkStep] at step
      split at step
      · cases step
      · obtain rfl := Option.some.inj step
        have flushed : Settles (fun _ => False) { c.sender with state := .err } _ := settles_flushSends
        exact agrees.settle_plain ⟨flushed.pending, flushed.completed, flushed.ready, flushed.sendPsn⟩

/-! ## Agreement -/

structure Agreement (s : Stream) (c : Connection) : Prop where
  completions : ∀ entry ∈ c.completed, entry.2.msg.psn = s.psn entry.1 ∧
    (entry.2.completionStatus = none → outcome c.receiver.q.trace entry.1 = some .ok)
  answers : ∀ later destQp srcQp psn earlier,
    c.receiver.q.trace = later ++ .reack destQp srcQp psn .ok :: earlier → Succeeded s psn earlier

theorem success_agreement (s : Stream) (c : Connection) (reachable : s.link.ReachableVia s.Punctual c) :
    Agreement s c := by
  have agrees : Agrees s c := by
    refine reachable.invariant ?_ fun c action c' agrees punctual step => agrees.step punctual step
    rintro c ⟨posted, completed, pending, sendPsn, fresh⟩
    refine ⟨⟨0, fresh.inv⟩, by rw [sendPsn, posted], ?_, ?_, ?_, ?_⟩
    all_goals simp [completed, pending]
  obtain ⟨k, inv⟩ := agrees.receiver
  refine ⟨fun entry member => ?_, fun later destQp srcQp psn earlier eq => ?_⟩
  · have truthful := agrees.completed entry member
    exact ⟨truthful.psn, fun ok => truthful.success ⟨agrees.ready entry member, ok⟩⟩
  · have always := inv.base.sound.lawful
    rw [eq] at always
    exact always.at trivial

/-! ## A timeout that forgets its answer -/

def freshSender (s : Stream) : Qp :=
  { state := .rts, refs := 1, qpNum := s.srcQp, destQpKnown := true, destQpNum := s.destQp, retryCnt := 7
    rnrRetry := 7, maxSendWr := 16, sendPsn := s.psn 0 }

def freshConnection (s : Stream) : Connection :=
  { sender := freshSender s, posted := 0, completed := []
    receiver := { q := freshQp s false, clock := 0 } }

theorem freshConnection_init (s : Stream) : s.link.init (freshConnection s) :=
  ⟨rfl, rfl, rfl, rfl, freshQp_fresh s false⟩

def inTurn (c : Connection) : LinkAction → Bool
  | .post => c.sender.pendingSends.isEmpty
  | .receive (.deliver n _ _) => n = consumedCount c.receiver.q.trace
  | .ack _ _ => c.posted ≤ 2 ^ 23
  | _ => false

theorem punctual_of_inTurn {action : LinkAction} (turn : inTurn c action = true) : s.Punctual c action := by
  cases action with
  | post =>
      have none : c.sender.pendingSends = [] := by simpa [inTurn] using turn
      simp [Stream.Punctual, none]
  | receive action =>
      cases action with
      | deliver n i env =>
          have here : n = consumedCount c.receiver.q.trace := by simpa [inTurn] using turn
          refine ⟨⟨by omega, by omega⟩, fun msg _ _ old => ?_⟩
          omega
      | _ => cases turn
  | ack answer now =>
      have few : c.posted ≤ 2 ^ 23 := by simpa [inTurn] using turn
      simp only [Stream.Punctual]
      omega
  | _ => trivial

theorem success_agreement_oneWrite :
    ∃ c, writeThenRead.link.ReachableVia writeThenRead.Punctual c ∧
      (∃ entry ∈ c.completed, entry.2.completionStatus = none) ∧ Agreement writeThenRead c := by
  obtain ⟨c, reachable, check⟩ := System.exists_reachableVia writeThenRead.link (fun c a => inTurn c a = true)
    [.post, .receive (.deliver 0 0 (rxEnv writableRegion)), .ack 2 5]
    (fun c => c.completed.any fun entry => entry.2.completionStatus = none)
    (freshConnection_init writeThenRead) (by decide +kernel)
  have punctual : writeThenRead.link.ReachableVia writeThenRead.Punctual c :=
    reachable.mono fun c action turn => punctual_of_inTurn turn
  simp only [List.any_eq_true, decide_eq_true_eq] at check
  exact ⟨c, punctual, check, success_agreement _ c punctual⟩

theorem longPayload_bounded : longPayload.length ≤ dataMaxMsgSize := by
  simp [length_longPayload, dataMaxMsgSize]

def twoFragmentWrites : Stream :=
  { firstPsn := 5, destQp := 2, srcQp := 3
    request := fun _ => .data
      { op := .rdmaWrite, payload := longPayload, bounded := longPayload_bounded, remoteAddr := 64
        rkey := 7 } }

/-- The second fragment of a WRITE comes first and times out; the first fragment is then answered with
OK, and the sender completes the WRITE with success. -/
theorem timed_out_write_succeeds :
    ∃ c, twoFragmentWrites.link.Reachable c ∧ (∃ entry ∈ c.completed, entry.1 = 0 ∧
        entry.2.completionStatus = none) ∧ outcome c.receiver.q.trace 0 = some .error := by
  obtain ⟨c, reachable, check⟩ := System.exists_reachableVia twoFragmentWrites.link (fun _ _ => True)
    [.post, .receive (.deliver 0 1 { mrs := largeRegion, now := 1 }),
      .receive (.reap { mrs := largeRegion, now := 100 } 10),
      .receive (.deliver 0 0 { mrs := largeRegion, now := 100 }), .ack 2 100]
    (fun c => (c.completed.any fun entry => entry.1 = 0 && entry.2.completionStatus = none) &&
      outcome c.receiver.q.trace 0 = some .error)
    (freshConnection_init twoFragmentWrites) (by decide +kernel)
  simp only [Bool.and_eq_true, List.any_eq_true, decide_eq_true_eq] at check
  exact ⟨c, reachable, check.1, check.2⟩

end ThunderboltVerbs.Receive
