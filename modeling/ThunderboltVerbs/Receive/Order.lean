import ThunderboltVerbs.Receive.Steps
import ThunderboltVerbs.Lib.System

/-!
# Requests are consumed once, in order

The receiver of a conforming sender, under any loss, duplication and reordering: a step hands it any
frame of a request that is less than `2 ^ 23` PSNs away from the expected one.
-/

namespace ThunderboltVerbs.Receive
open Proto Verbs Lib

variable {s : Stream} {strict : Prop} {sent lo hi k clock n i : Nat} {q : RxQp} {env : RxEnv}

/-! ## Timeout and error -/

theorem Inv.failActiveSend (inv : Inv s strict sent k clock q) (status : WcStatus) :
    ∃ k', k ≤ k' ∧ Inv s strict sent k' clock (q.failActiveSend status) ∧
      (q.failActiveSend status).rxWrite = q.rxWrite := by
  simp only [RxQp.failActiveSend]
  split <;> rename_i isActive
  · exact ⟨k, le_refl _, inv, rfl⟩
  · rename_i active
    obtain ⟨msg, request, isSend, same, _⟩ := inv.active active isActive
    have noWrite := inv.noWrite request isSend
    have idle := finishSend_idle { active with status } noWrite
    have psn : ({ active with status } : RxMessage).psn = s.psn k := psn_of_sameSend same
    have finished := inv.base.finishSend request isSend (inv.alone (by simp [isActive])) psn
    have ahead := inv.ahead (by simp [RxQp.idle, isActive])
    refine ⟨k + 1, by omega, finished.inv idle (min_le_left _ _) ahead, ?_⟩
    simp only [RxQp.idle, Bool.and_eq_true, Option.isNone_iff_eq_none] at idle
    rw [idle.2, noWrite]

theorem Inv.failActiveWrite (inv : Inv s strict sent k clock q) (env : RxEnv) {status : WcStatus}
    (failed : status ≠ .success) :
    ∃ k', k ≤ k' ∧ Inv s strict sent k' clock (q.failActiveWrite env status) ∧
      (q.failActiveWrite env status).rxWrite = none := by
  simp only [RxQp.failActiveWrite]
  split <;> rename_i isActive
  · exact ⟨k, le_refl _, inv, isActive⟩
  · obtain ⟨msg, j, request, isWrite, same, _⟩ := inv.write _ isActive
    obtain ⟨k', above, below, base, idle⟩ := inv.base.finishWrite (inv.noMsg request isWrite)
      (fields_of_sameWrite isWrite same).1 fun _ _ _ success => absurd success failed
    have ahead := inv.ahead (by simp [RxQp.idle, isActive])
    refine ⟨k', above, base.inv idle (min_le_left _ _) (by omega), ?_⟩
    simp only [RxQp.idle, Bool.and_eq_true, Option.isNone_iff_eq_none] at idle
    exact idle.2

theorem Inv.flushRx (inv : Inv s strict sent k clock q) (env : RxEnv) :
    ∃ k', k ≤ k' ∧ Inv s strict sent k' clock (q.flushRx env) := by
  have flushed : WcStatus.wrFlushErr ≠ .success := by simp
  obtain ⟨k₁, first, sent, _⟩ := inv.failActiveSend .wrFlushErr
  obtain ⟨k₂, second, written, _⟩ := sent.failActiveWrite env flushed
  refine ⟨k₂, by omega, { written with ahead := written.ahead
                                       base := { written.base with entries := ?_, distinct := ?_, count := rfl }
                                       alone := ?_
                                       younger := ?_ }⟩
  all_goals simp [RxQp.flushRx]

theorem entryExpired_mono {early late now timeout : Nat} (positive : 0 < early) (le : early ≤ late)
    (sane : late < jiffyBound) (bounded : now < jiffyBound) (short : timeout < jiffyBound)
    (expired : entryExpired late now timeout = true) : entryExpired early now timeout = true := by
  simp only [entryExpired, timeAfterEq, jiffyBound, Bool.and_eq_true, decide_eq_true_eq, ne_eq] at *
  refine ⟨⟨expired.1.1, by omega⟩, ?_⟩
  have late' := expired.2
  omega

theorem Inv.reapMsg {msg : ReorderMsg} (inv : Inv s strict sent k clock q) (env : RxEnv) (member : msg ∈ q.rxReorder)
    (free : msg.psn = s.psn k → q.idle = true) :
    ∃ k', k ≤ k' ∧ Inv s strict sent k' clock (q.reapMsg env msg) ∧ (q.reapMsg env msg).rxWrite = q.rxWrite := by
  simp only [RxQp.reapMsg, RxQp.dropReorder, inv.base.expected]
  set answer := if msg.kind = .readReq then Effect.readStatus msg.srcQp q.qpNum msg.psn msg.totalLen .eTimedOut
    else .ack msg.srcQp q.qpNum msg.psn .error with answerDef
  have plain : answer.plain = true := by
    rw [answerDef]
    split <;> rfl
  have lawful : ∀ trace, Lawful s strict answer trace := by
    intro trace
    rw [answerDef]
    split <;> trivial
  split <;> rename_i expected
  · have idle := free expected
    have keeps : Keeps q (((q.reorderUnlink msg).skipPsn msg.psn .error).note answer) :=
      ((keeps_reorderUnlink _ _).trans (keeps_skipPsn _ _ _)).trans (keeps_note _ _)
    have skipped := (inv.base.unlink_expected member expected).skip (by omega) .error
      fun _ _ _ fine => absurd rfl fine
    rw [← expected] at skipped
    obtain ⟨k', above, below, drained, kept⟩ :=
      (skipped.note plain (lawful _)).drain env (keeps.idle.trans idle)
    have all := keeps.trans kept
    have ahead := (inv.base.located (le_refl _) (by simp [maxQpWr]) member expected).1
    exact ⟨k', by omega, drained.inv (all.idle.trans idle) (min_le_left _ _) (by omega), all.rxWrite⟩
  · exact ⟨k, le_refl _, (inv.unlink member).note plain (lawful _), rfl⟩

theorem Inv.reapLoop (turns : Nat) (inv : Inv s strict sent k clock q) (bounded : env.now < jiffyBound)
    {timeout : Nat} (short : timeout < jiffyBound)
    (live : ∀ write ∈ q.rxWrite, entryExpired write.startedJiffies env.now timeout = false) :
    ∃ k', k ≤ k' ∧ Inv s strict sent k' clock (RxQp.reapLoop env timeout turns q) := by
  induction turns generalizing q k with
  | zero => exact ⟨k, le_refl _, inv⟩
  | succ turns ih =>
      simp only [RxQp.reapLoop]
      split <;> rename_i found
      · exact ⟨k, le_refl _, inv⟩
      · rename_i msg
        have member := List.mem_of_find?_eq_some found
        have expired : entryExpired msg.firstJiffies env.now timeout = true := by
          simpa using List.find?_some found
        -- a message of the expected PSN is younger than the active WRITE, which has not expired
        have free : msg.psn = s.psn k → q.idle = true := by
          intro expected
          simp only [RxQp.idle, Bool.and_eq_true, Option.isNone_iff_eq_none]
          constructor
          · by_contra isActive
            exact inv.alone isActive msg member expected
          · by_contra isActive
            obtain ⟨write, eq⟩ := Option.ne_none_iff_exists'.mp isActive
            obtain ⟨n, _, _, buffered⟩ := inv.base.entries msg member
            have older := entryExpired_mono (inv.started write eq).1
              (inv.younger write eq msg member expected) buffered.sane bounded short expired
            rw [live write eq] at older
            cases older
        obtain ⟨k₁, first, reaped, same⟩ := inv.reapMsg env member free
        obtain ⟨k₂, second, final⟩ := ih reaped (same ▸ live)
        exact ⟨k₂, by omega, final⟩

theorem Inv.timeoutReapRx {timeout : Nat} (inv : Inv s strict sent k clock q)
    (bounded : env.now < jiffyBound) (short : timeout < jiffyBound) :
    ∃ k', k ≤ k' ∧ Inv s strict sent k' clock (q.timeoutReapRx env timeout) := by
  have failed : WcStatus.generalErr ≠ .success := by simp
  simp only [RxQp.timeoutReapRx]
  set reaped := if q.rxMsg.any fun msg => entryExpired msg.startedJiffies env.now timeout then
    q.failActiveSend .generalErr else q with reapedDef
  have first : ∃ k', k ≤ k' ∧ Inv s strict sent k' clock reaped := by
    rw [reapedDef]
    split
    · obtain ⟨k', above, inv', _⟩ := inv.failActiveSend .generalErr
      exact ⟨k', above, inv'⟩
    · exact ⟨k, le_refl _, inv⟩
  obtain ⟨k₁, above, inv₁⟩ := first
  split <;> rename_i old
  · obtain ⟨k₂, above', inv₂, none⟩ := inv₁.failActiveWrite env failed
    obtain ⟨k₃, above'', inv₃⟩ := inv₂.reapLoop _ bounded short (by simp [none])
    exact ⟨k₃, by omega, inv₃⟩
  · have live : ∀ write ∈ reaped.rxWrite, entryExpired write.startedJiffies env.now timeout = false := by
      intro write isActive
      simpa [Option.mem_def.mp isActive] using old
    obtain ⟨k₂, above', inv₂⟩ := inv₁.reapLoop _ bounded short live
    exact ⟨k₂, by omega, inv₂⟩

/-! ## The system -/

structure Receiver where
  q : RxQp
  clock : Nat

inductive RxAction
  | deliver (n i : Nat) (env : RxEnv)
  | post (wqes : List RecvWqe)
  | drain (env : RxEnv)
  | cq (cq : Cq)
  | reap (env : RxEnv) (timeout : Nat)
  | flush (env : RxEnv)

def RxEnv.timely (env : RxEnv) (clock : Nat) : Bool :=
  clock ≤ env.now && 0 < env.now && env.now < jiffyBound

/-- The receiver takes a frame, gets receive requests, drains for them (`tbv_post_recv`), has its
completion queue polled or filled by others, or runs its timeout or error work. -/
def Stream.rxStep (s : Stream) (r : Receiver) : RxAction → Option Receiver
  | .deliver n i env =>
      if env.timely r.clock then
        (s.frame n i).map fun frame => { q := r.q.handleFrame env frame, clock := env.now }
      else none
  | .post wqes => some { r with q := { r.q with recvq := r.q.recvq ++ wqes } }
  | .drain env => if env.timely r.clock then some { q := r.q.drain env, clock := env.now } else none
  | .cq cq => some { r with q := { r.q with cq := cq } }
  | .reap env timeout =>
      if env.timely r.clock ∧ timeout < jiffyBound then
        some { q := r.q.timeoutReapRx env timeout, clock := env.now }
      else none
  | .flush env => if env.timely r.clock then some { q := r.q.flushRx env, clock := env.now } else none

/-- A frame comes less than `2 ^ 23` PSNs before or after its turn. -/
def Conforming (r : Receiver) : RxAction → Prop
  | .deliver n _ _ => n < consumedCount r.q.trace + 2 ^ 23 ∧ consumedCount r.q.trace ≤ n + 2 ^ 23
  | _ => True

instance (r : Receiver) : ∀ action, Decidable (Conforming r action)
  | .deliver .. => inferInstanceAs (Decidable (_ ∧ _))
  | .post _ | .drain _ | .cq _ | .reap .. | .flush _ => inferInstanceAs (Decidable True)

/-- How many requests the action shows to have been sent. -/
def RxAction.reach : RxAction → Nat
  | .deliver n _ _ => n + 1
  | _ => 0

structure RxQp.Fresh (s : Stream) (q : RxQp) : Prop where
  rxExpectedPsn : q.rxExpectedPsn = s.psn 0
  rnr : q.rnr = none
  rxMsg : q.rxMsg = none
  rxWrite : q.rxWrite = none
  rxReorder : q.rxReorder = []
  rxReorderCount : q.rxReorderCount = 0
  rxReorderBytes : q.rxReorderBytes = 0
  ackHistory : q.ackHistory = fun _ => none
  trace : q.trace = []

def Stream.receiver (s : Stream) : System Receiver RxAction where
  init r := r.q.Fresh s
  step := s.rxStep

theorem RxEnv.Timely.of_timely (time : env.timely clock = true) : env.Timely clock := by
  simp only [RxEnv.timely, Bool.and_eq_true, decide_eq_true_eq] at time
  exact ⟨time.1.1, time.1.2, time.2⟩

theorem Inv.more {sent' : Nat} (inv : Inv s strict sent k clock q) (le : sent ≤ sent') :
    Inv s strict sent' k clock q :=
  { inv with
    base := inv.base.widen (by omega) (min_le_right _ _)
    reach := inv.reach.trans le
    ahead := fun busy => (inv.ahead busy).trans_le le }

theorem RxQp.Fresh.inv (fresh : q.Fresh s) : Inv s strict sent 0 clock q := by
  have idle : q.idle = true := by simp [RxQp.idle, fresh.rxMsg, fresh.rxWrite]
  have base : Base s strict 0 0 0 q := by
    refine ⟨⟨?_, ?_, ?_, ?_⟩, ?_, fresh.rxExpectedPsn, ?_, ?_, ?_, by omega, by omega, by omega⟩
    · simp [fresh.trace, consumptions]
    · simp [fresh.trace, completionPsns]
    · intro n bound
      simp [fresh.trace, consumedCount, consumptions] at bound
    · simp [fresh.trace]
    · intro n status known
      simp [fresh.trace, outcome, consumptions, nth] at known
    · simp [fresh.rxReorder]
    · simp [fresh.rxReorder]
    · simp [fresh.rxReorder, fresh.rxReorderCount]
  exact base.inv idle (Nat.zero_le _) (Nat.zero_le _)

/-- The step may answer a duplicate of a request that failed only while the history covers it. -/
def AnswerableStep (s : Stream) (strict : Prop) (r : Receiver) : RxAction → Prop
  | .deliver n _ _ => ∀ msg, s.request n = .data msg → Answerable strict (consumedCount r.q.trace) n r.q
  | _ => True

theorem answerable_free (s : Stream) (r : Receiver) (action : RxAction) : AnswerableStep s False r action := by
  cases action <;> simp [AnswerableStep, Answerable]

theorem Inv.step {r r' : Receiver} {action : RxAction} (inv : Inv s strict sent k r.clock r.q)
    (known : action.reach ≤ sent) (conforming : Conforming r action)
    (answerable : AnswerableStep s strict r action) (step : s.rxStep r action = some r') :
    ∃ k', k ≤ k' ∧ Inv s strict sent k' r'.clock r'.q := by
  cases action with
  | deliver n i env =>
      simp only [Stream.rxStep] at step
      split at step
      · rename_i time
        obtain ⟨frame, framed, rfl⟩ := Option.map_eq_some_iff.mp step
        simp only [Conforming, AnswerableStep, inv.base.sound.count] at conforming answerable
        exact inv.handleFrame framed known conforming.2 conforming.1 (.of_timely time) answerable
      · cases step
  | post wqes =>
      obtain rfl := Option.some.inj step
      exact ⟨k, le_refl _, { inv with base := { inv.base with } }⟩
  | drain env =>
      simp only [Stream.rxStep] at step
      split at step
      · obtain rfl := Option.some.inj step
        rename_i time
        exact (inv.later (RxEnv.Timely.of_timely time).later).drain
      · cases step
  | cq cq =>
      obtain rfl := Option.some.inj step
      exact ⟨k, le_refl _, { inv with base := { inv.base with } }⟩
  | reap env timeout =>
      simp only [Stream.rxStep] at step
      split at step
      · obtain rfl := Option.some.inj step
        rename_i guard
        have time := RxEnv.Timely.of_timely guard.1
        exact (inv.later time.later).timeoutReapRx time.bounded guard.2
      · cases step
  | flush env =>
      simp only [Stream.rxStep] at step
      split at step
      · obtain rfl := Option.some.inj step
        rename_i time
        exact (inv.later (RxEnv.Timely.of_timely time).later).flushRx env
      · cases step

theorem Inv.reachable {r : Receiver} (reachable : s.receiver.ReachableVia Conforming r) :
    ∃ sent k, Inv s False sent k r.clock r.q := by
  induction reachable with
  | init start => exact ⟨0, 0, start.inv⟩
  | @step _ _ action _ conforming step ih =>
      obtain ⟨sent, k, inv⟩ := ih
      have more := inv.more (le_max_left sent action.reach)
      obtain ⟨k', _, inv'⟩ := more.step (le_max_right _ _) conforming (answerable_free s _ _) step
      exact ⟨_, k', inv'⟩

/-! ## Duplicates -/

def Effect.isAnswer : Effect → Bool
  | .ack .. | .reack .. | .readStatus .. | .readRetry .. => true
  | _ => false

/-- Only the RNR mark and the trace differ, and the trace only by answers. -/
def OnlyAnswers (q q' : RxQp) : Prop :=
  ∃ rnr answers, q' = { q with rnr := rnr, trace := answers ++ q.trace } ∧
    ∀ effect ∈ answers, effect.isAnswer = true

theorem onlyAnswers_note {effect : Effect} (answer : effect.isAnswer = true) (srcQp psn : Nat) :
    OnlyAnswers q ((q.clearRnr srcQp psn).note effect) := by
  simp only [RxQp.clearRnr]
  split
  · exact ⟨none, [effect], rfl, by simpa using answer⟩
  · exact ⟨q.rnr, [effect], rfl, by simpa using answer⟩

theorem onlyAnswers_clearRnr (srcQp psn : Nat) : OnlyAnswers q (q.clearRnr srcQp psn) := by
  simp only [RxQp.clearRnr]
  split
  · exact ⟨none, [], rfl, by simp⟩
  · exact ⟨q.rnr, [], rfl, by simp⟩

theorem OnlyAnswers.refl (q : RxQp) : OnlyAnswers q q := ⟨q.rnr, [], rfl, by simp⟩

theorem Inv.duplicateFrame {frame : Frame} (inv : Inv s strict sent k clock q)
    (framed : s.frame n i = some frame) (old : n < k) (young : k ≤ n + 2 ^ 23) (env : RxEnv) :
    OnlyAnswers q (q.handleFrame env frame) := by
  have near : n < k + 2 ^ 23 := by omega
  simp only [Stream.frame] at framed
  split at framed <;> rename_i request
  · rename_i msg
    split at framed <;> rename_i bound
    · obtain rfl := Option.some.inj framed
      have opcode : (s.dataFrame n msg i).header.opcode = msg.op.opcode := rfl
      have send : msg.op.isWrite = false → OnlyAnswers q (q.handleSendFragment env (s.dataFrame n msg i)) := by
        intro isSend
        rcases handleSendFragment_cases inv request isSend young near bound env with ⟨same, _⟩ | ⟨_, step⟩
        · rw [same]
          exact .refl q
        · generalize q.handleSendFragment env (s.dataFrame n msg i) = q' at step
          cases step with
          | ignored => exact onlyAnswers_clearRnr _ _
          | duplicate => exact onlyAnswers_note rfl _ _
          | buffered current => omega
          | lost current | refused current | striped current | plain current => omega
      have write : msg.op.isWrite = true →
          OnlyAnswers q (q.handleRdmaWriteFragment env (s.dataFrame n msg i)) := by
        intro isWrite
        rcases handleRdmaWriteFragment_cases inv request isWrite young near bound env with
          ⟨_, eq⟩ | ⟨eq, _⟩ | ⟨_, step⟩
        · rw [eq]
          exact ⟨q.rnr, [_], rfl, by simp [Effect.isAnswer]⟩
        · rw [eq]
          exact .refl q
        · generalize q.handleRdmaWriteFragment env (s.dataFrame n msg i) = q' at step
          cases step with
          | ignored => exact onlyAnswers_clearRnr _ _
          | duplicate => exact onlyAnswers_note rfl _ _
          | buffered current => omega
          | lost current | refused current | recorded current => omega
      simp only [RxQp.handleFrame, opcode]
      cases op : msg.op with
      | send | sendImm => exact send (by simp [op, SendOp.isWrite])
      | rdmaWrite | rdmaWriteImm => exact write (by simp [op, SendOp.isWrite])
    · cases framed
  · split at framed
    · obtain rfl := Option.some.inj framed
      rename_i totalLen remoteAddr rkey _
      have delta : psnDelta (s.psn n) q.rxExpectedPsn = (n : Int) - k := by
        rw [inv.base.expected, s.psnDelta_psn young near]
      have duplicate := s.isDuplicate_psn inv.base.expected young near
      have psn : (s.readFrame n totalLen remoteAddr rkey).header.psn % psnMod = s.psn n := s.psn_mod n
      have flags : (s.readFrame n totalLen remoteAddr rkey).header.flags = flagLast := rfl
      have length : (s.readFrame n totalLen remoteAddr rkey).header.length = 0 := rfl
      have retried : q.handleFrame env (s.readFrame n totalLen remoteAddr rkey) =
          q.note (.readRetry (s.psn n)) := by
        change q.handleRdmaReadReq env (s.readFrame n totalLen remoteAddr rkey).header = _
        rw [RxQp.handleRdmaReadReq, if_neg (by simp [flags, length])]
        rw [if_pos (by rw [psn, delta]; omega)]
        simp [RxQp.bufferReadReq, psn, duplicate, old]
      rw [retried]
      exact ⟨q.rnr, [_], rfl, by simp [Effect.isAnswer]⟩
    · cases framed

/-! ## Exactly once, in order -/

/-- `trace` counts from 0: request `n` of the stream is the `n`-th to be consumed. -/
structure OrderedConsumption (s : Stream) (q : RxQp) : Prop where
  expected : q.rxExpectedPsn = s.psn (consumedCount q.trace)
  consumed : (consumptions q.trace).map Consumption.psn =
    (List.range (consumedCount q.trace)).reverse.map s.psn
  completions : (completionPsns q.trace).Sublist ((consumptions q.trace).map Consumption.psn)
  duplicates : ∀ n i frame env, n < consumedCount q.trace → consumedCount q.trace ≤ n + 2 ^ 23 →
    s.frame n i = some frame → OnlyAnswers q (q.handleFrame env frame)
  reads : ∀ later request earlier, q.trace = later ++ .dispatched request :: earlier →
    ReadConsumed s request.psn earlier ∧ WritesApplied s earlier

theorem consumed_once_in_order (s : Stream) (r : Receiver)
    (reachable : s.receiver.ReachableVia Conforming r) : OrderedConsumption s r.q := by
  obtain ⟨sent, k, inv⟩ := Inv.reachable reachable
  have count := inv.base.sound.count
  refine ⟨?_, ?_, inv.base.sound.completions, ?_, ?_⟩
  · rw [count]
    exact inv.base.expected
  · rw [count]
    exact inv.base.sound.consumed
  · intro n i frame env old young framed
    rw [count] at old young
    exact inv.duplicateFrame framed old young env
  · intro later request earlier eq
    have always := inv.base.sound.lawful
    rw [eq] at always
    exact always.at

/-! ## A WRITE that fails before a READ -/

def rxEnv (mrs : Nat → Option Mr) : RxEnv := { mrs, now := 1 }

def freshQp (s : Stream) (striping : Bool) : RxQp :=
  { qpNum := s.destQp, remoteWrite := true, striping, rxExpectedPsn := s.psn 0, cq := { cqe := 16 } }

theorem freshQp_fresh (s : Stream) (striping : Bool) : (freshQp s striping).Fresh s :=
  ⟨rfl, rfl, rfl, rfl, rfl, rfl, rfl, rfl, rfl⟩

def oneByteWrite : Message :=
  { op := .rdmaWrite, payload := [1], bounded := by decide, remoteAddr := 64, rkey := 7 }

def writeThenRead : Stream :=
  { firstPsn := 5, destQp := 2, srcQp := 3
    request := fun n => if n = 0 then .data oneByteWrite else .read 8 64 7 }

def writableRegion : Nat → Option Mr
  | 7 => some { start := 64, length := 64, virtAddr := 64, remoteWrite := true, remoteRead := true }
  | _ => none

theorem consumed_once_in_order_writeThenRead :
    ∃ r, writeThenRead.receiver.ReachableVia Conforming r ∧ consumedCount r.q.trace = 2 ∧
      OrderedConsumption writeThenRead r.q := by
  obtain ⟨r, reachable, count⟩ := System.exists_reachableVia writeThenRead.receiver Conforming
    [.deliver 1 0 (rxEnv writableRegion), .deliver 0 0 (rxEnv writableRegion)]
    (fun r => consumedCount r.q.trace = 2) (s := { q := freshQp writeThenRead false, clock := 0 })
    (freshQp_fresh _ _) (by decide +kernel)
  exact ⟨r, reachable, by simpa using count, consumed_once_in_order _ r reachable⟩

/-- The key of the WRITE is not registered; the READ behind it is dispatched all the same. -/
theorem read_after_failed_write :
    ∃ r, writeThenRead.receiver.ReachableVia Conforming r ∧ ∃ later request earlier,
      r.q.trace = later ++ .dispatched request :: earlier ∧ request.psn = writeThenRead.psn 1 ∧
        ¬Applied oneByteWrite earlier := by
  obtain ⟨r, reachable, eq⟩ := System.exists_reachableVia writeThenRead.receiver Conforming
    [.deliver 0 0 (rxEnv fun _ => none), .deliver 1 0 (rxEnv fun _ => none)]
    (fun r => r.q.trace = [.dispatched (readRequestHeader 2 3 6 8 64 7), .consumed 6 .ok false,
      .ack 3 2 5 .error, .consumed 5 .error true])
    (s := { q := freshQp writeThenRead false, clock := 0 }) (freshQp_fresh _ _) (by decide +kernel)
  refine ⟨r, reachable, [], _, _, of_decide_eq_true eq, by decide, ?_⟩
  intro applied
  obtain ⟨addr, data, wrote, _⟩ := applied 0 (by decide)
  simp at wrote

end ThunderboltVerbs.Receive
