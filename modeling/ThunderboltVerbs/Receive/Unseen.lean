import ThunderboltVerbs.Receive.Represented

/-!
# What the drain does not see

The drain reads neither the trace nor the RNR mark, nor whether WRITEs are allowed and SENDs striped, nor the
time: queue pairs that differ in nothing else deliver the same messages.
-/

namespace ThunderboltVerbs.Receive
open Proto Verbs Lib

structure Cloak where
  remoteWrite : Bool
  striping : Bool
  rnr : Option RnrMark
  past : List Effect

def RxEnv.timed (env : RxEnv) (now : Nat) : RxEnv := { env with now }

namespace RxQp

def cloaked (cloak : Cloak) (q : RxQp) : RxQp :=
  { q with
    remoteWrite := cloak.remoteWrite
    striping := cloak.striping
    rnr := cloak.rnr
    trace := q.trace ++ cloak.past }

/-- The queue pair without what the drain does not see. -/
def bare (q : RxQp) : RxQp := { q with remoteWrite := false, striping := false, rnr := none, trace := [] }

def cloak (q : RxQp) : Cloak :=
  { remoteWrite := q.remoteWrite, striping := q.striping, rnr := q.rnr, past := q.trace }

theorem bare_cloaked (q : RxQp) : q.bare.cloaked q.cloak = q := rfl

variable (cloak : Cloak) (q : RxQp) (env : RxEnv) (now : Nat)

section Fields

@[simp] theorem timed_mrs : (env.timed now).mrs = env.mrs := rfl
@[simp] theorem timed_readWork : (env.timed now).readWork = env.readWork := rfl
@[simp] theorem cloaked_qpNum : (q.cloaked cloak).qpNum = q.qpNum := rfl
@[simp] theorem cloaked_rxExpectedPsn : (q.cloaked cloak).rxExpectedPsn = q.rxExpectedPsn := rfl
@[simp] theorem cloaked_rxReorder : (q.cloaked cloak).rxReorder = q.rxReorder := rfl
@[simp] theorem cloaked_idle : (q.cloaked cloak).idle = q.idle := rfl
@[simp] theorem cloaked_isDuplicate (psn : Nat) : (q.cloaked cloak).isDuplicate psn = q.isDuplicate psn := rfl
@[simp] theorem cloaked_reorderFind (psn : Nat) : (q.cloaked cloak).reorderFind psn = q.reorderFind psn := rfl

@[simp] theorem cloaked_note (effect : Effect) :
    (q.cloaked cloak).note effect = (q.note effect).cloaked cloak := rfl
@[simp] theorem cloaked_reackDuplicate (destQp srcQp psn : Nat) :
    (q.cloaked cloak).reackDuplicate destQp srcQp psn = (q.reackDuplicate destQp srcQp psn).cloaked cloak := rfl
@[simp] theorem cloaked_skipPsn (psn : Nat) (status : SendAckStatus) :
    (q.cloaked cloak).skipPsn psn status = (q.skipPsn psn status).cloaked cloak := rfl
@[simp] theorem cloaked_reorderUnlink (msg : ReorderMsg) :
    (q.cloaked cloak).reorderUnlink msg = (q.reorderUnlink msg).cloaked cloak := rfl

end Fields

variable {q} in
theorem popRecv_map {f : RxQp → RxQp} (recvq : (f q).recvq = q.recvq) (closing : (f q).closing = q.closing)
    (frame : ∀ rest, ({ f q with recvq := rest } : RxQp) = f { q with recvq := rest }) :
    (f q).popRecv = q.popRecv.map fun popped => (popped.1, f popped.2) := by
  rw [popRecv, popRecv, recvq]
  cases q.recvq with
  | nil => rfl
  | cons wqe rest =>
      dsimp only
      by_cases shut : q.closing = true
      · rw [if_pos (closing.trans shut), if_pos shut]
        rfl
      · rw [if_neg (fun other => shut (closing.symm.trans other)), if_neg shut]
        exact congrArg (fun left => some (wqe, left)) (frame rest)

theorem cloaked_popRecv :
    (q.cloaked cloak).popRecv = q.popRecv.map fun popped => (popped.1, popped.2.cloaked cloak) :=
  popRecv_map rfl rfl fun _ => rfl

theorem cloaked_cqPushOption (psn : Nat) (wc : Option Wc) :
    (q.cloaked cloak).cqPushOption psn wc =
      ((q.cqPushOption psn wc).1.cloaked cloak, (q.cqPushOption psn wc).2) := by
  cases wc with
  | none => rfl
  | some wc =>
      simp only [cqPushOption, cqPush]
      change (if q.cq.overflowed = true ∨ q.cq.count = q.cq.cqe then _ else _) = _
      split <;> rfl

theorem cloaked_conclude (psn srcQp : Nat) (status : WcStatus) (wc : Option Wc) :
    (q.cloaked cloak).conclude psn srcQp status wc = (q.conclude psn srcQp status wc).cloaked cloak := by
  simp only [conclude, cloaked_cqPushOption]
  rfl

theorem cloaked_copyToWqe (wqe : RecvWqe) (offset : Nat) (payload : List UInt8) (delivered : Nat) :
    (q.cloaked cloak).copyToWqe (env.timed now) wqe offset payload delivered =
      ((q.copyToWqe env wqe offset payload delivered).1.cloaked cloak,
        (q.copyToWqe env wqe offset payload delivered).2) := by
  simp only [copyToWqe, RxEnv.timed]
  split
  · rfl
  split
  · rfl
  split <;> rfl

theorem cloaked_copyToRemote (rkey remoteAddr offset : Nat) (payload : List UInt8) :
    (q.cloaked cloak).copyToRemote (env.timed now) rkey remoteAddr offset payload =
      (q.copyToRemote env rkey remoteAddr offset payload).map (cloaked cloak) := by
  simp only [copyToRemote, RxEnv.timed]
  split
  · rfl
  split
  · rfl
  split <;> rfl

theorem cloaked_copyFrags (wqe : RecvWqe) (frags : List ReorderFrag) (delivered : Nat) :
    copyFrags (env.timed now) wqe frags (q.cloaked cloak) delivered =
      ((copyFrags env wqe frags q delivered).1.cloaked cloak, (copyFrags env wqe frags q delivered).2) := by
  induction frags generalizing q delivered with
  | nil => rfl
  | cons frag rest ih =>
      simp only [copyFrags, cloaked_copyToWqe]
      obtain ⟨q', result⟩ := q.copyToWqe env wqe frag.offset frag.data delivered
      cases result with
      | none => rfl
      | some delivered => exact ih q' delivered

theorem cloaked_copyWriteFrags (rkey remoteAddr : Nat) (frags : List ReorderFrag) :
    copyWriteFrags (env.timed now) rkey remoteAddr frags (q.cloaked cloak) =
      ((copyWriteFrags env rkey remoteAddr frags q).1.cloaked cloak,
        (copyWriteFrags env rkey remoteAddr frags q).2) := by
  induction frags generalizing q with
  | nil => rfl
  | cons frag rest ih =>
      simp only [copyWriteFrags, cloaked_copyToRemote]
      cases q.copyToRemote env rkey remoteAddr frag.offset frag.data with
      | none => rfl
      | some q' => exact ih q'

theorem cloaked_deliverSend (msg : ReorderMsg) :
    (q.cloaked cloak).deliverSend (env.timed now) msg =
      ((q.deliverSend env msg).1.cloaked cloak, (q.deliverSend env msg).2) := by
  simp only [deliverSend, cloaked_popRecv]
  cases q.popRecv with
  | none => rfl
  | some popped =>
      simp only [Option.map_some, cloaked_reorderUnlink, cloaked_copyFrags, cloaked_conclude]

theorem cloaked_deliverWrite (msg : ReorderMsg) :
    (q.cloaked cloak).deliverWrite (env.timed now) msg =
      ((q.deliverWrite env msg).1.cloaked cloak, (q.deliverWrite env msg).2) := by
  have popped : (if msg.withImm then (q.cloaked cloak).popRecv else some ({}, q.cloaked cloak)) =
      (if msg.withImm then q.popRecv else some ({}, q)).map fun popped => (popped.1, popped.2.cloaked cloak) := by
    rw [apply_ite (Option.map _), cloaked_popRecv]
    rfl
  simp only [deliverWrite, popped]
  cases (if msg.withImm then q.popRecv else some ({}, q)) with
  | none => rfl
  | some popped =>
      simp only [Option.map_some, cloaked_reorderUnlink, cloaked_copyWriteFrags, timed_mrs]
      split <;> exact Prod.ext (cloaked_conclude cloak _ _ _ _ _) rfl

theorem cloaked_deliver (msg : ReorderMsg) :
    (q.cloaked cloak).deliver (env.timed now) msg =
      ((q.deliver env msg).1.cloaked cloak, (q.deliver env msg).2) := by
  simp only [deliver]
  split
  · exact cloaked_deliverWrite cloak q env now msg
  · simp only [deliverRead, queueReadWork, cloaked_reorderUnlink, cloaked_skipPsn, cloaked_qpNum, timed_readWork,
      apply_ite (cloaked cloak)]
    rfl
  · exact cloaked_deliverSend cloak q env now msg

theorem cloaked_pruneStale : (q.cloaked cloak).pruneStale = q.pruneStale.cloaked cloak := by
  have each : ∀ (q : RxQp) (msg : ReorderMsg), (q.cloaked cloak).pruneMsg msg = (q.pruneMsg msg).cloaked cloak := by
    intro q msg
    simp only [pruneMsg]
    by_cases fresh : (!q.isDuplicate msg.psn) = true
    · have fresh' : (!(q.cloaked cloak).isDuplicate msg.psn) = true := fresh
      rw [if_pos fresh, if_pos fresh']
    · have stale : ¬(!(q.cloaked cloak).isDuplicate msg.psn) = true := fresh
      rw [if_neg fresh, if_neg stale]
      split <;> rfl
  simp only [pruneStale, cloaked_rxReorder]
  generalize q.rxReorder = msgs
  induction msgs generalizing q with
  | nil => rfl
  | cons msg msgs ih => rw [List.foldl_cons, each, ih, List.foldl_cons]

theorem cloaked_drainLoop (turns : Nat) :
    drainLoop (env.timed now) turns (q.cloaked cloak) = (drainLoop env turns q).cloaked cloak := by
  induction turns generalizing q with
  | zero => rfl
  | succ turns ih =>
      simp only [drainLoop, cloaked_idle, cloaked_pruneStale, cloaked_reorderFind, cloaked_rxExpectedPsn]
      split
      · rfl
      split
      · rfl
      rename_i msg _
      split
      · rfl
      rw [cloaked_deliver]
      obtain ⟨q', goes⟩ := q.pruneStale.deliver env msg
      cases goes with
      | false => rfl
      | true => exact ih q'

theorem cloaked_drain : (q.cloaked cloak).drain (env.timed now) = (q.drain env).cloaked cloak :=
  cloaked_drainLoop cloak q env now _

theorem drain_bare : q.drain (env.timed now) = (q.bare.drain env).cloaked q.cloak :=
  cloaked_drain q.cloak q.bare env now

end RxQp

end ThunderboltVerbs.Receive
