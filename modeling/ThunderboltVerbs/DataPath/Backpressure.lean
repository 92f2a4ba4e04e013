import ThunderboltVerbs.DataPath.Bookkeeping

/-!
# A full ring

`tb_ring_tx` may refuse a frame for want of memory. The scheduler then puts the packet back where it
took it from, unless nobody would hear of its loss: a packet without callback and owner looks like one
that was cancelled.
-/

namespace ThunderboltVerbs.DataPath
open Proto Lib

def TxPacket.watched (packet : TxPacket) : Bool :=
  packet.control || packet.done.isSome || packet.ownerCtx.isSome

namespace TxThreads

/-- The scheduler takes a packet, the ring refuses it, and `tbv_path_schedule_tx` returns. -/
def refusedRound (s : TxThreads) (limit : Nat) : Option TxThreads := do
  let refused ← (s.take limit).post (some .eNoMem)
  if refused.dropping.isNone then refused.aborted
  else do
    let uncounted ← refused.drop
    let dropped ← uncounted.drop
    dropped.released

/-- The packet is back at the head of its queue, and nothing else has changed. -/
structure Restored (s t : TxThreads) : Prop where
  path : t.path = { s.path with scheduler := .idle }
  free : t.frames.free.Perm s.frames.free
  posted : t.frames.posted = s.frames.posted

variable {s : TxThreads} {packet : TxPacket} {fromControlQueue : Bool} {limit : Nat}

def handed (s : TxThreads) (packet : TxPacket) : TxPacket :=
  (s.path.countRawStream { packet with startCreditGroupFrames := 0 }).2

theorem handed_eq (s : TxThreads) (packet : TxPacket) :
    ∃ counted, s.handed packet = { packet with startCreditGroupFrames := 0, rawStreamCounted := counted } := by
  unfold handed Path.countRawStream
  extract_lets raw
  split
  · exact ⟨true, rfl⟩
  · exact ⟨packet.rawStreamCounted, rfl⟩

theorem take_eq (selected : s.path.selectTx = some (packet, fromControlQueue))
    (allowed : (s.path.ringAllows limit packet fromControlQueue && s.path.creditAllows packet) = true) :
    s.take limit =
      { s with
        path := s.path.takeTx packet fromControlQueue
        frames := s.frames.stage (Path.needsStaging packet fromControlQueue) } := by
  have staging : Path.needsStaging (s.handed packet) fromControlQueue =
      Path.needsStaging packet fromControlQueue := by
    obtain ⟨counted, eq⟩ := s.handed_eq packet
    simp [eq, Path.needsStaging]
  simp only [take, Path.scheduleTake, selected, allowed, if_true]
  rw [← staging]
  rfl

theorem packet_eta {start : Nat} {control counted : Bool} (group : packet.startCreditGroupFrames = start)
    (kind : packet.control = control) (raw : packet.rawStreamCounted = counted) :
    { packet with startCreditGroupFrames := start, control := control, rawStreamCounted := counted } = packet := by
  subst group kind raw
  rfl

theorem credit_back (inv : s.Inv) (allowed : s.path.creditAllows packet = true) :
    let charged := s.path.chargesCredit packet
    let left := if charged then s.path.txRemoteDataCredits - 1 else s.path.txRemoteDataCredits
    (if charged ∧ left < s.path.txRemoteDataCreditMax then left + 1 else left) = s.path.txRemoteDataCredits := by
  have bounded := inv.credits
  cases charges : s.path.chargesCredit packet with
  | false => simp
  | true =>
      simp only [Path.creditAllows, charges, Bool.not_true, Bool.false_or, decide_eq_true_eq] at allowed
      simp only [if_true, true_and]
      split <;> omega

theorem requeue_take (inv : s.Inv) (selected : s.path.selectTx = some (packet, fromControlQueue))
    (ring : s.path.ringAllows limit packet fromControlQueue = true) (credit : s.path.creditAllows packet = true) :
    (((s.path.takeTx packet fromControlQueue).rollBackPost (s.handed packet) fromControlQueue
        (s.path.chargesCredit packet) s.path.txRawStream).requeueTx (s.handed packet)
        packet.startCreditGroupFrames) = { s.path with scheduler := .idle } := by
  obtain ⟨counted, eq⟩ := s.handed_eq packet
  obtain ⟨source, staging⟩ := inv.selected selected
  have credits := credit_back inv credit
  have free : (if !packet.zcopy then (if !packet.zcopy then s.path.txFree - 1 else s.path.txFree) + 1
      else if !packet.zcopy then s.path.txFree - 1 else s.path.txFree) = s.path.txFree := by
    cases copied : packet.zcopy with
    | true => rfl
    | false =>
        simp only [Path.ringAllows, staging, copied, Bool.not_false, Bool.not_true, Bool.false_or, Bool.and_eq_true,
          decide_eq_true_eq] at ring
        simp
        omega
  have staged : Path.needsStaging (s.handed packet) fromControlQueue = !packet.zcopy := by
    rw [← staging, eq]
    rfl
  simp only at credits
  rcases LinkEnd.selectTx_head selected with ⟨rfl, rest, queue⟩ | ⟨rfl, rest, queue⟩
  · obtain ⟨-, -, uncounted, ungrouped⟩ := inv.control packet (by simp [queue])
    have queued := inv.controlQueued
    rw [queue, List.length_cons] at queued
    have same : ({ packet with startCreditGroupFrames := 0, control := true, rawStreamCounted := false } : TxPacket) =
        packet := packet_eta ungrouped source uncounted
    simp only [Path.requeueTx, Path.rollBackPost, Path.takeTx, staging, staged, credits, free]
    simp [eq, source, queue, queued, same]
  · obtain ⟨-, uncounted⟩ := inv.data packet (by simp [queue])
    have queued := inv.dataQueued
    rw [queue, List.length_cons] at queued
    have same : ({ packet with control := false, rawStreamCounted := false } : TxPacket) = packet :=
      packet_eta rfl source uncounted
    simp only [Path.requeueTx, Path.rollBackPost, Path.takeTx, staging, staged, credits, free]
    simp [eq, source, queue, queued, same]

theorem selectTx_enabled (selected : s.path.selectTx = some (packet, fromControlQueue)) :
    s.path.state = .tunnelEnabled := by
  by_contra down
  simp [Path.selectTx, down] at selected

theorem requeues_handed (inv : s.Inv) (selected : s.path.selectTx = some (packet, fromControlQueue)) :
    (s.path.takeTx packet fromControlQueue).requeues (s.handed packet) .eNoMem = packet.watched := by
  obtain ⟨counted, eq⟩ := s.handed_eq packet
  have enabled : (s.path.takeTx packet fromControlQueue).state = .tunnelEnabled := selectTx_enabled selected
  have copied : (packet.control && !packet.zcopy) = packet.control := by
    cases control : packet.control with
    | false => rfl
    | true =>
        obtain ⟨source, staging⟩ := inv.selected selected
        rw [← source, control] at staging
        simpa [Path.needsStaging] using staging
  simp [Path.requeues, enabled, eq, TxPacket.watched, copied]

theorem free_perm (posting : s.frames.posting = none) (staging : Bool) :
    (s.frames.stage staging).takeBack.free.Perm s.frames.free := by
  cases staging with
  | false => simp [StagingFrames.stage, StagingFrames.takeBack, posting]
  | true =>
      cases free : s.frames.free with
      | nil => simp [StagingFrames.stage, StagingFrames.takeBack, free]
      | cons first rest =>
          simp only [StagingFrames.stage, StagingFrames.takeBack, free, if_true, List.tail_cons, List.head?_cons,
            Option.toList_some]
          exact List.perm_append_singleton first rest

section Refused

variable (inv : s.Inv) (looping : s.path.scheduler = .looping)
  (selected : s.path.selectTx = some (packet, fromControlQueue))
  (allowed : (s.path.ringAllows limit packet fromControlQueue && s.path.creditAllows packet) = true)

include inv looping selected allowed

theorem post_refused :
    (s.take limit).post (some .eNoMem) = some ((s.take limit).refused (s.handed packet) fromControlQueue
      (s.path.chargesCredit packet) s.path.txRawStream packet.startCreditGroupFrames .eNoMem) ∧
    (s.take limit).dropping = none := by
  rw [take_eq selected allowed]
  refine ⟨rfl, ?_⟩
  by_contra dropping
  have releasing := inv.dropping dropping
  simp [looping] at releasing

theorem refusedRound_watched (watched : packet.watched = true) :
    ∃ t, s.refusedRound limit = some t ∧ Restored s t := by
  obtain ⟨posted, dropping⟩ := post_refused inv looping selected allowed
  have requeues := (requeues_handed inv selected).trans watched
  obtain ⟨ring, credit⟩ := Bool.and_eq_true_iff.mp allowed
  have restored := requeue_take inv selected ring credit
  have posting := inv.notPosting (by rw [looping]; rfl)
  simp only [refusedRound, posted, Option.bind_eq_bind, Option.bind_some]
  rw [take_eq selected allowed] at dropping ⊢
  simp only [refused, requeues, if_true, Path.postFailed, restored, aborted] at dropping ⊢
  simp only [dropping, Option.isNone_none, if_true, Nat.add_one_ne_zero, if_false]
  refine ⟨_, rfl, ?_, free_perm posting _, ?_⟩
  · simp [countDown, Path.takeTx]
  · cases Path.needsStaging packet fromControlQueue <;> rfl

theorem refusedRound_unwatched (unwatched : packet.watched = false) :
    ∃ t, s.refusedRound limit = some t ∧ t.path.txDataQueued + 1 = s.path.txDataQueued := by
  obtain ⟨posted, dropping⟩ := post_refused inv looping selected allowed
  have requeues := (requeues_handed inv selected).trans unwatched
  have data : fromControlQueue = false := by
    simp only [TxPacket.watched, Bool.or_eq_false_iff] at unwatched
    rw [← (inv.selected selected).1, unwatched.1.1]
  subst data
  have queued := (inv.takenQueues selected 0).1
  have before := inv.dataQueued
  obtain ⟨rest, queue⟩ : ∃ rest, s.path.txDataQueue = packet :: rest := by
    rcases LinkEnd.selectTx_head selected with ⟨control, -⟩ | ⟨-, head⟩
    · cases control
    · exact head
  simp only [refusedRound, posted, Option.bind_eq_bind, Option.bind_some]
  rw [take_eq selected allowed]
  simp only [refused, requeues, Path.postFailed, Path.dropTx, TxThreads.drop, countDown, released,
    Bool.false_eq_true, if_false, Option.isNone_some, Option.bind_some, and_self, if_true]
  refine ⟨_, rfl, ?_⟩
  simp only [Path.takeTx, queue, List.tail_cons, Bool.false_eq_true, if_false, List.length_cons] at queued before
  simp only [Path.rollBackPost, Path.takeTx, Bool.false_eq_true, if_false]
  omega

end Refused

/-- When the ring refuses a frame for want of memory, the packet and everything that was counted for it are
restored if and only if it is a control packet or has a callback or an owner. -/
theorem backpressure_restores (cfg : PathConfig) (limit : Nat) (s : TxThreads)
    (reachable : (txSystem cfg limit).Reachable s) (looping : s.path.scheduler = .looping) (packet : TxPacket)
    (fromControlQueue : Bool) (selected : s.path.selectTx = some (packet, fromControlQueue))
    (allowed : (s.path.ringAllows limit packet fromControlQueue && s.path.creditAllows packet) = true) :
    (∃ t, s.refusedRound limit = some t ∧ Restored s t) ↔ packet.watched = true := by
  have inv := inv_reachable reachable
  constructor
  · rintro ⟨t, round, restored⟩
    cases watched : packet.watched with
    | true => rfl
    | false =>
        obtain ⟨t', round', lost⟩ := refusedRound_unwatched inv looping selected allowed watched
        obtain rfl : t = t' := Option.some.inj (round.symm.trans round')
        rw [restored.path] at lost
        simp at lost
  · exact refusedRound_watched inv looping selected allowed

end TxThreads

def ownedPacket : TxPacket := { frame := { len := 64, header := none }, done := some 7, ownerCtx := some 7 }

def readResponsePacket : TxPacket :=
  { frame := { len := 64, header := some (readResponseHeader 7 5 0 16 0 16 true) } }

def lookingAt (packet : TxPacket) : List TxAction := [.enableTunnel, .enqueue (.data packet), .schedule]

def TxThreads.looksAt (packet : TxPacket) (s : TxThreads) : Bool :=
  s.path.scheduler = .looping ∧ s.path.selectTx = some ({ packet with startCreditGroupFrames := 1 }, false) ∧
    (s.path.ringAllows 32 { packet with startCreditGroupFrames := 1 } false &&
      s.path.creditAllows { packet with startCreditGroupFrames := 1 }) = true

theorem backpressure_restores_ownedPacket :
    ∃ s t, (txSystem (nativePaths .left) 32).Reachable s ∧ s.refusedRound 32 = some t ∧ s.Restored t := by
  obtain ⟨s, reachable, looks⟩ := System.exists_reachableVia (txSystem (nativePaths .left) 32) (fun _ _ => True)
    (lookingAt ownedPacket) (TxThreads.looksAt ownedPacket) rfl (by decide +kernel)
  simp only [TxThreads.looksAt, decide_eq_true_eq] at looks
  obtain ⟨looping, selected, allowed⟩ := looks
  obtain ⟨t, round, restored⟩ := (TxThreads.backpressure_restores (nativePaths .left) 32 s reachable looping _ _
    selected allowed).mpr rfl
  exact ⟨s, t, reachable, round, restored⟩

/-- A READ response is lost when the ring is full. -/
theorem read_response_lost :
    ∃ s, (txSystem (nativePaths .left) 32).Reachable s ∧
      (∃ packet, s.path.txDataQueue = [packet] ∧ packet.frame = readResponsePacket.frame) ∧
      ∃ t, s.refusedRound 32 = some t ∧ t.path.txDataQueue = [] := by
  obtain ⟨s, reachable, lost⟩ := System.exists_reachableVia (txSystem (nativePaths .left) 32) (fun _ _ => True)
    (lookingAt readResponsePacket)
    (fun s => s.path.txDataQueue = [{ readResponsePacket with startCreditGroupFrames := 1 }] ∧
      (s.refusedRound 32).any (fun t => t.path.txDataQueue = []) = true) rfl (by decide +kernel)
  simp only [decide_eq_true_eq, Option.any_eq_true] at lost
  obtain ⟨queue, t, round, empty⟩ := lost
  exact ⟨s, reachable, ⟨_, queue, rfl⟩, t, round, empty⟩

end ThunderboltVerbs.DataPath
