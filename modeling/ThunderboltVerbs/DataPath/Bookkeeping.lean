import ThunderboltVerbs.DataPath.Threads
import ThunderboltVerbs.DataPath.Conservation

/-!
# Bookkeeping of the transmit queues

The counters agree with the queues at every step. Every staging frame has one place, every packet that
`tx_inflight` counts has one, and so has every callback that has not been called.
-/

namespace ThunderboltVerbs.DataPath
open Proto Lib

def TxPacket.carries (ctx : Nat) (packet : TxPacket) : Nat := packet.done.toList.count ctx

def StagingFrames.places (frames : StagingFrames) (frame : Nat) : Nat :=
  frames.free.count frame + (frames.posting :: frames.posted).count (some frame)

namespace StagingFrames

theorem places_stage {frames : StagingFrames} (posting : frames.posting = none) (staging : Bool) (frame : Nat) :
    (frames.stage staging).places frame = frames.places frame := by
  cases staging with
  | false => rfl
  | true =>
      cases free : frames.free with
      | nil => simp [stage, places, free, posting]
      | cons first rest =>
          simp only [stage, places, free, posting, if_true, List.tail_cons, List.head?_cons, List.count_cons]
          simp
          omega

theorem places_hand (frames : StagingFrames) (frame : Nat) : frames.hand.places frame = frames.places frame := by
  simp only [places, hand, List.count_cons, List.count_append, List.count_nil]
  simp

theorem places_takeBack (frames : StagingFrames) (frame : Nat) :
    frames.takeBack.places frame = frames.places frame := by
  simp only [places, takeBack, List.count_append, List.count_cons]
  cases frames.posting with
  | none => simp
  | some held =>
      simp [List.count_cons]
      omega

theorem places_complete {frames : StagingFrames} {i : Nat} {slot : Option Nat} (found : frames.posted[i]? = some slot)
    (frame : Nat) : (frames.complete i).places frame = frames.places frame := by
  obtain ⟨bound, rfl⟩ := List.getElem?_eq_some_iff.mp found
  have moved := (List.getElem_cons_eraseIdx_perm bound).count_eq (some frame)
  rw [List.count_cons] at moved
  simp only [places, complete, found, Option.join_some, List.count_append, List.count_cons, ← moved]
  cases frames.posted[i] with
  | none => simp
  | some held =>
      simp [List.count_cons]
      omega

end StagingFrames

@[simp] theorem Scheduler.packet?_idle : Scheduler.idle.packet? = none := rfl
@[simp] theorem Scheduler.packet?_looping : Scheduler.looping.packet? = none := rfl
@[simp] theorem Scheduler.packet?_releasing : Scheduler.releasing.packet? = none := rfl
@[simp] theorem Scheduler.packet?_posting (packet : TxPacket) (fromControlQueue charged : Bool) (oldRaw : RawStream)
    (oldStart : Nat) : (Scheduler.posting packet fromControlQueue charged oldRaw oldStart).packet? = some packet := rfl

namespace TxThreads

def inflight (s : TxThreads) : Nat :=
  s.path.txPosted.length + s.path.scheduler.packet?.toList.length + s.completing.length + s.leaving + s.aborting +
    (s.dropping.toList.filter Prod.snd).length

def outstanding (s : TxThreads) (ctx : Nat) : Nat :=
  tally (TxPacket.carries ctx) s.path.txControlQueue + tally (TxPacket.carries ctx) s.path.txDataQueue +
    tally (TxPacket.carries ctx) s.path.scheduler.packet?.toList + tally (TxPacket.carries ctx) s.path.txPosted +
    tally (TxPacket.carries ctx) s.completing + tally (fun entry => entry.1.carries ctx) s.dropping.toList +
    tally (TxPacket.carries ctx) s.releasing + s.owed.count ctx

structure Inv (s : TxThreads) : Prop where
  dataQueued : s.path.txDataQueued = s.path.txDataQueue.length
  controlQueued : s.path.txControlQueued = s.path.txControlQueue.length
  data : ∀ packet ∈ s.path.txDataQueue, packet.control = false ∧ packet.rawStreamCounted = false
  control : ∀ packet ∈ s.path.txControlQueue, packet.control = true ∧ packet.zcopy = false ∧
    packet.rawStreamCounted = false ∧ packet.startCreditGroupFrames = 0
  credits : s.path.txRemoteDataCredits ≤ s.path.txRemoteDataCreditMax
  posting : ∀ packet fromControlQueue charged oldRaw oldStart,
    s.path.scheduler = .posting packet fromControlQueue charged oldRaw oldStart →
      packet.control = fromControlQueue ∧ Path.needsStaging packet fromControlQueue = !packet.zcopy ∧
        packet.startCreditGroupFrames = 0
  dropping : s.dropping ≠ none → s.path.scheduler = .releasing
  free : s.frames.free.length = s.path.txFree
  staged : s.frames.posting.isSome = s.path.scheduler.packet?.any fun packet => !packet.zcopy
  aligned : s.frames.posted.map Option.isSome = s.path.txPosted.map fun packet => !packet.zcopy
  frames : ∀ frame, s.frames.places frame = if frame < s.path.txFrameCount then 1 else 0
  inflight : s.path.txInflight = s.inflight
  callbacks : ∀ ctx, s.enqueued.count ctx = s.called.count ctx + s.outstanding ctx

end TxThreads

/-! ## Enqueueing -/

structure Appended (p p' : Path) (what : Enqueue) (data control : List TxPacket) : Prop where
  path : ∃ controlFree dataReserved,
    p' = { p with
      txControlFree := controlFree
      txControlQueue := p.txControlQueue ++ control
      txControlQueued := p.txControlQueued + control.length
      txDataQueue := p.txDataQueue ++ data
      txDataQueued := p.txDataQueued + data.length
      txDataReserved := dataReserved }
  dataOk : ∀ packet ∈ data, packet.control = false ∧ packet.rawStreamCounted = false
  controlOk : ∀ packet ∈ control, packet.control = true ∧ packet.zcopy = false ∧
    packet.rawStreamCounted = false ∧ packet.startCreditGroupFrames = 0
  done : ∀ ctx, tally (TxPacket.carries ctx) data + tally (TxPacket.carries ctx) control = what.done.count ctx

@[simp] theorem length_markGroup (packets : List TxPacket) (count : Nat) :
    (Path.markGroup packets count).length = packets.length := by
  cases packets <;> simp [Path.markGroup]

theorem markGroup_fresh {packets : List TxPacket} (count : Nat) (fresh : packets.all TxPacket.fresh = true) :
    ∀ packet ∈ Path.markGroup packets count, packet.control = false ∧ packet.rawStreamCounted = false := by
  have each : ∀ packet ∈ packets, packet.control = false ∧ packet.rawStreamCounted = false := by
    intro packet member
    simpa [TxPacket.fresh] using List.all_eq_true.mp fresh packet member
  cases packets with
  | nil => simp [Path.markGroup]
  | cons first rest =>
      intro packet member
      rcases List.mem_cons.mp member with rfl | member
      · exact each first List.mem_cons_self
      · obtain ⟨old, inside, rfl⟩ := List.mem_map.mp member
        exact each old (List.mem_cons_of_mem first inside)

theorem tally_carries_filterMap (ctx : Nat) (packets : List TxPacket) :
    tally (TxPacket.carries ctx) packets = (packets.filterMap TxPacket.done).count ctx := by
  induction packets with
  | nil => rfl
  | cons packet rest ih =>
      rw [tally_cons, ih, TxPacket.carries]
      cases done : packet.done with
      | none => simp [done]
      | some other => simp [done, List.count_cons, Nat.add_comm]

theorem tally_carries_markGroup (ctx count : Nat) (packets : List TxPacket) :
    tally (TxPacket.carries ctx) (Path.markGroup packets count) = tally (TxPacket.carries ctx) packets := by
  cases packets with
  | nil => rfl
  | cons first rest =>
      simp only [Path.markGroup, tally, List.map_cons, List.map_map]
      rfl

theorem reserveData_eq {p p' : Path} {frames : Nat} (reserved : p.reserveData frames = .ok p') :
    p' = { p with txDataReserved := p.txDataReserved + frames } := by
  simp only [Path.reserveData] at reserved
  split at reserved
  · rename_i none
    cases reserved
    rw [none]
    rfl
  split at reserved
  · cases reserved
  split at reserved
  · cases reserved
  · cases reserved
    rfl

theorem appended_splice {p p' : Path} {what : Enqueue} {packets : List TxPacket} (reserved : Nat)
    (fresh : packets.all TxPacket.fresh = true) (done : what.done = packets.filterMap TxPacket.done)
    (path : p' = { p with
      txDataQueue := p.txDataQueue ++ Path.markGroup packets packets.length
      txDataQueued := p.txDataQueued + packets.length
      txDataReserved := reserved }) :
    Appended p p' what (Path.markGroup packets packets.length) [] where
  path := ⟨p.txControlFree, reserved, by simp [path]⟩
  dataOk := markGroup_fresh _ fresh
  controlOk := by simp
  done := by
    intro ctx
    rw [tally_nil, tally_carries_markGroup, tally_carries_filterMap, done, Nat.add_zero]

theorem appended_nothing {p : Path} {what : Enqueue} (done : what.done = []) : Appended p p what [] [] where
  path := ⟨p.txControlFree, p.txDataReserved, by simp⟩
  dataOk := by simp
  controlOk := by simp
  done := by simp [done]

theorem enqueue_appended {p p' : Path} {what : Enqueue} (fresh : what.fresh = true)
    (queued : p.enqueue what = .ok p') : ∃ data control, Appended p p' what data control := by
  cases what with
  | control frame done alloc =>
      simp only [Path.enqueue, Path.enqueueControl] at queued
      split at queued
      · cases queued
      split at queued
      · cases queued
      split at queued
      · cases queued
      cases queued
      let packet : TxPacket :=
        { frame, done, ownerCtx := done, control := true, pooled := decide (p.txControlFree ≠ 0) }
      refine ⟨[], [packet], ⟨p.txControlFree - 1, p.txDataReserved, by simp [packet]⟩, by simp, ?_, ?_⟩
      · intro other member
        obtain rfl := List.mem_singleton.mp member
        exact ⟨rfl, rfl, rfl, rfl⟩
      · intro ctx
        simp [TxPacket.carries, Enqueue.done, packet]
  | data packet =>
      simp only [Path.enqueue, Path.enqueueData] at queued
      split at queued
      · cases queued
      split at queued
      · cases queued
      cases queued
      refine ⟨[{ packet with startCreditGroupFrames := 1 }], [],
        ⟨p.txControlFree, p.txDataReserved - 1, by simp⟩, ?_, by simp, ?_⟩
      · intro other member
        obtain rfl := List.mem_singleton.mp member
        simpa [Enqueue.fresh, TxPacket.fresh] using fresh
      · intro ctx
        simp [TxPacket.carries, Enqueue.done]
  | list packets =>
      simp only [Path.enqueue, Path.enqueueDataList] at queued
      split at queued
      · rename_i empty
        cases queued
        obtain rfl := List.length_eq_zero_iff.mp empty
        exact ⟨[], [], appended_nothing rfl⟩
      split at queued
      · cases queued
      split at queued
      · cases queued
      · cases queued
        exact ⟨_, [], appended_splice p.txDataReserved fresh rfl rfl⟩
  | reserved packets =>
      simp only [Path.enqueue, Path.enqueueReservedDataList] at queued
      split at queued
      · rename_i empty
        cases queued
        obtain rfl := List.length_eq_zero_iff.mp empty
        exact ⟨[], [], appended_nothing rfl⟩
      split at queued
      · cases queued
      split at queued
      · cases queued
      · cases queued
        exact ⟨_, [], appended_splice (p.txDataReserved - packets.length) fresh rfl rfl⟩

namespace TxThreads

variable {s : TxThreads}

theorem Inv.enqueue (inv : s.Inv) {what : Enqueue} (fresh : what.fresh = true) : (s.enqueue what).Inv := by
  simp only [TxThreads.enqueue]
  split
  · exact inv
  rename_i path queued
  obtain ⟨data, control, appended⟩ := enqueue_appended fresh queued
  obtain ⟨controlFree, dataReserved, rfl⟩ := appended.path
  refine { inv with dataQueued := ?_, controlQueued := ?_, data := ?_, control := ?_, callbacks := ?_ }
  · simp [inv.dataQueued]
  · simp [inv.controlQueued]
  · intro packet member
    rcases List.mem_append.mp member with old | new
    · exact inv.data packet old
    · exact appended.dataOk packet new
  · intro packet member
    rcases List.mem_append.mp member with old | new
    · exact inv.control packet old
    · exact appended.controlOk packet new
  · intro ctx
    have before := inv.callbacks ctx
    have added := appended.done ctx
    simp only [outstanding, tally_append, List.count_append] at before ⊢
    omega

/-! ## The scheduler -/

theorem Inv.notPosting (inv : s.Inv) (away : s.path.scheduler.packet? = none) : s.frames.posting = none := by
  have staged := inv.staged
  rw [away] at staged
  simpa using staged

theorem Inv.setScheduler (inv : s.Inv) (scheduler : Scheduler) (away : s.path.scheduler.packet? = none)
    (still : scheduler.packet? = none) (free : s.dropping = none) :
    Inv { s with path := { s.path with scheduler } } := by
  have posting := inv.notPosting away
  refine { inv with posting := ?_, dropping := ?_, staged := ?_, inflight := ?_, callbacks := ?_ }
  · intro packet fromControlQueue charged oldRaw oldStart is
    have is : scheduler = .posting packet fromControlQueue charged oldRaw oldStart := is
    simp [is, Scheduler.packet?] at still
  · intro dropping
    exact absurd free dropping
  · simp [still, posting]
  · have before := inv.inflight
    simp only [TxThreads.inflight, away, still] at before ⊢
    exact before
  · intro ctx
    have before := inv.callbacks ctx
    simp only [outstanding, away, still] at before ⊢
    exact before

@[simp] theorem countRawStream_zcopy (p : Path) (packet : TxPacket) :
    (p.countRawStream packet).2.zcopy = packet.zcopy := by
  unfold Path.countRawStream
  extract_lets raw
  split <;> rfl

@[simp] theorem carries_countRawStream (p : Path) (packet : TxPacket) (ctx : Nat) :
    (p.countRawStream packet).2.carries ctx = packet.carries ctx := by
  unfold Path.countRawStream
  extract_lets raw
  split <;> rfl

@[simp] theorem countRawStream_startCreditGroupFrames (p : Path) (packet : TxPacket) :
    (p.countRawStream packet).2.startCreditGroupFrames = packet.startCreditGroupFrames := by
  unfold Path.countRawStream
  extract_lets raw
  split <;> rfl

theorem Inv.selected (inv : s.Inv) {packet : TxPacket} {fromControlQueue : Bool}
    (selected : s.path.selectTx = some (packet, fromControlQueue)) :
    packet.control = fromControlQueue ∧ Path.needsStaging packet fromControlQueue = !packet.zcopy := by
  rcases LinkEnd.selectTx_head selected with ⟨rfl, rest, queue⟩ | ⟨rfl, rest, queue⟩
  · have head := inv.control packet (by simp [queue])
    simp [Path.needsStaging, head]
  · have head := inv.data packet (by simp [queue])
    simp [Path.needsStaging, head]

theorem Inv.takenQueues (inv : s.Inv) {packet : TxPacket} {fromControlQueue : Bool}
    (selected : s.path.selectTx = some (packet, fromControlQueue)) (ctx : Nat) :
    let p := s.path.takeTx packet fromControlQueue
    p.txDataQueued = p.txDataQueue.length ∧ p.txControlQueued = p.txControlQueue.length ∧
      p.txDataQueue ⊆ s.path.txDataQueue ∧ p.txControlQueue ⊆ s.path.txControlQueue ∧
      packet.carries ctx +
          (tally (TxPacket.carries ctx) p.txControlQueue + tally (TxPacket.carries ctx) p.txDataQueue) =
        tally (TxPacket.carries ctx) s.path.txControlQueue + tally (TxPacket.carries ctx) s.path.txDataQueue := by
  have data := inv.dataQueued
  have control := inv.controlQueued
  rcases LinkEnd.selectTx_head selected with ⟨rfl, rest, queue⟩ | ⟨rfl, rest, queue⟩
  · rw [queue, List.length_cons] at control
    simp only [Path.takeTx, queue, List.tail_cons, tally_cons, if_true]
    exact ⟨data, by omega, List.Subset.refl _, List.subset_cons_self _ _, by omega⟩
  · rw [queue, List.length_cons] at data
    simp only [Path.takeTx, queue, List.tail_cons, tally_cons, Bool.false_eq_true, if_false]
    exact ⟨by omega, control, List.subset_cons_self _ _, List.Subset.refl _, by omega⟩

theorem Inv.stage (inv : s.Inv) (posting : s.frames.posting = none) {packet : TxPacket}
    (room : packet.zcopy = false → s.path.txFree ≠ 0) :
    (s.frames.stage (!packet.zcopy)).posting.isSome = !packet.zcopy ∧
      (s.frames.stage (!packet.zcopy)).free.length = if !packet.zcopy then s.path.txFree - 1 else s.path.txFree := by
  cases copied : packet.zcopy with
  | true => simp [StagingFrames.stage, posting, inv.free]
  | false =>
      have nonempty : s.frames.free ≠ [] := by
        intro empty
        exact room copied (by rw [← inv.free, empty]; rfl)
      obtain ⟨first, rest, free⟩ := List.exists_cons_of_ne_nil nonempty
      simp [StagingFrames.stage, ← inv.free, free]

theorem Inv.takeTx (inv : s.Inv) {packet : TxPacket} {fromControlQueue : Bool} (looping : s.path.scheduler = .looping)
    (selected : s.path.selectTx = some (packet, fromControlQueue)) {limit : Nat}
    (allowed : s.path.ringAllows limit packet fromControlQueue = true) :
    Inv { s with
      path := s.path.takeTx packet fromControlQueue
      frames := s.frames.stage (Path.needsStaging packet fromControlQueue) } := by
  obtain ⟨control, staging⟩ := inv.selected selected
  have away : s.path.scheduler.packet? = none := by rw [looping]; rfl
  have posting := inv.notPosting away
  have room : packet.zcopy = false → s.path.txFree ≠ 0 := by
    intro copied
    simp only [Path.ringAllows, staging, copied, Bool.not_false, Bool.not_true, Bool.false_or, Bool.and_eq_true,
      decide_eq_true_eq] at allowed
    exact allowed.1.2
  obtain ⟨staged, free⟩ := inv.stage posting room
  have ring : (s.frames.stage (!packet.zcopy)).posted = s.frames.posted := by
    cases packet.zcopy <;> rfl
  have taken : (s.path.takeTx packet fromControlQueue).scheduler.packet? =
    some (s.path.countRawStream { packet with startCreditGroupFrames := 0 }).2 := rfl
  have queues := inv.takenQueues selected
  rw [staging]
  exact
    { dataQueued := (queues 0).1
      controlQueued := (queues 0).2.1
      data := fun other member => inv.data other ((queues 0).2.2.1 member)
      control := fun other member => inv.control other ((queues 0).2.2.2.1 member)
      credits := by
        have credits := inv.credits
        simp only [Path.takeTx]
        split <;> omega
      posting := by
        intro other fromQueue charged oldRaw oldStart is
        cases is
        simpa [control, Path.needsStaging] using staging
      dropping := by
        intro dropping
        have releasing := inv.dropping dropping
        simp [looping] at releasing
      free := by
        rw [free]
        simp only [Path.takeTx, staging]
      staged := by
        rw [staged, taken]
        simp
      aligned := by
        rw [ring]
        exact inv.aligned
      frames := by
        intro frame
        rw [StagingFrames.places_stage posting]
        exact inv.frames frame
      inflight := by
        have before := inv.inflight
        simp only [TxThreads.inflight, away, taken, Option.toList_none, Option.toList_some, List.length_nil,
          List.length_singleton] at before ⊢
        simp only [Path.takeTx]
        omega
      callbacks := by
        intro ctx
        have before := inv.callbacks ctx
        have moved := (queues ctx).2.2.2.2
        have same : ({ packet with startCreditGroupFrames := 0 } : TxPacket).carries ctx = packet.carries ctx := rfl
        have ringed : (s.path.takeTx packet fromControlQueue).txPosted = s.path.txPosted := rfl
        simp only [outstanding, away, taken, Option.toList_none, Option.toList_some, tally_nil, tally_cons,
          carries_countRawStream, same, ringed] at before ⊢
        omega }

theorem Inv.take (inv : s.Inv) (looping : s.path.scheduler = .looping) (limit : Nat) : (s.take limit).Inv := by
  have away : s.path.scheduler.packet? = none := by rw [looping]; rfl
  have kept : s.dropping = none := by
    by_contra dropping
    have releasing := inv.dropping dropping
    simp [looping] at releasing
  have stop : Inv { s with path := { s.path with scheduler := .idle } } := inv.setScheduler .idle away rfl kept
  simp only [TxThreads.take, Path.scheduleTake]
  cases selected : s.path.selectTx with
  | none => exact stop
  | some choice =>
      obtain ⟨packet, fromControlQueue⟩ := choice
      by_cases allowed : s.path.ringAllows limit packet fromControlQueue && s.path.creditAllows packet
      · have took := inv.takeTx looping selected (Bool.and_eq_true_iff.mp allowed).1
        have staging : Path.needsStaging (s.path.countRawStream { packet with startCreditGroupFrames := 0 }).2
          fromControlQueue = Path.needsStaging packet fromControlQueue := by simp [Path.needsStaging]
        simp only [allowed, if_true]
        rw [← staging] at took
        exact took
      · simp only [allowed]
        exact stop

section Posting

variable {packet : TxPacket} {fromControlQueue charged : Bool} {oldRaw : RawStream} {oldStart : Nat}

theorem Inv.none_dropping (inv : s.Inv)
    (posting : s.path.scheduler = .posting packet fromControlQueue charged oldRaw oldStart) : s.dropping = none := by
  by_contra dropping
  have releasing := inv.dropping dropping
  simp [posting] at releasing

theorem Inv.accepted (inv : s.Inv)
    (posting : s.path.scheduler = .posting packet fromControlQueue charged oldRaw oldStart) :
    Inv { s with path := s.path.posted packet, frames := s.frames.hand } := by
  have held : s.path.scheduler.packet? = some packet := by rw [posting]; rfl
  refine
    { inv with posting := ?_, dropping := ?_, staged := rfl, aligned := ?_, frames := ?_, inflight := ?_
               callbacks := ?_ }
  · intro other fromQueue charged oldRaw oldStart is
    cases is
  · intro dropping
    exact absurd (inv.none_dropping posting) dropping
  · have staged := inv.staged
    rw [held] at staged
    simp only [StagingFrames.hand, Path.posted, List.map_append, List.map_cons, List.map_nil, inv.aligned]
    rw [staged]
    rfl
  · intro frame
    rw [StagingFrames.places_hand]
    exact inv.frames frame
  · have before := inv.inflight
    simp only [TxThreads.inflight, held, Path.posted, Scheduler.packet?_looping, Option.toList_none, Option.toList_some,
      List.length_append, List.length_nil, List.length_singleton] at before ⊢
    omega
  · intro ctx
    have before := inv.callbacks ctx
    simp only [outstanding, held, Path.posted, Scheduler.packet?_looping, Option.toList_none, Option.toList_some,
      tally_append, tally_cons, tally_nil] at before ⊢
    omega

theorem Inv.inflight_posting (inv : s.Inv)
    (posting : s.path.scheduler = .posting packet fromControlQueue charged oldRaw oldStart) :
    s.path.txInflight = s.path.txPosted.length + 1 + s.completing.length + s.leaving + s.aborting := by
  have held : s.path.scheduler.packet? = some packet := by rw [posting]; rfl
  have counted := inv.inflight
  simp only [TxThreads.inflight, held, inv.none_dropping posting, Option.toList_some, Option.toList_none,
    List.length_singleton, List.filter_nil, List.length_nil] at counted
  exact counted

theorem Inv.free_takeBack (inv : s.Inv)
    (posting : s.path.scheduler = .posting packet fromControlQueue charged oldRaw oldStart) :
    s.frames.takeBack.free.length = (s.path.rollBackPost packet fromControlQueue charged oldRaw).txFree := by
  have held : s.path.scheduler.packet? = some packet := by rw [posting]; rfl
  obtain ⟨-, staging, -⟩ := inv.posting _ _ _ _ _ posting
  have frame : s.frames.posting.isSome = !packet.zcopy := by
    rw [inv.staged, held]
    rfl
  simp only [StagingFrames.takeBack, List.length_append, inv.free, Path.rollBackPost, staging]
  cases copied : packet.zcopy <;> cases slot : s.frames.posting <;> simp [copied, slot] at frame ⊢

theorem Inv.credits_rollBackPost (inv : s.Inv) (packet : TxPacket) (fromControlQueue charged : Bool)
    (oldRaw : RawStream) :
    (s.path.rollBackPost packet fromControlQueue charged oldRaw).txRemoteDataCredits ≤
      s.path.txRemoteDataCreditMax := by
  have credits := inv.credits
  simp only [Path.rollBackPost]
  split <;> omega

theorem Inv.places_takeBack (inv : s.Inv) (frame : Nat) :
    s.frames.takeBack.places frame = if frame < s.path.txFrameCount then 1 else 0 :=
  (s.frames.places_takeBack frame).trans (inv.frames frame)

theorem Inv.refused_dropped (inv : s.Inv) {error : Errno}
    (posting : s.path.scheduler = .posting packet fromControlQueue charged oldRaw oldStart)
    (dropped : s.path.requeues packet error = false) :
    (s.refused packet fromControlQueue charged oldRaw oldStart error).Inv := by
  have held : s.path.scheduler.packet? = some packet := by rw [posting]; rfl
  simp only [TxThreads.refused, Path.postFailed, dropped, Bool.false_eq_true, if_false]
  refine
    { inv with credits := inv.credits_rollBackPost packet fromControlQueue charged oldRaw, posting := ?_
               dropping := fun _ => rfl, free := inv.free_takeBack posting, staged := rfl
               frames := inv.places_takeBack, inflight := ?_
               callbacks := ?_ }
  · intro other fromQueue charged oldRaw oldStart is
    cases is
  · have counted := inv.inflight_posting posting
    simp [TxThreads.inflight, Path.dropTx, Path.rollBackPost, counted]
    omega
  · intro ctx
    have before := inv.callbacks ctx
    simp [outstanding, held, inv.none_dropping posting, Path.dropTx, Path.rollBackPost] at before ⊢
    omega

theorem Inv.refused_control (inv : s.Inv) {error : Errno}
    (posting : s.path.scheduler = .posting packet fromControlQueue charged oldRaw oldStart)
    (requeued : s.path.requeues packet error = true) (control : packet.control = true) :
    (s.refused packet fromControlQueue charged oldRaw oldStart error).Inv := by
  have held : s.path.scheduler.packet? = some packet := by rw [posting]; rfl
  obtain ⟨source, staging, ungrouped⟩ := inv.posting _ _ _ _ _ posting
  have copied : packet.zcopy = false := by
    rw [← source, control] at staging
    simpa [Path.needsStaging] using staging
  have back : (s.path.rollBackPost packet fromControlQueue charged oldRaw).requeueTx packet oldStart = _ :=
    if_pos control
  simp only [TxThreads.refused, Path.postFailed, requeued, if_true]
  rw [back]
  refine
    { inv with controlQueued := ?_, control := ?_
               credits := inv.credits_rollBackPost packet fromControlQueue charged oldRaw, posting := ?_
               dropping := ?_, free := inv.free_takeBack posting, staged := rfl, frames := inv.places_takeBack
               inflight := ?_, callbacks := ?_ }
  · simp [Path.rollBackPost, inv.controlQueued]
  · intro other member
    rcases List.mem_cons.mp member with rfl | member
    · exact ⟨control, copied, rfl, ungrouped⟩
    · exact inv.control other member
  · intro other fromQueue charged oldRaw oldStart is
    cases is
  · intro dropping
    exact absurd (inv.none_dropping posting) dropping
  · have counted := inv.inflight_posting posting
    simp [TxThreads.inflight, Path.rollBackPost, counted, inv.none_dropping posting]
    omega
  · intro ctx
    have before := inv.callbacks ctx
    have same : TxPacket.carries ctx { packet with rawStreamCounted := false } = packet.carries ctx := rfl
    simp [outstanding, held, inv.none_dropping posting, Path.rollBackPost] at before same ⊢
    omega

theorem Inv.refused_data (inv : s.Inv) {error : Errno}
    (posting : s.path.scheduler = .posting packet fromControlQueue charged oldRaw oldStart)
    (requeued : s.path.requeues packet error = true) (control : packet.control = false) :
    (s.refused packet fromControlQueue charged oldRaw oldStart error).Inv := by
  have held : s.path.scheduler.packet? = some packet := by rw [posting]; rfl
  have back : (s.path.rollBackPost packet fromControlQueue charged oldRaw).requeueTx packet oldStart = _ :=
    if_neg (by simp [control])
  simp only [TxThreads.refused, Path.postFailed, requeued, if_true]
  rw [back]
  refine
    { inv with dataQueued := ?_, data := ?_
               credits := inv.credits_rollBackPost packet fromControlQueue charged oldRaw, posting := ?_, dropping := ?_
               free := inv.free_takeBack posting, staged := rfl, frames := inv.places_takeBack, inflight := ?_
               callbacks := ?_ }
  · simp [Path.rollBackPost, inv.dataQueued]
  · intro other member
    rcases List.mem_cons.mp member with rfl | member
    · exact ⟨control, rfl⟩
    · exact inv.data other member
  · intro other fromQueue charged oldRaw oldStart is
    cases is
  · intro dropping
    exact absurd (inv.none_dropping posting) dropping
  · have counted := inv.inflight_posting posting
    simp [TxThreads.inflight, Path.rollBackPost, counted, inv.none_dropping posting]
    omega
  · intro ctx
    have before := inv.callbacks ctx
    have same : TxPacket.carries ctx
        { packet with rawStreamCounted := false, startCreditGroupFrames := oldStart } = packet.carries ctx := rfl
    simp [outstanding, held, inv.none_dropping posting, Path.rollBackPost] at before same ⊢
    omega

theorem Inv.refused (inv : s.Inv) {error : Errno}
    (posting : s.path.scheduler = .posting packet fromControlQueue charged oldRaw oldStart) :
    (s.refused packet fromControlQueue charged oldRaw oldStart error).Inv := by
  cases requeued : s.path.requeues packet error with
  | false => exact inv.refused_dropped posting requeued
  | true =>
      cases control : packet.control with
      | true => exact inv.refused_control posting requeued control
      | false => exact inv.refused_data posting requeued control

theorem Inv.post (inv : s.Inv) {error : Option Errno} {t : TxThreads} (posted : s.post error = some t) : t.Inv := by
  simp only [TxThreads.post] at posted
  split at posted
  · rename_i packet fromControlQueue charged oldRaw oldStart posting
    cases error with
    | none =>
        cases posted
        exact inv.accepted posting
    | some error =>
        cases posted
        exact inv.refused posting
  · cases posted

end Posting

theorem Inv.aborted (inv : s.Inv) {t : TxThreads} (stepped : s.aborted = some t) : t.Inv := by
  simp only [TxThreads.aborted] at stepped
  split at stepped
  · cases stepped
  · cases stepped
    refine { inv with inflight := ?_ }
    have before := inv.inflight
    simp only [TxThreads.inflight, countDown] at before ⊢
    omega

theorem Inv.drop (inv : s.Inv) {t : TxThreads} (stepped : s.drop = some t) : t.Inv := by
  simp only [TxThreads.drop] at stepped
  split at stepped
  · cases stepped
  · rename_i packet dropping
    cases stepped
    refine { inv with dropping := fun _ => inv.dropping (by simp [dropping]), inflight := ?_, callbacks := ?_ }
    · have before := inv.inflight
      simp only [TxThreads.inflight, countDown, dropping, Option.toList_some] at before ⊢
      simp at before ⊢
      omega
    · intro ctx
      have before := inv.callbacks ctx
      simp only [outstanding, countDown, dropping, Option.toList_some, tally_cons, tally_nil] at before ⊢
      exact before
  · rename_i packet dropping
    cases stepped
    refine { inv with dropping := fun none => absurd rfl none, inflight := ?_, callbacks := ?_ }
    · have before := inv.inflight
      simp only [TxThreads.inflight, dropping, Option.toList_some] at before ⊢
      simp at before ⊢
      omega
    · intro ctx
      have before := inv.callbacks ctx
      simp only [outstanding, dropping, Option.toList_some, Option.toList_none, tally_cons, tally_nil,
        List.count_append, TxPacket.carries] at before ⊢
      omega

theorem Inv.released (inv : s.Inv) {t : TxThreads} (stepped : s.released = some t) : t.Inv := by
  simp only [TxThreads.released] at stepped
  split at stepped
  · rename_i condition
    cases stepped
    exact inv.setScheduler .idle (by rw [condition.1]; rfl) rfl condition.2
  · cases stepped

/-! ## Completions -/

theorem Inv.complete (inv : s.Inv) {i : Nat} {t : TxThreads} (stepped : s.complete i = some t) : t.Inv := by
  obtain ⟨packet, found, rfl⟩ := Option.map_eq_some_iff.mp stepped
  have slot : ∃ frame, s.frames.posted[i]? = some frame ∧ frame.isSome = !packet.zcopy := by
    have same := congrArg (fun l => l[i]?) inv.aligned
    simp only [List.getElem?_map, found, Option.map_some] at same
    exact Option.map_eq_some_iff.mp same
  obtain ⟨frame, held, kind⟩ := slot
  have shorter := tally_eraseIdx (fun _ : TxPacket => 1) found
  refine { inv with free := ?_, aligned := ?_, frames := ?_, inflight := ?_, callbacks := ?_ }
  · simp only [StagingFrames.complete, held, Option.join_some, List.length_append, inv.free]
    cases copied : packet.zcopy <;> cases frame <;> simp [copied] at kind ⊢
  · simp only [StagingFrames.complete, ← List.eraseIdx_map, inv.aligned]
  · intro number
    rw [StagingFrames.places_complete held]
    exact inv.frames number
  · have before := inv.inflight
    have length : ∀ l : List TxPacket, tally (fun _ => 1) l = l.length := by
      intro l
      simp [tally]
    rw [length, length] at shorter
    simp only [TxThreads.inflight, List.length_append, List.length_singleton] at before ⊢
    omega
  · intro ctx
    have before := inv.callbacks ctx
    have moved := tally_eraseIdx (TxPacket.carries ctx) found
    simp only [outstanding, tally_append, tally_cons, tally_nil] at before ⊢
    omega

theorem Inv.finish (inv : s.Inv) {i : Nat} {t : TxThreads} (stepped : s.finish i = some t) : t.Inv := by
  obtain ⟨packet, found, rfl⟩ := Option.map_eq_some_iff.mp stepped
  have shorter := List.length_eraseIdx_add_one (List.getElem?_eq_some_iff.mp found).1
  refine { inv with inflight := ?_, callbacks := ?_ }
  · have before := inv.inflight
    simp only [TxThreads.inflight] at before ⊢
    omega
  · intro ctx
    have before := inv.callbacks ctx
    have moved := tally_eraseIdx (TxPacket.carries ctx) found
    simp only [outstanding, List.count_append, TxPacket.carries] at before moved ⊢
    omega

theorem Inv.leave (inv : s.Inv) {t : TxThreads} (stepped : s.leave = some t) : t.Inv := by
  simp only [TxThreads.leave] at stepped
  split at stepped
  · cases stepped
  · cases stepped
    refine { inv with inflight := ?_ }
    have before := inv.inflight
    simp only [TxThreads.inflight, countDown] at before ⊢
    omega

end TxThreads

/-! ## Cancellation -/

def TxPacket.shape (packet : TxPacket) : Bool × Bool × Nat :=
  (packet.control, packet.zcopy, packet.startCreditGroupFrames)

theorem cancelRecordDone_spec (key : CancelKey) (walked : TxPacket → Bool) (ctx room : Nat)
    (packets : List TxPacket) :
    (cancelRecordDone key walked room packets).1.map TxPacket.shape = packets.map TxPacket.shape ∧
      tally (TxPacket.carries ctx) (cancelRecordDone key walked room packets).1 +
        (cancelRecordDone key walked room packets).2.1.count ctx = tally (TxPacket.carries ctx) packets := by
  induction packets generalizing room with
  | nil => simp [cancelRecordDone]
  | cons packet rest ih =>
      simp only [cancelRecordDone]
      cases done : packet.done with
      | none =>
          obtain ⟨shape, counts⟩ := ih room
          refine ⟨by simp [shape], ?_⟩
          simp only [tally_cons]
          omega
      | some other =>
          simp only
          split
          · obtain ⟨shape, counts⟩ := ih (room - 1)
            refine ⟨by simp [shape, TxPacket.shape], ?_⟩
            simp only [tally_cons, TxPacket.carries, done, Option.toList_none, Option.toList_some, List.count_nil,
              List.count_cons] at counts ⊢
            omega
          · obtain ⟨shape, counts⟩ := ih room
            refine ⟨by simp [shape], ?_⟩
            simp only [tally_cons]
            omega

theorem cancelInRing_spec (key : CancelKey) (ctx room : Nat) (packets : List TxPacket) :
    (cancelInRing key room packets).1.map TxPacket.shape = packets.map TxPacket.shape ∧
      tally (TxPacket.carries ctx) (cancelInRing key room packets).1 + (cancelInRing key room packets).2.count ctx =
        tally (TxPacket.carries ctx) packets := by
  have first := cancelRecordDone_spec key (fun packet => !packet.zcopy && !packet.control) ctx room packets
  simp only [cancelInRing, List.count_append]
  generalize cancelRecordDone key (fun packet => !packet.zcopy && !packet.control) room packets = staged at first ⊢
  have second := cancelRecordDone_spec key (fun packet => packet.zcopy) ctx staged.2.2 staged.1
  exact ⟨second.1.trans first.1, by omega⟩

structure Path.Canceled (p p' : Path) (noted : List Nat) : Prop where
  posted : p'.txPosted.map TxPacket.shape = p.txPosted.map TxPacket.shape
  scheduler : p'.scheduler = p.scheduler ∨
    ∃ packet packet' fromControlQueue charged oldRaw oldStart,
      p.scheduler = .posting packet fromControlQueue charged oldRaw oldStart ∧
      p'.scheduler = .posting packet' fromControlQueue charged oldRaw oldStart ∧ packet'.shape = packet.shape
  callbacks : ∀ ctx, tally (TxPacket.carries ctx) p'.txPosted +
    tally (TxPacket.carries ctx) p'.scheduler.packet?.toList + noted.count ctx =
      tally (TxPacket.carries ctx) p.txPosted + tally (TxPacket.carries ctx) p.scheduler.packet?.toList

theorem cancelDataMatch_canceled (p : Path) (key : CancelKey) (visible : Bool) :
    p.Canceled (p.cancelDataMatch key visible).1 (p.cancelDataMatch key visible).2 := by
  have spec := fun ctx => cancelInRing_spec key ctx (max p.txFrameCount 1) (p.inRing visible)
  simp only [Path.cancelDataMatch]
  generalize cancelInRing key (max p.txFrameCount 1) (p.inRing visible) = outcome at spec ⊢
  obtain ⟨ring, noted⟩ := outcome
  simp only at spec ⊢
  by_cases hidden : p.inRing visible = p.txPosted
  · -- the packet that is being posted, if there is one, is not in its frame yet
    rw [hidden] at spec
    have length : ring.length = p.txPosted.length := by simpa using congrArg List.length (spec 0).1
    have whole : ring.take p.txPosted.length = ring := List.take_of_length_le (by omega)
    have nothing : ring.drop p.txPosted.length = [] := List.drop_of_length_le (by omega)
    have same : p.scheduler.withPacket none = p.scheduler := by cases p.scheduler <;> rfl
    refine ⟨?_, .inl ?_, ?_⟩
    · rw [whole]
      exact (spec 0).1
    · simp [nothing, same]
    · intro ctx
      have counts := (spec ctx).2
      simp only [whole, nothing, List.head?_nil, same]
      omega
  · obtain ⟨packet, fromControlQueue, charged, oldRaw, oldStart, posting, ringed⟩ :
        ∃ packet fromControlQueue charged oldRaw oldStart,
          p.scheduler = .posting packet fromControlQueue charged oldRaw oldStart ∧
            p.inRing visible = p.txPosted ++ [packet] := by
      cases visible with
      | false => simp [Path.inRing] at hidden
      | true =>
          cases posting : p.scheduler with
          | idle | looping | releasing => simp [Path.inRing, posting] at hidden
          | posting packet fromControlQueue charged oldRaw oldStart =>
              exact ⟨packet, fromControlQueue, charged, oldRaw, oldStart, rfl, by simp [Path.inRing, posting]⟩
    rw [ringed] at spec
    have split := (spec 0).1
    rw [List.map_append, List.map_eq_append_iff] at split
    obtain ⟨posted, last, rfl, posted_shape, last_shape⟩ := split
    obtain ⟨packet', rest, rfl, shape, nil⟩ := List.map_eq_cons_iff.mp last_shape
    obtain rfl := List.map_eq_nil_iff.mp nil
    have length : posted.length = p.txPosted.length := by simpa using congrArg List.length posted_shape
    have taken : (posted ++ [packet']).take p.txPosted.length = posted := List.take_left' length
    have dropped : (posted ++ [packet']).drop p.txPosted.length = [packet'] := List.drop_left' length
    refine ⟨?_, .inr ⟨packet, packet', fromControlQueue, charged, oldRaw, oldStart, posting, ?_, shape⟩, ?_⟩
    · rw [taken]
      exact posted_shape
    · simp [dropped, posting, Scheduler.withPacket]
    · intro ctx
      have counts := (spec ctx).2
      simp only [taken, dropped, List.head?_cons, posting, Scheduler.withPacket, Scheduler.packet?_posting,
        Option.toList_some, tally_append, tally_cons, tally_nil] at counts ⊢
      omega

namespace TxThreads

variable {s : TxThreads}

theorem Inv.cancel (inv : s.Inv) (key : CancelKey) (visible : Bool) : (s.cancel key visible).Inv := by
  have canceled := cancelDataMatch_canceled s.path key visible
  have shape : ∀ packets packets' : List TxPacket, packets'.map TxPacket.shape = packets.map TxPacket.shape →
      packets'.map (fun packet => !packet.zcopy) = packets.map fun packet => !packet.zcopy := by
    intro packets packets' same
    simpa [TxPacket.shape, Function.comp_def] using congrArg (List.map fun shape : Bool × Bool × Nat => !shape.2.1) same
  have held : (s.cancel key visible).path.scheduler.packet?.map TxPacket.shape =
      s.path.scheduler.packet?.map TxPacket.shape := by
    rcases canceled.scheduler with same | ⟨packet, packet', fromControlQueue, charged, oldRaw, oldStart, was, is, same⟩
    · exact congrArg (fun scheduler => scheduler.packet?.map TxPacket.shape) same
    · show Option.map _ (s.path.cancelDataMatch key visible).1.scheduler.packet? = _
      simp [was, is, same]
  have ringLength := congrArg List.length canceled.posted
  simp only [List.length_map] at ringLength
  exact
    { dataQueued := by
        have split := List.length_eq_length_filter_add (l := s.path.txDataQueue) key.matches
        show s.path.txDataQueued - (s.path.txDataQueue.filter key.matches).length = _
        rw [inv.dataQueued]
        simp only [TxThreads.cancel, Path.cancelDataMatch] at split ⊢
        omega
      controlQueued := inv.controlQueued
      data := fun packet member => inv.data packet (List.mem_filter.mp member).1
      control := inv.control
      credits := inv.credits
      posting := by
        intro packet' fromControlQueue charged oldRaw oldStart is
        rcases canceled.scheduler with same | ⟨packet, _, _, _, _, _, was, now, same⟩
        · exact inv.posting _ _ _ _ _ (same.symm.trans is)
        · cases now.symm.trans is
          have before := inv.posting _ _ _ _ _ was
          simp only [TxPacket.shape, Prod.mk.injEq] at same
          simpa [Path.needsStaging, same] using before
      dropping := by
        intro dropping
        have releasing := inv.dropping dropping
        rcases canceled.scheduler with same | ⟨packet, _, _, _, _, _, was, now, same⟩
        · exact same.trans releasing
        · simp [was] at releasing
      free := inv.free
      staged := by
        rw [show (s.cancel key visible).frames = s.frames from rfl, inv.staged]
        have kind := congrArg (fun shape => shape.any fun shape : Bool × Bool × Nat => !shape.2.1) held
        simpa [Option.any_map, TxPacket.shape, Function.comp_def] using kind.symm
      aligned := by
        rw [show (s.cancel key visible).frames = s.frames from rfl, inv.aligned]
        exact (shape _ _ canceled.posted).symm
      frames := inv.frames
      inflight := by
        have before := inv.inflight
        have length := congrArg (fun held => held.toList.length) held
        simp only [Option.toList_map, List.length_map] at length
        show s.path.txInflight = _
        simp only [TxThreads.inflight, length] at before ⊢
        simp only [TxThreads.cancel, ringLength]
        exact before
      callbacks := by
        intro ctx
        have before := inv.callbacks ctx
        have moved := canceled.callbacks ctx
        have split := tally_filter_add (TxPacket.carries ctx) key.matches s.path.txDataQueue
        have same : tally (TxPacket.carries ctx) ((s.path.txDataQueue.filter key.matches).map fun packet =>
            { packet with ownerCtx := none }) =
              tally (TxPacket.carries ctx) (s.path.txDataQueue.filter key.matches) := by
          simp only [tally, List.map_map]
          rfl
        have queue : (s.path.cancelDataMatch key visible).1.txDataQueue =
          s.path.txDataQueue.filter fun packet => !key.matches packet := rfl
        have control : (s.path.cancelDataMatch key visible).1.txControlQueue = s.path.txControlQueue := rfl
        simp only [outstanding, TxThreads.cancel, tally_append, List.count_append, same, queue, control] at before ⊢
        omega }

theorem Inv.flush (inv : s.Inv) {t : TxThreads} (stepped : s.flush = some t) : t.Inv := by
  simp only [TxThreads.flush] at stepped
  split at stepped
  · cases stepped
  · cases stepped
    refine { inv with dataQueued := rfl, controlQueued := rfl, data := ?_, control := ?_, callbacks := ?_ }
    · simp [Path.flushTxQueue]
    · simp [Path.flushTxQueue]
    · intro ctx
      have before := inv.callbacks ctx
      simp only [outstanding, Path.flushTxQueue, tally_append, tally_nil] at before ⊢
      omega

theorem Inv.releasePacket (inv : s.Inv) {i : Nat} {t : TxThreads} (stepped : s.releasePacket i = some t) : t.Inv := by
  obtain ⟨packet, found, rfl⟩ := Option.map_eq_some_iff.mp stepped
  refine { inv with callbacks := ?_ }
  intro ctx
  have before := inv.callbacks ctx
  have moved := tally_eraseIdx (TxPacket.carries ctx) found
  simp only [outstanding, List.count_append, TxPacket.carries] at before moved ⊢
  omega

theorem Inv.callOwed (inv : s.Inv) {i : Nat} {t : TxThreads} (stepped : s.callOwed i = some t) : t.Inv := by
  obtain ⟨called, found, rfl⟩ := Option.map_eq_some_iff.mp stepped
  refine { inv with callbacks := ?_ }
  intro ctx
  have before := inv.callbacks ctx
  obtain ⟨bound, rfl⟩ := List.getElem?_eq_some_iff.mp found
  have moved := (List.getElem_cons_eraseIdx_perm bound).count_eq ctx
  rw [List.count_cons] at moved
  simp only [outstanding, List.count_append, List.count_singleton] at before ⊢
  omega

theorem addRemoteRxCredits_eq (p : Path) (credits : Nat) :
    ∃ received, p.addRemoteRxCredits credits = { p with txRemoteDataCredits := received } ∧
      (p.txRemoteDataCredits ≤ p.txRemoteDataCreditMax → received ≤ p.txRemoteDataCreditMax) := by
  simp only [Path.addRemoteRxCredits]
  split
  · exact ⟨p.txRemoteDataCredits, rfl, id⟩
  · refine ⟨_, rfl, fun _ => ?_⟩
    split
    · omega
    · split <;> omega

/-! ## Runs -/

theorem Inv.step (inv : s.Inv) {limit : Nat} {action : TxAction} {t : TxThreads}
    (stepped : s.step limit action = some t) : t.Inv := by
  cases action with
  | enableTunnel | disableTunnel =>
      simp only [TxThreads.step] at stepped
      split at stepped
      · cases stepped
        exact { inv with }
      · cases stepped
  | enqueue what =>
      simp only [TxThreads.step] at stepped
      split at stepped
      · rename_i fresh
        cases stepped
        exact inv.enqueue fresh
      · cases stepped
  | reserve frames =>
      simp only [TxThreads.step] at stepped
      split at stepped
      · cases stepped
        exact inv
      · rename_i path reserved
        cases stepped
        obtain rfl := reserveData_eq reserved
        exact { inv with }
  | release frames =>
      cases stepped
      exact { inv with }
  | addCredits credits =>
      cases stepped
      obtain ⟨received, path, bounded⟩ := addRemoteRxCredits_eq s.path credits
      simp only [TxThreads.addCredits, path]
      exact { inv with credits := bounded inv.credits }
  | setCapacity rxRingSize =>
      cases stepped
      exact { inv with credits := le_refl _ }
  | schedule =>
      simp only [TxThreads.step, Path.scheduleEnter] at stepped
      split at stepped
      · cases stepped
      cases stepped
      split
      · rename_i idle
        have kept : s.dropping = none := by
          by_contra dropping
          have releasing := inv.dropping dropping
          simp [idle] at releasing
        have entered := inv.setScheduler .looping (by rw [idle]; rfl) rfl kept
        exact { entered with }
      · exact { inv with }
  | take =>
      simp only [TxThreads.step] at stepped
      split at stepped
      · rename_i looping
        cases stepped
        exact inv.take looping limit
      · cases stepped
  | post error => exact inv.post stepped
  | aborted => exact inv.aborted stepped
  | drop => exact inv.drop stepped
  | released => exact inv.released stepped
  | complete i => exact inv.complete stepped
  | finish i => exact inv.finish stepped
  | leave => exact inv.leave stepped
  | cancel key visible =>
      cases stepped
      exact inv.cancel key visible
  | flush => exact inv.flush stepped
  | releasePacket i => exact inv.releasePacket stepped
  | callOwed i => exact inv.callOwed stepped

theorem inv_started (cfg : PathConfig) : (started cfg).Inv where
  dataQueued := rfl
  controlQueued := rfl
  data := by simp [started, Path.started]
  control := by simp [started, Path.started]
  credits := le_refl _
  posting := by
    intro packet fromControlQueue charged oldRaw oldStart is
    cases is
  dropping := by simp [started]
  free := List.length_range
  staged := rfl
  aligned := rfl
  frames := by
    intro frame
    simp only [StagingFrames.places, started, Path.started, List.count_range]
    by_cases inside : frame < cfg.txRingSize <;> simp [inside]
  inflight := rfl
  callbacks := by
    intro ctx
    rfl

theorem inv_reachable {cfg : PathConfig} {limit : Nat} (reachable : (txSystem cfg limit).Reachable s) : s.Inv :=
  reachable.invariant (fun _ start => start ▸ inv_started cfg) fun _ _ _ inv _ stepped => inv.step stepped

/-- The counters equal the lengths of their queues at every step. When no thread is at work every staging frame
is free or in the ring with one packet, and `tx_inflight` is the number of packets in the ring. The callbacks that
were called and those that still belong to a packet are those of the packets that were enqueued. -/
theorem tx_bookkeeping (cfg : PathConfig) (limit : Nat) (s : TxThreads) (reachable : (txSystem cfg limit).Reachable s) :
    s.path.txDataQueued = s.path.txDataQueue.length ∧ s.path.txControlQueued = s.path.txControlQueue.length ∧
      (s.Quiet →
        (∀ frame, s.frames.free.count frame + s.frames.posted.count (some frame) =
          if frame < s.path.txFrameCount then 1 else 0) ∧
        s.frames.posted.map Option.isSome = s.path.txPosted.map (fun packet => !packet.zcopy) ∧
        s.path.txInflight = s.path.txPosted.length) ∧
      ∀ ctx, s.enqueued.count ctx = s.called.count ctx + s.outstanding ctx := by
  have inv := inv_reachable reachable
  refine ⟨inv.dataQueued, inv.controlQueued, ?_, inv.callbacks⟩
  intro quiet
  have away : s.path.scheduler.packet? = none := by rw [quiet.scheduler]; rfl
  refine ⟨?_, inv.aligned, ?_⟩
  · intro frame
    have place := inv.frames frame
    rw [StagingFrames.places, inv.notPosting away] at place
    simpa using place
  · have counted := inv.inflight
    simpa [TxThreads.inflight, away, quiet.completing, quiet.leaving, quiet.aborting, quiet.dropping] using counted

end TxThreads

def oneSendRun : List TxAction :=
  [.enableTunnel, .enqueue (.data { frame := { len := 64, header := none }, done := some 7, ownerCtx := some 7 }),
    .schedule, .take, .post none, .take, .complete 0, .finish 0, .leave]

theorem tx_bookkeeping_oneSend :
    ∃ s, (txSystem (nativePaths .left) 32).Reachable s ∧ s.called = [7] ∧
      s.enqueued.count 7 = s.called.count 7 + s.outstanding 7 := by
  obtain ⟨s, reachable, called⟩ := System.exists_reachableVia (txSystem (nativePaths .left) 32) (fun _ _ => True)
    oneSendRun (fun s => s.called = [7]) rfl (by decide +kernel)
  exact ⟨s, reachable, by simpa using called, (TxThreads.tx_bookkeeping (nativePaths .left) 32 s reachable).2.2.2 7⟩

end ThunderboltVerbs.DataPath
