import ThunderboltVerbs.DataPath.Backpressure
import ThunderboltVerbs.DataPath.StreamFlow

/-!
# Runnable packets

A thread that finds the scheduler at work leaves the path to it, and the scheduler leaves once the next
packet cannot go. Whoever makes a packet runnable has to call the scheduler again. While a raw stream has the ring
to itself no other packet is picked.
-/

namespace ThunderboltVerbs.DataPath
open Proto Lib

/-- The packet that the scheduler picks next, if there is one, has no room in the ring or no credits. -/
def Path.NextWaits (p : Path) (limit : Nat) : Prop :=
  ∀ packet fromControlQueue, p.selectTx = some (packet, fromControlQueue) →
    (p.ringAllows limit packet fromControlQueue && p.creditAllows packet) = false

/-- The next packet waits. It picks none only if nothing is queued, or if a raw stream has a frame in the ring, whose
completion calls the scheduler. -/
structure Path.Blocked (p : Path) (limit : Nat) : Prop where
  next : p.NextWaits limit
  none : p.selectTx = none → (p.txControlQueue = [] ∧ p.txDataQueue = []) ∨
    (p.txRawStream.active = true ∧
      ∃ packet ∈ p.txPosted, packet.rawStreamCounted = true ∧ packet.ownerCtx = p.txRawStream.owner)

theorem Path.NextWaits.congr {p p' : Path} {limit : Nat} (waits : p.NextWaits limit)
    (selected : p'.selectTx = p.selectTx)
    (ring : ∀ packet fromControlQueue, p'.ringAllows limit packet fromControlQueue =
      p.ringAllows limit packet fromControlQueue)
    (credit : ∀ packet, p'.creditAllows packet = p.creditAllows packet) : p'.NextWaits limit := by
  intro packet fromControlQueue chosen
  rw [ring, credit]
  exact waits packet fromControlQueue (selected ▸ chosen)

theorem Path.nextWaits_of_selectTx {p : Path} {limit : Nat} (nothing : p.selectTx = none) : p.NextWaits limit := by
  intro packet fromControlQueue chosen
  rw [nothing] at chosen
  cases chosen

/-- The next data packet would be looked at, and it changes to another one. -/
def Path.uncovers (p : Path) (key : CancelKey) : Bool :=
  (p.txRawStream.active || p.txControlQueue.isEmpty) && p.txDataQueue.head?.any key.matches &&
    p.txDataQueue.any fun packet => !key.matches packet

namespace TxThreads

def resting (s : TxThreads) : Bool :=
  s.path.scheduler = .idle ∧ s.callers = 0 ∧ s.completing = [] ∧ s.leaving = 0 ∧ s.aborting = 0

def idling (s : TxThreads) : Bool := s.path.txControlQueue = [] ∧ s.path.txDataQueue = []

/-- A thread whose frame was refused returns, and a cancellation uncovers another packet, only while a thread is
there to look again. -/
def rechecks (s : TxThreads) : TxAction → Bool
  | .aborted => s.idling || !{ s with aborting := s.aborting - 1 }.resting
  | .released => s.idling || !{ s with path := { s.path with scheduler := .idle } }.resting
  | .cancel key _ => !s.resting || !s.path.uncovers key
  | _ => true

/-- The tunnel stays up, no raw stream is cut off, and somebody looks again. -/
def conserving (s : TxThreads) (action : TxAction) : Bool := s.keepsStreams action && s.rechecks action

structure Conserved (limit : Nat) (s : TxThreads) : Prop where
  down : s.path.state ≠ .tunnelEnabled → s.idling = true
  waits : s.resting = true → s.path.NextWaits limit

variable {s t : TxThreads} {limit : Nat}

theorem selectTx_idling (idling : s.idling = true) : s.path.selectTx = none := by
  simp only [TxThreads.idling, decide_eq_true_eq] at idling
  simp [Path.selectTx, idling]

theorem Conserved.of_busy (down : t.path.state ≠ .tunnelEnabled → t.idling = true) (busy : t.resting = false) :
    t.Conserved limit where
  down := down
  waits := by
    intro resting
    rw [busy] at resting
    cases resting

theorem Conserved.of_same (conserved : s.Conserved limit) (down : t.path.state ≠ .tunnelEnabled → t.idling = true)
    (rests : t.resting = true → s.resting = true) (selected : t.path.selectTx = s.path.selectTx)
    (ring : ∀ packet fromControlQueue, t.path.ringAllows limit packet fromControlQueue =
      s.path.ringAllows limit packet fromControlQueue)
    (credit : ∀ packet, t.path.creditAllows packet = s.path.creditAllows packet) : t.Conserved limit where
  down := down
  waits := fun resting => (conserved.waits (rests resting)).congr selected ring credit

theorem scheduleTake_waits (p : Path) (idle : (p.scheduleTake limit).scheduler = .idle) :
    (p.scheduleTake limit).NextWaits limit := by
  simp only [Path.scheduleTake] at idle ⊢
  cases selected : p.selectTx with
  | none => exact Path.nextWaits_of_selectTx selected
  | some choice =>
      simp only [selected] at idle
      split at idle
      · cases idle
      · rename_i refused
        simp only [refused]
        intro packet fromControlQueue chosen
        have chosen : p.selectTx = some (packet, fromControlQueue) := chosen
        rw [selected] at chosen
        cases chosen
        exact Bool.eq_false_iff.mpr refused

theorem selectTx_head? {p p' : Path} (state : p'.state = p.state) (raw : p'.txRawStream = p.txRawStream)
    (control : p'.txControlQueue = p.txControlQueue) (data : p'.txDataQueue.head? = p.txDataQueue.head?) :
    p'.selectTx = p.selectTx := by
  simp only [Path.selectTx, state, raw, control, data]
  split
  · rfl
  split
  · cases first : p.txDataQueue with
    | nil =>
        rw [first] at data
        rw [List.head?_eq_none_iff.mp data]
    | cons packet rest =>
        rw [first] at data
        obtain ⟨rest', first'⟩ := List.head?_eq_some_iff.mp data
        rw [first']
  · rfl

/-! ## The steps -/

theorem enqueue_enabled {p p' : Path} {what : Enqueue} (queued : p.enqueue what = .ok p')
    (filled : what.isEmpty = false) : p.state = .tunnelEnabled ∧ p'.state = .tunnelEnabled := by
  have counted : ∀ packets : List TxPacket, packets.isEmpty = false → packets.length ≠ 0 := by
    intro packets filled
    simpa using filled
  cases what with
  | control frame done alloc =>
      simp only [Path.enqueue, Path.enqueueControl] at queued
      grind
  | data packet =>
      simp only [Path.enqueue, Path.enqueueData] at queued
      grind
  | list packets =>
      have some := counted packets filled
      simp only [Path.enqueue, Path.enqueueDataList, Path.spliceData] at queued
      grind
  | reserved packets =>
      have some := counted packets filled
      simp only [Path.enqueue, Path.enqueueReservedDataList, Path.spliceData] at queued
      grind

theorem enqueue_nothing {p p' : Path} {what : Enqueue} (queued : p.enqueue what = .ok p')
    (empty : what.isEmpty = true) : p' = p := by
  cases what with
  | control frame done alloc => cases empty
  | data packet => cases empty
  | list packets =>
      obtain rfl := List.isEmpty_iff.mp empty
      cases queued
      rfl
  | reserved packets =>
      obtain rfl := List.isEmpty_iff.mp empty
      cases queued
      rfl

theorem Conserved.enqueue (conserved : s.Conserved limit) (what : Enqueue) : (s.enqueue what).Conserved limit := by
  simp only [TxThreads.enqueue]
  cases queued : s.path.enqueue what with
  | error error => exact conserved
  | ok path =>
      cases empty : what.isEmpty with
      | true =>
          obtain rfl := enqueue_nothing queued empty
          exact ⟨conserved.down, conserved.waits⟩
      | false =>
          apply Conserved.of_busy
          · intro disabled
            exact absurd (enqueue_enabled queued empty).2 disabled
          · simp [resting]

theorem Conserved.take (conserved : s.Conserved limit) : (s.take limit).Conserved limit where
  down := by
    intro disabled
    have same : (s.path.scheduleTake limit).state = s.path.state := by
      simp only [Path.scheduleTake]
      grind [Path.takeTx]
    have disabled : s.path.state ≠ .tunnelEnabled := same ▸ disabled
    have idling := conserved.down disabled
    simpa [TxThreads.idling, TxThreads.take, Path.scheduleTake, selectTx_idling idling] using idling
  waits := by
    intro resting
    simp only [TxThreads.resting, decide_eq_true_eq] at resting
    exact scheduleTake_waits s.path resting.1

theorem Conserved.post (conserved : s.Conserved limit) {error : Option Errno} (stepped : s.post error = some t) :
    t.Conserved limit := by
  simp only [TxThreads.post] at stepped
  split at stepped
  · rename_i packet fromControlQueue charged oldRaw oldStart posting
    cases error with
    | none =>
        cases stepped
        apply Conserved.of_busy
        · exact conserved.down
        · simp [resting, Path.posted]
    | some error =>
        cases stepped
        simp only [refused, Path.postFailed]
        cases requeues : s.path.requeues packet error with
        | true =>
            apply Conserved.of_busy
            · intro disabled
              have enabled : s.path.state = .tunnelEnabled := by
                simp only [Path.requeues, Bool.and_eq_true, decide_eq_true_eq] at requeues
                exact requeues.1.2
              refine absurd ?_ disabled
              simp only [if_true, Path.requeueTx, Path.rollBackPost]
              split <;> exact enabled
            · simp [resting]
        | false =>
            apply Conserved.of_busy
            · exact conserved.down
            · simp [resting, Path.dropTx]
  · cases stepped

theorem head?_filter_matches {key : CancelKey} {packets : List TxPacket}
    (kept : packets.head?.any key.matches = false ∨ packets.any (fun packet => !key.matches packet) = false) :
    (packets.filter fun packet => !key.matches packet).head? = packets.head? ∨
      packets.filter (fun packet => !key.matches packet) = [] := by
  rcases kept with kept | gone
  · cases packets with
    | nil => exact .inl rfl
    | cons packet rest =>
        have keeps : key.matches packet = false := kept
        simp [keeps]
  · right
    simpa [List.filter_eq_nil_iff] using gone

theorem Conserved.cancel (conserved : s.Conserved limit) (key : CancelKey) (visible : Bool)
    (allowed : s.rechecks (.cancel key visible) = true) : (s.cancel key visible).Conserved limit := by
  have down : (s.cancel key visible).path.state ≠ .tunnelEnabled → (s.cancel key visible).idling = true := by
    intro disabled
    have idling := conserved.down disabled
    simp only [TxThreads.idling, decide_eq_true_eq] at idling
    simp [TxThreads.idling, TxThreads.cancel, Path.cancelDataMatch, idling]
  cases raw : s.path.rawStreamCanceled key with
  | true =>
      apply Conserved.of_busy down
      simp [resting, TxThreads.cancel, raw]
  | false =>
      have rests : (s.cancel key visible).resting = true → s.resting = true := by
        intro resting
        simp only [TxThreads.resting, TxThreads.cancel, Path.cancelDataMatch, raw, decide_eq_true_eq] at resting ⊢
        refine ⟨?_, by simpa using resting.2⟩
        have after := resting.1
        cases before : s.path.scheduler with
        | idle => rfl
        | looping | releasing =>
            rw [before] at after
            cases after
        | posting packet fromControlQueue charged oldRaw oldStart =>
            simp only [before, Scheduler.withPacket] at after
            split at after <;> simp_all
      refine ⟨down, fun resting => ?_⟩
      have resting := rests resting
      have waits := conserved.waits resting
      have same : (s.cancel key visible).path.txRawStream = s.path.txRawStream := by
        simp [TxThreads.cancel, Path.cancelDataMatch, raw]
      simp only [rechecks, resting, Bool.not_true, Bool.false_or, Path.uncovers, Bool.not_eq_true',
        Bool.and_eq_false_iff] at allowed
      by_cases front : s.path.txRawStream.active = false ∧ s.path.txControlQueue ≠ []
      · -- A control packet goes first.
        obtain ⟨first, rest, control⟩ := List.exists_cons_of_ne_nil front.2
        refine waits.congr ?_ (fun _ _ => rfl) fun _ => rfl
        simp only [Path.selectTx, same, front.1]
        simp [TxThreads.cancel, Path.cancelDataMatch, control]
      · have kept := allowed.imp_left fun covered => covered.resolve_left fun hidden => front (by simpa using hidden)
        rcases head?_filter_matches kept with head | gone
        · exact waits.congr (selectTx_head? rfl same rfl head) (fun _ _ => rfl) fun _ => rfl
        · apply Path.nextWaits_of_selectTx
          simp only [Path.selectTx, same]
          simp only [TxThreads.cancel, Path.cancelDataMatch, gone]
          by_cases active : s.path.txRawStream.active = true
          · simp [active]
          · have empty : s.path.txControlQueue = [] := by
              by_contra filled
              exact front ⟨by simpa using active, filled⟩
            simp [active, empty]

theorem Conserved.step (inv : s.Inv) (conserved : s.Conserved limit) {action : TxAction}
    (kept : s.keepsStreams action = true) (allowed : s.rechecks action = true) (stepped : s.step limit action = some t) :
    t.Conserved limit := by
  cases action with
  | disableTunnel | flush => cases kept
  | enableTunnel =>
      simp only [TxThreads.step] at stepped
      split at stepped
      · rename_i started
        cases stepped
        have idling := conserved.down (by simp [started])
        exact ⟨fun _ => idling, fun _ => Path.nextWaits_of_selectTx (selectTx_idling idling)⟩
      · cases stepped
  | enqueue what =>
      simp only [TxThreads.step] at stepped
      split at stepped
      · cases stepped
        exact conserved.enqueue what
      · cases stepped
  | reserve frames =>
      simp only [TxThreads.step] at stepped
      split at stepped
      · cases stepped
        exact conserved
      · rename_i path reserved
        cases stepped
        obtain rfl := reserveData_eq reserved
        exact conserved.of_same conserved.down id rfl (fun _ _ => rfl) fun _ => rfl
  | release frames =>
      cases stepped
      exact conserved.of_same conserved.down id rfl (fun _ _ => rfl) fun _ => rfl
  | addCredits credits =>
      cases stepped
      obtain ⟨received, path, -⟩ := addRemoteRxCredits_eq s.path credits
      simp only [TxThreads.addCredits, path]
      by_cases unchanged : received = s.path.txRemoteDataCredits
      · subst unchanged
        exact conserved.of_same conserved.down (by simp [resting]) rfl (fun _ _ => rfl) fun _ => rfl
      · refine Conserved.of_busy conserved.down ?_
        simp [resting, unchanged]
  | setCapacity rxRingSize =>
      cases stepped
      refine Conserved.of_busy conserved.down ?_
      simp [resting]
  | schedule =>
      simp only [TxThreads.step, Path.scheduleEnter] at stepped
      split at stepped
      · cases stepped
      cases stepped
      split
      · refine Conserved.of_busy conserved.down ?_
        simp [resting]
      · rename_i working
        refine Conserved.of_busy conserved.down ?_
        have working : s.path.scheduler ≠ .idle := working
        simp [resting, working]
  | take =>
      simp only [TxThreads.step] at stepped
      split at stepped
      · cases stepped
        exact conserved.take
      · cases stepped
  | post error => exact conserved.post stepped
  | aborted =>
      simp only [TxThreads.step, TxThreads.aborted] at stepped
      split at stepped
      · cases stepped
      cases stepped
      simp only [rechecks, Bool.or_eq_true, Bool.not_eq_true'] at allowed
      rcases allowed with idling | busy
      · exact ⟨conserved.down, fun _ => Path.nextWaits_of_selectTx (selectTx_idling (s := s.countDown) idling)⟩
      · exact Conserved.of_busy conserved.down busy
  | drop =>
      have releasing : s.dropping ≠ none → s.path.scheduler = .releasing := inv.dropping
      simp only [TxThreads.step, TxThreads.drop] at stepped
      split at stepped
      · cases stepped
      all_goals
        rename_i held
        cases stepped
        refine Conserved.of_busy conserved.down ?_
        simp [resting, countDown, releasing (by simp [held])]
  | released =>
      simp only [TxThreads.step, TxThreads.released] at stepped
      split at stepped
      · cases stepped
        simp only [rechecks, Bool.or_eq_true, Bool.not_eq_true'] at allowed
        rcases allowed with idling | busy
        · exact ⟨conserved.down, fun _ => Path.nextWaits_of_selectTx (selectTx_idling (s := s) idling)⟩
        · exact Conserved.of_busy conserved.down busy
      · cases stepped
  | complete i =>
      obtain ⟨packet, found, rfl⟩ := Option.map_eq_some_iff.mp stepped
      refine Conserved.of_busy conserved.down ?_
      simp [resting]
  | finish i =>
      obtain ⟨packet, found, rfl⟩ := Option.map_eq_some_iff.mp stepped
      refine Conserved.of_busy conserved.down ?_
      simp [resting]
  | leave =>
      simp only [TxThreads.step, TxThreads.leave] at stepped
      split at stepped
      · cases stepped
      cases stepped
      refine Conserved.of_busy conserved.down ?_
      simp [resting]
  | cancel key visible =>
      cases stepped
      exact conserved.cancel key visible allowed
  | releasePacket i =>
      obtain ⟨packet, found, rfl⟩ := Option.map_eq_some_iff.mp stepped
      exact conserved.of_same conserved.down id rfl (fun _ _ => rfl) fun _ => rfl
  | callOwed i =>
      obtain ⟨ctx, found, rfl⟩ := Option.map_eq_some_iff.mp stepped
      exact conserved.of_same conserved.down id rfl (fun _ _ => rfl) fun _ => rfl

/-- At rest an active stream with no page to come next has a frame in the ring. -/
theorem stream_onRing (flowing : s.StreamEnds) (resting : s.resting = true) (active : s.path.txRawStream.active = true)
    (none : pagesFirst s.path.txRawStream.owner s.path.txDataQueue = false) :
    ∃ packet ∈ s.path.txPosted, packet.rawStreamCounted = true ∧ packet.ownerCtx = s.path.txRawStream.owner := by
  simp only [TxThreads.resting, decide_eq_true_eq] at resting
  obtain ⟨idle, -, completing, -⟩ := resting
  have free : s.view.posting = Option.none := by simp [view, idle, Scheduler.posting?]
  obtain ⟨packet, member⟩ := (flowing.flow active).onRing none
  rw [TxView.streamed_free free] at member
  simp only [view, completing, Multiset.mem_filter, Multiset.coe_nil, Multiset.add_zero, Multiset.mem_coe] at member
  exact ⟨packet, member.1.1, member.1.2, member.2⟩

theorem Conserved.blocked (conserved : s.Conserved limit) (flowing : s.StreamEnds) (resting : s.resting = true) :
    s.path.Blocked limit where
  next := conserved.waits resting
  none := by
    intro nothing
    by_cases up : s.path.state = .tunnelEnabled
    · simp only [Path.selectTx, up, ne_eq, not_true, if_false] at nothing
      cases active : s.path.txRawStream.active with
      | false =>
          refine .inl ?_
          rw [active, if_neg Bool.false_ne_true] at nothing
          split at nothing
          · cases nothing
          · rename_i empty
            simpa [empty] using nothing
      | true =>
          refine .inr ⟨rfl, stream_onRing flowing resting active ?_⟩
          rw [active, if_pos rfl] at nothing
          cases queue : s.path.txDataQueue with
          | nil => rfl
          | cons packet rest =>
              have other : (!packet.zcopy || packet.rawStreamStart ||
                  packet.ownerCtx ≠ s.path.txRawStream.owner) = true := by
                by_contra part
                simp only [queue, if_neg part] at nothing
                cases nothing
              have outside : packet.inStream s.path.txRawStream.owner = false := by
                simp only [Bool.or_eq_true, Bool.not_eq_true', decide_eq_true_eq] at other
                rcases other with (staged | starts) | foreign
                · simp [TxPacket.inStream, staged]
                · simp [TxPacket.inStream, starts]
                · simp [TxPacket.inStream, foreign]
              rw [pagesFirst, outside, Bool.false_and]
    · have idling := conserved.down up
      simp only [TxThreads.idling, decide_eq_true_eq] at idling
      exact .inl idling

/-- When no thread is inside the scheduler or about to call it, the next packet cannot be sent. -/
theorem work_conserving (cfg : PathConfig) (limit : Nat) (s : TxThreads)
    (reachable : (txSystem cfg limit).ReachableVia (fun s action => s.conserving action = true) s)
    (resting : s.resting = true) : s.path.Blocked limit := by
  have flowing : s.StreamEnds := streamEnds_reachable
    (reachable.mono fun _ _ allowed => (Bool.and_eq_true_iff.mp allowed).1)
  have conserved : s.Conserved limit := by
    refine reachable.invariant_with (fun _ reached => inv_reachable reached.reachable) ?_ ?_
    · rintro s rfl
      exact ⟨fun _ => rfl, fun _ => Path.nextWaits_of_selectTx rfl⟩
    · intro s action t inv conserved allowed stepped
      obtain ⟨kept, looks⟩ := Bool.and_eq_true_iff.mp allowed
      exact conserved.step inv kept looks stepped
  exact conserved.blocked flowing resting

end TxThreads

def packetOf (owner : Nat) : TxPacket :=
  { frame := { len := 64, header := none }, done := some owner, ownerCtx := some owner }

/-- One of four credits is spent, a group of four packets waits for it, and a packet of another send behind it. -/
def waitingRun : List TxAction :=
  [.enableTunnel, .setCapacity 8, .schedule, .take,
    .enqueue (.data (packetOf 7)), .schedule, .take, .post none, .take, .complete 0, .finish 0, .leave,
    .schedule, .take,
    .enqueue (.list (List.replicate 4 (packetOf 1))), .schedule, .take,
    .enqueue (.data (packetOf 2)), .schedule, .take]

theorem work_conserving_waiting :
    ∃ s, (txSystem (nativePaths .left) 32).Reachable s ∧ s.path.txDataQueued = 5 ∧ s.path.Blocked 32 := by
  obtain ⟨s, reachable, waits⟩ := System.exists_reachableVia (txSystem (nativePaths .left) 32)
    (fun s action => s.conserving action = true) waitingRun
    (fun s => s.resting = true ∧ s.path.txDataQueued = 5) rfl (by decide +kernel)
  simp only [decide_eq_true_eq] at waits
  exact ⟨s, reachable.reachable, waits.2,
    TxThreads.work_conserving (nativePaths .left) 32 s reachable waits.1⟩

/-- A page is refused after the header of its stream completed, so that the header stays counted for ever. A control
packet comes when the whole stream has completed. -/
def staleRun : List TxAction :=
  [.enableTunnel, .enqueue (.list [streamStart, streamPage 8 false, streamPage 9 true]), .schedule, .take, .post none,
    .take, .complete 0, .finish 0, .leave, .post (some .eNoMem), .aborted,
    .schedule, .take, .post none, .take, .post none, .take,
    .complete 0, .finish 0, .leave, .schedule, .take, .complete 0, .finish 0, .leave, .schedule, .take,
    .enqueue (.control (Path.pathCreditFrame 64) none true), .schedule, .take]

/-- A packet that can be sent is left alone, after a cancellation, after a refused frame, and behind a raw stream that
is over. -/
theorem runnable_packet_left :
    (∃ s, (txSystem (nativePaths .left) 32).Reachable s ∧ s.resting = true ∧ ¬s.path.Blocked 32 ∧
      s.owed = [] ∧ s.path.txDataQueued = 1) ∧
    (∃ s, (txSystem (nativePaths .left) 32).Reachable s ∧ s.resting = true ∧ ¬s.path.Blocked 32) ∧
    ∃ s, (txSystem (nativePaths .left) 32).ReachableVia (fun s action => s.rechecks action = true) s ∧
      s.resting = true ∧ ¬s.path.Blocked 32 ∧ s.path.txPosted = [] ∧ s.path.txControlQueued = 1 := by
  have sendable : ∀ (p : Path) (packet : TxPacket), p.selectTx = some (packet, false) →
      (p.ringAllows 32 packet false && p.creditAllows packet) = true → ¬p.Blocked 32 := by
    intro p packet selected allowed blocked
    rw [blocked.next packet false selected] at allowed
    cases allowed
  let next : TxPacket := { packetOf 2 with startCreditGroupFrames := 1 }
  refine ⟨?_, ?_, ?_⟩
  · obtain ⟨s, reachable, left⟩ := System.exists_reachableVia (txSystem (nativePaths .left) 32) (fun _ _ => True)
      (waitingRun ++ [.cancel (.owner 1) true])
      (fun s => s.resting = true ∧ s.path.selectTx = some (next, false) ∧
        (s.path.ringAllows 32 next false && s.path.creditAllows next) = true ∧ s.owed = [] ∧
          s.path.txDataQueued = 1) rfl (by decide +kernel)
    simp only [decide_eq_true_eq] at left
    obtain ⟨resting, selected, allowed, owed, queued⟩ := left
    exact ⟨s, reachable, resting, sendable _ _ selected allowed, owed, queued⟩
  · obtain ⟨s, reachable, left⟩ := System.exists_reachableVia (txSystem (nativePaths .left) 32) (fun _ _ => True)
      [.enableTunnel, .enqueue (.data (packetOf 2)), .schedule, .take, .post (some .eNoMem), .aborted]
      (fun s => s.resting = true ∧ s.path.selectTx = some (next, false) ∧
        (s.path.ringAllows 32 next false && s.path.creditAllows next) = true) rfl (by decide +kernel)
    simp only [decide_eq_true_eq] at left
    obtain ⟨resting, selected, allowed⟩ := left
    exact ⟨s, reachable, resting, sendable _ _ selected allowed⟩
  · obtain ⟨s, reachable, left⟩ := System.exists_reachableVia (txSystem (nativePaths .left) 32)
      (fun s action => s.rechecks action = true) staleRun
      (fun s => s.resting = true ∧ s.path.selectTx = none ∧ s.path.txControlQueue ≠ [] ∧ s.path.txPosted = [] ∧
        s.path.txControlQueued = 1) rfl (by decide +kernel)
    simp only [decide_eq_true_eq] at left
    obtain ⟨resting, nothing, waits, empty, queued⟩ := left
    refine ⟨s, reachable, resting, fun blocked => ?_, empty, queued⟩
    rcases blocked.none nothing with ⟨control, -⟩ | ⟨-, packet, member, -⟩
    · exact waits control
    · rw [empty] at member
      cases member

end ThunderboltVerbs.DataPath
