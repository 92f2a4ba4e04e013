import ThunderboltVerbs.DataPath.FramingMoves

/-!
# Runs in which no raw stream is broken (`kernel/path.c`)
-/

namespace ThunderboltVerbs.DataPath
open Proto Lib

/-! ## What a step does to the view -/

/-- The step makes a move, and what is recorded of it is the move's event. -/
def TxWire.Follows (w w' : TxWire) : Prop :=
  ∃ event, w.threads.view.Moves event w'.threads.view ∧ w'.ring = w.ring ++ event.ring ∧
    w'.control = w.control ++ event.control ∧ w'.data = w.data ++ event.data ∧ (event = .opens → w.data = [])

namespace TxWire

variable {w : TxWire} {threads : TxThreads}

theorem follows_quiet (moves : w.threads.view.Moves .quiet threads.view) : w.Follows { w with threads } :=
  ⟨.quiet, moves, by simp [TxEvent.ring], by simp [TxEvent.control], by simp [TxEvent.data], by simp⟩

theorem follows_same (same : threads.view = w.threads.view) : w.Follows { w with threads } := by
  apply follows_quiet
  rw [same]
  exact .same

theorem map_bare_markGroup {packets : List TxPacket} (fresh : packets.all TxPacket.fresh = true) (count : Nat) :
    (Path.markGroup packets count).map TxPacket.bare = packets.map TxPacket.bare := by
  cases packets with
  | nil => rfl
  | cons first rest =>
      simp only [Path.markGroup, List.map_cons, List.map_map]
      rfl

theorem flatten_unitsOf (packets : List TxPacket) : (unitsOf packets).flatten = packets := by
  unfold unitsOf
  split
  · simp
  · induction packets with
    | nil => rfl
    | cons packet rest ih =>
        rename_i plain
        rw [List.map_cons, List.flatten_cons, ih (by simp_all)]
        rfl

/-- What is queued goes to the end of its queue, marked as a group, or was nothing. -/
theorem enqueue_cases {what : Enqueue} {path : Path} (fresh : what.fresh = true)
    (queued : threads.path.enqueue what = .ok path) :
    (∃ packet, packet.ofStream = false ∧ what.units = [] ∧ what.controlFrames = [packet.frame] ∧
        ({ threads with path } : TxThreads).view =
          { threads.view with control := threads.view.control ++ [packet] }) ∨
      ∃ packets, packets.map TxPacket.bare = what.units.flatten.map TxPacket.bare ∧ what.controlFrames = [] ∧
        ({ threads with path } : TxThreads).view = { threads.view with data := threads.view.data ++ packets } := by
  have spliced {packets : List TxPacket} (plain : packets.all TxPacket.fresh = true) :
      (Path.markGroup packets packets.length).map TxPacket.bare = (unitsOf packets).flatten.map TxPacket.bare := by
    rw [map_bare_markGroup plain, flatten_unitsOf]
  cases what with
  | control frame done alloc =>
      simp only [Path.enqueue, Path.enqueueControl] at queued
      split at queued
      · cases queued
      split at queued
      · cases queued
      split at queued
      · cases queued
      cases queued
      let packet : TxPacket :=
        { frame, done, ownerCtx := done, control := true, pooled := decide (threads.path.txControlFree ≠ 0) }
      exact .inl ⟨packet, rfl, rfl, rfl, rfl⟩
  | data packet =>
      simp only [Path.enqueue, Path.enqueueData] at queued
      split at queued
      · cases queued
      split at queued
      · cases queued
      cases queued
      exact .inr ⟨[{ packet with startCreditGroupFrames := 1 }], rfl, rfl, rfl⟩
  | list packets =>
      simp only [Path.enqueue, Path.enqueueDataList] at queued
      split at queued
      · rename_i empty
        cases queued
        obtain rfl := List.length_eq_zero_iff.mp empty
        exact .inr ⟨[], rfl, rfl, by rw [List.append_nil]⟩
      split at queued
      · cases queued
      split at queued
      · cases queued
      · cases queued
        exact .inr ⟨Path.markGroup packets packets.length, spliced fresh, rfl, rfl⟩
  | reserved packets =>
      simp only [Path.enqueue, Path.enqueueReservedDataList] at queued
      split at queued
      · rename_i empty
        cases queued
        obtain rfl := List.length_eq_zero_iff.mp empty
        exact .inr ⟨[], rfl, rfl, by rw [List.append_nil]⟩
      split at queued
      · cases queued
      split at queued
      · cases queued
      · cases queued
        exact .inr ⟨Path.markGroup packets packets.length, spliced fresh, rfl, rfl⟩

theorem follows_enqueue {what : Enqueue} {path : Path} (fresh : what.fresh = true)
    (whole : what.units.all isUnit = true) (queued : w.threads.path.enqueue what = .ok path) :
    ∃ event, w.threads.view.Moves event ({ w.threads with path } : TxThreads).view ∧ event.ring = [] ∧
      event.control = what.controlFrames ∧ event.data = what.units.map framesOf ∧ event ≠ .opens := by
  rcases enqueue_cases fresh queued with ⟨packet, plain, units, frames, view⟩ | ⟨packets, same, frames, view⟩
  · rw [view, units, frames]
    exact ⟨.queuesControl packet.frame, .queueControl plain, rfl, rfl, rfl, by simp⟩
  · rw [view, frames]
    refine ⟨.queuesData (what.units.map (List.map TxPacket.bare)), .queueData ?_ ?_, rfl, rfl, ?_, by simp⟩
    · intro unit member
      obtain ⟨old, inside, rfl⟩ := List.mem_map.mp member
      rw [isUnit_bare]
      exact List.all_eq_true.mp whole old inside
    · rw [same, List.map_flatten]
    · simp [TxEvent.data, Function.comp_def]

theorem selectTx_raw {p : Path} {packet : TxPacket} {fromControlQueue : Bool}
    (selected : p.selectTx = some (packet, fromControlQueue)) :
    (fromControlQueue = true → p.txRawStream.active = false) ∧
      (fromControlQueue = false → p.txRawStream.active = true → packet.inStream p.txRawStream.owner = true) := by
  unfold Path.selectTx at selected
  split at selected
  · cases selected
  cases active : p.txRawStream.active with
  | false => simp
  | true =>
      rw [if_pos active] at selected
      split at selected
      · cases selected
      · split at selected
        · cases selected
        · rename_i allowed
          cases selected
          simp only [Bool.or_eq_true, Bool.not_eq_true', decide_eq_true_eq, not_or, Bool.not_eq_false,
            Bool.not_eq_true, ne_eq, not_not] at allowed
          simp [TxPacket.inStream, allowed.1.1, allowed.1.2, allowed.2]

theorem selectTx_up {p : Path} {packet : TxPacket} {fromControlQueue : Bool}
    (selected : p.selectTx = some (packet, fromControlQueue)) : p.state = .tunnelEnabled := by
  by_contra down
  simp [Path.selectTx, down] at selected

theorem view_taken {s : TxThreads} {limit : Nat} {packet : TxPacket} {fromControlQueue : Bool}
    (taken : s.path.scheduleTake limit = s.path.takeTx packet fromControlQueue) :
    (s.take limit).view =
      { s.view with
        control := if fromControlQueue then s.path.txControlQueue.tail else s.path.txControlQueue
        data := if fromControlQueue then s.path.txDataQueue else s.path.txDataQueue.tail
        raw := (countRaw s.path.txRawStream { packet with startCreditGroupFrames := 0 }).1
        posting := some
          { packet := (countRaw s.path.txRawStream { packet with startCreditGroupFrames := 0 }).2
            fromControlQueue
            oldRaw := s.path.txRawStream } } := by
  simp only [TxThreads.view, TxThreads.take, taken]
  rfl

theorem view_stopped {s : TxThreads} {limit : Nat} (looping : s.path.scheduler = .looping)
    (stopped : s.path.scheduleTake limit = { s.path with scheduler := .idle }) : (s.take limit).view = s.view := by
  simp [TxThreads.view, TxThreads.take, stopped, looping, Scheduler.posting?]

/-- What the scheduler does with the next packet. -/
theorem scheduleTake_cases (p : Path) (limit : Nat) :
    p.scheduleTake limit = { p with scheduler := .idle } ∨
      ∃ packet fromControlQueue, p.selectTx = some (packet, fromControlQueue) ∧
        p.scheduleTake limit = p.takeTx packet fromControlQueue := by
  unfold Path.scheduleTake
  cases selected : p.selectTx with
  | none => exact .inl rfl
  | some choice =>
      simp only
      split
      · exact .inr ⟨choice.1, choice.2, rfl, rfl⟩
      · exact .inl rfl

theorem follows_take (inv : w.threads.Inv) (limit : Nat) (looping : w.threads.path.scheduler = .looping) :
    w.threads.view.Moves .quiet (w.threads.take limit).view := by
  have free : w.threads.view.posting = none := by simp [TxThreads.view, looping, Scheduler.posting?]
  rcases scheduleTake_cases w.threads.path limit with stopped | ⟨packet, fromControlQueue, selected, taken⟩
  · rw [view_stopped looping stopped]
    exact .same
  · obtain ⟨fromControl, fromData⟩ := selectTx_raw selected
    have up := selectTx_up selected
    rw [view_taken taken]
    rcases LinkEnd.selectTx_head selected with ⟨rfl, rest, queue⟩ | ⟨rfl, rest, queue⟩
    · have uncounted := (inv.control packet (by rw [queue]; exact List.mem_cons_self)).2.2.1
      simp only [queue, List.tail_cons, if_true]
      exact .takeControl free up queue rfl uncounted (fromControl rfl)
    · have uncounted := (inv.data packet (by rw [queue]; exact List.mem_cons_self)).2
      simp only [queue, List.tail_cons, Bool.false_eq_true, if_false]
      exact .takeData free up queue rfl uncounted (fromData rfl)

theorem counted_eq (packets completing : List TxPacket) (packet : TxPacket) :
    (((packets ++ [packet] : List TxPacket) : Multiset TxPacket) + completing).filter
        (fun packet => packet.rawStreamCounted = true) =
      packet.countedIn +
        ((packets : Multiset TxPacket) + completing).filter fun packet => packet.rawStreamCounted = true := by
  rw [← Multiset.coe_add, Multiset.filter_add, Multiset.filter_add, Multiset.filter_add]
  have one : (([packet] : List TxPacket) : Multiset TxPacket).filter (fun packet => packet.rawStreamCounted = true) =
      packet.countedIn := by
    rw [Multiset.coe_singleton, Multiset.filter_singleton]
    rfl
  rw [one, Multiset.add_comm _ packet.countedIn, Multiset.add_assoc]

theorem view_posted (s : TxThreads) (packet : TxPacket) :
    ({ s with path := s.path.posted packet, frames := s.frames.hand } : TxThreads).view =
      { s.view with posting := none, counted := packet.countedIn + s.view.counted } := by
  simp only [TxThreads.view, Path.posted, Scheduler.posting?, counted_eq]

theorem follows_posted {packet : TxPacket} {fromControlQueue charged : Bool} {oldRaw : RawStream} {oldStart : Nat}
    (posting : w.threads.path.scheduler = .posting packet fromControlQueue charged oldRaw oldStart) :
    w.threads.view.Moves (.hands packet.frame)
      ({ w.threads with path := w.threads.path.posted packet, frames := w.threads.frames.hand } : TxThreads).view := by
  have post : w.threads.view.posting = some { packet, fromControlQueue, oldRaw } := by
    simp [TxThreads.view, posting, Scheduler.posting?]
  rw [view_posted]
  exact .hand post

/-- A refused packet is dropped, or goes back to the front of its queue. -/
theorem view_refused {s : TxThreads} (inv : s.Inv) {packet : TxPacket} {fromControlQueue charged : Bool}
    {oldRaw : RawStream} {oldStart : Nat} {error : Errno}
    (posting : s.path.scheduler = .posting packet fromControlQueue charged oldRaw oldStart) :
    (s.refused packet fromControlQueue charged oldRaw oldStart error).view =
      if s.path.requeues packet error then
        if fromControlQueue then
          { s.view with
            posting := none
            raw := oldRaw
            control := { packet with rawStreamCounted := false } :: s.view.control }
        else
          { s.view with
            posting := none
            raw := oldRaw
            data := { packet with rawStreamCounted := false, startCreditGroupFrames := oldStart } :: s.view.data }
      else { s.view with posting := none, raw := oldRaw } := by
  obtain ⟨source, -, -⟩ := inv.posting packet fromControlQueue charged oldRaw oldStart posting
  cases requeued : s.path.requeues packet error with
  | false =>
      simp [TxThreads.view, TxThreads.refused, Path.postFailed, requeued, Path.dropTx, Path.rollBackPost,
        Scheduler.posting?]
  | true =>
      cases control : fromControlQueue with
      | true | false =>
          simp [TxThreads.view, TxThreads.refused, Path.postFailed, requeued, Path.requeueTx, Path.rollBackPost,
            Scheduler.posting?, source, control]

theorem requeues_stream {p : Path} {packet : TxPacket} {error : Errno} (full : error = .eNoMem)
    (up : p.state = .tunnelEnabled) (dropped : p.requeues packet error = false) : packet.ownerCtx = none := by
  simp only [Path.requeues, full, up, decide_true, Bool.true_and, Bool.or_eq_false_iff] at dropped
  simpa using dropped.2

theorem follows_refused (inv : w.threads.Inv) {packet : TxPacket} {fromControlQueue charged : Bool} {oldRaw : RawStream}
    {oldStart : Nat} {error : Errno}
    (posting : w.threads.path.scheduler = .posting packet fromControlQueue charged oldRaw oldStart)
    (allowed : error = .eNoMem ∨ packet.ofStream = false) :
    w.threads.view.Moves .quiet
      (w.threads.refused packet fromControlQueue charged oldRaw oldStart error).view := by
  have post : w.threads.view.posting = some { packet, fromControlQueue, oldRaw } := by
    simp [TxThreads.view, posting, Scheduler.posting?]
  rw [view_refused inv posting]
  cases requeued : w.threads.path.requeues packet error with
  | false =>
      refine .lose post ?_
      intro up part
      exact requeues_stream (allowed.resolve_right (by simp [part])) up requeued
  | true =>
      cases control : fromControlQueue with
      | true =>
          rw [control] at post
          exact .putBackControl post rfl rfl
      | false =>
          rw [control] at post
          exact .putBackData post rfl rfl

theorem coe_eraseIdx {packets : List TxPacket} {i : Nat} {packet : TxPacket} (found : packets[i]? = some packet) :
    (packets : Multiset TxPacket) = packet ::ₘ (packets.eraseIdx i : Multiset TxPacket) := by
  obtain ⟨bound, rfl⟩ := List.getElem?_eq_some_iff.mp found
  exact Multiset.coe_eq_coe.mpr (List.getElem_cons_eraseIdx_perm bound).symm

theorem follows_complete {i : Nat} (completed : w.threads.complete i = some threads) :
    threads.view = w.threads.view := by
  simp only [TxThreads.complete, Option.map_eq_some_iff] at completed
  obtain ⟨packet, found, rfl⟩ := completed
  have moved : ((w.threads.path.txPosted.eraseIdx i : List TxPacket) : Multiset TxPacket) +
      ((w.threads.completing ++ [packet] : List TxPacket) : Multiset TxPacket) =
        (w.threads.path.txPosted : Multiset TxPacket) + w.threads.completing := by
    rw [coe_eraseIdx found, ← Multiset.coe_add, Multiset.coe_singleton, Multiset.cons_add,
      ← Multiset.singleton_add packet, Multiset.add_comm {packet}, Multiset.add_assoc]
  simp only [TxThreads.view, moved]

/-- A packet that no stream counts is nothing to the view. -/
theorem view_finish {s t : TxThreads} {i : Nat} (finished : s.finish i = some t) :
    t.view = s.view ∨ ∃ packet counted, packet.rawStreamCounted = true ∧ s.view.counted = packet ::ₘ counted ∧
      t.view = { s.view with raw := Path.finishRawStream s.view.raw packet, counted } := by
  simp only [TxThreads.finish, Option.map_eq_some_iff] at finished
  obtain ⟨packet, found, rfl⟩ := finished
  cases counts : packet.rawStreamCounted with
  | false =>
      have raw : Path.finishRawStream s.path.txRawStream packet = s.path.txRawStream := by
        simp [Path.finishRawStream, counts]
      have kept : s.view.counted = ((s.path.txPosted : Multiset TxPacket) +
          (s.completing.eraseIdx i : Multiset TxPacket)).filter fun packet => packet.rawStreamCounted = true := by
        simp only [TxThreads.view]
        rw [coe_eraseIdx found, Multiset.add_cons, Multiset.filter_cons_of_neg _ (by simp [counts])]
      refine .inl ?_
      simp only [TxThreads.view, raw] at kept ⊢
      rw [kept]
  | true =>
      refine .inr ⟨packet, _, counts, ?_, rfl⟩
      simp only [TxThreads.view]
      rw [coe_eraseIdx found, Multiset.add_cons, Multiset.filter_cons_of_pos _ (by simp [counts])]

theorem follows_finish {i : Nat} (finished : w.threads.finish i = some threads) :
    w.threads.view.Moves .quiet threads.view := by
  rcases view_finish finished with same | ⟨packet, counted, counts, found, after⟩
  · rw [same]
    exact .same
  · rw [after]
    exact .finish counts found

/-- What a cancellation may do to a packet in the ring. -/
def Touched (key : CancelKey) (packet packet' : TxPacket) : Prop :=
  packet' = packet ∨ key.matches packet = true ∧ packet' = { packet with done := none, ownerCtx := none }

theorem Touched.trans {key : CancelKey} {first second third : TxPacket} (one : Touched key first second)
    (two : Touched key second third) : Touched key first third := by
  rcases one with rfl | ⟨hit, rfl⟩
  · exact two
  · rcases two with rfl | ⟨-, rfl⟩ <;> exact .inr ⟨hit, rfl⟩

theorem cancelRecordDone_touched (key : CancelKey) (walked : TxPacket → Bool) (room : Nat) (packets : List TxPacket) :
    List.Forall₂ (Touched key) packets (cancelRecordDone key walked room packets).1 := by
  induction packets generalizing room with
  | nil => exact .nil
  | cons packet rest ih =>
      simp only [cancelRecordDone]
      cases packet.done with
      | none => exact .cons (.inl rfl) (ih room)
      | some ctx =>
          simp only
          split
          · rename_i walks
            simp only [Bool.and_eq_true] at walks
            exact .cons (.inr ⟨walks.1.2, rfl⟩) (ih (room - 1))
          · exact .cons (.inl rfl) (ih room)

theorem cancelInRing_touched (key : CancelKey) (room : Nat) (packets : List TxPacket) :
    List.Forall₂ (Touched key) packets (cancelInRing key room packets).1 := by
  have first := cancelRecordDone_touched key (fun packet => !packet.zcopy && !packet.control) room packets
  simp only [cancelInRing]
  generalize cancelRecordDone key (fun packet => !packet.zcopy && !packet.control) room packets = outcome at first ⊢
  obtain ⟨staged, _, left⟩ := outcome
  have second := cancelRecordDone_touched key (fun packet => packet.zcopy) left staged
  simp only at first ⊢
  generalize (cancelRecordDone key (fun packet => packet.zcopy) left staged).1 = last at second ⊢
  induction first generalizing last with
  | nil =>
      cases second
      exact .nil
  | cons here _ ih =>
      cases second with
      | cons there rest => exact .cons (here.trans there) (ih _ rest)

theorem filter_touched (test : TxPacket → Bool) {key : CancelKey} {packets packets' : List TxPacket}
    (cleared : ∀ packet, test packet = false → test { packet with done := none, ownerCtx := none } = false)
    (touched : List.Forall₂ (Touched key) packets packets')
    (unmatched : ∀ packet ∈ packets, test packet = true → key.matches packet = false) :
    packets'.filter test = packets.filter test := by
  induction touched with
  | nil => rfl
  | @cons packet packet' rest rest' here _ ih =>
      have later := ih fun other member => unmatched other (List.mem_cons_of_mem _ member)
      cases passes : test packet with
      | true =>
          have missed := unmatched packet List.mem_cons_self passes
          obtain rfl : packet' = packet := here.resolve_right (by simp [missed])
          rw [List.filter_cons_of_pos passes, List.filter_cons_of_pos passes, later]
      | false =>
          have fails : test packet' = false := by
            rcases here with rfl | ⟨-, rfl⟩
            · exact passes
            · exact cleared packet passes
          simp [passes, fails, later]

theorem posting_touched (p : Path) (key : CancelKey) (visible : Bool) (packets : List TxPacket)
    (touched : List.Forall₂ (Touched key) (if visible then p.scheduler.packet?.toList else []) packets) :
    (p.scheduler.withPacket packets.head?).posting? = p.scheduler.posting? ∨
      ∃ post, p.scheduler.posting? = some post ∧ key.matches post.packet = true ∧
        (p.scheduler.withPacket packets.head?).posting? =
          some { post with packet := { post.packet with done := none, ownerCtx := none } } := by
  cases scheduler : p.scheduler with
  | idle | looping | releasing => exact .inl rfl
  | posting packet fromControlQueue charged oldRaw oldStart =>
      cases visible with
      | false =>
          cases touched
          exact .inl rfl
      | true =>
          simp only [scheduler, Scheduler.packet?_posting, Option.toList_some, if_true] at touched
          cases touched with
          | cons here rest =>
              cases rest
              rcases here with rfl | ⟨hit, rfl⟩
              · exact .inl rfl
              · exact .inr ⟨{ packet, fromControlQueue, oldRaw }, rfl, hit, rfl⟩

theorem spares_of_unbroken {key : CancelKey} {visible : Bool} (unbroken : w.unbroken (.cancel key visible) = true) :
    w.threads.view.Spares key ∧ w.threads.path.rawStreamCanceled key = false := by
  have posting : ∀ post, w.threads.view.posting = some post →
      w.threads.path.scheduler.packet? = some post.packet := by
    intro post here
    simp only [TxThreads.view] at here
    cases scheduler : w.threads.path.scheduler with
    | idle | looping | releasing => simp [scheduler, Scheduler.posting?] at here
    | posting packet fromControlQueue charged oldRaw oldStart =>
        simp only [scheduler, Scheduler.posting?, Option.some.injEq] at here
        rw [← here]
        rfl
  cases key with
  | owner ctx =>
      simp only [TxWire.unbroken, Bool.and_eq_true, Bool.not_eq_true'] at unbroken
      obtain ⟨other, posted⟩ := unbroken
      refine ⟨.owner ctx ?_ ?_, other⟩
      · intro active owner
        have active' : w.threads.path.txRawStream.active = true := active
        have owner' : w.threads.path.txRawStream.owner = some ctx := owner
        simp [Path.rawStreamCanceled, active', owner'] at other
      · intro post here part owner
        rw [posting post here] at posted
        simp [part, owner] at posted
  | done ctx =>
      have untouched : ∀ packet ∈ w.held, packet.ofStream = true → (CancelKey.done ctx).matches packet = false := by
        intro packet member part
        have kept := List.all_eq_true.mp unbroken packet member
        simpa [part, CancelKey.matches] using kept
      refine ⟨.done _ ?_ ?_ ?_, rfl⟩
      · intro packet member
        exact untouched packet (by simp [held, show packet ∈ w.threads.path.txDataQueue from member])
      · intro packet member
        simp only [TxThreads.view, Multiset.mem_filter, Multiset.mem_add, Multiset.mem_coe] at member
        apply untouched packet
        rcases member.1 with inside | inside <;> simp [held, inside]
      · intro post here
        exact untouched post.packet (by simp [held, posting post here])

theorem posted_touched (p : Path) (key : CancelKey) (visible : Bool) :
    List.Forall₂ (Touched key) p.txPosted (p.cancelDataMatch key visible).1.txPosted := by
  have touched := cancelInRing_touched key (max p.txFrameCount 1) (p.inRing visible)
  have posted := List.forall₂_take p.txPosted.length touched
  rwa [Path.inRing, List.take_left] at posted

theorem held_touched (p : Path) (key : CancelKey) (visible : Bool) :
    (p.cancelDataMatch key visible).1.scheduler.posting? = p.scheduler.posting? ∨
      ∃ post, p.scheduler.posting? = some post ∧ key.matches post.packet = true ∧
        (p.cancelDataMatch key visible).1.scheduler.posting? =
          some { post with packet := { post.packet with done := none, ownerCtx := none } } := by
  have touched := cancelInRing_touched key (max p.txFrameCount 1) (p.inRing visible)
  have extra := List.forall₂_drop p.txPosted.length touched
  rw [Path.inRing, List.drop_left] at extra
  exact posting_touched p key visible _ extra

theorem view_cancel (s : TxThreads) (key : CancelKey) (visible : Bool) :
    (s.cancel key visible).view =
      { s.view with
        data := s.path.txDataQueue.filter fun packet => !key.matches packet
        raw := if s.path.rawStreamCanceled key then {} else s.path.txRawStream
        posting := (s.path.cancelDataMatch key visible).1.scheduler.posting?
        counted := (((s.path.cancelDataMatch key visible).1.txPosted : Multiset TxPacket) + s.completing).filter
          fun packet => packet.rawStreamCounted = true } := rfl

theorem follows_cancel {key : CancelKey} {visible : Bool} (unbroken : w.unbroken (.cancel key visible) = true) :
    w.threads.view.Moves .quiet (w.threads.cancel key visible).view := by
  obtain ⟨spares, notRaw⟩ := spares_of_unbroken unbroken
  have view := view_cancel w.threads key visible
  rw [notRaw, if_neg Bool.false_ne_true] at view
  rw [view]
  refine .cancel spares ?_ (held_touched w.threads.path key visible)
  intro unmatched
  have kept := filter_touched TxPacket.rawStreamCounted (fun _ fresh => fresh)
    (posted_touched w.threads.path key visible) fun packet member counts => unmatched packet (by
      simp [TxThreads.view, member, counts])
  simp only [TxThreads.view, Multiset.filter_add, Multiset.filter_coe, Bool.decide_eq_true]
  rw [kept]

theorem follows_flush (flushed : w.threads.flush = some threads) : w.threads.view.Moves .quiet threads.view := by
  simp only [TxThreads.flush] at flushed
  split at flushed
  · cases flushed
  · cases flushed
    have view : ({ w.threads with
        path := w.threads.path.flushTxQueue
        releasing := w.threads.releasing ++ w.threads.path.txControlQueue ++ w.threads.path.txDataQueue } :
          TxThreads).view =
        { w.threads.view with enabled := False, control := [], data := [], raw := {} } := by
      simp [TxThreads.view, Path.flushTxQueue]
    rw [view]
    exact .down (List.nil_sublist _)

theorem follows_up (unbroken : w.unbroken .enableTunnel = true) :
    w.Follows { w with threads := { w.threads with path := { w.threads.path with state := .tunnelEnabled } } } := by
  simp only [TxWire.unbroken, Bool.and_eq_true, decide_eq_true_eq] at unbroken
  obtain ⟨⟨unsent, vacant⟩, raw⟩ := unbroken
  simp only [held, List.append_eq_nil_iff, Option.toList_eq_nil_iff] at vacant
  obtain ⟨⟨⟨queue, posted⟩, completing⟩, away⟩ := vacant
  have posting : w.threads.view.posting = none := by
    cases scheduler : w.threads.path.scheduler with
    | idle | looping | releasing => simp [TxThreads.view, scheduler, Scheduler.posting?]
    | posting packet fromControlQueue charged oldRaw oldStart => simp [scheduler] at away
  have view : ({ w.threads with path := { w.threads.path with state := .tunnelEnabled } } : TxThreads).view =
      { w.threads.view with enabled := True } := by
    simp [TxThreads.view]
  refine ⟨.opens, ?_, by simp [TxEvent.ring], by simp [TxEvent.control], by simp [TxEvent.data], fun _ => unsent⟩
  show w.threads.view.Moves .opens
    ({ w.threads with path := { w.threads.path with state := .tunnelEnabled } } : TxThreads).view
  rw [view]
  exact .up queue posting (by simp [TxThreads.view, posted, completing]) raw

/-- Every step of a run in which no stream is broken is a move. -/
theorem follows (inv : w.threads.Inv) {limit : Nat} {action : TxAction} {w' : TxWire}
    (unbroken : w.unbroken action = true) (stepped : w.step limit action = some w') : w.Follows w' := by
  simp only [TxWire.step, Option.map_eq_some_iff] at stepped
  obtain ⟨threads, stepped, rfl⟩ := stepped
  cases action with
  | enableTunnel =>
      simp only [TxThreads.step] at stepped
      split at stepped
      · cases stepped
        exact follows_up unbroken
      · cases stepped
  | disableTunnel =>
      simp only [TxThreads.step] at stepped
      split at stepped
      · cases stepped
        have view : ({ w.threads with path := { w.threads.path with state := .ringStarted } } : TxThreads).view =
            { w.threads.view with
              enabled := False, control := w.threads.view.control, data := w.threads.view.data
              raw := w.threads.view.raw } := by
          simp [TxThreads.view]
        apply follows_quiet
        rw [view]
        exact .down (List.Sublist.refl _)
      · cases stepped
  | enqueue what =>
      simp only [TxThreads.step] at stepped
      split at stepped
      · rename_i fresh
        cases stepped
        cases queued : w.threads.path.enqueue what with
        | error error =>
            simp only [record, TxThreads.enqueue, queued, Except.isOk, Except.toBool, Bool.false_eq_true, if_false]
            exact follows_same rfl
        | ok path =>
            obtain ⟨event, moves, ring, control, data, shut⟩ := follows_enqueue fresh unbroken queued
            refine ⟨event, ?_, ?_, ?_, ?_, fun opens => absurd opens shut⟩
            all_goals simp only [record, TxThreads.enqueue, queued, Except.isOk, Except.toBool, if_true]
            · exact moves
            · rw [ring, List.append_nil]
            · rw [control]
            · rw [data]
      · cases stepped
  | reserve frames =>
      simp only [TxThreads.step] at stepped
      split at stepped
      · cases stepped
        exact follows_same rfl
      · rename_i path reserved
        cases stepped
        obtain rfl := reserveData_eq reserved
        exact follows_same rfl
  | release frames =>
      cases stepped
      exact follows_same rfl
  | addCredits credits =>
      cases stepped
      obtain ⟨received, path, -⟩ := TxThreads.addRemoteRxCredits_eq w.threads.path credits
      apply follows_same
      simp only [TxThreads.addCredits, path, TxThreads.view]
  | setCapacity rxRingSize =>
      cases stepped
      exact follows_same rfl
  | schedule =>
      simp only [TxThreads.step, Path.scheduleEnter] at stepped
      split at stepped
      · cases stepped
      cases stepped
      apply follows_same
      split
      · rename_i idle
        simp [TxThreads.view, idle, Scheduler.posting?]
      · rfl
  | take =>
      simp only [TxThreads.step] at stepped
      split at stepped
      · rename_i looping
        cases stepped
        exact follows_quiet (follows_take inv limit looping)
      · cases stepped
  | post error =>
      simp only [TxThreads.step, TxThreads.post] at stepped
      split at stepped
      · rename_i packet fromControlQueue charged oldRaw oldStart posting
        cases error with
        | none =>
            cases stepped
            refine ⟨.hands packet.frame, follows_posted posting, ?_, ?_, ?_, by simp⟩
            · simp [record, posting, TxEvent.ring, framesOf]
            · simp [record, TxEvent.control]
            · simp [record, TxEvent.data]
        | some error =>
            cases stepped
            have allowed : error = .eNoMem ∨ packet.ofStream = false := by
              simpa [TxWire.unbroken, posting] using unbroken
            exact follows_quiet (follows_refused inv posting allowed)
      · cases stepped
  | aborted =>
      simp only [TxThreads.step, TxThreads.aborted] at stepped
      split at stepped
      · cases stepped
      · cases stepped
        exact follows_same rfl
  | drop =>
      simp only [TxThreads.step, TxThreads.drop] at stepped
      split at stepped
      · cases stepped
      · cases stepped
        exact follows_same rfl
      · cases stepped
        exact follows_same rfl
  | released =>
      simp only [TxThreads.step, TxThreads.released] at stepped
      split at stepped
      · rename_i releasing
        cases stepped
        apply follows_same
        simp [TxThreads.view, releasing.1, Scheduler.posting?]
      · cases stepped
  | complete i => exact follows_same (follows_complete stepped)
  | finish i => exact follows_quiet (follows_finish stepped)
  | leave =>
      simp only [TxThreads.step, TxThreads.leave] at stepped
      split at stepped
      · cases stepped
      · cases stepped
        exact follows_same rfl
  | cancel key visible =>
      cases stepped
      exact follows_quiet (follows_cancel unbroken)
  | flush => exact follows_quiet (follows_flush stepped)
  | releasePacket i =>
      simp only [TxThreads.step, TxThreads.releasePacket, Option.map_eq_some_iff] at stepped
      obtain ⟨packet, -, rfl⟩ := stepped
      exact follows_same rfl
  | callOwed i =>
      simp only [TxThreads.step, TxThreads.callOwed, Option.map_eq_some_iff] at stepped
      obtain ⟨ctx, -, rfl⟩ := stepped
      exact follows_same rfl

end TxWire

/-! ## Runs -/

/-- The ring has taken whole units, and `opened` of a stream whose other frames are `rest`. The control frames and
the data units are some of those that were queued, each once and in their order. -/
structure TxWire.TakenWhole (w : TxWire) (control : List WireFrame) (data : List (List WireFrame))
    (opened rest : List WireFrame) : Prop where
  ring : ∃ whole, Woven (control.map fun frame => [frame]) data whole ∧ w.ring = whole ++ opened
  control : control.Sublist w.control
  data : (data ++ if opened = [] then [] else [opened ++ rest]).Sublist w.data
  unfinished : opened ≠ [] → rest ≠ []

def TxWire.Unbroken (w : TxWire) : Prop := ∃ g, Framed w.threads.view w.ring w.control w.data g

theorem Framed.takenWhole {w : TxWire} {g : Progress} (framed : Framed w.threads.view w.ring w.control w.data g) :
    ∃ rest, w.TakenWhole g.controlOut g.dataOut (framesOf g.opened) rest := by
  have control : g.controlOut.Sublist w.control := (List.sublist_append_left _ _).trans framed.controlOrder
  rcases framed.cut.split with ⟨closed, -⟩ | ⟨rest, later, unfinished, here, -⟩
  · refine ⟨[], ⟨g.whole, framed.woven, framed.ring⟩, control, ?_, fun opened => absurd (by simp [closed, framesOf]) opened⟩
    rw [closed]
    simpa [framesOf] using (List.sublist_append_left _ _).trans framed.dataOrder
  · refine ⟨framesOf rest, ⟨g.whole, framed.woven, framed.ring⟩, control, ?_, fun _ => by simpa [framesOf] using unfinished⟩
    refine List.Sublist.trans ?_ framed.dataOrder
    rw [here, List.map_cons, framesOf_append]
    apply (List.Sublist.refl _).append
    split
    · exact List.nil_sublist _
    · exact (List.nil_sublist _).cons_cons _

@[simp] theorem TxWire.record_threads (w : TxWire) (threads : TxThreads) (action : TxAction) :
    (w.record threads action).threads = threads := by
  unfold TxWire.record
  split
  · split <;> rfl
  · rfl
  · rfl

theorem txWire_threads {cfg : PathConfig} {limit : Nat} {ok : TxWire → TxAction → Prop} {w : TxWire}
    (reachable : (txWireSystem cfg limit).ReachableVia ok w) : (txSystem cfg limit).Reachable w.threads := by
  induction reachable with
  | init start => exact .init (by rw [start]; rfl)
  | step _ _ action ih =>
      obtain ⟨threads, stepped, rfl⟩ := Option.map_eq_some_iff.mp action
      rw [TxWire.record_threads]
      exact .step ih trivial stepped

theorem framed_started (cfg : PathConfig) :
    Framed (TxThreads.started cfg).view [] [] [] ⟨[], [], [], [], [], []⟩ where
  woven := .nil
  ring := rfl
  controlOrder := List.nil_sublist _
  dataOrder := List.nil_sublist _
  cut := .between []
  units := by simp
  between := by
    intro post here
    cases here
  plain := by
    intro packet member
    cases member
  tail := by
    intro up
    cases up
  raw := by
    intro up
    cases up

theorem TxWire.unbroken_reachable {cfg : PathConfig} {limit : Nat} {w : TxWire}
    (reachable : (txWireSystem cfg limit).ReachableVia (fun w action => w.unbroken action = true) w) : w.Unbroken := by
  have known : ∀ w, (txWireSystem cfg limit).ReachableVia (fun w action => w.unbroken action = true) w → w.threads.Inv :=
    fun w reached => TxThreads.inv_reachable (txWire_threads reached)
  have base : ∀ w, (txWireSystem cfg limit).init w → w.Unbroken := by
    intro w start
    rw [start]
    exact ⟨_, framed_started cfg⟩
  apply reachable.invariant_with known base
  intro w action w' inv held unbroken stepped
  obtain ⟨g, framed⟩ := held
  obtain ⟨event, moves, ring, control, data, fresh⟩ := TxWire.follows inv unbroken stepped
  rw [TxWire.Unbroken, ring, control, data]
  exact moves.framed framed fresh

/-- Whatever senders, completions, cancellations and refused posts do meanwhile, the frames of a raw stream go out
one behind the other, and every unit goes out whole. -/
theorem raw_streams_unbroken (cfg : PathConfig) (limit : Nat) (w : TxWire)
    (reachable : (txWireSystem cfg limit).ReachableVia (fun w action => w.unbroken action = true) w) :
    ∃ control data opened rest, w.TakenWhole control data opened rest := by
  obtain ⟨g, framed⟩ := TxWire.unbroken_reachable reachable
  obtain ⟨rest, whole⟩ := framed.takenWhole
  exact ⟨_, _, _, rest, whole⟩

def streamPage (done : Nat) (last : Bool) : TxPacket :=
  { frame := { len := 4096, header := none }, done := some done, ownerCtx := some 7, zcopy := true, rawStreamEnd := last }

def streamStart : TxPacket where
  frame :=
    { len := dataHdrSize
      header := some { opcode := .rdmaWrite, flags := flagLast ||| flagRawStream, length := 8192 } }
  done := some 7
  ownerCtx := some 7
  rawStreamStart := true

/-- A control frame is queued while a stream of two pages goes out. -/
def streamRun : List TxAction :=
  [.enableTunnel, .enqueue (.list [streamStart, streamPage 8 false, streamPage 8 true]), .schedule, .take, .post none,
    .enqueue (.control (Path.pathCreditFrame 64) none true), .take, .post none, .take, .post none, .take]

theorem raw_streams_unbroken_streamRun :
    ∃ w, (txWireSystem (nativePaths .left) 32).ReachableVia (fun w action => w.unbroken action = true) w ∧
      w.ring.length = 3 ∧ w.threads.path.txControlQueue.length = 1 ∧
        ∃ control data opened rest, w.TakenWhole control data opened rest := by
  obtain ⟨w, reachable, seen⟩ := System.exists_reachableVia (txWireSystem (nativePaths .left) 32)
    (fun w action => w.unbroken action = true) streamRun
    (fun w => w.ring.length = 3 ∧ w.threads.path.txControlQueue.length = 1) rfl (by decide +kernel)
  have counts : w.ring.length = 3 ∧ w.threads.path.txControlQueue.length = 1 := by simpa using seen
  exact ⟨w, reachable, counts.1, counts.2, raw_streams_unbroken (nativePaths .left) 32 w reachable⟩

end ThunderboltVerbs.DataPath
