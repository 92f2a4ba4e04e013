import ThunderboltVerbs.DataPath.Reservation
import ThunderboltVerbs.Verbs.PostFrames
import ThunderboltVerbs.Verbs.Unwind

/-!
# What posting frames leaves on the paths

After the reservation loop every error gives back what the call holds. The reservation loop itself does so on
the lanes up to the one that refused; from the lanes after it, it takes reservations that it never made.
-/

namespace ThunderboltVerbs.DataPath
open Proto Lib

variable {p : Path} {limit : Nat}

/-! ## Kicking a path -/

/-- The packets of a context that are queued or on the ring. -/
def Path.carried (p : Path) (ctx : Nat) : Nat :=
  tally (TxPacket.carries ctx) (p.txControlQueue ++ p.txDataQueue ++ p.txPosted)

theorem Path.scheduleTake_cases (p : Path) (limit : Nat) :
    p.scheduleTake limit = { p with scheduler := .idle } ∨
      ∃ packet fromControlQueue, p.selectTx = some (packet, fromControlQueue) ∧
        p.scheduleTake limit = p.takeTx packet fromControlQueue := by
  cases selected : p.selectTx with
  | none => exact .inl (by simp [Path.scheduleTake, selected])
  | some choice =>
      obtain ⟨packet, fromControlQueue⟩ := choice
      by_cases allowed : (p.ringAllows limit packet fromControlQueue && p.creditAllows packet) = true
      · exact .inr ⟨packet, fromControlQueue, rfl, by simp [Path.scheduleTake, selected, allowed]⟩
      · exact .inl (by simp [Path.scheduleTake, selected, allowed])

theorem Path.takeTx_carried {packet : TxPacket} {fromControlQueue : Bool}
    (selected : p.selectTx = some (packet, fromControlQueue)) (ctx : Nat) :
    ((p.takeTx packet fromControlQueue).posted
      (p.countRawStream { packet with startCreditGroupFrames := 0 }).2).carried ctx = p.carried ctx := by
  have done : TxPacket.carries ctx { packet with startCreditGroupFrames := 0 } = packet.carries ctx := rfl
  rcases LinkEnd.selectTx_head selected with ⟨rfl, rest, queue⟩ | ⟨rfl, rest, queue⟩
  · simp only [carried, Path.takeTx, Path.posted, queue, List.tail_cons, if_true, tally_append, tally_cons, tally_nil,
      TxThreads.carries_countRawStream, done]
    omega
  · simp only [carried, Path.takeTx, Path.posted, queue, List.tail_cons, if_false, Bool.false_eq_true, tally_append,
      tally_cons, tally_nil, TxThreads.carries_countRawStream, done]
    omega

structure Path.Kicked (p : Path) (outcome : Path × List Nat) : Prop where
  reserved : outcome.1.txDataReserved = p.txDataReserved
  carried : ∀ ctx, outcome.1.carried ctx = p.carried ctx
  silent : outcome.2 = []

theorem Path.scheduleRounds_kicked (limit rounds : Nat) {ringRunning : Bool}
    (running : p.state = .tunnelEnabled → ringRunning = true) :
    p.Kicked (Path.scheduleRounds limit ringRunning rounds p) := by
  induction rounds generalizing p with
  | zero => exact ⟨rfl, fun ctx => rfl, rfl⟩
  | succ rounds ih =>
      rcases p.scheduleTake_cases limit with idle | ⟨packet, fromControlQueue, selected, taken⟩
      · simp only [Path.scheduleRounds, idle]
        exact ⟨rfl, fun ctx => rfl, rfl⟩
      · have enabled : p.state = .tunnelEnabled := by
          by_contra down
          simp [Path.selectTx, down] at selected
        simp only [Path.scheduleRounds, taken, running enabled]
        have later := ih (p := (p.takeTx packet fromControlQueue).posted
          (p.countRawStream { packet with startCreditGroupFrames := 0 }).2) running
        rw [running enabled] at later
        exact ⟨later.reserved, fun ctx => (later.carried ctx).trans (takeTx_carried selected ctx), later.silent⟩

theorem Path.kickTx_kicked (limit : Nat) {ringRunning : Bool}
    (running : p.state = .tunnelEnabled → ringRunning = true) :
    p.Kicked (p.kickTx limit ringRunning) := by
  unfold Path.kickTx
  split
  · rename_i idle
    have entered : p.scheduleEnter.state = .tunnelEnabled → ringRunning = true := by
      simpa [Path.scheduleEnter, idle] using running
    have kicked := scheduleRounds_kicked limit (p.txControlQueue.length + p.txDataQueue.length + 1) entered
    simp only [Path.scheduleEnter, idle] at kicked ⊢
    exact ⟨kicked.reserved, kicked.carried, kicked.silent⟩
  · exact ⟨rfl, fun ctx => rfl, rfl⟩

theorem Path.scheduleRounds_idle {ringRunning : Bool} {rounds : Nat}
    (enough : p.txControlQueue.length + p.txDataQueue.length < rounds) :
    (Path.scheduleRounds limit ringRunning rounds p).1.scheduler = .idle := by
  induction rounds generalizing p with
  | zero => omega
  | succ rounds ih =>
      rcases p.scheduleTake_cases limit with idle | ⟨packet, fromControlQueue, selected, taken⟩
      · simp only [Path.scheduleRounds, idle]
      · simp only [Path.scheduleRounds, taken]
        split
        · rename_i next control charged oldRaw oldStart posting
          split
          · apply ih
            rcases LinkEnd.selectTx_head selected with ⟨rfl, rest, queue⟩ | ⟨rfl, rest, queue⟩
            · simp only [Path.takeTx, Path.posted, queue, List.tail_cons, List.length_cons, if_true] at enough ⊢
              omega
            · simp only [Path.takeTx, Path.posted, queue, List.tail_cons, List.length_cons, if_false,
                Bool.false_eq_true] at enough ⊢
              omega
          · rfl
        · rename_i other
          exact absurd rfl (other _ _ _ _ _)

/-- The rounds are enough for the scheduler to come to its end. -/
theorem Path.kickTx_scheduler (p : Path) (limit : Nat) (ringRunning : Bool) :
    (p.kickTx limit ringRunning).1.scheduler = p.scheduler := by
  unfold Path.kickTx
  split
  · rename_i idle
    rw [idle]
    apply scheduleRounds_idle
    simp only [Path.scheduleEnter, idle]
    omega
  · rfl

end ThunderboltVerbs.DataPath

namespace ThunderboltVerbs.Verbs
open Proto DataPath Lib

variable {addr : Nat} {lane : PostLane} {lanes : List PostLane}

/-! ## Reserving -/

def PostLane.refused (lane : PostLane) : Bool :=
  match lane.path.reserveData lane.reservation with
  | .error _ => true
  | .ok _ => false

def PostLane.reserved (lane : PostLane) : PostLane :=
  { lane with path := { lane.path with txDataReserved := lane.path.txDataReserved + lane.reservation } }

@[simp] theorem released_reserved (lane : PostLane) : lane.reserved.released = lane.path := by
  simp [PostLane.released, PostLane.reserved, Path.releaseDataReservation]

theorem reserveLanes_cases (lanes : List PostLane) :
    (reserveLanes lanes = (lanes.map PostLane.reserved, none) ∧ ∀ lane ∈ lanes, lane.refused = false) ∨
      ∃ before stopped after error, lanes = before ++ stopped :: after ∧
        (∀ lane ∈ before, lane.refused = false) ∧ stopped.refused = true ∧
        reserveLanes lanes =
          (before.map PostLane.reserved ++ { stopped with reservation := 0 } :: after, some error) := by
  induction lanes with
  | nil => exact .inl ⟨rfl, by simp⟩
  | cons lane rest ih =>
      cases answer : lane.path.reserveData lane.reservation with
      | error error =>
          exact .inr ⟨[], lane, rest, error, rfl, by simp, by simp [PostLane.refused, answer],
            by simp [reserveLanes, answer]⟩
      | ok path =>
          have made : { lane with path } = lane.reserved := by
            simp only [PostLane.reserved, reserveData_eq answer]
          have accepted : lane.refused = false := by simp [PostLane.refused, answer]
          rcases ih with ⟨all, taken⟩ | ⟨before, stopped, after, error, rfl, taken, refused, stops⟩
          · refine .inl ⟨by simp [reserveLanes, answer, all, made], ?_⟩
            simpa [accepted] using taken
          · refine .inr ⟨lane :: before, stopped, after, error, rfl, ?_, refused, ?_⟩
            · simpa [accepted] using taken
            · simp [reserveLanes, answer, stops, made]

theorem wanted_path (post : FramePost) (lanes : List Lane) :
    (post.wanted lanes).map (fun lane => lane.path) = lanes.map Lane.path := by
  simp only [FramePost.wanted, List.map_map]
  exact (List.map_map (g := Lane.path) (f := Prod.fst)).symm.trans (by rw [List.zipIdx_map_fst])

/-! ## Preparing -/

@[simp] theorem releasePacketListSilent_eq (packets : List TxPacket) : releasePacketListSilent packets = [] := by
  simp [releasePacketListSilent, releasePacketList]

@[simp] theorem prepareOwnedList_called (addr : Nat) (alloc : Nat → Bool) (prepared : List TxPacket)
    (headers : List DataHeader) :
    (prepareOwnedList addr alloc prepared headers).2 = [] := by
  induction headers generalizing prepared with
  | nil => rfl
  | cons header rest ih =>
      simp only [prepareOwnedList]
      split
      · simp
      split
      · simp
      · exact ih _

theorem prepareOwnedList_ok {alloc : Nat → Bool} {prepared packets : List TxPacket} {headers : List DataHeader}
    (done : (prepareOwnedList addr alloc prepared headers).1 = .ok packets)
    (before : ∀ packet ∈ prepared, packet.done = some addr) :
    packets.length = prepared.length + headers.length ∧ ∀ packet ∈ packets, packet.done = some addr := by
  induction headers generalizing prepared with
  | nil =>
      cases done
      exact ⟨rfl, before⟩
  | cons header rest ih =>
      simp only [prepareOwnedList] at done
      split at done
      · cases done
      split at done
      · cases done
      · have more := ih done (by
          intro packet member
          rcases List.mem_append.mp member with old | new
          · exact before packet old
          · rw [List.mem_singleton.mp new])
        refine ⟨?_, more.2⟩
        rw [more.1, List.length_append, List.length_singleton, List.length_cons]
        omega

structure PostLane.Ready (addr : Nat) (lane : PostLane) : Prop where
  fits : lane.packets.length = lane.reservation
  done : ∀ packet ∈ lane.packets, packet.done = some addr
  running : lane.path.state = .tunnelEnabled → lane.ringRunning = true

theorem prepareLanes_called (addr : Nat) (lanes : List PostLane) : (prepareLanes addr lanes).2.2 = [] := by
  induction lanes with
  | nil => rfl
  | cons lane rest ih =>
      have silent := prepareOwnedList_called addr lane.alloc [] lane.frames
      simp only [prepareLanes]
      split
      · rename_i error called answer
        rw [answer] at silent
        exact silent
      · rename_i packets called answer
        rw [answer] at silent
        simp only at silent
        simp [silent, ih]

theorem prepareLanes_released (addr : Nat) (lanes : List PostLane) :
    (prepareLanes addr lanes).1.map PostLane.released = lanes.map PostLane.released := by
  induction lanes with
  | nil => rfl
  | cons lane rest ih =>
      simp only [prepareLanes]
      split
      · rfl
      · rw [List.map_cons, List.map_cons, ih]
        rfl

theorem prepareLanes_ready (prepared : (prepareLanes addr lanes).2.1 = none)
    (dealt : ∀ lane ∈ lanes, lane.frames.length = lane.reservation)
    (running : ∀ lane ∈ lanes, lane.path.state = .tunnelEnabled → lane.ringRunning = true) :
    ∀ lane ∈ (prepareLanes addr lanes).1, lane.Ready addr := by
  induction lanes with
  | nil => simp [prepareLanes]
  | cons lane rest ih =>
      simp only [prepareLanes] at prepared ⊢
      split at prepared
      · cases prepared
      · rename_i packets called answer
        have mine := prepareOwnedList_ok (congrArg Prod.fst answer) (by simp)
        have others := ih prepared (fun lane member => dealt lane (List.mem_cons_of_mem _ member))
          fun lane member => running lane (List.mem_cons_of_mem _ member)
        intro each member
        rcases List.mem_cons.mp member with rfl | member
        · refine ⟨?_, mine.2, running lane List.mem_cons_self⟩
          simpa [dealt lane List.mem_cons_self] using mine.1
        · exact others each member

/-! ## Queueing -/

theorem PostLane.Ready.tally_carries (ready : lane.Ready addr) :
    tally (TxPacket.carries addr) lane.packets = lane.packets.length := by
  have each : lane.packets.map (TxPacket.carries addr) = lane.packets.map fun _ => 1 := by
    apply List.map_congr_left
    intro packet member
    simp [TxPacket.carries, ready.done packet member]
  simp [tally, each]

theorem enqueueReservedDataList_eq {p p' : Path} {packets : List TxPacket}
    (queued : p.enqueueReservedDataList packets packets.length = .ok p') :
    p' = ({ p with txDataReserved := p.txDataReserved - packets.length } : Path).spliceData packets
      packets.length := by
  simp only [Path.enqueueReservedDataList] at queued
  split at queued
  · rename_i empty
    cases queued
    simp [List.length_eq_zero_iff.mp empty, Path.spliceData, Path.markGroup]
  split at queued
  · cases queued
  split at queued
  · cases queued
  · cases queued
    rfl

theorem PostLane.Ready.enqueueReserved (ready : lane.Ready addr) {path : Path}
    (queued : lane.enqueueReserved = .ok path) :
    path = lane.released.spliceData lane.packets lane.packets.length := by
  simp only [PostLane.enqueueReserved] at queued
  split at queued
  · cases queued
  · rw [enqueueReservedDataList_eq queued, PostLane.released, Path.releaseDataReservation, ← ready.fits]

structure Enqueued (addr queued : Nat) (lanes : List PostLane) (outcome : EnqueueOutcome) : Prop where
  reserved : outcome.lanes.map (fun lane => lane.path.txDataReserved) =
    lanes.map fun lane => lane.released.txDataReserved
  counted : outcome.queued + outcome.released = queued + tally (fun lane => lane.packets.length) lanes
  carried : tally (fun lane => lane.path.carried addr) outcome.lanes + queued =
    tally (fun lane => lane.path.carried addr) lanes + outcome.queued
  grown : queued ≤ outcome.queued
  untouched : outcome.queued = queued →
    outcome.lanes.map PostLane.released = lanes.map PostLane.released
  silent : outcome.called = []
  running : ∀ lane ∈ outcome.lanes, lane.path.state = .tunnelEnabled → lane.ringRunning = true

section
variable {queued : Nat} {rest : List PostLane} {outcome : EnqueueOutcome}

theorem Enqueued.skip (ready : lane.Ready addr) (empty : lane.packets = [])
    (later : Enqueued addr queued rest outcome) :
    Enqueued addr queued (lane :: rest) { outcome with lanes := lane :: outcome.lanes } where
  reserved := by
    have nothing : lane.reservation = 0 := by simpa [empty] using ready.fits.symm
    simp [later.reserved, PostLane.released, Path.releaseDataReservation, nothing]
  counted := by simpa [empty] using later.counted
  carried := by
    have others := later.carried
    simp only [tally_cons]
    omega
  grown := later.grown
  untouched same := by simp [later.untouched same]
  silent := later.silent
  running := by simpa using ⟨ready.running, later.running⟩

theorem Enqueued.queue (ready : lane.Ready addr) (nonempty : lane.packets ≠ []) {path : Path}
    (answer : lane.enqueueReserved = .ok path)
    (later : Enqueued addr (queued + lane.packets.length) rest outcome) :
    Enqueued addr queued (lane :: rest)
      { outcome with lanes := { lane with path, reservation := 0, packets := [] } :: outcome.lanes } where
  reserved := by simp [later.reserved, ready.enqueueReserved answer, Path.spliceData]
  counted := by
    have others := later.counted
    simp only [tally_cons]
    omega
  carried := by
    have others := later.carried
    have mine : path.carried addr = lane.path.carried addr + lane.packets.length := by
      have group := tally_carries_markGroup addr lane.packets.length lane.packets
      rw [ready.tally_carries] at group
      rw [ready.enqueueReserved answer]
      simp only [Path.carried, Path.spliceData, PostLane.released, Path.releaseDataReservation, tally_append, group]
      omega
    simp only [tally_cons, mine]
    omega
  grown := (Nat.le_add_right _ _).trans later.grown
  untouched same := by
    have some := List.length_pos_iff.mpr nonempty
    have others := later.grown
    simp only at same
    omega
  silent := later.silent
  running := by simpa [ready.enqueueReserved answer] using ⟨ready.running, later.running⟩

theorem Enqueued.drop (ready : ∀ lane ∈ lanes, lane.Ready addr) (queued : Nat) (error : Errno) :
    Enqueued addr queued lanes
      { lanes := lanes.map PostLane.dropped
        queued
        released := (lanes.map fun lane => lane.packets.length).sum
        error := some error
        called := lanes.flatMap fun lane => releasePacketListSilent lane.packets } where
  reserved := by simp [PostLane.dropped]
  counted := rfl
  carried := by
    simp only [tally, List.map_map]
    rfl
  grown := Nat.le_refl _
  untouched _ := by
    rw [List.map_map]
    rfl
  silent := by simp
  running := by
    intro dropped member
    obtain ⟨each, inside, rfl⟩ := List.mem_map.mp member
    exact (ready each inside).running

end

theorem enqueuePrepared_enqueued (ready : ∀ lane ∈ lanes, lane.Ready addr) (queued : Nat) :
    Enqueued addr queued lanes (enqueuePrepared queued lanes) := by
  induction lanes generalizing queued with
  | nil => exact ⟨rfl, rfl, rfl, Nat.le_refl _, fun _ => rfl, rfl, by simp [enqueuePrepared]⟩
  | cons lane rest ih =>
      have mine := ready lane List.mem_cons_self
      have others := fun lane member => ready lane (List.mem_cons_of_mem _ member)
      by_cases empty : lane.packets = []
      · simp only [enqueuePrepared, empty, if_true]
        exact (ih others queued).skip mine empty
      · simp only [enqueuePrepared, empty, if_false]
        cases answer : lane.enqueueReserved with
        | ok path => exact (ih others _).queue mine empty answer
        | error error => exact .drop ready queued error

/-! ## The call -/

section
variable {post : FramePost} {all : List Lane} {headers : List DataHeader}

theorem headersOf_length (striped : Bool) (msg : SendMsg) (pathCount : Nat) (headers : List DataHeader) (lane : Nat) :
    (headersOf striped msg pathCount headers lane).length =
      (List.range headers.length).countP fun i => laneOf striped msg.psn pathCount i = lane := by
  rw [headersOf, List.length_map, ← List.countP_eq_length_filter, List.range_eq_range',
    ← List.zipIdx_map_snd 0 headers, List.countP_map]
  rfl

theorem deal_fits (counted : headers.length = fragmentCount post.msg.totalLen) :
    ∀ lane ∈ post.deal headers ((post.wanted all).map PostLane.reserved), lane.frames.length = lane.reservation := by
  intro lane member
  obtain ⟨⟨reserved, i⟩, inside, rfl⟩ := List.mem_map.mp member
  rw [List.mk_mem_zipIdx_iff_getElem?, List.getElem?_map, Option.map_eq_some_iff] at inside
  obtain ⟨wanted, found, rfl⟩ := inside
  simp only [FramePost.wanted, List.getElem?_map, List.getElem?_zipIdx, Option.map_map, Option.map_eq_some_iff,
    Function.comp_apply, Nat.zero_add] at found
  obtain ⟨lane, -, rfl⟩ := found
  simp only [headersOf_length, counted, List.length_map, FramePost.wanted, List.length_zipIdx, PostLane.reserved]

theorem deal_released (lanes : List PostLane) :
    (post.deal headers lanes).map PostLane.released = lanes.map PostLane.released := by
  simp only [FramePost.deal, List.map_map]
  exact (List.map_map (g := PostLane.released) (f := Prod.fst)).symm.trans (by rw [List.zipIdx_map_fst])

theorem deal_running (running : ∀ lane ∈ all, lane.path.state = .tunnelEnabled → lane.ringRunning = true) :
    ∀ lane ∈ post.deal headers ((post.wanted all).map PostLane.reserved),
      lane.path.state = .tunnelEnabled → lane.ringRunning = true := by
  intro lane member
  obtain ⟨⟨reserved, i⟩, inside, rfl⟩ := List.mem_map.mp member
  obtain ⟨wanted, listed, rfl⟩ := List.mem_map.mp (List.fst_mem_of_mem_zipIdx inside)
  obtain ⟨⟨lane, j⟩, here, rfl⟩ := List.mem_map.mp listed
  exact running lane (List.fst_mem_of_mem_zipIdx here)

end

structure SameQueues (before after : Path) : Prop where
  dataReserved : after.txDataReserved = before.txDataReserved
  dataQueue : after.txDataQueue = before.txDataQueue
  dataQueued : after.txDataQueued = before.txDataQueued
  controlQueue : after.txControlQueue = before.txControlQueue
  controlQueued : after.txControlQueued = before.txControlQueued

/-- An error leaves the paths and the context as they were. Success has the context's counters grown by the
frames that are now queued or on the rings, and no reservation left. -/
structure FramesOutcome.Unwound (outcome : FramesOutcome) (addr : Nat) (paths : List Path) (refs : SendRefs) :
    Prop where
  silent : outcome.called = []
  failed : ∀ error, outcome.result = .error error →
    List.Forall₂ SameQueues paths outcome.paths ∧ outcome.refs = refs
  posted : ∀ queued, outcome.result = .ok queued →
    outcome.refs.txPending = refs.txPending + queued ∧ outcome.refs.refs = refs.refs + queued ∧
      outcome.paths.map Path.txDataReserved = paths.map Path.txDataReserved ∧
      tally (fun path => path.carried addr) outcome.paths = tally (fun path => path.carried addr) paths + queued

section
variable {paths : List Path} {refs : SendRefs}

theorem unwound_error {outcome : FramesOutcome} {error : Errno} (result : outcome.result = .error error)
    (silent : outcome.called = []) (kept : outcome.paths = paths) (same : outcome.refs = refs) :
    outcome.Unwound addr paths refs where
  silent := silent
  failed _ _ := by
    refine ⟨?_, same⟩
    rw [kept, List.forall₂_same]
    exact fun path _ => ⟨rfl, rfl, rfl, rfl, rfl⟩
  posted queued success := by
    rw [result] at success
    cases success

theorem kickPaths_kicked (addr : Nat) (post : FramePost)
    (running : ∀ lane ∈ lanes, lane.path.state = .tunnelEnabled → lane.ringRunning = true) :
    (post.kickPaths lanes).flatMap Prod.snd = [] ∧
      ((post.kickPaths lanes).map Prod.fst).map Path.txDataReserved =
        lanes.map (fun lane => lane.path.txDataReserved) ∧
      tally (fun path => path.carried addr) ((post.kickPaths lanes).map Prod.fst) =
        tally (fun lane => lane.path.carried addr) lanes := by
  induction lanes with
  | nil => exact ⟨rfl, rfl, rfl⟩
  | cons lane rest ih =>
      have mine := Path.kickTx_kicked post.nativeTxMaxInflight (running lane List.mem_cons_self)
      obtain ⟨silent, reserved, carried⟩ := ih fun lane member => running lane (List.mem_cons_of_mem _ member)
      simp only [FramePost.kickPaths] at silent reserved carried ⊢
      refine ⟨?_, ?_, ?_⟩
      · simp only [List.map_cons, List.flatMap_cons, mine.silent, silent, List.append_nil]
      · simp only [List.map_cons, mine.reserved, reserved]
      · simp only [List.map_cons, tally_cons, mine.carried, carried]

theorem send_unwound {post : FramePost} (dealt : ∀ lane ∈ lanes, lane.frames.length = lane.reservation)
    (running : ∀ lane ∈ lanes, lane.path.state = .tunnelEnabled → lane.ringRunning = true)
    (held : lanes.map PostLane.released = paths) : (post.send lanes refs).Unwound post.addr paths refs := by
  have called := prepareLanes_called post.addr lanes
  have released := (prepareLanes_released post.addr lanes).trans held
  simp only [FramePost.send]
  split
  · exact unwound_error rfl (by simp [errReleasePaths, called]) released rfl
  rename_i prepared
  have ready := prepareLanes_ready prepared dealt running
  split
  · exact unwound_error rfl (by simp [errReleasePaths, called]) released rfl
  have enqueued := enqueuePrepared_enqueued ready 0
  have counted := enqueued.counted
  simp only [tally, Nat.zero_add] at counted
  have grown : ∀ count : Nat, count + ((prepareLanes post.addr lanes).1.map fun lane => lane.packets.length).sum -
      (enqueuePrepared 0 (prepareLanes post.addr lanes).1).released =
        count + (enqueuePrepared 0 (prepareLanes post.addr lanes).1).queued := by
    omega
  split
  · rename_i error nothing
    refine unwound_error rfl ?_ ((enqueued.untouched nothing).trans released) ?_
    · simp [errReleasePaths, called, enqueued.silent]
    · simp [errReleasePaths, grown, nothing]
  · rename_i queued other
    obtain ⟨silent, reserved, carried⟩ := kickPaths_kicked post.addr post enqueued.running
    have before : tally (fun lane => lane.path.carried post.addr) (prepareLanes post.addr lanes).1 =
        tally (fun path => path.carried post.addr) paths := by
      rw [← released, tally, tally, List.map_map]
      rfl
    refine ⟨?_, fun error failed => (by cases failed), ?_⟩
    · simp only [called, enqueued.silent, silent, List.append_nil]
    · intro count success
      cases success
      refine ⟨grown _, grown _, ?_, ?_⟩
      · rw [reserved, enqueued.reserved, ← released, List.map_map]
        rfl
      · rw [carried, ← before]
        exact enqueued.carried

/-- A reservation that is refused takes nothing from the lanes after it. -/
def FramePost.spares (post : FramePost) (all : List Lane) : Prop :=
  (post.wanted all).Pairwise fun earlier later =>
    earlier.refused = true → later.reservation = 0 ∨ later.path.txDataReserved = 0

variable {post : FramePost} {all : List Lane}

theorem spares_of_accepted (accepted : ∀ lane ∈ post.wanted all, lane.refused = false) : post.spares all := by
  apply List.pairwise_of_forall_mem_list
  intro earlier member later _ refused
  rw [accepted earlier member] at refused
  cases refused

theorem spares_iff_of_refused {before after : List PostLane} {stopped : PostLane}
    (split : post.wanted all = before ++ stopped :: after) (accepted : ∀ lane ∈ before, lane.refused = false)
    (refused : stopped.refused = true) :
    post.spares all ↔ ∀ lane ∈ after, lane.reservation = 0 ∨ lane.path.txDataReserved = 0 := by
  rw [FramePost.spares, split, List.pairwise_append, List.pairwise_cons]
  constructor
  · rintro ⟨-, ⟨spared, -⟩, -⟩ lane member
    exact spared lane member refused
  · intro spared
    have open_ : ∀ earlier ∈ before, ∀ later : PostLane,
        earlier.refused = true → later.reservation = 0 ∨ later.path.txDataReserved = 0 := by
      intro earlier member later refused
      rw [accepted earlier member] at refused
      cases refused
    refine ⟨?_, ⟨fun lane member _ => spared lane member, ?_⟩, fun earlier member later _ => open_ earlier member later⟩
    · exact List.pairwise_of_forall_mem_list fun earlier member later _ => open_ earlier member later
    · exact List.pairwise_of_forall_mem_list fun _ _ later member _ => spared later member

/-- Taking back reservations that were not made changes nothing only where there is nothing to take. -/
theorem released_same_iff (lanes : List PostLane) :
    List.Forall₂ SameQueues (lanes.map fun lane => lane.path) (lanes.map PostLane.released) ↔
      ∀ lane ∈ lanes, lane.reservation = 0 ∨ lane.path.txDataReserved = 0 := by
  rw [List.forall₂_map_left_iff, List.forall₂_map_right_iff, List.forall₂_same]
  apply forall₂_congr
  intro lane _
  constructor
  · intro same
    have reserved := same.dataReserved
    simp only [PostLane.released, Path.releaseDataReservation] at reserved
    omega
  · intro nothing
    refine ⟨?_, rfl, rfl, rfl, rfl⟩
    simp only [PostLane.released, Path.releaseDataReservation]
    omega

theorem sameQueues_append (before after after' : List Path) :
    List.Forall₂ SameQueues (before ++ after) (before ++ after') ↔ List.Forall₂ SameQueues after after' := by
  induction before with
  | nil => rfl
  | cons path rest ih =>
      rw [List.cons_append, List.cons_append, List.forall₂_cons, ih]
      exact and_iff_right ⟨rfl, rfl, rfl, rfl, rfl⟩

theorem released_refused (before after : List PostLane) (stopped : PostLane) :
    (before.map PostLane.reserved ++ { stopped with reservation := 0 } :: after).map PostLane.released =
      (before ++ [stopped]).map (fun lane => lane.path) ++ after.map PostLane.released := by
  simp [Function.comp_def]
  rfl

/-- Posting frames unwinds in full exactly when a refused reservation has no lane after it that wants frames and
on which somebody else holds a reservation. -/
theorem frames_unwound_iff (post : FramePost) (all : List Lane) (refs : SendRefs)
    (running : ∀ lane ∈ all, lane.path.state = .tunnelEnabled → lane.ringRunning = true) :
    (post.run all refs).Unwound post.addr (all.map Lane.path) refs ↔ post.spares all := by
  simp only [FramePost.run]
  split
  · rename_i empty
    subst empty
    exact iff_of_true (unwound_error rfl rfl rfl rfl) List.Pairwise.nil
  rcases reserveLanes_cases (post.wanted all) with
    ⟨made, accepted⟩ | ⟨before, stopped, after, error, split, accepted, refused, stops⟩
  · refine iff_of_true ?_ (spares_of_accepted accepted)
    have held : ((post.wanted all).map PostLane.reserved).map PostLane.released = all.map Lane.path := by
      rw [List.map_map, ← wanted_path post all]
      exact List.map_congr_left fun lane _ => released_reserved lane
    simp only [made]
    cases built : buildFragments post.msg post.fragment (fragmentCount post.msg.totalLen) 0 with
    | error error => exact unwound_error rfl (by simp [errReleasePaths]) held rfl
    | ok headers =>
        have counted : headers.length = fragmentCount post.msg.totalLen := by
          rw [buildFragments_eq built, List.length_map, List.length_range']
        exact send_unwound (deal_fits counted) (deal_running running) ((deal_released _).trans held)
  · have paths : all.map Lane.path =
        (before ++ [stopped]).map (fun lane => lane.path) ++ after.map fun lane => lane.path := by
      rw [← wanted_path post all, split, List.append_cons, List.map_append]
    have same := (sameQueues_append ((before ++ [stopped]).map fun lane => lane.path) _ _).trans
      (released_same_iff after)
    rw [spares_iff_of_refused split accepted refused, ← same, ← paths, ← released_refused]
    simp only [stops]
    constructor
    · intro unwound
      exact (unwound.failed error rfl).1
    · intro kept
      exact ⟨rfl, fun _ _ => ⟨kept, rfl⟩, fun _ success => by cases success⟩

end

def sharedPath (reserved : Nat) : Path :=
  { (Path.started (nativePaths .left)).setRemoteRxCapacity 1024 with
    state := .tunnelEnabled
    txDataReserved := reserved }

def sharedLane (reserved : Nat) : Lane where
  path := sharedPath reserved
  ringRunning := true
  alloc _ := true
  enqueue := none

def stripedPost : FramePost where
  addr := 7
  msg :=
    { op := .send, destQp := 2, srcQp := 1, psn := 0, totalLen := dataMaxPayload + 1, immData := 0
      remoteAddr := 0, rkey := 0, solicited := false }
  striped := true
  fragment _ := { frame := true, copy := none, owned := true }
  nativeTxMaxInflight := 0

theorem frames_unwound_two :
    (stripedPost.run [sharedLane 3, sharedLane 5] ⟨0, 1⟩).result = .ok 2 ∧
      (stripedPost.run [sharedLane 3, sharedLane 5] ⟨0, 1⟩).Unwound 7 [sharedPath 3, sharedPath 5] ⟨0, 1⟩ :=
  ⟨rfl, (frames_unwound_iff stripedPost [sharedLane 3, sharedLane 5] ⟨0, 1⟩ (by decide)).mpr
    (spares_of_accepted (by decide))⟩

/-- The first lane is full, so that the reservation there is refused. The call then takes a frame from the
reservation that another sender has on the second lane. -/
theorem foreign_reservation_taken :
    (stripedPost.run [sharedLane 65536, sharedLane 5] ⟨0, 1⟩).result = .error .eNoMem ∧
      (stripedPost.run [sharedLane 65536, sharedLane 5] ⟨0, 1⟩).paths = [sharedPath 65536, sharedPath 4] ∧
      ¬(stripedPost.run [sharedLane 65536, sharedLane 5] ⟨0, 1⟩).Unwound 7 [sharedPath 65536, sharedPath 5] ⟨0, 1⟩ := by
  have paths : (stripedPost.run [sharedLane 65536, sharedLane 5] ⟨0, 1⟩).paths =
      [sharedPath 65536, sharedPath 4] := by decide
  refine ⟨rfl, paths, ?_⟩
  intro unwound
  have same := (unwound.failed .eNoMem rfl).1
  rw [paths] at same
  cases same with
  | cons _ rest =>
      cases rest with
      | cons second _ => exact absurd second.dataReserved (by decide)

end ThunderboltVerbs.Verbs
