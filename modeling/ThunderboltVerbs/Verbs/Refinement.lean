import ThunderboltVerbs.Verbs.Rollback

/-!
# The paths answer a post

`postFrames` takes the answers of the paths as they come. The call on the paths has the same result, with the
answers that the state of the paths gives.
-/

namespace ThunderboltVerbs.Verbs
open Proto DataPath Lib

variable {addr : Nat} {lane : PostLane} {lanes : List PostLane}

def errorOf {α : Type} : Except Errno α → Option Errno
  | .error error => some error
  | .ok _ => none

def PostLane.answers (addr : Nat) (lane : PostLane) : PathEnv where
  reserve := errorOf (lane.released.reserveData lane.reservation)
  prepare := errorOf (prepareOwnedList addr lane.alloc [] lane.frames).1
  enqueue := lane.enqueue

def FramePost.headers (post : FramePost) : List DataHeader :=
  (List.range (fragmentCount post.msg.totalLen)).map (fragmentHeader post.msg)

/-- The lanes with reservations and frames, as if no step before had failed. -/
def FramePost.dealt (post : FramePost) (all : List Lane) : List PostLane :=
  post.deal post.headers ((post.wanted all).map PostLane.reserved)

def FramePost.answers (post : FramePost) (all : List Lane) : List PathEnv :=
  (post.dealt all).map (PostLane.answers post.addr)

/-! ## The first error -/

theorem reserveLanes_error (lanes : List PostLane) :
    (reserveLanes lanes).2 = lanes.findSome? fun lane => errorOf (lane.path.reserveData lane.reservation) := by
  induction lanes with
  | nil => rfl
  | cons lane rest ih =>
      cases answer : lane.path.reserveData lane.reservation with
      | error error => simp [reserveLanes, answer, errorOf]
      | ok path => simpa [reserveLanes, answer, errorOf] using ih

theorem prepareLanes_error (lanes : List PostLane) :
    (prepareLanes addr lanes).2.1 = lanes.findSome? fun lane => (lane.answers addr).prepare := by
  induction lanes with
  | nil => rfl
  | cons lane rest ih =>
      simp only [prepareLanes, List.findSome?_cons, PostLane.answers]
      split
      · rename_i error called answer
        simp [answer, errorOf]
      · rename_i packets called answer
        simpa [answer, errorOf, PostLane.answers] using ih

def PostLane.prepared (addr : Nat) (lane : PostLane) : PostLane :=
  match (prepareOwnedList addr lane.alloc [] lane.frames).1 with
  | .ok packets => { lane with frames := [], packets }
  | .error _ => lane

@[simp] theorem prepared_enqueue (lane : PostLane) : (lane.prepared addr).enqueue = lane.enqueue := by
  unfold PostLane.prepared
  split <;> rfl

theorem prepareLanes_eq (prepared : (prepareLanes addr lanes).2.1 = none) :
    (prepareLanes addr lanes).1 = lanes.map (PostLane.prepared addr) := by
  induction lanes with
  | nil => rfl
  | cons lane rest ih =>
      simp only [prepareLanes] at prepared ⊢
      split at prepared
      · cases prepared
      · rename_i packets called answer
        rw [List.map_cons, ← ih prepared]
        simp [PostLane.prepared, answer]

/-! ## The lanes that carry fragments -/

def carrying (addr start : Nat) (lanes : List PostLane) : List (PathEnv × Nat) :=
  ((lanes.zipIdx start).filter fun lane => lane.1.frames ≠ []).map fun lane => (lane.1.answers addr, lane.2)

theorem carrying_cons (addr start : Nat) (lane : PostLane) (rest : List PostLane) :
    carrying addr start (lane :: rest) =
      if lane.frames = [] then carrying addr (start + 1) rest
      else (lane.answers addr, start) :: carrying addr (start + 1) rest := by
  simp only [carrying, List.zipIdx_cons, List.filter_cons]
  by_cases empty : lane.frames = [] <;> simp [empty]

section
variable {post : FramePost} {all : List Lane}

theorem length_dealt (post : FramePost) (all : List Lane) : (post.dealt all).length = all.length := by
  simp [FramePost.dealt, FramePost.deal, FramePost.wanted]

theorem dealt_frames {i : Nat} (member : (lane, i) ∈ (post.dealt all).zipIdx) :
    lane.frames = headersOf post.striped post.msg all.length post.headers i := by
  rw [List.mk_mem_zipIdx_iff_getElem?, FramePost.dealt, FramePost.deal, List.getElem?_map, List.getElem?_zipIdx,
    Option.map_map, Option.map_eq_some_iff] at member
  obtain ⟨reserved, -, rfl⟩ := member
  simp [FramePost.headers, FramePost.wanted]

theorem dealt_fits : ∀ lane ∈ post.dealt all, lane.frames.length = lane.reservation :=
  deal_fits (by rw [FramePost.headers, List.length_map, List.length_range])

theorem carriers_answers (post : FramePost) (all : List Lane) :
    carriers post.striped post.msg (post.answers all) = carrying post.addr 0 (post.dealt all) := by
  rw [carriers, carrying, FramePost.answers, List.zipIdx_map, List.filter_map]
  refine congrArg (List.map _) (List.filter_congr ?_)
  rintro ⟨lane, i⟩ member
  have frames := headersOf_length post.striped post.msg all.length post.headers i
  rw [← dealt_frames member] at frames
  simp only [FramePost.headers, List.length_map, List.length_range] at frames
  simp only [Function.comp_apply, List.length_map, length_dealt, Prod.map_apply, id]
  rw [Bool.eq_iff_iff, decide_eq_true_eq, ← List.length_pos_iff, frames, List.countP_pos_iff, List.any_eq_true]

theorem findSome?_carrying {β : Type} {answer : PathEnv → Option β}
    (silent : ∀ lane ∈ lanes, lane.frames = [] → answer (lane.answers addr) = none) (start : Nat) :
    (carrying addr start lanes).findSome? (fun path => answer path.1) =
      lanes.findSome? fun lane => answer (lane.answers addr) := by
  induction lanes generalizing start with
  | nil => rfl
  | cons lane rest ih =>
      have later := ih (fun lane member => silent lane (List.mem_cons_of_mem _ member)) (start + 1)
      rw [carrying_cons, List.findSome?_cons]
      by_cases empty : lane.frames = []
      · rw [if_pos empty, silent lane List.mem_cons_self empty, later]
      · rw [if_neg empty, List.findSome?_cons, later]

theorem reserve_carriers (post : FramePost) (all : List Lane) :
    (carriers post.striped post.msg (post.answers all)).findSome? (fun path => path.1.reserve) =
      (reserveLanes (post.wanted all)).2 := by
  rw [carriers_answers, findSome?_carrying, reserveLanes_error]
  · have dealt := List.findSome?_map (l := (post.wanted all).map PostLane.reserved |>.zipIdx) (f := Prod.fst)
      (p := fun lane : PostLane => errorOf (lane.released.reserveData lane.reservation))
    rw [List.zipIdx_map_fst, List.findSome?_map] at dealt
    rw [FramePost.dealt, FramePost.deal, List.findSome?_map]
    refine dealt.symm.trans (congrArg (fun answer => (post.wanted all).findSome? answer) (funext fun lane => ?_))
    simp only [Function.comp_apply, released_reserved]
    rfl
  · intro lane member empty
    have nothing : lane.reservation = 0 := by rw [← dealt_fits lane member, empty]; rfl
    simp [PostLane.answers, nothing, Path.reserveData, errorOf]

theorem prepare_carriers (post : FramePost) (all : List Lane) :
    (carriers post.striped post.msg (post.answers all)).findSome? (fun path => path.1.prepare) =
      (prepareLanes post.addr (post.dealt all)).2.1 := by
  rw [carriers_answers, findSome?_carrying, prepareLanes_error]
  intro lane _ empty
  simp [PostLane.answers, empty, prepareOwnedList, errorOf]

end

/-! ## Queueing -/

structure PostLane.Accepts (addr : Nat) (lane : PostLane) : Prop where
  fits : (lane.prepared addr).packets.length = lane.frames.length
  accepts : lane.frames ≠ [] → lane.enqueue = none → ∃ path, (lane.prepared addr).enqueueReserved = .ok path

theorem enqueuePrepared_lanes (lengths : Nat → Nat) (start : Nat) (accepts : ∀ lane ∈ lanes, lane.Accepts addr)
    (sized : ∀ lane ∈ lanes.zipIdx start, lengths lane.2 = lane.1.frames.length) (queued : Nat) :
    let outcome := enqueuePrepared queued (lanes.map (PostLane.prepared addr))
    match enqueueLanes (queued ≠ 0) (carrying addr start lanes) with
    | .ok indices =>
        outcome.queued = queued + tally lengths indices ∧ (outcome.error = none ∨ outcome.queued ≠ 0)
    | .error error => outcome.queued = 0 ∧ outcome.error = some error := by
  induction lanes generalizing start queued with
  | nil => simp [carrying, enqueueLanes, enqueuePrepared]
  | cons lane rest ih =>
      have mine := accepts lane List.mem_cons_self
      have size := sized (lane, start) (by simp)
      have later := ih (start + 1) (fun lane member => accepts lane (List.mem_cons_of_mem _ member))
        fun lane member => sized lane (by simp [List.zipIdx_cons, member])
      by_cases empty : lane.frames = []
      · have skipped : (lane.prepared addr).packets = [] := by
          rw [← List.length_eq_zero_iff, mine.fits, empty]
          rfl
        simpa only [carrying_cons, empty, List.map_cons, enqueuePrepared, skipped, if_true] using later queued
      have taken : (lane.prepared addr).packets ≠ [] := by
        rw [← List.length_pos_iff, mine.fits]
        exact List.length_pos_iff.mpr empty
      simp only [carrying_cons, empty, if_false, List.map_cons]
      cases answer : lane.enqueue with
      | none =>
          obtain ⟨path, enqueued⟩ := mine.accepts empty answer
          obtain ⟨indices, sent⟩ := enqueueLanes_queued (carrying addr (start + 1) rest)
          have positive := List.length_pos_iff.mpr empty
          have others := later (queued + lane.frames.length)
          rw [decide_eq_true (by omega), sent] at others
          simp only [enqueueLanes, PostLane.answers, answer, sent, enqueuePrepared, taken, if_false, enqueued,
            mine.fits, tally_cons] at others ⊢
          simp only at size
          omega
      | some error =>
          have refused : (lane.prepared addr).enqueueReserved = .error error := by
            simp [PostLane.enqueueReserved, prepared_enqueue, answer]
          simp only [enqueueLanes, PostLane.answers, answer, enqueuePrepared, taken, if_false, refused]
          by_cases before : queued = 0
          · simp [before]
          · simp [before]

theorem reserved_enabled (accepted : lane.refused = false) (some : lane.reservation ≠ 0) :
    lane.path.state = .tunnelEnabled := by
  by_contra down
  simp [PostLane.refused, Path.reserveData, some, down] at accepted

section
variable {post : FramePost} {all : List Lane}

theorem dealt_origin : ∀ lane ∈ post.dealt all,
    ∃ wanted ∈ post.wanted all, lane.path = wanted.reserved.path ∧ lane.reservation = wanted.reservation := by
  intro lane member
  obtain ⟨⟨reserved, i⟩, inside, rfl⟩ := List.mem_map.mp member
  obtain ⟨wanted, listed, rfl⟩ := List.mem_map.mp (List.fst_mem_of_mem_zipIdx inside)
  exact ⟨wanted, listed, rfl, rfl⟩

/-- The packets of a lane fit the reservation it holds, so that only the path being down can refuse them. -/
theorem accepts_dealt (accepted : ∀ lane ∈ post.wanted all, lane.refused = false)
    (prepared : (prepareLanes post.addr (post.dealt all)).2.1 = none) :
    ∀ lane ∈ post.dealt all, lane.Accepts post.addr := by
  intro lane member
  have fits := dealt_fits lane member
  obtain ⟨wanted, listed, path, reservation⟩ := dealt_origin lane member
  rw [prepareLanes_error, List.findSome?_eq_none_iff] at prepared
  have answer := prepared lane member
  simp only [PostLane.answers] at answer
  cases made : (prepareOwnedList post.addr lane.alloc [] lane.frames).1 with
  | error error => simp [made, errorOf] at answer
  | ok packets =>
      have count := (prepareOwnedList_ok made (by simp)).1
      rw [List.length_nil, Nat.zero_add] at count
      have ready : lane.prepared post.addr = { lane with frames := [], packets } := by
        simp only [PostLane.prepared, made]
      refine ⟨by rw [ready]; exact count, ?_⟩
      intro some free
      have positive := List.length_pos_iff.mpr some
      have enabled := reserved_enabled (accepted wanted listed) (by omega)
      have room : packets.length ≤ lane.path.txDataReserved := by
        rw [path, count, fits, reservation]
        exact Nat.le_add_left _ _
      have state : lane.path.state = .tunnelEnabled := by
        rw [path]
        exact enabled
      refine ⟨Path.spliceData { lane.path with txDataReserved := lane.path.txDataReserved - packets.length } packets
        packets.length, ?_⟩
      simp only [ready, PostLane.enqueueReserved, free, Path.enqueueReservedDataList]
      rw [if_neg (by omega), if_neg (by simpa using state), if_neg (by omega)]

theorem dealt_nonempty (post : FramePost) (lanes : all ≠ []) : ∃ lane ∈ post.dealt all, lane.frames ≠ [] := by
  have first : laneOf post.striped post.msg.psn all.length 0 < (post.dealt all).length := by
    have positive := List.length_pos_iff.mpr lanes
    rw [length_dealt, laneOf]
    split
    · exact Nat.mod_lt _ positive
    · exact positive
  have member := List.mk_mem_zipIdx_iff_getElem?.mpr (List.getElem?_eq_getElem first)
  have length := headersOf_length post.striped post.msg all.length post.headers
    (laneOf post.striped post.msg.psn all.length 0)
  refine ⟨_, List.fst_mem_of_mem_zipIdx member, ?_⟩
  rw [dealt_frames member, ← List.length_pos_iff, length, List.countP_pos_iff]
  exact ⟨0, by simpa [FramePost.headers] using fragmentCount_pos post.msg.totalLen, by simp⟩

def Posted.frames (posted : Posted) : Nat := tally (fun lane => lane.2.length) posted

theorem send_result (refs : SendRefs) (lanes : all ≠ []) (accepted : ∀ lane ∈ post.wanted all, lane.refused = false) :
    (post.send (post.dealt all) refs).result =
      match (prepareLanes post.addr (post.dealt all)).2.1 with
      | some error => .error error
      | none =>
          (enqueueLanes false (carrying post.addr 0 (post.dealt all))).map
            (tally fun lane => (headersOf post.striped post.msg all.length post.headers lane).length) := by
  simp only [FramePost.send]
  cases prepared : (prepareLanes post.addr (post.dealt all)).2.1 with
  | some error => rfl
  | none =>
      have accepts := accepts_dealt accepted prepared
      have both := enqueuePrepared_lanes
        (fun lane => (headersOf post.striped post.msg all.length post.headers lane).length) 0 accepts
        (fun lane member => by rw [dealt_frames member]) 0
      have total : ((prepareLanes post.addr (post.dealt all)).1.map fun lane => lane.packets.length).sum ≠ 0 := by
        obtain ⟨lane, member, some⟩ := dealt_nonempty post lanes
        rw [prepareLanes_eq prepared]
        intro zero
        rw [List.sum_eq_zero_iff_forall_eq_nat] at zero
        have nothing := zero _ (List.mem_map_of_mem (List.mem_map_of_mem member))
        rw [(accepts lane member).fits] at nothing
        exact some (List.length_eq_zero_iff.mp nothing)
      simp only [total, if_false]
      rw [← prepareLanes_eq prepared] at both
      cases sent : enqueueLanes false (carrying post.addr 0 (post.dealt all)) with
      | error error =>
          simp only [ne_eq, not_true_eq_false, decide_false, sent] at both
          simp only [both]
          rfl
      | ok indices =>
          simp only [ne_eq, not_true_eq_false, decide_false, sent, Nat.zero_add] at both
          split
          · rename_i error stopped nothing
            simp [stopped, nothing] at both
          · rw [both.1]
            rfl

/-- The call on the paths returns the error of `postFrames`, or queues as many frames. -/
theorem run_postFrames {qp : Qp} (device : Device) (env : PostEnv qp) (refs : SendRefs)
    (striped : device.stripes post.msg.op = post.striped) (fragments : env.fragment = post.fragment)
    (answers : env.paths post.striped = post.answers all) :
    (post.run all refs).result = (postFrames device env post.msg).map Posted.frames := by
  simp only [postFrames, striped, answers, fragments, FramePost.run]
  by_cases none : all = []
  · have empty : post.answers all = [] := by
      rw [← List.length_eq_zero_iff, FramePost.answers, List.length_map, length_dealt, none]
      rfl
    simp only [none, if_true] at empty ⊢
    simp only [empty, if_true]
    rfl
  have nonempty : post.answers all ≠ [] := by
    rw [← List.length_pos_iff, FramePost.answers, List.length_map, length_dealt]
    exact List.length_pos_iff.mpr none
  rw [if_neg none, if_neg nonempty, reserve_carriers]
  rcases reserveLanes_cases (post.wanted all) with ⟨made, accepted⟩ | ⟨_, _, _, error, _, _, _, stops⟩
  · simp only [made]
    cases built : buildFragments post.msg post.fragment (fragmentCount post.msg.totalLen) 0 with
    | error error => rfl
    | ok headers =>
        have listed : headers = post.headers := by
          rw [buildFragments_eq built, FramePost.headers, List.range_eq_range']
        subst listed
        have sent := send_result refs none accepted
        simp only
        rw [prepare_carriers, carriers_answers]
        refine Eq.trans sent ?_
        cases (prepareLanes post.addr (post.dealt all)).2.1 with
        | some error => rfl
        | none =>
            cases enqueueLanes false (carrying post.addr 0 (post.dealt all)) with
            | error error => rfl
            | ok indices =>
                have count : (post.answers all).length = all.length := by
                  rw [FramePost.answers, List.length_map, length_dealt]
                simp only [Except.map, Posted.frames, tally, List.map_map, count]
                rfl
  · simp only [stops]
    rfl

end

end ThunderboltVerbs.Verbs
