import ThunderboltVerbs.DataPath.Credit

/-!
# Start credits

The first packet of a group waits for as many credits as the group has frames, but for no more than a
return batch. The receiver in turn holds back less than a batch. Both batches are cut down to the
window where the window is smaller, and then they no longer fit into it together.
-/

namespace ThunderboltVerbs.DataPath
open Proto Lib

/-- Every data frame of `side` was consumed by a peer with this receive ring, no PATH_CREDIT frame is on
its way back, and the peer holds back what it has not returned. -/
structure Link.Settled (link : Link) (side : Side) (rxRingSize : Nat) : Prop where
  ring : (link side.peer).path.cfg.rxRingSize = rxRingSize
  learned : (link side).path.txRemoteDataCreditMax = dataCreditWindow rxRingSize
  consumed : link.chargedInFlight side = 0
  returned : link.creditsInFlight side.peer = 0
  whole : (link side).path.txRemoteDataCredits + (link side.peer).path.rxDataCreditPending =
    dataCreditWindow rxRingSize
  heldBack : (link side.peer).path.rxDataCreditPending < creditReturnThreshold (dataCreditWindow rxRingSize)

/-- In no settled state the head of the data queue waits for credits. -/
def NeverStuck (rxRingSize : Nat) : Prop :=
  ∀ (link : Link) (side : Side), link.Settled side rxRingSize →
    ∀ packet ∈ (link side).path.txDataQueue.head?,
      max 1 (startCreditRequired packet.startCreditGroupFrames (dataCreditWindow rxRingSize)) ≤
        (link side).path.txRemoteDataCredits

def startable (rxRingSize : Nat) : Prop :=
  rxRingSize ≤ 3 ∨ (128 ≤ rxRingSize ∧ rxRingSize ≤ 257) ∨ 320 ≤ rxRingSize

/-! ## Windows -/

theorem roundToBatch_cases (credits : Nat) :
    (credits ≤ dataCreditBatch ∧ roundToBatch credits = credits) ∨
      (dataCreditBatch < credits ∧ roundToBatch credits = credits - credits % dataCreditBatch) := by
  simp only [roundToBatch]
  split <;> omega

theorem dataCreditWindow_eq {rxRingSize : Nat} (positive : 0 < rxRingSize) :
    dataCreditWindow rxRingSize = max 1 (roundToBatch (withoutControlReserve rxRingSize)) := by
  simp only [dataCreditWindow]
  split
  · omega
  split <;> omega

theorem dataCreditWindow_cases {rxRingSize : Nat} (positive : 0 < rxRingSize) :
    (startable rxRingSize ∧ (dataCreditWindow rxRingSize = 1 ∨ 2 * dataCreditBatch ≤ dataCreditWindow rxRingSize)) ∨
      (¬ startable rxRingSize ∧ 2 ≤ dataCreditWindow rxRingSize ∧
        dataCreditWindow rxRingSize ≤ dataCreditBatch) := by
  have reserved : (rxRingSize ≤ 256 ∧ withoutControlReserve rxRingSize = rxRingSize / 2) ∨
      (256 < rxRingSize ∧ withoutControlReserve rxRingSize = rxRingSize - 256) := by
    by_cases small : rxRingSize ≤ 256
    · exact .inl ⟨small, if_pos small⟩
    · exact .inr ⟨by omega, if_neg small⟩
  have rounded := roundToBatch_cases (withoutControlReserve rxRingSize)
  rw [dataCreditWindow_eq positive]
  simp only [startable, dataCreditBatch] at rounded ⊢
  omega

theorem startCreditRequired_le_threshold (frames window : Nat) :
    startCreditRequired frames window ≤ creditReturnThreshold window := by
  simp only [startCreditRequired]
  split
  · omega
  · split <;> omega

theorem creditReturnThreshold_le (window : Nat) : creditReturnThreshold window ≤ dataCreditBatch := by
  simp only [creditReturnThreshold]
  split <;> omega

theorem creditReturnThreshold_small {window : Nat} (positive : 0 < window) (small : window ≤ dataCreditBatch) :
    creditReturnThreshold window = window := by
  simp only [creditReturnThreshold]
  split <;> omega

/-! ## Stuck queues -/

def stuckLink (cfg : PathConfig) : Link
  | .left =>
      { path :=
          { Path.started cfg with
            txRemoteDataCreditMax := dataCreditWindow cfg.rxRingSize
            txRemoteDataCredits := 1
            txDataQueue := [{ frame := { len := 1, header := none }, startCreditGroupFrames := 2 }] }
        wire := []
        rx := [] }
  | .right =>
      { path := { Path.started cfg with rxDataCreditPending := dataCreditWindow cfg.rxRingSize - 1 }
        wire := []
        rx := [] }

theorem stuckLink_settled (cfg : PathConfig) (least : 2 ≤ dataCreditWindow cfg.rxRingSize)
    (most : dataCreditWindow cfg.rxRingSize ≤ dataCreditBatch) :
    (stuckLink cfg).Settled .left cfg.rxRingSize where
  ring := rfl
  learned := rfl
  consumed := rfl
  returned := rfl
  whole := by
    show 1 + (dataCreditWindow cfg.rxRingSize - 1) = _
    omega
  heldBack := by
    show dataCreditWindow cfg.rxRingSize - 1 < _
    rw [creditReturnThreshold_small (by omega) most]
    omega

theorem neverStuck_of_startable {rxRingSize : Nat}
    (large : dataCreditWindow rxRingSize = 1 ∨ 2 * dataCreditBatch ≤ dataCreditWindow rxRingSize) :
    NeverStuck rxRingSize := by
  intro link side settled packet head
  have whole := settled.whole
  have heldBack := settled.heldBack
  have required := startCreditRequired_le_threshold packet.startCreditGroupFrames (dataCreditWindow rxRingSize)
  have threshold := creditReturnThreshold_le (dataCreditWindow rxRingSize)
  rcases large with single | batches
  · have one : creditReturnThreshold (dataCreditWindow rxRingSize) = 1 := by
      rw [single]
      rfl
    omega
  · have batch : 0 < dataCreditBatch := by decide
    omega

/-- The head of a data queue never waits for credits that are held back if and only if the window is one
credit or at least two batches. -/
theorem start_credit_never_stuck (cfg : PathConfig) : NeverStuck cfg.rxRingSize ↔ startable cfg.rxRingSize := by
  have positive := cfg.rx_positive
  rcases dataCreditWindow_cases positive with ⟨fits, large⟩ | ⟨unfit, least, most⟩
  · exact ⟨fun _ => fits, fun _ => neverStuck_of_startable large⟩
  · refine ⟨fun never => ?_, fun fits => absurd fits unfit⟩
    have started := never (stuckLink cfg) .left (stuckLink_settled cfg least most) _ rfl
    have required : startCreditRequired 2 (dataCreditWindow cfg.rxRingSize) = 2 := by
      simp only [startCreditRequired, creditReturnThreshold_small (by omega : 0 < dataCreditWindow cfg.rxRingSize) most]
      split
      · omega
      · split <;> omega
    have one : (stuckLink cfg .left).path.txRemoteDataCredits = 1 := rfl
    simp only [required, one] at started
    omega

theorem smallRing_pos : 0 < 4 := by decide

theorem smallRing_u32 : 4 < 2 ^ 32 := by decide

def smallPaths : Side → PathConfig := fun _ =>
  { txRingSize := 8, rxRingSize := 4, rx_positive := smallRing_pos, rx_u32 := smallRing_u32 }

def twoFrames : SendMsg where
  op := .send
  destQp := 7
  srcQp := 5
  psn := 1
  totalLen := 4049
  immData := 0
  remoteAddr := 0
  rkey := 0
  solicited := false

/-- With a receive ring of four frames the window is two credits. A READ request is consumed, its credit
held back, and a message of two frames is queued behind it. -/
def stuckRun : List LinkAction :=
  [.local .left .enableTunnel, .local .right .enableTunnel,
    .local .left (.emit (.readRequest 7 5 0 4096 0 99 1) true), .local .left .schedule,
    .local .left (.take 32), .local .left (.post none), .deliver .right 0, .local .right (.repost 0),
    .local .left (.txComplete 0), .local .left (.take 32), .local .left (.reserve 2),
    .local .left (.emit (.fragments twoFrames 2 [(0, 4048, false), (4048, 1, true)]) true)]

def Link.waits (link : Link) : Bool :=
  (link .left).path.txDataQueue.head?.any fun packet =>
    link.chargedInFlight .left = 0 ∧ link.creditsInFlight .right = 0 ∧
      (link .right).path.cfg.rxRingSize = 4 ∧ (link .left).path.txRemoteDataCreditMax = dataCreditWindow 4 ∧
      (link .left).path.txRemoteDataCredits + (link .right).path.rxDataCreditPending = dataCreditWindow 4 ∧
      (link .right).path.rxDataCreditPending < creditReturnThreshold (dataCreditWindow 4) ∧
      (link .left).path.txRemoteDataCredits <
        max 1 (startCreditRequired packet.startCreditGroupFrames (dataCreditWindow 4))

theorem small_window_stuck :
    ∃ link, (linkSystem smallPaths).Reachable link ∧ link.Settled .left 4 ∧
      ∃ packet ∈ (link .left).path.txDataQueue.head?,
        ¬ max 1 (startCreditRequired packet.startCreditGroupFrames (dataCreditWindow 4)) ≤
          (link .left).path.txRemoteDataCredits := by
  obtain ⟨link, reachable, waits⟩ := System.exists_reachableVia (linkSystem smallPaths) (fun _ _ => True)
    stuckRun Link.waits rfl (by decide +kernel)
  simp only [Link.waits, Option.any_eq_true_iff_get, decide_eq_true_eq] at waits
  obtain ⟨some_, consumed, returned, ring, learned, whole, heldBack, short⟩ := waits
  refine ⟨link, reachable, ⟨ring, learned, consumed, returned, whole, heldBack⟩, _,
    Option.get_mem some_, ?_⟩
  omega

end ThunderboltVerbs.DataPath
