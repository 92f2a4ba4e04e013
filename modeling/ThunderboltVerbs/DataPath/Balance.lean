import ThunderboltVerbs.DataPath.Resources

/-!
# Balance of a path's resources

Whatever HopID or ring a path holds is named by its fields, so every function that releases one knows
which. The free list of the transmit frames has no such field: frames that were set up before a failure
stay on it.
-/

namespace ThunderboltVerbs.DataPath
open Lib

def FrameAnswers.added (answers : FrameAnswers) (count : Nat) : List Nat :=
  if answers.dmaReady && answers.array then (PathResources.setUp answers.frame 0 count).1 else []

def FrameAnswers.complete (answers : FrameAnswers) (count : Nat) : Bool :=
  answers.dmaReady && answers.array && (PathResources.setUp answers.frame 0 count).2 = 0

namespace PathResources

def heldHop (resource : Int → Resource) (hop : Int) : Multiset Resource := if 0 ≤ hop then resource hop ::ₘ 0 else 0

def heldRing (ring : Option Nat) : Multiset Resource := ring.elim 0 fun ring => .ring ring ::ₘ 0

def held (p : PathResources) : Multiset Resource :=
  heldHop .inHop p.remoteTransmitPath + heldHop .outHop p.localTransmitPath + heldRing p.txRing + heldRing p.rxRing

structure Accounted (p : PathResources) : Prop where
  holds : Holds p.uses p.held
  remote : p.remoteTransmitPath = -1 ∨ 0 ≤ p.remoteTransmitPath
  out : p.localTransmitPath = -1 ∨ 0 ≤ p.localTransmitPath

variable {p p' : PathResources}

/-! ## HopIDs and rings -/

@[simp] theorem heldHop_none (resource : Int → Resource) : heldHop resource (-1) = 0 := rfl

theorem heldHop_some {hop : Int} (resource : Int → Resource) (valid : 0 ≤ hop) :
    heldHop resource hop = resource hop ::ₘ 0 := if_pos valid

@[simp] theorem heldRing_none : heldRing none = 0 := rfl

@[simp] theorem heldRing_some (ring : Nat) : heldRing (some ring) = .ring ring ::ₘ 0 := rfl

theorem Accounted.obtained (accounted : p.Accounted) {resource : Resource}
    (uses : p'.uses = .obtained resource :: p.uses)
    (held : p'.held = resource ::ₘ p.held) : Holds p'.uses p'.held := by
  rw [uses, held]
  exact .obtain resource accounted.holds

theorem Accounted.released (accounted : p.Accounted) {resource : Resource}
    (uses : p'.uses = .released resource :: p.uses)
    (held : p.held = resource ::ₘ p'.held) : Holds p'.uses p'.held := by
  rw [uses]
  exact .release resource (held ▸ accounted.holds)

theorem Accounted.obtainInHop (accounted : p.Accounted) (free : p.remoteTransmitPath = -1) {hop : Int}
    (valid : 0 ≤ hop) : (p.obtainInHop hop).Accounted := by
  refine ⟨accounted.obtained rfl ?_, .inr valid, accounted.out⟩
  simp only [held, PathResources.obtainInHop, free, heldHop_some _ valid, heldHop_none, Multiset.cons_add, zero_add]

theorem Accounted.releaseInHop (accounted : p.Accounted) (valid : 0 ≤ p.remoteTransmitPath) :
    p.releaseInHop.Accounted := by
  refine ⟨accounted.released rfl ?_, .inl rfl, accounted.out⟩
  simp only [held, PathResources.releaseInHop, heldHop_some _ valid, heldHop_none, Multiset.cons_add, zero_add]

theorem Accounted.returnInHop (accounted : p.Accounted) (hop : Int) : (p.returnInHop hop).Accounted := by
  simp only [PathResources.returnInHop]
  split
  · exact ⟨.release _ (.obtain _ accounted.holds), accounted.remote, accounted.out⟩
  · exact accounted

theorem Accounted.obtainOutHop (accounted : p.Accounted) (free : p.localTransmitPath = -1) {hop : Int}
    (valid : 0 ≤ hop) : (p.obtainOutHop hop).Accounted := by
  refine ⟨accounted.obtained rfl ?_, accounted.remote, .inr valid⟩
  simp only [held, PathResources.obtainOutHop, free, heldHop_some _ valid, heldHop_none, Multiset.add_cons,
    Multiset.cons_add, add_zero]

theorem Accounted.releaseOutHop (accounted : p.Accounted) (valid : 0 ≤ p.localTransmitPath) :
    p.releaseOutHop.Accounted := by
  refine ⟨accounted.released rfl ?_, accounted.remote, .inl rfl⟩
  simp only [held, PathResources.releaseOutHop, heldHop_some _ valid, heldHop_none, Multiset.add_cons,
    Multiset.cons_add, add_zero]

theorem Accounted.obtainTxRing (accounted : p.Accounted) (free : p.txRing = none) (ring : Nat) :
    (p.obtainTxRing ring).Accounted := by
  refine ⟨accounted.obtained rfl ?_, accounted.remote, accounted.out⟩
  simp only [held, PathResources.obtainTxRing, free, heldRing_some, heldRing_none, Multiset.add_cons, Multiset.cons_add,
    add_zero]

theorem Accounted.freeTxRing (accounted : p.Accounted) : p.freeTxRing.Accounted := by
  cases ring : p.txRing with
  | none =>
      simp only [PathResources.freeTxRing, ring]
      exact accounted
  | some number =>
      simp only [PathResources.freeTxRing, ring]
      refine ⟨accounted.released rfl ?_, accounted.remote, accounted.out⟩
      simp only [held, ring, heldRing_some, heldRing_none, Multiset.add_cons, Multiset.cons_add, add_zero]

theorem Accounted.obtainRxRing (accounted : p.Accounted) (free : p.rxRing = none) (ring : Nat) :
    (p.obtainRxRing ring).Accounted := by
  refine ⟨accounted.obtained rfl ?_, accounted.remote, accounted.out⟩
  simp only [held, PathResources.obtainRxRing, free, heldRing_some, heldRing_none, Multiset.add_cons, add_zero]

theorem Accounted.freeRxRing (accounted : p.Accounted) : p.freeRxRing.Accounted := by
  cases ring : p.rxRing with
  | none =>
      simp only [PathResources.freeRxRing, ring]
      exact accounted
  | some number =>
      simp only [PathResources.freeRxRing, ring]
      refine ⟨accounted.released rfl ?_, accounted.remote, accounted.out⟩
      simp only [held, ring, heldRing_some, heldRing_none, Multiset.add_cons, add_zero]

theorem Accounted.congr (accounted : p.Accounted) (uses : p'.uses = p.uses)
    (remote : p'.remoteTransmitPath = p.remoteTransmitPath) (out : p'.localTransmitPath = p.localTransmitPath)
    (txRing : p'.txRing = p.txRing) (rxRing : p'.rxRing = p.rxRing) : p'.Accounted := by
  obtain ⟨holds, remoteOk, outOk⟩ := accounted
  refine ⟨?_, remote ▸ remoteOk, out ▸ outOk⟩
  rw [uses, held, remote, out, txRing, rxRing]
  exact holds

/-! ## Unwinding -/

theorem Accounted.errInHop (accounted : p.Accounted) : p.errInHop.Accounted := by
  simp only [PathResources.errInHop]
  split
  · rename_i valid
    exact accounted.releaseInHop valid
  · exact accounted

theorem errInHop_eq (remote : p.remoteTransmitPath = -1 ∨ 0 ≤ p.remoteTransmitPath) :
    ∃ uses, p.errInHop = { p with remoteTransmitPath := -1, uses } := by
  simp only [PathResources.errInHop]
  split
  · exact ⟨_, rfl⟩
  · rename_i negative
    have none := remote.resolve_right negative
    exact ⟨p.uses, by rw [← none]⟩

theorem freeTxRing_eq (p : PathResources) : ∃ uses, p.freeTxRing = { p with txRing := none, uses } := by
  cases ring : p.txRing with
  | none => exact ⟨p.uses, by simp only [freeTxRing, ring]; rw [← ring]⟩
  | some number => exact ⟨_, by simp only [freeTxRing, ring]; rfl⟩

theorem freeRxRing_eq (p : PathResources) : ∃ uses, p.freeRxRing = { p with rxRing := none, uses } := by
  cases ring : p.rxRing with
  | none => exact ⟨p.uses, by simp only [freeRxRing, ring]; rw [← ring]⟩
  | some number => exact ⟨_, by simp only [freeRxRing, ring]; rfl⟩

theorem errTxRing_eq (remote : p.remoteTransmitPath = -1 ∨ 0 ≤ p.remoteTransmitPath) :
    ∃ uses, p.errTxRing = { p with remoteTransmitPath := -1, txRing := none, uses } := by
  obtain ⟨freed, ring⟩ := p.freeTxRing_eq
  obtain ⟨uses, hop⟩ := errInHop_eq (p := p.freeTxRing) (by rw [ring]; exact remote)
  exact ⟨uses, by rw [errTxRing, hop, ring]⟩

theorem errOutHop_eq (remote : p.remoteTransmitPath = -1 ∨ 0 ≤ p.remoteTransmitPath) :
    ∃ uses, p.errOutHop =
      { p with remoteTransmitPath := -1, txRing := none, localTransmitPath := -1, uses } :=
  errTxRing_eq (p := p.releaseOutHop) remote

theorem errRxRing_eq (remote : p.remoteTransmitPath = -1 ∨ 0 ≤ p.remoteTransmitPath) :
    ∃ uses, p.errRxRing =
      { p with remoteTransmitPath := -1, txRing := none, localTransmitPath := -1, rxRing := none, uses } := by
  obtain ⟨freed, ring⟩ := p.freeRxRing_eq
  obtain ⟨uses, rest⟩ := errOutHop_eq (p := p.freeRxRing) (by rw [ring]; exact remote)
  exact ⟨uses, by rw [errRxRing, rest, ring]⟩

theorem Accounted.errTxRing (accounted : p.Accounted) : p.errTxRing.Accounted := accounted.freeTxRing.errInHop

theorem Accounted.errOutHop (accounted : p.Accounted) (valid : 0 ≤ p.localTransmitPath) : p.errOutHop.Accounted :=
  (accounted.releaseOutHop valid).errTxRing

theorem Accounted.errRxRing (accounted : p.Accounted) (valid : 0 ≤ p.localTransmitPath) : p.errRxRing.Accounted := by
  obtain ⟨freed, ring⟩ := p.freeRxRing_eq
  apply accounted.freeRxRing.errOutHop
  rw [ring]
  exact valid

theorem Accounted.freeTxFrames (accounted : p.Accounted) : p.freeTxFrames.Accounted := by
  simp only [PathResources.freeTxFrames]
  split
  · exact accounted
  · exact accounted.congr rfl rfl rfl rfl rfl

theorem Accounted.freeRxFrames (accounted : p.Accounted) : p.freeRxFrames.Accounted := by
  simp only [PathResources.freeRxFrames]
  split
  · exact accounted
  · exact accounted.congr rfl rfl rfl rfl rfl

/-! ## Allocation -/

theorem allocTxFrames_eq (p : PathResources) (answers : FrameAnswers) :
    ∃ ret, p.allocTxFrames answers =
        ({ p with
            txFree := p.txFree ++ answers.added p.cfg.txRingSize
            txFrames := if answers.complete p.cfg.txRingSize then some p.cfg.txRingSize else p.txFrames }, ret) ∧
      (ret = 0 ↔ answers.complete p.cfg.txRingSize = true) := by
  by_cases ready : answers.dmaReady = true
  · by_cases array : answers.array = true
    · by_cases all : (setUp answers.frame 0 p.cfg.txRingSize).2 = 0
      · exact ⟨0, by simp [allocTxFrames, FrameAnswers.added, FrameAnswers.complete, ready, array, all],
          by simp [FrameAnswers.complete, ready, array, all]⟩
      · exact ⟨(setUp answers.frame 0 p.cfg.txRingSize).2,
          by simp [allocTxFrames, FrameAnswers.added, FrameAnswers.complete, ready, array, all],
          by simp [FrameAnswers.complete, all]⟩
    · exact ⟨eNoMem, by simp [allocTxFrames, FrameAnswers.added, FrameAnswers.complete, ready, array],
        by simp [FrameAnswers.complete, array, eNoMem]⟩
  · exact ⟨eProbeDefer, by simp [allocTxFrames, FrameAnswers.added, FrameAnswers.complete, ready],
      by simp [FrameAnswers.complete, ready, eProbeDefer]⟩

theorem allocRxFrames_eq (p : PathResources) (answers : FrameAnswers) :
    p.allocRxFrames answers = ({ p with rxFrames := some p.cfg.rxRingSize }, 0) ∨
      ∃ ret, ret ≠ 0 ∧ p.allocRxFrames answers = (p, ret) := by
  simp only [allocRxFrames]
  split
  · exact .inr ⟨eProbeDefer, by simp [eProbeDefer], rfl⟩
  split
  · exact .inr ⟨eNoMem, by simp [eNoMem], rfl⟩
  split
  · rename_i failed
    exact .inr ⟨_, failed, rfl⟩
  · exact .inl rfl

theorem allocControlPackets_eq (p : PathResources) (array : Bool) :
    (∃ txControlFree txControlPackets, p.allocControlPackets array = ({ p with txControlFree, txControlPackets }, 0)) ∨
      p.allocControlPackets array = (p, eNoMem) := by
  simp only [allocControlPackets]
  split
  · exact .inr rfl
  · exact .inl ⟨_, _, rfl⟩

theorem allocDataPackets_eq (p : PathResources) (array : Bool) (packet : Nat → Int) (empty : p.txDataFree = []) :
    (∃ txDataFree txDataPackets, p.allocDataPackets array packet = ({ p with txDataFree, txDataPackets }, 0)) ∨
      p.allocDataPackets array packet = (p, eNoMem) := by
  simp only [allocDataPackets]
  split
  · exact .inl ⟨p.txDataFree, p.txDataPackets, rfl⟩
  split
  · exact .inr rfl
  split
  · refine .inr ?_
    rw [← empty]
  · exact .inl ⟨_, _, rfl⟩

structure Wired (p : PathResources) : Prop where
  accounted : p.Accounted
  out : 0 ≤ p.localTransmitPath
  txRing : p.txRing ≠ none
  rxRing : p.rxRing ≠ none
  txFrames : p.txFrames = none
  rxFrames : p.rxFrames = none
  txControlPackets : p.txControlPackets = none
  txDataPackets : p.txDataPackets = none
  txControlFree : p.txControlFree = []
  txDataFree : p.txDataFree = []

/-- The path is as a new one, except for its state, the transmit free list and the past. -/
def Idle (p : PathResources) : Prop := p = { cfg := p.cfg, state := p.state, txFree := p.txFree, uses := p.uses }

structure Ready (p : PathResources) : Prop where
  accounted : p.Accounted
  out : 0 ≤ p.localTransmitPath
  txRing : p.txRing ≠ none
  rxRing : p.rxRing ≠ none
  txFrames : p.txFrames ≠ none
  rxFrames : p.rxFrames ≠ none

/-- What stays on `tx_free` when a step after the receive ring fails. -/
def leftover (p : PathResources) (answers : AllocAnswers) : List Nat :=
  if answers.throttling ≠ 0 then p.txFree
  else if answers.txFrames.complete p.cfg.txRingSize then []
  else p.txFree ++ answers.txFrames.added p.cfg.txRingSize

structure Failed (cfg : ResourceConfig) (state : PathState) (p : PathResources) (txFree : List Nat) : Prop where
  accounted : p.Accounted
  blank : p = { cfg, state, txFree, uses := p.uses }

def Outcome (cfg : ResourceConfig) (state : PathState) (result : PathResources × Int) (txFree : List Nat) : Prop :=
  (result.2 = 0 ∧ result.1.Ready ∧ result.1.cfg = cfg ∧ result.1.state = .ringAllocated) ∨
    (result.2 ≠ 0 ∧ Failed cfg state result.1 txFree)

theorem Wired.errRxRing (wired : p.Wired) (txFree : List Nat) :
    Failed p.cfg p.state { p with txFree }.errRxRing txFree := by
  have accounted : { p with txFree }.Accounted := wired.accounted.congr rfl rfl rfl rfl rfl
  refine ⟨accounted.errRxRing wired.out, ?_⟩
  obtain ⟨uses, unwound⟩ := errRxRing_eq (p := { p with txFree }) wired.accounted.remote
  rw [unwound]
  simp [wired.txFrames, wired.rxFrames, wired.txControlPackets, wired.txDataPackets, wired.txControlFree,
    wired.txDataFree]

theorem Wired.errTxFrames (wired : p.Wired) (txFree : List Nat) (count : Nat) :
    Failed p.cfg p.state { p with txFree, txFrames := some count }.errTxFrames [] := by
  have freed : { p with txFree, txFrames := some count }.freeTxFrames = { p with txFree := [] } := by
    simp [freeTxFrames, wired.txRing, wired.txFrames]
  rw [PathResources.errTxFrames, freed]
  exact wired.errRxRing []

theorem Wired.errRxFrames (wired : p.Wired) (txFree : List Nat) (txCount rxCount : Nat) :
    Failed p.cfg p.state { p with txFree, txFrames := some txCount, rxFrames := some rxCount }.errRxFrames [] := by
  have freed : { p with txFree, txFrames := some txCount, rxFrames := some rxCount }.freeRxFrames =
      { p with txFree, txFrames := some txCount } := by
    simp [freeRxFrames, wired.rxRing, wired.rxFrames]
  rw [PathResources.errRxFrames, freed]
  exact wired.errTxFrames txFree txCount

theorem Wired.allocBuffers (wired : p.Wired) (answers : AllocAnswers) :
    Outcome p.cfg p.state (p.allocBuffers answers) (p.leftover answers) := by
  simp only [Outcome, PathResources.allocBuffers, leftover]
  by_cases throttled : answers.throttling = 0
  swap
  · rw [if_pos throttled, if_pos throttled]
    exact .inr ⟨throttled, wired.errRxRing p.txFree⟩
  obtain ⟨ret, tx, outcome⟩ := p.allocTxFrames_eq answers.txFrames
  simp only [throttled, ne_eq, not_true_eq_false, if_false, tx]
  by_cases complete : answers.txFrames.complete p.cfg.txRingSize = true
  swap
  · have failed : ret ≠ 0 := fun ok => complete (outcome.mp ok)
    simp only [failed, complete, not_false_eq_true, if_true, Bool.false_eq_true, if_false]
    exact .inr ⟨trivial, wired.errRxRing (p.txFree ++ answers.txFrames.added p.cfg.txRingSize)⟩
  have ok := outcome.mpr complete
  simp only [ok, complete, not_true_eq_false, if_false, if_true]
  generalize p.txFree ++ answers.txFrames.added p.cfg.txRingSize = txFree
  rcases allocRxFrames_eq { p with txFree, txFrames := some p.cfg.txRingSize } answers.rxFrames with
    rx | ⟨ret, failed, rx⟩
  swap
  · simp only [rx, failed, not_false_eq_true, if_true]
    exact .inr ⟨trivial, wired.errTxFrames txFree _⟩
  simp only [rx, not_true_eq_false, if_false]
  have noMem : eNoMem ≠ 0 := by decide
  rcases allocControlPackets_eq { p with txFree, txFrames := some p.cfg.txRingSize, rxFrames := some p.cfg.rxRingSize }
    answers.controlPackets with ⟨txControlFree, txControlPackets, control⟩ | control
  swap
  · simp only [control, noMem, not_false_eq_true, if_true]
    exact .inr ⟨trivial, wired.errRxFrames txFree _ _⟩
  simp only [control, not_true_eq_false, if_false]
  rcases allocDataPackets_eq
    { p with
      txFree, txFrames := some p.cfg.txRingSize, rxFrames := some p.cfg.rxRingSize, txControlFree, txControlPackets }
    answers.dataPackets answers.dataPacket wired.txDataFree with ⟨txDataFree, txDataPackets, data⟩ | data
  · simp only [data, not_true_eq_false, if_false]
    exact .inl ⟨trivial, ⟨wired.accounted.congr rfl rfl rfl rfl rfl, wired.out, wired.txRing, wired.rxRing,
      Option.some_ne_none _, Option.some_ne_none _⟩, trivial, trivial⟩
  · simp only [data, noMem, not_false_eq_true, if_true]
    have freed : { p with
        txFree, txFrames := some p.cfg.txRingSize, rxFrames := some p.cfg.rxRingSize, txControlFree,
        txControlPackets }.freeControlPackets =
        { p with txFree, txFrames := some p.cfg.txRingSize, rxFrames := some p.cfg.rxRingSize } := by
      simp [freeControlPackets, wired.txControlFree, wired.txControlPackets]
    rw [errControlPackets, freed]
    exact .inr ⟨trivial, wired.errRxFrames txFree _ _⟩

structure Claimed (p : PathResources) : Prop where
  accounted : p.Accounted
  blank : p =
    { cfg := p.cfg, state := p.state, remoteTransmitPath := p.remoteTransmitPath, txFree := p.txFree, uses := p.uses }

theorem Claimed.txRing (claimed : p.Claimed) : p.txRing = none := by rw [claimed.blank]

theorem Claimed.rxRing (claimed : p.Claimed) : p.rxRing = none := by rw [claimed.blank]

theorem Claimed.out (claimed : p.Claimed) : p.localTransmitPath = -1 := by rw [claimed.blank]

def wires (answers : AllocAnswers) : Bool := answers.txRing.isSome && 0 ≤ answers.outHop && answers.rxRing.isSome

theorem Claimed.allocQueues (claimed : p.Claimed) (answers : AllocAnswers) :
    Outcome p.cfg p.state (p.allocQueues answers) (if wires answers then p.leftover answers else p.txFree) := by
  have remote := claimed.accounted.remote
  have noMem : eNoMem ≠ 0 := by decide
  rcases txRing : answers.txRing with _ | ring
  · have failed : p.allocQueues answers = (p.errInHop, eNoMem) := by simp [PathResources.allocQueues, txRing]
    rw [failed]
    refine .inr ⟨noMem, claimed.accounted.errInHop, ?_⟩
    obtain ⟨uses, unwound⟩ := errInHop_eq remote
    rw [unwound, claimed.blank]
    simp [wires, txRing]
  have tx := claimed.accounted.obtainTxRing claimed.txRing ring
  by_cases negative : answers.outHop < 0
  · have failed : p.allocQueues answers = ((p.obtainTxRing ring).errTxRing, answers.outHop) := by
      simp [PathResources.allocQueues, txRing, negative]
    rw [failed]
    refine .inr ⟨ne_of_lt negative, tx.errTxRing, ?_⟩
    obtain ⟨uses, unwound⟩ := errTxRing_eq (p := p.obtainTxRing ring) remote
    have invalid : ¬0 ≤ answers.outHop := by omega
    rw [unwound]
    simp only [PathResources.obtainTxRing]
    rw [claimed.blank]
    simp [wires, invalid]
  have valid : 0 ≤ answers.outHop := by omega
  have out := tx.obtainOutHop claimed.out valid
  rcases rxRing : answers.rxRing with _ | rx
  · have failed : p.allocQueues answers =
        (((p.obtainTxRing ring).obtainOutHop answers.outHop).errOutHop, eNoMem) := by
      simp [PathResources.allocQueues, txRing, negative, rxRing]
    rw [failed]
    refine .inr ⟨noMem, out.errOutHop valid, ?_⟩
    obtain ⟨uses, unwound⟩ := errOutHop_eq (p := (p.obtainTxRing ring).obtainOutHop answers.outHop) remote
    rw [unwound]
    simp only [PathResources.obtainTxRing, PathResources.obtainOutHop]
    rw [claimed.blank]
    simp [wires, rxRing]
  let wired := ((p.obtainTxRing ring).obtainOutHop answers.outHop).obtainRxRing rx
  have complete : wired.Wired := by
    refine ⟨out.obtainRxRing claimed.rxRing rx, valid, Option.some_ne_none _, Option.some_ne_none _, ?_, ?_, ?_, ?_,
      ?_, ?_⟩
    all_goals
      simp only [wired, PathResources.obtainTxRing, PathResources.obtainOutHop, PathResources.obtainRxRing]
      rw [claimed.blank]
  have goes : p.allocQueues answers = wired.allocBuffers answers := by
    simp [PathResources.allocQueues, txRing, negative, rxRing, wired]
  have wires : wires answers = true := by simp [wires, txRing, valid, rxRing]
  rw [goes, if_pos wires]
  exact complete.allocBuffers answers

def reachesFrames (p : PathResources) (answers : AllocAnswers) : Bool :=
  (p.cfg.receivePath < 0 || answers.inHop = p.cfg.receivePath) && wires answers && answers.throttling = 0

/-- All transmit frames are set up, or none is and the free list was empty before. -/
def unwinds (p : PathResources) (answers : AllocAnswers) : Bool :=
  if p.reachesFrames answers then
    answers.txFrames.complete p.cfg.txRingSize ||
      (p.txFree = [] && answers.txFrames.added p.cfg.txRingSize = [])
  else p.txFree = []

theorem Idle.allocRings (idle : p.Idle) (accounted : p.Accounted) (usable : p.state = .new ∨ p.state = .stopped)
    (answers : AllocAnswers) : ∃ txFree, Outcome p.cfg p.state (p.allocRings answers) txFree ∧
      (txFree = [] ↔ p.unwinds answers = true) := by
  have taken : ¬(p.state ≠ .new ∧ p.state ≠ .stopped) := by
    rintro ⟨new, stopped⟩
    exact usable.elim new stopped
  -- What the steps after the in-HopID leave on the free list.
  have left : ((if wires answers then p.leftover answers else p.txFree) = [] ↔
      (if wires answers && answers.throttling = 0 then
        answers.txFrames.complete p.cfg.txRingSize ||
          (p.txFree = [] && answers.txFrames.added p.cfg.txRingSize = [])
      else p.txFree = []) = true) := by
    by_cases wired : wires answers = true
    · by_cases throttled : answers.throttling = 0
      · by_cases complete : answers.txFrames.complete p.cfg.txRingSize = true
        · simp [wired, leftover, throttled, complete]
        · simp [wired, leftover, throttled, complete]
      · simp [wired, leftover, throttled]
    · simp [wired]
  by_cases asks : 0 ≤ p.cfg.receivePath
  · by_cases granted : answers.inHop = p.cfg.receivePath
    · have claimed : (p.obtainInHop answers.inHop).Claimed := by
        refine ⟨accounted.obtainInHop (by rw [idle]) (by omega), ?_⟩
        simp only [PathResources.obtainInHop]
        rw [idle]
      refine ⟨_, ?_, left.trans ?_⟩
      · have goes : p.allocRings answers = (p.obtainInHop answers.inHop).allocQueues answers := by
          simp only [PathResources.allocRings, if_neg taken, if_pos asks, granted, ne_eq, not_true_eq_false, if_false]
        rw [goes]
        exact claimed.allocQueues answers
      · simp [unwinds, reachesFrames, granted]
    · refine ⟨p.txFree, .inr ⟨?_, ?_, ?_⟩, ?_⟩
      · simp only [PathResources.allocRings, if_neg taken, if_pos asks, ne_eq, granted, not_false_eq_true, if_true]
        split
        · omega
        · decide
      · simp only [PathResources.allocRings, if_neg taken, if_pos asks, ne_eq, granted, not_false_eq_true, if_true]
        exact accounted.returnInHop answers.inHop
      · simp only [PathResources.allocRings, if_neg taken, if_pos asks, ne_eq, granted, not_false_eq_true, if_true,
          PathResources.returnInHop]
        split
        · rw [idle]
        · exact idle
      · have refused : ¬p.cfg.receivePath < 0 := by omega
        simp [unwinds, reachesFrames, granted, refused]
  · have claimed : p.Claimed := ⟨accounted, by rw [idle]⟩
    refine ⟨_, ?_, left.trans ?_⟩
    · have goes : p.allocRings answers = p.allocQueues answers := by
        simp only [PathResources.allocRings, if_neg taken, if_neg asks]
      rw [goes]
      exact claimed.allocQueues answers
    · have unasked : p.cfg.receivePath < 0 := by omega
      simp [unwinds, reachesFrames, unasked]

/-! ## Destruction -/

theorem Accounted.stopTunnel (accounted : p.Accounted)
    (tunnel : p.state = .tunnelEnabled → 0 ≤ p.remoteTransmitPath) (error : Int) :
    (p.stopTunnel error).Accounted ∧
      ∃ state uses, p.stopTunnel error = { p with remoteTransmitPath := -1, state, uses } := by
  by_cases enabled : p.state = .tunnelEnabled
  · have valid := tunnel enabled
    have released := accounted.releaseInHop valid
    -- Whether or not the tunnel could be disabled, the in-HopID is released once.
    have stopped : p.stopTunnel error = { p.releaseInHop with state := .ringAllocated } := by
      by_cases failed : error = 0
      · simp [PathResources.stopTunnel, disableTunnel, enabled, failed]
      · simp [PathResources.stopTunnel, disableTunnel, enabled, failed, valid]
    rw [stopped]
    exact ⟨released.congr rfl rfl rfl rfl rfl, _, _, rfl⟩
  · have stopped : ∃ state, p.stopTunnel error = { p with state }.errInHop := by
      simp only [PathResources.stopTunnel, enabled, if_false]
      split
      · exact ⟨_, rfl⟩
      · exact ⟨p.state, rfl⟩
    obtain ⟨state, stopped⟩ := stopped
    have same : { p with state }.Accounted := accounted.congr rfl rfl rfl rfl rfl
    obtain ⟨uses, unwound⟩ := errInHop_eq same.remote
    rw [stopped]
    exact ⟨same.errInHop, state, uses, unwound⟩

theorem Accounted.destroyRx (accounted : p.Accounted) (frames : p.rxRing = none → p.rxFrames = none) :
    p.destroyRx.Accounted ∧ ∃ uses, p.destroyRx = { p with rxRing := none, rxFrames := none, uses } := by
  cases ring : p.rxRing with
  | none =>
      simp only [PathResources.destroyRx, ring, if_true]
      exact ⟨accounted, p.uses, by apply PathResources.ext <;> simp [ring, frames ring]⟩
  | some number =>
      simp only [PathResources.destroyRx, ring, reduceCtorEq, if_false]
      refine ⟨accounted.freeRxFrames.freeRxRing, ?_⟩
      obtain ⟨uses, freed⟩ := p.freeRxFrames.freeRxRing_eq
      refine ⟨uses, ?_⟩
      rw [freed]
      by_cases empty : p.rxFrames = none
      · simp [PathResources.freeRxFrames, empty]
      · simp [PathResources.freeRxFrames, empty, ring]

theorem Accounted.destroyTx (accounted : p.Accounted) (frames : p.txRing = none → p.txFrames = none) :
    p.destroyTx.Accounted ∧
      ∃ txFree uses, p.destroyTx = { p with txRing := none, txFrames := none, txFree, uses } := by
  cases ring : p.txRing with
  | none =>
      simp only [PathResources.destroyTx, ring, if_true]
      exact ⟨accounted, p.txFree, p.uses, by apply PathResources.ext <;> simp [ring, frames ring]⟩
  | some number =>
      simp only [PathResources.destroyTx, ring, reduceCtorEq, if_false]
      refine ⟨accounted.freeTxFrames.freeTxRing, ?_⟩
      obtain ⟨uses, freed⟩ := p.freeTxFrames.freeTxRing_eq
      rw [freed]
      by_cases empty : p.txFrames = none
      · exact ⟨p.txFree, uses, by simp [PathResources.freeTxFrames, empty]⟩
      · exact ⟨[], uses, by simp [PathResources.freeTxFrames, empty, ring]⟩

theorem Accounted.destroyOutHop (accounted : p.Accounted) :
    p.destroyOutHop.Accounted ∧ ∃ uses, p.destroyOutHop = { p with localTransmitPath := -1, uses } := by
  simp only [PathResources.destroyOutHop]
  split
  · rename_i valid
    exact ⟨accounted.releaseOutHop valid, _, rfl⟩
  · rename_i negative
    have none := accounted.out.resolve_right negative
    exact ⟨accounted, p.uses, by rw [← none]⟩

theorem Accounted.destroy (accounted : p.Accounted) (tunnel : p.state = .tunnelEnabled → 0 ≤ p.remoteTransmitPath)
    (rxFrames : p.rxRing = none → p.rxFrames = none) (txFrames : p.txRing = none → p.txFrames = none) (error : Int) :
    (p.destroy error).Accounted ∧
      ∃ txFree uses, p.destroy error = { cfg := p.cfg, state := .stopped, txFree, uses } := by
  obtain ⟨accounted, state, first, stopped⟩ := accounted.stopTunnel tunnel error
  obtain ⟨accounted, second, rx⟩ := accounted.destroyRx (by rw [stopped]; exact rxFrames)
  obtain ⟨accounted, third, out⟩ := accounted.destroyOutHop
  obtain ⟨accounted, txFree, fourth, tx⟩ := accounted.destroyTx (by rw [out, rx, stopped]; exact txFrames)
  refine ⟨accounted.congr rfl rfl rfl rfl rfl, txFree, fourth, ?_⟩
  simp only [PathResources.destroy, freeDataPackets, freeControlPackets]
  rw [tx, out, rx, stopped]

/-! ## Runs -/

structure Inv (cfg : ResourceConfig) (p : PathResources) : Prop where
  cfg : p.cfg = cfg
  accounted : p.Accounted
  idle : p.state = .new ∨ p.state = .stopped → p.Idle
  ready : ¬(p.state = .new ∨ p.state = .stopped) → p.Ready
  tunnel : p.state = .tunnelEnabled → 0 ≤ p.remoteTransmitPath

theorem Idle.held (idle : p.Idle) : p.held = 0 := by
  rw [idle]
  rfl

theorem Inv.destroy {cfg : ResourceConfig} (inv : p.Inv cfg) (error : Int) : (p.destroy error).Inv cfg := by
  have rxFrames : p.rxRing = none → p.rxFrames = none := by
    intro ring
    by_cases usable : p.state = .new ∨ p.state = .stopped
    · rw [inv.idle usable]
    · exact absurd ring (inv.ready usable).rxRing
  have txFrames : p.txRing = none → p.txFrames = none := by
    intro ring
    by_cases usable : p.state = .new ∨ p.state = .stopped
    · rw [inv.idle usable]
    · exact absurd ring (inv.ready usable).txRing
  obtain ⟨accounted, txFree, uses, gone⟩ := inv.accounted.destroy inv.tunnel rxFrames txFrames error
  refine ⟨?_, accounted, ?_, ?_, ?_⟩
  · rw [gone]
    exact inv.cfg
  · intro usable
    rw [Idle, gone]
  · intro unusable
    rw [gone] at unusable
    exact absurd (.inr rfl) unusable
  · intro enabled
    rw [gone] at enabled
    cases enabled

theorem Ready.withState (ready : p.Ready) (state : PathState) : { p with state }.Ready :=
  ⟨ready.accounted.congr rfl rfl rfl rfl rfl, ready.out, ready.txRing, ready.rxRing, ready.txFrames, ready.rxFrames⟩

theorem Ready.inv {cfg : ResourceConfig} (ready : p.Ready) (same : p.cfg = cfg)
    (busy : ¬(p.state = .new ∨ p.state = .stopped)) (tunnel : p.state = .tunnelEnabled → 0 ≤ p.remoteTransmitPath) :
    p.Inv cfg where
  cfg := same
  accounted := ready.accounted
  idle := fun usable => absurd usable busy
  ready := fun _ => ready
  tunnel := tunnel

variable {cfg : ResourceConfig}

theorem Inv.allocRings (inv : p.Inv cfg) (answers : AllocAnswers) : (p.allocRings answers).1.Inv cfg := by
  by_cases usable : p.state = .new ∨ p.state = .stopped
  · obtain ⟨txFree, outcome, -⟩ := (inv.idle usable).allocRings inv.accounted usable answers
    rcases outcome with ⟨-, ready, same, state⟩ | ⟨-, failed⟩
    · exact ready.inv (same.trans inv.cfg) (by simp [state]) (by simp [state])
    · refine ⟨?_, failed.accounted, fun _ => ?_, fun busy => ?_, fun enabled => ?_⟩
      · rw [failed.blank]
        exact inv.cfg
      · rw [Idle, failed.blank]
      · rw [failed.blank] at busy
        exact absurd usable busy
      · rw [failed.blank] at enabled
        have enabled : p.state = .tunnelEnabled := enabled
        rw [enabled] at usable
        simp at usable
  · have refused : (p.allocRings answers).1 = p := by
      simp only [not_or] at usable
      simp [PathResources.allocRings, usable]
    rw [refused]
    exact inv

theorem Inv.startRings (inv : p.Inv cfg) (error : Int) : (p.startRings error).1.Inv cfg := by
  simp only [PathResources.startRings]
  split
  · exact inv
  · rename_i allocated
    simp only [ne_eq, not_not] at allocated
    exact ((inv.ready (by simp [allocated])).withState .ringStarted).inv inv.cfg (by simp) (by simp)

theorem Inv.rewire {q : PathResources} (inv : p.Inv cfg) (running : p.state = .ringStarted ∨ p.state = .tunnelEnabled)
    (accounted : q.Accounted)
    (same : q = { p with remoteTransmitPath := q.remoteTransmitPath, state := q.state, uses := q.uses })
    (state : q.state = .ringStarted ∨ (q.state = .tunnelEnabled ∧ 0 ≤ q.remoteTransmitPath)) : q.Inv cfg := by
  have busy : ¬(p.state = .new ∨ p.state = .stopped) := by
    rcases running with started | enabled
    · simp [started]
    · simp [enabled]
  have ready := inv.ready busy
  refine Ready.inv ⟨accounted, ?_, ?_, ?_, ?_, ?_⟩ ?_ ?_ ?_
  · rw [same]
    exact ready.out
  · rw [same]
    exact ready.txRing
  · rw [same]
    exact ready.rxRing
  · rw [same]
    exact ready.txFrames
  · rw [same]
    exact ready.rxFrames
  · rw [same]
    exact inv.cfg
  · rcases state with started | ⟨enabled, -⟩
    · simp [started]
    · simp [enabled]
  · intro enabled
    rcases state with started | ⟨-, valid⟩
    · rw [enabled] at started
      cases started
    · exact valid

theorem Inv.enablePaths {q : PathResources} (inv : p.Inv cfg) (started : p.state = .ringStarted)
    (accounted : q.Accounted)
    (same : q = { p with remoteTransmitPath := q.remoteTransmitPath, uses := q.uses })
    (valid : 0 ≤ q.remoteTransmitPath) (error : Int) : (q.enablePaths error).1.Inv cfg := by
  have state : q.state = .ringStarted := by
    rw [same]
    exact started
  simp only [PathResources.enablePaths]
  split
  · refine inv.rewire (.inl started) (accounted.releaseInHop valid) ?_ (.inl state)
    simp only [releaseInHop]
    rw [same]
  · refine inv.rewire (.inl started) (accounted.congr rfl rfl rfl rfl rfl) ?_ (.inr ⟨rfl, valid⟩)
    simp only
    rw [same]

theorem Inv.enableTunnel (inv : p.Inv cfg) (remoteTransmitPath : Nat) (inHop error : Int) :
    (p.enableTunnel remoteTransmitPath inHop error).1.Inv cfg := by
  simp only [PathResources.enableTunnel]
  split
  · exact inv
  rename_i started
  simp only [ne_eq, not_not] at started
  split
  · rename_i valid
    split
    · exact inv
    · exact inv.enablePaths started inv.accounted rfl valid error
  rename_i negative
  have free := inv.accounted.remote.resolve_right negative
  split
  · refine inv.rewire (.inl started) (inv.accounted.returnInHop inHop) ?_ (.inl ?_)
    · simp only [returnInHop]
      split <;> rfl
    · simp only [returnInHop]
      split <;> exact started
  · rename_i granted
    simp only [ne_eq, not_not] at granted
    have valid : 0 ≤ inHop := by omega
    exact inv.enablePaths started (inv.accounted.obtainInHop free valid) rfl valid error

theorem Inv.disableTunnel (inv : p.Inv cfg) (error : Int) : (p.disableTunnel error).1.Inv cfg := by
  simp only [PathResources.disableTunnel]
  split
  · exact inv
  rename_i enabled
  simp only [ne_eq, not_not] at enabled
  split
  · exact inv
  · have released := inv.accounted.releaseInHop (inv.tunnel enabled)
    exact inv.rewire (.inr enabled) (released.congr rfl rfl rfl rfl rfl) rfl (.inl rfl)

theorem Inv.step {p' : PathResources} (inv : p.Inv cfg) {action : ResourceAction} (stepped : p.step action = some p') :
    p'.Inv cfg := by
  cases action with
  | allocRings answers =>
      cases stepped
      exact inv.allocRings answers
  | startRings error =>
      cases stepped
      exact inv.startRings error
  | traffic txFree txControlFree txDataFree =>
      simp only [PathResources.step] at stepped
      split at stepped
      · rename_i running
        cases stepped
        have busy : ¬(p.state = .new ∨ p.state = .stopped) := by
          rcases running with started | enabled
          · simp [started]
          · simp [enabled]
        have ready := inv.ready busy
        exact Ready.inv ⟨ready.accounted.congr rfl rfl rfl rfl rfl, ready.out, ready.txRing, ready.rxRing,
          ready.txFrames, ready.rxFrames⟩ inv.cfg busy inv.tunnel
      · cases stepped
  | enableTunnel remoteTransmitPath inHop error =>
      cases stepped
      exact inv.enableTunnel remoteTransmitPath inHop error
  | disableTunnel error =>
      cases stepped
      exact inv.disableTunnel error
  | destroy error =>
      cases stepped
      exact inv.destroy error

theorem inv_new (cfg : ResourceConfig) : ({ cfg } : PathResources).Inv cfg where
  cfg := rfl
  accounted := ⟨.nothing, .inl rfl, .inl rfl⟩
  idle := fun _ => rfl
  ready := fun busy => absurd (.inl rfl) busy
  tunnel := by
    intro enabled
    cases enabled

/-- Every HopID and ring that was obtained is held by the path or was released once, and a destroyed path holds
none. An allocation that fails leaves the path as a new one if and only if all its transmit frames were set up or
none was. -/
theorem path_resources_balanced (cfg : ResourceConfig) (p : PathResources)
    (reachable : (resourceSystem cfg).Reachable p) :
    Holds p.uses p.held ∧
    (∀ error resource, (p.destroy error).uses.count (.obtained resource) =
      (p.destroy error).uses.count (.released resource)) ∧
    ∀ answers, p.state = .new ∨ p.state = .stopped → (p.allocRings answers).2 ≠ 0 →
      ((∃ uses, (p.allocRings answers).1 = { cfg, state := p.state, uses } ∧ Holds uses 0) ↔
        p.unwinds answers = true) := by
  have inv : p.Inv cfg := by
    refine reachable.invariant ?_ ?_
    · rintro p rfl
      exact inv_new cfg
    · intro p action p' inv _ stepped
      exact inv.step stepped
  refine ⟨inv.accounted.holds, ?_, ?_⟩
  · intro error resource
    have gone := inv.destroy error
    have holds := gone.accounted.holds
    rw [(gone.idle (.inr rfl)).held] at holds
    exact holds.released_once resource
  · intro answers usable failing
    obtain ⟨txFree, outcome, clean⟩ := (inv.idle usable).allocRings inv.accounted usable answers
    have failed : Failed p.cfg p.state (p.allocRings answers).1 txFree := by
      rcases outcome with ⟨success, -⟩ | ⟨-, failed⟩
      · exact absurd success failing
      · exact failed
    rw [← clean]
    constructor
    · rintro ⟨uses, unwound, -⟩
      have left := congrArg PathResources.txFree failed.blank
      rw [unwound] at left
      exact left.symm
    · rintro rfl
      refine ⟨_, inv.cfg ▸ failed.blank, ?_⟩
      have holds := failed.accounted.holds
      rw [failed.blank] at holds
      exact holds

end PathResources

def smallRings : ResourceConfig := { txRingSize := 2, rxRingSize := 2, receivePath := 9 }

def allFrames : FrameAnswers := { dmaReady := true, array := true, frame := fun _ => 0 }

def grantBut (txFrames rxFrames : FrameAnswers) : AllocAnswers where
  inHop := 9
  txRing := some 1
  outHop := 8
  rxRing := some 2
  throttling := 0
  txFrames
  rxFrames
  controlPackets := true
  dataPackets := true
  dataPacket := fun _ => 0

def secondFails : FrameAnswers := { allFrames with frame := fun i => if i = 1 then eNoMem else 0 }

theorem path_resources_balanced_rxFrames :
    ∃ uses, (({ cfg := smallRings } : PathResources).allocRings (grantBut allFrames secondFails)).1 =
      { cfg := smallRings, state := .new, uses } ∧ Holds uses 0 :=
  ((PathResources.path_resources_balanced smallRings { cfg := smallRings } (.init rfl)).2.2
    (grantBut allFrames secondFails) (.inl rfl) (by decide)).mpr (by decide)

/-- The first transmit frame stays on the free list when the second fails. -/
theorem tx_frame_left :
    let failed := ({ cfg := smallRings } : PathResources).allocRings (grantBut secondFails allFrames)
    failed.2 = eNoMem ∧ failed.1.txFrames = none ∧ failed.1.txFree = [0] ∧
      (failed.1.allocRings (grantBut allFrames allFrames)).1.txFree = [0, 0, 1] := by
  decide

end ThunderboltVerbs.DataPath
