import ThunderboltVerbs.Lib.System
import ThunderboltVerbs.Reliability.Fragments
import Mathlib.Algebra.Order.BigOperators.Group.Finset
import Mathlib.Data.Nat.Bitwise

/-!
# One operation over a network that loses, duplicates and reorders

A frame or an ACK that was ever emitted may be delivered at any time and any number of times, or
never.
-/

namespace ThunderboltVerbs.Reliability
open Proto Lib

def TxOp.finished (tx : TxOp) : Bool := tx.state == .complete || tx.state == .failed

structure Exchange where
  tx : TxOp
  rx : RxOp
  /-- The frames emitted since the sender last started from frame 0. -/
  pass : List DataFrame
  frames : List DataFrame
  acks : List AckFrame
  completions : List Completion
  deriving DecidableEq

inductive Action
  | nextFrame
  | timeout
  | deliver (frame : DataFrame) (recvAvailable : Bool)
  | ack (ack : AckFrame)
  deriving DecidableEq

namespace Exchange

def settle (s : Exchange) (result : Except Errno (TxOp × Option Completion)) : Exchange :=
  match result with
  | .error _ => s
  | .ok (tx, completion) =>
      { s with tx := tx, pass := if tx.nextFrame = 0 then [] else s.pass
               completions := s.completions ++ completion.toList }

def receive (s : Exchange) (frame : DataFrame) (recvAvailable : Bool) : Exchange :=
  match rxOnData s.rx frame recvAvailable with
  | (rx, .error _) => { s with rx := rx }
  | (rx, .ok event) => { s with rx := rx, acks := s.acks ++ event.ack.toList }

def step (s : Exchange) : Action → Option Exchange
  | .nextFrame =>
      match txNextFrame s.tx with
      | .error _ => some s
      | .ok (tx, frame) =>
          some { s with tx := tx, pass := s.pass ++ [frame], frames := s.frames ++ [frame] }
  | .timeout => some (s.settle (txOnTimeout s.tx))
  | .deliver frame recvAvailable =>
      if frame ∈ s.frames then some (s.receive frame recvAvailable) else none
  | .ack ack => if ack ∈ s.acks then some (s.settle (txOnAck s.tx ack)) else none

def Starts (s : Exchange) : Prop :=
  (∃ connId opId op totalLen maxPayload retryBudget rnrBudget,
    txStart connId opId op totalLen maxPayload retryBudget rnrBudget = .ok s.tx ∧
      s.rx = rxInit connId maxPayload) ∧
    s.pass = [] ∧ s.frames = [] ∧ s.acks = [] ∧ s.completions = []

def system : System Exchange Action where
  init := Starts
  step := step

end Exchange

/-! ## The receiver -/

theorem bit_toNat {index : UInt16} (small : index.toNat < 64) :
    ((1 : UInt64) <<< index.toUInt64).toNat = 2 ^ index.toNat := by
  rw [UInt64.toNat_shiftLeft, UInt16.toNat_toUInt64, Nat.mod_eq_of_lt small]
  change 1 <<< index.toNat % 2 ^ 64 = 2 ^ index.toNat
  rw [Nat.one_shiftLeft, Nat.mod_eq_of_lt (Nat.pow_lt_pow_right (by decide) small)]

theorem seen_eq_testBit (rx : RxOp) {frame : DataFrame} (small : frame.fragIndex.toNat < 64) :
    rx.seen frame = rx.receivedBitmap.toNat.testBit frame.fragIndex.toNat := by
  have masked : (rx.receivedBitmap &&& ((1 : UInt64) <<< frame.fragIndex.toUInt64)).toNat =
      (rx.receivedBitmap.toNat.testBit frame.fragIndex.toNat).toNat * 2 ^ frame.fragIndex.toNat := by
    rw [UInt64.toNat_and, bit_toNat small, Nat.and_two_pow]
  rw [RxOp.seen]
  cases bit : rx.receivedBitmap.toNat.testBit frame.fragIndex.toNat with
  | false =>
      rw [bit, Bool.toNat_false, Nat.zero_mul] at masked
      simpa using UInt64.toNat_inj.mp masked
  | true =>
      rw [bit, Bool.toNat_true, Nat.one_mul] at masked
      apply bne_iff_ne.mpr
      intro clear
      rw [clear] at masked
      exact absurd masked.symm (Nat.pow_pos (by decide)).ne'

structure Collected (o : Operation) (got : Finset Nat) (rx : RxOp) : Prop where
  opId : rx.opId = o.opId
  op : rx.op = o.op
  frameCount : rx.frameCount = o.frameCount
  bitmap : ∀ index < 64, rx.receivedBitmap.toNat.testBit index = true ↔ index ∈ got
  inside : got ⊆ Finset.range o.count
  receivedCount : rx.receivedCount.toNat = got.card
  totalLen : rx.totalLen.toNat = ∑ index ∈ got, o.fragLength index

section Receiver

variable {o : Operation} {got : Finset Nat} {rx : RxOp} {index : Nat} {frame : DataFrame}

theorem Collected.record (collected : Collected o got rx) (sound : o.Sound)
    (fragment : o.IsFragment index frame) :
    Collected o (insert index got) (rx.record frame) := by
  have few := sound.count_le
  have inside := fragment.inside
  have small : frame.fragIndex.toNat < 64 := by
    rw [fragment.fragIndex]
    omega
  have seen := seen_eq_testBit rx small
  rw [fragment.fragIndex] at seen
  have subset : insert index got ⊆ Finset.range o.count :=
    Finset.insert_subset (Finset.mem_range.mpr inside) collected.inside
  unfold RxOp.record
  split <;> rename_i known
  · have member : index ∈ got := (collected.bitmap index (by omega)).mp (seen ▸ known)
    rw [Finset.insert_eq_of_mem member]
    exact collected
  · have absent : index ∉ got := fun member =>
      known (seen ▸ (collected.bitmap index (by omega)).mpr member)
    have sumLe : ∑ i ∈ insert index got, o.fragLength i ≤ o.total := by
      rw [← sound.sum_all]
      exact Finset.sum_le_sum_of_subset subset
    have cardLe := Finset.card_le_card subset
    have total := sound.total_lt
    refine
      { opId := collected.opId
        op := collected.op
        frameCount := collected.frameCount
        bitmap := ?_
        inside := subset
        receivedCount := ?_
        totalLen := ?_ }
    · intro other bound
      have bit : (rx.receivedBitmap ||| ((1 : UInt64) <<< frame.fragIndex.toUInt64)).toNat =
          rx.receivedBitmap.toNat ||| 2 ^ index := by
        rw [UInt64.toNat_or, bit_toNat small, fragment.fragIndex]
      simp only [bit, Nat.testBit_or, Nat.testBit_two_pow, Bool.or_eq_true, decide_eq_true_eq,
        Finset.mem_insert, collected.bitmap other bound]
      exact ⟨fun either => either.elim .inr fun same => .inl same.symm,
        fun either => either.elim (fun same => .inr same.symm) .inl⟩
    · rw [Finset.card_insert_of_notMem absent] at cardLe ⊢
      rw [Finset.card_range] at cardLe
      change (rx.receivedCount + 1).toNat = got.card + 1
      rw [UInt32.toNat_add, collected.receivedCount]
      change (got.card + 1) % 2 ^ 32 = got.card + 1
      omega
    · rw [Finset.sum_insert absent] at sumLe ⊢
      change (rx.totalLen + frame.length).toNat = _
      rw [UInt32.toNat_add, collected.totalLen, fragment.length]
      omega

theorem Collected.all (collected : Collected o got rx) (sound : o.Sound)
    (full : rx.receivedCount = rx.frameCount) : rx.totalLen = o.totalLen := by
  have card : got.card = o.count := by
    rw [← collected.receivedCount, full, collected.frameCount]
    rfl
  have everything : got = Finset.range o.count :=
    Finset.eq_of_subset_of_card_le collected.inside (by rw [Finset.card_range, card])
  apply UInt32.toNat_inj.mp
  rw [collected.totalLen, everything, sound.sum_all]
  rfl

structure Uncompleted (rx : RxOp) : Prop where
  completionCount : rx.completionCount = 0
  ackHistory : rx.ackHistory = List.replicate ackHistorySize none
  ackHistoryNext : rx.ackHistoryNext = 0

structure Completed (o : Operation) (rx : RxOp) : Prop where
  inactive : rx.active = false
  completionCount : rx.completionCount = 1
  totalLen : rx.totalLen = o.totalLen
  cached : ∃ ack, rx.findCachedAck o.opId = some ack ∧ ack.status = ackOk

inductive Stage (o : Operation) (rx : RxOp) : Prop
  | waiting (inactive : rx.active = false) (uncompleted : Uncompleted rx)
  | collecting (got : Finset Nat) (active : rx.active = true) (uncompleted : Uncompleted rx)
      (collected : Collected o got rx)
  | completed (completed : Completed o rx)

structure Receives (o : Operation) (rx : RxOp) : Prop where
  connId : rx.connId = o.connId
  maxPayload : rx.maxPayload = o.maxPayload
  stage : Stage o rx

theorem Uncompleted.findCachedAck (uncompleted : Uncompleted rx) (opId : UInt32) :
    rx.findCachedAck opId = none := by
  rw [RxOp.findCachedAck, uncompleted.ackHistory]
  rfl

theorem Uncompleted.conclude {rx : RxOp} (uncompleted : Uncompleted rx)
    (fragment : o.IsFragment index frame) (total : rx.totalLen = o.totalLen) :
    Completed o (rx.conclude frame) := by
  refine ⟨rfl, ?_, total, buildAck frame ackOk, ?_, rfl⟩
  · change rx.completionCount + 1 = 1
    rw [uncompleted.completionCount]
    rfl
  · have stored : (rx.conclude frame).ackHistory =
        some { opId := frame.opId, ack := buildAck frame ackOk } ::
          List.replicate (ackHistorySize - 1) none := by
      change rx.ackHistory.set (rx.ackHistoryNext.toNat % ackHistorySize) _ = _
      rw [uncompleted.ackHistory, uncompleted.ackHistoryNext]
      rfl
    rw [RxOp.findCachedAck, stored, List.findSome?_cons, Option.bind_some, if_pos fragment.opId]

structure Handled (o : Operation) (rx : RxOp) (result : RxOp × Except Errno RxEvent) : Prop where
  receives : Receives o result.1
  keeps : rx.completionCount = 1 → result.1.completionCount = 1
  truthful : ∀ event ack, result.2 = .ok event → event.ack = some ack → ack.status = ackOk →
    result.1.completionCount = 1

theorem Collected.collect (collected : Collected o got rx) (sound : o.Sound)
    (fragment : o.IsFragment index frame) (active : rx.active = true)
    (uncompleted : Uncompleted rx) (connId : rx.connId = o.connId)
    (maxPayload : rx.maxPayload = o.maxPayload) : Handled o rx (rx.collect frame) := by
  have next := collected.record sound fragment
  have kept : (rx.record frame).active = true ∧ Uncompleted (rx.record frame) ∧
      (rx.record frame).connId = o.connId ∧ (rx.record frame).maxPayload = o.maxPayload := by
    unfold RxOp.record
    split
    · exact ⟨active, uncompleted, connId, maxPayload⟩
    · exact ⟨active, ⟨uncompleted.1, uncompleted.2, uncompleted.3⟩, connId, maxPayload⟩
  obtain ⟨stillActive, stillUncompleted, sameConn, samePayload⟩ := kept
  have impossible : rx.completionCount = 1 → (rx.collect frame).1.completionCount = 1 := by
    intro counted
    rw [uncompleted.completionCount] at counted
    exact absurd counted (by decide)
  have matching : ¬(frame.opId ≠ rx.opId ∨ frame.op ≠ rx.op ∨
      frame.fragCount.toUInt32 ≠ rx.frameCount) := by
    rw [fragment.opId, fragment.op, fragment.fragCount, collected.opId, collected.op,
      collected.frameCount]
    simp
  have unfolded : rx.collect frame =
      if (rx.record frame).receivedCount = (rx.record frame).frameCount then
        ((rx.record frame).conclude frame,
          .ok { duplicate := rx.seen frame, ack := some (buildAck frame ackOk)
                completion := some { opId := frame.opId, status := .ok } })
      else (rx.record frame, .ok { duplicate := rx.seen frame }) := by
    rw [RxOp.collect, if_neg matching]
  rw [unfolded] at impossible ⊢
  split at impossible <;> rename_i full
  · rw [if_pos full]
    have completed := stillUncompleted.conclude fragment (next.all sound full)
    exact ⟨⟨sameConn, samePayload, .completed completed⟩, impossible,
      fun _ _ _ _ _ => completed.completionCount⟩
  · rw [if_neg full]
    refine ⟨⟨sameConn, samePayload, .collecting _ stillActive stillUncompleted next⟩, impossible, ?_⟩
    intro event ack returned answered
    obtain rfl := Except.ok.inj returned
    cases answered

theorem collected_begin (rx : RxOp) (fragment : o.IsFragment index frame) :
    Collected o ∅ (rx.begin frame) where
  opId := fragment.opId
  op := fragment.op
  frameCount := fragment.fragCount
  bitmap other _ := by simp [RxOp.begin]
  inside := Finset.empty_subset _
  receivedCount := rfl
  totalLen := rfl

theorem Receives.onData (receives : Receives o rx) (sound : o.Sound)
    (fragment : o.IsFragment index frame) (recvAvailable : Bool) :
    Handled o rx (rxOnData rx frame recvAvailable) := by
  obtain ⟨connId, maxPayload, stage⟩ := receives
  have unchanged (event : RxEvent) (truthful : ∀ ack, event.ack = some ack → ack.status = ackOk →
      rx.completionCount = 1) : Handled o rx (rx, .ok event) := by
    refine ⟨⟨connId, maxPayload, stage⟩, id, ?_⟩
    intro returned ack same answered status
    obtain rfl := Except.ok.inj same
    exact truthful ack answered status
  have sameConn : ¬frame.connId ≠ rx.connId := by
    rw [fragment.connId, connId]
    simp
  rw [rxOnData, sound.validates fragment maxPayload]
  simp only [if_neg sameConn]
  cases stage with
  | collecting got active uncompleted collected =>
      rw [if_pos active]
      exact collected.collect sound fragment active uncompleted connId maxPayload
  | completed completed =>
      obtain ⟨ack, cached, -⟩ := completed.cached
      rw [← fragment.opId] at cached
      simp only [completed.inactive, Bool.false_eq_true, if_false, cached]
      exact unchanged _ fun _ _ _ => completed.completionCount
  | waiting inactive uncompleted =>
      simp only [inactive, Bool.false_eq_true, if_false, uncompleted.findCachedAck frame.opId]
      cases recvAvailable with
      | false =>
          refine unchanged _ fun ack answered status => ?_
          obtain rfl := Option.some.inj answered
          exact absurd (show ackRnr = ackOk from status) (by decide)
      | true =>
          have handled := (collected_begin rx fragment).collect sound fragment
            rfl ⟨uncompleted.1, uncompleted.2, uncompleted.3⟩ connId maxPayload
          exact ⟨handled.receives, handled.keeps, handled.truthful⟩

end Receiver

/-! ## The sender -/

structure Sends (o : Operation) (pass : List DataFrame) (tx : TxOp) : Prop where
  operation : tx.operation = o
  next : tx.nextFrame ≤ tx.frameCount
  completionCount : tx.completionCount = if tx.finished then 1 else 0
  passed : pass.length = tx.nextFrame.toNat
  fragments : ∀ index frame, pass[index]? = some frame → o.IsFragment index frame

inductive Settled (tx : TxOp) : TxOp × Option Completion → Prop
  | ignored : Settled tx (tx, none)
  | rewound (tx' : TxOp) (operation : tx'.operation = tx.operation) (next : tx'.nextFrame = 0)
      (count : tx'.completionCount = tx.completionCount) (unfinished : tx'.finished = false) :
      Settled tx (tx', none)
  | finished (state : TxState) (status : CompletionStatus)
      (final : state = .complete ∨ state = .failed) :
      Settled tx (tx.finish state, some { opId := tx.opId, status := status })

theorem txOnTimeout_settled {tx : TxOp} {result : TxOp × Option Completion}
    (returned : txOnTimeout tx = .ok result) :
    tx.finished = false ∧ Settled tx result ∧
      ∀ completion, result.2 = some completion → completion.status ≠ .ok := by
  unfold txOnTimeout at returned
  split at returned
  · cases returned
  rename_i flying
  rw [ne_eq, not_not] at flying
  have unfinished : tx.finished = false := by simp [TxOp.finished, flying]
  split at returned <;> obtain rfl := Except.ok.inj returned
  · refine ⟨unfinished, .finished .failed .retryExhausted (.inr rfl), ?_⟩
    intro completion same
    obtain rfl := Option.some.inj same
    exact nofun
  · exact ⟨unfinished, .rewound _ rfl rfl rfl unfinished, nofun⟩

theorem txOnAck_settled {tx : TxOp} {ack : AckFrame} {result : TxOp × Option Completion}
    (returned : txOnAck tx ack = .ok result) :
    (result = (tx, none) ∨ tx.finished = false) ∧ Settled tx result ∧
      ∀ completion, result.2 = some completion → completion.status = .ok →
        ack.status = ackOk := by
  unfold txOnAck at returned
  split at returned
  · obtain rfl := Except.ok.inj returned
    exact ⟨.inl rfl, .ignored, nofun⟩
  split at returned
  · obtain rfl := Except.ok.inj returned
    exact ⟨.inl rfl, .ignored, nofun⟩
  rename_i unfinal
  have unfinished : tx.finished = false := by
    obtain ⟨incomplete, unfailed⟩ := not_or.mp unfinal
    simp [TxOp.finished, incomplete, unfailed]
  refine ⟨.inr unfinished, ?_⟩
  split at returned
  · rename_i success
    obtain rfl := Except.ok.inj returned
    exact ⟨.finished .complete .ok (.inl rfl), fun _ _ _ => success⟩
  split at returned
  · split at returned <;> obtain rfl := Except.ok.inj returned
    · refine ⟨.finished .failed .rnrRetryExhausted (.inr rfl), ?_⟩
      intro completion same status
      obtain rfl := Option.some.inj same
      cases status
    · exact ⟨.rewound _ rfl rfl rfl rfl, nofun⟩
  split at returned
  · obtain rfl := Except.ok.inj returned
    refine ⟨.finished .failed .remoteError (.inr rfl), ?_⟩
    intro completion same status
    obtain rfl := Option.some.inj same
    cases status
  · cases returned

section Sender

variable {o : Operation} {pass : List DataFrame} {tx : TxOp}

theorem Sends.settled (sends : Sends o pass tx) {result : TxOp × Option Completion}
    (settled : Settled tx result) (unfinished : result = (tx, none) ∨ tx.finished = false) :
    Sends o (if result.1.nextFrame = 0 then [] else pass) result.1 := by
  have trimmed (next : UInt32) (passed : pass.length = next.toNat) :
      (if next = 0 then [] else pass).length = next.toNat ∧
        ∀ index frame, (if next = 0 then [] else pass)[index]? = some frame →
          o.IsFragment index frame := by
    split <;> rename_i zero
    · subst zero
      exact ⟨rfl, fun _ _ found => by simp at found⟩
    · exact ⟨passed, sends.fragments⟩
  cases settled with
  | ignored =>
      obtain ⟨passed, fragments⟩ := trimmed tx.nextFrame sends.passed
      exact ⟨sends.operation, sends.next, sends.completionCount, passed, fragments⟩
  | rewound tx' operation next count unfinal =>
      have start : tx.finished = false := by
        rcases unfinished with same | unfinished
        · obtain rfl := (Prod.mk.inj same).1
          exact unfinal
        · exact unfinished
      refine ⟨operation.trans sends.operation, ?_, ?_, ?_, ?_⟩
      · rw [next]
        exact UInt32.zero_le
      · rw [count, sends.completionCount, start, unfinal]
      · simp [next]
      · intro index frame found
        simp [next] at found
  | finished state status final =>
      have start : tx.finished = false := by
        rcases unfinished with same | unfinished
        · cases (Prod.mk.inj same).2
        · exact unfinished
      obtain ⟨passed, fragments⟩ := trimmed tx.nextFrame sends.passed
      refine ⟨sends.operation, sends.next, ?_, passed, fragments⟩
      have counted : tx.completionCount = 0 := by
        rw [sends.completionCount, start]
        rfl
      have finished : (tx.finish state).finished = true := by
        rcases final with rfl | rfl <;> rfl
      rw [finished]
      change tx.completionCount + 1 = 1
      rw [counted]
      rfl

theorem Sends.nextFrame (sends : Sends o pass tx) (sound : o.Sound) {tx' : TxOp}
    {frame : DataFrame} (emitted : txNextFrame tx = .ok (tx', frame)) :
    tx.finished = false ∧ o.IsFragment tx.nextFrame.toNat frame ∧
      Sends o (pass ++ [frame]) tx' := by
  unfold txNextFrame at emitted
  split at emitted
  · cases emitted
  split at emitted
  · cases emitted
  rename_i running more
  obtain ⟨rfl, rfl⟩ := Prod.mk.inj (Except.ok.inj emitted)
  have unfinished : tx.finished = false := by
    cases state : tx.state <;> simp_all [TxOp.finished]
  have inside : tx.nextFrame < tx.frameCount := UInt32.not_le.mp more
  have soundTx : tx.operation.Sound := sends.operation ▸ sound
  have fragment : o.IsFragment tx.nextFrame.toNat tx.frame :=
    sends.operation ▸ frame_isFragment soundTx inside
  have few : tx.frameCount.toNat ≤ 64 := soundTx.count_le
  rw [UInt32.lt_iff_toNat_lt] at inside
  have next : (tx.nextFrame + 1).toNat = tx.nextFrame.toNat + 1 := by
    rw [UInt32.toNat_add]
    change (tx.nextFrame.toNat + 1) % 2 ^ 32 = _
    omega
  refine ⟨unfinished, fragment, sends.operation, ?_, ?_, ?_, ?_⟩
  · rw [UInt32.le_iff_toNat_le]
    change (tx.nextFrame + 1).toNat ≤ tx.frameCount.toNat
    omega
  · rw [show tx.completionCount = if tx.finished then 1 else 0 from sends.completionCount, unfinished]
    rfl
  · rw [List.length_append, sends.passed]
    exact next.symm
  · intro index other found
    rcases Nat.lt_or_ge index pass.length with old | new
    · rw [List.getElem?_append_left old] at found
      exact sends.fragments index other found
    · rw [List.getElem?_append_right new, List.getElem?_singleton] at found
      split at found
      · rename_i last
        obtain rfl := Option.some.inj found
        have same : index = tx.nextFrame.toNat := by
          rw [← sends.passed]
          omega
        exact same ▸ fragment
      · cases found

end Sender

/-! ## Whole runs -/

namespace Exchange

structure Inv (o : Operation) (s : Exchange) : Prop where
  sends : Sends o s.pass s.tx
  receives : Receives o s.rx
  frames : ∀ frame ∈ s.frames, ∃ index, o.IsFragment index frame
  acks : ∀ ack ∈ s.acks, ack.status = ackOk → s.rx.completionCount = 1
  success : ∀ completion ∈ s.completions, completion.status = .ok → s.rx.completionCount = 1

variable {o : Operation} {s s' : Exchange}

theorem Starts.inv (start : s.Starts) : s.tx.operation.Sound ∧ Inv s.tx.operation s := by
  obtain ⟨⟨connId, opId, op, totalLen, maxPayload, retryBudget, rnrBudget, started, rx⟩, pass,
    frames, acks, completions⟩ := start
  obtain ⟨sound, sameConn, samePayload, next, count, state⟩ := txStart_sound started
  refine ⟨sound, ?_, ?_, ?_, ?_, ?_⟩
  · refine ⟨rfl, ?_, ?_, ?_, ?_⟩
    · rw [next]
      exact UInt32.zero_le
    · simp [count, TxOp.finished, state]
    · rw [pass, next]
      rfl
    · simp [pass]
  · rw [rx]
    exact ⟨sameConn.symm, samePayload.symm, .waiting rfl ⟨rfl, rfl, rfl⟩⟩
  · simp [frames]
  · simp [acks]
  · simp [completions]

theorem Inv.settle (inv : Inv o s) {result : Except Errno (TxOp × Option Completion)}
    (settled : ∀ value, result = .ok value →
      (value = (s.tx, none) ∨ s.tx.finished = false) ∧ Settled s.tx value ∧
        ∀ completion, value.2 = some completion → completion.status = .ok →
          s.rx.completionCount = 1) : Inv o (s.settle result) := by
  cases result with
  | error error => exact inv
  | ok value =>
      obtain ⟨unfinished, moved, truthful⟩ := settled value rfl
      refine ⟨inv.sends.settled moved unfinished, inv.receives, inv.frames, inv.acks, ?_⟩
      intro completion member status
      rcases List.mem_append.mp member with old | new
      · exact inv.success completion old status
      · exact truthful completion (Option.mem_toList.mp new) status

theorem Inv.receive (inv : Inv o s) (sound : o.Sound) {index : Nat} {frame : DataFrame}
    (fragment : o.IsFragment index frame) (recvAvailable : Bool) :
    Inv o (s.receive frame recvAvailable) := by
  have handled := inv.receives.onData sound fragment recvAvailable
  rw [Exchange.receive]
  generalize rxOnData s.rx frame recvAvailable = result at handled ⊢
  obtain ⟨rx, returned⟩ := result
  have acks : ∀ ack ∈ s.acks, ack.status = ackOk → rx.completionCount = 1 :=
    fun ack member status => handled.keeps (inv.acks ack member status)
  have success : ∀ completion ∈ s.completions, completion.status = .ok → rx.completionCount = 1 :=
    fun completion member status => handled.keeps (inv.success completion member status)
  cases returned with
  | error error => exact ⟨inv.sends, handled.receives, inv.frames, acks, success⟩
  | ok event =>
      refine ⟨inv.sends, handled.receives, inv.frames, ?_, success⟩
      intro ack member status
      rcases List.mem_append.mp member with old | new
      · exact acks ack old status
      · exact handled.truthful event ack rfl (Option.mem_toList.mp new) status

theorem Inv.step (inv : Inv o s) (sound : o.Sound) {action : Action}
    (moved : s.step action = some s') : Inv o s' := by
  cases action with
  | nextFrame =>
      simp only [Exchange.step] at moved
      split at moved
      · obtain rfl := Option.some.inj moved
        exact inv
      · rename_i tx frame emitted
        obtain rfl := Option.some.inj moved
        obtain ⟨-, fragment, sends⟩ := inv.sends.nextFrame sound emitted
        refine ⟨sends, inv.receives, ?_, inv.acks, inv.success⟩
        intro other member
        rcases List.mem_append.mp member with old | new
        · exact inv.frames other old
        · obtain rfl := List.mem_singleton.mp new
          exact ⟨_, fragment⟩
  | timeout =>
      obtain rfl := Option.some.inj moved
      apply inv.settle
      intro value returned
      obtain ⟨unfinished, settled, failed⟩ := txOnTimeout_settled returned
      exact ⟨.inr unfinished, settled, fun completion same status =>
        absurd status (failed completion same)⟩
  | deliver frame recvAvailable =>
      simp only [Exchange.step] at moved
      split at moved
      · rename_i emitted
        obtain rfl := Option.some.inj moved
        obtain ⟨index, fragment⟩ := inv.frames frame emitted
        exact inv.receive sound fragment recvAvailable
      · cases moved
  | ack ack =>
      simp only [Exchange.step] at moved
      split at moved
      · rename_i emitted
        obtain rfl := Option.some.inj moved
        apply inv.settle
        intro value returned
        obtain ⟨unfinished, settled, truthful⟩ := txOnAck_settled returned
        exact ⟨unfinished, settled, fun completion same status =>
          inv.acks ack emitted (truthful completion same status)⟩
      · cases moved

theorem reachable_inv (reachable : system.Reachable s) :
    s.tx.operation.Sound ∧ Inv s.tx.operation s := by
  induction reachable with
  | init start => exact start.inv
  | step previous _ moved ih =>
      obtain ⟨sound, inv⟩ := ih
      have next := inv.step sound moved
      rw [next.sends.operation]
      exact ⟨sound, next⟩

theorem finished_step (finished : s.tx.finished = true) {action : Action}
    (moved : s.step action = some s') : s'.tx = s.tx ∧ s'.frames = s.frames := by
  have settle (result : Except Errno (TxOp × Option Completion))
      (ignored : ∀ value, result = .ok value → value.1 = s.tx) :
      (s.settle result).tx = s.tx ∧ (s.settle result).frames = s.frames := by
    cases result with
    | error error => exact ⟨rfl, rfl⟩
    | ok value => exact ⟨ignored value rfl, rfl⟩
  cases action with
  | nextFrame =>
      simp only [Exchange.step] at moved
      split at moved
      · obtain rfl := Option.some.inj moved
        exact ⟨rfl, rfl⟩
      · rename_i tx frame emitted
        unfold txNextFrame at emitted
        split at emitted
        · cases emitted
        · rename_i running
          cases state : s.tx.state <;> simp_all [TxOp.finished]
  | timeout =>
      obtain rfl := Option.some.inj moved
      apply settle
      intro value returned
      rw [(txOnTimeout_settled returned).1] at finished
      cases finished
  | deliver frame recvAvailable =>
      simp only [Exchange.step] at moved
      split at moved
      · obtain rfl := Option.some.inj moved
        rw [Exchange.receive]
        split <;> exact ⟨rfl, rfl⟩
      · cases moved
  | ack ack =>
      simp only [Exchange.step] at moved
      split at moved
      · obtain rfl := Option.some.inj moved
        apply settle
        intro value returned
        rcases (txOnAck_settled returned).1 with same | unfinished
        · rw [same]
        · rw [unfinished] at finished
          cases finished
      · cases moved

structure ExactlyOnce (s : Exchange) : Prop where
  pass_partitions : s.tx.nextFrame = s.tx.frameCount →
    Operation.Tiles 0 s.tx.totalLen.toNat s.pass
  no_wrap : ∀ frame ∈ s.frames,
    frame.offset.toNat = frame.fragIndex.toNat * s.tx.maxPayload.toNat ∧
      frame.offset.toNat + frame.length.toNat ≤ s.tx.totalLen.toNat
  validated : ∀ frame ∈ s.frames, rxValidateFrame s.rx frame = .ok ()
  received_once : s.rx.completionCount = 0 ∨ s.rx.completionCount = 1
  received_whole : s.rx.completionCount = 1 → s.rx.totalLen = s.tx.totalLen
  completed_once : s.tx.completionCount =
    if s.tx.state = .complete ∨ s.tx.state = .failed then 1 else 0
  silent : s.tx.state = .complete ∨ s.tx.state = .failed →
    (∃ error, txNextFrame s.tx = .error error) ∧
      ∀ action s', s.step action = some s' → s'.tx = s.tx ∧ s'.frames = s.frames
  success_received : ∀ completion ∈ s.completions, completion.status = .ok →
    s.rx.completionCount = 1

theorem TxOp.finished_iff (tx : TxOp) :
    tx.finished = true ↔ tx.state = .complete ∨ tx.state = .failed := by
  simp [TxOp.finished]

theorem operation_exactly_once (s : Exchange) (reachable : system.Reachable s) :
    ExactlyOnce s := by
  obtain ⟨sound, inv⟩ := reachable_inv reachable
  refine
    { pass_partitions := ?_
      no_wrap := ?_
      validated := ?_
      received_once := ?_
      received_whole := ?_
      completed_once := ?_
      silent := ?_
      success_received := inv.success }
  · intro whole
    apply sound.tiles _ inv.sends.fragments
    rw [inv.sends.passed, whole]
    rfl
  · intro frame member
    obtain ⟨index, fragment⟩ := inv.frames frame member
    have below := sound.offset_le fragment.inside
    refine ⟨by rw [fragment.offset, fragment.fragIndex]; rfl, ?_⟩
    change _ ≤ s.tx.operation.total
    rw [fragment.offset, fragment.length, Operation.fragLength]
    omega
  · intro frame member
    obtain ⟨index, fragment⟩ := inv.frames frame member
    exact sound.validates fragment inv.receives.maxPayload
  · cases inv.receives.stage with
    | waiting _ uncompleted => exact .inl uncompleted.completionCount
    | collecting _ _ uncompleted _ => exact .inl uncompleted.completionCount
    | completed completed => exact .inr completed.completionCount
  · intro counted
    cases inv.receives.stage with
    | waiting _ uncompleted => exact absurd (uncompleted.completionCount ▸ counted) (by decide)
    | collecting _ _ uncompleted _ =>
        exact absurd (uncompleted.completionCount ▸ counted) (by decide)
    | completed completed => exact completed.totalLen
  · rw [inv.sends.completionCount]
    simp only [TxOp.finished_iff]
  · intro finished
    refine ⟨⟨.eInval, ?_⟩, fun action s' moved =>
      finished_step ((TxOp.finished_iff s.tx).mpr finished) moved⟩
    rw [txNextFrame, if_pos]
    rcases finished with state | state <;> simp [state]

def lostAckExchange : Exchange where
  tx := { connId := 7, opId := 1, op := opSend, totalLen := 24, maxPayload := 16, frameCount := 2
          retryBudget := 1, rnrBudget := 0, state := .ready }
  rx := rxInit 7 16
  pass := []
  frames := []
  acks := []
  completions := []

/-- Both frames arrive out of order, the ACK is lost, and a retransmitted frame is answered from the
history. -/
def lostAckRun : List Action :=
  [.nextFrame, .nextFrame,
    .deliver { connId := 7, opId := 1, frameSeq := 1, retryGeneration := 0, offset := 16, length := 8
               fragIndex := 1, fragCount := 2, op := opSend } true,
    .deliver { connId := 7, opId := 1, frameSeq := 0, retryGeneration := 0, offset := 0, length := 16
               fragIndex := 0, fragCount := 2, op := opSend } false,
    .timeout, .nextFrame,
    .deliver { connId := 7, opId := 1, frameSeq := 0, retryGeneration := 1, offset := 0, length := 16
               fragIndex := 0, fragCount := 2, op := opSend } false,
    .ack { connId := 7, opId := 1, retryGeneration := 0, status := ackOk }]

theorem operation_exactly_once_lostAck :
    ∃ s : Exchange, s.tx.state = .complete ∧ s.acks.length = 2 ∧ ExactlyOnce s := by
  obtain ⟨s, reachable, check⟩ := System.exists_reachableVia system (fun _ _ => True) lostAckRun
    (fun s => s.tx.state = .complete && s.acks.length = 2)
    (show lostAckExchange.Starts from
      ⟨⟨7, 1, opSend, 24, 16, 1, 0, by decide, rfl⟩, rfl, rfl, rfl, rfl⟩) (by decide)
  simp only [Bool.and_eq_true, decide_eq_true_eq] at check
  exact ⟨s, check.1, check.2, operation_exactly_once s reachable⟩

end Exchange

end ThunderboltVerbs.Reliability
