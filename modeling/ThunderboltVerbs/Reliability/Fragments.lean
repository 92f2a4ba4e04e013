import ThunderboltVerbs.Reliability.Model
import Mathlib.Algebra.BigOperators.Group.Finset.Basic
import Mathlib.Algebra.BigOperators.Intervals

/-!
# The fragments of an operation

What a sender that was started successfully emits, in natural numbers: fragment `i` covers the bytes
from `i * maxPayload` on. The wrap of `total_len + max_payload - 1` makes the frame count 0, which
`tbv_rel_tx_start` refuses, so no later computation wraps.
-/

namespace ThunderboltVerbs.Reliability
open Proto

structure Operation where
  connId : UInt64
  opId : UInt32
  op : UInt8
  totalLen : UInt32
  maxPayload : UInt32
  frameCount : UInt32

def TxOp.operation (tx : TxOp) : Operation where
  connId := tx.connId
  opId := tx.opId
  op := tx.op
  totalLen := tx.totalLen
  maxPayload := tx.maxPayload
  frameCount := tx.frameCount

namespace Operation

def total (o : Operation) : Nat := o.totalLen.toNat
def payload (o : Operation) : Nat := o.maxPayload.toNat
def count (o : Operation) : Nat := o.frameCount.toNat

def fragLength (o : Operation) (index : Nat) : Nat := min o.payload (o.total - index * o.payload)

structure Sound (o : Operation) : Prop where
  known : validOp o.op = true
  payload_pos : 0 < o.payload
  count_le : o.count ≤ 64
  count_pos : 0 < o.count
  last_used : o.total = 0 ∧ o.count = 1 ∨ (o.count - 1) * o.payload < o.total
  covered : o.total ≤ o.count * o.payload

structure IsFragment (o : Operation) (index : Nat) (frame : DataFrame) : Prop where
  connId : frame.connId = o.connId
  opId : frame.opId = o.opId
  op : frame.op = o.op
  fragIndex : frame.fragIndex.toNat = index
  fragCount : frame.fragCount.toUInt32 = o.frameCount
  offset : frame.offset.toNat = index * o.payload
  length : frame.length.toNat = o.fragLength index
  inside : index < o.count

variable {o : Operation} {index : Nat} {frame : DataFrame}

theorem Sound.offset_le (sound : o.Sound) (inside : index < o.count) :
    index * o.payload ≤ o.total := by
  rcases sound.last_used with ⟨empty, single⟩ | used
  · have first : index = 0 := by omega
    simp [first]
  · have below : index * o.payload ≤ (o.count - 1) * o.payload :=
      Nat.mul_le_mul_right _ (by omega)
    omega

theorem Sound.total_lt (_ : o.Sound) : o.total < 2 ^ 32 := o.totalLen.toNat_lt

theorem sum_fragLength (n : Nat) :
    ∑ index ∈ Finset.range n, o.fragLength index = min (n * o.payload) o.total := by
  induction n with
  | zero => simp
  | succ n ih =>
      rw [Finset.sum_range_succ, ih, fragLength, Nat.succ_mul]
      omega

theorem Sound.sum_all (sound : o.Sound) :
    ∑ index ∈ Finset.range o.count, o.fragLength index = o.total := by
  rw [sum_fragLength]
  exact Nat.min_eq_right sound.covered

def Tiles : Nat → Nat → List DataFrame → Prop
  | start, stop, [] => start = stop
  | start, stop, frame :: rest =>
      frame.offset.toNat = start ∧ Tiles (start + frame.length.toNat) stop rest

theorem Sound.tiles_from (sound : o.Sound) (frames : List DataFrame) (start : Nat)
    (fragments : ∀ i frame, frames[i]? = some frame → o.IsFragment (start + i) frame) :
    Tiles (min (start * o.payload) o.total) (min ((start + frames.length) * o.payload) o.total)
      frames := by
  induction frames generalizing start with
  | nil => simp [Tiles]
  | cons frame rest ih =>
      have fragment := fragments 0 frame rfl
      rw [Nat.add_zero] at fragment
      have below := sound.offset_le fragment.inside
      have next : min (start * o.payload) o.total + frame.length.toNat =
          min ((start + 1) * o.payload) o.total := by
        rw [fragment.length, fragLength, Nat.succ_mul]
        omega
      have tail := ih (start + 1) fun i frame found => by
        rw [Nat.add_assoc, Nat.add_comm 1]
        exact fragments (i + 1) frame found
      refine ⟨by rw [fragment.offset]; omega, ?_⟩
      rw [next, List.length_cons, Nat.add_comm rest.length, ← Nat.add_assoc]
      exact tail

theorem Sound.tiles (sound : o.Sound) {frames : List DataFrame} (all : frames.length = o.count)
    (fragments : ∀ i frame, frames[i]? = some frame → o.IsFragment i frame) :
    Tiles 0 o.total frames := by
  have tiles := sound.tiles_from frames 0 fun i frame found => by
    rw [Nat.zero_add]
    exact fragments i frame found
  rw [Nat.zero_add, all, Nat.min_eq_right sound.covered, Nat.zero_mul, Nat.zero_min] at tiles
  exact tiles

theorem Sound.validates (sound : o.Sound) {rx : RxOp} (fragment : o.IsFragment index frame)
    (payload : rx.maxPayload = o.maxPayload) : rxValidateFrame rx frame = .ok () := by
  have inside := fragment.inside
  have few := sound.count_le
  have positive := sound.payload_pos
  have count : frame.fragCount.toNat = o.count := by
    rw [← UInt16.toNat_toUInt32, fragment.fragCount, count]
  have nonzero : rx.maxPayload ≠ 0 := by
    intro zero
    rw [payload] at zero
    simp [Operation.payload, zero] at positive
  have offset : frame.offset = frame.fragIndex.toUInt32 * rx.maxPayload := by
    apply UInt32.toNat_inj.mp
    have product : frame.fragIndex.toNat * o.maxPayload.toNat < 2 ^ 32 := by
      rw [fragment.fragIndex]
      exact Nat.lt_of_le_of_lt (sound.offset_le inside) sound.total_lt
    rw [UInt32.toNat_mul, UInt16.toNat_toUInt32, payload, Nat.mod_eq_of_lt product,
      fragment.fragIndex, fragment.offset, Operation.payload]
  have length : ¬frame.length > rx.maxPayload := by
    rw [gt_iff_lt, UInt32.lt_iff_toNat_lt, fragment.length, payload, fragLength]
    exact Nat.not_lt.mpr (Nat.min_le_left _ _)
  have shape : ¬(rx.maxPayload = 0 ∨ frame.fragCount = 0 ∨ frame.fragCount.toUInt32 > maxFrags ∨
      frame.fragIndex ≥ frame.fragCount) := by
    rintro (zero | none | many | outside)
    · exact nonzero zero
    · rw [none] at count
      have empty : 0 = o.count := count
      omega
    · rw [gt_iff_lt, UInt32.lt_iff_toNat_lt, UInt16.toNat_toUInt32, count] at many
      have bound : 64 < o.count := many
      omega
    · rw [ge_iff_le, UInt16.le_iff_toNat_le, count, fragment.fragIndex] at outside
      omega
  rw [rxValidateFrame, if_neg (by simp [fragment.op, sound.known]), if_neg shape,
    if_neg (not_not_intro offset), if_neg length]

end Operation

/-! ## The sender -/

theorem frameCountOf_toNat {totalLen : UInt32} (maxPayload : UInt32) (nonempty : totalLen ≠ 0) :
    (frameCountOf totalLen maxPayload).toNat =
      (totalLen.toNat + maxPayload.toNat - 1) % 2 ^ 32 / maxPayload.toNat := by
  have total := totalLen.toNat_lt
  have payload := maxPayload.toNat_lt
  have positive : 0 < totalLen.toNat := Nat.pos_of_ne_zero fun zero =>
    nonempty (UInt32.toNat_inj.mp zero)
  have sum : (totalLen + maxPayload - 1).toNat =
      (totalLen.toNat + maxPayload.toNat - 1) % 2 ^ 32 := by
    rw [UInt32.toNat_sub, UInt32.toNat_add]
    change (2 ^ 32 - 1 + (totalLen.toNat + maxPayload.toNat) % 2 ^ 32) % 2 ^ 32 = _
    omega
  rw [frameCountOf, if_pos nonempty, UInt32.toNat_div, sum]

theorem txStart_sound {connId : UInt64} {opId : UInt32} {op : UInt8}
    {totalLen maxPayload retryBudget rnrBudget : UInt32} {tx : TxOp}
    (started : txStart connId opId op totalLen maxPayload retryBudget rnrBudget = .ok tx) :
    tx.operation.Sound ∧ tx.connId = connId ∧ tx.maxPayload = maxPayload ∧ tx.nextFrame = 0 ∧
      tx.completionCount = 0 ∧ tx.state = .ready := by
  unfold txStart at started
  split at started
  · cases started
  simp only at started
  split at started
  · cases started
  rename_i accepted counted
  obtain rfl := Except.ok.inj started
  simp only [Bool.or_eq_true, Bool.not_eq_true', decide_eq_true_eq, not_or, Bool.not_eq_false] at accepted
  obtain ⟨known, payload⟩ := accepted
  obtain ⟨some, few⟩ := not_or.mp counted
  refine ⟨?_, rfl, rfl, rfl, rfl, rfl⟩
  have payloadPos : 0 < maxPayload.toNat := Nat.pos_of_ne_zero fun zero =>
    payload (UInt32.toNat_inj.mp zero)
  have countPos : 0 < (frameCountOf totalLen maxPayload).toNat := Nat.pos_of_ne_zero fun zero =>
    some (UInt32.toNat_inj.mp zero)
  have countLe : (frameCountOf totalLen maxPayload).toNat ≤ 64 := by
    rw [gt_iff_lt, UInt32.lt_iff_toNat_lt] at few
    exact Nat.not_lt.mp few
  by_cases empty : totalLen = 0
  · subst empty
    exact ⟨known, payloadPos, countLe, countPos, .inl ⟨rfl, rfl⟩, Nat.zero_le _⟩
  -- A sum that wraps is below `maxPayload` and gives no frame at all.
  have total := totalLen.toNat_lt
  have bound := maxPayload.toNat_lt
  have nonempty : 0 < totalLen.toNat := Nat.pos_of_ne_zero fun zero =>
    empty (UInt32.toNat_inj.mp zero)
  have shape := frameCountOf_toNat maxPayload empty
  have noWrap : (totalLen.toNat + maxPayload.toNat - 1) % 2 ^ 32 =
      totalLen.toNat + maxPayload.toNat - 1 := by
    by_contra wraps
    have below : (totalLen.toNat + maxPayload.toNat - 1) % 2 ^ 32 < maxPayload.toNat := by omega
    rw [shape, Nat.div_eq_of_lt below] at countPos
    exact Nat.lt_irrefl 0 countPos
  rw [noWrap] at shape
  have lower := Nat.div_mul_le_self (totalLen.toNat + maxPayload.toNat - 1) maxPayload.toNat
  have upper := Nat.lt_div_mul_add (a := totalLen.toNat + maxPayload.toNat - 1) payloadPos
  rw [← shape] at lower upper
  refine ⟨known, payloadPos, countLe, countPos, .inr ?_, ?_⟩
  · change ((frameCountOf totalLen maxPayload).toNat - 1) * maxPayload.toNat < totalLen.toNat
    rw [Nat.sub_mul, Nat.one_mul]
    omega
  · change totalLen.toNat ≤ (frameCountOf totalLen maxPayload).toNat * maxPayload.toNat
    omega

theorem frame_isFragment {tx : TxOp} (sound : tx.operation.Sound)
    (inside : tx.nextFrame < tx.frameCount) :
    tx.operation.IsFragment tx.nextFrame.toNat tx.frame := by
  rw [UInt32.lt_iff_toNat_lt] at inside
  have few : tx.frameCount.toNat ≤ 64 := sound.count_le
  have offsetLe : tx.nextFrame.toNat * tx.maxPayload.toNat ≤ tx.totalLen.toNat :=
    sound.offset_le inside
  have total := tx.totalLen.toNat_lt
  have offset : (tx.nextFrame * tx.maxPayload).toNat = tx.nextFrame.toNat * tx.maxPayload.toNat := by
    rw [UInt32.toNat_mul, Nat.mod_eq_of_lt (Nat.lt_of_le_of_lt offsetLe total)]
  refine ⟨rfl, rfl, rfl, ?_, ?_, offset, ?_, inside⟩
  · change tx.nextFrame.toUInt16.toNat = tx.nextFrame.toNat
    rw [UInt32.toNat_toUInt16]
    omega
  · apply UInt32.toNat_inj.mp
    change tx.frameCount.toUInt16.toUInt32.toNat = tx.frameCount.toNat
    rw [UInt16.toNat_toUInt32, UInt32.toNat_toUInt16]
    omega
  · have remaining : (if tx.totalLen > tx.nextFrame * tx.maxPayload then
        tx.totalLen - tx.nextFrame * tx.maxPayload else 0).toNat =
        tx.totalLen.toNat - tx.nextFrame.toNat * tx.maxPayload.toNat := by
      split <;> rename_i more
      · rw [UInt32.toNat_sub_of_le _ _ (UInt32.le_of_lt more), offset]
      · rw [gt_iff_lt, UInt32.lt_iff_toNat_lt, offset] at more
        change 0 = _
        omega
    simp only [TxOp.frame, Operation.fragLength, Operation.payload, Operation.total, TxOp.operation]
    generalize (if tx.totalLen > tx.nextFrame * tx.maxPayload then
      tx.totalLen - tx.nextFrame * tx.maxPayload else 0) = rest at remaining ⊢
    split <;> rename_i long
    · rw [gt_iff_lt, UInt32.lt_iff_toNat_lt, remaining] at long
      exact (Nat.min_eq_left (Nat.le_of_lt long)).symm
    · rw [gt_iff_lt, UInt32.lt_iff_toNat_lt, remaining] at long
      rw [remaining]
      exact (Nat.min_eq_right (Nat.not_lt.mp long)).symm

end ThunderboltVerbs.Reliability
