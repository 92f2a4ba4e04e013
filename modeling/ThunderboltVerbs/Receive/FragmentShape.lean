import ThunderboltVerbs.Receive.Snapshot
import ThunderboltVerbs.Verbs.Unwind
import Mathlib.Algebra.Order.Floor.Div

/-!
# The fragments of a message (`proto/native_data.h`, `kernel/ibdev.c`)

A message is cut into pieces of equal length, the last of which may be shorter. The check of the receiver
accepts these pieces and no other, and the two loops that send a message emit them.
-/

namespace ThunderboltVerbs.Receive
open Proto Verbs

/-! ## The check -/

/-- `tbv_native_data_fragment_shape` in `u32` arithmetic; the pointers for the results are never null. -/
def fragmentShape32 (totalLen maxPayload maxFrags offset len : UInt32) (last : Bool) :
    Except Errno (UInt32 × UInt32) :=
  if maxPayload = 0 || maxFrags = 0 then .error .eInval
  else if totalLen = 0 then
    if offset ≠ 0 || len ≠ 0 || !last then .error .eInval else .ok (0, 1)
  else if offset % maxPayload ≠ 0 then .error .eInval
  else
    let idx := offset / maxPayload
    let count := (totalLen + maxPayload - 1) / maxPayload
    if count ≤ idx || maxFrags < count then .error .eInval
    else
      let expectedLen := if idx = count - 1 then totalLen - idx * maxPayload else maxPayload
      if len ≠ expectedLen then .error .eInval
      else if last ≠ decide (idx = count - 1) then .error .eInval
      else .ok (idx, count)

/-! ## The pieces -/

structure FragPiece where
  offset : Nat
  len : Nat
  last : Bool
  deriving DecidableEq, Repr

/-- An empty message is one empty piece. -/
def pieceCount (totalLen maxPayload : Nat) : Nat := max 1 (totalLen ⌈/⌉ maxPayload)

def piece (totalLen maxPayload i : Nat) : FragPiece where
  offset := i * maxPayload
  len := min maxPayload (totalLen - i * maxPayload)
  last := i + 1 = pieceCount totalLen maxPayload

/-- The bytes of `[0, totalLen)`, `maxPayload` at a time. -/
def pieces (totalLen maxPayload : Nat) : List FragPiece :=
  (List.range (pieceCount totalLen maxPayload)).map (piece totalLen maxPayload)

variable {totalLen maxPayload : Nat}

theorem pieceCount_eq (some : totalLen ≠ 0) (positive : 0 < maxPayload) :
    pieceCount totalLen maxPayload = (totalLen + maxPayload - 1) / maxPayload := by
  rw [pieceCount, Nat.ceilDiv_eq_add_pred_div]
  apply Nat.max_eq_right
  rw [Nat.one_le_div_iff positive]
  omega

theorem pieceCount_zero (maxPayload : Nat) : pieceCount 0 maxPayload = 1 := by
  simp [pieceCount]

theorem pieceCount_pos (totalLen maxPayload : Nat) : 0 < pieceCount totalLen maxPayload :=
  Nat.lt_of_lt_of_le Nat.zero_lt_one (Nat.le_max_left _ _)

/-- All but the last piece end before the message does, and the last one ends it. -/
theorem pieceCount_bounds (totalLen : Nat) (positive : 0 < maxPayload) :
    totalLen ≤ pieceCount totalLen maxPayload * maxPayload ∧
      (totalLen ≠ 0 → (pieceCount totalLen maxPayload - 1) * maxPayload < totalLen) := by
  by_cases empty : totalLen = 0
  · exact ⟨by omega, fun some => absurd empty some⟩
  · rw [pieceCount_eq empty positive]
    have parts := Nat.div_add_mod (totalLen + maxPayload - 1) maxPayload
    have below := Nat.mod_lt (totalLen + maxPayload - 1) positive
    rw [Nat.mul_comm] at parts
    rw [Nat.sub_mul]
    omega

theorem next_lt (positive : 0 < maxPayload) {i : Nat} (more : i + 1 < pieceCount totalLen maxPayload) :
    (i + 1) * maxPayload < totalLen := by
  have some : totalLen ≠ 0 := by
    rintro rfl
    rw [pieceCount_zero] at more
    omega
  calc (i + 1) * maxPayload
    _ ≤ (pieceCount totalLen maxPayload - 1) * maxPayload := Nat.mul_le_mul_right _ (by omega)
    _ < totalLen := (pieceCount_bounds totalLen positive).2 some

theorem len_of_lt (positive : 0 < maxPayload) {i : Nat} (more : i + 1 < pieceCount totalLen maxPayload) :
    (piece totalLen maxPayload i).len = maxPayload := by
  have before := next_lt positive more
  rw [Nat.succ_mul] at before
  apply Nat.min_eq_left
  omega

theorem len_last (positive : 0 < maxPayload) {i : Nat} (ends : i + 1 = pieceCount totalLen maxPayload) :
    (piece totalLen maxPayload i).len = totalLen - i * maxPayload := by
  have whole := (pieceCount_bounds totalLen positive).1
  rw [← ends, Nat.succ_mul] at whole
  apply Nat.min_eq_right
  omega

theorem offset_le (positive : 0 < maxPayload) {i : Nat} (inside : i < pieceCount totalLen maxPayload) :
    (piece totalLen maxPayload i).offset ≤ totalLen := by
  by_cases empty : totalLen = 0
  · subst empty
    rw [pieceCount_zero, Nat.lt_one_iff] at inside
    simp [piece, inside]
  · have before := (pieceCount_bounds totalLen positive).2 empty
    have upTo : i * maxPayload ≤ (pieceCount totalLen maxPayload - 1) * maxPayload :=
      Nat.mul_le_mul_right _ (by omega)
    exact Nat.le_of_lt (Nat.lt_of_le_of_lt upTo before)

/-- The pieces in order are the bytes of the message in order, each of them once. -/
theorem pieces_cover (positive : 0 < maxPayload) :
    (pieces totalLen maxPayload).flatMap (fun p => List.range' p.offset p.len) = List.range totalLen := by
  have first (k : Nat) (few : k ≤ pieceCount totalLen maxPayload) :
      ((List.range k).map (piece totalLen maxPayload)).flatMap (fun p => List.range' p.offset p.len) =
        List.range (min (k * maxPayload) totalLen) := by
    induction k with
    | zero => simp
    | succ k ih =>
        have start : k * maxPayload ≤ totalLen := offset_le positive (Nat.lt_of_succ_le few)
        have ends : (piece totalLen maxPayload k).offset + (piece totalLen maxPayload k).len =
            min ((k + 1) * maxPayload) totalLen := by
          simp only [piece, Nat.succ_mul]
          omega
        rw [List.range_succ, List.map_append, List.flatMap_append, ih (Nat.le_of_succ_le few), ← ends,
          List.map_singleton, List.flatMap_singleton, List.range_eq_range', List.range_eq_range',
          ← List.range'_append_1, Nat.zero_add, Nat.min_eq_left start]
        rfl
  rw [pieces, first _ (Nat.le_refl _), Nat.min_eq_right (pieceCount_bounds totalLen positive).1]

theorem getElem?_pieces {i : Nat} {p : FragPiece} :
    (pieces totalLen maxPayload)[i]? = some p ↔
      i < pieceCount totalLen maxPayload ∧ piece totalLen maxPayload i = p := by
  rw [pieces, List.getElem?_map, Option.map_eq_some_iff]
  simp only [List.getElem?_eq_some_iff, List.length_range, List.getElem_range]
  constructor
  · rintro ⟨_, ⟨inside, rfl⟩, equal⟩
    exact ⟨inside, equal⟩
  · rintro ⟨inside, equal⟩
    exact ⟨i, ⟨inside, rfl⟩, equal⟩

/-! ## What the check accepts -/

variable {maxFrags offset len idx count : Nat} {last : Bool}

/-- Where the sum does not wrap, the check accepts the pieces of a message of few enough pieces. -/
theorem fragmentShape_iff (positive : 0 < maxPayload) (frags : 0 < maxFrags)
    (fits : totalLen + maxPayload - 1 < 2 ^ 32) :
    fragmentShape totalLen maxPayload maxFrags offset len last = .ok (idx, count) ↔
      count = pieceCount totalLen maxPayload ∧ count ≤ maxFrags ∧
        (pieces totalLen maxPayload)[idx]? = some ⟨offset, len, last⟩ := by
  rw [getElem?_pieces]
  by_cases empty : totalLen = 0
  · subst empty
    rw [fragmentShape_empty positive frags, pieceCount_zero, Nat.lt_one_iff]
    constructor
    · rintro ⟨rfl, rfl, rfl, rfl, rfl⟩
      exact ⟨rfl, frags, rfl, by simp [piece, pieceCount_zero]⟩
    · rintro ⟨rfl, -, rfl, equal⟩
      simp only [piece, pieceCount_zero, FragPiece.mk.injEq] at equal
      obtain ⟨rfl, rfl, rfl⟩ := equal
      simp
  · rw [fragmentShape_nonempty empty positive frags, Nat.mod_eq_of_lt fits, ← pieceCount_eq empty positive]
    -- the length of the piece, as the check has it
    have length (inside : idx < pieceCount totalLen maxPayload) :
        (piece totalLen maxPayload idx).len =
          if idx = pieceCount totalLen maxPayload - 1 then totalLen - idx * maxPayload else maxPayload := by
      split
      · exact len_last positive (by omega)
      · exact len_of_lt positive (by omega)
    have ends : idx = pieceCount totalLen maxPayload - 1 ↔ idx + 1 = pieceCount totalLen maxPayload := by
      have some := pieceCount_pos totalLen maxPayload
      omega
    constructor
    · rintro ⟨rfl, few, inside, rfl, rfl, rfl⟩
      refine ⟨rfl, few, inside, ?_⟩
      rw [← length inside, ← decide_eq_decide.mpr ends.symm]
      rfl
    · rintro ⟨rfl, few, inside, equal⟩
      have same := length inside
      rw [equal] at same
      have start := congrArg FragPiece.offset equal
      have flagged := congrArg FragPiece.last equal
      exact ⟨rfl, few, inside, start.symm, same, flagged.symm.trans (decide_eq_decide.mpr ends.symm)⟩

/-- Where it wraps there is no index below the count. -/
theorem fragmentShape_wraps (positive : 0 < maxPayload) (payload32 : maxPayload < 2 ^ 32) (frags : 0 < maxFrags)
    (total32 : totalLen < 2 ^ 32) (wraps : 2 ^ 32 ≤ totalLen + maxPayload - 1) :
    fragmentShape totalLen maxPayload maxFrags offset len last ≠ .ok (idx, count) := by
  rw [Ne, fragmentShape_nonempty (by omega) positive frags]
  rintro ⟨rfl, -, inside, -⟩
  have small : (totalLen + maxPayload - 1) % 2 ^ 32 < maxPayload := by
    rw [Nat.mod_eq_sub_mod wraps, Nat.mod_eq_of_lt (by omega)]
    omega
  rw [Nat.div_eq_of_lt small] at inside
  exact Nat.not_lt_zero idx inside

theorem map_ite {ε α β : Type} {f : α → β} {p q : Prop} [Decidable p] [Decidable q] {a b : Except ε α}
    {a' b' : Except ε β} (same : p ↔ q) (yes : p → a.map f = a') (no : ¬p → b.map f = b') :
    (if p then a else b).map f = if q then a' else b' := by
  by_cases holds : p
  · rw [if_pos holds, if_pos (same.mp holds), yes holds]
  · rw [if_neg holds, if_neg (mt same.mpr holds), no holds]

theorem u32_zero_iff (n : UInt32) : n = 0 ↔ n.toNat = 0 := by
  rw [← UInt32.toNat_inj]
  rfl

/-- No other operation of the check wraps. -/
theorem fragmentShape32_toNat (totalLen maxPayload maxFrags offset len : UInt32) (last : Bool) :
    (fragmentShape32 totalLen maxPayload maxFrags offset len last).map (fun r => (r.1.toNat, r.2.toNat)) =
      fragmentShape totalLen.toNat maxPayload.toNat maxFrags.toNat offset.toNat len.toNat last := by
  unfold fragmentShape32 fragmentShape
  apply map_ite
  · simp only [Bool.or_eq_true, decide_eq_true_eq, u32_zero_iff]
  · exact fun _ => rfl
  intro usable
  simp only [Bool.or_eq_true, decide_eq_true_eq, u32_zero_iff, not_or] at usable
  apply map_ite (u32_zero_iff totalLen)
  · intro _
    apply map_ite
    · simp [u32_zero_iff, or_assoc]
    · exact fun _ => rfl
    · exact fun _ => rfl
  intro some
  rw [u32_zero_iff] at some
  apply map_ite
  · rw [ne_eq, u32_zero_iff, UInt32.toNat_mod]
  · exact fun _ => rfl
  intro aligned
  rw [not_not, u32_zero_iff, UInt32.toNat_mod] at aligned
  have counts : ((totalLen + maxPayload - 1) / maxPayload).toNat =
      (totalLen.toNat + maxPayload.toNat - 1) % 2 ^ 32 / maxPayload.toNat := by
    rw [UInt32.toNat_div, UInt32.toNat_sub, UInt32.toNat_add]
    congr 1
    simp only [UInt32.reduceToNat]
    omega
  have start : (offset / maxPayload).toNat * maxPayload.toNat = offset.toNat := by
    rw [UInt32.toNat_div]
    exact Nat.div_mul_cancel (Nat.dvd_of_mod_eq_zero aligned)
  have product : (offset / maxPayload * maxPayload).toNat = (offset / maxPayload).toNat * maxPayload.toNat := by
    rw [UInt32.toNat_mul, start]
    exact Nat.mod_eq_of_lt offset.toNat_lt
  have within := Nat.div_mul_le_self ((totalLen.toNat + maxPayload.toNat - 1) % 2 ^ 32) maxPayload.toNat
  simp only [← counts, ← UInt32.toNat_div] at within ⊢
  generalize (totalLen + maxPayload - 1) / maxPayload = count at *
  generalize offset / maxPayload = idx at *
  apply map_ite
  · simp only [Bool.or_eq_true, decide_eq_true_eq, UInt32.le_iff_toNat_le, UInt32.lt_iff_toNat_lt]
  · exact fun _ => rfl
  intro inside
  simp only [Bool.or_eq_true, decide_eq_true_eq, UInt32.le_iff_toNat_le, UInt32.lt_iff_toNat_lt, not_or] at inside
  have before : (count - 1).toNat = count.toNat - 1 := by
    rw [UInt32.toNat_sub_of_le _ _ (by rw [UInt32.le_iff_toNat_le]; simp only [UInt32.reduceToNat]; omega)]
    rfl
  have lastIndex : idx = count - 1 ↔ idx.toNat = count.toNat - 1 := by rw [← UInt32.toNat_inj, before]
  -- the last piece starts inside the message, so that the difference does not wrap
  have length : (if idx = count - 1 then totalLen - idx * maxPayload else maxPayload).toNat =
      if idx.toNat = count.toNat - 1 then totalLen.toNat - idx.toNat * maxPayload.toNat else maxPayload.toNat := by
    by_cases ends : idx = count - 1
    · have through : (idx.toNat + 1) * maxPayload.toNat ≤ count.toNat * maxPayload.toNat :=
        Nat.mul_le_mul_right _ (by omega)
      rw [Nat.succ_mul] at through
      have total32 := totalLen.toNat_lt
      have payload32 := maxPayload.toNat_lt
      have lower : idx.toNat * maxPayload.toNat ≤ totalLen.toNat := by omega
      rw [if_pos ends, if_pos (lastIndex.mp ends), UInt32.toNat_sub_of_le _ _ (by
        rw [UInt32.le_iff_toNat_le, product]
        exact lower), product]
    · rw [if_neg ends, if_neg (mt lastIndex.mpr ends)]
  apply map_ite
  · rw [ne_eq, ne_eq, ← UInt32.toNat_inj, length]
  · exact fun _ => rfl
  intro _
  apply map_ite
  · rw [decide_eq_decide.mpr lastIndex]
  · exact fun _ => rfl
  · exact fun _ => rfl

theorem fragmentShape32_ok {totalLen maxPayload maxFrags offset len idx count : UInt32} {last : Bool} :
    fragmentShape32 totalLen maxPayload maxFrags offset len last = .ok (idx, count) ↔
      fragmentShape totalLen.toNat maxPayload.toNat maxFrags.toNat offset.toNat len.toNat last =
        .ok (idx.toNat, count.toNat) := by
  rw [← fragmentShape32_toNat]
  cases fragmentShape32 totalLen maxPayload maxFrags offset len last with
  | error error => simp [Except.map]
  | ok result => simp [Except.map, Prod.ext_iff, UInt32.toNat_inj]

theorem fragmentShape32_accepts {totalLen maxPayload maxFrags : UInt32} (offset len : UInt32) (last : Bool)
    (positive : 0 < maxPayload.toNat) (frags : 0 < maxFrags.toNat)
    (fits : totalLen.toNat + maxPayload.toNat - 1 < 2 ^ 32) :
    (∃ result, fragmentShape32 totalLen maxPayload maxFrags offset len last = .ok result) ↔
      pieceCount totalLen.toNat maxPayload.toNat ≤ maxFrags.toNat ∧
        ⟨offset.toNat, len.toNat, last⟩ ∈ pieces totalLen.toNat maxPayload.toNat := by
  constructor
  · rintro ⟨⟨idx, count⟩, shape⟩
    obtain ⟨counted, few, listed⟩ := (fragmentShape_iff positive frags fits).mp (fragmentShape32_ok.mp shape)
    exact ⟨counted ▸ few, List.mem_of_getElem? listed⟩
  · rintro ⟨few, member⟩
    obtain ⟨idx, listed⟩ := List.mem_iff_getElem?.mp member
    have shape := (fragmentShape_iff positive frags fits).mpr ⟨rfl, few, listed⟩
    rw [← fragmentShape32_toNat] at shape
    cases made : fragmentShape32 totalLen maxPayload maxFrags offset len last with
    | error error =>
        rw [made] at shape
        cases shape
    | ok result => exact ⟨result, rfl⟩

/-! ## The loops that send -/

/-- The loop of both senders from `offset` on. `offset` never passes `totalLen`, so that no `u32` operation
wraps. -/
def fragmentLoop (totalLen offset : Nat) : List FragPiece :=
  let payloadLen := min (totalLen - offset) dataMaxPayload
  let last := decide (offset + payloadLen = totalLen)
  let next := offset + payloadLen
  ⟨offset, payloadLen, last⟩ :: if next < totalLen then fragmentLoop totalLen next else []
termination_by totalLen - offset
decreasing_by
  have payload : 0 < dataMaxPayload := by decide
  omega

/-- The fragments of `tbv_native_send_ctx_post_frames`. -/
def postFramesLoop (totalLen : Nat) : List FragPiece := fragmentLoop totalLen 0

/-- The fragments of `tbv_send_read_response_ctx`. -/
def readResponseLoop (totalLen : Nat) : List FragPiece := fragmentLoop totalLen 0

theorem payload_pos : 0 < dataMaxPayload := by decide

theorem fragmentLoop_turn {i : Nat} (inside : i < pieceCount totalLen dataMaxPayload) :
    fragmentLoop totalLen (i * dataMaxPayload) =
      piece totalLen dataMaxPayload i ::
        if i + 1 < pieceCount totalLen dataMaxPayload then fragmentLoop totalLen ((i + 1) * dataMaxPayload)
        else [] := by
  have start : i * dataMaxPayload ≤ totalLen := offset_le payload_pos inside
  have size : min (totalLen - i * dataMaxPayload) dataMaxPayload = (piece totalLen dataMaxPayload i).len :=
    Nat.min_comm ..
  rw [fragmentLoop, size]
  by_cases more : i + 1 < pieceCount totalLen dataMaxPayload
  · have before := next_lt payload_pos more
    have next : i * dataMaxPayload + (piece totalLen dataMaxPayload i).len = (i + 1) * dataMaxPayload := by
      rw [len_of_lt payload_pos more, Nat.succ_mul]
    have flagged : decide ((i + 1) * dataMaxPayload = totalLen) = (piece totalLen dataMaxPayload i).last :=
      decide_eq_decide.mpr (by omega)
    rw [next, flagged, if_pos before, if_pos more]
    rfl
  · have ends : i + 1 = pieceCount totalLen dataMaxPayload := by omega
    have next : i * dataMaxPayload + (piece totalLen dataMaxPayload i).len = totalLen := by
      rw [len_last payload_pos ends]
      omega
    have flagged : decide (totalLen = totalLen) = (piece totalLen dataMaxPayload i).last :=
      decide_eq_decide.mpr (by simp [ends])
    rw [next, flagged, if_neg (Nat.lt_irrefl _), if_neg more]
    rfl

theorem fragmentLoop_eq (left i : Nat) (through : i + left + 1 = pieceCount totalLen dataMaxPayload) :
    fragmentLoop totalLen (i * dataMaxPayload) =
      (List.range' i (left + 1)).map (piece totalLen dataMaxPayload) := by
  induction left generalizing i with
  | zero =>
      rw [fragmentLoop_turn (by omega), if_neg (by omega)]
      rfl
  | succ left ih =>
      rw [fragmentLoop_turn (by omega), if_pos (by omega), ih (i + 1) (by omega)]
      rfl

theorem fragmentLoop_pieces (totalLen : Nat) : fragmentLoop totalLen 0 = pieces totalLen dataMaxPayload := by
  have some := pieceCount_pos totalLen dataMaxPayload
  have through : 0 + (pieceCount totalLen dataMaxPayload - 1) + 1 = pieceCount totalLen dataMaxPayload := by omega
  have loop := fragmentLoop_eq _ 0 through
  rw [Nat.zero_mul, Nat.sub_add_cancel some, ← List.range_eq_range'] at loop
  exact loop

/-- What a header says of its fragment. -/
def pieceOf (header : DataHeader) : FragPiece := ⟨header.fragOffset, header.length, header.isLast⟩

theorem pieceCount_fragmentCount (totalLen : Nat) : pieceCount totalLen dataMaxPayload = fragmentCount totalLen := by
  unfold fragmentCount
  split
  · rename_i empty
    rw [empty, pieceCount_zero]
  · rename_i some
    exact pieceCount_eq some payload_pos

/-- The last piece is the one that ends with the message. -/
theorem piece_of_fragment {i : Nat} (inside : i < pieceCount totalLen dataMaxPayload) :
    (⟨i * dataMaxPayload, min (totalLen - i * dataMaxPayload) dataMaxPayload,
      i * dataMaxPayload + min (totalLen - i * dataMaxPayload) dataMaxPayload = totalLen⟩ : FragPiece) =
      piece totalLen dataMaxPayload i := by
  have turn := fragmentLoop_turn inside
  rw [fragmentLoop] at turn
  exact (List.cons.inj turn).1

theorem buildFragments_loop {msg : SendMsg} {answers : Nat → FragmentEnv} {headers : List DataHeader}
    (built : buildFragments msg answers (fragmentCount msg.totalLen) 0 = .ok headers) :
    headers.map pieceOf = postFramesLoop msg.totalLen := by
  rw [buildFragments_eq built, postFramesLoop, fragmentLoop_pieces, pieces, List.map_map, ← List.range_eq_range',
    pieceCount_fragmentCount]
  refine List.map_congr_left fun i listed => ?_
  have inside := List.mem_range.mp listed
  rw [Function.comp_apply, ← piece_of_fragment (by rwa [pieceCount_fragmentCount])]
  simp only [pieceOf, fragmentHeader, nativeHeader_isLast]
  rfl

theorem sendReadResponseCtx_loop (snap : Snapshot) (env : ResponseEnv)
    (sent : (snap.sendReadResponseCtx env).2 = none) :
    (snap.sendReadResponseCtx env).1.map (fun frame => pieceOf frame.header) = readResponseLoop snap.data.length := by
  obtain ⟨count, -, frames, whole⟩ := snap.frames_sendReadResponseCtx env
  rw [frames, whole sent, readResponseLoop, fragmentLoop_pieces, pieces, List.map_map, pieceCount_fragmentCount]
  refine List.map_congr_left fun i listed => ?_
  have inside := List.mem_range.mp listed
  have length : (snap.fragment i).header.length = min dataMaxPayload (snap.data.length - i * dataMaxPayload) := by
    rw [← (snap.fragment i).sized, Snapshot.fragment, Snapshot.frameAt, List.length_take, List.length_drop]
  have last := snap.fragment_isLast inside
  rw [Snapshot.fragments, ← pieceCount_fragmentCount] at last
  rw [Function.comp_apply, pieceOf, length, last]
  rfl

/-- The pieces are the bytes of the message in order. The check accepts exactly the pieces of a message of few
enough pieces, with their indices; a sum that wraps is refused. For frames of the wire's size these are the
fragments that both senders emit. -/
theorem fragment_shape_exact (totalLen maxPayload maxFrags offset len : UInt32) (last : Bool)
    (payload : maxPayload ≠ 0) (frags : maxFrags ≠ 0) :
    (pieces totalLen.toNat maxPayload.toNat).flatMap (fun p => List.range' p.offset p.len) =
      List.range totalLen.toNat ∧
    (totalLen.toNat + maxPayload.toNat - 1 < 2 ^ 32 → ∀ idx count,
      fragmentShape32 totalLen maxPayload maxFrags offset len last = .ok (idx, count) ↔
        count.toNat = pieceCount totalLen.toNat maxPayload.toNat ∧ count ≤ maxFrags ∧
          (pieces totalLen.toNat maxPayload.toNat)[idx.toNat]? = some ⟨offset.toNat, len.toNat, last⟩) ∧
    (2 ^ 32 ≤ totalLen.toNat + maxPayload.toNat - 1 →
      ∃ error, fragmentShape32 totalLen maxPayload maxFrags offset len last = .error error) ∧
    (totalLen.toNat + maxPayload.toNat - 1 < 2 ^ 32 → maxPayload.toNat = dataMaxPayload →
      ((∃ result, fragmentShape32 totalLen maxPayload maxFrags offset len last = .ok result) ↔
        pieceCount totalLen.toNat dataMaxPayload ≤ maxFrags.toNat ∧
          ⟨offset.toNat, len.toNat, last⟩ ∈ postFramesLoop totalLen.toNat) ∧
      ((∃ result, fragmentShape32 totalLen maxPayload maxFrags offset len last = .ok result) ↔
        pieceCount totalLen.toNat dataMaxPayload ≤ maxFrags.toNat ∧
          ⟨offset.toNat, len.toNat, last⟩ ∈ readResponseLoop totalLen.toNat)) := by
  have positive : 0 < maxPayload.toNat := Nat.pos_of_ne_zero (mt (u32_zero_iff _).mpr payload)
  have some : 0 < maxFrags.toNat := Nat.pos_of_ne_zero (mt (u32_zero_iff _).mpr frags)
  refine ⟨pieces_cover positive, fun fits idx count => ?_, fun wraps => ?_, fun fits wire => ?_⟩
  · rw [fragmentShape32_ok, fragmentShape_iff positive some fits, UInt32.le_iff_toNat_le]
  · cases shape : fragmentShape32 totalLen maxPayload maxFrags offset len last with
    | error error => exact ⟨error, rfl⟩
    | ok result =>
        exact absurd (fragmentShape32_ok.mp shape)
          (fragmentShape_wraps positive maxPayload.toNat_lt some totalLen.toNat_lt wraps)
  · have accepted := fragmentShape32_accepts offset len last positive some fits
    rw [wire] at accepted
    rw [postFramesLoop, readResponseLoop, fragmentLoop_pieces]
    exact ⟨accepted, accepted⟩

/-- The second and last fragment of 5000 bytes. -/
theorem fragment_shape_exact_second :
    fragmentShape32 5000 4048 4096 4048 952 true = .ok (1, 2) ∧
      (⟨4048, 952, true⟩ : FragPiece) ∈ postFramesLoop 5000 ∧
      ∃ error, fragmentShape32 0xffffffff 4048 4096 0 4048 false = .error error := by
  obtain ⟨-, accepts, -, loops⟩ := fragment_shape_exact 5000 4048 4096 4048 952 true (by decide) (by decide)
  obtain ⟨-, -, wraps, -⟩ := fragment_shape_exact 0xffffffff 4048 4096 0 4048 false (by decide) (by decide)
  have shape := (accepts (by decide) 1 2).mpr ⟨by decide, by decide, by decide⟩
  exact ⟨shape, (((loops (by decide) (by decide)).1).mp ⟨_, shape⟩).2, wraps (by decide)⟩
end ThunderboltVerbs.Receive
