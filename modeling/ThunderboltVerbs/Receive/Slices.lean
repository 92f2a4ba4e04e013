import Mathlib.Data.List.GetD
import ThunderboltVerbs.Receive.Scatter

/-!
# Ranges of a list of segments (`kernel/ibdev.c`)

Gathering a range of a SEND and scattering a part of a READ walk over the segments with one loop, in `u32`
arithmetic.
-/

namespace ThunderboltVerbs.Verbs
open Proto Receive Lib

variable {σ : Type}

/-! ## The loops -/

/-- The loop of `tbv_copy_send_range` and of `tbv_copy_to_read_segments`. `copy` is given a segment, the offset
in it, the bytes copied so far and the length of the chunk. -/
def copyRange (copy : Segment → Nat → Nat → Nat → σ → σ × Option Errno) (offset length : Nat) :
    Nat → Nat → List Segment → σ → σ × Option Errno
  | _, _, [], s => (s, some .eFault)
  | skipped, copied, seg :: rest, s =>
      let next := (skipped + seg.length) % 2 ^ 32
      if next ≤ offset then copyRange copy offset length next copied rest s
      else
        let segOff := if skipped < offset then offset - skipped else 0
        let chunk := min ((seg.length + 2 ^ 32 - segOff) % 2 ^ 32) ((length + 2 ^ 32 - copied) % 2 ^ 32)
        match copy seg segOff copied chunk s with
        | (s, some error) => (s, some error)
        | (s, none) =>
            let copied := (copied + chunk) % 2 ^ 32
            if copied = length then (s, none) else copyRange copy offset length next copied rest s

def writeAt (dst : Nat → UInt8) (place : Nat) (bytes : List UInt8) : Nat → UInt8 := fun i =>
  if place ≤ i then bytes.getD (i - place) (dst i) else dst i

/-- `tbv_copy_send_range`; `copyFrom` is `ib_umem_copy_from`, of the region that the memory belongs to. -/
def copySendRange (copyFrom : Mr → Nat → Nat → Except Errno (List UInt8)) (segs : List Segment) (offset : Nat)
    (dst : Nat → UInt8) (length : Nat) : (Nat → UInt8) × Option Errno :=
  if length = 0 then (dst, none)
  else
    copyRange (fun seg segOff copied chunk dst =>
      match copyFrom seg.mr ((seg.addr + segOff + 2 ^ 64 - seg.mr.start) % 2 ^ 64) chunk with
      | .error error => (dst, some error)
      | .ok bytes => (writeAt dst copied bytes, none)) offset length 0 0 segs dst

/-- The call of `tbv_umem_copy_to`. -/
def readCopy (payload : List UInt8) (seg : Segment) (segOff copied chunk : Nat) (copies : List SegmentCopy) :
    List SegmentCopy × Option Errno :=
  let addr := (seg.addr + segOff) % 2 ^ 64
  match seg.mr.copyError addr chunk with
  | some error => (copies, some error)
  | none => (copies ++ [{ mr := seg.mr, addr, data := (payload.drop copied).take chunk }], none)

/-- `tbv_copy_to_read_segments` in `u32` arithmetic. -/
def copyToReadSegments32 (segs : List Segment) (offset : Nat) (payload : List UInt8) :
    List SegmentCopy × Option Errno :=
  if payload.length = 0 then ([], none)
  else copyRange (readCopy payload) offset payload.length 0 0 segs []

/-! ## The rule of the loop -/

/-- A turn of the loop whose sums stay in the `u32`. -/
theorem copyRange_cons (copy : Segment → Nat → Nat → Nat → σ → σ × Option Errno) (offset : Nat)
    {length skipped copied : Nat} {seg : Segment} (rest : List Segment) (s : σ)
    (bounded : skipped + seg.length < 2 ^ 32) (short : length < 2 ^ 32) (unfinished : copied < length) :
    copyRange copy offset length skipped copied (seg :: rest) s =
      if skipped + seg.length ≤ offset then copyRange copy offset length (skipped + seg.length) copied rest s
      else
        let chunk := min (seg.length - (offset - skipped)) (length - copied)
        match copy seg (offset - skipped) copied chunk s with
        | (s, some error) => (s, some error)
        | (s, none) =>
            if copied + chunk = length then (s, none)
            else copyRange copy offset length (skipped + seg.length) (copied + chunk) rest s := by
  have next : (skipped + seg.length) % 2 ^ 32 = skipped + seg.length := Nat.mod_eq_of_lt bounded
  rw [copyRange]
  simp only [next]
  by_cases skip : skipped + seg.length ≤ offset
  · rw [if_pos skip, if_pos skip]
  · have start : (if skipped < offset then offset - skipped else 0) = offset - skipped := by
      split <;> omega
    have room : (seg.length + 2 ^ 32 - (offset - skipped)) % 2 ^ 32 = seg.length - (offset - skipped) := by omega
    have left : (length + 2 ^ 32 - copied) % 2 ^ 32 = length - copied := by omega
    rw [if_neg skip, if_neg skip, start, room, left]
    generalize size : min (seg.length - (offset - skipped)) (length - copied) = chunk
    have sum : (copied + chunk) % 2 ^ 32 = copied + chunk := Nat.mod_eq_of_lt (by omega)
    rw [sum]

section Rule

variable {copy : Segment → Nat → Nat → Nat → σ → σ × Option Errno} (holds : Nat → σ → Prop)
  {segs : List Segment} {offset length : Nat} (nonempty : ∀ seg ∈ segs, 0 < seg.length)
  (total : segmentBytes segs < 2 ^ 32) (short : length < 2 ^ 32)
  (step : ∀ before seg after segOff copied chunk s, segs = before ++ seg :: after →
    segmentBytes before + segOff = offset + copied → segOff + chunk ≤ seg.length → chunk ≠ 0 →
    copied + chunk ≤ length → offset + copied + chunk ≤ segmentBytes segs → holds copied s →
    ∃ s', copy seg segOff copied chunk s = (s', none) ∧ holds (copied + chunk) s')
include nonempty total short step

theorem copyRange_from (before rest : List Segment) (here : segs = before ++ rest) (copied : Nat) (s : σ)
    (place : max (segmentBytes before) offset = offset + copied) (unfinished : copied < length)
    (held : holds copied s) :
    ∃ s', copyRange copy offset length (segmentBytes before) copied rest s =
        (s', if offset + length ≤ segmentBytes segs then none else some .eFault) ∧
      (offset + length ≤ segmentBytes segs → holds length s') := by
  induction rest generalizing before copied s with
  | nil =>
      have all : segmentBytes segs = segmentBytes before := by rw [here, List.append_nil]
      have beyond : ¬offset + length ≤ segmentBytes segs := by omega
      exact ⟨s, by rw [copyRange, if_neg beyond], fun inside => absurd inside beyond⟩
  | cons seg rest ih =>
      have bytes : segmentBytes segs = segmentBytes before + seg.length + segmentBytes rest := by
        rw [here, segmentBytes, tally_append, tally_cons, ← Nat.add_assoc]
        rfl
      have behind : segmentBytes (before ++ [seg]) = segmentBytes before + seg.length := by
        rw [segmentBytes, tally_append, tally_cons, tally_nil, Nat.add_zero]
        rfl
      have later : segs = (before ++ [seg]) ++ rest := by rw [here, List.append_assoc]; rfl
      have positive : 0 < seg.length := nonempty seg (by rw [here]; exact List.mem_append_right _ List.mem_cons_self)
      rw [copyRange_cons copy offset rest s (by omega) short unfinished]
      by_cases skip : segmentBytes before + seg.length ≤ offset
      · rw [if_pos skip, ← behind]
        exact ih (before ++ [seg]) later copied s (by omega) unfinished held
      · rw [if_neg skip]
        simp only
        generalize size : min (seg.length - (offset - segmentBytes before)) (length - copied) = chunk
        obtain ⟨s', done, held'⟩ := step before seg rest (offset - segmentBytes before) copied chunk s here
          (by omega) (by omega) (by omega) (by omega) (by omega) held
        simp only [done]
        by_cases finished : copied + chunk = length
        · have inside : offset + length ≤ segmentBytes segs := by omega
          rw [if_pos finished, if_pos inside]
          exact ⟨s', rfl, fun _ => finished ▸ held'⟩
        · rw [if_neg finished, ← behind]
          exact ih (before ++ [seg]) later (copied + chunk) s' (by omega) (by omega) held'

/-- The chunks lie one behind the other in the range: what holds of the bytes copied so far holds after each
chunk, and the loop runs out of segments just when the range does not lie in them. -/
theorem copyRange_rule {s : σ} (nonzero : length ≠ 0) (held : holds 0 s) :
    ∃ s', copyRange copy offset length 0 0 segs s =
        (s', if offset + length ≤ segmentBytes segs then none else some .eFault) ∧
      (offset + length ≤ segmentBytes segs → holds length s') :=
  copyRange_from holds nonempty total short step [] segs rfl 0 s (Nat.zero_max _) (Nat.pos_of_ne_zero nonzero) held

end Rule

/-! ## What the segments hold -/

/-- `ib_umem_copy_from` reads what the memory of the region holds, as long as it stays in the region. -/
def ReadsUmem (copyFrom : Mr → Nat → Nat → Except Errno (List UInt8)) (memory : Mr → Nat → UInt8) : Prop :=
  ∀ mr offset length, mr.dmaMr = false → offset + length ≤ mr.length →
    copyFrom mr offset length = .ok ((List.range length).map fun i => memory mr (offset + i))

def Segment.content (memory : Mr → Nat → UInt8) (seg : Segment) : List UInt8 :=
  (List.range seg.length).map fun i => memory seg.mr (seg.addr - seg.mr.start + i)

def segmentContent (memory : Mr → Nat → UInt8) (segs : List Segment) : List UInt8 :=
  segs.flatMap (Segment.content memory)

/-- A chunk of one segment, in the concatenation of all. -/
theorem chunk_content {β : Type} {content : Segment → List β} (sized : ∀ seg, (content seg).length = seg.length)
    (before : List Segment) (seg : Segment) (after : List Segment) {segOff chunk : Nat}
    (inside : segOff + chunk ≤ seg.length) :
    (((before ++ seg :: after).flatMap content).drop (segmentBytes before + segOff)).take chunk =
      ((content seg).drop segOff).take chunk := by
  rw [List.flatMap_append, List.flatMap_cons, ← length_flatMap_content sized before, List.drop_length_add_append,
    List.drop_append_of_le_length (by rw [sized]; omega),
    List.take_append_of_le_length (by rw [List.length_drop, sized]; omega)]

theorem range_map_slice {β : Type} (f : Nat → β) {size start count : Nat} (inside : start + count ≤ size) :
    (((List.range size).map f).drop start).take count = (List.range count).map fun i => f (start + i) := by
  apply List.ext_getElem
  · simp
    omega
  · intro i _ _
    simp

theorem writeAt_nil (dst : Nat → UInt8) (place : Nat) : writeAt dst place [] = dst := by
  funext i
  unfold writeAt
  split <;> rfl

theorem writeAt_append (dst : Nat → UInt8) (front back : List UInt8) :
    writeAt (writeAt dst 0 front) front.length back = writeAt dst 0 (front ++ back) := by
  funext i
  unfold writeAt
  simp only [Nat.zero_le, if_true, Nat.sub_zero]
  split
  · rename_i behind
    rw [List.getD_append_right _ _ _ _ behind, List.getD_eq_default _ _ behind]
  · rename_i before
    rw [List.getD_append _ _ _ _ (Nat.lt_of_not_le before)]

theorem Segment.InRegion.umem_offset {seg : Segment} (inRegion : seg.InRegion) {segOff chunk : Nat}
    (inside : segOff + chunk ≤ seg.length) :
    (seg.addr + segOff + 2 ^ 64 - seg.mr.start) % 2 ^ 64 = seg.addr - seg.mr.start + segOff ∧
      seg.addr - seg.mr.start + segOff + chunk ≤ seg.mr.length := by
  have covered := inRegion.covered
  simp only [Mr.covers, Bool.and_eq_true, decide_eq_true_eq] at covered
  omega

/-! ## Gathering -/

section Ranges

variable {segs : List Segment} (inRegion : ∀ seg ∈ segs, seg.InRegion) (total : segmentBytes segs < 2 ^ 32)
include inRegion total

theorem copySendRange_spec {copyFrom : Mr → Nat → Nat → Except Errno (List UInt8)} {memory : Mr → Nat → UInt8}
    (reads : ReadsUmem copyFrom memory) (offset : Nat) (dst : Nat → UInt8) {length : Nat} (nonzero : length ≠ 0)
    (short : length < 2 ^ 32) :
    ∃ dst', copySendRange copyFrom segs offset dst length =
        (dst', if offset + length ≤ segmentBytes segs then none else some .eFault) ∧
      (offset + length ≤ segmentBytes segs →
        dst' = writeAt dst 0 (((segmentContent memory segs).drop offset).take length)) := by
  rw [copySendRange, if_neg nonzero]
  have sized : ∀ seg, (Segment.content memory seg).length = seg.length := by
    intro seg
    simp [Segment.content]
  apply copyRange_rule
    (fun copied dst' => dst' = writeAt dst 0 (((segmentContent memory segs).drop offset).take copied))
    (fun seg member => (inRegion seg member).positive) total short
  case nonzero => exact nonzero
  case held =>
    rw [List.take_zero, writeAt_nil]
  case step =>
    intro before seg after segOff copied chunk dst' here place inside _ _ covered held
    have own : seg.InRegion := inRegion seg (by rw [here]; exact List.mem_append_right _ List.mem_cons_self)
    have upTo := own.umem_offset inside
    have read := reads seg.mr (seg.addr - seg.mr.start + segOff) chunk own.mapped upTo.2
    have slice : (((segmentContent memory segs).drop offset).drop copied).take chunk =
        (List.range chunk).map fun i => memory seg.mr (seg.addr - seg.mr.start + segOff + i) := by
      rw [List.drop_drop, ← place, here]
      apply (chunk_content sized before seg after inside).trans
      rw [Segment.content, range_map_slice _ inside]
      simp only [Nat.add_assoc]
    have copiedLength : (((segmentContent memory segs).drop offset).take copied).length = copied := by
      rw [List.length_take, List.length_drop, segmentContent, length_flatMap_content sized]
      omega
    rw [upTo.1, read, held]
    refine ⟨_, rfl, ?_⟩
    rw [List.take_add, slice, ← writeAt_append, copiedLength]

/-! ## Scattering -/

theorem copyToReadSegments32_spec (offset : Nat) (payload : List UInt8) (nonempty : payload.length ≠ 0)
    (short : payload.length < 2 ^ 32) :
    ∃ copies, copyToReadSegments32 segs offset payload =
        (copies, if offset + payload.length ≤ segmentBytes segs then none else some .eFault) ∧
      (offset + payload.length ≤ segmentBytes segs →
        copyWrites copies = ((segmentPlaces segs).drop offset).zip payload) := by
  suffices ∃ copies, copyToReadSegments32 segs offset payload =
      (copies, if offset + payload.length ≤ segmentBytes segs then none else some .eFault) ∧
      (offset + payload.length ≤ segmentBytes segs →
        copyWrites copies = ((segmentPlaces segs).drop offset).zip (payload.take payload.length)) by
    simpa only [List.take_length] using this
  rw [copyToReadSegments32, if_neg nonempty]
  apply copyRange_rule (fun copied copies =>
      copyWrites copies = ((segmentPlaces segs).drop offset).zip (payload.take copied))
    (fun seg member => (inRegion seg member).positive) total short
  case nonzero => exact nonempty
  case held =>
    rw [List.take_zero, List.zip_nil_right]
    rfl
  case step =>
    intro before seg after segOff copied chunk copies here place inside filled fits covered held
    have own : seg.InRegion := inRegion seg (by rw [here]; exact List.mem_append_right _ List.mem_cons_self)
    have data : ((payload.drop copied).take chunk).length = chunk := by
      rw [List.length_take, List.length_drop]
      omega
    have written := writes_chunk own.writable segOff ((payload.drop copied).take chunk) (by rw [data]; exact inside)
      (List.ne_nil_of_length_pos (by omega))
    have slice : (((segmentPlaces segs).drop offset).drop copied).take chunk = (seg.places.drop segOff).take chunk := by
      rw [List.drop_drop, ← place, here]
      exact chunk_content length_places before seg after inside
    have copiedLength : (payload.take copied).length = copied := by
      rw [List.length_take]
      omega
    rw [readCopy, own.writable.copies segOff chunk inside filled]
    refine ⟨_, rfl, ?_⟩
    rw [copyWrites_append, held, copyWrites_cons, copyWrites_nil, List.append_nil, written, List.take_add]
    rw [zip_split _ _ _ (by rw [copiedLength, List.length_drop, length_segmentPlaces]; omega), copiedLength]
    rw [← zip_take chunk (seg.places.drop segOff) _ (by omega), ← slice, zip_take chunk _ _ (by omega)]

end Ranges

theorem copyRange_copyToSegments {payload : List UInt8} {offset : Nat} (short : payload.length < 2 ^ 32)
    {segs : List Segment} {skipped copied : Nat} (total : skipped + segmentBytes segs < 2 ^ 32)
    (unfinished : copied < payload.length) (copies : List SegmentCopy) :
    copyRange (readCopy payload) offset payload.length skipped copied segs copies =
      ((copies ++ (copyToSegments offset skipped segs (payload.drop copied)).1),
        (copyToSegments offset skipped segs (payload.drop copied)).2) := by
  induction segs generalizing skipped copied copies with
  | nil => rw [copyRange, copyToSegments, List.append_nil]
  | cons seg rest ih =>
      have bytes : segmentBytes (seg :: rest) = seg.length + segmentBytes rest := tally_cons ..
      rw [bytes] at total
      rw [copyRange_cons _ offset rest copies (by omega) short unfinished, copyToSegments]
      by_cases behind : skipped + seg.length ≤ offset
      · rw [if_pos behind, if_pos behind]
        exact ih (by omega) unfinished copies
      · rw [if_neg behind, if_neg behind, ← List.length_drop]
        simp only [readCopy]
        generalize size : min (seg.length - (offset - skipped)) (payload.drop copied).length = chunk
        have fits : chunk ≤ payload.length - copied := by
          rw [← List.length_drop]
          omega
        cases seg.mr.copyError ((seg.addr + (offset - skipped)) % 2 ^ 64) chunk with
        | some error => simp only [List.append_nil]
        | none =>
            simp only [List.length_drop]
            by_cases finished : copied + chunk = payload.length
            · rw [if_pos finished, if_pos (by omega)]
            · rw [if_neg finished, if_neg (by omega), ih (by omega) (by omega), List.drop_drop, List.append_assoc]
              rfl

/-- The two models of `tbv_copy_to_read_segments` are one. -/
theorem copyToReadSegments32_eq (read : ReadCtx) (offset : Nat) (payload : List UInt8)
    (total : segmentBytes read.segs < 2 ^ 32) (short : payload.length < 2 ^ 32) :
    copyToReadSegments32 read.segs offset payload = read.copyToReadSegments offset payload := by
  rw [copyToReadSegments32, ReadCtx.copyToReadSegments]
  by_cases empty : payload = []
  · rw [if_pos empty, if_pos (List.length_eq_zero_iff.mpr empty)]
  · have nonempty : payload.length ≠ 0 := by simpa using empty
    rw [if_neg empty, if_neg nonempty,
      copyRange_copyToSegments short (by omega) (Nat.pos_of_ne_zero nonempty), List.drop_zero, List.nil_append]

/-! ## Both copies -/

theorem scatter_gather_slices {copyFrom : Mr → Nat → Nat → Except Errno (List UInt8)} {memory : Mr → Nat → UInt8}
    (reads : ReadsUmem copyFrom memory) {segs : List Segment} (inRegion : ∀ seg ∈ segs, seg.InRegion)
    (total : segmentBytes segs < 2 ^ 32) (offset length : Nat) (short : length < 2 ^ 32) (dst : Nat → UInt8)
    (payload : List UInt8) (sized : payload.length = length) :
    (offset + length ≤ segmentBytes segs →
      copySendRange copyFrom segs offset dst length =
          (writeAt dst 0 (((segmentContent memory segs).drop offset).take length), none) ∧
        ∃ copies, copyToReadSegments32 segs offset payload = (copies, none) ∧
          copyWrites copies = ((segmentPlaces segs).drop offset).zip payload) ∧
    (0 < length →
      ((copySendRange copyFrom segs offset dst length).2 = some .eFault ↔ segmentBytes segs < offset + length) ∧
        ((copyToReadSegments32 segs offset payload).2 = some .eFault ↔ segmentBytes segs < offset + length)) := by
  subst sized
  by_cases zero : payload.length = 0
  · have empty : payload = [] := List.length_eq_zero_iff.mp zero
    refine ⟨fun _ => ⟨?_, [], ?_, ?_⟩, fun positive => absurd zero (Nat.ne_of_gt positive)⟩
    · rw [copySendRange, if_pos zero, zero, List.take_zero, writeAt_nil]
    · rw [copyToReadSegments32, if_pos zero]
    · rw [empty, List.zip_nil_right]
      rfl
  · obtain ⟨dst', gathered, slice⟩ := copySendRange_spec inRegion total reads offset dst zero short
    obtain ⟨copies, scattered, written⟩ := copyToReadSegments32_spec inRegion total offset payload zero short
    rw [gathered, scattered]
    constructor
    · intro inside
      rw [if_pos inside]
      exact ⟨by rw [slice inside], copies, rfl, written inside⟩
    · intro _
      have fails : (if offset + payload.length ≤ segmentBytes segs then none else some Errno.eFault) = some .eFault ↔
          segmentBytes segs < offset + payload.length := by
        rw [← Nat.not_le]
        split <;> simp [*]
      exact ⟨fails, fails⟩

def sliceMr (start length : Nat) : Mr := { start, length, localWrite := true }

def slicedSegs : List Segment :=
  [{ mr := sliceMr 4096 16, addr := 4100, length := 3 }, { mr := sliceMr 8192 8, addr := 8192, length := 5 }]

def sliceMemory (mr : Mr) (offset : Nat) : UInt8 := UInt8.ofNat (mr.start / 128 + offset)

/-- `ib_umem_copy_from` refuses a range that does not lie in the region. -/
def copyFromUmem (mr : Mr) (offset length : Nat) : Except Errno (List UInt8) :=
  if offset + length ≤ mr.length then .ok ((List.range length).map fun i => sliceMemory mr (offset + i))
  else .error .eInval

theorem scatter_gather_slices_two :
    (List.range 6).map (copySendRange copyFromUmem slicedSegs 2 (fun _ => 0) 4).1 = [38, 64, 65, 66, 0, 0] ∧
      (copySendRange copyFromUmem slicedSegs 5 (fun _ => 0) 4).2 = some .eFault ∧
      ∃ copies, copyToReadSegments32 slicedSegs 2 [1, 2, 3, 4] = (copies, none) ∧
        copyWrites copies = [((sliceMr 4096 16, 4102), 1), ((sliceMr 8192 8, 8192), 2), ((sliceMr 8192 8, 8193), 3),
          ((sliceMr 8192 8, 8194), 4)] := by
  have reads : ReadsUmem copyFromUmem sliceMemory := fun mr offset length _ inside => if_pos inside
  have inRegion : ∀ seg ∈ slicedSegs, seg.InRegion := by
    intro seg member
    simp only [slicedSegs, List.mem_cons, List.not_mem_nil, or_false] at member
    rcases member with rfl | rfl
    · exact ⟨by decide, rfl, by decide⟩
    · exact ⟨by decide, rfl, by decide⟩
  have total : segmentBytes slicedSegs < 2 ^ 32 := by decide
  obtain ⟨within, -⟩ := scatter_gather_slices reads inRegion total 2 4 (by decide) (fun _ => 0) [1, 2, 3, 4] rfl
  obtain ⟨-, beyond⟩ := scatter_gather_slices reads inRegion total 5 4 (by decide) (fun _ => 0) [1, 2, 3, 4] rfl
  obtain ⟨gathered, copies, scattered, written⟩ := within (by decide)
  refine ⟨?_, (beyond (by decide)).1.mpr (by decide), copies, scattered, ?_⟩
  · rw [gathered]
    decide
  · rw [written]
    decide

end ThunderboltVerbs.Verbs
