import ThunderboltVerbs.Receive.ReadResponse
import ThunderboltVerbs.Lib.Store
import ThunderboltVerbs.Lib.Tally

/-!
# Where the bytes of a READ go

The segments of a READ lie one after the other: byte `i` of the data belongs to place `i`.
-/

namespace ThunderboltVerbs.Verbs
open Proto Receive Lib

abbrev Place := Mr × Nat

namespace Segment

def places (seg : Segment) : List Place :=
  (List.range seg.length).map fun i => (seg.mr, (seg.addr + i) % 2 ^ 64)

/-- Every copy into the segment succeeds; `tbv_prepare_send_segments` leaves out the empty ones. -/
structure Writable (seg : Segment) : Prop where
  positive : 0 < seg.length
  copies : ∀ offset length, offset + length ≤ seg.length → length ≠ 0 →
    seg.mr.copyError ((seg.addr + offset) % 2 ^ 64) length = none

end Segment

def segmentBytes (segs : List Segment) : Nat := tally Segment.length segs

def segmentPlaces (segs : List Segment) : List Place := segs.flatMap Segment.places

/-- A copy byte by byte. -/
def SegmentCopy.writes (copy : SegmentCopy) : List (Place × UInt8) :=
  ((List.range copy.data.length).map fun i => (copy.mr, copy.addr + i)).zip copy.data

def copyWrites (copies : List SegmentCopy) : List (Place × UInt8) := copies.flatMap SegmentCopy.writes

@[simp] theorem copyWrites_nil : copyWrites [] = [] := rfl

@[simp] theorem copyWrites_cons (copy : SegmentCopy) (copies : List SegmentCopy) :
    copyWrites (copy :: copies) = copy.writes ++ copyWrites copies := rfl

@[simp] theorem copyWrites_append (copies more : List SegmentCopy) :
    copyWrites (copies ++ more) = copyWrites copies ++ copyWrites more :=
  List.flatMap_append

@[simp] theorem length_places (seg : Segment) : seg.places.length = seg.length := by
  simp [Segment.places]

theorem length_flatMap_content {β : Type} {content : Segment → List β}
    (sized : ∀ seg, (content seg).length = seg.length) (segs : List Segment) :
    (segs.flatMap content).length = segmentBytes segs := by
  induction segs with
  | nil => rfl
  | cons seg rest ih =>
      rw [List.flatMap_cons, List.length_append, ih, sized]
      exact (tally_cons ..).symm

theorem length_segmentPlaces (segs : List Segment) : (segmentPlaces segs).length = segmentBytes segs :=
  length_flatMap_content length_places segs

theorem copyError_none {mr : Mr} {addr length : Nat} (free : mr.copyError addr length = none) :
    addr + length < 2 ^ 64 := by
  unfold Mr.copyError at free
  split at free
  · cases free
  · split at free
    · cases free
    · rename_i below
      exact Nat.lt_of_not_le below

theorem zip_take {α β : Type} (count : Nat) (first : List α) (second : List β) (short : second.length ≤ count) :
    (first.take count).zip second = first.zip second := by
  induction first generalizing count second with
  | nil => simp
  | cons a first ih =>
      cases second with
      | nil => simp
      | cons b second =>
          obtain ⟨left, rfl⟩ : ∃ left, count = left + 1 := ⟨count - 1, by simp only [List.length_cons] at short; omega⟩
          rw [List.take_succ_cons, List.zip_cons_cons, List.zip_cons_cons,
            ih left second (Nat.le_of_succ_le_succ short)]

theorem zip_split {α β : Type} (first : List α) (front back : List β) (long : front.length ≤ first.length) :
    first.zip (front ++ back) = first.zip front ++ (first.drop front.length).zip back := by
  conv_lhs => rw [← List.take_append_drop front.length first]
  rw [List.zip_append (by rw [List.length_take]; omega), zip_take _ _ _ (Nat.le_refl _)]

theorem writes_chunk {seg : Segment} (writable : seg.Writable) (offset : Nat) (data : List UInt8)
    (inside : offset + data.length ≤ seg.length) (nonempty : data ≠ []) :
    SegmentCopy.writes { mr := seg.mr, addr := (seg.addr + offset) % 2 ^ 64, data } =
      (seg.places.drop offset).zip data := by
  have free := writable.copies offset data.length inside (by simpa using nonempty)
  have below := copyError_none free
  have places : (List.range data.length).map (fun i => (seg.mr, (seg.addr + offset) % 2 ^ 64 + i)) =
      (seg.places.drop offset).take data.length := by
    apply List.ext_getElem
    · simp
      omega
    · intro i left right
      simp only [List.length_map, List.length_range] at left
      simp only [List.getElem_map, List.getElem_range, List.getElem_take, List.getElem_drop, Segment.places,
        Prod.mk.injEq, true_and]
      omega
  simp only [SegmentCopy.writes, places]
  exact zip_take data.length (seg.places.drop offset) data (Nat.le_refl _)

/-- The loop of `tbv_copy_to_read_segments` copies the payload to the places from `offset` on. -/
theorem copyToSegments_writes {offset : Nat} {segs : List Segment} (writable : ∀ seg ∈ segs, seg.Writable)
    (skipped : Nat) (payload : List UInt8) (nonempty : payload ≠ [])
    (inside : offset - skipped + payload.length ≤ segmentBytes segs) :
    ∃ copies, copyToSegments offset skipped segs payload = (copies, none) ∧
      copyWrites copies = ((segmentPlaces segs).drop (offset - skipped)).zip payload := by
  induction segs generalizing skipped payload with
  | nil =>
      have empty : payload.length ≤ 0 := (Nat.le_add_left _ _).trans inside
      exact absurd (List.length_eq_zero_iff.mp (Nat.le_zero.mp empty)) nonempty
  | cons seg rest ih =>
      have later : ∀ other ∈ rest, other.Writable := fun other member => writable other (List.mem_cons_of_mem _ member)
      have own : seg.Writable := writable seg List.mem_cons_self
      have bytes : segmentBytes (seg :: rest) = seg.length + segmentBytes rest := tally_cons ..
      have places : segmentPlaces (seg :: rest) = seg.places ++ segmentPlaces rest := List.flatMap_cons
      rw [bytes] at inside
      rw [copyToSegments, places]
      by_cases behind : skipped + seg.length ≤ offset
      · rw [if_pos behind]
        have start : offset - skipped = seg.places.length + (offset - (skipped + seg.length)) := by
          rw [length_places]
          omega
        obtain ⟨copies, copied, written⟩ := ih later (skipped + seg.length) payload nonempty (by omega)
        exact ⟨copies, copied, by rw [written, start, List.drop_length_add_append]⟩
      · rw [if_neg behind]
        have positive : payload.length ≠ 0 := by simpa using nonempty
        have before : offset - skipped < seg.length := by
          have positive := own.positive
          omega
        generalize size : min (seg.length - (offset - skipped)) payload.length = chunk
        have some : chunk ≠ 0 := by omega
        have free := own.copies (offset - skipped) chunk (by omega) some
        have head : (payload.take chunk).length = chunk := by
          rw [List.length_take]
          omega
        have filled : payload.take chunk ≠ [] := by
          intro empty
          rw [empty] at head
          exact some head.symm
        have written := writes_chunk own (offset - skipped) (payload.take chunk) (by omega) filled
        have front : offset - skipped ≤ seg.places.length := by
          rw [length_places]
          omega
        simp only [size, free]
        rw [List.drop_append_of_le_length front]
        split
        · rename_i whole
          refine ⟨_, rfl, ?_⟩
          have all : payload.take chunk = payload := List.take_of_length_le (by omega)
          rw [all] at written
          rw [copyWrites_cons, copyWrites_nil, List.append_nil, all, written,
            ← zip_take payload.length (_ ++ _) payload (Nat.le_refl _),
            List.take_append_of_le_length (by rw [List.length_drop, length_places]; omega),
            zip_take payload.length _ payload (Nat.le_refl _)]
        · rename_i part
          have unfinished : payload.drop chunk ≠ [] := by
            intro empty
            have short := List.drop_eq_nil_iff.mp empty
            omega
          have full : chunk = seg.length - (offset - skipped) := by omega
          obtain ⟨copies, copied, more⟩ := ih later (skipped + seg.length) (payload.drop chunk) unfinished
            (by rw [List.length_drop]; omega)
          refine ⟨_ :: copies, by rw [copied], ?_⟩
          have start : offset - (skipped + seg.length) = 0 := by omega
          rw [start, List.drop_zero] at more
          rw [copyWrites_cons, written, more, ← List.zip_append (by rw [List.length_drop, length_places]; omega),
            List.take_append_drop]

theorem copyToReadSegments_writes {read : ReadCtx} (writable : ∀ seg ∈ read.segs, seg.Writable) (offset : Nat)
    (payload : List UInt8) (inside : offset + payload.length ≤ segmentBytes read.segs) :
    ∃ copies, read.copyToReadSegments offset payload = (copies, none) ∧
      copyWrites copies = ((segmentPlaces read.segs).drop offset).zip payload := by
  rw [ReadCtx.copyToReadSegments]
  by_cases empty : payload = []
  · exact ⟨[], if_pos empty, by rw [empty, List.zip_nil_right, copyWrites_nil]⟩
  · rw [if_neg empty]
    exact copyToSegments_writes writable 0 payload empty inside

/-! ## The segments of a posted READ -/

/-- The segment is not empty and lies in its region, as `tbv_prepare_send_segments` checks. -/
structure Segment.InRegion (seg : Segment) : Prop where
  positive : 0 < seg.length
  mapped : seg.mr.dmaMr = false
  covered : seg.mr.covers seg.addr seg.length = true

theorem copyError_covered {mr : Mr} {addr length : Nat} (mapped : mr.dmaMr = false)
    (covered : mr.covers addr length = true) : mr.copyError addr length = none := by
  simp only [Mr.covers, Bool.and_eq_true, decide_eq_true_eq] at covered
  obtain ⟨⟨below, first⟩, last⟩ := covered
  rw [Mr.copyError, mapped, if_neg Bool.false_ne_true, if_neg (by omega), if_neg (by omega), if_neg (by omega)]

theorem Segment.InRegion.writable {seg : Segment} (inRegion : seg.InRegion) : seg.Writable where
  positive := inRegion.positive
  copies offset length inside _ := by
    have covered := inRegion.covered
    apply copyError_covered inRegion.mapped
    simp only [Mr.covers, Bool.and_eq_true, decide_eq_true_eq] at covered ⊢
    omega

theorem prepareSges_inRegion {device : Device} {segs : List Segment} {sges : List Sge} {start total : Nat}
    (prepared : device.prepareSges start sges = .ok (segs, total)) :
    (∀ seg ∈ segs, seg.InRegion) ∧ start + segmentBytes segs = total := by
  induction sges generalizing start segs with
  | nil =>
      obtain ⟨rfl, rfl⟩ := Prod.mk.inj (Except.ok.inj prepared)
      exact ⟨by simp, rfl⟩
  | cons sge rest ih =>
      rw [Device.prepareSges] at prepared
      split at prepared
      · exact ih prepared
      rename_i filled
      split at prepared
      · cases prepared
      split at prepared
      · cases prepared
      rename_i below
      split at prepared
      · cases prepared
      rename_i mr found
      split at prepared
      · cases prepared
      rename_i mapped
      split at prepared
      · cases prepared
      rename_i covered
      split at prepared
      · cases prepared
      rename_i others sum later
      obtain ⟨rfl, rfl⟩ := Prod.mk.inj (Except.ok.inj prepared)
      obtain ⟨inRegion, bytes⟩ := ih later
      refine ⟨?_, ?_⟩
      · intro seg member
        rcases List.mem_cons.mp member with rfl | other
        · exact ⟨Nat.pos_of_ne_zero filled, by simpa using mapped, by simpa using covered⟩
        · exact inRegion seg other
      · rw [segmentBytes, tally_cons]
        rw [segmentBytes] at bytes
        simp only
        omega

theorem prepareReadSegments_writable {device : Device} {wr : SendWr} {segs : List Segment} {total : Nat}
    (prepared : device.prepareReadSegments wr = .ok (segs, total)) :
    (∀ seg ∈ segs, seg.Writable) ∧ segmentBytes segs = total := by
  rw [Device.prepareReadSegments] at prepared
  split at prepared
  · cases prepared
  rename_i checked
  split at prepared
  swap
  · cases prepared
  obtain ⟨rfl, rfl⟩ := Prod.mk.inj (Except.ok.inj prepared)
  rw [Device.prepareSendSegments] at checked
  split at checked
  · cases checked
  split at checked
  · cases checked
  obtain ⟨inRegion, bytes⟩ := prepareSges_inRegion checked
  exact ⟨fun seg member => (inRegion seg member).writable, by omega⟩

end ThunderboltVerbs.Verbs
