import ThunderboltVerbs.Receive.Slices
import ThunderboltVerbs.Receive.Access
import ThunderboltVerbs.DataPath.PageStream

/-!
# The pages of a message (`kernel/ibdev.c`)

A large WRITE that need not be retried is sent from the pages of its segments. `tbv_umem_page_from_addr` finds
the page of an address in the scatter list of a region.
-/

namespace ThunderboltVerbs.Verbs
open Proto Receive Lib DataPath

/-! ## Regions and their pages -/

/-- An entry of a scatter list; its page has the number `pfn`, and the pages behind it follow. -/
structure SgEntry where
  pfn : Nat
  offset : Nat
  length : Nat
  deriving DecidableEq, Repr

/-- What `ib_umem_get` pinned: the scatter list of each region, the bytes of the machine, and the pages that
are device memory. -/
structure Umem where
  sgl : Mr → List SgEntry
  phys : Nat → UInt8
  zoneDevice : Nat → Bool

def SgEntry.content (phys : Nat → UInt8) (sg : SgEntry) : List UInt8 :=
  (List.range sg.length).map fun i => phys (sg.pfn * pageSize + sg.offset + i)

def sgContent (phys : Nat → UInt8) (sgl : List SgEntry) : List UInt8 := sgl.flatMap (SgEntry.content phys)

def sgBytes (sgl : List SgEntry) : Nat := tally SgEntry.length sgl

/-- `ib_umem_get` pins every page of the region. -/
def Umem.Pins (umem : Umem) : Prop :=
  ∀ mr, mr.dmaMr = false → mr.start % pageSize + mr.length ≤ sgBytes (umem.sgl mr)

/-- A byte of a region, by its offset from the start of the region. -/
def Umem.memory (umem : Umem) (mr : Mr) (offset : Nat) : UInt8 :=
  (sgContent umem.phys (umem.sgl mr)).getD (mr.start % pageSize + offset) 0

/-- Page, offset in the page and length. -/
structure PageSpan where
  page : Nat
  pageOff : Nat
  len : Nat
  deriving DecidableEq, Repr

def PageSpan.bytes (phys : Nat → UInt8) (span : PageSpan) : List UInt8 :=
  (List.range span.len).map fun i => phys (span.page * pageSize + span.pageOff + i)

/-- The walk of `tbv_umem_page_from_addr` over the scatter list. -/
def pageFromSg (maxLen : Nat) : Nat → List SgEntry → Except Errno PageSpan
  | _, [] => .error .eFault
  | offset, sg :: rest =>
      if sg.length ≤ offset then pageFromSg maxLen (offset - sg.length) rest
      else
        let segOff := sg.offset + offset
        let pageOff := segOff % pageSize
        let chunk := min (min (min (pageSize - pageOff) (sg.length - offset)) maxLen) dataFrameSize
        if chunk = 0 then .error .eFault
        else .ok { page := sg.pfn + segOff / pageSize, pageOff, len := chunk }

def Umem.pageFromAddr (umem : Umem) (mr : Mr) (addr maxLen : Nat) : Except Errno PageSpan :=
  if maxLen = 0 then .error .eInval
  else if mr.dmaMr then .error .eOpNotSupp
  else if addr + maxLen ≥ 2 ^ 64 then .error .eInval
  else if mr.start + mr.length ≥ 2 ^ 64 then .error .eInval
  else if addr < mr.start ∨ addr + maxLen > mr.start + mr.length then .error .eFault
  else pageFromSg maxLen ((mr.start % pageSize + addr + 2 ^ 64 - mr.start) % 2 ^ 64) (umem.sgl mr)

/-! ## The stream -/

/-- `struct tbv_send_page_stream`, with the counts of its send context that it takes part in. -/
structure SendPageStream where
  segs : List Segment
  offset : Nat
  totalLen : Nat
  maxChunk : Nat
  refs : Nat
  txPending : Nat
  sendRefs : Nat
  deriving DecidableEq, Repr

/-- The page of the byte at `offset` of the message. The walk of `tbv_send_page_stream_next` has an upper bound
for a chunk, that of `tbv_send_segments_zcopy_safe` has none. -/
def pageAt (umem : Umem) (totalLen : Nat) (maxChunk : Option Nat) (offset : Nat) : Nat → List Segment → Except Errno PageSpan
  | _, [] => .error .eFault
  | skipped, seg :: rest =>
      let next := (skipped + seg.length) % 2 ^ 32
      if next ≤ offset then pageAt umem totalLen maxChunk offset next rest
      else
        let segOff := if skipped < offset then offset - skipped else 0
        let remaining := min ((seg.length + 2 ^ 32 - segOff) % 2 ^ 32) ((totalLen + 2 ^ 32 - offset) % 2 ^ 32)
        let remaining := match maxChunk with
          | some maxChunk => min remaining maxChunk
          | none => remaining
        umem.pageFromAddr seg.mr ((seg.addr + segOff) % 2 ^ 64) remaining

/-- `tbv_send_page_stream_next`; `done` is the callback of the stream. -/
def sendPageStreamNext (umem : Umem) (done : Nat) (s : SendPageStream) : Except Errno PageChunk × SendPageStream :=
  match pageAt umem s.totalLen (some s.maxChunk) s.offset 0 s.segs with
  | .error error => (.error error, s)
  | .ok span =>
      (.ok { page := some span.page, pageOff := span.pageOff, len := span.len, done := some done },
        { s with
          offset := (s.offset + span.len) % 2 ^ 32
          refs := s.refs + 1
          txPending := s.txPending + 1
          sendRefs := s.sendRefs + 1 })

/-- `tbv_send_segments_zcopy_safe`, from `offset` on. -/
def segmentsZcopySafe (umem : Umem) (segs : List Segment) (totalLen offset : Nat) : Bool :=
  if offset < totalLen then
    match pageAt umem totalLen none offset 0 segs with
    | .error _ => false
    | .ok span =>
        if span.len = 0 then false
        else if umem.zoneDevice span.page then false
        else segmentsZcopySafe umem segs totalLen (offset + span.len)
  else true
termination_by totalLen - offset

/-! ## One page -/

section Page

variable {phys : Nat → UInt8}

theorem length_sgContent (sgl : List SgEntry) : (sgContent phys sgl).length = sgBytes sgl := by
  induction sgl with
  | nil => rfl
  | cons sg rest ih =>
      rw [sgContent, List.flatMap_cons, List.length_append]
      rw [sgContent] at ih
      rw [ih, SgEntry.content, List.length_map, List.length_range]
      exact (tally_cons ..).symm

/-- A span that lies in the scatter list, in one page, and has the bytes of its place. -/
structure PageSpan.Reads (span : PageSpan) (phys : Nat → UInt8) (content : List UInt8) (maxLen : Nat) : Prop where
  positive : 0 < span.len
  short : span.len ≤ maxLen
  framed : span.len ≤ dataFrameSize
  inPage : span.pageOff + span.len ≤ pageSize
  bytes : span.bytes phys = content.take span.len

theorem pageFromSg_reads (phys : Nat → UInt8) {maxLen offset : Nat} (nonzero : 0 < maxLen) {sgl : List SgEntry}
    (inside : offset + maxLen ≤ sgBytes sgl) :
    ∃ span, pageFromSg maxLen offset sgl = .ok span ∧ span.Reads phys ((sgContent phys sgl).drop offset) maxLen := by
  induction sgl generalizing offset with
  | nil =>
      simp [sgBytes] at inside
      omega
  | cons sg rest ih =>
      have bytes : sgBytes (sg :: rest) = sg.length + sgBytes rest := tally_cons ..
      have sized : (sg.content phys).length = sg.length := by simp [SgEntry.content]
      rw [pageFromSg, sgContent, List.flatMap_cons]
      by_cases skip : sg.length ≤ offset
      · rw [if_pos skip]
        obtain ⟨span, found, reads⟩ := ih (show offset - sg.length + maxLen ≤ sgBytes rest by omega)
        refine ⟨span, found, ?_⟩
        rw [List.drop_append, sized, List.drop_of_length_le (by omega), List.nil_append]
        exact reads
      · rw [if_neg skip]
        simp only
        generalize size : min (min (min (pageSize - (sg.offset + offset) % pageSize) (sg.length - offset)) maxLen)
          dataFrameSize = chunk
        have small : (sg.offset + offset) % pageSize < pageSize := Nat.mod_lt _ (by decide)
        have framed : 0 < dataFrameSize := by decide
        rw [if_neg (by omega)]
        have place : ∀ i, (sg.pfn + (sg.offset + offset) / pageSize) * pageSize + (sg.offset + offset) % pageSize + i =
            sg.pfn * pageSize + sg.offset + (offset + i) := by
          intro i
          have split := Nat.div_add_mod (sg.offset + offset) pageSize
          rw [Nat.mul_comm] at split
          rw [Nat.add_mul]
          omega
        refine ⟨_, rfl, by show 0 < chunk; omega, by show chunk ≤ maxLen; omega,
          by show chunk ≤ dataFrameSize; omega,
          by show (sg.offset + offset) % pageSize + chunk ≤ pageSize; omega, ?_⟩
        show (List.range chunk).map (fun i => phys ((sg.pfn + (sg.offset + offset) / pageSize) * pageSize +
          (sg.offset + offset) % pageSize + i)) = List.take chunk _
        rw [List.drop_append_of_le_length (by omega),
          List.take_append_of_le_length (by rw [List.length_drop, sized]; omega), SgEntry.content,
          range_map_slice _ (by omega)]
        simp only [place]

theorem Umem.pageFromAddr_reads {umem : Umem} (pins : umem.Pins) {seg : Segment} (inRegion : seg.InRegion)
    {segOff maxLen : Nat} (nonzero : 0 < maxLen) (inside : segOff + maxLen ≤ seg.length) :
    ∃ span, umem.pageFromAddr seg.mr ((seg.addr + segOff) % 2 ^ 64) maxLen = .ok span ∧
      span.Reads umem.phys (((seg.content umem.memory).drop segOff)) maxLen := by
  have covered := inRegion.covered
  simp only [Mr.covers, Bool.and_eq_true, decide_eq_true_eq] at covered
  obtain ⟨⟨below, low⟩, high⟩ := covered
  have small : seg.mr.start % pageSize < pageSize := Nat.mod_lt _ (by decide)
  have page : pageSize = 4096 := rfl
  have address : (seg.addr + segOff) % 2 ^ 64 = seg.addr + segOff := Nat.mod_eq_of_lt (by omega)
  have start : seg.mr.start % pageSize ≤ seg.mr.start := Nat.mod_le _ _
  have pinned := pins seg.mr inRegion.mapped
  have place : (seg.mr.start % pageSize + (seg.addr + segOff) + 2 ^ 64 - seg.mr.start) % 2 ^ 64 =
      seg.mr.start % pageSize + (seg.addr - seg.mr.start + segOff) := by
    generalize seg.mr.start % pageSize = first at start small ⊢
    omega
  obtain ⟨span, found, reads⟩ := pageFromSg_reads umem.phys nonzero
    (show seg.mr.start % pageSize + (seg.addr - seg.mr.start + segOff) + maxLen ≤ sgBytes (umem.sgl seg.mr) by omega)
  refine ⟨span, ?_, { reads with bytes := ?_ }⟩
  · rw [Umem.pageFromAddr, address, if_neg (by omega), inRegion.mapped, if_neg Bool.false_ne_true, if_neg (by omega),
      if_neg (by omega), if_neg (by omega), place]
    exact found
  · rw [reads.bytes]
    have short := reads.short
    apply List.ext_getElem
    · simp [length_sgContent, Segment.content]
      omega
    · intro i bound _
      have inRange : seg.mr.start % pageSize + (seg.addr - seg.mr.start + (segOff + i)) <
          (sgContent umem.phys (umem.sgl seg.mr)).length := by
        rw [List.length_take, List.length_drop] at bound
        omega
      simp only [List.getElem_take, List.getElem_drop, Segment.content, List.getElem_map, List.getElem_range,
        Umem.memory]
      rw [List.getD_eq_getElem _ _ inRange]
      simp only [Nat.add_assoc]

theorem length_content (memory : Mr → Nat → UInt8) (seg : Segment) : (seg.content memory).length = seg.length := by
  simp [Segment.content]

/-- A chunk of the message from `offset` on: not empty, in one page, and with the bytes of its place. -/
theorem pageAt_reads {umem : Umem} (pins : umem.Pins) {segs : List Segment} (inRegion : ∀ seg ∈ segs, seg.InRegion)
    {totalLen offset skipped : Nat} (maxChunk : Option Nat) (positive : ∀ most ∈ maxChunk, 0 < most)
    (wide : totalLen < 2 ^ 32) (unfinished : offset < totalLen) (behind : skipped ≤ offset)
    (inside : offset < skipped + segmentBytes segs) (bounded : skipped + segmentBytes segs < 2 ^ 32) :
    ∃ span, pageAt umem totalLen maxChunk offset skipped segs = .ok span ∧
      span.Reads umem.phys ((segmentContent umem.memory segs).drop (offset - skipped)) (totalLen - offset) := by
  induction segs generalizing skipped with
  | nil =>
      simp [segmentBytes] at inside
      omega
  | cons seg rest ih =>
      have bytes : segmentBytes (seg :: rest) = seg.length + segmentBytes rest := tally_cons ..
      have next : (skipped + seg.length) % 2 ^ 32 = skipped + seg.length := Nat.mod_eq_of_lt (by omega)
      rw [pageAt, segmentContent, List.flatMap_cons]
      simp only [next]
      by_cases skip : skipped + seg.length ≤ offset
      · rw [if_pos skip]
        obtain ⟨span, found, reads⟩ := ih (fun other member => inRegion other (List.mem_cons_of_mem _ member)) skip
          (by omega) (by omega)
        refine ⟨span, found, ?_⟩
        rw [List.drop_append, length_content, List.drop_of_length_le (by rw [length_content]; omega), List.nil_append]
        rwa [show offset - skipped - seg.length = offset - (skipped + seg.length) by omega]
      · rw [if_neg skip]
        have start : (if skipped < offset then offset - skipped else 0) = offset - skipped := by
          split <;> omega
        have room : (seg.length + 2 ^ 32 - (offset - skipped)) % 2 ^ 32 = seg.length - (offset - skipped) := by omega
        have left : (totalLen + 2 ^ 32 - offset) % 2 ^ 32 = totalLen - offset := by omega
        simp only [start, room, left]
        generalize size : (match maxChunk with
          | some maxChunk => min (min (seg.length - (offset - skipped)) (totalLen - offset)) maxChunk
          | none => min (seg.length - (offset - skipped)) (totalLen - offset)) = remaining
        have bounds : 0 < remaining ∧ remaining ≤ seg.length - (offset - skipped) ∧ remaining ≤ totalLen - offset := by
          cases maxChunk with
          | none =>
              simp only at size
              omega
          | some most =>
              have some := positive most rfl
              simp only at size
              omega
        obtain ⟨span, found, reads⟩ := Umem.pageFromAddr_reads pins (inRegion seg List.mem_cons_self) bounds.1
          (show offset - skipped + remaining ≤ seg.length by omega)
        have short := reads.short
        refine ⟨span, found, { reads with short := by omega, bytes := ?_ }⟩
        rw [reads.bytes, List.drop_append_of_le_length (by rw [length_content]; omega),
          List.take_append_of_le_length (by rw [List.length_drop, length_content]; omega)]

end Page

/-! ## All pages -/

def chunkBytes (phys : Nat → UInt8) (chunk : PageChunk) : List UInt8 :=
  (List.range chunk.len).map fun i => phys (chunk.page.getD 0 * pageSize + chunk.pageOff + i)

namespace SendPageStream

/-- The stream goes over the segments of a message and no chunk is longer than a frame. -/
structure Ready (s : SendPageStream) : Prop where
  inRegion : ∀ seg ∈ s.segs, seg.InRegion
  total : segmentBytes s.segs = s.totalLen
  short : s.totalLen ≤ dataMaxMsgSize
  chunk : 0 < s.maxChunk ∧ s.maxChunk ≤ dataFrameSize
  within : s.offset ≤ s.totalLen

variable {umem : Umem} {s : SendPageStream}

def advance (s : SendPageStream) (bytes pages : Nat) : SendPageStream :=
  { s with
    offset := s.offset + bytes
    refs := s.refs + pages
    txPending := s.txPending + pages
    sendRefs := s.sendRefs + pages }

theorem Ready.advance (ready : s.Ready) {bytes : Nat} (pages : Nat) (fits : s.offset + bytes ≤ s.totalLen) :
    (s.advance bytes pages).Ready := { ready with within := fits }

theorem Ready.page (ready : s.Ready) (pins : umem.Pins) (unfinished : s.offset < s.totalLen) (maxChunk : Option Nat)
    (positive : ∀ most ∈ maxChunk, 0 < most) :
    ∃ span, pageAt umem s.totalLen maxChunk s.offset 0 s.segs = .ok span ∧
      span.Reads umem.phys ((segmentContent umem.memory s.segs).drop s.offset) (s.totalLen - s.offset) := by
  have total := ready.total
  have small : s.totalLen < 2 ^ 32 := ready.short.trans_lt (by decide)
  exact pageAt_reads pins ready.inRegion maxChunk positive small unfinished (Nat.zero_le _) (by omega) (by omega)

theorem Ready.next (ready : s.Ready) (pins : umem.Pins) (done : Nat) (unfinished : s.offset < s.totalLen) :
    ∃ span, sendPageStreamNext umem done s =
        (.ok { page := some span.page, pageOff := span.pageOff, len := span.len, done := some done }, s.advance span.len 1) ∧
      pageAt umem s.totalLen (some s.maxChunk) s.offset 0 s.segs = .ok span ∧
      span.Reads umem.phys ((segmentContent umem.memory s.segs).drop s.offset) (s.totalLen - s.offset) := by
  obtain ⟨span, found, reads⟩ := ready.page pins unfinished (some s.maxChunk) (by simpa using ready.chunk.1)
  have short := reads.short
  have small : s.totalLen < 2 ^ 32 := ready.short.trans_lt (by decide)
  have sum : (s.offset + span.len) % 2 ^ 32 = s.offset + span.len := Nat.mod_eq_of_lt (by omega)
  refine ⟨span, ?_, found, reads⟩
  simp only [sendPageStreamNext, found, sum, SendPageStream.advance]

theorem pageAt_beyond {totalLen offset skipped : Nat} {maxChunk : Option Nat} {segs : List Segment}
    (beyond : skipped + segmentBytes segs ≤ offset) (bounded : skipped + segmentBytes segs < 2 ^ 32) :
    pageAt umem totalLen maxChunk offset skipped segs = .error .eFault := by
  induction segs generalizing skipped with
  | nil => rfl
  | cons seg rest ih =>
      have bytes : segmentBytes (seg :: rest) = seg.length + segmentBytes rest := tally_cons ..
      have next : (skipped + seg.length) % 2 ^ 32 = skipped + seg.length := Nat.mod_eq_of_lt (by omega)
      rw [pageAt, next]
      simp only
      rw [if_pos (by omega)]
      exact ih (by omega) (by omega)

/-- What was given out are the next bytes of the message, and the counts went up once for each page. -/
theorem Ready.obtained (ready : s.Ready) (pins : umem.Pins) {done : Nat} {chunks : List PageChunk} {s' : SendPageStream}
    (obtained : Obtains (sendPageStreamNext umem done) s chunks s') :
    s' = s.advance (chunks.map PageChunk.len).sum chunks.length ∧
      chunks.flatMap (chunkBytes umem.phys) =
        ((segmentContent umem.memory s.segs).drop s.offset).take (chunks.map PageChunk.len).sum := by
  have same : ∀ s : SendPageStream, s.advance 0 0 = s := fun _ => rfl
  induction obtained with
  | done s => exact ⟨rfl, by simp⟩
  | @failed s s' error call =>
      have stays : s' = s := by
        unfold sendPageStreamNext at call
        split at call
        · exact (Prod.mk.inj call).2.symm
        · cases call
      exact ⟨stays, by simp⟩
  | @cons s next last chunk chunks call rest ih =>
      have unfinished : s.offset < s.totalLen := by
        by_contra! finished
        have total := ready.total
        have small : s.totalLen < 2 ^ 32 := ready.short.trans_lt (by decide)
        rw [sendPageStreamNext, pageAt_beyond (by omega) (by omega)] at call
        cases call
      obtain ⟨span, given, -, reads⟩ := ready.next pins done unfinished
      rw [given] at call
      obtain ⟨rfl, rfl⟩ := (Prod.mk.inj call).imp_left Except.ok.inj
      have short := reads.short
      obtain ⟨moved, bytes⟩ := ih (ready.advance 1 (by omega))
      refine ⟨?_, ?_⟩
      · rw [moved]
        simp only [SendPageStream.advance, List.map_cons, List.sum_cons, List.length_cons, Nat.add_assoc,
          Nat.add_comm 1]
      · rw [List.flatMap_cons, bytes, List.map_cons, List.sum_cons, List.take_add, List.drop_drop]
        exact congrArg (· ++ _) reads.bytes

theorem Ready.gives (ready : s.Ready) (pins : umem.Pins) (done : Nat) (unfinished : s.offset < s.totalLen) :
    ∃ chunk s', sendPageStreamNext umem done s = (.ok chunk, s') ∧
      chunk.valid dataFrameSize (s.totalLen - s.offset) = true ∧ s' = s.advance chunk.len 1 ∧ s'.Ready := by
  obtain ⟨span, given, -, reads⟩ := ready.next pins done unfinished
  have short := reads.short
  have inPage := reads.inPage
  have page : kernelPageSize = pageSize := rfl
  refine ⟨_, _, given, ?_, rfl, ready.advance 1 (by omega)⟩
  have positive := reads.positive
  have framed := reads.framed
  simp only [PageChunk.valid, Option.isSome_some, Bool.true_and, Bool.and_eq_true, decide_eq_true_eq, ne_eq]
  omega

/-! ## Pages that may be sent in place -/

theorem pageFromSg_min (maxLen offset : Nat) (sgl : List SgEntry) :
    pageFromSg (min maxLen dataFrameSize) offset sgl = pageFromSg maxLen offset sgl := by
  induction sgl generalizing offset with
  | nil => rfl
  | cons sg rest ih =>
      simp only [pageFromSg, ih, ← Nat.min_assoc, Nat.min_self, Nat.min_assoc _ dataFrameSize dataFrameSize]

theorem pageFromAddr_min {mr : Mr} {addr maxLen : Nat} {span : PageSpan}
    (found : umem.pageFromAddr mr addr maxLen = .ok span) :
    umem.pageFromAddr mr addr (min maxLen dataFrameSize) = .ok span := by
  have framed : 0 < dataFrameSize := by decide
  unfold Umem.pageFromAddr at found ⊢
  split at found
  · cases found
  split at found
  · cases found
  rename_i mapped
  split at found
  · cases found
  split at found
  · cases found
  split at found
  · cases found
  rw [if_neg (by omega), if_neg mapped, if_neg (by omega), if_neg (by omega), if_neg (by omega), pageFromSg_min]
  exact found

/-- The bound on a chunk is that of a frame, which the walk over the pages keeps anyway. -/
theorem pageAt_bounded {totalLen offset skipped : Nat} {segs : List Segment} {span : PageSpan}
    (found : pageAt umem totalLen none offset skipped segs = .ok span) :
    pageAt umem totalLen (some dataFrameSize) offset skipped segs = .ok span := by
  induction segs generalizing skipped with
  | nil => cases found
  | cons seg rest ih =>
      rw [pageAt] at found ⊢
      simp only at found ⊢
      split at found
      · rename_i skip
        rw [if_pos skip]
        exact ih found
      · rename_i skip
        rw [if_neg skip]
        exact pageFromAddr_min found

theorem Ready.zcopySafe (ready : s.Ready) (pins : umem.Pins) (frame : s.maxChunk = dataFrameSize) {done : Nat}
    {chunks : List PageChunk} {s' : SendPageStream} (obtained : Obtains (sendPageStreamNext umem done) s chunks s')
    (safe : segmentsZcopySafe umem s.segs s.totalLen s.offset = true) :
    ∀ chunk ∈ chunks, ∃ page, chunk.page = some page ∧ umem.zoneDevice page = false := by
  induction obtained with
  | done s => simp
  | failed call => simp
  | @cons s next last chunk chunks call rest ih =>
      have unfinished : s.offset < s.totalLen := by
        by_contra! finished
        have total := ready.total
        have small : s.totalLen < 2 ^ 32 := ready.short.trans_lt (by decide)
        rw [sendPageStreamNext, pageAt_beyond (by omega) (by omega)] at call
        cases call
      obtain ⟨span, given, found, reads⟩ := ready.next pins done unfinished
      rw [given] at call
      obtain ⟨rfl, rfl⟩ := (Prod.mk.inj call).imp_left Except.ok.inj
      have short := reads.short
      obtain ⟨same, walked, -⟩ := ready.page pins unfinished none (by simp)
      have equal : same = span := by
        rw [frame, pageAt_bounded walked] at found
        exact Except.ok.inj found
      rw [segmentsZcopySafe, if_pos unfinished, walked, equal] at safe
      simp only [reads.positive.ne', if_false] at safe
      split at safe
      · cases safe
      rename_i ram
      intro other member
      rcases List.mem_cons.mp member with rfl | member
      · exact ⟨span.page, rfl, by simpa using ram⟩
      · exact ih (ready.advance 1 (by omega)) frame safe other member

end SendPageStream

/-! ## The message -/

theorem prepareSges_short {device : Device} {segs : List Segment} {sges : List Sge} {start total : Nat}
    (short : start ≤ dataMaxMsgSize) (prepared : device.prepareSges start sges = .ok (segs, total)) :
    total ≤ dataMaxMsgSize := by
  induction sges generalizing start segs with
  | nil =>
      obtain ⟨-, rfl⟩ := Prod.mk.inj (Except.ok.inj prepared)
      exact short
  | cons sge rest ih =>
      rw [Device.prepareSges] at prepared
      split at prepared
      · exact ih short prepared
      split at prepared
      · cases prepared
      rename_i fits
      split at prepared
      · cases prepared
      split at prepared
      · cases prepared
      split at prepared
      · cases prepared
      split at prepared
      · cases prepared
      split at prepared
      · cases prepared
      rename_i others sum later
      obtain ⟨-, rfl⟩ := Prod.mk.inj (Except.ok.inj prepared)
      exact ih (by omega) later

theorem ready_of_prepared {device : Device} {wr : SendWr} {segs : List Segment} {total : Nat}
    (prepared : device.prepareSendSegments wr = .ok (segs, total)) (refs txPending sendRefs : Nat) :
    ({ segs, offset := 0, totalLen := total, maxChunk := dataFrameSize, refs, txPending, sendRefs } :
      SendPageStream).Ready := by
  rw [Device.prepareSendSegments] at prepared
  split at prepared
  · cases prepared
  split at prepared
  · cases prepared
  obtain ⟨inRegion, bytes⟩ := prepareSges_inRegion prepared
  have framed : 0 < dataFrameSize := by decide
  exact ⟨inRegion, by simpa using bytes, prepareSges_short (Nat.zero_le _) prepared, ⟨framed, le_refl _⟩,
    Nat.zero_le _⟩

/-- The pages of a WRITE carry its message: one behind the other they have the bytes that the copied frames would
be filled with. Only the queue can refuse the stream, each page has its reference, and if
`tbv_send_segments_zcopy_safe` agreed none of the pages is device memory. -/
theorem page_stream_carries_message {umem : Umem} (pins : umem.Pins) {device : Device} {wr : SendWr}
    {segs : List Segment} {total : Nat} (prepared : device.prepareSendSegments wr = .ok (segs, total))
    (nonempty : total ≠ 0) {answers : StreamAnswers} (grants : answers.Grants) {header : DataHeader}
    (writes : header.opcode = .rdmaWrite ∨ header.opcode = .rdmaWriteImm) (p : Path)
    (read : PageChunk → Option DataHeader) (metaDone : Option Nat) (done refs txPending sendRefs : Nat) :
    let s : SendPageStream :=
      { segs, offset := 0, totalLen := total, maxChunk := dataFrameSize, refs, txPending, sendRefs }
    let sent := p.sendPageStream (sendPageStreamNext umem done) read answers header total 0 metaDone s
    ∃ chunks, chunks.flatMap (chunkBytes umem.phys) = segmentContent umem.memory segs ∧
      sent.result = (p.enqueueDataList (startPacket (streamHeader header total) metaDone ::
        pagePackets read metaDone total 0 chunks) (chunks.length + 1)).mapError .errno ∧
      sent.caller = s.advance total chunks.length ∧
      (segmentsZcopySafe umem segs total 0 = true →
        ∀ chunk ∈ chunks, ∃ page, chunk.page = some page ∧ umem.zoneDevice page = false) ∧
      ∀ copyFrom, ReadsUmem copyFrom umem.memory → ∀ dst,
        copySendRange copyFrom segs 0 dst total = (writeAt dst 0 (chunks.flatMap (chunkBytes umem.phys)), none) := by
  intro s sent
  have ready : s.Ready := ready_of_prepared prepared refs txPending sendRefs
  have bytes : segmentBytes segs = total := ready.total
  have sized : (segmentContent umem.memory segs).length = total := by
    rw [← bytes]
    exact length_flatMap_content (length_content umem.memory) segs
  have raw : maxRawPayload header.opcode = dataFrameSize := if_pos writes
  obtain ⟨chunks, obtained, sum, result⟩ := sendPageStream_granted (sendPageStreamNext umem done) read p grants header
    nonempty ready.short metaDone s
    (fun prepared stream => stream.Ready ∧ stream.offset = prepared ∧ stream.totalLen = total)
    (by
      rintro prepared stream unfinished ⟨ready, offset, whole⟩
      rw [← offset, ← whole] at unfinished
      obtain ⟨chunk, next, given, valid, moved, ready'⟩ := ready.gives pins done unfinished
      rw [offset, whole] at valid
      refine ⟨chunk, next, given, raw ▸ valid, ready', ?_, ?_⟩
      · rw [moved, ← offset]
        rfl
      · rw [moved, ← whole]
        rfl)
    ⟨ready, rfl, rfl⟩
  obtain ⟨moved, content⟩ := ready.obtained pins obtained
  have whole : chunks.flatMap (chunkBytes umem.phys) = segmentContent umem.memory segs := by
    rw [content, sum]
    show ((segmentContent umem.memory segs).drop 0).take total = _
    rw [List.drop_zero, ← sized, List.take_length]
  refine ⟨chunks, whole, result, by rw [← sum]; exact moved, ready.zcopySafe pins rfl obtained, ?_⟩
  intro copyFrom reads dst
  have small : total < 2 ^ 32 := ready.short.trans_lt (by decide)
  have inside : 0 + total ≤ segmentBytes segs := by rw [bytes, Nat.zero_add]
  obtain ⟨dst', gathered, slice⟩ := copySendRange_spec ready.inRegion (bytes ▸ small) reads 0 dst nonempty small
  rw [gathered, if_pos inside, slice inside, List.drop_zero, whole, ← sized, List.take_length]

/-- Every region lies at its own address; the fourth page is device memory. -/
def flatUmem : Umem where
  sgl mr := [{ pfn := mr.start / pageSize, offset := 0, length := mr.start % pageSize + mr.length }]
  phys place := UInt8.ofNat place
  zoneDevice page := page = 4

/-- Six bytes on both sides of the end of a page. -/
def acrossPages : SendWr := { wrId := 7, opcode := .rdmaWrite, sgList := [{ addr := 8189, length := 6, lkey := 1 }] }

def oneRegion : Device :=
  { mrs := fun _ => some { start := 4100, length := 8192 }, nativeFragmentStriping := false }

def acrossStream : SendPageStream where
  segs := [{ mr := { start := 4100, length := 8192 }, addr := 8189, length := 6 }]
  offset := 0
  totalLen := 6
  maxChunk := dataFrameSize
  refs := 1
  txPending := 1
  sendRefs := 2

theorem page_stream_carries_message_across :
    ∃ chunks : List PageChunk, chunks.flatMap (chunkBytes flatUmem.phys) = [253, 254, 255, 0, 1, 2] ∧
      ((Path.started (nativePaths .left)).sendPageStream (sendPageStreamNext flatUmem 8) (fun _ => none)
        ⟨true, true, true, true, fun _ => true, fun _ => true⟩ { opcode := .rdmaWrite } 6 0 (some 7)
        acrossStream).caller.txPending = 1 + chunks.length := by
  have pins : flatUmem.Pins := fun mr _ => Nat.le_refl _
  have prepared : oneRegion.prepareSendSegments acrossPages = .ok (acrossStream.segs, 6) := by decide
  have grants : StreamAnswers.Grants ⟨true, true, true, true, fun _ => true, fun _ => true⟩ :=
    ⟨rfl, rfl, rfl, rfl, fun _ => rfl, fun _ => rfl⟩
  have writes : ({ opcode := .rdmaWrite } : DataHeader).opcode = .rdmaWrite ∨
      ({ opcode := .rdmaWrite } : DataHeader).opcode = .rdmaWriteImm := .inl rfl
  obtain ⟨chunks, bytes, -, caller, -⟩ := page_stream_carries_message pins prepared (by decide) grants writes
    (Path.started (nativePaths .left)) (fun _ => none) (some 7) 8 1 1 2
  refine ⟨chunks, ?_, ?_⟩
  · rw [bytes]
    decide +kernel
  · exact congrArg SendPageStream.txPending caller

end ThunderboltVerbs.Verbs
