import Mathlib.Data.List.Induction
import ThunderboltVerbs.DataPath.FramingRuns
import ThunderboltVerbs.DataPath.PageStream
import ThunderboltVerbs.Receive.RawStream

/-!
# What a receiver makes of the wire (`kernel/path.c`)

The frames that `tb_ring_tx` took arrive in their order. The receiver keeps nothing of a frame but how far it is
in a raw stream, so what it hands up depends on the units that the sender queued.
-/

namespace ThunderboltVerbs.DataPath
open Proto Lib

/-! ## Units on the wire -/

instance (stream : DataHeader) : Decidable (RawHeader stream) :=
  decidable_of_iff (stream.isRawStream = true ∧ stream.length ≠ 0 ∧
      stream.flags &&& ~~~(flagLast ||| flagSolicited ||| flagRawStream) = 0 ∧ stream.length ≤ dataMaxMsgSize)
    ⟨fun ⟨raw, nonempty, flags, short⟩ => ⟨raw, nonempty, flags, short⟩,
      fun ⟨raw, nonempty, flags, short⟩ => ⟨raw, nonempty, flags, short⟩⟩

def WireFrame.isPage (frame : WireFrame) : Bool := 0 < frame.len && frame.len ≤ dataFrameSize

/-- A plain frame, or the header of a raw stream with the pages that make up its length. -/
def isWireUnit : List WireFrame → Bool
  | [] => false
  | start :: pages =>
      if start.header.any DataHeader.isRawStream then
        start.len = dataHdrSize && pages.all WireFrame.isPage && start.header.all fun stream =>
          RawHeader stream && stream.opcode ≠ .pathCredit && (pages.map WireFrame.len).sum = stream.length
      else start.len ≤ dataFrameSize && pages.isEmpty

/-- What the verbs layer is given of a unit. -/
def unitHeaders : List WireFrame → List DataHeader
  | [] => []
  | start :: pages =>
      match start.header with
      | none => []
      | some header =>
          if header.opcode = .pathCredit then []
          else if header.isRawStream then payloadPieces header 0 (pages.map WireFrame.len)
          else [header]

def Enqueue.onWire (what : Enqueue) : Bool :=
  (what.units.all fun unit => isWireUnit (framesOf unit)) && what.controlFrames.all fun frame => isWireUnit [frame]

theorem isWireUnit_ne_nil {unit : List WireFrame} (wire : isWireUnit unit = true) : unit ≠ [] := by
  rintro rfl
  cases wire

theorem isWireUnit_cases {start : WireFrame} {pages : List WireFrame} (wire : isWireUnit (start :: pages) = true) :
    (start.header.any DataHeader.isRawStream = false ∧ start.len ≤ dataFrameSize ∧ pages = []) ∨
      ∃ stream, start.header = some stream ∧ start.len = dataHdrSize ∧ RawHeader stream ∧
        stream.opcode ≠ .pathCredit ∧ (∀ page ∈ pages, 0 < page.len ∧ page.len ≤ dataFrameSize) ∧
        (pages.map WireFrame.len).sum = stream.length := by
  rw [isWireUnit] at wire
  split at wire
  · rename_i raw
    obtain ⟨stream, parsed, -⟩ := (Option.any_eq_true _ _).mp raw
    simp only [parsed, Option.all_some, Bool.and_eq_true, decide_eq_true_eq, List.all_eq_true, WireFrame.isPage] at wire
    obtain ⟨⟨framed, pages⟩, ⟨header, data⟩, total⟩ := wire
    exact .inr ⟨stream, parsed, framed, header, data, pages, total⟩
  · rename_i plain
    simp only [Bool.and_eq_true, decide_eq_true_eq, List.isEmpty_iff] at wire
    exact .inl ⟨by simpa using plain, wire.1, wire.2⟩

theorem unitHeaders_stream {start : WireFrame} {pages : List WireFrame} {stream : DataHeader}
    (parsed : start.header = some stream) (raw : RawHeader stream) (data : stream.opcode ≠ .pathCredit) :
    unitHeaders (start :: pages) = payloadPieces stream 0 (pages.map WireFrame.len) := by
  simp only [unitHeaders, parsed]
  rw [if_neg data, if_pos raw.raw]

theorem unitHeaders_split {start : WireFrame} {pages : List WireFrame} {stream : DataHeader}
    (wire : isWireUnit (start :: pages) = true) (parsed : start.header = some stream)
    (raw : stream.isRawStream = true) :
    SplitsStream stream (pages.map WireFrame.len) (unitHeaders (start :: pages)) := by
  rcases isWireUnit_cases wire with ⟨plain, -⟩ | ⟨same, found, -, header, data, sized, total⟩
  · simp [parsed, raw] at plain
  · obtain rfl : same = stream := Option.some.inj (found.symm.trans parsed)
    rw [unitHeaders_stream parsed header data]
    apply payloadPieces_split _ total
    intro len member
    obtain ⟨page, inside, rfl⟩ := List.mem_map.mp member
    exact (sized page inside).1

section PageStreams

variable {read : PageChunk → Option DataHeader} {p p' : Path} {header : DataHeader} {total : Nat}
  {metaDone : Option Nat} {chunks : List PageChunk}

theorem pagePackets_frames (read : PageChunk → Option DataHeader) (chunks : List PageChunk) (metaDone : Option Nat) (total prepared : Nat) :
    (framesOf (pagePackets read metaDone total prepared chunks)).map WireFrame.len = chunks.map PageChunk.len := by
  induction chunks generalizing prepared with
  | nil => rfl
  | cons chunk chunks ih => exact congrArg (chunk.len :: ·) (ih (prepared + chunk.len))

theorem or_and_eq_zero {flags set mask : UInt8} (clear : flags &&& mask = 0) (none : set &&& mask = 0) :
    (flags ||| set) &&& mask = 0 := by
  apply UInt8.toBitVec_inj.mp
  ext i bound
  have first := congrArg (fun flags : UInt8 => flags.toBitVec.getLsbD i) clear
  have second := congrArg (fun flags : UInt8 => flags.toBitVec.getLsbD i) none
  simp at first second ⊢
  grind

theorem rawHeader_streamHeader (flags : header.flags &&& ~~~(flagLast ||| flagSolicited ||| flagRawStream) = 0)
    (positive : 0 < total) (short : total ≤ dataMaxMsgSize) : RawHeader (streamHeader header total) where
  raw := isRawStream_streamHeader header total
  nonempty := positive.ne'
  flags := or_and_eq_zero flags rfl
  short := short

/-- What `tbv_path_send_page_stream` queues is a unit on the wire. -/
theorem StreamQueued.onWire (queued : StreamQueued read p p' header total metaDone chunks)
    (flags : header.flags &&& ~~~(flagLast ||| flagSolicited ||| flagRawStream) = 0)
    (data : header.opcode ≠ .pathCredit) :
    (Enqueue.list (startPacket (streamHeader header total) metaDone ::
      pagePackets read metaDone total 0 chunks)).onWire = true := by
  have raw := rawHeader_streamHeader flags queued.bounded.1 queued.bounded.2
  have lens := pagePackets_frames read chunks metaDone total 0
  have pages : ∀ page ∈ framesOf (pagePackets read metaDone total 0 chunks), page.isPage = true := by
    intro page member
    have inside : page.len ∈ chunks.map PageChunk.len := lens ▸ List.mem_map_of_mem member
    obtain ⟨chunk, given, same⟩ := List.mem_map.mp inside
    have fits := queued.fits chunk given
    have framed : maxRawPayload header.opcode ≤ dataFrameSize := by
      unfold maxRawPayload
      split <;> decide
    have positive := fits.positive
    have short := fits.short
    simp only [WireFrame.isPage, Bool.and_eq_true, decide_eq_true_eq]
    omega
  simp only [Enqueue.onWire, Enqueue.units, Enqueue.controlFrames, unitsOf, startPacket, List.any_cons, Bool.true_or,
    if_true, List.all_cons, List.all_nil, Bool.and_true]
  show isWireUnit (_ :: framesOf (pagePackets read metaDone total 0 chunks)) = true
  rw [isWireUnit, Option.any_some, isRawStream_streamHeader, if_pos rfl, List.all_eq_true.mpr pages, lens, queued.whole]
  have other : (streamHeader header total).opcode ≠ .pathCredit := data
  simp [raw, other, show (streamHeader header total).length = total from rfl]

end PageStreams

/-! ## The receiver -/

section Receiver

variable {p : Path}

/-- `tbv_path_rx_complete` on one frame after another. -/
def Path.rxFrames (p : Path) : List WireFrame → Path × List DataHeader
  | [] => (p, [])
  | frame :: frames =>
      let result := p.rxComplete frame
      let rest := result.1.rxFrames frames
      (rest.1, result.2.delivered.toList ++ rest.2)

theorem Path.rxFrames_append (p : Path) (first second : List WireFrame) :
    p.rxFrames (first ++ second) =
      (((p.rxFrames first).1.rxFrames second).1, (p.rxFrames first).2 ++ ((p.rxFrames first).1.rxFrames second).2) := by
  induction first generalizing p with
  | nil => rfl
  | cons frame first ih => simp [Path.rxFrames, ih]

/-- The receiver looks at nothing of its path but `rx_raw`. -/
theorem Path.rxComplete_congr {p q : Path} (same : p.rxRaw = q.rxRaw) (frame : WireFrame) :
    (p.rxComplete frame).1.rxRaw = (q.rxComplete frame).1.rxRaw ∧ (p.rxComplete frame).2 = (q.rxComplete frame).2 := by
  have payload : (p.rxRawPayload frame.len).1.rxRaw = (q.rxRawPayload frame.len).1.rxRaw ∧
      (p.rxRawPayload frame.len).2 = (q.rxRawPayload frame.len).2 := by
    unfold Path.rxRawPayload Path.rxDropRaw
    simp only [same]
    split
    · exact ⟨rfl, rfl⟩
    split
    · exact ⟨rfl, rfl⟩
    · exact ⟨rfl, rfl⟩
  unfold Path.rxComplete
  simp only [same]
  split
  · exact ⟨same, rfl⟩
  split
  · exact ⟨payload.1, by rw [payload.2]⟩
  split
  · exact ⟨same, rfl⟩
  split
  · exact ⟨same, rfl⟩
  split
  · split
    · exact ⟨same, rfl⟩
    · exact ⟨rfl, rfl⟩
  · exact ⟨same, rfl⟩

theorem rxFrames_pages {stream : DataHeader} (header : RawHeader stream) {done : Nat} (streams : p.Streams stream done)
    {pages : List WireFrame} (sized : ∀ page ∈ pages, 0 < page.len ∧ page.len ≤ dataFrameSize)
    (fits : done + (pages.map WireFrame.len).sum ≤ stream.length) :
    p.rxFrames pages = p.rxRawPayloads (pages.map WireFrame.len) := by
  induction pages generalizing p done with
  | nil => rfl
  | cons page pages ih =>
      rw [List.map_cons, List.sum_cons] at fits
      obtain ⟨positive, short⟩ := sized page List.mem_cons_self
      have pending : p.rxRaw.pending = true := by
        rw [streams.raw]
        exact decide_eq_true (by omega)
      have next := (streams.payload header positive.ne' (show done + _ ≤ _ by omega)).1
      have rest := ih next (fun other member => sized other (List.mem_cons_of_mem _ member)) (by omega)
      have step : p.rxComplete page =
          ((p.rxRawPayload page.len).1, { returnRxCredits := 1, delivered := (p.rxRawPayload page.len).2 }) := by
        unfold Path.rxComplete
        rw [if_neg (Nat.not_lt.mpr short), if_pos pending]
      simp only [Path.rxFrames, step, rest, List.map_cons, Path.rxRawPayloads]

theorem rxComplete_plain (idle : p.rxRaw.pending = false) {frame : WireFrame} (short : frame.len ≤ dataFrameSize)
    (plain : frame.header.any DataHeader.isRawStream = false) :
    (p.rxComplete frame).1.rxRaw.pending = false ∧ (p.rxComplete frame).2.delivered.toList = unitHeaders [frame] := by
  unfold Path.rxComplete unitHeaders
  rw [if_neg (Nat.not_lt.mpr short), idle, if_neg Bool.false_ne_true]
  cases parsed : frame.header with
  | none => simp [parsed, idle]
  | some header =>
      rw [parsed, Option.any_some] at plain
      by_cases credit : header.opcode = .pathCredit
      · simp [parsed, credit, idle]
      · simp [parsed, credit, plain, idle]

theorem rxComplete_start (idle : p.rxRaw.pending = false) {frame : WireFrame} {stream : DataHeader}
    (parsed : frame.header = some stream) (framed : frame.len = dataHdrSize) (raw : RawHeader stream)
    (data : stream.opcode ≠ .pathCredit) :
    p.rxComplete frame = (p.rxStartRaw stream, { returnRxCredits := 1 }) := by
  unfold Path.rxComplete
  rw [framed, if_neg (by decide), idle, if_neg Bool.false_ne_true, parsed]
  simp only
  rw [if_neg data, if_pos raw.raw, if_neg (by simp [raw.nonempty, raw.flags])]

/-- The receiver is idle after a whole unit and inside of a stream after a part of one; it hands up what belongs
to the frames that have come. -/
theorem rxFrames_unit (idle : p.rxRaw.pending = false) {sent rest : List WireFrame} (nonempty : sent ≠ [])
    (unit : isWireUnit (sent ++ rest) = true) :
    (p.rxFrames sent).2 = unitHeaders sent ∧ (p.rxFrames sent).1.rxRaw.pending = decide (rest ≠ []) := by
  cases sent with
  | nil => exact absurd rfl nonempty
  | cons start pages =>
      rcases isWireUnit_cases unit with ⟨plain, short, alone⟩ | ⟨stream, parsed, framed, raw, data, sized, total⟩
      · obtain ⟨rfl, rfl⟩ := List.append_eq_nil_iff.mp alone
        obtain ⟨still, handed⟩ := rxComplete_plain idle short plain
        simp only [Path.rxFrames, List.append_nil]
        exact ⟨handed, by simpa using still⟩
      · have opened := rxComplete_start idle parsed framed raw data
        have started : (p.rxStartRaw stream).Streams stream 0 := streams_start
        have come : ∀ page ∈ pages, 0 < page.len ∧ page.len ≤ dataFrameSize :=
          fun page member => sized page (List.mem_append_left _ member)
        change ((pages ++ rest).map WireFrame.len).sum = _ at total
        rw [List.map_append, List.sum_append] at total
        have walk := rxFrames_pages raw started come (by omega)
        obtain ⟨inside, handed⟩ := started.payloads raw
          (show ∀ len ∈ pages.map WireFrame.len, 0 < len by
            intro len member
            obtain ⟨page, inside, rfl⟩ := List.mem_map.mp member
            exact (come page inside).1)
          (by omega)
        have coming : (rest.map WireFrame.len).sum = 0 ↔ rest = [] := by
          cases rest with
          | nil => simp
          | cons page rest =>
              have positive := (sized page (List.mem_append_right _ List.mem_cons_self)).1
              simp only [List.map_cons, List.sum_cons, List.cons_ne_nil, iff_false]
              omega
        have open' : 0 + (pages.map WireFrame.len).sum ≠ stream.length ↔ rest ≠ [] := by
          rw [ne_eq, ne_eq, ← coming]
          omega
        simp only [Path.rxFrames, opened, walk, handed]
        refine ⟨?_, ?_⟩
        · rw [unitHeaders_stream parsed raw data]
          rfl
        · rw [inside.raw]
          exact decide_eq_decide.mpr open'

theorem rxFrames_woven (idle : p.rxRaw.pending = false) {first second : List (List WireFrame)} {out : List WireFrame}
    (woven : Woven first second out) (units : ∀ unit, unit ∈ first ∨ unit ∈ second → isWireUnit unit = true) :
    Woven (first.map unitHeaders) (second.map unitHeaders) (p.rxFrames out).2 ∧
      (p.rxFrames out).1.rxRaw.pending = false := by
  have whole : ∀ (q : Path) (unit : List WireFrame), q.rxRaw.pending = false → isWireUnit unit = true →
      (q.rxFrames unit).2 = unitHeaders unit ∧ (q.rxFrames unit).1.rxRaw.pending = false := by
    intro q unit idle wire
    have alone : isWireUnit (unit ++ []) = true := by rwa [List.append_nil]
    simpa using rxFrames_unit idle (isWireUnit_ne_nil wire) alone
  induction woven with
  | nil => exact ⟨.nil, idle⟩
  | left woven block ih =>
      obtain ⟨before, still⟩ := ih fun unit member => units unit (member.imp_left (List.mem_append_left _))
      obtain ⟨handed, after⟩ := whole _ block still (units block (.inl (by simp)))
      rw [Path.rxFrames_append, handed, List.map_append]
      exact ⟨before.left _, after⟩
  | right woven block ih =>
      obtain ⟨before, still⟩ := ih fun unit member => units unit (member.imp_right (List.mem_append_left _))
      obtain ⟨handed, after⟩ := whole _ block still (units block (.inr (by simp)))
      rw [Path.rxFrames_append, handed, List.map_append]
      exact ⟨before.right _, after⟩

end Receiver

/-! ## What has come so far -/

theorem TxWire.TakenWhole.dropLast {w : TxWire} {control : List WireFrame} {data : List (List WireFrame)}
    {opened rest ring : List WireFrame} {item : WireFrame} (taken : w.TakenWhole control data opened rest)
    (nonempty : ∀ unit ∈ w.data, unit ≠ []) (here : w.ring = ring ++ [item]) :
    ∃ control data opened rest, ({ w with ring } : TxWire).TakenWhole control data opened rest := by
  obtain ⟨whole, woven, shape⟩ := taken.ring
  rcases List.eq_nil_or_concat opened with rfl | ⟨before, last, rfl⟩
  · have units : ∀ block, block ∈ control.map (fun frame => [frame]) ∨ block ∈ data → block ≠ [] := by
      rintro block (member | member)
      · obtain ⟨frame, -, rfl⟩ := List.mem_map.mp member
        exact List.cons_ne_nil _ _
      · exact nonempty block (taken.data.subset (List.mem_append_left _ member))
    rw [here, List.append_nil] at shape
    obtain ⟨out, block, rfl, ⟨first, split, shorter⟩ | ⟨second, split, shorter⟩⟩ := woven.unsnoc units shape.symm
    · obtain ⟨earlier, later, rfl, rfl, single⟩ := List.map_eq_append_iff.mp split
      obtain ⟨frame, tail, rfl, alone, -⟩ := List.map_eq_cons_iff.mp single
      obtain ⟨rfl, -⟩ := List.append_eq_singleton_iff.mp alone.symm |>.resolve_right (by simp)
      refine ⟨earlier, data, [], [], ⟨out, shorter, by simp⟩, ?_, taken.data, by simp⟩
      exact (List.sublist_append_left _ _).trans taken.control
    · subst split
      refine ⟨control, second, block, [item], ⟨out, shorter, rfl⟩, taken.control, ?_, by simp⟩
      refine List.Sublist.trans ?_ taken.data
      split
      · simp
      · simp
  · rw [List.concat_eq_append, ← List.append_assoc, here] at shape
    obtain ⟨rfl, -⟩ := List.append_inj' shape rfl
    refine ⟨control, data, before, last :: rest, ⟨whole, woven, rfl⟩, taken.control, ?_, by simp⟩
    refine List.Sublist.trans ?_ taken.data
    split
    · simp
    · simp

theorem TxWire.TakenWhole.take {w : TxWire} {control : List WireFrame} {data : List (List WireFrame)}
    {opened rest ring later : List WireFrame} (taken : w.TakenWhole control data opened rest)
    (nonempty : ∀ unit ∈ w.data, unit ≠ []) (here : w.ring = ring ++ later) :
    ∃ control data opened rest, ({ w with ring } : TxWire).TakenWhole control data opened rest := by
  induction later using List.reverseRecOn generalizing w control data opened rest with
  | nil =>
      rw [List.append_nil] at here
      exact ⟨control, data, opened, rest, here ▸ taken⟩
  | append_singleton later item ih =>
      rw [← List.append_assoc] at here
      obtain ⟨control, data, opened, rest, taken⟩ := taken.dropLast nonempty here
      exact ih (w := { w with ring := ring ++ later }) taken nonempty rfl

/-! ## A sender and its receiver -/

/-- The wire of a sender, and how many of its frames have come to the path of the receiver. -/
structure StreamLink where
  wire : TxWire
  arrived : Nat := 0
  rx : Path
  delivered : List DataHeader := []

inductive StreamAction
  | send (action : TxAction)
  | arrive
  | other (rx : Path)

namespace StreamLink

/-- Only the completion of a received frame writes `rx_raw`. -/
def step (nativeTxMaxInflight : Nat) (s : StreamLink) : StreamAction → Option StreamLink
  | .send action => (s.wire.step nativeTxMaxInflight action).map fun wire => { s with wire }
  | .arrive =>
      s.wire.ring[s.arrived]?.map fun frame =>
        { s with
          arrived := s.arrived + 1
          rx := (s.rx.rxComplete frame).1
          delivered := s.delivered ++ (s.rx.rxComplete frame).2.delivered.toList }
  | .other rx => if rx.rxRaw = s.rx.rxRaw then some { s with rx } else none

/-- What is queued is well formed, and a raw stream is not broken. -/
def sound (s : StreamLink) : StreamAction → Bool
  | .send (.enqueue what) => s.wire.unbroken (.enqueue what) && what.onWire
  | .send action => s.wire.unbroken action
  | _ => true

end StreamLink

def streamLinkSystem (cfg peer : PathConfig) (nativeTxMaxInflight : Nat) : System StreamLink StreamAction where
  init s := s = { wire := { threads := .started cfg }, rx := .started peer }
  step := StreamLink.step nativeTxMaxInflight

namespace StreamLink

/-- The frames that have come were handed up unit by unit. `opened` is what has come of a stream whose other frames
are `rest`. -/
structure Delivers (s : StreamLink) (control : List WireFrame) (data : List (List WireFrame))
    (opened rest : List WireFrame) : Prop where
  delivered : ∃ whole, Woven (control.map fun frame => unitHeaders [frame]) (data.map unitHeaders) whole ∧
    s.delivered = whole ++ unitHeaders opened
  pieces : ∀ start pages stream, start :: pages ∈ data → start.header = some stream → stream.isRawStream = true →
    SplitsStream stream (pages.map WireFrame.len) (unitHeaders (start :: pages))
  control : control.Sublist s.wire.control
  data : (data ++ if opened = [] then [] else [opened ++ rest]).Sublist s.wire.data
  pending : s.rx.rxRaw.pending = true ↔ opened ≠ []
  unfinished : opened ≠ [] → rest ≠ []

/-- What was queued is well formed, and the receiver is as the frames that have come made it. -/
structure Received (peer : PathConfig) (s : StreamLink) : Prop where
  control : ∀ frame ∈ s.wire.control, isWireUnit [frame] = true
  data : ∀ unit ∈ s.wire.data, isWireUnit unit = true
  arrived : s.arrived ≤ s.wire.ring.length
  raw : s.rx.rxRaw = ((Path.started peer).rxFrames (s.wire.ring.take s.arrived)).1.rxRaw
  handed : s.delivered = ((Path.started peer).rxFrames (s.wire.ring.take s.arrived)).2

variable {cfg peer : PathConfig} {limit : Nat} {s s' : StreamLink}

theorem record_grows (w : TxWire) (threads : TxThreads) (action : TxAction) :
    ∃ sent, (w.record threads action).ring = w.ring ++ sent := by
  unfold TxWire.record
  split
  · split
    · exact ⟨[], (List.append_nil _).symm⟩
    · exact ⟨[], (List.append_nil _).symm⟩
  · exact ⟨_, rfl⟩
  · exact ⟨[], (List.append_nil _).symm⟩

theorem Received.send (received : s.Received peer) {action : TxAction} (sound : s.sound (.send action) = true)
    (threads : TxThreads) : ({ s with wire := s.wire.record threads action } : StreamLink).Received peer := by
  obtain ⟨sent, grows⟩ := record_grows s.wire threads action
  have before : (s.wire.ring ++ sent).take s.arrived = s.wire.ring.take s.arrived :=
    List.take_append_of_le_length received.arrived
  have queued : (∀ frame ∈ (s.wire.record threads action).control, isWireUnit [frame] = true) ∧
      ∀ unit ∈ (s.wire.record threads action).data, isWireUnit unit = true := by
    unfold TxWire.record
    split
    · rename_i what
      simp only [StreamLink.sound, Enqueue.onWire, Bool.and_eq_true, List.all_eq_true] at sound
      obtain ⟨-, units, frames⟩ := sound
      split
      · constructor
        · intro frame member
          exact (List.mem_append.mp member).elim (received.control frame) (frames frame)
        · intro unit member
          rcases List.mem_append.mp member with member | member
          · exact received.data unit member
          · obtain ⟨packets, inside, rfl⟩ := List.mem_map.mp member
            exact units packets inside
      · exact ⟨received.control, received.data⟩
    · exact ⟨received.control, received.data⟩
    · exact ⟨received.control, received.data⟩
  refine ⟨queued.1, queued.2, ?_, ?_, ?_⟩
  · show s.arrived ≤ (s.wire.record threads action).ring.length
    rw [grows, List.length_append]
    exact received.arrived.trans (Nat.le_add_right _ _)
  · show s.rx.rxRaw = ((Path.started peer).rxFrames ((s.wire.record threads action).ring.take s.arrived)).1.rxRaw
    rw [grows, before]
    exact received.raw
  · show s.delivered = ((Path.started peer).rxFrames ((s.wire.record threads action).ring.take s.arrived)).2
    rw [grows, before]
    exact received.handed

theorem Received.step (received : s.Received peer) {action : StreamAction} (sound : s.sound action = true)
    (stepped : s.step limit action = some s') : s'.Received peer := by
  cases action with
  | send action =>
      obtain ⟨wire, sent, rfl⟩ := Option.map_eq_some_iff.mp stepped
      obtain ⟨threads, -, rfl⟩ := Option.map_eq_some_iff.mp sent
      exact received.send sound threads
  | arrive =>
      obtain ⟨frame, next, rfl⟩ := Option.map_eq_some_iff.mp stepped
      have inside := (List.getElem?_eq_some_iff.mp next).1
      have taken : s.wire.ring.take (s.arrived + 1) = s.wire.ring.take s.arrived ++ [frame] := by
        rw [List.take_add_one, next]
        rfl
      obtain ⟨raw, outcome⟩ := Path.rxComplete_congr received.raw frame
      refine ⟨received.control, received.data, inside, ?_, ?_⟩
      · simp only [taken, Path.rxFrames_append]
        exact raw
      · simp only [taken, Path.rxFrames_append, received.handed, outcome, Path.rxFrames, List.append_nil]
  | other rx =>
      simp only [StreamLink.step] at stepped
      split at stepped
      · rename_i same
        cases stepped
        exact ⟨received.control, received.data, received.arrived, same.trans received.raw, received.handed⟩
      · cases stepped

theorem wire_reachable (reachable : (streamLinkSystem cfg peer limit).ReachableVia (fun s action => s.sound action = true) s) :
    (txWireSystem cfg limit).ReachableVia (fun w action => w.unbroken action = true) s.wire := by
  induction reachable with
  | init start => exact .init (by rw [start]; rfl)
  | @step s s' action _ sound stepped ih =>
      cases action with
      | send action =>
          obtain ⟨wire, sent, rfl⟩ := Option.map_eq_some_iff.mp stepped
          refine .step ih ?_ sent
          cases action with
          | enqueue what => exact (Bool.and_eq_true_iff.mp sound).1
          | _ => exact sound
      | arrive =>
          obtain ⟨frame, -, rfl⟩ := Option.map_eq_some_iff.mp stepped
          exact ih
      | other rx =>
          change (if _ then _ else _) = _ at stepped
          split at stepped
          · cases stepped
            exact ih
          · cases stepped

theorem received_reachable
    (reachable : (streamLinkSystem cfg peer limit).ReachableVia (fun s action => s.sound action = true) s) :
    s.Received peer := by
  apply reachable.invariant
  · rintro s rfl
    exact ⟨by simp, by simp, Nat.le_refl _, rfl, rfl⟩
  · intro s action s' received sound stepped
    exact received.step sound stepped

theorem delivers {control : List WireFrame} {data : List (List WireFrame)} {opened rest : List WireFrame}
    (received : s.Received peer)
    (come : ({ s.wire with ring := s.wire.ring.take s.arrived } : TxWire).TakenWhole control data opened rest) :
    s.Delivers control data opened rest := by
  obtain ⟨whole, woven, shape⟩ := come.ring
  have queued : ∀ unit ∈ data, isWireUnit unit = true := fun unit member =>
    received.data unit (come.data.subset (List.mem_append_left _ member))
  have units : ∀ unit, unit ∈ control.map (fun frame => [frame]) ∨ unit ∈ data → isWireUnit unit = true := by
    rintro unit (member | member)
    · obtain ⟨frame, inside, rfl⟩ := List.mem_map.mp member
      exact received.control frame (come.control.subset inside)
    · exact queued unit member
  obtain ⟨handed, idle⟩ := rxFrames_woven (p := Path.started peer) rfl woven units
  have now : s.delivered = ((Path.started peer).rxFrames whole).2 ++ unitHeaders opened ∧
      (s.rx.rxRaw.pending = true ↔ opened ≠ []) := by
    have taken : s.wire.ring.take s.arrived = whole ++ opened := shape
    rw [received.handed, received.raw, taken, Path.rxFrames_append]
    by_cases closed : opened = []
    · simp [closed, Path.rxFrames, unitHeaders, idle]
    · have unit : isWireUnit (opened ++ rest) = true := by
        have last := come.data
        rw [if_neg closed] at last
        exact received.data _ (last.subset (by simp))
      obtain ⟨part, pending⟩ := rxFrames_unit idle closed unit
      have more := come.unfinished closed
      simp [part, pending, more, closed]
  rw [List.map_map] at handed
  have pieces : ∀ start pages stream, start :: pages ∈ data → start.header = some stream → stream.isRawStream = true →
      SplitsStream stream (pages.map WireFrame.len) (unitHeaders (start :: pages)) :=
    fun start pages stream member parsed raw => unitHeaders_split (queued _ member) parsed raw
  exact ⟨⟨_, handed, now.1⟩, pieces, come.control, come.data, now.2, come.unfinished⟩

end StreamLink

/-- Whatever the sender's threads do and however far the frames have come: the receiver handed up the headers of
plain frames and the pieces of raw streams, each unit whole and in its order, and is inside of a stream just when
a stream has come in part. -/
theorem units_delivered_whole (cfg peer : PathConfig) (limit : Nat) (s : StreamLink)
    (reachable : (streamLinkSystem cfg peer limit).ReachableVia (fun s action => s.sound action = true) s) :
    ∃ control data opened rest, s.Delivers control data opened rest := by
  have received := StreamLink.received_reachable reachable
  obtain ⟨g, framed⟩ := TxWire.unbroken_reachable (StreamLink.wire_reachable reachable)
  obtain ⟨_, sent⟩ := framed.takenWhole
  obtain ⟨control, data, opened, rest, come⟩ := sent.take (fun unit member => isWireUnit_ne_nil (received.data unit member))
    (List.take_append_drop s.arrived s.wire.ring).symm
  exact ⟨control, data, opened, rest, StreamLink.delivers received come⟩

/-- The control frame is handed up after the stream, which was already open when it was queued. -/
def deliveryRun : List StreamAction :=
  (streamRun.take 5).map .send ++ [.arrive] ++ (streamRun.drop 5).map .send ++ [.arrive]

theorem units_delivered_whole_deliveryRun :
    ∃ s, (streamLinkSystem (nativePaths .left) (nativePaths .right) 32).ReachableVia
        (fun s action => s.sound action = true) s ∧
      s.arrived = 2 ∧ s.delivered.length = 1 ∧ s.rx.rxRaw.pending = true ∧
        ∃ control data opened rest, s.Delivers control data opened rest := by
  obtain ⟨s, reachable, seen⟩ := System.exists_reachableVia
    (streamLinkSystem (nativePaths .left) (nativePaths .right) 32) (fun s action => s.sound action = true) deliveryRun
    (fun s => s.arrived = 2 ∧ s.delivered.length = 1 ∧ s.rx.rxRaw.pending = true) rfl (by decide +kernel)
  obtain ⟨arrived, handed, pending⟩ : s.arrived = 2 ∧ s.delivered.length = 1 ∧ s.rx.rxRaw.pending = true := by
    simpa using seen
  exact ⟨s, reachable, arrived, handed, pending,
    units_delivered_whole (nativePaths .left) (nativePaths .right) 32 s reachable⟩

end ThunderboltVerbs.DataPath
