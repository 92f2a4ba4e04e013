import ThunderboltVerbs.DataPath.Rx
import ThunderboltVerbs.Receive.Headers
import Mathlib.Algebra.BigOperators.Group.List.Basic

/-!
# Raw streams of a path (`kernel/path.c`)

A raw-stream header is followed by frames that hold payload only. The path keeps the header between these
frames and rebuilds a native header for each of them.
-/

namespace ThunderboltVerbs.DataPath
open Proto

/-! ## Frames of the receive ring -/

/-- A completed frame: the size that the ring reports and the bytes of the buffer. -/
structure RingFrame where
  size : Nat
  buf : List UInt8
  deriving DecidableEq, Repr

/-- `tbv_frame_len`: the ring reports a full frame as 0. -/
def frameLen (size : Nat) : Nat := if size ≠ 0 then size else dataFrameSize

def parsedHeader (buffer : List UInt8) : Option DataHeader :=
  match parseHeader buffer with
  | .error _ => none
  | .ok wire => wire.decode

def RingFrame.wire (frame : RingFrame) : WireFrame where
  len := frameLen frame.size
  header := parsedHeader (frame.buf.take (frameLen frame.size))

theorem frameLen_pos (size : Nat) : 0 < frameLen size := by
  unfold frameLen
  split
  · omega
  · decide

theorem parsedHeader_length {buffer : List UInt8} {header : DataHeader}
    (parsed : parsedHeader buffer = some header) : header.length ≤ dataMaxMsgSize := by
  unfold parsedHeader at parsed
  split at parsed
  · cases parsed
  rename_i wire found
  obtain ⟨-, -, -, -, -, allowed, rfl⟩ := parseHeader_ok_iff.mp found
  have short : (getDataHeader buffer).length.toNat ≤ dataMaxMsgSize := by
    have bounded := of_decide_eq_true allowed
    split at bounded
    · exact bounded
    · exact bounded.trans (by decide)
  obtain ⟨op, -, rfl⟩ := Option.map_eq_some_iff.mp parsed
  exact short

namespace Path

/-- `tbv_path_rx_raw_payload` on one length after another: the path after them, and the headers that were
handed up. -/
def rxRawPayloads (p : Path) : List Nat → Path × List DataHeader
  | [] => (p, [])
  | len :: lens =>
      let result := p.rxRawPayload len
      let rest := result.1.rxRawPayloads lens
      (rest.1, result.2.toList ++ rest.2)

/-- `tbv_path_rx_complete` on one frame after another. -/
def rxCompletes (p : Path) : List RingFrame → Path × List DataHeader
  | [] => (p, [])
  | frame :: frames =>
      let result := p.rxComplete frame.wire
      let rest := result.1.rxCompletes frames
      (rest.1, result.2.delivered.toList ++ rest.2)

/-- `tbv_path_rx_complete` takes the frame for the start of a raw stream. -/
def AcceptsRaw (p : Path) (frame : RingFrame) (header : DataHeader) : Prop :=
  p.rxRaw.pending = false ∧ frame.wire.header = some header ∧
    (p.rxComplete frame.wire).1.rxRaw.pending = true

end Path

/-! ## What a stream is split into -/

/-- The native header of the bytes `[offset, offset + len)` of a stream. -/
def payloadPiece (stream : DataHeader) (offset len : Nat) : DataHeader :=
  { stream with
    flags := if offset + len = stream.length then stream.flags &&& (flagLast ||| flagSolicited) else 0
    length := len
    fragOffset := offset }

def payloadPieces (stream : DataHeader) : Nat → List Nat → List DataHeader
  | _, [] => []
  | offset, len :: lens => payloadPiece stream offset len :: payloadPieces stream (offset + len) lens

/-- Consecutive spans of the stream from its first byte on, with the flags of the stream on the last. -/
structure SplitsStream (stream : DataHeader) (lens : List Nat) (emitted : List DataHeader) : Prop where
  count : emitted.length = lens.length
  spans : ∀ i header, emitted[i]? = some header →
    header.fragOffset = (lens.take i).sum ∧ lens[i]? = some header.length
  others : ∀ header ∈ emitted, header =
    { stream with flags := header.flags, length := header.length, fragOffset := header.fragOffset }
  payload : ∀ header ∈ emitted, header.isRawStream = false
  flags : ∀ i header, emitted[i]? = some header →
    header.isLast = (stream.isLast && decide (i + 1 = lens.length)) ∧
      header.isSolicited = (stream.isSolicited && decide (i + 1 = lens.length))

/-- What `tbv_path_rx_complete` requires of the header of a raw stream. -/
structure RawHeader (stream : DataHeader) : Prop where
  raw : stream.isRawStream = true
  nonempty : stream.length ≠ 0
  flags : stream.flags &&& ~~~(flagLast ||| flagSolicited ||| flagRawStream) = 0
  short : stream.length ≤ dataMaxMsgSize

theorem Path.AcceptsRaw.start {p : Path} {frame : RingFrame} {header : DataHeader}
    (accepts : p.AcceptsRaw frame header) :
    (p.rxComplete frame.wire).1 = p.rxStartRaw header ∧ RawHeader header := by
  obtain ⟨idle, parsed, pending⟩ := accepts
  have short : header.length ≤ dataMaxMsgSize := parsedHeader_length parsed
  unfold Path.rxComplete at pending ⊢
  simp only [parsed, idle] at pending ⊢
  split at pending
  · simp [idle] at pending
  rw [if_neg Bool.false_ne_true] at pending
  split at pending
  · simp [idle] at pending
  split at pending
  · rename_i frameSmall other raw
    split at pending
    · simp [idle] at pending
    · rename_i valid
      simp only [not_or, ne_eq, not_not] at valid
      obtain ⟨framed, nonempty, flags⟩ := valid
      constructor
      · rw [if_neg frameSmall, if_neg Bool.false_ne_true, if_neg other, if_pos raw]
        rw [if_neg (by simp [framed, nonempty, flags])]
      · exact ⟨raw, nonempty, flags, short⟩
  · simp [idle] at pending

/-! ## One payload frame -/

/-- The path is inside a stream of which `done` bytes have come. -/
structure Path.Streams (p : Path) (stream : DataHeader) (done : Nat) : Prop where
  raw : p.rxRaw =
    { pending := done ≠ stream.length, stream := stream, done := done, remaining := stream.length - done }
  inside : done ≤ stream.length

theorem rawPayloadHeader_eq {stream : DataHeader} (header : RawHeader stream) {done len : Nat}
    (nonzero : len ≠ 0) (fits : done + len ≤ stream.length) :
    rawPayloadHeader { stream with fragOffset := 0 } done (stream.length - done) len =
      .ok (payloadPiece stream done len) := by
  have cleared : stream.flags &&& ~~~(flagRawStream ||| flagLast ||| flagSolicited) = 0 := by
    rw [← header.flags]
    rfl
  have raw : ({ stream with fragOffset := 0 } : DataHeader).isRawStream = true := header.raw
  have last : len = stream.length - done ↔ done + len = stream.length := by omega
  unfold rawPayloadHeader
  rw [raw, if_neg (by decide), if_neg (by omega)]
  simp only [cleared, payloadPiece, last, UInt8.zero_or]

theorem Path.Streams.payload {p : Path} {stream : DataHeader} {done len : Nat}
    (header : RawHeader stream) (streams : p.Streams stream done)
    (nonzero : len ≠ 0) (fits : done + len ≤ stream.length) :
    (p.rxRawPayload len).1.Streams stream (done + len) ∧
      (p.rxRawPayload len).2 = some (payloadPiece stream done len) := by
  have small : stream.length < 2 ^ 32 := header.short.trans_lt (by decide)
  have pending : decide (done ≠ stream.length) = true := decide_eq_true (by omega)
  have whole : (done + (stream.length - done)) % 2 ^ 32 = stream.length := by
    rw [Nat.add_sub_cancel' streams.inside, Nat.mod_eq_of_lt small]
  unfold Path.rxRawPayload
  simp only [streams.raw, pending, whole]
  rw [if_neg (by simp; omega), rawPayloadHeader_eq header nonzero fits]
  refine ⟨⟨?_, fits⟩, rfl⟩
  have ends : len ≠ stream.length - done ↔ done + len ≠ stream.length := by omega
  simp only [Bool.true_and, ends, Nat.mod_eq_of_lt (show done + len < 2 ^ 32 by omega),
    Nat.sub_sub]

/-- A frame that is empty, too long, or outside of any stream ends the stream. -/
theorem rxRawPayload_refused {p : Path} {len : Nat}
    (bad : p.rxRaw.pending = false ∨ len = 0 ∨ len > p.rxRaw.remaining) :
    p.rxRawPayload len = (p.rxDropRaw, none) := by
  unfold Path.rxRawPayload
  rw [if_pos (by simpa using bad)]

/-! ## A run of payload frames -/

section Pieces

variable (stream : DataHeader)

theorem payloadPieces_get (offset : Nat) (lens : List Nat) (i : Nat) :
    (payloadPieces stream offset lens)[i]? =
      lens[i]?.map (payloadPiece stream (offset + (lens.take i).sum)) := by
  induction lens generalizing offset i with
  | nil => rfl
  | cons len lens ih =>
      cases i with
      | zero => rfl
      | succ i =>
          simp only [payloadPieces, List.getElem?_cons_succ, List.take_succ_cons, List.sum_cons]
          rw [ih (offset + len) i, Nat.add_assoc]

theorem length_payloadPieces (offset : Nat) (lens : List Nat) :
    (payloadPieces stream offset lens).length = lens.length := by
  induction lens generalizing offset with
  | nil => rfl
  | cons len lens ih => exact congrArg (· + 1) (ih (offset + len))

variable {stream}

/-- What is taken from a list of positive numbers reaches the sum of the list only at its end. -/
theorem sum_take_eq_iff {lens : List Nat} (positive : ∀ len ∈ lens, 0 < len) {n : Nat}
    (bound : n ≤ lens.length) :
    (lens.take n).sum = lens.sum ↔ n = lens.length := by
  constructor
  · intro same
    apply bound.antisymm
    by_contra! early
    have parts : (lens.take n).sum + (lens.drop n).sum = lens.sum := List.sum_take_add_sum_drop lens n
    have rest : (lens.drop n).sum = 0 := by omega
    have next : lens[n] ∈ lens.drop n := by
      rw [List.drop_eq_getElem_cons early]
      exact List.mem_cons_self
    have zero : lens[n] = 0 := List.sum_eq_zero_iff_forall_eq_nat.mp rest _ next
    exact (positive _ (List.getElem_mem early)).ne' zero
  · rintro rfl
    rw [List.take_length]

theorem payloadPiece_flags (offset len : Nat) :
    (payloadPiece stream offset len).isRawStream = false ∧
      (payloadPiece stream offset len).isLast =
        (stream.isLast && decide (offset + len = stream.length)) ∧
      (payloadPiece stream offset len).isSolicited =
        (stream.isSolicited && decide (offset + len = stream.length)) := by
  simp only [DataHeader.isRawStream, DataHeader.isLast, DataHeader.isSolicited, payloadPiece]
  by_cases ends : offset + len = stream.length
  · simp only [ends, if_true, hasFlag, UInt8.and_assoc, decide_true, Bool.and_true]
    refine ⟨?_, rfl, rfl⟩
    rw [show (flagLast ||| flagSolicited) &&& flagRawStream = 0 from rfl, UInt8.and_zero]
    rfl
  · simp [ends]

theorem payloadPieces_split {lens : List Nat}
    (positive : ∀ len ∈ lens, 0 < len) (total : lens.sum = stream.length) :
    SplitsStream stream lens (payloadPieces stream 0 lens) := by
  have found : ∀ {i piece}, (payloadPieces stream 0 lens)[i]? = some piece →
      ∃ len, lens[i]? = some len ∧ payloadPiece stream (lens.take i).sum len = piece := by
    intro i piece here
    rw [payloadPieces_get, Nat.zero_add] at here
    exact Option.map_eq_some_iff.mp here
  have member : ∀ {piece}, piece ∈ payloadPieces stream 0 lens →
      ∃ offset len, payloadPiece stream offset len = piece := by
    intro piece member
    obtain ⟨i, here⟩ := List.mem_iff_getElem?.mp member
    obtain ⟨len, -, same⟩ := found here
    exact ⟨_, len, same⟩
  refine ⟨length_payloadPieces stream 0 lens, ?_, ?_, ?_, ?_⟩
  · intro i piece here
    obtain ⟨len, placed, rfl⟩ := found here
    exact ⟨rfl, placed⟩
  · intro piece inside
    obtain ⟨offset, len, rfl⟩ := member inside
    rfl
  · intro piece inside
    obtain ⟨offset, len, rfl⟩ := member inside
    exact (payloadPiece_flags offset len).1
  · intro i piece here
    obtain ⟨len, placed, rfl⟩ := found here
    have inside : i < lens.length := (List.getElem?_eq_some_iff.mp placed).1
    have reached : (lens.take i).sum + len = (lens.take (i + 1)).sum := by
      rw [List.take_add_one, placed]
      simp
    have ends : (lens.take i).sum + len = stream.length ↔ i + 1 = lens.length := by
      rw [reached, ← total]
      exact sum_take_eq_iff positive inside
    simp only [← ends]
    exact (payloadPiece_flags _ len).2

end Pieces

section Run

variable {p : Path} {stream : DataHeader}

theorem Path.Streams.payloads (header : RawHeader stream) {done : Nat} (streams : p.Streams stream done)
    {lens : List Nat} (positive : ∀ len ∈ lens, 0 < len) (fits : done + lens.sum ≤ stream.length) :
    (p.rxRawPayloads lens).1.Streams stream (done + lens.sum) ∧
      (p.rxRawPayloads lens).2 = payloadPieces stream done lens := by
  induction lens generalizing p done with
  | nil => exact ⟨streams, rfl⟩
  | cons len lens ih =>
      rw [List.sum_cons] at fits ⊢
      obtain ⟨next, emitted⟩ :=
        streams.payload header (positive len List.mem_cons_self).ne' (show done + len ≤ _ by omega)
      obtain ⟨last, rest⟩ :=
        ih next (fun len member => positive len (List.mem_cons_of_mem _ member)) (by omega)
      rw [Nat.add_assoc] at last
      refine ⟨last, ?_⟩
      simp only [Path.rxRawPayloads, emitted, rest, payloadPieces]
      rfl

/-- Whatever the frames are, a path that is still inside a stream knows how much of it has come. -/
def Path.Tracks (p : Path) (stream : DataHeader) : Prop :=
  p.rxRaw.pending = true → ∃ done, p.Streams stream done

theorem Path.Tracks.payload (header : RawHeader stream) (tracks : p.Tracks stream) (len : Nat) :
    (p.rxRawPayload len).1.Tracks stream := by
  by_cases bad : p.rxRaw.pending = false ∨ len = 0 ∨ len > p.rxRaw.remaining
  · intro pending
    rw [rxRawPayload_refused bad] at pending
    cases pending
  · simp only [not_or, Bool.not_eq_false, gt_iff_lt, Nat.not_lt] at bad
    obtain ⟨pending, nonzero, fits⟩ := bad
    obtain ⟨done, streams⟩ := tracks pending
    rw [streams.raw] at fits
    have inside := streams.inside
    intro _
    exact ⟨_, (streams.payload header nonzero (show done + len ≤ _ by simp only at fits; omega)).1⟩

theorem Path.Tracks.payloads (header : RawHeader stream) (tracks : p.Tracks stream) (lens : List Nat) :
    (p.rxRawPayloads lens).1.Tracks stream := by
  induction lens generalizing p with
  | nil => exact tracks
  | cons len lens ih => exact ih (tracks.payload header len)

theorem streams_start : (p.rxStartRaw stream).Streams stream 0 := by
  refine ⟨?_, Nat.zero_le _⟩
  have begins : stream.length ≠ 0 ↔ 0 ≠ stream.length := ne_comm
  simp only [Path.rxStartRaw, begins, Nat.sub_zero]

end Run

/-- While a stream is open, a frame that is not longer than the buffer is payload. -/
theorem rxComplete_pending {p : Path} (pending : p.rxRaw.pending = true) {frame : RingFrame}
    (short : frameLen frame.size ≤ dataFrameSize) :
    p.rxComplete frame.wire =
      ((p.rxRawPayload (frameLen frame.size)).1,
        { returnRxCredits := 1, delivered := (p.rxRawPayload (frameLen frame.size)).2 }) := by
  unfold Path.rxComplete
  rw [if_neg (show ¬frame.wire.len > dataFrameSize from Nat.not_lt.mpr short), if_pos pending]
  rfl

/-- The frames that carry a stream are payload, whatever their bytes look like. -/
theorem Path.Streams.completes {p : Path} {stream : DataHeader} (header : RawHeader stream) {done : Nat}
    (streams : p.Streams stream done) {frames : List RingFrame}
    (short : ∀ frame ∈ frames, frameLen frame.size ≤ dataFrameSize)
    (fits : done + (frames.map fun frame => frameLen frame.size).sum ≤ stream.length) :
    p.rxCompletes frames = p.rxRawPayloads (frames.map fun frame => frameLen frame.size) := by
  induction frames generalizing p done with
  | nil => rfl
  | cons frame frames ih =>
      rw [List.map_cons, List.sum_cons] at fits
      have positive := frameLen_pos frame.size
      have pending : p.rxRaw.pending = true := by
        rw [streams.raw]
        exact decide_eq_true (by omega)
      have next := (streams.payload header positive.ne' (show done + _ ≤ _ by omega)).1
      have rest := ih next (fun frame member => short frame (List.mem_cons_of_mem _ member)) (by omega)
      simp only [Path.rxCompletes, rxComplete_pending pending (short frame List.mem_cons_self), rest,
        List.map_cons, Path.rxRawPayloads]

theorem raw_stream_split (p : Path) (frame : RingFrame) (header : DataHeader)
    (accepts : p.AcceptsRaw frame header) :
    (∀ sizes : List Nat, (sizes.map frameLen).sum = header.length →
      SplitsStream header (sizes.map frameLen)
        ((p.rxComplete frame.wire).1.rxRawPayloads (sizes.map frameLen)).2 ∧
      ∀ n ≤ sizes.length,
        ((p.rxComplete frame.wire).1.rxRawPayloads ((sizes.map frameLen).take n)).1.rxRaw.pending =
          decide (n ≠ sizes.length)) ∧
    ∀ (lens : List Nat) (q : Path), q = ((p.rxComplete frame.wire).1.rxRawPayloads lens).1 →
      (q.rxRaw.pending = true → q.rxRaw.done + q.rxRaw.remaining = header.length) ∧
      ∀ len, len = 0 ∨ len > q.rxRaw.remaining →
        (q.rxRawPayload len).1.rxRaw.pending = false ∧ (q.rxRawPayload len).2 = none := by
  obtain ⟨started, raw⟩ := accepts.start
  rw [started]
  have start : (p.rxStartRaw header).Streams header 0 := streams_start
  constructor
  · intro sizes total
    have positive : ∀ len ∈ sizes.map frameLen, 0 < len := by
      intro len member
      obtain ⟨size, -, rfl⟩ := List.mem_map.mp member
      exact frameLen_pos size
    constructor
    · rw [(start.payloads raw positive (by omega)).2]
      exact payloadPieces_split positive total
    · intro n bound
      have taken : ∀ len ∈ (sizes.map frameLen).take n, 0 < len :=
        fun len member => positive len (List.mem_of_mem_take member)
      have parts := List.sum_take_add_sum_drop (sizes.map frameLen) n
      have ends : ((sizes.map frameLen).take n).sum = header.length ↔ n = sizes.length := by
        rw [← total, sum_take_eq_iff positive (by rwa [List.length_map]), List.length_map]
      rw [(start.payloads raw taken (by omega)).1.raw]
      simp only [Nat.zero_add, ne_eq, ends]
  · rintro lens q rfl
    constructor
    · intro pending
      obtain ⟨done, streams⟩ :=
        Path.Tracks.payloads raw (show (p.rxStartRaw header).Tracks header from fun _ => ⟨0, start⟩) lens pending
      rw [streams.raw]
      exact Nat.add_sub_cancel' streams.inside
    · intro len bad
      rw [rxRawPayload_refused (Or.inr bad)]
      exact ⟨rfl, rfl⟩

def rawWriteStream : DataHeader where
  opcode := .rdmaWrite
  flags := flagLast ||| flagSolicited ||| flagRawStream
  destQp := 0x900
  srcQp := 0x901
  psn := 42
  length := 8192
  immData := 8192
  remoteAddr := 0x100000000
  rkey := 0x1234

def rawWriteFrame : RingFrame where
  size := dataHdrSize
  buf := (dataFields rawWriteStream.toWire).flatten

def rawWritePath : Path :=
  Path.started { txRingSize := 8, rxRingSize := 8, rx_positive := by decide, rx_u32 := by decide }

theorem raw_stream_split_write :
    SplitsStream rawWriteStream [4096, 4096]
      ((rawWritePath.rxComplete rawWriteFrame.wire).1.rxRawPayloads [4096, 4096]).2 :=
  ((raw_stream_split rawWritePath rawWriteFrame rawWriteStream
    ⟨rfl, by decide +kernel, by decide +kernel⟩).1 [0, 4096] rfl).1

end ThunderboltVerbs.DataPath
