import ThunderboltVerbs.DataPath.Bookkeeping
import ThunderboltVerbs.Lib.Blocks
import Mathlib.Data.Multiset.Filter

/-!
# Raw streams on the wire (`kernel/path.c`)

What `tb_ring_tx` takes from a path, in its order. A raw stream is queued as one list: the frame of its
header, then the packets of its pages, the last of which is marked. The receiver counts the bytes of the
pages, so nothing else may come between them.
-/

namespace ThunderboltVerbs.DataPath
open Proto Lib

/-! ## Units -/

def TxPacket.ofStream (packet : TxPacket) : Bool := packet.zcopy || packet.rawStreamStart

/-- The packet without what the scheduler writes into it. -/
def TxPacket.bare (packet : TxPacket) : TxPacket :=
  { packet with rawStreamCounted := false, startCreditGroupFrames := 0 }

def TxPacket.inStream (owner : Option Nat) (packet : TxPacket) : Bool :=
  packet.zcopy && !packet.rawStreamStart && packet.ownerCtx = owner

def streamRest (owner : Option Nat) : List TxPacket → Bool
  | [] => false
  | packet :: rest =>
      packet.inStream owner && if packet.rawStreamEnd then rest.isEmpty else streamRest owner rest

/-- A plain frame, or a whole raw stream. -/
def isUnit : List TxPacket → Bool
  | [] => false
  | first :: rest =>
      !first.zcopy &&
        if first.rawStreamStart then
          !first.rawStreamEnd && first.ownerCtx.isSome && streamRest first.ownerCtx rest
        else rest.isEmpty

def framesOf (packets : List TxPacket) : List WireFrame := packets.map TxPacket.frame

def unitsOf (packets : List TxPacket) : List (List TxPacket) :=
  if packets.any TxPacket.rawStreamStart then [packets] else packets.map fun packet => [packet]

def Enqueue.units : Enqueue → List (List TxPacket)
  | .control _ _ _ => []
  | .data packet => [[packet]]
  | .list packets | .reserved packets => unitsOf packets

def Enqueue.controlFrames : Enqueue → List WireFrame
  | .control frame _ _ => [frame]
  | _ => []

/-! ## The wire -/

/-- A path and what was seen of it: the frames that `tb_ring_tx` took, and what was queued. -/
structure TxWire where
  threads : TxThreads
  ring : List WireFrame := []
  control : List WireFrame := []
  data : List (List WireFrame) := []
  deriving DecidableEq

namespace TxWire

def record (w : TxWire) (threads : TxThreads) : TxAction → TxWire
  | .enqueue what =>
      if (w.threads.path.enqueue what).isOk then
        { w with
          threads
          control := w.control ++ what.controlFrames
          data := w.data ++ what.units.map framesOf }
      else { w with threads }
  | .post none => { w with threads, ring := w.ring ++ framesOf w.threads.path.scheduler.packet?.toList }
  | _ => { w with threads }

def step (nativeTxMaxInflight : Nat) (w : TxWire) (action : TxAction) : Option TxWire :=
  (w.threads.step nativeTxMaxInflight action).map fun threads => w.record threads action

/-- The packets that the path holds. -/
def held (w : TxWire) : List TxPacket :=
  w.threads.path.txDataQueue ++ w.threads.path.txPosted ++ w.threads.completing ++
    w.threads.path.scheduler.packet?.toList

/-- The tunnel comes up once, on a path that holds nothing. A raw stream is queued whole and by itself. No
packet of one is refused but for a full ring, and none of an unfinished one is taken away by a cancellation. -/
def unbroken (w : TxWire) : TxAction → Bool
  | .enableTunnel => w.data = [] && w.held = [] && w.threads.path.txRawStream = {}
  | .enqueue what => what.units.all isUnit
  | .post (some error) => error = .eNoMem || !w.threads.path.scheduler.packet?.any TxPacket.ofStream
  | .cancel (.owner ctx) _ =>
      !(w.threads.path.rawStreamCanceled (.owner ctx)) &&
        !w.threads.path.scheduler.packet?.any fun packet => packet.ofStream && packet.ownerCtx = some ctx
  | .cancel (.done ctx) _ => w.held.all fun packet => !(packet.ofStream && packet.done = some ctx)
  | _ => true

end TxWire

def txWireSystem (cfg : PathConfig) (nativeTxMaxInflight : Nat) : System TxWire TxAction where
  init w := w = { threads := .started cfg }
  step := TxWire.step nativeTxMaxInflight

/-! ## What a unit looks like -/

@[simp] theorem framesOf_append (first second : List TxPacket) : framesOf (first ++ second) = framesOf first ++ framesOf second :=
  List.map_append

@[simp] theorem bare_bare (packet : TxPacket) : packet.bare.bare = packet.bare := rfl

/-- What does not depend on the fields that the scheduler writes is the same for two packets that differ in
these only. -/
theorem bare_congr {α : Type} {packet other : TxPacket} (f : TxPacket → α) (blind : ∀ packet, f packet.bare = f packet)
    (same : packet.bare = other.bare) : f packet = f other := by
  rw [← blind packet, same, blind other]

@[simp] theorem ofStream_bare (packet : TxPacket) : packet.bare.ofStream = packet.ofStream := rfl

@[simp] theorem matches_bare (key : CancelKey) (packet : TxPacket) : key.matches packet.bare = key.matches packet := by
  cases key <;> rfl

@[simp] theorem framesOf_bare (packets : List TxPacket) : framesOf (packets.map TxPacket.bare) = framesOf packets := by
  simp only [framesOf, List.map_map]
  rfl

theorem streamRest_bare (owner : Option Nat) (packets : List TxPacket) :
    streamRest owner (packets.map TxPacket.bare) = streamRest owner packets := by
  induction packets with
  | nil => rfl
  | cons packet rest ih =>
      simp only [List.map_cons, streamRest, ih, List.isEmpty_map]
      rfl

@[simp] theorem isUnit_bare (packets : List TxPacket) : isUnit (packets.map TxPacket.bare) = isUnit packets := by
  cases packets with
  | nil => rfl
  | cons first rest =>
      simp only [List.map_cons, isUnit, List.isEmpty_map, streamRest_bare]
      rfl

theorem isUnit_ne_nil {packets : List TxPacket} (unit : isUnit packets = true) : packets ≠ [] := by
  rintro rfl
  cases unit

/-- The part of a stream that is out after one more of its packets; a plain frame is out at once. -/
def openedAfter (opened : List TxPacket) (packet : TxPacket) : List TxPacket :=
  if packet.ofStream then if packet.rawStreamEnd then [] else opened ++ [packet.bare] else opened

theorem streamRest_split {owner : Option Nat} {before : List TxPacket} {packet : TxPacket} {rest : List TxPacket}
    (stream : streamRest owner (before ++ packet :: rest) = true) :
    packet.inStream owner = true ∧
      if packet.rawStreamEnd then rest = [] else streamRest owner rest = true := by
  induction before with
  | nil =>
      simp only [List.nil_append, streamRest, Bool.and_eq_true] at stream
      obtain ⟨inside, ends⟩ := stream
      refine ⟨inside, ?_⟩
      cases last : packet.rawStreamEnd with
      | true => simpa [last] using ends
      | false => simpa [last] using ends
  | cons first before ih =>
      simp only [List.cons_append, streamRest, Bool.and_eq_true] at stream
      obtain ⟨-, ends⟩ := stream
      split at ends
      · simp at ends
      · exact ih ends

theorem streamRest_inStream {owner : Option Nat} {packets : List TxPacket} (stream : streamRest owner packets = true) :
    ∀ packet ∈ packets, packet.inStream owner = true := by
  intro packet member
  obtain ⟨before, rest, rfl⟩ := List.append_of_mem member
  exact (streamRest_split stream).1

theorem unit_step {opened rest : List TxPacket} {packet : TxPacket} (bare : packet.bare = packet)
    (unit : isUnit (opened ++ packet :: rest) = true) :
    (rest = [] ∧ openedAfter opened packet = [] ∨ rest ≠ [] ∧ openedAfter opened packet = opened ++ [packet]) ∧
      (packet.ofStream = false → opened = []) := by
  cases opened with
  | nil =>
      simp only [List.nil_append, isUnit, Bool.and_eq_true, Bool.not_eq_true'] at unit
      obtain ⟨staged, unit⟩ := unit
      cases starts : packet.rawStreamStart with
      | false =>
          have alone : rest = [] := by simpa [starts] using unit
          have plain : packet.ofStream = false := by simp [TxPacket.ofStream, staged, starts]
          simp [openedAfter, plain, alone]
      | true =>
          simp only [starts, if_true, Bool.and_eq_true, Bool.not_eq_true'] at unit
          obtain ⟨⟨going, -⟩, stream⟩ := unit
          have more : rest ≠ [] := by
            rintro rfl
            cases stream
          simp [openedAfter, TxPacket.ofStream, starts, going, more, bare]
  | cons first opened =>
      simp only [List.cons_append, isUnit, Bool.and_eq_true] at unit
      obtain ⟨-, unit⟩ := unit
      split at unit
      · simp only [Bool.and_eq_true] at unit
        obtain ⟨inside, ends⟩ := streamRest_split unit.2
        have part : packet.ofStream = true := by
          simp only [TxPacket.inStream, Bool.and_eq_true] at inside
          simp [TxPacket.ofStream, inside.1.1]
        refine ⟨?_, by simp [part]⟩
        cases last : packet.rawStreamEnd with
        | true => exact .inl ⟨by simpa [last] using ends, by simp [openedAfter, part, last]⟩
        | false =>
            have stream : streamRest first.ownerCtx rest = true := by simpa [last] using ends
            have more : rest ≠ [] := by
              rintro rfl
              cases stream
            exact .inr ⟨more, by simp [openedAfter, part, last, bare]⟩
      · simp at unit

theorem unit_shape {packets : List TxPacket} (unit : isUnit packets = true) :
    (∃ packet, packets = [packet]) ∨ ∃ owner, ∀ packet ∈ packets, packet.ofStream = true ∧ packet.ownerCtx = owner := by
  cases packets with
  | nil => cases unit
  | cons first rest =>
      simp only [isUnit, Bool.and_eq_true] at unit
      obtain ⟨-, shape⟩ := unit
      cases starts : first.rawStreamStart with
      | false =>
          rw [show rest = [] by simpa [starts] using shape]
          exact .inl ⟨first, rfl⟩
      | true =>
          simp only [starts, if_true, Bool.and_eq_true] at shape
          refine .inr ⟨first.ownerCtx, ?_⟩
          intro packet member
          rcases List.mem_cons.mp member with rfl | member
          · exact ⟨by simp [TxPacket.ofStream, starts], rfl⟩
          · have inside := streamRest_inStream shape.2 packet member
            simp only [TxPacket.inStream, Bool.and_eq_true, decide_eq_true_eq] at inside
            exact ⟨by simp [TxPacket.ofStream, inside.1.1], inside.2⟩

theorem unit_owner {opened rest : List TxPacket} {packet : TxPacket} (unit : isUnit (opened ++ packet :: rest) = true)
    (part : packet.ofStream = true) : packet.ownerCtx.isSome = true := by
  cases opened with
  | nil =>
      simp only [List.nil_append, isUnit, Bool.and_eq_true, Bool.not_eq_true'] at unit
      obtain ⟨staged, shape⟩ := unit
      have starts : packet.rawStreamStart = true := by simpa [TxPacket.ofStream, staged] using part
      simp only [starts, if_true, Bool.and_eq_true] at shape
      exact shape.1.2
  | cons first opened =>
      simp only [List.cons_append, isUnit, Bool.and_eq_true] at unit
      obtain ⟨-, shape⟩ := unit
      split at shape
      · simp only [Bool.and_eq_true] at shape
        have inside := (streamRest_split shape.2).1
        simp only [TxPacket.inStream, Bool.and_eq_true, decide_eq_true_eq] at inside
        rw [inside.2]
        exact shape.1.2
      · simp at shape

/-- A cancellation takes a unit whole or leaves it whole, unless it takes single packets of a stream. -/
theorem unit_uniform {key : CancelKey} {packets : List TxPacket} (unit : isUnit packets = true)
    (spared : (∃ ctx, key = .owner ctx) ∨ ∀ packet ∈ packets, packet.ofStream = true → key.matches packet = false) :
    (packets.filter fun packet => !key.matches packet) = packets ∨
      (packets.filter fun packet => !key.matches packet) = [] := by
  rcases unit_shape unit with ⟨packet, rfl⟩ | ⟨owner, stream⟩
  · cases hit : key.matches packet <;> simp [hit]
  · rcases spared with ⟨ctx, rfl⟩ | untouched
    · by_cases same : owner = some ctx
      · right
        apply List.filter_eq_nil_iff.mpr
        intro packet member
        simp [CancelKey.matches, (stream packet member).2, same]
      · left
        apply List.filter_eq_self.mpr
        intro packet member
        simp [CancelKey.matches, (stream packet member).2, same]
    · left
      apply List.filter_eq_self.mpr
      intro packet member
      simp [untouched packet member (stream packet member).1]

/-! ## What the raw-stream fields of the path say -/

/-- `counted` are the packets in the ring or in a completion that the stream counts, and `opened` is what is out
of the unit that is not finished. -/
structure RawOk (raw : RawStream) (counted : Multiset TxPacket) (opened : List TxPacket) : Prop where
  idle : raw.active = false → raw = {}
  each : ∀ packet ∈ counted, raw.active = true ∧ packet.ownerCtx = raw.owner ∧ packet.ofStream = true
  inflight : counted.card ≤ raw.inflight
  opened : ∀ packet ∈ opened, raw.active = true ∧ packet.ownerCtx = raw.owner ∧ raw.endSeen = false ∧
    ∀ other ∈ counted, other.rawStreamEnd = false

section Raw

variable {raw : RawStream} {counted : Multiset TxPacket} {opened : List TxPacket} {packet : TxPacket}

theorem RawOk.opened_nil (ok : RawOk raw counted opened) (idle : raw.active = false) : opened = [] := by
  apply List.eq_nil_iff_forall_not_mem.mpr
  intro packet member
  exact Bool.false_ne_true (idle.symm.trans (ok.opened packet member).1)

theorem RawOk.counted_zero (ok : RawOk raw counted opened) (idle : raw.active = false) : counted = 0 := by
  apply Multiset.eq_zero_of_forall_notMem
  intro packet member
  exact Bool.false_ne_true (idle.symm.trans (ok.each packet member).1)

theorem RawOk.mono (ok : RawOk raw (packet ::ₘ counted) opened) : RawOk raw counted opened where
  idle := ok.idle
  each other member := ok.each other (Multiset.mem_cons_of_mem member)
  inflight := by
    have bounded := ok.inflight
    rw [Multiset.card_cons] at bounded
    omega
  opened other member := by
    obtain ⟨active, owner, going, none⟩ := ok.opened other member
    exact ⟨active, owner, going, fun last inside => none last (Multiset.mem_cons_of_mem inside)⟩

theorem rawOk_idle : RawOk {} 0 [] where
  idle _ := rfl
  each := by simp
  inflight := le_refl _
  opened := by simp

/-- `tbv_path_count_raw_stream_locked`, as a function of the fields that it reads. -/
def countRaw (raw : RawStream) (packet : TxPacket) : RawStream × TxPacket :=
  let raw : RawStream := if packet.rawStreamStart then { active := true, owner := packet.ownerCtx } else raw
  if raw.active ∧ packet.ownerCtx = raw.owner then
    ({ raw with inflight := raw.inflight + 1 }, { packet with rawStreamCounted := true })
  else (raw, packet)

/-- What the stream counts of a packet. -/
def TxPacket.countedIn (packet : TxPacket) : Multiset TxPacket := if packet.rawStreamCounted then {packet} else 0

theorem RawOk.count_page (ok : RawOk raw counted opened) (within : opened ≠ [])
    (page : packet.inStream raw.owner = true) :
    RawOk (countRaw raw packet).1 ((countRaw raw packet).2.countedIn + counted) (openedAfter opened packet) := by
  simp only [TxPacket.inStream, Bool.and_eq_true, Bool.not_eq_true', decide_eq_true_eq] at page
  obtain ⟨⟨zcopy, later⟩, owner⟩ := page
  obtain ⟨first, member⟩ := List.exists_mem_of_ne_nil opened within
  obtain ⟨active, -, going, none⟩ := ok.opened first member
  have counts : countRaw raw packet =
      ({ raw with inflight := raw.inflight + 1 }, { packet with rawStreamCounted := true }) := by
    simp [countRaw, later, active, owner]
  simp only [counts, TxPacket.countedIn, if_true, Multiset.singleton_add]
  refine ⟨fun idle => absurd active (by simp [show raw.active = false from idle]), ?_, ?_, ?_⟩
  · intro other member
    rcases Multiset.mem_cons.mp member with rfl | member
    · exact ⟨active, owner, by simp [TxPacket.ofStream, zcopy]⟩
    · exact ok.each other member
  · rw [Multiset.card_cons]
    exact Nat.add_le_add_right ok.inflight 1
  · cases last : packet.rawStreamEnd with
    | true => simp [openedAfter, TxPacket.ofStream, zcopy, last]
    | false =>
        have grown : openedAfter opened packet = opened ++ [packet.bare] := by
          simp [openedAfter, TxPacket.ofStream, zcopy, last]
        intro other member
        have owned : other.ownerCtx = raw.owner := by
          rw [grown] at member
          rcases List.mem_append.mp member with member | member
          · exact (ok.opened other member).2.1
          · rw [List.mem_singleton.mp member]
            exact owner
        refine ⟨active, owned, going, ?_⟩
        intro counting inside
        rcases Multiset.mem_cons.mp inside with rfl | inside
        · rfl
        · exact none counting inside

theorem RawOk.count_start (ok : RawOk raw counted []) (idle : raw.active = false)
    (starts : packet.rawStreamStart = true) (going : packet.rawStreamEnd = false) :
    RawOk (countRaw raw packet).1 ((countRaw raw packet).2.countedIn + counted) (openedAfter [] packet) := by
  obtain rfl := ok.counted_zero idle
  have counts : countRaw raw packet =
      ({ active := true, owner := packet.ownerCtx, inflight := 1 }, { packet with rawStreamCounted := true }) := by
    simp [countRaw, starts]
  have grown : openedAfter [] packet = [packet.bare] := by
    simp [openedAfter, TxPacket.ofStream, starts, going]
  simp only [counts, grown, TxPacket.countedIn, if_true]
  refine ⟨by simp, ?_, by simp, ?_⟩
  · intro other member
    rw [Multiset.mem_singleton.mp member]
    exact ⟨rfl, rfl, by simp [TxPacket.ofStream, starts]⟩
  · intro other member
    rw [List.mem_singleton.mp member]
    refine ⟨rfl, rfl, rfl, ?_⟩
    intro counting inside
    rw [Multiset.mem_singleton.mp inside]
    exact going

theorem RawOk.count_plain (ok : RawOk raw counted opened) (idle : raw.active = false)
    (plain : packet.ofStream = false) (fresh : packet.rawStreamCounted = false) :
    countRaw raw packet = (raw, packet) ∧
      RawOk raw (packet.countedIn + counted) (openedAfter opened packet) := by
  have starts : packet.rawStreamStart = false := by
    simp only [TxPacket.ofStream, Bool.or_eq_false_iff] at plain
    exact plain.2
  refine ⟨by simp [countRaw, starts, idle], ?_⟩
  simp only [TxPacket.countedIn, fresh, openedAfter, plain]
  simpa using ok

theorem finishRawStream_eq (packet : TxPacket) (counts : packet.rawStreamCounted = true)
    (owner : raw.owner = packet.ownerCtx) (active : raw.active = true) :
    Path.finishRawStream raw packet =
      if (raw.endSeen || packet.rawStreamEnd) = true ∧ raw.inflight - 1 = 0 then {}
      else { raw with endSeen := raw.endSeen || packet.rawStreamEnd, inflight := raw.inflight - 1 } := by
  simp only [Path.finishRawStream, counts, Bool.not_true, Bool.false_eq_true, if_false, owner, if_true]
  split
  · rfl
  · simp [active]

theorem RawOk.finish (ok : RawOk raw (packet ::ₘ counted) opened) (counts : packet.rawStreamCounted = true) :
    RawOk (Path.finishRawStream raw packet) counted opened := by
  obtain ⟨active, owner, -⟩ := ok.each packet (Multiset.mem_cons_self _ _)
  have bounded : counted.card ≤ raw.inflight - 1 := by
    have all := ok.inflight
    rw [Multiset.card_cons] at all
    omega
  rw [finishRawStream_eq packet counts owner.symm active]
  split
  · rename_i finished
    have nothing : counted = 0 := Multiset.card_eq_zero.mp (by omega)
    have closed : opened = [] := by
      apply List.eq_nil_iff_forall_not_mem.mpr
      intro first member
      obtain ⟨-, -, going, none⟩ := ok.opened first member
      simpa [going, none packet (Multiset.mem_cons_self _ _)] using finished.1
    rw [nothing, closed]
    exact rawOk_idle
  · refine ⟨fun idle => absurd active (by simp [show raw.active = false from idle]), ?_, bounded, ?_⟩
    · intro other member
      exact ok.each other (Multiset.mem_cons_of_mem member)
    · intro first member
      obtain ⟨-, owned, going, none⟩ := ok.opened first member
      refine ⟨active, owned, ?_, fun other inside => none other (Multiset.mem_cons_of_mem inside)⟩
      simp [going, none packet (Multiset.mem_cons_self _ _)]

end Raw

/-! ## The part of the path that matters here -/

structure Posting where
  packet : TxPacket
  fromControlQueue : Bool
  oldRaw : RawStream
  deriving DecidableEq

def Scheduler.posting? : Scheduler → Option Posting
  | .posting packet fromControlQueue _ oldRaw _ => some { packet, fromControlQueue, oldRaw }
  | _ => none

structure TxView where
  enabled : Prop
  control : List TxPacket
  data : List TxPacket
  posting : Option Posting
  raw : RawStream
  counted : Multiset TxPacket

def TxThreads.view (s : TxThreads) : TxView where
  enabled := s.path.state = .tunnelEnabled
  control := s.path.txControlQueue
  data := s.path.txDataQueue
  posting := s.path.scheduler.posting?
  raw := s.path.txRawStream
  counted := ((s.path.txPosted : Multiset TxPacket) + s.completing).filter fun packet => packet.rawStreamCounted = true

/-- What is recorded of a step. -/
inductive TxEvent
  | quiet
  | opens
  | hands (frame : WireFrame)
  | queuesControl (frame : WireFrame)
  | queuesData (units : List (List TxPacket))

def TxEvent.ring : TxEvent → List WireFrame
  | .hands frame => [frame]
  | _ => []

def TxEvent.control : TxEvent → List WireFrame
  | .queuesControl frame => [frame]
  | _ => []

def TxEvent.data : TxEvent → List (List WireFrame)
  | .queuesData units => units.map framesOf
  | _ => []

/-- A cancellation that leaves every unfinished raw stream alone. -/
inductive TxView.Spares (v : TxView) : CancelKey → Prop
  | owner (ctx : Nat) (other : v.raw.active = true → v.raw.owner ≠ some ctx)
      (posting : ∀ post, v.posting = some post → post.packet.ofStream = true → post.packet.ownerCtx ≠ some ctx) :
      Spares v (.owner ctx)
  | done (key : CancelKey) (data : ∀ packet ∈ v.data, packet.ofStream = true → key.matches packet = false)
      (counted : ∀ packet ∈ v.counted, packet.ofStream = true → key.matches packet = false)
      (posting : ∀ post, v.posting = some post → post.packet.ofStream = true → key.matches post.packet = false) :
      Spares v key

/-- What a step of the threads does to the view. -/
inductive TxView.Moves (v : TxView) : TxEvent → TxView → Prop
  | same : Moves v .quiet v
  | up (data : v.data = []) (posting : v.posting = none) (counted : v.counted = 0) (raw : v.raw = {}) :
      Moves v .opens { v with enabled := True }
  | down {control data : List TxPacket} {raw : RawStream} (fewer : control.Sublist v.control) :
      Moves v .quiet { v with enabled := False, control, data, raw }
  | queueControl {packet : TxPacket} (plain : packet.ofStream = false) :
      Moves v (.queuesControl packet.frame) { v with control := v.control ++ [packet] }
  | queueData {packets : List TxPacket} {units : List (List TxPacket)} (whole : ∀ unit ∈ units, isUnit unit = true)
      (same : packets.map TxPacket.bare = units.flatten) :
      Moves v (.queuesData units) { v with data := v.data ++ packets }
  | takeControl {packet taken : TxPacket} {rest : List TxPacket} (free : v.posting = none) (enabled : v.enabled)
      (queue : v.control = packet :: rest) (same : taken.bare = packet.bare) (uncounted : taken.rawStreamCounted = false)
      (idle : v.raw.active = false) :
      Moves v .quiet
        { v with
          control := rest
          raw := (countRaw v.raw taken).1
          posting := some { packet := (countRaw v.raw taken).2, fromControlQueue := true, oldRaw := v.raw } }
  | takeData {packet taken : TxPacket} {rest : List TxPacket} (free : v.posting = none) (enabled : v.enabled)
      (queue : v.data = packet :: rest) (same : taken.bare = packet.bare) (uncounted : taken.rawStreamCounted = false)
      (allowed : v.raw.active = true → packet.inStream v.raw.owner = true) :
      Moves v .quiet
        { v with
          data := rest
          raw := (countRaw v.raw taken).1
          posting := some { packet := (countRaw v.raw taken).2, fromControlQueue := false, oldRaw := v.raw } }
  | hand {post : Posting} (posting : v.posting = some post) :
      Moves v (.hands post.packet.frame)
        { v with posting := none, counted := post.packet.countedIn + v.counted }
  | putBackControl {post : Posting} {packet : TxPacket} (posting : v.posting = some post)
      (control : post.fromControlQueue = true) (same : packet.bare = post.packet.bare) :
      Moves v .quiet { v with posting := none, raw := post.oldRaw, control := packet :: v.control }
  | putBackData {post : Posting} {packet : TxPacket} (posting : v.posting = some post)
      (data : post.fromControlQueue = false) (same : packet.bare = post.packet.bare) :
      Moves v .quiet { v with posting := none, raw := post.oldRaw, data := packet :: v.data }
  | lose {post : Posting} (posting : v.posting = some post)
      (unowned : v.enabled → post.packet.ofStream = true → post.packet.ownerCtx = none) :
      Moves v .quiet { v with posting := none, raw := post.oldRaw }
  | finish {packet : TxPacket} {counted : Multiset TxPacket} (counts : packet.rawStreamCounted = true)
      (found : v.counted = packet ::ₘ counted) :
      Moves v .quiet { v with raw := Path.finishRawStream v.raw packet, counted }
  | cancel {key : CancelKey} {counted : Multiset TxPacket} {posting : Option Posting} (spares : v.Spares key)
      (kept : (∀ packet ∈ v.counted, key.matches packet = false) → counted = v.counted)
      (held : posting = v.posting ∨ ∃ post, v.posting = some post ∧ key.matches post.packet = true ∧
        posting = some { post with packet := { post.packet with done := none, ownerCtx := none } }) :
      Moves v .quiet { v with data := v.data.filter fun packet => !key.matches packet, posting, counted }

/-! ## The invariant -/

/-- What is out: whole units woven into `whole`, and `opened` of one more. `units` are those that are not out,
and `tail` what is queued of them. -/
structure Progress where
  whole : List WireFrame
  controlOut : List WireFrame
  dataOut : List (List WireFrame)
  opened : List TxPacket
  tail : List TxPacket
  units : List (List TxPacket)

def TxView.postingFrom (v : TxView) (fromControlQueue : Bool) : List TxPacket :=
  match v.posting with
  | some post => if post.fromControlQueue = fromControlQueue then [post.packet.bare] else []
  | none => []

/-- While a packet is being posted, the fields are right both for the post that succeeds and for the one that
is rolled back. -/
def TxView.RawOk (v : TxView) (opened : List TxPacket) : Prop :=
  match v.posting with
  | some post =>
      DataPath.RawOk post.oldRaw v.counted opened ∧
        DataPath.RawOk v.raw (post.packet.countedIn + v.counted) (openedAfter opened post.packet)
  | none => DataPath.RawOk v.raw v.counted opened

structure Framed (v : TxView) (ring control : List WireFrame) (data : List (List WireFrame)) (g : Progress) : Prop where
  woven : Woven (g.controlOut.map fun frame => [frame]) g.dataOut g.whole
  ring : ring = g.whole ++ framesOf g.opened
  controlOrder : (g.controlOut ++ framesOf (v.postingFrom true ++ v.control)).Sublist control
  dataOrder : (g.dataOut ++ g.units.map framesOf).Sublist data
  cut : Cut g.opened (v.postingFrom false ++ g.tail) g.units
  units : ∀ unit ∈ g.units, isUnit unit = true
  between : ∀ post, v.posting = some post → post.fromControlQueue = true →
    g.opened = [] ∧ post.packet.ofStream = false
  plain : ∀ packet ∈ v.control, packet.ofStream = false
  tail : v.enabled → g.tail = v.data.map TxPacket.bare
  raw : v.enabled → v.RawOk g.opened

end ThunderboltVerbs.DataPath
