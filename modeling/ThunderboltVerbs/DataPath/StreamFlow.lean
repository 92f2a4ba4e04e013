import ThunderboltVerbs.DataPath.FramingRuns

/-!
# A raw stream comes to its end (`kernel/path.c`)

While a raw stream is active nothing else is picked, so every stream has to end. Its last packet is in the queue, in
the ring or completed, and once it is completed the count of the frames in the ring ends the stream.
-/

namespace ThunderboltVerbs.DataPath
open Proto Lib

/-! ## Streams in the queue -/

/-- The queue goes on with the pages of the stream, up to the one that is marked as its end. -/
def pagesFirst (owner : Option Nat) : List TxPacket → Bool
  | [] => false
  | packet :: rest => packet.inStream owner && (packet.rawStreamEnd || pagesFirst owner rest)

/-- Every stream that starts in the queue is there whole. -/
def wholeStreams : List TxPacket → Bool
  | [] => true
  | packet :: rest =>
      (!packet.rawStreamStart || (packet.ownerCtx.isSome && pagesFirst packet.ownerCtx rest)) && wholeStreams rest

section Queue

variable {owner : Option Nat} {packets more : List TxPacket} {packet : TxPacket}

theorem pagesFirst_append (pages : pagesFirst owner packets = true) : pagesFirst owner (packets ++ more) = true := by
  induction packets with
  | nil => cases pages
  | cons packet rest ih =>
      simp only [pagesFirst, Bool.and_eq_true, Bool.or_eq_true] at pages
      simp only [List.cons_append, pagesFirst, Bool.and_eq_true, Bool.or_eq_true]
      exact ⟨pages.1, pages.2.imp_right ih⟩

theorem pagesFirst_streamRest (stream : streamRest owner packets = true) : pagesFirst owner packets = true := by
  induction packets with
  | nil => cases stream
  | cons packet rest ih =>
      simp only [streamRest, Bool.and_eq_true] at stream
      simp only [pagesFirst, Bool.and_eq_true, Bool.or_eq_true]
      refine ⟨stream.1, ?_⟩
      cases last : packet.rawStreamEnd with
      | true => exact .inl rfl
      | false => exact .inr (ih (by simpa [last] using stream.2))

@[simp] theorem pagesFirst_bare (owner : Option Nat) (packets : List TxPacket) :
    pagesFirst owner (packets.map TxPacket.bare) = pagesFirst owner packets := by
  induction packets with
  | nil => rfl
  | cons packet rest ih =>
      simp only [List.map_cons, pagesFirst, ih]
      rfl

@[simp] theorem wholeStreams_bare (packets : List TxPacket) :
    wholeStreams (packets.map TxPacket.bare) = wholeStreams packets := by
  induction packets with
  | nil => rfl
  | cons packet rest ih =>
      simp only [List.map_cons, wholeStreams, ih, pagesFirst_bare]
      rfl

theorem pagesFirst_filter {keep : TxPacket → Bool}
    (kept : ∀ packet ∈ packets, packet.inStream owner = true → keep packet = true)
    (pages : pagesFirst owner packets = true) : pagesFirst owner (packets.filter keep) = true := by
  induction packets with
  | nil => cases pages
  | cons packet rest ih =>
      simp only [pagesFirst, Bool.and_eq_true, Bool.or_eq_true] at pages
      rw [List.filter_cons_of_pos (kept packet List.mem_cons_self pages.1)]
      simp only [pagesFirst, Bool.and_eq_true, Bool.or_eq_true]
      exact ⟨pages.1, pages.2.imp_right (ih fun other member => kept other (List.mem_cons_of_mem _ member))⟩

theorem wholeStreams_append (first : wholeStreams packets = true) (second : wholeStreams more = true) :
    wholeStreams (packets ++ more) = true := by
  induction packets with
  | nil => exact second
  | cons packet rest ih =>
      simp only [wholeStreams, Bool.and_eq_true, Bool.or_eq_true] at first
      simp only [List.cons_append, wholeStreams, Bool.and_eq_true, Bool.or_eq_true]
      exact ⟨first.1.imp_right fun stream => ⟨stream.1, pagesFirst_append stream.2⟩, ih first.2⟩

theorem wholeStreams_plain (plain : ∀ packet ∈ packets, packet.rawStreamStart = false) :
    wholeStreams packets = true := by
  induction packets with
  | nil => rfl
  | cons packet rest ih =>
      simp only [wholeStreams, plain packet List.mem_cons_self, Bool.not_false, Bool.true_or, Bool.true_and]
      exact ih fun other member => plain other (List.mem_cons_of_mem _ member)

theorem wholeStreams_unit (unit : isUnit packets = true) : wholeStreams packets = true := by
  cases packets with
  | nil => cases unit
  | cons first rest =>
      simp only [isUnit, Bool.and_eq_true] at unit
      cases starts : first.rawStreamStart with
      | false =>
          have alone : rest = [] := by simpa [starts] using unit.2
          simp [wholeStreams, starts, alone]
      | true =>
          simp only [starts, if_true, Bool.and_eq_true] at unit
          have pages : ∀ packet ∈ rest, packet.rawStreamStart = false := by
            intro packet member
            have inside := streamRest_inStream unit.2.2 packet member
            simp only [TxPacket.inStream, Bool.and_eq_true, Bool.not_eq_true'] at inside
            exact inside.1.2
          simp [wholeStreams, starts, unit.2.1.2, pagesFirst_streamRest unit.2.2, wholeStreams_plain pages]

theorem wholeStreams_flatten {units : List (List TxPacket)} (whole : ∀ unit ∈ units, isUnit unit = true) :
    wholeStreams units.flatten = true := by
  induction units with
  | nil => rfl
  | cons unit rest ih =>
      rw [List.flatten_cons]
      apply wholeStreams_append
      · exact wholeStreams_unit (whole unit List.mem_cons_self)
      · exact ih fun other member => whole other (List.mem_cons_of_mem _ member)

/-- A cancellation takes all packets of an owner, or none of a stream. -/
theorem wholeStreams_filter {key : CancelKey}
    (spared : (∃ ctx, key = .owner ctx) ∨ ∀ packet ∈ packets, packet.ofStream = true → key.matches packet = false)
    (whole : wholeStreams packets = true) :
    wholeStreams (packets.filter fun packet => !key.matches packet) = true := by
  induction packets with
  | nil => rfl
  | cons packet rest ih =>
      simp only [wholeStreams, Bool.and_eq_true, Bool.or_eq_true, Bool.not_eq_true'] at whole
      have later := ih (spared.imp_right fun none other member => none other (List.mem_cons_of_mem _ member)) whole.2
      cases hit : key.matches packet with
      | true =>
          rw [List.filter_cons_of_neg (by simp [hit])]
          exact later
      | false =>
          rw [List.filter_cons_of_pos (by simp [hit])]
          simp only [wholeStreams, Bool.and_eq_true, Bool.or_eq_true, Bool.not_eq_true']
          refine ⟨whole.1.imp_right fun stream => ⟨stream.1, pagesFirst_filter ?_ stream.2⟩, later⟩
          intro page member inside
          simp only [TxPacket.inStream, Bool.and_eq_true, decide_eq_true_eq] at inside
          rcases spared with ⟨ctx, rfl⟩ | none
          · simpa [CancelKey.matches, inside.2] using hit
          · simp [none page (List.mem_cons_of_mem _ member) (by simp [TxPacket.ofStream, inside.1.1])]

end Queue

/-! ## The raw-stream fields -/

/-- `counted` are the packets in the ring or in a completion that the active stream counts. The count may be too low
after a cancellation, never too high. -/
structure RawFlow (raw : RawStream) (counted : Multiset TxPacket) (data : List TxPacket) : Prop where
  owner : raw.owner.isSome = true
  counts : raw.inflight ≤ counted.card
  busy : raw.endSeen = true → raw.inflight ≠ 0
  ends : raw.endSeen = true ∨ (∃ packet ∈ counted, packet.rawStreamEnd = true) ∨ pagesFirst raw.owner data = true

section Raw

variable {raw : RawStream} {counted : Multiset TxPacket} {data : List TxPacket} {packet : TxPacket}

/-- A stream with no page to come next has a frame in the ring. -/
theorem RawFlow.onRing (flow : RawFlow raw counted data) (none : pagesFirst raw.owner data = false) :
    ∃ packet, packet ∈ counted := by
  rcases flow.ends with seen | ⟨packet, member, -⟩ | pages
  · have some := flow.busy seen
    have counts := flow.counts
    exact Multiset.exists_mem_of_ne_zero (Multiset.card_pos.mp (by omega))
  · exact ⟨packet, member⟩
  · rw [none] at pages
    cases pages

theorem RawFlow.data_append (flow : RawFlow raw counted data) (more : List TxPacket) :
    RawFlow raw counted (data ++ more) :=
  { flow with ends := flow.ends.imp_right (Or.imp_right pagesFirst_append) }

theorem rawFlow_start {owner : Option Nat} (owned : owner.isSome = true) (pages : pagesFirst owner data = true) :
    RawFlow { active := true, owner, inflight := 1 } (packet ::ₘ counted) data where
  owner := owned
  counts := by simp
  busy := by simp
  ends := .inr (.inr pages)

theorem RawFlow.take_page {taken : TxPacket} (flow : RawFlow raw counted (packet :: data))
    (same : taken.rawStreamEnd = packet.rawStreamEnd) :
    RawFlow { raw with inflight := raw.inflight + 1 } (taken ::ₘ counted) data where
  owner := flow.owner
  counts := by
    rw [Multiset.card_cons]
    exact Nat.add_le_add_right flow.counts 1
  busy _ := Nat.succ_ne_zero _
  ends := by
    rcases flow.ends with seen | ⟨last, member, ends⟩ | pages
    · exact .inl seen
    · exact .inr (.inl ⟨last, Multiset.mem_cons_of_mem member, ends⟩)
    · simp only [pagesFirst, Bool.and_eq_true, Bool.or_eq_true] at pages
      rcases pages.2 with last | later
      · exact .inr (.inl ⟨taken, Multiset.mem_cons_self _ _, same.trans last⟩)
      · exact .inr (.inr later)

/-- The page of a refused frame goes back to the front, and the count is what it was before the page was taken. -/
theorem RawFlow.put_back {returned : TxPacket}
    (flow : RawFlow { raw with inflight := raw.inflight + 1 } (packet ::ₘ counted) data)
    (same : returned.rawStreamEnd = packet.rawStreamEnd) (page : returned.inStream raw.owner = true)
    (busy : raw.endSeen = true → raw.inflight ≠ 0) : RawFlow raw counted (returned :: data) where
  owner := flow.owner
  counts := by
    have counts := flow.counts
    rw [Multiset.card_cons] at counts
    exact Nat.le_of_succ_le_succ counts
  busy := busy
  ends := by
    rcases flow.ends with seen | ⟨last, member, ends⟩ | pages
    · exact .inl seen
    · rcases Multiset.mem_cons.mp member with rfl | inside
      · refine .inr (.inr ?_)
        simp [pagesFirst, page, same, ends]
      · exact .inr (.inl ⟨last, inside, ends⟩)
    · refine .inr (.inr ?_)
      simp only [pagesFirst, page, pages, Bool.or_true, Bool.and_true]

theorem finishRawStream_other (other : packet.rawStreamCounted = false ∨ raw.owner ≠ packet.ownerCtx)
    (active : (Path.finishRawStream raw packet).active = true) : Path.finishRawStream raw packet = raw := by
  rcases other with fresh | foreign
  · simp [Path.finishRawStream, fresh]
  · simp only [Path.finishRawStream, if_neg foreign] at active ⊢
    split
    · rfl
    · rename_i counts
      rw [if_neg counts] at active
      split
      · rfl
      · rename_i idle
        rw [if_neg idle] at active
        cases active

theorem finishRawStream_idle (idle : raw.active = false) : (Path.finishRawStream raw packet).active = false := by
  simp only [Path.finishRawStream]
  split_ifs <;> simp_all

theorem RawFlow.finish (flow : RawFlow raw (packet ::ₘ counted) data) (counts : packet.rawStreamCounted = true)
    (owner : raw.owner = packet.ownerCtx) (active : raw.active = true)
    (goesOn : (Path.finishRawStream raw packet).active = true) :
    RawFlow (Path.finishRawStream raw packet) counted data := by
  rw [finishRawStream_eq packet counts owner active] at goesOn ⊢
  split at goesOn
  · cases goesOn
  · rename_i unfinished
    rw [if_neg unfinished]
    refine ⟨flow.owner, ?_, ?_, ?_⟩
    · have counts := flow.counts
      rw [Multiset.card_cons] at counts
      exact Nat.sub_le_of_le_add counts
    · intro seen none
      exact unfinished ⟨seen, none⟩
    · rcases flow.ends with seen | ⟨last, member, ends⟩ | pages
      · exact .inl (by simp [seen])
      · rcases Multiset.mem_cons.mp member with rfl | inside
        · exact .inl (by simp [ends])
        · exact .inr (.inl ⟨last, inside, ends⟩)
      · exact .inr (.inr pages)

theorem finishRawStream_owner (active : (Path.finishRawStream raw packet).active = true) :
    (Path.finishRawStream raw packet).owner = raw.owner := by
  simp only [Path.finishRawStream] at active ⊢
  split_ifs at active ⊢ <;> rfl

/-- What the take of a packet left, when no stream is active. -/
theorem countRaw_idle {taken : RawStream} (left : taken = (countRaw raw packet).1) (idle : taken.active = false) :
    packet.rawStreamStart = false ∧ raw = taken := by
  rw [left] at idle
  cases starts : packet.rawStreamStart with
  | true => simp [countRaw, starts] at idle
  | false =>
      refine ⟨rfl, ?_⟩
      rw [left]
      by_cases own : raw.active = true ∧ packet.ownerCtx = raw.owner
      · simp [countRaw, starts, own] at idle
      · simp [countRaw, starts, own]

theorem countRaw_start (starts : packet.rawStreamStart = true) :
    countRaw raw packet =
      ({ active := true, owner := packet.ownerCtx, inflight := 1 }, { packet with rawStreamCounted := true }) := by
  simp [countRaw, starts]

theorem countRaw_page (starts : packet.rawStreamStart = false) (active : raw.active = true)
    (owner : packet.ownerCtx = raw.owner) :
    countRaw raw packet =
      ({ raw with inflight := raw.inflight + 1 }, { packet with rawStreamCounted := true }) := by
  simp [countRaw, starts, active, owner]

theorem countRaw_plain (starts : packet.rawStreamStart = false) (idle : raw.active = false) :
    countRaw raw packet = (raw, packet) := by
  simp [countRaw, starts, idle]

end Raw

/-! ## Every section -/

/-- A packet of the active stream that is being posted, and what the fields were before it was taken. -/
structure StreamPost (raw : RawStream) (post : Posting) (data : List TxPacket) : Prop where
  queue : post.fromControlQueue = false
  counted : post.packet.rawStreamCounted = true
  owner : post.packet.ownerCtx = raw.owner
  start : post.packet.rawStreamStart = true → post.oldRaw.active = false ∧ pagesFirst raw.owner data = true
  page : post.packet.rawStreamStart = false → post.oldRaw.active = true ∧ post.oldRaw.owner = raw.owner ∧
    post.packet.zcopy = true ∧ (post.oldRaw.endSeen = true → post.oldRaw.inflight ≠ 0)

theorem StreamPost.data_append {raw : RawStream} {post : Posting} {data : List TxPacket}
    (streams : StreamPost raw post data) (more : List TxPacket) : StreamPost raw post (data ++ more) :=
  { streams with start := fun starts => (streams.start starts).imp_right pagesFirst_append }

namespace TxView

/-- The packets that the active stream counts, with the one that is being posted. -/
def streamed (v : TxView) : Multiset TxPacket :=
  ((v.posting.elim 0 fun post => post.packet.countedIn) + v.counted).filter fun packet => packet.ownerCtx = v.raw.owner

/-- The fields are as the take of the packet left them. -/
def AsTaken (v : TxView) (post : Posting) : Prop := v.raw = (countRaw post.oldRaw post.packet).1

structure Flowing (v : TxView) : Prop where
  up : v.posting ≠ none → v.enabled
  control : ∀ packet ∈ v.control, packet.rawStreamStart = false
  data : wholeStreams v.data = true
  flow : v.raw.active = true → RawFlow v.raw v.streamed v.data
  posting : v.raw.active = true → ∀ post, v.posting = some post → StreamPost v.raw post v.data

variable {v : TxView} {packet : TxPacket} {packets rest : List TxPacket} {post : Posting}

theorem streamed_free (free : v.posting = none) :
    v.streamed = v.counted.filter fun packet => packet.ownerCtx = v.raw.owner := by
  rw [streamed, free, Option.elim_none, Multiset.zero_add]

theorem streamed_posting (posting : v.posting = some post) (counted : post.packet.rawStreamCounted = true)
    (owner : post.packet.ownerCtx = v.raw.owner) :
    v.streamed = post.packet ::ₘ v.counted.filter fun packet => packet.ownerCtx = v.raw.owner := by
  rw [streamed, posting, Option.elim_some, TxPacket.countedIn, if_pos counted, Multiset.singleton_add]
  exact Multiset.filter_cons_of_pos v.counted owner

namespace Flowing

theorem of_idle (up : v.posting ≠ none → v.enabled) (control : ∀ packet ∈ v.control, packet.rawStreamStart = false)
    (data : wholeStreams v.data = true) (idle : v.raw.active = false) : v.Flowing where
  up := up
  control := control
  data := data
  flow active := absurd (idle.symm.trans active) Bool.false_ne_true
  posting active := absurd (idle.symm.trans active) Bool.false_ne_true

theorem queueControl (flowing : v.Flowing) (plain : packet.rawStreamStart = false) :
    Flowing { v with control := v.control ++ [packet] } where
  up := flowing.up
  control := by
    intro other member
    rcases List.mem_append.mp member with old | own
    · exact flowing.control other old
    · rw [List.mem_singleton.mp own]
      exact plain
  data := flowing.data
  flow := flowing.flow
  posting := flowing.posting

theorem queueData (flowing : v.Flowing) (whole : wholeStreams packets = true) :
    Flowing { v with data := v.data ++ packets } where
  up := flowing.up
  control := flowing.control
  data := wholeStreams_append flowing.data whole
  flow active := (flowing.flow active).data_append packets
  posting active post here := (flowing.posting active post here).data_append packets

theorem takeControl (flowing : v.Flowing) (up : v.enabled) (queue : v.control = packet :: rest)
    {taken : TxPacket} (same : taken.bare = packet.bare) (idle : v.raw.active = false) :
    Flowing
      { v with
        control := rest
        raw := (countRaw v.raw taken).1
        posting := some { packet := (countRaw v.raw taken).2, fromControlQueue := true, oldRaw := v.raw } } := by
  have plain : taken.rawStreamStart = false :=
    (bare_congr TxPacket.rawStreamStart (fun _ => rfl) same).trans (flowing.control packet (by simp [queue]))
  rw [countRaw_plain plain idle]
  refine of_idle (fun _ => up) ?_ flowing.data idle
  intro other member
  exact flowing.control other (by simp [queue, member])

theorem takeData (flowing : v.Flowing) (free : v.posting = none) (up : v.enabled) (queue : v.data = packet :: rest)
    {taken : TxPacket} (same : taken.bare = packet.bare)
    (allowed : v.raw.active = true → packet.inStream v.raw.owner = true) :
    Flowing
      { v with
        data := rest
        raw := (countRaw v.raw taken).1
        posting := some { packet := (countRaw v.raw taken).2, fromControlQueue := false, oldRaw := v.raw } } := by
  have whole := flowing.data
  rw [queue] at whole
  simp only [wholeStreams, Bool.and_eq_true, Bool.or_eq_true, Bool.not_eq_true'] at whole
  have starts : taken.rawStreamStart = packet.rawStreamStart := bare_congr TxPacket.rawStreamStart (fun _ => rfl) same
  have ends : taken.rawStreamEnd = packet.rawStreamEnd := bare_congr TxPacket.rawStreamEnd (fun _ => rfl) same
  have owner : taken.ownerCtx = packet.ownerCtx := bare_congr TxPacket.ownerCtx (fun _ => rfl) same
  have zcopy : taken.zcopy = packet.zcopy := bare_congr TxPacket.zcopy (fun _ => rfl) same
  cases active : v.raw.active with
  | true =>
      have page := allowed active
      have flow := flowing.flow active
      rw [queue] at flow
      simp only [TxPacket.inStream, Bool.and_eq_true, Bool.not_eq_true', decide_eq_true_eq] at page
      obtain ⟨⟨inPlace, later⟩, own⟩ := page
      rw [countRaw_page (starts.trans later) active (owner.trans own)]
      refine ⟨fun _ => up, flowing.control, whole.2, ?_, ?_⟩
      · intro _
        rw [streamed_posting rfl rfl (owner.trans own), ← streamed_free free]
        exact flow.take_page ends
      · rintro _ _ ⟨⟩
        exact ⟨rfl, rfl, owner.trans own, fun begins => absurd (begins.symm.trans (starts.trans later)) Bool.noConfusion,
          fun _ => ⟨active, rfl, zcopy.trans inPlace, flow.busy⟩⟩
  | false =>
      cases begins : packet.rawStreamStart with
      | true =>
          obtain ⟨owned, pages⟩ := whole.1.resolve_left (by simp [begins])
          rw [← owner] at owned pages
          rw [countRaw_start (starts.trans begins)]
          refine ⟨fun _ => up, flowing.control, whole.2, ?_, ?_⟩
          · intro _
            rw [streamed_posting rfl rfl rfl]
            exact rawFlow_start owned pages
          · rintro _ _ ⟨⟩
            exact ⟨rfl, rfl, rfl, fun _ => ⟨active, pages⟩,
              fun later => absurd (later.symm.trans (starts.trans begins)) Bool.noConfusion⟩
      | false =>
          rw [countRaw_plain (starts.trans begins) active]
          exact of_idle (fun _ => up) flowing.control whole.2 active

theorem hand (flowing : v.Flowing) (posting : v.posting = some post) :
    Flowing { v with posting := none, counted := post.packet.countedIn + v.counted } where
  up := fun away => absurd rfl away
  control := flowing.control
  data := flowing.data
  flow active := by
    have same : streamed { v with posting := none, counted := post.packet.countedIn + v.counted } = v.streamed := by
      simp [streamed, posting]
    rw [same]
    exact flowing.flow active
  posting := by
    intro _ other here
    cases here

theorem putBackControl (flowing : v.Flowing) (posting : v.posting = some post) (left : v.AsTaken post)
    (control : post.fromControlQueue = true) {returned : TxPacket} (same : returned.bare = post.packet.bare) :
    Flowing { v with posting := none, raw := post.oldRaw, control := returned :: v.control } := by
  have idle : v.raw.active = false := by
    by_contra active
    have streams := flowing.posting (by simpa using active) post posting
    exact absurd (streams.queue.symm.trans control) Bool.false_ne_true
  obtain ⟨plain, old⟩ := countRaw_idle left idle
  have idle : post.oldRaw.active = false := old ▸ idle
  refine of_idle (absurd rfl) ?_ flowing.data idle
  intro other member
  rcases List.mem_cons.mp member with rfl | member
  · exact (bare_congr TxPacket.rawStreamStart (fun _ => rfl) same).trans plain
  · exact flowing.control other member

theorem putBackData (flowing : v.Flowing) (posting : v.posting = some post) (left : v.AsTaken post)
    {returned : TxPacket} (same : returned.bare = post.packet.bare) :
    Flowing { v with posting := none, raw := post.oldRaw, data := returned :: v.data } := by
  have starts : returned.rawStreamStart = post.packet.rawStreamStart :=
    bare_congr TxPacket.rawStreamStart (fun _ => rfl) same
  have ends : returned.rawStreamEnd = post.packet.rawStreamEnd := bare_congr TxPacket.rawStreamEnd (fun _ => rfl) same
  have owner : returned.ownerCtx = post.packet.ownerCtx := bare_congr TxPacket.ownerCtx (fun _ => rfl) same
  have zcopy : returned.zcopy = post.packet.zcopy := bare_congr TxPacket.zcopy (fun _ => rfl) same
  have away {raw : RawStream} (idle : raw.active = false) (whole : wholeStreams (returned :: v.data) = true) :
      Flowing { v with posting := none, raw, data := returned :: v.data } :=
    of_idle (absurd rfl) flowing.control whole idle
  cases active : v.raw.active with
  | false =>
      obtain ⟨plain, old⟩ := countRaw_idle left active
      refine away (old ▸ active) ?_
      simp [wholeStreams, starts, plain, flowing.data]
  | true =>
      have streams := flowing.posting active post posting
      have flow := flowing.flow active
      cases begins : post.packet.rawStreamStart with
      | true =>
          obtain ⟨idle, pages⟩ := streams.start begins
          refine away idle ?_
          have owned := flow.owner
          rw [← streams.owner, ← owner] at owned pages
          simp [wholeStreams, owned, pages, flowing.data]
      | false =>
          obtain ⟨goes, own, inPlace, busy⟩ := streams.page begins
          have counted := countRaw_page begins goes (streams.owner.trans own.symm)
          have raw : v.raw = { post.oldRaw with inflight := post.oldRaw.inflight + 1 } :=
            left.trans (congrArg Prod.fst counted)
          refine ⟨fun away => absurd rfl away, flowing.control, ?_, ?_, fun _ _ here => by cases here⟩
          · simp [wholeStreams, starts, begins, flowing.data]
          · intro _
            rw [streamed_posting posting streams.counted streams.owner, raw] at flow
            rw [streamed_free rfl]
            refine flow.put_back ends ?_ busy
            simp [TxPacket.inStream, zcopy, inPlace, starts, begins, owner, streams.owner, own]

theorem lose (flowing : v.Flowing) (posting : v.posting = some post) (left : v.AsTaken post)
    (unowned : post.packet.ownerCtx = none) : Flowing { v with posting := none, raw := post.oldRaw } := by
  have idle : v.raw.active = false := by
    by_contra active
    have active : v.raw.active = true := by simpa using active
    have owned := (flowing.flow active).owner
    rw [← (flowing.posting active post posting).owner, unowned] at owned
    cases owned
  obtain ⟨-, old⟩ := countRaw_idle left idle
  have idle : post.oldRaw.active = false := old ▸ idle
  exact of_idle (absurd rfl) flowing.control flowing.data idle

theorem finish (flowing : v.Flowing) {counted : Multiset TxPacket} (counts : packet.rawStreamCounted = true)
    (found : v.counted = packet ::ₘ counted) :
    Flowing { v with raw := Path.finishRawStream v.raw packet, counted } := by
  have before (active : (Path.finishRawStream v.raw packet).active = true) : v.raw.active = true := by
    by_contra idle
    have idle : v.raw.active = false := by simpa using idle
    exact absurd ((finishRawStream_idle idle).symm.trans active) Bool.false_ne_true
  refine ⟨flowing.up, flowing.control, flowing.data, ?_, ?_⟩
  · intro active
    have flow := flowing.flow (before active)
    have same := finishRawStream_owner active
    by_cases owner : v.raw.owner = packet.ownerCtx
    · have here : v.streamed =
          packet ::ₘ streamed { v with raw := Path.finishRawStream v.raw packet, counted } := by
        simp only [streamed, same, found, Multiset.add_cons]
        exact Multiset.filter_cons_of_pos _ owner.symm
      rw [here] at flow
      exact flow.finish counts owner (before active) active
    · have here : v.streamed = streamed { v with raw := Path.finishRawStream v.raw packet, counted } := by
        simp only [streamed, same, found, Multiset.add_cons]
        exact Multiset.filter_cons_of_neg _ (Ne.symm owner)
      rw [← here, finishRawStream_other (.inr owner) active]
      exact flow
  · intro active post here
    have streams := flowing.posting (before active) post here
    have same := finishRawStream_owner active
    exact ⟨streams.queue, streams.counted, streams.owner.trans same.symm, fun starts => same ▸ streams.start starts,
      fun starts => same ▸ streams.page starts⟩

/-- A cancellation that ends the active stream. -/
theorem cancelRaw (flowing : v.Flowing) {key : CancelKey} {counted : Multiset TxPacket} {posting : Option Posting}
    (spared : (∃ ctx, key = .owner ctx) ∨ ∀ packet ∈ v.data, packet.ofStream = true → key.matches packet = false)
    (away : v.posting = none → posting = none) :
    Flowing { v with data := v.data.filter fun packet => !key.matches packet, raw := {}, posting, counted } := by
  refine of_idle ?_ flowing.control (wholeStreams_filter spared flowing.data) rfl
  intro here
  exact flowing.up fun none => here (away none)

/-- A cancellation that leaves the active stream alone. -/
theorem cancelOther (flowing : v.Flowing) {key : CancelKey} {counted : Multiset TxPacket} {posting : Option Posting}
    (spared : (∃ ctx, key = .owner ctx) ∨ ∀ packet ∈ v.data, packet.ofStream = true → key.matches packet = false)
    (away : v.posting = none → posting = none)
    (pages : v.raw.active = true → ∀ packet ∈ v.data, packet.inStream v.raw.owner = true → key.matches packet = false)
    (held : v.raw.active = true → posting = v.posting)
    (kept : v.raw.active = true → (counted.filter fun packet => packet.ownerCtx = v.raw.owner) =
      v.counted.filter fun packet => packet.ownerCtx = v.raw.owner) :
    Flowing { v with data := v.data.filter fun packet => !key.matches packet, posting, counted } where
  up here := flowing.up fun none => here (away none)
  control := flowing.control
  data := wholeStreams_filter spared flowing.data
  flow active := by
    have flow := flowing.flow active
    have same : streamed { v with data := v.data.filter fun packet => !key.matches packet, posting, counted } =
        v.streamed := by
      simp only [streamed, Multiset.filter_add, held active, kept active]
    rw [same]
    refine { flow with ends := flow.ends.imp_right (Or.imp_right fun first => pagesFirst_filter ?_ first) }
    intro page member inside
    rw [pages active page member inside, Bool.not_false]
  posting active post here := by
    have streams := flowing.posting active post ((held active).symm.trans here)
    refine { streams with
      start := fun starts => (streams.start starts).imp_right fun first => pagesFirst_filter ?_ first }
    intro page member inside
    rw [pages active page member inside, Bool.not_false]

end Flowing

end TxView

/-! ## Every step -/

/-- The raw-stream fields are as the thread that posts a frame left them when it took the packet. -/
def Path.rawAsTaken (p : Path) : Bool :=
  match p.scheduler with
  | .posting packet _ _ oldRaw _ => p.txRawStream = ({ p with txRawStream := oldRaw }.countRawStream packet).1
  | _ => true

/-- Streams are queued whole, and only a full ring refuses a frame, while the fields that are written back are still
right. A cancellation of a READ request finds no packet of a stream. -/
def TxThreads.keepsStreams (s : TxThreads) : TxAction → Bool
  | .disableTunnel | .flush => false
  | .enqueue what => what.units.all isUnit
  | .post (some error) => error = .eNoMem && s.path.rawAsTaken
  | .cancel (.done ctx) _ =>
      (s.path.txDataQueue ++ s.path.txPosted ++ s.path.scheduler.packet?.toList).all fun packet =>
        !((packet.ofStream || packet.rawStreamCounted) && packet.done = some ctx)
  | _ => true

namespace TxThreads

variable {s t : TxThreads}

theorem flowing_started (cfg : PathConfig) : (TxThreads.started cfg).view.Flowing := by
  apply TxView.Flowing.of_idle (absurd rfl) ?_ rfl rfl
  intro packet member
  cases member

theorem flowing_enqueue (flowing : s.view.Flowing) {what : Enqueue} (fresh : what.fresh = true)
    (whole : what.units.all isUnit = true) : (s.enqueue what).view.Flowing := by
  simp only [enqueue]
  cases queued : s.path.enqueue what with
  | error error => exact flowing
  | ok path =>
      show ({ s with path } : TxThreads).view.Flowing
      rcases TxWire.enqueue_cases fresh queued with ⟨packet, plain, -, -, view⟩ | ⟨packets, same, -, view⟩
      · rw [view]
        apply flowing.queueControl
        simp only [TxPacket.ofStream, Bool.or_eq_false_iff] at plain
        exact plain.2
      · rw [view]
        apply flowing.queueData
        rw [← wholeStreams_bare, same, wholeStreams_bare]
        exact wholeStreams_flatten (List.all_eq_true.mp whole)

theorem flowing_take (flowing : s.view.Flowing) (limit : Nat) (looping : s.path.scheduler = .looping) :
    (s.take limit).view.Flowing := by
  rcases TxWire.scheduleTake_cases s.path limit with stopped | ⟨packet, fromControlQueue, selected, taken⟩
  · rw [TxWire.view_stopped looping stopped]
    exact flowing
  · have free : s.view.posting = none := by simp [view, looping, Scheduler.posting?]
    obtain ⟨fromControl, fromData⟩ := TxWire.selectTx_raw selected
    have up := TxWire.selectTx_up selected
    rw [TxWire.view_taken taken]
    rcases LinkEnd.selectTx_head selected with ⟨rfl, rest, queue⟩ | ⟨rfl, rest, queue⟩
    · simp only [queue, List.tail_cons, if_true]
      exact flowing.takeControl up queue rfl (fromControl rfl)
    · simp only [queue, List.tail_cons, Bool.false_eq_true, if_false]
      exact flowing.takeData free up queue rfl (fromData rfl)

theorem flowing_refused (inv : s.Inv) (flowing : s.view.Flowing) {packet : TxPacket} {fromControlQueue charged : Bool}
    {oldRaw : RawStream} {oldStart : Nat}
    (posting : s.path.scheduler = .posting packet fromControlQueue charged oldRaw oldStart)
    (left : s.path.rawAsTaken = true) :
    (s.refused packet fromControlQueue charged oldRaw oldStart .eNoMem).view.Flowing := by
  have post : s.view.posting = some { packet, fromControlQueue, oldRaw } := by
    simp [view, posting, Scheduler.posting?]
  have left : s.view.AsTaken { packet, fromControlQueue, oldRaw } := by
    simp only [Path.rawAsTaken, posting, decide_eq_true_eq] at left
    exact left
  rw [TxWire.view_refused inv posting]
  cases requeued : s.path.requeues packet .eNoMem with
  | false =>
      have up : s.path.state = .tunnelEnabled := flowing.up (by simp [post])
      exact flowing.lose post left (TxWire.requeues_stream rfl up requeued)
  | true =>
      cases control : fromControlQueue with
      | true =>
          rw [control] at post left
          exact flowing.putBackControl post left rfl rfl
      | false =>
          rw [control] at post left
          exact flowing.putBackData post left rfl

/-- The packets that the active stream counts, of those in the ring and in completions. -/
theorem ring_streamed (posted completing : List TxPacket) (owner : Option Nat) :
    (((posted : Multiset TxPacket) + completing).filter fun packet => packet.rawStreamCounted = true).filter
        (fun packet => packet.ownerCtx = owner) =
      (posted.filter fun packet => packet.rawStreamCounted && packet.ownerCtx = owner : Multiset TxPacket) +
        (completing.filter fun packet => packet.rawStreamCounted && packet.ownerCtx = owner : Multiset TxPacket) := by
  simp [Bool.and_comm]

theorem flowing_cancel (flowing : s.view.Flowing) (key : CancelKey) (visible : Bool)
    (kept : s.keepsStreams (.cancel key visible) = true) : (s.cancel key visible).view.Flowing := by
  have spared : (∃ ctx, key = .owner ctx) ∨
      ∀ packet ∈ s.path.txDataQueue ++ s.path.txPosted ++ s.path.scheduler.packet?.toList,
        (packet.ofStream || packet.rawStreamCounted) = true → key.matches packet = false := by
    cases key with
    | owner ctx => exact .inl ⟨ctx, rfl⟩
    | done ctx =>
        refine .inr fun packet member part => ?_
        have other := List.all_eq_true.mp kept packet member
        simpa [part, CancelKey.matches] using other
  have queued : (∃ ctx, key = .owner ctx) ∨
      ∀ packet ∈ s.path.txDataQueue, packet.ofStream = true → key.matches packet = false :=
    spared.imp_right fun none packet member part => none packet (by simp [member]) (by simp [part])
  have held := TxWire.held_touched s.path key visible
  have away : s.view.posting = none → (s.path.cancelDataMatch key visible).1.scheduler.posting? = none := by
    intro free
    rcases held with same | ⟨post, here, -⟩
    · exact same.trans free
    · exact absurd (here.symm.trans free) (Option.some_ne_none _)
  rw [TxWire.view_cancel]
  cases raw : s.path.rawStreamCanceled key with
  | true => exact flowing.cancelRaw queued away
  | false =>
      have missed (active : s.path.txRawStream.active = true) (packet : TxPacket)
          (member : packet ∈ s.path.txDataQueue ++ s.path.txPosted ++ s.path.scheduler.packet?.toList)
          (owner : packet.ownerCtx = s.path.txRawStream.owner)
          (part : (packet.ofStream || packet.rawStreamCounted) = true) : key.matches packet = false := by
        rcases spared with ⟨ctx, rfl⟩ | none
        · simpa [CancelKey.matches, owner, Path.rawStreamCanceled, active] using raw
        · exact none packet member part
      refine flowing.cancelOther queued away ?_ ?_ ?_
      · intro active packet member inside
        simp only [TxPacket.inStream, Bool.and_eq_true, decide_eq_true_eq] at inside
        have member : packet ∈ s.path.txDataQueue := member
        exact missed active packet (by simp [member]) inside.2 (by simp [TxPacket.ofStream, inside.1.1])
      · intro active
        rcases held with same | ⟨post, here, hit, -⟩
        · exact same
        · have streams := flowing.posting active post here
          have member : s.path.scheduler.packet? = some post.packet := by
            cases scheduler : s.path.scheduler with
            | idle | looping | releasing => simp [scheduler, Scheduler.posting?] at here
            | posting packet fromControlQueue charged oldRaw oldStart =>
                simp only [scheduler, Scheduler.posting?, Option.some.injEq] at here
                rw [← here]
                rfl
          have passed := missed active post.packet (by simp [member]) streams.owner (by simp [streams.counted])
          exact absurd (passed.symm.trans hit) Bool.false_ne_true
      · intro active
        have owned := (flowing.flow active).owner
        have same := TxWire.filter_touched
          (fun packet => packet.rawStreamCounted && packet.ownerCtx = s.path.txRawStream.owner)
          (fun packet _ => by
            have other : none ≠ s.path.txRawStream.owner := by
              intro none
              have owned : s.path.txRawStream.owner.isSome = true := owned
              rw [← none] at owned
              cases owned
            simp [other])
          (TxWire.posted_touched s.path key visible) fun packet member counts => by
            simp only [Bool.and_eq_true, decide_eq_true_eq] at counts
            exact missed active packet (by simp [member]) counts.2 (by simp [counts.1])
        have ring (posted : List TxPacket) := ring_streamed posted s.completing s.path.txRawStream.owner
        refine (ring _).trans (Eq.trans ?_ (ring _).symm)
        rw [same]

theorem flowing_step (inv : s.Inv) (flowing : s.view.Flowing) {limit : Nat} {action : TxAction}
    (kept : s.keepsStreams action = true) (stepped : s.step limit action = some t) : t.view.Flowing := by
  have still (same : t.view = s.view) : t.view.Flowing := by
    rw [same]
    exact flowing
  cases action with
  | disableTunnel | flush => cases kept
  | enableTunnel =>
      simp only [step] at stepped
      split at stepped
      · cases stepped
        exact ⟨fun _ => rfl, flowing.control, flowing.data, flowing.flow, flowing.posting⟩
      · cases stepped
  | enqueue what =>
      simp only [step] at stepped
      split at stepped
      · rename_i fresh
        cases stepped
        exact flowing_enqueue flowing fresh kept
      · cases stepped
  | reserve frames =>
      simp only [step] at stepped
      split at stepped
      · cases stepped
        exact flowing
      · rename_i path reserved
        cases stepped
        obtain rfl := reserveData_eq reserved
        exact flowing
  | addCredits credits =>
      cases stepped
      obtain ⟨received, path, -⟩ := addRemoteRxCredits_eq s.path credits
      apply still
      simp only [addCredits, path, view]
  | release frames | setCapacity rxRingSize =>
      cases stepped
      exact flowing
  | schedule =>
      simp only [step, Path.scheduleEnter] at stepped
      split at stepped
      · cases stepped
      cases stepped
      apply still
      split
      · rename_i idle
        simp [view, idle, Scheduler.posting?]
      · rfl
  | take =>
      simp only [step] at stepped
      split at stepped
      · rename_i looping
        cases stepped
        exact flowing_take flowing limit looping
      · cases stepped
  | post error =>
      simp only [step, post] at stepped
      split at stepped
      · rename_i packet fromControlQueue charged oldRaw oldStart posting
        cases error with
        | none =>
            cases stepped
            have post : s.view.posting = some { packet, fromControlQueue, oldRaw } := by
              simp [view, posting, Scheduler.posting?]
            rw [TxWire.view_posted]
            exact flowing.hand post
        | some error =>
            cases stepped
            simp only [keepsStreams, Bool.and_eq_true, decide_eq_true_eq] at kept
            obtain ⟨rfl, left⟩ := kept
            exact flowing_refused inv flowing posting left
      · cases stepped
  | aborted =>
      simp only [step, aborted] at stepped
      split at stepped
      · cases stepped
      · cases stepped
        exact flowing
  | drop =>
      simp only [step, drop] at stepped
      split at stepped
      · cases stepped
      · cases stepped
        exact flowing
      · cases stepped
        exact flowing
  | released =>
      simp only [step, released] at stepped
      split at stepped
      · rename_i releasing
        cases stepped
        apply still
        simp [view, releasing.1, Scheduler.posting?]
      · cases stepped
  | complete i => exact still (TxWire.follows_complete (w := { threads := s }) stepped)
  | finish i =>
      rcases TxWire.view_finish stepped with same | ⟨packet, counted, counts, found, after⟩
      · exact still same
      · rw [after]
        exact flowing.finish counts found
  | leave =>
      simp only [step, leave] at stepped
      split at stepped
      · cases stepped
      · cases stepped
        exact flowing
  | cancel key visible =>
      cases stepped
      exact flowing_cancel flowing key visible kept
  | releasePacket i =>
      obtain ⟨packet, -, rfl⟩ := Option.map_eq_some_iff.mp stepped
      exact flowing
  | callOwed i =>
      obtain ⟨ctx, -, rfl⟩ := Option.map_eq_some_iff.mp stepped
      exact flowing

/-- The stream that is active comes to its end. -/
def StreamEnds (s : TxThreads) : Prop := s.view.Flowing

theorem streamEnds_reachable {cfg : PathConfig} {limit : Nat}
    (reachable : (txSystem cfg limit).ReachableVia (fun s action => s.keepsStreams action = true) s) :
    s.StreamEnds := by
  refine reachable.invariant_with (fun _ reached => inv_reachable reached.reachable) ?_ ?_
  · rintro s rfl
    exact flowing_started cfg
  · intro s action t inv flowing kept stepped
    exact flowing_step inv flowing kept stepped

end TxThreads

end ThunderboltVerbs.DataPath
