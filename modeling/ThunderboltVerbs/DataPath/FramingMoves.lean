import ThunderboltVerbs.DataPath.Framing

/-!
# Moves that break no raw stream (`kernel/path.c`)
-/

namespace ThunderboltVerbs.DataPath
open Proto Lib

/-! ## Moves -/

namespace Framed

variable {v : TxView} {ring control : List WireFrame} {data : List (List WireFrame)} {g : Progress}

theorem up (framed : Framed v ring control [] g) (queue : v.data = []) (posting : v.posting = none)
    (counted : v.counted = 0) (raw : v.raw = {}) : Framed { v with enabled := True } ring control [] g := by
  have nothing : g.units = [] := by
    have none := (List.append_eq_nil_iff.mp (List.sublist_nil.mp framed.dataOrder)).2
    exact List.map_eq_nil_iff.mp none
  have cut := framed.cut
  rw [nothing] at cut
  obtain ⟨closed, coming⟩ := cut.of_nil
  refine { framed with tail := ?_, raw := ?_ }
  · intro _
    show g.tail = v.data.map TxPacket.bare
    rw [queue]
    exact (List.append_eq_nil_iff.mp coming).2
  · intro _
    show TxView.RawOk { v with enabled := True } g.opened
    simp only [TxView.RawOk, posting, counted, raw, closed]
    exact rawOk_idle

theorem down {fewer : List TxPacket} (framed : Framed v ring control data g) (sub : fewer.Sublist v.control)
    (queue : List TxPacket) (raw : RawStream) :
    Framed { v with enabled := False, control := fewer, data := queue, raw } ring control data g where
  woven := framed.woven
  ring := framed.ring
  controlOrder := by
    refine List.Sublist.trans ?_ framed.controlOrder
    exact (List.Sublist.refl _).append (((List.Sublist.refl _).append sub).map _)
  dataOrder := framed.dataOrder
  cut := framed.cut
  units := framed.units
  between := framed.between
  plain packet member := framed.plain packet (sub.subset member)
  tail := False.elim
  raw := False.elim

theorem queueControl (framed : Framed v ring control data g) {packet : TxPacket} (plain : packet.ofStream = false) :
    Framed { v with control := v.control ++ [packet] } ring (control ++ [packet.frame]) data g := by
  refine { framed with controlOrder := ?_, plain := ?_ }
  · have grown := framed.controlOrder.append (List.Sublist.refl [packet.frame])
    rw [List.append_assoc] at grown
    rw [show framesOf (v.postingFrom true ++ v.control) ++ [packet.frame] =
      framesOf (v.postingFrom true ++ (v.control ++ [packet])) by simp [framesOf]] at grown
    exact grown
  · intro other member
    rcases List.mem_append.mp member with member | member
    · exact framed.plain other member
    · rw [List.mem_singleton.mp member]
      exact plain

theorem queueData (framed : Framed v ring control data g) {packets : List TxPacket} {units : List (List TxPacket)}
    (whole : ∀ unit ∈ units, isUnit unit = true) (same : packets.map TxPacket.bare = units.flatten) :
    Framed { v with data := v.data ++ packets } ring control (data ++ units.map framesOf)
      { g with tail := g.tail ++ units.flatten, units := g.units ++ units } := by
  refine { framed with dataOrder := ?_, cut := ?_, units := ?_, tail := ?_ }
  · have grown := framed.dataOrder.append (List.Sublist.refl (units.map framesOf))
    rwa [List.append_assoc, ← List.map_append] at grown
  · have grown := framed.cut.append units
    rwa [List.append_assoc] at grown
  · intro unit member
    exact (List.mem_append.mp member).elim (framed.units unit) (whole unit)
  · intro enabled
    show g.tail ++ units.flatten = (v.data ++ packets).map TxPacket.bare
    rw [List.map_append, framed.tail enabled, same]

theorem unit_ne_nil (framed : Framed v ring control data g) : ∀ unit ∈ g.units, unit ≠ [] :=
  fun unit member => isUnit_ne_nil (framed.units unit member)

theorem takeControl (framed : Framed v ring control data g) {packet taken : TxPacket} {rest : List TxPacket}
    (free : v.posting = none) (enabled : v.enabled) (queue : v.control = packet :: rest)
    (same : taken.bare = packet.bare) (uncounted : taken.rawStreamCounted = false) (idle : v.raw.active = false) :
    Framed
      { v with
        control := rest
        raw := (countRaw v.raw taken).1
        posting := some { packet := (countRaw v.raw taken).2, fromControlQueue := true, oldRaw := v.raw } }
      ring control data g := by
  have raw := framed.raw enabled
  simp only [TxView.RawOk, free] at raw
  have plain : taken.ofStream = false := by
    rw [bare_congr TxPacket.ofStream (fun _ => rfl) same]
    exact framed.plain packet (by rw [queue]; exact List.mem_cons_self)
  have closed := raw.opened_nil idle
  obtain ⟨unchanged, counted⟩ := raw.count_plain idle plain uncounted
  rw [unchanged]
  refine { framed with controlOrder := ?_, cut := ?_, between := ?_, plain := ?_, raw := ?_ }
  · have order := framed.controlOrder
    simp only [TxView.postingFrom, free, queue] at order
    have frame : taken.frame = packet.frame := bare_congr TxPacket.frame (fun _ => rfl) same
    simpa [TxView.postingFrom, framesOf, TxPacket.bare, frame] using order
  · have cut := framed.cut
    simp only [TxView.postingFrom, free] at cut
    simpa [TxView.postingFrom] using cut
  · intro post posting _
    cases posting
    exact ⟨closed, plain⟩
  · intro other member
    exact framed.plain other (by rw [queue]; exact List.mem_cons_of_mem _ member)
  · intro _
    exact ⟨raw, counted⟩

theorem takeData (framed : Framed v ring control data g) {packet taken : TxPacket} {rest : List TxPacket}
    (free : v.posting = none) (enabled : v.enabled) (queue : v.data = packet :: rest) (same : taken.bare = packet.bare)
    (uncounted : taken.rawStreamCounted = false) (allowed : v.raw.active = true → packet.inStream v.raw.owner = true) :
    Framed
      { v with
        data := rest
        raw := (countRaw v.raw taken).1
        posting := some { packet := (countRaw v.raw taken).2, fromControlQueue := false, oldRaw := v.raw } }
      ring control data { g with tail := rest.map TxPacket.bare } := by
  have raw := framed.raw enabled
  simp only [TxView.RawOk, free] at raw
  have coming : g.tail = packet.bare :: rest.map TxPacket.bare := by rw [framed.tail enabled, queue, List.map_cons]
  have cut := framed.cut
  simp only [TxView.postingFrom, free, List.nil_append, coming] at cut
  have face : (countRaw v.raw taken).2.bare = packet.bare := by
    rw [← same]
    unfold countRaw
    extract_lets raw
    split <;> rfl
  obtain ⟨later, units, here, -⟩ := cut.next framed.unit_ne_nil
  have unit := framed.units _ (by rw [here]; exact List.mem_cons_self)
  have counted : DataPath.RawOk (countRaw v.raw taken).1 ((countRaw v.raw taken).2.countedIn + v.counted)
      (openedAfter g.opened (countRaw v.raw taken).2) := by
    have grown : openedAfter g.opened (countRaw v.raw taken).2 = openedAfter g.opened taken := by
      simp only [openedAfter, bare_congr TxPacket.ofStream (fun _ => rfl) (face.trans same.symm)]
      rw [show (countRaw v.raw taken).2.rawStreamEnd = taken.rawStreamEnd from
        bare_congr TxPacket.rawStreamEnd (fun _ => rfl) (face.trans same.symm), face, same]
    rw [grown]
    cases active : v.raw.active with
    | true =>
        have page := allowed active
        have within : g.opened ≠ [] := by
          intro closed
          rw [closed, List.nil_append] at unit
          simp only [isUnit, Bool.and_eq_true, Bool.not_eq_true'] at unit
          have zcopy : packet.zcopy = true := by
            simp only [TxPacket.inStream, Bool.and_eq_true] at page
            exact page.1.1
          exact Bool.false_ne_true (unit.1.symm.trans zcopy)
        apply raw.count_page within
        rwa [show taken.inStream v.raw.owner = packet.inStream v.raw.owner from
          bare_congr (TxPacket.inStream v.raw.owner) (fun _ => rfl) same]
    | false =>
        have closed := raw.opened_nil active
        rw [closed, List.nil_append] at unit
        rw [closed] at raw ⊢
        cases part : taken.ofStream with
        | false =>
            obtain ⟨unchanged, ok⟩ := raw.count_plain active part uncounted
            rw [unchanged]
            exact ok
        | true =>
            simp only [isUnit, Bool.and_eq_true, Bool.not_eq_true'] at unit
            obtain ⟨staged, shape⟩ := unit
            have starts : packet.bare.rawStreamStart = true := by
              have other : packet.bare.ofStream = true :=
                (bare_congr TxPacket.ofStream (fun _ => rfl) same).symm.trans part
              simpa [TxPacket.ofStream, staged] using other
            simp only [starts, if_true, Bool.and_eq_true, Bool.not_eq_true'] at shape
            exact raw.count_start active ((bare_congr TxPacket.rawStreamStart (fun _ => rfl) same).trans starts)
              ((bare_congr TxPacket.rawStreamEnd (fun _ => rfl) same).trans shape.1.1)
  refine { framed with controlOrder := ?_, cut := ?_, between := ?_, tail := ?_, raw := ?_ }
  · have order := framed.controlOrder
    simp only [TxView.postingFrom, free] at order
    simpa [TxView.postingFrom] using order
  · simp only [TxView.postingFrom, if_true, face]
    exact cut
  · intro post posting fromControl
    cases posting
    cases fromControl
  · intro _
    rfl
  · intro _
    exact ⟨raw, counted⟩

theorem handControl (framed : Framed v ring control data g) {post : Posting} (posting : v.posting = some post)
    (fromControl : post.fromControlQueue = true) :
    Framed { v with posting := none, counted := post.packet.countedIn + v.counted } (ring ++ [post.packet.frame])
      control data
      { g with whole := g.whole ++ [post.packet.frame], controlOut := g.controlOut ++ [post.packet.frame] } := by
  obtain ⟨closed, plain⟩ := framed.between post posting fromControl
  refine
    { woven := ?_, ring := ?_, controlOrder := ?_, dataOrder := framed.dataOrder, cut := ?_, units := framed.units,
      between := ?_, plain := framed.plain, tail := framed.tail, raw := ?_ }
  · simp only [List.map_append, List.map_cons, List.map_nil]
    exact framed.woven.left _
  · rw [framed.ring, closed]
    simp [framesOf]
  · have order := framed.controlOrder
    simp only [TxView.postingFrom, posting, fromControl, if_true] at order
    simpa [TxView.postingFrom, framesOf, TxPacket.bare] using order
  · have cut := framed.cut
    simp only [TxView.postingFrom, posting, fromControl] at cut
    simpa [TxView.postingFrom] using cut
  · intro other here
    cases here
  · intro enabled
    have raw := framed.raw enabled
    simp only [TxView.RawOk, posting, openedAfter, plain] at raw
    exact raw.2

theorem handData (framed : Framed v ring control data g) {post : Posting} (posting : v.posting = some post)
    (fromData : post.fromControlQueue = false) :
    ∃ g', Framed { v with posting := none, counted := post.packet.countedIn + v.counted } (ring ++ [post.packet.frame])
      control data g' := by
  have cut := framed.cut
  simp only [TxView.postingFrom, posting, fromData, if_true, List.cons_append, List.nil_append] at cut
  obtain ⟨rest, later, here, coming⟩ := cut.next framed.unit_ne_nil
  have unit := framed.units _ (by rw [here]; exact List.mem_cons_self)
  have order := framed.controlOrder
  simp only [TxView.postingFrom, posting, fromData] at order
  have raw : v.enabled → DataPath.RawOk v.raw (post.packet.countedIn + v.counted) (openedAfter g.opened post.packet) := by
    intro enabled
    have ok := framed.raw enabled
    simp only [TxView.RawOk, posting] at ok
    exact ok.2
  have grown : openedAfter g.opened post.packet.bare = openedAfter g.opened post.packet := rfl
  obtain ⟨shape, -⟩ := unit_step (bare_bare _) unit
  rw [grown] at shape
  rcases shape with ⟨rfl, closed⟩ | ⟨more, longer⟩
  · refine ⟨{ g with
      whole := g.whole ++ framesOf (g.opened ++ [post.packet.bare])
      dataOut := g.dataOut ++ [framesOf (g.opened ++ [post.packet.bare])]
      opened := []
      units := later }, ?_⟩
    refine
      { woven := framed.woven.right _, ring := ?_, controlOrder := by simpa [TxView.postingFrom] using order,
        dataOrder := ?_, cut := ?_, units := ?_, between := by simp, plain := framed.plain, tail := framed.tail, raw := ?_ }
    · rw [framed.ring]
      simp [framesOf, TxPacket.bare]
    · have sent := framed.dataOrder
      rw [here, List.map_cons] at sent
      simpa using sent
    · show Cut [] g.tail later
      rw [coming]
      exact .between later
    · intro other member
      exact framed.units other (by rw [here]; exact List.mem_cons_of_mem _ member)
    · intro enabled
      have ok := raw enabled
      rw [closed] at ok
      exact ok
  · refine ⟨{ g with opened := g.opened ++ [post.packet.bare] }, ?_⟩
    refine
      { framed with
        ring := ?_, controlOrder := by simpa [TxView.postingFrom] using order, cut := ?_, between := by simp, raw := ?_ }
    · rw [framed.ring]
      simp [framesOf, TxPacket.bare]
    · show Cut (g.opened ++ [post.packet.bare]) g.tail g.units
      rw [here, coming, show g.opened ++ post.packet.bare :: rest = g.opened ++ [post.packet.bare] ++ rest from
        List.append_cons _ _ _]
      exact .within _ rest later more
    · intro enabled
      have ok := raw enabled
      rw [longer] at ok
      exact ok

theorem putBackControl (framed : Framed v ring control data g) {post : Posting} {packet : TxPacket}
    (posting : v.posting = some post) (fromControl : post.fromControlQueue = true) (same : packet.bare = post.packet.bare) :
    Framed { v with posting := none, raw := post.oldRaw, control := packet :: v.control } ring control data g := by
  obtain ⟨-, plain⟩ := framed.between post posting fromControl
  refine { framed with controlOrder := ?_, cut := ?_, between := by simp, plain := ?_, raw := ?_ }
  · have order := framed.controlOrder
    simp only [TxView.postingFrom, posting, fromControl, if_true] at order
    have frame : packet.frame = post.packet.frame := bare_congr TxPacket.frame (fun _ => rfl) same
    simpa [TxView.postingFrom, framesOf, TxPacket.bare, frame] using order
  · have cut := framed.cut
    simp only [TxView.postingFrom, posting, fromControl] at cut
    simpa [TxView.postingFrom] using cut
  · intro other member
    rcases List.mem_cons.mp member with rfl | member
    · exact (bare_congr TxPacket.ofStream (fun _ => rfl) same).trans plain
    · exact framed.plain other member
  · intro enabled
    have raw := framed.raw enabled
    simp only [TxView.RawOk, posting] at raw
    exact raw.1

/-- Without the packet that was being posted from the data queue, the packet comes again from the queue. -/
theorem putBack (framed : Framed v ring control data g) {post : Posting} (posting : v.posting = some post)
    (fromData : post.fromControlQueue = false) (queue : List TxPacket)
    (same : v.enabled → queue.map TxPacket.bare = post.packet.bare :: v.data.map TxPacket.bare) :
    Framed { v with posting := none, raw := post.oldRaw, data := queue } ring control data
      { g with tail := post.packet.bare :: g.tail } := by
  refine { framed with controlOrder := ?_, cut := ?_, between := by simp, tail := ?_, raw := ?_ }
  · have order := framed.controlOrder
    simp only [TxView.postingFrom, posting, fromData] at order
    simpa [TxView.postingFrom] using order
  · have cut := framed.cut
    simp only [TxView.postingFrom, posting, fromData, if_true] at cut
    simpa [TxView.postingFrom] using cut
  · intro enabled
    show post.packet.bare :: g.tail = queue.map TxPacket.bare
    rw [framed.tail enabled, same enabled]
  · intro enabled
    have raw := framed.raw enabled
    simp only [TxView.RawOk, posting] at raw
    exact raw.1

theorem loseControl (framed : Framed v ring control data g) {post : Posting} (posting : v.posting = some post)
    (fromControl : post.fromControlQueue = true) :
    Framed { v with posting := none, raw := post.oldRaw } ring control data g := by
  refine { framed with controlOrder := ?_, cut := ?_, between := by simp, raw := ?_ }
  · refine List.Sublist.trans ?_ framed.controlOrder
    apply (List.Sublist.refl _).append
    exact (List.sublist_append_right _ v.control).map _
  · have cut := framed.cut
    simp only [TxView.postingFrom, posting, fromControl] at cut
    simpa [TxView.postingFrom] using cut
  · intro enabled
    have raw := framed.raw enabled
    simp only [TxView.RawOk, posting] at raw
    exact raw.1

theorem loseData (framed : Framed v ring control data g) {post : Posting} (posting : v.posting = some post)
    (fromData : post.fromControlQueue = false)
    (unowned : v.enabled → post.packet.ofStream = true → post.packet.ownerCtx = none) :
    ∃ g', Framed { v with posting := none, raw := post.oldRaw } ring control data g' := by
  by_cases enabled : v.enabled
  · have cut := framed.cut
    simp only [TxView.postingFrom, posting, fromData, if_true, List.cons_append, List.nil_append] at cut
    obtain ⟨rest, later, here, coming⟩ := cut.next framed.unit_ne_nil
    have unit := framed.units _ (by rw [here]; exact List.mem_cons_self)
    obtain ⟨shape, alone⟩ := unit_step (bare_bare _) unit
    have plain : post.packet.ofStream = false := by
      by_contra! part
      have owned := unit_owner unit (show post.packet.bare.ofStream = true by simpa using part)
      rw [show post.packet.bare.ownerCtx = none from unowned enabled (by simpa using part)] at owned
      cases owned
    have closed : g.opened = [] := alone plain
    have only : rest = [] := by
      rcases shape with ⟨nil, -⟩ | ⟨-, grown⟩
      · exact nil
      · simp [openedAfter, plain] at grown
    have raw := framed.raw enabled
    simp only [TxView.RawOk, posting] at raw
    refine ⟨{ g with units := later }, ?_⟩
    refine
      { framed with
        controlOrder := ?_, dataOrder := ?_, cut := ?_, units := ?_, between := by simp, raw := fun _ => raw.1 }
    · have order := framed.controlOrder
      simp only [TxView.postingFrom, posting, fromData] at order
      simpa [TxView.postingFrom] using order
    · refine List.Sublist.trans ?_ framed.dataOrder
      rw [here, List.map_cons]
      exact (List.Sublist.refl _).append (List.sublist_cons_self _ _)
    · show Cut g.opened g.tail later
      rw [closed, coming, only]
      exact .between later
    · intro other member
      exact framed.units other (by rw [here]; exact List.mem_cons_of_mem _ member)
  · exact ⟨_, framed.putBack posting fromData v.data (fun up => absurd up enabled)⟩

theorem finish (framed : Framed v ring control data g) {packet : TxPacket} {counted : Multiset TxPacket}
    (counts : packet.rawStreamCounted = true) (found : v.counted = packet ::ₘ counted) :
    Framed { v with raw := Path.finishRawStream v.raw packet, counted } ring control data g := by
  refine { framed with raw := ?_ }
  intro enabled
  have raw := framed.raw enabled
  cases posting : v.posting with
  | none =>
      simp only [TxView.RawOk, posting, found] at raw ⊢
      exact raw.finish counts
  | some post =>
      simp only [TxView.RawOk, posting, found, Multiset.add_cons] at raw ⊢
      exact ⟨raw.1.mono, raw.2.finish counts⟩

/-- The packets that a cancellation spares stay, and of the units that are not begun it takes whole ones. -/
theorem cancelTail {key : CancelKey} (spares : v.Spares key) (rest : List TxPacket) {later : List (List TxPacket)}
    (queue : v.data.map TxPacket.bare = rest ++ later.flatten) (units : ∀ unit ∈ later, isUnit unit = true)
    (ofRaw : ∀ packet ∈ rest, v.raw.active = true ∧ packet.ownerCtx = v.raw.owner ∧ packet.ofStream = true) :
    ∃ kept : List (List TxPacket), kept.Sublist later ∧
      (v.data.filter fun packet => !key.matches packet).map TxPacket.bare = rest ++ kept.flatten := by
  have blind : ((fun packet => !key.matches packet) ∘ TxPacket.bare) = fun packet => !key.matches packet := by
    funext packet
    simp
  have filtered : (v.data.filter fun packet => !key.matches packet).map TxPacket.bare =
      (v.data.map TxPacket.bare).filter fun packet => !key.matches packet := by
    rw [List.filter_map, blind]
  have queued : ∀ packet ∈ v.data.map TxPacket.bare, (∃ ctx, key = .owner ctx) ∨
      (packet.ofStream = true → key.matches packet = false) := by
    intro packet member
    obtain ⟨old, inside, rfl⟩ := List.mem_map.mp member
    cases spares with
    | owner ctx => exact .inl ⟨ctx, rfl⟩
    | done _ data => exact .inr fun part => (matches_bare key old).trans (data old inside part)
  have stays : (rest.filter fun packet => !key.matches packet) = rest := by
    apply List.filter_eq_self.mpr
    intro packet member
    obtain ⟨active, owner, part⟩ := ofRaw packet member
    have member' : packet ∈ v.data.map TxPacket.bare := by
      rw [queue]
      exact List.mem_append_left _ member
    cases spares with
    | owner ctx other => simp [CancelKey.matches, owner, other active]
    | done _ data =>
        obtain ⟨old, inside, rfl⟩ := List.mem_map.mp member'
        simp [data old inside part]
  have uniform : ∀ unit ∈ later, (unit.filter fun packet => !key.matches packet) = unit ∨
      (unit.filter fun packet => !key.matches packet) = [] := by
    intro unit member
    apply unit_uniform (units unit member)
    by_cases owned : ∃ ctx, key = .owner ctx
    · exact .inl owned
    · right
      intro packet inside
      apply (queued packet ?_).resolve_left owned
      rw [queue]
      exact List.mem_append_right _ (List.mem_flatten.mpr ⟨unit, member, inside⟩)
  obtain ⟨kept, sub, same⟩ := filter_flatten_of_uniform uniform
  refine ⟨kept, sub, ?_⟩
  rw [filtered, queue, List.filter_append, stays, same]

theorem page_of_raw {raw : RawStream} {counted : Multiset TxPacket} {opened rest : List TxPacket}
    (ok : DataPath.RawOk raw counted opened) (within : opened ≠ []) (unit : isUnit (opened ++ rest) = true) :
    ∀ packet ∈ rest, raw.active = true ∧ packet.ownerCtx = raw.owner ∧ packet.ofStream = true := by
  intro packet member
  obtain ⟨first, here⟩ := List.exists_mem_of_ne_nil opened within
  obtain ⟨active, owner, -⟩ := ok.opened first here
  rcases unit_shape unit with ⟨only, alone⟩ | ⟨shared, stream⟩
  · have long := congrArg List.length alone
    have some := List.length_pos_of_mem here
    have more := List.length_pos_of_mem member
    simp only [List.length_append, List.length_singleton] at long
    omega
  · obtain ⟨-, same⟩ := stream first (List.mem_append_left _ here)
    obtain ⟨part, other⟩ := stream packet (List.mem_append_right _ member)
    exact ⟨active, other.trans (same.symm.trans owner), part⟩

/-- Either no unit is begun, or what is queued first is the rest of the stream that is active. -/
theorem split (framed : Framed v ring control data g) (enabled : v.enabled) :
    (g.opened = [] ∧ v.postingFrom false = [] ∧ g.tail = g.units.flatten) ∨
      ∃ rest later, g.units = (g.opened ++ (v.postingFrom false ++ rest)) :: later ∧ g.tail = rest ++ later.flatten ∧
        v.postingFrom false ++ rest ≠ [] ∧
        ∀ packet ∈ rest, v.raw.active = true ∧ packet.ownerCtx = v.raw.owner ∧ packet.ofStream = true := by
  have cut := framed.cut
  have raw := framed.raw enabled
  have away : v.postingFrom false = [] → (∃ counted, DataPath.RawOk v.raw counted g.opened) →
      (g.opened = [] ∧ v.postingFrom false = [] ∧ g.tail = g.units.flatten) ∨
        ∃ rest later, g.units = (g.opened ++ (v.postingFrom false ++ rest)) :: later ∧ g.tail = rest ++ later.flatten ∧
          v.postingFrom false ++ rest ≠ [] ∧
          ∀ packet ∈ rest, v.raw.active = true ∧ packet.ownerCtx = v.raw.owner ∧ packet.ofStream = true := by
    rintro none ⟨counted, ok⟩
    rw [none, List.nil_append] at cut
    rcases cut.split with ⟨closed, coming⟩ | ⟨rest, later, unfinished, here, coming⟩
    · exact .inl ⟨closed, none, coming⟩
    · by_cases closed : g.opened = []
      · exact .inl ⟨closed, none, by rw [here, coming, closed, List.nil_append, List.flatten_cons]⟩
      · refine .inr ⟨rest, later, by rw [here, none, List.nil_append], coming, by simpa [none] using unfinished, ?_⟩
        exact page_of_raw ok closed (framed.units _ (by rw [here]; exact List.mem_cons_self))
  cases posting : v.posting with
  | none =>
      simp only [TxView.RawOk, posting] at raw
      exact away (by simp [TxView.postingFrom, posting]) ⟨_, raw⟩
  | some post =>
      simp only [TxView.RawOk, posting] at raw
      cases source : post.fromControlQueue with
      | true =>
          have plain := (framed.between post posting source).2
          simp only [openedAfter, plain] at raw
          exact away (by simp [TxView.postingFrom, posting, source]) ⟨_, raw.2⟩
      | false =>
          have from_data : v.postingFrom false = [post.packet.bare] := by simp [TxView.postingFrom, posting, source]
          rw [from_data, List.cons_append, List.nil_append] at cut
          obtain ⟨rest, later, here, coming⟩ := cut.next framed.unit_ne_nil
          have unit := framed.units _ (by rw [here]; exact List.mem_cons_self)
          refine .inr ⟨rest, later, by rw [here, from_data]; rfl, coming, by simp [from_data], ?_⟩
          have grown : openedAfter g.opened post.packet.bare = openedAfter g.opened post.packet := rfl
          obtain ⟨shape, -⟩ := unit_step (bare_bare _) unit
          rw [grown] at shape
          rcases shape with ⟨rfl, -⟩ | ⟨-, longer⟩
          · simp
          · apply page_of_raw raw.2
            · simp [longer]
            · rwa [longer, ← List.append_cons]

theorem cancelQueue (framed : Framed v ring control data g) (enabled : v.enabled) {key : CancelKey}
    (spares : v.Spares key) :
    ∃ g', Framed { v with data := v.data.filter fun packet => !key.matches packet } ring control data g' := by
  have queue := framed.tail enabled
  have raw := framed.raw enabled
  rcases framed.split enabled with ⟨closed, away, coming⟩ | ⟨rest, later, here, coming, unfinished, ofRaw⟩
  · obtain ⟨kept, fewer, filtered⟩ := cancelTail spares [] (queue.symm.trans coming) framed.units (by simp)
    refine ⟨{ g with tail := kept.flatten, units := kept }, ?_⟩
    refine
      { framed with
        dataOrder := ?_, cut := ?_, units := fun unit member => framed.units unit (fewer.subset member),
        tail := fun _ => filtered.symm, raw := fun _ => raw }
    · exact ((List.Sublist.refl _).append (fewer.map _)).trans framed.dataOrder
    · show Cut g.opened (v.postingFrom false ++ kept.flatten) kept
      rw [closed, away]
      exact .between kept
  · obtain ⟨kept, fewer, filtered⟩ := cancelTail spares rest (queue.symm.trans coming)
      (fun unit member => framed.units unit (by rw [here]; exact List.mem_cons_of_mem _ member)) ofRaw
    have sub : ((g.opened ++ (v.postingFrom false ++ rest)) :: kept).Sublist g.units := by
      rw [here]
      exact fewer.cons_cons _
    refine ⟨{ g with tail := rest ++ kept.flatten, units := (g.opened ++ (v.postingFrom false ++ rest)) :: kept }, ?_⟩
    refine
      { framed with
        dataOrder := ?_, cut := ?_, units := fun unit member => framed.units unit (sub.subset member),
        tail := fun _ => filtered.symm, raw := fun _ => raw }
    · exact ((List.Sublist.refl _).append (sub.map _)).trans framed.dataOrder
    · show Cut g.opened (v.postingFrom false ++ (rest ++ kept.flatten)) _
      rw [← List.append_assoc]
      exact .within _ _ kept unfinished

theorem openedAfter_plain {opened : List TxPacket} {packet : TxPacket} (plain : packet.ofStream = false) :
    openedAfter opened packet = opened := by
  simp [openedAfter, plain]

/-- The packet that is being posted is none of a stream, and lost its callback. -/
theorem repost (framed : Framed v ring control data g) {post : Posting} {packet : TxPacket}
    (posting : v.posting = some post) (plain : post.packet.ofStream = false) (plain' : packet.ofStream = false)
    (frame : packet.frame = post.packet.frame) (counting : packet.rawStreamCounted = post.packet.rawStreamCounted) :
    ∃ g', Framed { v with posting := some { post with packet } } ring control data g' := by
  have raw : v.enabled → TxView.RawOk { v with posting := some { post with packet } } g.opened := by
    intro enabled
    have ok := framed.raw enabled
    simp only [TxView.RawOk, posting] at ok ⊢
    have uncounted : post.packet.rawStreamCounted = false := by
      by_contra! counts
      have member : post.packet ∈ post.packet.countedIn + v.counted := by simp [TxPacket.countedIn, counts]
      exact Bool.false_ne_true (plain.symm.trans (ok.2.each _ member).2.2)
    rw [openedAfter_plain plain] at ok
    rw [openedAfter_plain plain']
    simpa [TxPacket.countedIn, counting, uncounted] using ok
  cases source : post.fromControlQueue with
  | true =>
      refine ⟨g, { framed with controlOrder := ?_, cut := ?_, between := ?_, raw := raw }⟩
      · have order := framed.controlOrder
        simp only [TxView.postingFrom, posting, source, if_true] at order
        simpa [TxView.postingFrom, source, framesOf, TxPacket.bare, frame] using order
      · have cut := framed.cut
        simp only [TxView.postingFrom, posting, source] at cut
        simpa [TxView.postingFrom, source] using cut
      · intro other here fromControl
        cases here
        exact ⟨(framed.between post posting source).1, plain'⟩
  | false =>
      have cut := framed.cut
      simp only [TxView.postingFrom, posting, source, if_true, List.cons_append, List.nil_append] at cut
      obtain ⟨rest, later, here, coming⟩ := cut.next framed.unit_ne_nil
      obtain ⟨shape, alone⟩ := unit_step (bare_bare _) (framed.units _ (by rw [here]; exact List.mem_cons_self))
      have closed : g.opened = [] := alone plain
      have only : rest = [] := by
        rcases shape with ⟨nil, -⟩ | ⟨-, grown⟩
        · exact nil
        · rw [openedAfter_plain (show post.packet.bare.ofStream = false from plain)] at grown
          simp at grown
      refine ⟨{ g with units := [packet.bare] :: later }, ?_⟩
      refine
        { framed with
          controlOrder := ?_, dataOrder := ?_, cut := ?_, units := ?_, between := ?_, raw := raw }
      · have order := framed.controlOrder
        simp only [TxView.postingFrom, posting, source] at order
        simpa [TxView.postingFrom, source] using order
      · have order := framed.dataOrder
        rw [here, closed, only] at order
        simpa [framesOf, TxPacket.bare, frame] using order
      · simp only [TxView.postingFrom, if_true]
        rw [closed, coming, only]
        exact .within [] [packet.bare] later (by simp)
      · intro unit member
        rcases List.mem_cons.mp member with rfl | member
        · simp only [TxPacket.ofStream, Bool.or_eq_false_iff] at plain'
          simp [isUnit, TxPacket.bare, plain'.1, plain'.2]
        · exact framed.units unit (by rw [here]; exact List.mem_cons_of_mem _ member)
      · intro other here fromControl
        cases here
        cases fromControl

theorem cancel (framed : Framed v ring control data g) {key : CancelKey} {counted : Multiset TxPacket}
    {posting : Option Posting} (spares : v.Spares key)
    (kept : (∀ packet ∈ v.counted, key.matches packet = false) → counted = v.counted)
    (held : posting = v.posting ∨ ∃ post, v.posting = some post ∧ key.matches post.packet = true ∧
      posting = some { post with packet := { post.packet with done := none, ownerCtx := none } }) :
    ∃ g', Framed { v with data := v.data.filter fun packet => !key.matches packet, posting, counted } ring control
      data g' := by
  have queued : ∃ g', Framed { v with data := v.data.filter fun packet => !key.matches packet, counted } ring control
      data g' := by
    by_cases enabled : v.enabled
    · have unmatched : ∀ packet ∈ v.counted, key.matches packet = false := by
        intro packet member
        have counts : v.raw.active = true ∧ packet.ownerCtx = v.raw.owner ∧ packet.ofStream = true := by
          have raw := framed.raw enabled
          cases posting : v.posting with
          | none =>
              simp only [TxView.RawOk, posting] at raw
              exact raw.each packet member
          | some post =>
              simp only [TxView.RawOk, posting] at raw
              exact raw.2.each packet (Multiset.mem_add.mpr (.inr member))
        cases spares with
        | owner ctx other => simp [CancelKey.matches, counts.2.1, other counts.1]
        | done _ _ counted => exact counted packet member counts.2.2
      rw [kept unmatched]
      exact framed.cancelQueue enabled spares
    · exact ⟨g, { framed with tail := fun up => absurd up enabled, raw := fun up => absurd up enabled }⟩
  obtain ⟨g', framed'⟩ := queued
  rcases held with rfl | ⟨post, here, hit, rfl⟩
  · exact ⟨g', framed'⟩
  · have plain : post.packet.ofStream = false := by
      by_contra! part
      cases spares with
      | owner ctx _ posting => exact posting post here (by simpa using part) (by simpa [CancelKey.matches] using hit)
      | done _ _ _ posting => exact Bool.false_ne_true ((posting post here (by simpa using part)).symm.trans hit)
    exact framed'.repost here plain plain rfl rfl

end Framed

/-- Every step keeps the frames on the ring whole units and the beginning of one. -/
theorem TxView.Moves.framed {v v' : TxView} {event : TxEvent} (moves : v.Moves event v') {ring control : List WireFrame}
    {data : List (List WireFrame)} {g : Progress} (framed : Framed v ring control data g)
    (fresh : event = .opens → data = []) :
    ∃ g', Framed v' (ring ++ event.ring) (control ++ event.control) (data ++ event.data) g' := by
  cases moves with
  | same => exact ⟨g, by simpa [TxEvent.ring, TxEvent.control, TxEvent.data] using framed⟩
  | up queue posting counted raw =>
      obtain rfl := fresh rfl
      exact ⟨g, by simpa [TxEvent.ring, TxEvent.control, TxEvent.data] using framed.up queue posting counted raw⟩
  | down fewer => exact ⟨g, by simpa [TxEvent.ring, TxEvent.control, TxEvent.data] using framed.down fewer _ _⟩
  | queueControl plain => exact ⟨g, by simpa [TxEvent.ring, TxEvent.control, TxEvent.data] using framed.queueControl plain⟩
  | queueData whole same =>
      exact ⟨_, by simpa [TxEvent.ring, TxEvent.control, TxEvent.data] using framed.queueData whole same⟩
  | takeControl free enabled queue same uncounted idle =>
      exact ⟨g, by simpa [TxEvent.ring, TxEvent.control, TxEvent.data] using
        framed.takeControl free enabled queue same uncounted idle⟩
  | takeData free enabled queue same uncounted allowed =>
      exact ⟨_, by simpa [TxEvent.ring, TxEvent.control, TxEvent.data] using
        framed.takeData free enabled queue same uncounted allowed⟩
  | @hand post posting =>
      simp only [TxEvent.ring, TxEvent.control, TxEvent.data, List.append_nil]
      cases source : post.fromControlQueue with
      | true => exact ⟨_, framed.handControl posting source⟩
      | false => exact framed.handData posting source
  | putBackControl posting control same =>
      exact ⟨g, by simpa [TxEvent.ring, TxEvent.control, TxEvent.data] using framed.putBackControl posting control same⟩
  | putBackData posting data same =>
      have queue := framed.putBack posting data (_ :: v.data) fun _ => by rw [List.map_cons, same]
      exact ⟨_, by simpa [TxEvent.ring, TxEvent.control, TxEvent.data] using queue⟩
  | @lose post posting unowned =>
      simp only [TxEvent.ring, TxEvent.control, TxEvent.data, List.append_nil]
      cases source : post.fromControlQueue with
      | true => exact ⟨g, framed.loseControl posting source⟩
      | false => exact framed.loseData posting source unowned
  | finish counts found =>
      exact ⟨g, by simpa [TxEvent.ring, TxEvent.control, TxEvent.data] using framed.finish counts found⟩
  | cancel spares kept held =>
      simp only [TxEvent.ring, TxEvent.control, TxEvent.data, List.append_nil]
      exact framed.cancel spares kept held

end ThunderboltVerbs.DataPath
