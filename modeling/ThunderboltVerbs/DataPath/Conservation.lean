import ThunderboltVerbs.DataPath.Credit

/-!
# Every step keeps the credit balance
-/

namespace ThunderboltVerbs.DataPath
open Proto Lib

/-- The steps under which the balance is kept: no READ status frame is sent, and a PATH_CREDIT frame
that the ring refuses goes back to the queue. -/
def LinkEnd.conserves (e : LinkEnd) : EndAction → Bool
  | .emit emission _ => !emission.isReadStatus
  | .post (some error) =>
      match e.path.scheduler with
      | .posting packet _ _ _ _ => creditOf packet.frame = 0 || e.path.requeues packet error
      | _ => true
  | _ => true

def Link.conserves (link : Link) : LinkAction → Bool
  | .local side action => (link side).conserves action
  | .deliver _ _ => true

namespace LinkEnd

variable {window : Nat} {e e' : LinkEnd}

def Kept (window : Nat) (e e' : LinkEnd) : Prop :=
  e'.Inv window ∧ e'.held = e.held ∧ e'.owed = e.owed

theorem Inv.kept_self (inv : e.Inv window) : Kept window e e := ⟨inv, rfl, rfl⟩

theorem Inv.emitted {path : Path} (inv : e.Inv window) (queued : EmissionQueued e.path path) :
    Kept window e { e with path := path } := by
  obtain ⟨data, control, ⟨controlFree, controlQueued, dataQueued, dataReserved, rfl⟩, dataOk, controlOk⟩ :=
    queued
  have free : tally (fun packet : TxPacket => creditOf packet.frame) control = 0 :=
    tally_eq_zero fun packet member => (controlOk packet member).2.2
  refine ⟨{ inv with data := ?_, control := ?_ }, rfl, ?_⟩
  · intro packet member
    rcases List.mem_append.mp member with old | new
    · exact inv.data packet old
    · exact dataOk packet new
  · intro packet member
    rcases List.mem_append.mp member with old | new
    · exact inv.control packet old
    · exact ⟨(controlOk packet new).1, (controlOk packet new).2.1⟩
  · simp [owed, free]

theorem Inv.emit {emission : Emission} {alloc : Bool} (inv : e.Inv window)
    (plain : emission.isReadStatus = false) :
    Kept window e (e.keep (e.path.emit emission alloc)) := by
  cases sent : e.path.emit emission alloc with
  | error error => exact inv.kept_self
  | ok path => exact inv.emitted (emit_queued sent plain)

theorem Inv.reserve (inv : e.Inv window) (frames : Nat) :
    Kept window e (e.keep (e.path.reserveData frames)) := by
  unfold Path.reserveData
  split
  · exact inv.kept_self
  · split
    · exact inv.kept_self
    · split
      · exact inv.kept_self
      · exact ⟨{ inv with }, rfl, rfl⟩

theorem Inv.schedule (inv : e.Inv window) : Kept window e { e with path := e.path.scheduleEnter } := by
  unfold Path.scheduleEnter
  split
  · rename_i idle
    refine ⟨{ inv with scheduler := trivial }, ?_, ?_⟩
    · simp [held, idle, Scheduler.chargedCount]
    · simp [owed, idle, Scheduler.creditCount]
  · exact inv.kept_self

/-! ## The scheduler -/

theorem selectTx_head {p : Path} {packet : TxPacket} {fromControlQueue : Bool}
    (selected : p.selectTx = some (packet, fromControlQueue)) :
    (fromControlQueue = true ∧ ∃ rest, p.txControlQueue = packet :: rest) ∨
      (fromControlQueue = false ∧ ∃ rest, p.txDataQueue = packet :: rest) := by
  unfold Path.selectTx at selected
  split at selected
  · cases selected
  · split at selected
    · split at selected
      · cases selected
      · split at selected
        · cases selected
        · rename_i first rest queue _
          cases selected
          exact .inr ⟨rfl, rest, queue⟩
    · split at selected
      · rename_i first rest queue
        cases selected
        exact .inl ⟨rfl, rest, queue⟩
      · cases queue : p.txDataQueue with
        | nil => simp [queue] at selected
        | cons first rest =>
            simp only [queue, List.head?_cons, Option.map_some, Option.some.injEq, Prod.mk.injEq]
              at selected
            obtain ⟨rfl, rfl⟩ := selected
            exact .inr ⟨rfl, rest, rfl⟩

@[simp] theorem countRawStream_frame (p : Path) (packet : TxPacket) :
    (p.countRawStream packet).2.frame = packet.frame := by
  unfold Path.countRawStream
  extract_lets raw
  split <;> rfl

@[simp] theorem countRawStream_control (p : Path) (packet : TxPacket) :
    (p.countRawStream packet).2.control = packet.control := by
  unfold Path.countRawStream
  extract_lets raw
  split <;> rfl

theorem Inv.chargesCredit (inv : e.Inv window) (packet : TxPacket) :
    e.path.chargesCredit packet = !packet.control := by
  have positive := inv.positive
  simp [Path.chargesCredit, inv.creditMax]
  omega

theorem Inv.stop (inv : e.Inv window) (looping : e.path.scheduler = .looping) :
    Kept window e { e with path := { e.path with scheduler := .idle } } := by
  refine ⟨{ inv with scheduler := trivial }, ?_, ?_⟩
  · simp [held, looping, Scheduler.chargedCount]
  · simp [owed, looping, Scheduler.creditCount]

theorem Inv.takeTx {packet : TxPacket} {fromControlQueue : Bool} (inv : e.Inv window)
    (looping : e.path.scheduler = .looping)
    (selected : e.path.selectTx = some (packet, fromControlQueue))
    (allowed : e.path.creditAllows packet = true) :
    Kept window e { e with path := e.path.takeTx packet fromControlQueue } := by
  have charges := inv.chargesCredit packet
  rcases selectTx_head selected with ⟨rfl, rest, queue⟩ | ⟨rfl, rest, queue⟩
  · obtain ⟨control, ok⟩ := inv.control packet (queue ▸ List.mem_cons_self)
    refine ⟨{ inv with control := ?_, scheduler := ?_ }, ?_, ?_⟩
    · intro other member
      simp only [Path.takeTx, queue, if_true, List.tail_cons] at member
      exact inv.control other (queue ▸ List.mem_cons_of_mem _ member)
    · exact ⟨by simp [charges], by simpa [PacketOk] using ok⟩
    · simp [held, Path.takeTx, looping, charges, control, Scheduler.chargedCount]
    · simp only [owed, Path.takeTx, looping, queue, Scheduler.creditCount, countRawStream_frame,
        if_true, List.tail_cons, tally_cons]
      omega
  · obtain ⟨control, ok⟩ := inv.data packet (queue ▸ List.mem_cons_self)
    have free : creditOf packet.frame = 0 := by
      simp only [PacketOk, control, FrameOk] at ok
      exact creditOf_dataFrame ok
    have credit : 1 ≤ e.path.txRemoteDataCredits := by
      simp only [Path.creditAllows, charges, control, Bool.not_false, Bool.not_true, Bool.false_or,
        decide_eq_true_eq] at allowed
      omega
    refine ⟨{ inv with data := ?_, scheduler := ?_ }, ?_, ?_⟩
    · intro other member
      simp only [Path.takeTx, queue, List.tail_cons] at member
      exact inv.data other (queue ▸ List.mem_cons_of_mem _ member)
    · exact ⟨by simp [charges], by simpa [PacketOk] using ok⟩
    · simp [held, Path.takeTx, looping, charges, control, Scheduler.chargedCount]
      omega
    · simp [owed, Path.takeTx, looping, free, Scheduler.creditCount]

theorem Inv.take (inv : e.Inv window) (looping : e.path.scheduler = .looping)
    (nativeTxMaxInflight : Nat) :
    Kept window e { e with path := e.path.scheduleTake nativeTxMaxInflight } := by
  unfold Path.scheduleTake
  split
  · exact inv.stop looping
  · rename_i packet fromControlQueue selected
    split
    · rename_i allowed
      exact inv.takeTx looping selected (Bool.and_eq_true_iff.mp allowed).2
    · exact inv.stop looping

theorem Inv.post_ok {packet : TxPacket} {fromControlQueue charged : Bool} {oldRaw : RawStream}
    {oldStart : Nat} (inv : e.Inv window)
    (posting : e.path.scheduler = .posting packet fromControlQueue charged oldRaw oldStart) :
    Kept window e { e with
      path := e.path.posted packet
      wire := e.wire ++ [{ frame := packet.frame, charged := charged }] } := by
  have sending := inv.scheduler
  rw [posting] at sending
  refine ⟨{ inv with scheduler := trivial, wire := ?_ }, ?_, ?_⟩
  · intro flight member
    rcases List.mem_append.mp member with old | new
    · exact inv.wire flight old
    · obtain rfl := List.mem_singleton.mp new
      simpa [PacketOk, sending.1] using sending.2
  · simp only [held, Path.posted, posting, Scheduler.chargedCount, tally_append, tally_cons, tally_nil]
    omega
  · simp only [owed, Path.posted, posting, Scheduler.creditCount, tally_append, tally_cons, tally_nil]
    omega

/-- The rollback of a refused post gives the credit back, because the window had room for it. -/
theorem Inv.post_failed {packet : TxPacket} {fromControlQueue charged : Bool} {oldRaw : RawStream}
    {oldStart : Nat} {error : Errno} (inv : e.Inv window) (bounded : e.held ≤ window)
    (posting : e.path.scheduler = .posting packet fromControlQueue charged oldRaw oldStart)
    (returns : creditOf packet.frame = 0 ∨ e.path.requeues packet error = true) :
    Kept window e { e with
      path := e.path.postFailed packet fromControlQueue charged oldRaw oldStart error } := by
  have sending := inv.scheduler
  rw [posting] at sending
  obtain ⟨same, ok⟩ := sending
  have room : charged = true → e.path.txRemoteDataCredits < e.path.txRemoteDataCreditMax := by
    intro was
    simp only [held, posting, was, Scheduler.chargedCount, Bool.toNat_true, inv.creditMax] at bounded ⊢
    omega
  have credits : (if charged = true ∧ e.path.txRemoteDataCredits < e.path.txRemoteDataCreditMax then
      e.path.txRemoteDataCredits + 1 else e.path.txRemoteDataCredits) =
        e.path.txRemoteDataCredits + charged.toNat := by
    cases charged with
    | false => simp
    | true => simp [room rfl]
  unfold Path.postFailed
  split
  · unfold Path.requeueTx
    split
    · rename_i control
      refine ⟨{ inv with control := ?_, scheduler := trivial }, ?_, ?_⟩
      · intro other member
        rcases List.mem_cons.mp member with rfl | member
        · exact ⟨control, ok⟩
        · exact inv.control other member
      · simp [held, posting, Path.rollBackPost, credits, Scheduler.chargedCount]
      · simp only [owed, posting, Path.rollBackPost, Scheduler.creditCount, tally_cons]
        omega
    · rename_i data
      simp only [Bool.not_eq_true] at data
      refine ⟨{ inv with data := ?_, scheduler := trivial }, ?_, ?_⟩
      · intro other member
        rcases List.mem_cons.mp member with rfl | member
        · exact ⟨data, ok⟩
        · exact inv.data other member
      · simp [held, posting, Path.rollBackPost, credits, Scheduler.chargedCount]
      · have free : creditOf packet.frame = 0 := by
          simp only [PacketOk, FrameOk, data] at ok
          exact creditOf_dataFrame ok
        simp [owed, posting, Path.rollBackPost, free, Scheduler.creditCount]
  · rename_i dropped
    have free : creditOf packet.frame = 0 := by
      rcases returns with free | requeued
      · exact free
      · exact absurd requeued dropped
    refine ⟨{ inv with scheduler := trivial }, ?_, ?_⟩
    · simp [held, posting, Path.dropTx, Path.rollBackPost, credits, Scheduler.chargedCount]
    · simp [owed, posting, Path.dropTx, Path.rollBackPost, free, Scheduler.creditCount]

/-! ## Receive completions -/

@[simp] theorem tally_adding_continueRx (add : Nat) (rx : List RxThread) :
    tally RxThread.adding (continueRx add rx) = add + tally RxThread.adding rx := by
  unfold continueRx
  split <;> simp [RxThread.adding, *]

@[simp] theorem tally_chargedCount_continueRx (add : Nat) (rx : List RxThread) :
    tally RxThread.chargedCount (continueRx add rx) = tally RxThread.chargedCount rx := by
  unfold continueRx
  split <;> simp [RxThread.chargedCount]

@[simp] theorem tally_returning_continueRx (add : Nat) (rx : List RxThread) :
    tally RxThread.returning (continueRx add rx) = tally RxThread.returning rx := by
  unfold continueRx
  split <;> simp [RxThread.returning]

theorem threadOk_continueRx {add : Nat} {rx : List RxThread} (ok : ∀ thread ∈ rx, ThreadOk thread) :
    ∀ thread ∈ continueRx add rx, ThreadOk thread := by
  unfold continueRx
  split
  · exact ok
  · intro thread member
    rcases List.mem_cons.mp member with rfl | member
    · trivial
    · exact ok thread member

theorem Inv.rx_eraseIdx (inv : e.Inv window) (i : Nat) : ∀ thread ∈ e.rx.eraseIdx i, ThreadOk thread :=
  fun thread member => inv.rx thread (List.eraseIdx_subset member)

theorem rx_takenOut {i : Nat} {thread : RxThread} (found : e.rx[i]? = some thread) :
    tally RxThread.adding e.rx = thread.adding + tally RxThread.adding (e.rx.eraseIdx i) ∧
    tally RxThread.chargedCount e.rx =
      thread.chargedCount + tally RxThread.chargedCount (e.rx.eraseIdx i) ∧
    tally RxThread.returning e.rx =
      thread.returning + tally RxThread.returning (e.rx.eraseIdx i) :=
  ⟨tally_eraseIdx _ found, tally_eraseIdx _ found, tally_eraseIdx _ found⟩

theorem saturatingAdd_eq {pending credits : Nat} (fits : pending + credits ≤ u32Max) :
    saturatingAdd pending credits = pending + credits := by
  unfold saturatingAdd
  split <;> omega

theorem returnRxDataCredit_spec (p : Path) (credits : Nat)
    (fits : p.rxDataCreditPending + credits ≤ u32Max) :
    ∃ pending, (p.returnRxDataCredit credits).1 = { p with rxDataCreditPending := pending } ∧
      pending + (p.returnRxDataCredit credits).2 = p.rxDataCreditPending + credits := by
  simp only [Path.returnRxDataCredit, saturatingAdd_eq fits]
  split
  · exact ⟨0, rfl, by simp⟩
  · exact ⟨_, rfl, rfl⟩

theorem Inv.repost {i : Nat} (inv : e.Inv window) (bounded : e.owed ≤ u32Max)
    (action : e.repost i = some e') : Kept window e e' := by
  unfold LinkEnd.repost at action
  split at action
  · rename_i charged returned add found
    have ok : returned = charged.toNat := inv.rx _ (List.mem_of_getElem? found)
    obtain ⟨adding, counting, returning⟩ := rx_takenOut found
    simp only [RxThread.adding, RxThread.chargedCount, RxThread.returning] at adding counting returning
    have rest := inv.rx_eraseIdx i
    split at action
    · rename_i stopped
      rcases inv.running with running | running <;> simp [running] at stopped
    · split at action
      · cases action
        refine ⟨{ inv with rx := threadOk_continueRx rest }, ?_, ?_⟩
        · simp [held, adding]
        · simp only [owed, tally_chargedCount_continueRx, tally_returning_continueRx]
          omega
      · obtain ⟨pending, path, sum⟩ := returnRxDataCredit_spec e.path returned
          (by simp only [owed] at bounded; omega)
        simp only [path] at action
        split at action
        · cases action
          refine ⟨{ inv with rx := threadOk_continueRx rest }, ?_, ?_⟩
          · simp [held, adding]
          · simp only [owed, tally_chargedCount_continueRx, tally_returning_continueRx]
            omega
        · rename_i positive
          cases action
          refine ⟨{ inv with rx := ?_ }, ?_, ?_⟩
          · intro thread member
            rcases List.mem_cons.mp member with rfl | member
            · exact positive
            · exact rest thread member
          · simp [held, adding, RxThread.adding]
          · simp only [owed, tally_cons, RxThread.chargedCount, RxThread.returning]
            omega
  · cases action

theorem pathCreditFrame_ok {send : Nat} (positive : send ≠ 0) :
    ControlFrame (Path.pathCreditFrame send) := by
  refine ⟨by simp [Path.pathCreditFrame, dataFrameSize, dataHdrSize], _, rfl, rfl, hasFlag_zero _,
    fun _ => ?_⟩
  simp [validPathCredit, positive]

theorem Inv.sendCredit {i : Nat} {alloc : Bool} (inv : e.Inv window)
    (action : e.sendCredit i alloc = some e') : Kept window e e' := by
  unfold LinkEnd.sendCredit at action
  split at action
  · rename_i send add found
    obtain ⟨adding, counting, returning⟩ := rx_takenOut found
    simp only [RxThread.adding, RxThread.chargedCount, RxThread.returning] at adding counting returning
    have positive : send ≠ 0 := inv.rx _ (List.mem_of_getElem? found)
    have rest := inv.rx_eraseIdx i
    split at action
    · rename_i path sent
      cases action
      obtain ⟨-, packet, ⟨controlFree, controlQueued, dataQueued, dataReserved, rfl⟩, control, frame⟩ :=
        enqueueControl_queued sent
      refine ⟨{ inv with data := ?_, control := ?_, rx := threadOk_continueRx rest }, ?_, ?_⟩
      · simpa using inv.data
      · intro other member
        rcases List.mem_append.mp member with old | new
        · exact inv.control other old
        · obtain rfl := List.mem_singleton.mp new
          refine ⟨control, ?_⟩
          simp only [PacketOk, control, FrameOk, frame]
          exact pathCreditFrame_ok positive
      · simp [held, adding]
      · have carried : creditOf packet.frame = send := by rw [frame]; rfl
        simp only [owed, tally_chargedCount_continueRx, tally_returning_continueRx, tally_append,
          tally_cons, tally_nil]
        omega
    · cases action
      refine ⟨{ inv with rx := ?_ }, ?_, ?_⟩
      · intro thread member
        rcases List.mem_cons.mp member with rfl | member
        · trivial
        · exact rest thread member
      · simp [held, adding, RxThread.adding]
      · simp only [owed, tally_cons, RxThread.chargedCount, RxThread.returning]
        omega
  · cases action

theorem Inv.foldBack {i : Nat} (inv : e.Inv window) (bounded : e.owed ≤ u32Max)
    (action : e.foldBack i = some e') : Kept window e e' := by
  unfold LinkEnd.foldBack at action
  split at action
  · rename_i send add found
    obtain ⟨adding, counting, returning⟩ := rx_takenOut found
    simp only [RxThread.adding, RxThread.chargedCount, RxThread.returning] at adding counting returning
    have sum : saturatingAdd e.path.rxDataCreditPending send = e.path.rxDataCreditPending + send := by
      apply saturatingAdd_eq
      simp only [owed] at bounded
      omega
    cases action
    refine ⟨{ inv with rx := threadOk_continueRx (inv.rx_eraseIdx i) }, ?_, ?_⟩
    · simp [held, adding, Path.foldBackRxCredit]
    · simp only [owed, Path.foldBackRxCredit, sum, tally_chargedCount_continueRx,
        tally_returning_continueRx]
      omega
  · cases action

theorem Inv.addCredit {i : Nat} (inv : e.Inv window) (bounded : e.held ≤ window)
    (action : e.addCredit i = some e') : Kept window e e' := by
  unfold LinkEnd.addCredit at action
  split at action
  · rename_i add found
    obtain ⟨adding, counting, returning⟩ := rx_takenOut found
    simp only [RxThread.adding, RxThread.chargedCount, RxThread.returning] at adding counting returning
    -- the window has room for what it still lacks, so nothing is cut off
    have added : e.path.addRemoteRxCredits add =
        { e.path with txRemoteDataCredits := e.path.txRemoteDataCredits + add } := by
      have room : e.path.txRemoteDataCredits + add ≤ e.path.txRemoteDataCreditMax := by
        rw [inv.creditMax]
        simp only [held] at bounded
        omega
      unfold Path.addRemoteRxCredits
      have positive := inv.positive
      rw [← inv.creditMax] at positive
      split
      · obtain rfl : add = 0 := by omega
        simp
      · split
        · congr 1
          omega
        · split
          · congr 1
            omega
          · rfl
    cases action
    rw [added]
    refine ⟨{ inv with rx := inv.rx_eraseIdx i }, ?_, ?_⟩
    · simp only [held]
      omega
    · simp only [owed]
      omega
  · cases action

theorem Inv.step {action : EndAction} (inv : e.Inv window) (holds : e.held ≤ window)
    (owes : e.owed ≤ u32Max) (allowed : e.conserves action = true)
    (next : e.step action = some e') : Kept window e e' := by
  cases action with
  | enableTunnel =>
      simp only [LinkEnd.step] at next
      split at next
      · cases next
        exact ⟨{ inv with running := .inr rfl }, rfl, rfl⟩
      · cases next
  | emit emission alloc =>
      cases next
      exact inv.emit (by simpa [conserves] using allowed)
  | reserve frames =>
      cases next
      exact inv.reserve frames
  | release frames =>
      cases next
      exact ⟨{ inv with }, rfl, rfl⟩
  | schedule =>
      cases next
      exact inv.schedule
  | take nativeTxMaxInflight =>
      simp only [LinkEnd.step] at next
      split at next
      · rename_i looping
        cases next
        exact inv.take looping nativeTxMaxInflight
      · cases next
  | post error =>
      simp only [LinkEnd.step, LinkEnd.post] at next
      split at next
      · rename_i packet fromControlQueue charged oldRaw oldStart posting
        cases error with
        | none =>
            cases next
            exact inv.post_ok posting
        | some error =>
            cases next
            refine inv.post_failed holds posting ?_
            simpa [conserves, posting] using allowed
      · cases next
  | released =>
      simp only [LinkEnd.step] at next
      split at next
      · rename_i releasing
        cases next
        refine ⟨{ inv with scheduler := trivial }, ?_, ?_⟩
        · simp [held, releasing, Scheduler.chargedCount]
        · simp [owed, releasing, Scheduler.creditCount]
      · cases next
  | txComplete i =>
      simp only [LinkEnd.step, Path.txComplete, Option.map_eq_some_iff] at next
      obtain ⟨path, ⟨packet, found, rfl⟩, rfl⟩ := next
      exact ⟨{ inv with }, rfl, rfl⟩
  | repost i => exact inv.repost owes next
  | sendCredit i alloc => exact inv.sendCredit next
  | foldBack i => exact inv.foldBack owes next
  | addCredit i => exact inv.addCredit holds next

/-! ## Delivery -/

theorem Inv.receive {flight : Flight} (inv : e.Inv window)
    (ok : FrameOk flight.charged flight.frame) :
    (e.receive flight).Inv window ∧
      (e.receive flight).held = e.held + creditOf flight.frame ∧
      (e.receive flight).owed = e.owed + flight.charged.toNat := by
  have result : e.path.rxComplete flight.frame =
      (e.path, { returnRxCredits := flight.charged.toNat, addRemoteCredits := creditOf flight.frame
                 delivered := (e.path.rxComplete flight.frame).2.delivered }) := by
    cases charged : flight.charged with
    | true =>
        simp only [FrameOk, charged] at ok
        have free := creditOf_dataFrame ok
        obtain ⟨short, header, parsed, consumes, framed⟩ := ok
        have other : header.opcode ≠ .pathCredit := by
          intro same
          simp [same, consumesRxCredit] at consumes
        simp [Path.rxComplete, Nat.not_lt.mpr short, inv.raw, parsed, other, framed, consumes, free]
    | false =>
        simp only [FrameOk, charged] at ok
        obtain ⟨short, header, parsed, consumes, framed, valid⟩ := ok
        by_cases credit : header.opcode = .pathCredit
        · simp [Path.rxComplete, Nat.not_lt.mpr short, inv.raw, parsed, credit, valid, creditOf]
        · simp [Path.rxComplete, Nat.not_lt.mpr short, inv.raw, parsed, credit, framed, consumes, creditOf]
  unfold LinkEnd.receive
  rw [result]
  refine ⟨{ inv with rx := ?_ }, ?_, ?_⟩
  · intro thread member
    rcases List.mem_cons.mp member with rfl | member
    · rfl
    · exact inv.rx thread member
  · simp only [held, tally_cons, RxThread.adding]
    omega
  · simp only [owed, tally_cons, RxThread.chargedCount, RxThread.returning]
    omega

theorem Inv.takeOff {i : Nat} {flight : Flight} (inv : e.Inv window) (found : e.wire[i]? = some flight) :
    Inv window { e with wire := e.wire.eraseIdx i } ∧
      e.held = LinkEnd.held { e with wire := e.wire.eraseIdx i } + flight.charged.toNat ∧
      e.owed = LinkEnd.owed { e with wire := e.wire.eraseIdx i } + creditOf flight.frame := by
  have charged := tally_eraseIdx (fun flight : Flight => flight.charged.toNat) found
  have credits := tally_eraseIdx (fun flight : Flight => creditOf flight.frame) found
  refine ⟨{ inv with wire := ?_ }, ?_, ?_⟩
  · intro other member
    exact inv.wire other (List.eraseIdx_subset member)
  · simp only [held]
    omega
  · simp only [owed]
    omega

end LinkEnd

/-! ## Whole runs -/

variable {cfg : Side → PathConfig} {link link' : Link}

def windowOf (cfg : Side → PathConfig) (side : Side) : Nat :=
  dataCreditWindow (cfg side.peer).rxRingSize

theorem windowOf_le (cfg : Side → PathConfig) (side : Side) : windowOf cfg side ≤ u32Max := by
  have size := (cfg side.peer).rx_u32
  have bound := dataCreditWindow_le (cfg side.peer).rxRingSize
  simp only [windowOf, u32Max]
  omega

structure Link.Balanced (cfg : Side → PathConfig) (link : Link) : Prop where
  inv : ∀ side, (link side).Inv (windowOf cfg side)
  balance : ∀ side, (link side).held + (link side.peer).owed = windowOf cfg side

theorem Link.balanced_initial (cfg : Side → PathConfig) : (Link.initial cfg).Balanced cfg where
  inv side :=
    { data := by simp [Link.initial, Path.started, Path.setRemoteRxCapacity]
      control := by simp [Link.initial, Path.started, Path.setRemoteRxCapacity]
      scheduler := trivial
      wire := by simp [Link.initial]
      rx := by simp [Link.initial]
      creditMax := rfl
      positive := dataCreditWindow_pos (cfg side.peer).rx_positive
      raw := rfl
      running := .inl rfl }
  balance side := by
    simp [LinkEnd.held, LinkEnd.owed, Link.initial, Path.started, Path.setRemoteRxCapacity, windowOf,
      Scheduler.chargedCount, Scheduler.creditCount]

theorem Link.Balanced.local {side : Side} {action : EndAction} {next : LinkEnd}
    (balanced : link.Balanced cfg) (allowed : (link side).conserves action = true)
    (moved : (link side).step action = some next) :
    Link.Balanced cfg (Function.update link side next) := by
  have forward := balanced.balance side
  have backward := balanced.balance side.peer
  simp only [Side.peer_peer] at backward
  have peerWindow := windowOf_le cfg side.peer
  obtain ⟨inv, held, owed⟩ := (balanced.inv side).step (by omega) (by omega) allowed moved
  constructor
  · intro other
    by_cases same : other = side
    · subst same
      simpa using inv
    · simpa [same] using balanced.inv other
  · intro other
    cases side <;> cases other <;> simp_all [Side.peer]

theorem Link.Balanced.deliver {side : Side} {i : Nat} {flight : Flight} (balanced : link.Balanced cfg)
    (found : (link side.peer).wire[i]? = some flight) :
    Link.Balanced cfg
      (Function.update
        (Function.update link side.peer
          { link side.peer with wire := (link side.peer).wire.eraseIdx i })
        side ((link side).receive flight)) := by
  have forward := balanced.balance side
  have backward := balanced.balance side.peer
  simp only [Side.peer_peer] at backward
  obtain ⟨sentInv, sentHeld, sentOwed⟩ := (balanced.inv side.peer).takeOff found
  obtain ⟨gotInv, gotHeld, gotOwed⟩ := (balanced.inv side).receive
    ((balanced.inv side.peer).wire flight (List.mem_of_getElem? found))
  constructor
  · intro other
    by_cases same : other = side
    · subst same
      simpa using gotInv
    · by_cases peer : other = side.peer
      · subst peer
        simpa [same] using sentInv
      · simpa [same, peer] using balanced.inv other
  · intro other
    cases side <;> cases other <;> simp_all [Side.peer] <;> omega

theorem Link.Balanced.step {action : LinkAction} (balanced : link.Balanced cfg)
    (allowed : link.conserves action = true) (next : link.step action = some link') :
    link'.Balanced cfg := by
  cases action with
  | «local» side action =>
      simp only [Link.step, Option.map_eq_some_iff] at next
      obtain ⟨e, moved, rfl⟩ := next
      exact balanced.local allowed moved
  | deliver side i =>
      simp only [Link.step, Option.map_eq_some_iff] at next
      obtain ⟨flight, found, rfl⟩ := next
      exact balanced.deliver found

theorem linkSystem_balanced
    (reachable : (linkSystem cfg).ReachableVia (fun link action => link.conserves action = true) link) :
    link.Balanced cfg :=
  reachable.invariant
    (fun _ start => start ▸ Link.balanced_initial cfg)
    (fun _ _ _ balanced allowed next => balanced.step allowed next)

/-- In every run in which no READ status frame is sent and no PATH_CREDIT frame is lost to a refused
ring post, the credits of each direction add up to its window. -/
theorem path_credit_conserved (cfg : Side → PathConfig) (link : Link)
    (reachable : (linkSystem cfg).ReachableVia (fun link action => link.conserves action = true) link)
    (side : Side) :
    link.creditSum side = windowOf cfg side ∧
      (link side).path.txRemoteDataCreditMax = windowOf cfg side ∧
      (link side).path.txRemoteDataCredits ≤ (link side).path.txRemoteDataCreditMax := by
  have balanced := linkSystem_balanced reachable
  have sum := balanced.balance side
  have creditMax := (balanced.inv side).creditMax
  refine ⟨by rw [link.creditSum_eq, sum], creditMax, ?_⟩
  rw [creditMax, ← sum, LinkEnd.held]
  omega

/-- The ring sizes of `tbv_path_default_config` on both sides. -/
theorem nativeRing_pos : 0 < 1024 := by decide

theorem nativeRing_u32 : 1024 < 2 ^ 32 := by decide

def nativePaths : Side → PathConfig := fun _ =>
  { txRingSize := 1024, rxRingSize := 1024, rx_positive := nativeRing_pos, rx_u32 := nativeRing_u32 }

def readRequestRun : List LinkAction :=
  [.local .left .enableTunnel, .local .right .enableTunnel,
    .local .left (.emit (.readRequest 7 5 0 4096 0 99 1) true), .local .left .schedule,
    .local .left (.take 32), .local .left (.post none), .deliver .right 0, .local .right (.repost 0)]

theorem path_credit_conserved_readRequest :
    ∃ link : Link, (link .right).path.rxDataCreditPending = 1 ∧
      link.creditSum .left = windowOf nativePaths .left := by
  obtain ⟨link, reachable, pending⟩ := System.exists_reachableVia (linkSystem nativePaths)
    (fun link action => link.conserves action = true) readRequestRun
    (fun link => (link .right).path.rxDataCreditPending = 1) rfl (by decide +kernel)
  exact ⟨link, by simpa using pending, (path_credit_conserved nativePaths link reachable .left).1⟩

/-- The request is answered by a READ status frame: it travels uncharged and is returned as a
credit, so the sum of the answering side exceeds its window. -/
def readStatusRun : List LinkAction :=
  readRequestRun ++
    [.local .right (.emit (.readStatus 5 7 0 4096 true) true), .local .right .schedule,
      .local .right (.take 32), .local .right (.post none), .deliver .left 0,
      .local .left (.repost 0)]

theorem read_status_exceeds_window :
    ∃ link, (linkSystem nativePaths).Reachable link ∧
      link.creditSum .right = windowOf nativePaths .right + 1 := by
  obtain ⟨link, reachable, sum⟩ := System.exists_reachableVia (linkSystem nativePaths)
    (fun _ _ => True) readStatusRun
    (fun link => link.creditSum .right = windowOf nativePaths .right + 1) rfl (by decide +kernel)
  exact ⟨link, reachable, by simpa using sum⟩

end ThunderboltVerbs.DataPath
