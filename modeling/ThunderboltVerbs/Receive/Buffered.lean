import ThunderboltVerbs.Receive.DirectWrite

/-!
# A message through the reorder buffer

The fragments of the expected message arrive in any order; the last one completes the message and the drain
delivers it.
-/

namespace ThunderboltVerbs.Receive
open Proto Verbs Lib

/-- The fragment is buffered, after the checks that every fragment passes. -/
def RxQp.bufferFrame (q : RxQp) (env : RxEnv) (frame : Frame) : RxQp :=
  let header := frame.header
  let psn := header.psn % psnMod
  match header.opcode with
  | .rdmaWrite | .rdmaWriteImm =>
      if !(writeHeaderOk header && q.remoteWrite) then q.sendErrorAck header header.psn
      else (q.clearRnr header.srcQp psn).deferWrite env frame
  | _ =>
      if !sendHeaderOk header then q.sendErrorAck header psn
      else (q.clearRnr header.srcQp psn).bufferFragment env frame

/-- The fragments are buffered in the order given, fragment `i` at the time `now i`. -/
def RxQp.buffered (q : RxQp) (env : RxEnv) (now : Nat → Nat) (s : Stream) (n : Nat) (msg : Message)
    (order : List Nat) : RxQp :=
  order.foldl (fun q i => q.bufferFrame (env.timed (now i)) (s.dataFrame n msg i)) q

def Message.seenBytes (msg : Message) (seen : List Nat) : Nat := tally (fun i => (msg.slice i).length) seen

/-- The queue pair holds the fragments `seen` of the expected message as well. -/
def RxQp.holding (q : RxQp) (s : Stream) (n : Nat) (msg : Message) (now : Nat) (seen : List Nat) : RxQp :=
  { q with
    rxReorder := q.rxReorder ++ [s.stored n msg now seen (msg.seenBytes seen)]
    rxReorderCount := q.rxReorderCount + 1
    rxReorderBytes := q.rxReorderBytes + msg.seenBytes seen }

variable {s : Stream} {n i first : Nat} {msg : Message} {q q' : RxQp} {env : RxEnv} {now : Nat → Nat}
  {seen order : List Nat} {wqe : RecvWqe}

/-- The buffer takes the message. -/
structure Room (q : RxQp) (env : RxEnv) (msg : Message) : Prop where
  message : q.rxReorderCount < reorderMaxMessages
  bytes : q.rxReorderBytes + msg.payload.length ≤ reorderMaxBytes
  msgAlloc : env.msgAlloc = true
  fragAlloc : env.fragAlloc = true

theorem Room.timed (room : Room q env msg) (time : Nat) : Room q (env.timed time) msg := { room with }

theorem slices_total (msg : Message) {count : Nat} (few : count ≤ msg.fragments) :
    msg.seenBytes (List.range count) = min (count * dataMaxPayload) msg.payload.length := by
  induction count with
  | zero => simp [Message.seenBytes]
  | succ count ih =>
      have before := ih (by omega)
      rw [Message.seenBytes] at before ⊢
      rw [List.range_succ, tally_append, tally_cons, tally_nil, before, Nat.add_zero, received_succ few]

theorem seenBytes_le (once : seen.Nodup) (inside : ∀ i ∈ seen, i < msg.fragments) :
    msg.seenBytes seen ≤ msg.payload.length := by
  have sub : seen.Subperm (List.range msg.fragments) :=
    once.subperm fun i member => List.mem_range.mpr (inside i member)
  have total := slices_total msg (Nat.le_refl msg.fragments)
  have le := tally_subperm (fun i => (msg.slice i).length) sub
  rw [Message.seenBytes] at total ⊢
  omega

/-! ## One fragment -/

section Store

variable (expecting : Expecting s n q)
include expecting

theorem reorderFind_holding (time : Nat) :
    (q.holding s n msg time seen).reorderFind (s.psn n) = some (s.stored n msg time seen (msg.seenBytes seen)) := by
  have absent : q.rxReorder.find? (fun other => other.psn = s.psn n) = none := expecting.notFound
  simp [RxQp.reorderFind, RxQp.holding, List.find?_append, absent, Stream.stored]

theorem unlink_holding (time : Nat) :
    (q.holding s n msg time seen).reorderUnlink (s.stored n msg time seen (msg.seenBytes seen)) = q := by
  have msgs : (q.rxReorder ++ [s.stored n msg time seen (msg.seenBytes seen)]).eraseP
      (fun other => other.psn = (s.stored n msg time seen (msg.seenBytes seen)).psn) = q.rxReorder :=
    eraseP_snoc expecting.absent
  have bytes : (s.stored n msg time seen (msg.seenBytes seen)).bufferedBytes = msg.seenBytes seen := rfl
  simp only [RxQp.reorderUnlink, RxQp.holding, msgs, bytes, Nat.add_sub_cancel]

theorem bufferStore_holding (room : Room q env msg) (time : Nat) (once : (i :: seen).Nodup)
    (inside : ∀ j ∈ i :: seen, j < msg.fragments) :
    (q.holding s n msg time seen).bufferStore env (s.dataFrame n msg i)
        (s.stored n msg time seen (msg.seenBytes seen)) i =
      if seen.length + 1 = msg.fragments then (q.holding s n msg time (i :: seen)).drain env
      else q.holding s n msg time (i :: seen) := by
  have distinct := List.nodup_cons.mp once
  have added := stored_addFragment (s := s) n time (msg.seenBytes seen) (i := i) distinct.2
    (fun j member => inside j (List.mem_cons_of_mem i member)) (inside i List.mem_cons_self) distinct.1
  have size : msg.seenBytes (i :: seen) = msg.seenBytes seen + (msg.slice i).length := by
    rw [Message.seenBytes, tally_cons, Nat.add_comm]
    rfl
  have limit : ¬((msg.slice i).length ≠ 0 ∧ ((q.holding s n msg time seen).rxReorderBytes + (msg.slice i).length >
      reorderMaxBytes ∨ env.fragAlloc = false)) := by
    have fits := seenBytes_le once inside
    have bytes := room.bytes
    have held : (q.holding s n msg time seen).rxReorderBytes = q.rxReorderBytes + msg.seenBytes seen := rfl
    rw [held, room.fragAlloc]
    simp only [reduceCtorEq, or_false, not_and]
    omega
  have msgs : replaceKey ReorderMsg.psn (s.stored n msg time (i :: seen) (msg.seenBytes (i :: seen)))
      (q.rxReorder ++ [s.stored n msg time seen (msg.seenBytes seen)]) =
        q.rxReorder ++ [s.stored n msg time (i :: seen) (msg.seenBytes (i :: seen))] :=
    replaceKey_snoc expecting.absent rfl
  have stored : { (q.holding s n msg time seen).reorderReplace
        (s.stored n msg time (i :: seen) (msg.seenBytes (i :: seen)))
      with rxReorderBytes := (q.holding s n msg time seen).rxReorderBytes + (msg.slice i).length } =
      q.holding s n msg time (i :: seen) := by
    simp only [RxQp.reorderReplace, RxQp.holding]
    rw [msgs, size, Nat.add_assoc]
  have complete : (s.stored n msg time (i :: seen) (msg.seenBytes (i :: seen))).complete =
      decide (seen.length + 1 = msg.fragments) := rfl
  rw [← size] at added
  simp only [RxQp.bufferStore, Stream.dataFrame, header_length, header_fragOffset, if_neg limit, added, stored,
    complete, decide_eq_true_eq]

theorem bufferMessage_first (room : Room q env msg) :
    q.bufferMessage env (s.dataFrame n msg i) (.ok (i, msg.fragments)) (s.stored n msg env.now [] 0) =
      (q.holding s n msg env.now []).bufferStore env (s.dataFrame n msg i)
        (s.stored n msg env.now [] (msg.seenBytes [])) i := by
  have psn : (s.stored n msg env.now [] 0).psn = s.psn n := rfl
  have few := room.message
  simp only [RxQp.bufferMessage, psn, expecting.current, expecting.delta, expecting.notFound, room.msgAlloc,
    Bool.false_eq_true, if_false, Bool.not_true, if_neg (Nat.not_le.mpr few)]
  rfl

theorem bufferMessage_next (time : Nat) (unseen : i ∉ seen) :
    (q.holding s n msg time seen).bufferMessage env (s.dataFrame n msg i) (.ok (i, msg.fragments))
        (s.stored n msg env.now [] 0) =
      (q.holding s n msg time seen).bufferStore env (s.dataFrame n msg i)
        (s.stored n msg time seen (msg.seenBytes seen)) i := by
  have psn : (s.stored n msg env.now [] 0).psn = s.psn n := rfl
  have current : (q.holding s n msg time seen).isDuplicate (s.psn n) = false := expecting.current
  have delta : psnDelta (s.psn n) (q.holding s n msg time seen).rxExpectedPsn = 0 := expecting.delta
  have new : (s.stored n msg time seen (msg.seenBytes seen)).fragSeen.contains i = false := by
    simpa [Stream.stored] using unseen
  simp only [RxQp.bufferMessage, psn, current, delta, reorderFind_holding expecting, new, Bool.false_eq_true, if_false]
  rw [if_neg (by decide), if_neg (by simp [ReorderMsg.sameMessage, Stream.stored])]

end Store

section Frame

variable (unmarked : q.rnrMatches s.srcQp (s.psn n) = false) (bound : i < msg.fragments)
include unmarked bound

theorem bufferFrame_send (isSend : msg.op.isWrite = false) :
    q.bufferFrame env (s.dataFrame n msg i) =
      q.bufferMessage env (s.dataFrame n msg i) (.ok (i, msg.fragments)) (s.stored n msg env.now [] 0) := by
  have valid := sendHeaderOk_header s n msg bound isSend
  rw [← bufferFragment_eq isSend bound]
  have cleared := clearRnr_unmarked unmarked
  cases op : msg.op with
  | send | sendImm =>
      simp only [RxQp.bufferFrame, Stream.dataFrame, header_opcode, op, SendOp.opcode, valid, Bool.not_true,
        Bool.false_eq_true, if_false, header_srcQp, header_psn, s.psn_mod, cleared]
  | rdmaWrite | rdmaWriteImm => simp [op, SendOp.isWrite] at isSend

theorem bufferFrame_write (op : msg.op = .rdmaWrite) (nonempty : msg.payload ≠ []) (writable : q.remoteWrite = true) :
    q.bufferFrame env (s.dataFrame n msg i) =
      q.bufferMessage env (s.dataFrame n msg i) (.ok (i, msg.fragments)) (s.stored n msg env.now [] 0) := by
  have isWrite : msg.op.isWrite = true := by
    rw [op]
    rfl
  have valid := writeHeaderOk_header s n msg bound isWrite
  have cleared := clearRnr_unmarked unmarked
  rw [← bufferWriteFragment_eq op bound]
  simp only [RxQp.bufferFrame, Stream.dataFrame, header_opcode, op, SendOp.opcode, valid, nonempty, writable, ne_eq,
    not_false_eq_true, decide_true, Bool.or_true, Bool.and_self, Bool.not_true, Bool.false_eq_true, if_false,
    header_srcQp, header_psn, s.psn_mod, cleared, RxQp.deferWrite, reduceCtorEq, header_immData, SendOp.hasImm,
    Bool.and_false]

end Frame

/-! ## The fragments in any order -/

/-- Both paths check the header of a fragment before they look at anything else. -/
def Admitted (q : RxQp) (msg : Message) : Prop :=
  msg.op.isWrite = true → q.remoteWrite = true ∧ msg.payload ≠ []

section Run

variable (expecting : Expecting s n q) (room : Room q env msg) (noImm : msg.op ≠ .rdmaWriteImm)
  (admitted : Admitted q msg) (unmarked : q.rnrMatches s.srcQp (s.psn n) = false)
include expecting room noImm admitted unmarked

omit expecting room in
theorem bufferFrame_eq (bound : i < msg.fragments) :
    q.bufferFrame env (s.dataFrame n msg i) =
      q.bufferMessage env (s.dataFrame n msg i) (.ok (i, msg.fragments)) (s.stored n msg env.now [] 0) := by
  cases op : msg.op with
  | send | sendImm => exact bufferFrame_send unmarked bound (by rw [op]; rfl)
  | rdmaWrite =>
      obtain ⟨writable, nonempty⟩ := admitted (by rw [op]; rfl)
      exact bufferFrame_write unmarked bound op nonempty writable
  | rdmaWriteImm => exact absurd op noImm

theorem bufferFrame_first (bound : i < msg.fragments) (time : Nat) :
    q.bufferFrame (env.timed time) (s.dataFrame n msg i) =
      if 1 = msg.fragments then (q.holding s n msg time [i]).drain (env.timed time)
      else q.holding s n msg time [i] := by
  rw [bufferFrame_eq noImm admitted unmarked bound, bufferMessage_first expecting (room.timed time)]
  exact bufferStore_holding expecting (room.timed time) time (List.nodup_singleton i) (by simpa using bound)

theorem bufferFrame_next (started time : Nat) (once : (i :: seen).Nodup) (inside : ∀ j ∈ i :: seen, j < msg.fragments) :
    (q.holding s n msg started seen).bufferFrame (env.timed time) (s.dataFrame n msg i) =
      if seen.length + 1 = msg.fragments then (q.holding s n msg started (i :: seen)).drain (env.timed time)
      else q.holding s n msg started (i :: seen) := by
  have bound := inside i List.mem_cons_self
  rw [bufferFrame_eq (q := q.holding s n msg started seen) noImm admitted unmarked bound,
    bufferMessage_next expecting started (List.nodup_cons.mp once).1]
  exact bufferStore_holding expecting (room.timed time) started once inside

variable (now)

theorem buffered_snoc (once : (i :: seen).Nodup) (inside : ∀ j ∈ i :: seen, j < msg.fragments) :
    ∃ started, q.buffered env now s n msg (i :: seen).reverse =
      if seen.length + 1 = msg.fragments then (q.holding s n msg started (i :: seen)).drain (env.timed (now i))
      else q.holding s n msg started (i :: seen) := by
  induction seen generalizing i with
  | nil => exact ⟨now i, bufferFrame_first expecting room noImm admitted unmarked (inside i (by simp)) (now i)⟩
  | cons j rest ih =>
      have fits := (once.subperm fun k member => List.mem_range.mpr (inside k member)).length_le
      rw [List.length_cons, List.length_cons, List.length_range] at fits
      obtain ⟨started, before⟩ :=
        ih (List.nodup_cons.mp once).2 fun k member => inside k (List.mem_cons_of_mem i member)
      rw [if_neg (by omega)] at before
      refine ⟨started, ?_⟩
      have step : q.buffered env now s n msg (i :: j :: rest).reverse =
          (q.buffered env now s n msg (j :: rest).reverse).bufferFrame (env.timed (now i)) (s.dataFrame n msg i) := by
        rw [List.reverse_cons, RxQp.buffered, List.foldl_append]
        rfl
      rw [step, before]
      exact bufferFrame_next expecting room noImm admitted unmarked started (now i) once inside

theorem buffered_waits (some : order ≠ []) (once : order.Nodup) (inside : ∀ i ∈ order, i < msg.fragments)
    (more : order.length < msg.fragments) :
    ∃ started, q.buffered env now s n msg order = q.holding s n msg started order.reverse := by
  cases reversed : order.reverse with
  | nil => exact absurd (List.reverse_eq_nil_iff.mp reversed) some
  | cons i seen =>
      have back : order = (i :: seen).reverse := by rw [← reversed, List.reverse_reverse]
      have perm := order.reverse_perm
      rw [reversed] at perm
      obtain ⟨started, run⟩ := buffered_snoc now expecting room noImm admitted unmarked
        (perm.nodup_iff.mpr once) fun j member => inside j (perm.mem_iff.mp member)
      have count := perm.length_eq
      rw [List.length_cons] at count
      rw [if_neg (by omega)] at run
      exact ⟨started, back ▸ run⟩

theorem buffered_complete (arrival : order.Perm (List.range msg.fragments)) :
    ∃ started last, q.buffered env now s n msg order =
      (q.holding s n msg started order.reverse).drain (env.timed (now last)) := by
  have total := arrival.length_eq
  rw [List.length_range] at total
  have positive := fragments_pos msg
  cases reversed : order.reverse with
  | nil =>
      rw [← List.length_reverse, reversed, List.length_nil] at total
      omega
  | cons i seen =>
      have back : order = (i :: seen).reverse := by rw [← reversed, List.reverse_reverse]
      have perm := order.reverse_perm.trans arrival
      rw [reversed] at perm
      obtain ⟨started, run⟩ := buffered_snoc now expecting room noImm admitted unmarked
        (perm.nodup_iff.mpr List.nodup_range) fun j member => List.mem_range.mp (perm.mem_iff.mp member)
      have full : seen.length + 1 = msg.fragments := by
        rw [← total, back, List.length_reverse, List.length_cons]
      rw [if_pos full] at run
      exact ⟨started, i, back ▸ run⟩

end Run

/-! ## The delivery -/

theorem Expecting.popRecv (expecting : Expecting s n q) (popped : q.popRecv = some (wqe, q')) : Expecting s n q' := by
  obtain ⟨rest, -, rfl⟩ := popRecv_spec popped
  exact ⟨expecting.expected, expecting.noMsg, expecting.noWrite, expecting.ahead⟩

theorem popRecv_holding (started : Nat) :
    (q.holding s n msg started seen).popRecv =
      q.popRecv.map fun popped => (popped.1, popped.2.holding s n msg started seen) :=
  RxQp.popRecv_map (q := q) (f := fun q => q.holding s n msg started seen) rfl rfl fun _ => rfl

section Delivery

variable (env) (expecting : Expecting s n q) (started : Nat)
include expecting

theorem holding_complete (complete : seen.length = msg.fragments) :
    (q.holding s n msg started seen).drain env =
      match (q.holding s n msg started seen).deliver env (s.stored n msg started seen (msg.seenBytes seen)) with
      | (r, false) => r
      | (r, true) => RxQp.drainLoop env (q.rxReorder.length + 1) r := by
  have idle : (q.holding s n msg started seen).idle = true := by
    simp [RxQp.idle, RxQp.holding, expecting.noMsg, expecting.noWrite]
  have fresh : (q.holding s n msg started seen).pruneStale = q.holding s n msg started seen := by
    refine pruneStale_self fun other member => ?_
    rcases List.mem_append.mp member with old | own
    · exact decide_eq_false (not_lt.mpr (expecting.ahead other old).le)
    · rw [List.mem_singleton.mp own]
      exact expecting.current
  have found : (q.holding s n msg started seen).reorderFind (q.holding s n msg started seen).rxExpectedPsn =
      some (s.stored n msg started seen (msg.seenBytes seen)) := by
    rw [show (q.holding s n msg started seen).rxExpectedPsn = s.psn n from expecting.expected]
    exact reorderFind_holding expecting started
  have whole : (s.stored n msg started seen (msg.seenBytes seen)).complete = true := decide_eq_true complete
  have turns : (q.holding s n msg started seen).rxReorder.length = q.rxReorder.length + 1 := by
    simp [RxQp.holding]
  rw [RxQp.drain, turns, RxQp.drainLoop]
  rcases delivered :
    (q.holding s n msg started seen).deliver env (s.stored n msg started seen (msg.seenBytes seen)) with ⟨r, goesOn⟩
  cases goesOn with
  | false | true =>
      simp only [idle, fresh, found, whole, delivered, Bool.not_true, Bool.false_eq_true, if_false]

/-- The message that is complete is delivered, and the drain goes on with the others. -/
theorem drain_holding {r : RxQp} (complete : seen.length = msg.fragments)
    (delivered : (q.holding s n msg started seen).deliver env (s.stored n msg started seen (msg.seenBytes seen)) =
      (r, true)) (left : r.rxReorder = q.rxReorder) :
    (q.holding s n msg started seen).drain env = r.drain env := by
  rw [holding_complete env expecting started complete, delivered, ← left]
  rfl

variable (arrival : order.Perm (List.range msg.fragments))
include arrival

omit expecting in
theorem stored_whole : order.reverse.length = msg.fragments := by
  rw [List.length_reverse, arrival.length_eq, List.length_range]

theorem drain_send_refused (isSend : msg.op.isWrite = false) (popped : q.popRecv = none) :
    (q.holding s n msg started order.reverse).drain env =
      (q.holding s n msg started order.reverse).sendAck s.srcQp q.qpNum (s.psn n) .rnr := by
  have kind : (s.stored n msg started order.reverse (msg.seenBytes order.reverse)).kind = .send := by
    simp [Stream.stored, isSend]
  rw [holding_complete env expecting started (stored_whole arrival)]
  simp only [RxQp.deliver, kind, RxQp.deliverSend, popRecv_holding, popped, Option.map_none]
  rfl

theorem drain_send (isSend : msg.op.isWrite = false) (popped : q.popRecv = some (wqe, q')) :
    ∃ bytes written, (q.holding s n msg started order.reverse).drain env =
        (q'.endSend s n msg env wqe bytes written).drain env ∧
      (∀ effect ∈ written, effect.isCopy = true) ∧
      (copyFails (msg.placeCopy env wqe) order = false →
        bytes = copyBytes (msg.placeCopy env wqe) order ∧ written = copyEffects (msg.placeCopy env wqe) order) := by
  obtain ⟨bytes, written, copied, each, whole⟩ := copyFrags_outcome env wqe msg order q'
  refine ⟨bytes, written, drain_holding env expecting started (stored_whole arrival) ?_ ?_, each, whole⟩
  · have fails := copyFails_perm (msg.placeCopy env wqe) arrival
    set stored := s.stored n msg started order.reverse (msg.seenBytes order.reverse)
    have kind : stored.kind = .send := by
      simp [stored, Stream.stored, isSend]
    have frags : stored.frags = order.filterMap msg.storedFrag := by
      simp only [stored, Stream.stored, Message.storedFrags, List.reverse_reverse]
      rfl
    have unlinked : (q'.holding s n msg started order.reverse).reorderUnlink stored = q' :=
      unlink_holding (expecting.popRecv popped) started
    have imm : (if stored.withImm = true then some stored.immData else none) =
        if msg.op = .sendImm then some msg.immData else none := by
      by_cases op : msg.op = .sendImm <;> simp [stored, Stream.stored, op]
    have status : (if (!!copyFails (msg.placeCopy env wqe) order) = true then WcStatus.locProtErr
        else if stored.totalLen > wqe.length then .locLenErr else .success) =
        msg.sendStatus env wqe (List.range msg.fragments) := by
      rw [Bool.not_not, fails]
      rfl
    simp only [RxQp.deliver, kind, RxQp.deliverSend, popRecv_holding, popped, Option.map_some, unlinked, frags,
      copied, imm]
    rw [status]
    rfl
  · obtain ⟨rest, -, rfl⟩ := popRecv_spec popped
    exact rxReorder_conclude _ _ _ _

omit expecting arrival in
/-- No fragment can be written to a region without remote write access. -/
theorem writeCopy_denied (nonempty : msg.payload ≠ [])
    (denied : ((env.mrs msg.rkey).any fun mr => mr.remoteWrite) = false) :
    copyFails (msg.writeCopy env) (List.range msg.fragments) = true := by
  have positive := fragments_pos msg
  have filled := slice_ne_nil msg positive nonempty
  have first : msg.writeCopy env 0 = none := by
    simp only [Message.writeCopy, writeCopy, if_neg filled]
    cases region : env.mrs msg.rkey with
    | none => simp
    | some mr =>
        rw [region, Option.any_some] at denied
        simp [denied]
  exact List.any_eq_true.mpr ⟨0, List.mem_range.mpr positive, by rw [first]; rfl⟩

theorem drain_write (op : msg.op = .rdmaWrite) (nonempty : msg.payload ≠ []) :
    ∃ written, (q.holding s n msg started order.reverse).drain env =
        (({ q with trace := written ++ q.trace } : RxQp).conclude (s.psn n) s.srcQp
          (msg.writeStatus env) none).drain env ∧
      (∀ effect ∈ written, effect.isCopy = true) ∧
      (copyFails (msg.writeCopy env) order = false → written = copyEffects (msg.writeCopy env) order) := by
  have fails := copyFails_perm (msg.writeCopy env) arrival
  set stored := s.stored n msg started order.reverse (msg.seenBytes order.reverse) with storedDef
  have kind : stored.kind = .write := by
    simp [stored, Stream.stored, op, SendOp.isWrite]
  have frags : stored.frags = order.filterMap msg.storedFrag := by
    simp only [stored, Stream.stored, Message.storedFrags, List.reverse_reverse]
    rfl
  have rkey : stored.rkey = msg.rkey := by
    simp [stored, Stream.stored, op, SendOp.isWrite]
  have remoteAddr : stored.remoteAddr = msg.remoteAddr := by
    simp [stored, Stream.stored, op, SendOp.isWrite]
  have unlinked : (q.holding s n msg started order.reverse).reorderUnlink stored = q := unlink_holding expecting started
  have plain : stored.withImm = false := by
    simp [stored, Stream.stored, op]
  cases writable : (env.mrs msg.rkey).any fun mr => mr.remoteWrite with
  | true =>
      obtain ⟨written, copied, each, whole⟩ := copyWriteFrags_outcome env msg order q
      refine ⟨written, drain_holding env expecting started (stored_whole arrival) ?_ (rxReorder_conclude _ _ _ _),
        each, whole⟩
      have status : (if (!copyFails (msg.writeCopy env) order) = true then WcStatus.success else .locProtErr) =
          msg.writeStatus env := by
        rw [Message.writeStatus, fails]
        cases copyFails (msg.writeCopy env) (List.range msg.fragments) <;> rfl
      rw [← storedDef]
      simp only [RxQp.deliver, kind, RxQp.deliverWrite, plain, Bool.false_eq_true, if_false, unlinked, frags, rkey,
        remoteAddr, writable, if_true, copied]
      rw [status]
      rfl
  | false =>
      have broken := writeCopy_denied env nonempty writable
      have status : msg.writeStatus env = .locProtErr := by rw [Message.writeStatus, broken, if_pos rfl]
      refine ⟨[], drain_holding env expecting started (stored_whole arrival) ?_ (rxReorder_conclude _ _ _ _),
        by simp, ?_⟩
      · rw [← storedDef, status]
        simp only [RxQp.deliver, kind, RxQp.deliverWrite, plain, Bool.false_eq_true, if_false, unlinked, rkey,
          writable]
        rfl
      · rw [fails, broken]
        simp

end Delivery

end ThunderboltVerbs.Receive
