import ThunderboltVerbs.Receive.Drain

/-!
# Buffering keeps the receive invariant
-/

namespace ThunderboltVerbs.Receive
open Proto Verbs Lib

/-! ## The invariant between calls -/

/-- The message being received is request `k`. An unstriped one has been received up to a fragment
boundary. -/
def ActiveSend (s : Stream) (k : Nat) (striping : Bool) (active : RxMessage) : Prop :=
  ∃ msg, s.request k = .data msg ∧ msg.op.isWrite = false ∧ active.sameSend (s.header k msg 0) = true ∧
    if striping then active.fragCount = msg.fragments
    else ∃ j < msg.fragments, active.received = j * dataMaxPayload

/-- The WRITE being received is request `k`, and its first `j` fragments have been copied. -/
def ActiveWrite (s : Stream) (k : Nat) (trace : List Effect) (write : RxWrite) : Prop :=
  ∃ msg j, s.request k = .data msg ∧ msg.op.isWrite = true ∧ write.sameWrite (s.header k msg 0) = true ∧
    j < msg.fragments ∧ write.received = j * dataMaxPayload ∧ ∀ i < j, SliceApplied msg trace i

/-- `sent` requests have been sent, and `clock` is the time of the last call. A message buffered beside the
active WRITE of the same PSN is younger than the WRITE. -/
structure Inv (s : Stream) (strict : Prop) (sent k clock : Nat) (q : RxQp) : Prop where
  base : Base s strict k (min sent (k + maxQpWr)) k q
  reach : k ≤ sent
  ahead : q.idle = false → k < sent
  active : ∀ active ∈ q.rxMsg, ActiveSend s k q.striping active
  alone : q.rxMsg ≠ none → ∀ msg ∈ q.rxReorder, msg.psn ≠ s.psn k
  write : ∀ write ∈ q.rxWrite, ActiveWrite s k q.trace write
  started : ∀ write ∈ q.rxWrite, 0 < write.startedJiffies ∧ write.startedJiffies ≤ clock
  younger : ∀ write ∈ q.rxWrite, ∀ msg ∈ q.rxReorder, msg.psn = s.psn k →
    write.startedJiffies ≤ msg.firstJiffies

variable {s : Stream} {strict : Prop} {sent lo hi k clock : Nat} {q : RxQp} {env : RxEnv}

theorem ActiveWrite.mono {trace later : List Effect} {write : RxWrite}
    (active : ActiveWrite s k trace write) (subset : trace ⊆ later) : ActiveWrite s k later write := by
  obtain ⟨msg, j, request, isWrite, same, bound, received, applied⟩ := active
  exact ⟨msg, j, request, isWrite, same, bound, received, fun i before => subset (applied i before)⟩

theorem Inv.later {clock' : Nat} (inv : Inv s strict sent k clock q) (le : clock ≤ clock') :
    Inv s strict sent k clock' q :=
  { inv with
    started := fun write member => ⟨(inv.started write member).1, (inv.started write member).2.trans le⟩ }

theorem Inv.note {effect : Effect} (inv : Inv s strict sent k clock q) (plain : effect.plain = true)
    (lawful : Lawful s strict effect q.trace) : Inv s strict sent k clock (q.note effect) :=
  { inv with
    base := inv.base.note plain lawful
    write := fun write member => (inv.write write member).mono (List.subset_cons_self _ _) }

theorem Inv.errorAck {destQp srcQp psn : Nat} (inv : Inv s strict sent k clock q) :
    Inv s strict sent k clock (q.sendAck destQp srcQp psn .error) :=
  inv.note rfl trivial

theorem Base.widen {hi' : Nat} (base : Base s strict lo hi k q) (le : hi ≤ hi') (near : hi' ≤ k + maxQpWr) :
    Base s strict lo hi' k q := by
  refine { base with entries := ?_, near := near }
  intro msg member
  obtain ⟨n, lower, upper, buffered⟩ := base.entries msg member
  exact ⟨n, lower, upper.trans_le le, buffered⟩

theorem Base.inv (base : Base s strict k hi k q) (idle : q.idle = true) (below : hi ≤ sent)
    (reach : k ≤ sent) : Inv s strict sent k clock q := by
  have wide := base.widen (le_min below base.near) (min_le_right _ _)
  refine ⟨wide, reach, by simp [idle], ?_, ?_, ?_, ?_, ?_⟩
  all_goals
    simp only [RxQp.idle, Bool.and_eq_true, Option.isNone_iff_eq_none] at idle
    simp [idle.1, idle.2]

theorem Inv.drain (inv : Inv s strict sent k clock q) :
    ∃ k', k ≤ k' ∧ Inv s strict sent k' clock (q.drain env) := by
  by_cases idle : q.idle = true
  · obtain ⟨k', above, below, base, keeps⟩ := inv.base.drain env idle
    have reach := inv.reach
    exact ⟨k', above, base.inv (keeps.idle.trans idle) (min_le_left _ _) (by omega)⟩
  · rw [drain_busy (by simpa using idle)]
    exact ⟨k, le_refl _, inv⟩

theorem Base.located {n : Nat} {msg : ReorderMsg} (base : Base s strict k hi k q) (lower : k ≤ n)
    (upper : n < k + maxQpWr) (member : msg ∈ q.rxReorder) (psn : msg.psn = s.psn n) :
    n < hi ∧ Buffered s n msg := by
  obtain ⟨m, above, below, buffered⟩ := base.entries msg member
  have near := base.near
  simp only [maxQpWr] at near upper
  obtain rfl : m = n := s.psn_inj (by omega) (by omega) (buffered.psn.symm.trans psn)
  exact ⟨below, buffered⟩

theorem Base.buffered {n : Nat} {msg : ReorderMsg} (base : Base s strict k hi k q) (lower : k ≤ n)
    (upper : n < k + maxQpWr) (member : msg ∈ q.rxReorder) (psn : msg.psn = s.psn n) : Buffered s n msg :=
  (base.located lower upper member psn).2

/-! ## The list -/

theorem Inv.link {n : Nat} {msg : ReorderMsg} (inv : Inv s strict sent k clock q) (known : n < sent)
    (lower : k ≤ n) (upper : n < k + maxQpWr) (buffered : Buffered s n msg) (new : q.reorderFind (s.psn n) = none)
    (time : clock ≤ msg.firstJiffies) (behind : q.rxMsg ≠ none → n ≠ k) :
    Inv s strict sent k clock (q.reorderLink msg) := by
  have absent : ∀ other ∈ q.rxReorder, other.psn ≠ s.psn n := by
    simpa [RxQp.reorderFind] using new
  refine
    { base := { inv.base with entries := ?_, distinct := ?_, count := ?_ }
      reach := inv.reach, ahead := inv.ahead, active := inv.active, alone := ?_, write := inv.write
      started := inv.started, younger := ?_ }
  · intro other member
    rcases List.mem_append.mp member with old | added
    · exact inv.base.entries other old
    · obtain rfl := List.mem_singleton.mp added
      exact ⟨n, lower, lt_min known upper, buffered⟩
  · simp only [RxQp.reorderLink, List.map_append, List.map_cons, List.map_nil]
    refine List.nodup_append.mpr ⟨inv.base.distinct, by simp, ?_⟩
    intro psn old psn' added
    obtain ⟨other, member, rfl⟩ := List.mem_map.mp old
    obtain rfl := List.mem_singleton.mp added
    rw [buffered.psn]
    exact absent other member
  · simp [RxQp.reorderLink, inv.base.count]
  · intro isActive other member
    rcases List.mem_append.mp member with old | added
    · exact inv.alone isActive other old
    · obtain rfl := List.mem_singleton.mp added
      rw [buffered.psn]
      intro same
      have upper' := upper
      simp only [maxQpWr] at upper'
      exact behind isActive (s.psn_inj (by omega) (by omega) same)
  · intro write isActive other member psn
    rcases List.mem_append.mp member with old | added
    · exact inv.younger write isActive other old psn
    · obtain rfl := List.mem_singleton.mp added
      exact (inv.started write isActive).2.trans time

theorem Inv.replace {n : Nat} {msg msg' : ReorderMsg} (inv : Inv s strict sent k clock q) (lower : k ≤ n)
    (upper : n < k + maxQpWr) (member : msg ∈ q.rxReorder) (buffered : Buffered s n msg')
    (psn : msg.psn = s.psn n) (time : msg'.firstJiffies = msg.firstJiffies) (bytes : Nat) :
    Inv s strict sent k clock { q.reorderReplace msg' with rxReorderBytes := bytes } := by
  refine
    { base := { inv.base with entries := ?_, distinct := ?_, count := ?_ }
      reach := inv.reach, ahead := inv.ahead, active := inv.active, alone := ?_, write := inv.write
      started := inv.started, younger := ?_ }
  · intro other inside
    rcases mem_replaceKey inside with rfl | ⟨old, _⟩
    · exact ⟨n, lower, (inv.base.located lower upper member psn).1, buffered⟩
    · exact inv.base.entries other old
  · simpa only [RxQp.reorderReplace, keys_replaceKey] using inv.base.distinct
  · simpa [RxQp.reorderReplace] using inv.base.count
  · intro isActive other inside
    rcases mem_replaceKey inside with rfl | ⟨old, _⟩
    · rw [buffered.psn, ← psn]
      exact inv.alone isActive msg member
    · exact inv.alone isActive other old
  · intro write isActive other inside same
    rcases mem_replaceKey inside with rfl | ⟨old, _⟩
    · rw [time]
      exact inv.younger write isActive msg member (psn.trans (buffered.psn.symm.trans same))
    · exact inv.younger write isActive other old same

theorem Inv.unlink {msg : ReorderMsg} (inv : Inv s strict sent k clock q) (member : msg ∈ q.rxReorder) :
    Inv s strict sent k clock (q.reorderUnlink msg) :=
  { base := inv.base.unlink member
    reach := inv.reach
    ahead := inv.ahead
    active := inv.active
    alone := fun isActive other left => inv.alone isActive other (inv.base.unlinked member left).1
    write := inv.write
    started := inv.started
    younger := fun write isActive other left =>
      inv.younger write isActive other (inv.base.unlinked member left).1 }

/-! ## Storing a fragment -/

theorem storedFrags_cons (msg : Message) (i : Nat) (seen : List Nat) :
    msg.storedFrags (i :: seen) = if msg.slice i = [] then msg.storedFrags seen
      else msg.storedFrags seen ++ [{ offset := i * dataMaxPayload, data := msg.slice i }] := by
  simp only [Message.storedFrags, List.reverse_cons, List.filterMap_append]
  split <;> rename_i empty <;> simp [empty]

theorem stored_addFragment (n now bytes : Nat) {i : Nat} {msg : Message} {seen : List Nat} (nodup : seen.Nodup)
    (inside : ∀ j ∈ seen, j < msg.fragments) (bound : i < msg.fragments) (unseen : i ∉ seen) :
    (s.stored n msg now seen bytes).addFragment i (i * dataMaxPayload) (msg.slice i) =
      s.stored n msg now (i :: seen) (bytes + (msg.slice i).length) := by
  have open_ : seen.length ≠ msg.fragments := fun full => unseen (all_seen nodup inside full i bound)
  simp [ReorderMsg.addFragment, Stream.stored, storedFrags_cons, open_]

section Store

variable {n now bytes i : Nat} {msg : Message} {seen : List Nat}

def Stream.withFragment (s : Stream) (n : Nat) (msg : Message) (now : Nat) (seen : List Nat) (bytes i : Nat)
    (q : RxQp) : RxQp :=
  { q.reorderReplace (s.stored n msg now (i :: seen) (bytes + (msg.slice i).length)) with
    rxReorderBytes := q.rxReorderBytes + (msg.slice i).length }

def storeFails (q : RxQp) (env : RxEnv) (len : Nat) : Prop :=
  len ≠ 0 ∧ (q.rxReorderBytes + len > reorderMaxBytes ∨ env.fragAlloc = false)

theorem bufferStore_cases (now bytes : Nat) (nodup : seen.Nodup) (inside : ∀ j ∈ seen, j < msg.fragments)
    (bound : i < msg.fragments) (unseen : i ∉ seen) :
    (storeFails q env (msg.slice i).length ∧
      q.bufferStore env (s.dataFrame n msg i) (s.stored n msg now seen bytes) i =
        (q.reorderUnlink (s.stored n msg now seen bytes)).sendErrorAck (s.header n msg i) (s.psn n)) ∨
    q.bufferStore env (s.dataFrame n msg i) (s.stored n msg now seen bytes) i =
      (s.withFragment n msg now seen bytes i q).drain env ∨
    q.bufferStore env (s.dataFrame n msg i) (s.stored n msg now seen bytes) i =
      s.withFragment n msg now seen bytes i q := by
  have added := stored_addFragment (s := s) n now bytes nodup inside bound unseen
  simp only [RxQp.bufferStore, Stream.dataFrame, header_length, header_fragOffset]
  split <;> rename_i fails
  · exact .inl ⟨fails, rfl⟩
  · right
    rw [added]
    split
    · exact .inl rfl
    · exact .inr rfl

theorem Inv.withFragment (inv : Inv s strict sent k clock q) (request : s.request n = .data msg)
    (noImm : msg.op ≠ .rdmaWriteImm) (lower : k ≤ n) (upper : n < k + maxQpWr)
    (member : s.stored n msg now seen bytes ∈ q.rxReorder) (bound : i < msg.fragments) (unseen : i ∉ seen) :
    Inv s strict sent k clock (s.withFragment n msg now seen bytes i q) ∧ seen.Nodup ∧
      ∀ j ∈ seen, j < msg.fragments := by
  have sane : now < jiffyBound := (inv.base.buffered lower upper member rfl).sane
  obtain ⟨nodup, inside⟩ : seen.Nodup ∧ ∀ j ∈ seen, j < msg.fragments := by
    have buffered := inv.base.buffered lower upper member rfl
    generalize entry : s.stored n msg now seen bytes = stored at buffered
    cases buffered with
    | data bytes' sane' request' _ nodup inside =>
        obtain rfl : msg = _ := by simpa [request] using request'
        obtain rfl : seen = _ := congrArg ReorderMsg.fragSeen entry
        exact ⟨nodup, inside⟩
    | read _ request' =>
        rw [request] at request'
        cases request'
  have buffered : Buffered s n (s.stored n msg now (i :: seen) (bytes + (msg.slice i).length)) := by
    refine .data _ sane request noImm (List.nodup_cons.mpr ⟨unseen, nodup⟩) ?_
    simpa using ⟨bound, inside⟩
  exact ⟨inv.replace lower upper member buffered rfl rfl _, nodup, inside⟩

theorem Inv.bufferStore (inv : Inv s strict sent k clock q) (request : s.request n = .data msg)
    (noImm : msg.op ≠ .rdmaWriteImm) (lower : k ≤ n) (upper : n < k + maxQpWr)
    (member : s.stored n msg now seen bytes ∈ q.rxReorder) (bound : i < msg.fragments) (unseen : i ∉ seen) :
    ∃ k', k ≤ k' ∧ Inv s strict sent k' clock
      (q.bufferStore env (s.dataFrame n msg i) (s.stored n msg now seen bytes) i) := by
  obtain ⟨stored, nodup, inside⟩ := inv.withFragment request noImm lower upper member bound unseen
  rcases bufferStore_cases (s := s) (n := n) now bytes nodup inside bound unseen with ⟨_, eq⟩ | eq | eq
  · rw [eq]
    exact ⟨k, le_refl _, (inv.unlink member).errorAck⟩
  · rw [eq]
    exact stored.drain
  · rw [eq]
    exact ⟨k, le_refl _, stored⟩

end Store

/-! ## Buffering a fragment -/

/-- What buffering fragment `i` of request `n` does, when the request has not been consumed. -/
inductive Buffering (s : Stream) (k n : Nat) (msg : Message) (i : Nat) (env : RxEnv) (q : RxQp) :
    RxQp → Prop
  | beyond (far : k + maxQpWr ≤ n) :
      Buffering s k n msg i env q (q.sendErrorAck (s.header n msg i) (s.psn n))
  | refused (new : q.reorderFind (s.psn n) = none)
      (full : reorderMaxMessages ≤ q.rxReorderCount ∨ env.msgAlloc = false) :
      Buffering s k n msg i env q (q.sendErrorAck (s.header n msg i) (s.psn n))
  | first (upper : n < k + maxQpWr) (new : q.reorderFind (s.psn n) = none) :
      Buffering s k n msg i env q
        ((q.reorderLink (s.stored n msg env.now [] 0)).bufferStore env (s.dataFrame n msg i)
          (s.stored n msg env.now [] 0) i)
  | further (upper : n < k + maxQpWr) (now : Nat) {seen : List Nat} (bytes : Nat)
      (member : s.stored n msg now seen bytes ∈ q.rxReorder) (unseen : i ∉ seen) :
      Buffering s k n msg i env q
        (q.bufferStore env (s.dataFrame n msg i) (s.stored n msg now seen bytes) i)
  | repeated : Buffering s k n msg i env q q
  | ready : Buffering s k n msg i env q (q.drain env)

theorem fragmentMatches_stored (n now bytes : Nat) {i : Nat} (msg : Message) {seen : List Nat} (member : i ∈ seen) :
    (s.stored n msg now seen bytes).fragmentMatches (i * dataMaxPayload) (msg.slice i) = true := by
  by_cases empty : msg.slice i = []
  · simp [ReorderMsg.fragmentMatches, empty]
  have here := mem_storedFrags member empty
  cases found : (msg.storedFrags seen).find? fun frag => frag.offset = i * dataMaxPayload with
  | none =>
      have absent := List.find?_eq_none.mp found _ here
      simp at absent
  | some frag =>
      have offset : frag.offset = i * dataMaxPayload := by simpa using List.find?_some found
      have data : frag.data = msg.slice i := by
        obtain ⟨j, _, stored⟩ := List.mem_filterMap.mp (List.mem_of_find?_eq_some found)
        split at stored
        · cases stored
        · obtain rfl := Option.some.inj stored
          have same : j = i := Nat.eq_of_mul_eq_mul_right (by decide) offset
          rw [same]
      simp only [ReorderMsg.fragmentMatches, Stream.stored, found, Option.any_some, data, decide_true,
        Bool.or_true]

theorem bufferMessage_cases {n i : Nat} {msg : Message} (base : Base s strict k hi k q)
    (request : s.request n = .data msg) (lower : k ≤ n) (near : n < k + 2 ^ 23) :
    Buffering s k n msg i env q
      (q.bufferMessage env (s.dataFrame n msg i) (.ok (i, msg.fragments)) (s.stored n msg env.now [] 0)) := by
  have current : q.isDuplicate (s.psn n) = false := by
    rw [s.isDuplicate_psn base.expected (by omega) near]
    simpa using lower
  have delta : psnDelta (s.psn n) q.rxExpectedPsn = (n : Int) - k := by
    rw [base.expected, s.psnDelta_psn (by omega) near]
  have psn : (s.stored n msg env.now [] 0).psn = s.psn n := rfl
  simp only [RxQp.bufferMessage, psn, current, Bool.false_eq_true, if_false, delta, reorderMaxMessages]
  split <;> rename_i far
  · exact .beyond (by omega)
  have upper : n < k + maxQpWr := by omega
  split <;> rename_i found
  · split <;> rename_i full
    · exact .refused found (.inl full)
    · split <;> rename_i alloc
      · exact .refused found (.inr (by simpa using alloc))
      · exact .first upper found
  · obtain ⟨member, same⟩ := reorderFind_some found
    have buffered := base.buffered lower upper member same
    cases buffered with
    | read _ request' =>
        rw [request] at request'
        cases request'
    | data bytes sane request' noImm nodup inside =>
        rename_i other now seen
        obtain rfl : msg = other := by simpa [request] using request'
        rw [if_neg (by simp [ReorderMsg.sameMessage, Stream.stored])]
        split <;> rename_i already
        · have known : i ∈ seen := by simpa [Stream.stored] using already
          rw [if_neg]
          · split
            · exact .ready
            · exact .repeated
          · have matched := fragmentMatches_stored (s := s) n now bytes msg known
            simpa [Stream.dataFrame] using matched
        · exact .further upper now bytes member (by simpa [Stream.stored] using already)

structure RxEnv.Timely (env : RxEnv) (clock : Nat) : Prop where
  later : clock ≤ env.now
  positive : 0 < env.now
  bounded : env.now < jiffyBound

theorem Inv.buffering {n i : Nat} {msg : Message} {q' : RxQp} (inv : Inv s strict sent k clock q)
    (request : s.request n = .data msg) (noImm : msg.op ≠ .rdmaWriteImm) (known : n < sent) (lower : k ≤ n)
    (bound : i < msg.fragments) (time : env.Timely clock) (behind : q.rxMsg ≠ none → n ≠ k)
    (step : Buffering s k n msg i env q q') :
    ∃ k', k ≤ k' ∧ Inv s strict sent k' env.now q' := by
  have timely := inv.later time.later
  cases step with
  | beyond | refused => exact ⟨k, le_refl _, timely.errorAck⟩
  | first upper new =>
      have buffered : Buffered s n (s.stored n msg env.now [] 0) :=
        .data 0 time.bounded request noImm List.nodup_nil (by simp)
      have linked := timely.link known lower upper buffered new (le_refl _) behind
      exact linked.bufferStore request noImm lower upper (List.mem_append_right _ (by simp)) bound (by simp)
  | further upper now bytes member unseen =>
      exact timely.bufferStore request noImm lower upper member bound unseen
  | repeated => exact ⟨k, le_refl _, timely⟩
  | ready => exact timely.drain

theorem bufferMessage_fragCount (frame : Frame) (idx count : Nat) (fresh : ReorderMsg) :
    q.bufferMessage env frame (.ok (idx, count)) fresh =
      q.bufferMessage env frame (.ok (idx, count)) { fresh with fragCount := count } := rfl

theorem bufferFragment_eq {n i : Nat} {msg : Message} (isSend : msg.op.isWrite = false)
    (bound : i < msg.fragments) :
    q.bufferFragment env (s.dataFrame n msg i) =
      q.bufferMessage env (s.dataFrame n msg i) (.ok (i, msg.fragments)) (s.stored n msg env.now [] 0) := by
  have positive := fragments_pos msg
  have opcode : msg.op.opcode = .sendImm ↔ msg.op = .sendImm := by
    cases op : msg.op <;> simp_all [SendOp.opcode]
  have imm : msg.op = .sendImm → msg.op.hasImm = true := by
    intro op
    rw [op]
    rfl
  simp only [RxQp.bufferFragment, Stream.dataFrame, header_immData, isSend, Bool.false_and,
    Bool.false_eq_true, if_false, rxFragmentShape_header s n msg bound]
  rw [bufferMessage_fragCount]
  congr 1
  simp only [Stream.stored, header_srcQp, header_psn, header_opcode, header_rkey, opcode, isSend,
    s.psn_mod, Bool.false_eq_true, if_false, List.length_nil, Message.storedFrags, List.reverse_nil,
    List.filterMap_nil, ReorderMsg.mk.injEq, true_and, and_true]
  refine ⟨?_, by simp; omega⟩
  split <;> rename_i op
  · rw [if_pos (imm op)]
  · rfl

theorem bufferWriteFragment_eq {n i : Nat} {msg : Message} (op : msg.op = .rdmaWrite)
    (bound : i < msg.fragments) :
    q.bufferWriteFragment env (s.dataFrame n msg i) msg.payload.length false =
      q.bufferMessage env (s.dataFrame n msg i) (.ok (i, msg.fragments)) (s.stored n msg env.now [] 0) := by
  have positive := fragments_pos msg
  simp only [RxQp.bufferWriteFragment, Stream.dataFrame, rxWriteFragmentShape,
    rxFragmentShape_header s n msg bound]
  rw [bufferMessage_fragCount]
  congr 1
  simp only [Stream.stored, header_srcQp, header_psn, header_rkey, header_remoteAddr, op, SendOp.isWrite,
    s.psn_mod, Bool.false_eq_true, if_false, if_true, List.length_nil, Message.storedFrags,
    List.reverse_nil, List.filterMap_nil, ReorderMsg.mk.injEq, true_and, and_true, reduceCtorEq]
  simp
  omega

end ThunderboltVerbs.Receive
