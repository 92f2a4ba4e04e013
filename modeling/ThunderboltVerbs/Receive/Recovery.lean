import ThunderboltVerbs.Receive.Order

/-!
# Which frames make the receiver give up

A sender whose keys are valid, receive requests that are large enough, allocations that succeed and a
completion queue that does not overflow: the receiver then answers ERROR only to the frames that
`FatalFrame` lists.
-/

namespace ThunderboltVerbs.Receive
open Proto Verbs Lib

def RecvWqe.Usable (regions : Nat → Option Mr) (wqe : RecvWqe) : Prop :=
  wqe.length = 0 ∨ ∃ mr, regions wqe.lkey = some mr ∧ mr.takesCopy wqe.addr wqe.length = true

def RecvWqe.Fits (s : Stream) (wqe : RecvWqe) : Prop :=
  ∀ n msg, s.request n = .data msg → msg.op.isWrite = false → msg.payload.length ≤ wqe.length

def Stream.KeysValid (s : Stream) (regions : Nat → Option Mr) : Prop :=
  ∀ n msg, s.request n = .data msg → msg.op.isWrite = true → msg.payload ≠ [] →
    ∃ mr, regions msg.rkey = some mr ∧ mr.remoteWrite = true ∧
      mr.takesIovaCopy msg.remoteAddr msg.payload.length = true

def Effect.isError : Effect → Bool
  | .ack _ _ _ .error | .reack _ _ _ .error | .consumed _ .error _ => true
  | _ => false

/-! ## Copies succeed -/

theorem takesCopy_inside {mr : Mr} {addr length offset len : Nat} (whole : mr.takesCopy addr length = true)
    (inside : offset + len ≤ length) : mr.takesCopy (addr + offset) len = true := by
  simp only [Mr.takesCopy, Mr.covers, Bool.and_eq_true, decide_eq_true_eq, Bool.not_eq_true'] at whole ⊢
  refine ⟨⟨whole.1.1, by omega⟩, ⟨whole.2.1.1, by omega⟩, by omega⟩

theorem takesIovaCopy_inside {mr : Mr} {iova length offset len : Nat}
    (whole : mr.takesIovaCopy iova length = true) (inside : offset + len ≤ length) :
    mr.takesIovaCopy (iova + offset) len = true := by
  simp only [Mr.takesIovaCopy, Bool.and_eq_true, decide_eq_true_eq, Bool.not_eq_true'] at whole ⊢
  obtain ⟨⟨⟨⟨⟨⟨dma, _⟩, virt⟩, start⟩, stop⟩, _⟩, copy⟩ := whole
  have place : mr.start + (iova + offset - mr.virtAddr) = mr.start + (iova - mr.virtAddr) + offset := by
    omega
  have copy' := takesCopy_inside copy inside
  have bound : mr.start + (iova - mr.virtAddr) + offset + len < 2 ^ 64 := by
    simp only [Mr.takesCopy, Bool.and_eq_true, decide_eq_true_eq] at copy'
    exact copy'.1.2
  rw [place]
  refine ⟨⟨⟨⟨⟨⟨dma, by omega⟩, virt⟩, by omega⟩, by omega⟩, by omega⟩, copy'⟩

variable {s : Stream} {regions : Nat → Option Mr} {strict : Prop} {sent lo hi k clock n i : Nat} {q : RxQp}
  {env : RxEnv}

theorem copyToWqe_ok {wqe : RecvWqe} {offset : Nat} {payload : List UInt8} (q : RxQp) (delivered : Nat)
    (served : env.mrs = regions) (usable : wqe.Usable regions)
    (inside : offset + payload.length ≤ wqe.length) :
    ∃ delivered', (q.copyToWqe env wqe offset payload delivered).2 = some delivered' := by
  have length : min payload.length (wqe.length - offset) = payload.length := by omega
  simp only [RxQp.copyToWqe, length]
  split <;> rename_i empty
  · exact ⟨_, rfl⟩
  · rcases usable with zero | ⟨mr, found, takes⟩
    · omega
    · have small : wqe.addr + offset < 2 ^ 64 := by
        simp only [Mr.takesCopy, Bool.and_eq_true, decide_eq_true_eq] at takes
        omega
      rw [served, found, Nat.mod_eq_of_lt small]
      simp only [takesCopy_inside takes inside, if_true]
      exact ⟨_, rfl⟩

theorem copyFrags_ok {wqe : RecvWqe} {frags : List ReorderFrag} {delivered : Nat}
    (served : env.mrs = regions) (usable : wqe.Usable regions)
    (inside : ∀ frag ∈ frags, frag.offset + frag.data.length ≤ wqe.length) :
    (RxQp.copyFrags env wqe frags q delivered).2.2 = true := by
  induction frags generalizing q delivered with
  | nil => rfl
  | cons frag rest ih =>
      obtain ⟨delivered', copied⟩ := copyToWqe_ok q delivered served usable (inside frag (by simp))
      simp only [RxQp.copyFrags]
      split <;> rename_i eq <;> rw [eq] at copied
      · cases copied
      · exact ih fun other member => inside other (by simp [member])

theorem copyToRemote_ok {rkey remoteAddr total offset : Nat} {payload : List UInt8} {mr : Mr}
    (served : env.mrs = regions) (found : regions rkey = some mr) (writable : mr.remoteWrite = true)
    (takes : mr.takesIovaCopy remoteAddr total = true) (inside : offset + payload.length ≤ total) :
    q.copyToRemote env rkey remoteAddr offset payload =
      some (q.note (.wrote rkey (remoteAddr + offset) payload)) := by
  have small : ¬2 ^ 64 ≤ remoteAddr + offset := by
    simp only [Mr.takesIovaCopy, Bool.and_eq_true, decide_eq_true_eq] at takes
    omega
  rw [RxQp.copyToRemote, if_neg small, served, found]
  simp only [writable, takesIovaCopy_inside takes inside, Bool.and_self, if_true]

theorem copyWriteFrags_ok {rkey remoteAddr total : Nat} {frags : List ReorderFrag} {mr : Mr}
    (served : env.mrs = regions) (found : regions rkey = some mr) (writable : mr.remoteWrite = true)
    (takes : mr.takesIovaCopy remoteAddr total = true)
    (inside : ∀ frag ∈ frags, frag.offset + frag.data.length ≤ total) :
    (RxQp.copyWriteFrags env rkey remoteAddr frags q).2 = true := by
  induction frags generalizing q with
  | nil => rfl
  | cons frag rest ih =>
      rw [RxQp.copyWriteFrags, copyToRemote_ok served found writable takes (inside frag (by simp))]
      exact ih fun other member => inside other (by simp [member])

theorem storedFrags_inside {msg : Message} {seen : List Nat} (inside : ∀ j ∈ seen, j < msg.fragments) :
    ∀ frag ∈ msg.storedFrags seen, frag.offset + frag.data.length ≤ msg.payload.length := by
  intro frag member
  obtain ⟨j, listed, stored⟩ := List.mem_filterMap.mp member
  split at stored
  · cases stored
  · obtain rfl := Option.some.inj stored
    exact fragment_inside (inside j (List.mem_reverse.mp listed))

/-! ## The invariant -/

structure RxEnv.Supplied (env : RxEnv) (regions : Nat → Option Mr) : Prop where
  mrs : env.mrs = regions
  msgAlloc : env.msgAlloc = true
  fragAlloc : env.fragAlloc = true

theorem Keeps.fits {q' : RxQp} (keeps : Keeps q q') (fits : q'.cq.overflowed = false) :
    q.cq.overflowed = false := by
  by_contra full
  simp [keeps.overflow (by simpa using full)] at fits

structure RxMessage.Healthy (s : Stream) (regions : Nat → Option Mr) (active : RxMessage) : Prop where
  status : active.status = .success
  usable : active.wqe.Usable regions
  large : active.wqe.Fits s

structure Calm (s : Stream) (regions : Nat → Option Mr) (q : RxQp) : Prop where
  quiet : ∀ effect ∈ q.trace, effect.isError = false
  history : ∀ slot psn status, q.ackHistory slot = some (psn, status) → status = .ok
  recvq : ∀ wqe ∈ q.recvq, wqe.Usable regions ∧ wqe.Fits s
  active : ∀ active ∈ q.rxMsg, active.Healthy s regions
  remoteWrite : q.remoteWrite = true
  nonempty : ∀ msg ∈ q.rxReorder, msg.kind = .write → msg.totalLen ≠ 0

theorem Calm.unlink (calm : Calm s regions q) (msg : ReorderMsg) : Calm s regions (q.reorderUnlink msg) :=
  { calm with nonempty := fun other left => calm.nonempty other (List.mem_of_mem_eraseP left) }

theorem Calm.note {effect : Effect} (calm : Calm s regions q) (fine : effect.isError = false) :
    Calm s regions (q.note effect) :=
  { calm with
    quiet := fun other member => by
      rcases List.mem_cons.mp member with rfl | old
      · exact fine
      · exact calm.quiet other old }

theorem Calm.consumePsn {psn : Nat} (calm : Calm s regions q) : Calm s regions (q.consumePsn psn .ok) := by
  have stored : Calm s regions ({ q with rxExpectedPsn := psnNext psn }.ackHistoryStore psn .ok) := by
    refine { calm with history := ?_ }
    intro slot old status found
    simp only [RxQp.ackHistoryStore, Function.update_apply] at found
    split at found
    · simp only [Option.some.injEq, Prod.mk.injEq] at found
      exact found.2.symm
    · exact calm.history slot old status found
  exact stored.note rfl

theorem Calm.skipPsn {psn : Nat} (calm : Calm s regions q) : Calm s regions (q.skipPsn psn .ok) := by
  have moved : Calm s regions { q with rxExpectedPsn := psnNext psn } := { calm with }
  exact moved.note rfl

theorem Calm.copied {q' : RxQp} (calm : Calm s regions q) (copied : Copied q q') : Calm s regions q' := by
  induction copied with
  | refl => exact calm
  | wrote _ _ _ _ ih | placed _ _ _ _ ih => exact ih (calm.note rfl)

theorem Calm.popRecv {wqe : RecvWqe} {q' : RxQp} (calm : Calm s regions q)
    (popped : q.popRecv = some (wqe, q')) :
    Calm s regions q' ∧ wqe.Usable regions ∧ wqe.Fits s := by
  obtain ⟨rest, recvq, rfl⟩ := popRecv_spec popped
  refine ⟨{ calm with recvq := fun other member => calm.recvq other ?_ }, calm.recvq wqe ?_⟩
  · rw [recvq]
    exact List.mem_cons_of_mem _ member
  · rw [recvq]
    exact List.mem_cons_self ..

theorem Calm.cqPushOption {psn : Nat} {wc : Option Wc} (calm : Calm s regions q)
    (fits : (q.cqPushOption psn wc).1.cq.overflowed = false) :
    Calm s regions (q.cqPushOption psn wc).1 ∧ (q.cqPushOption psn wc).2 = true := by
  obtain ⟨cq, pushed, eq, _, done⟩ := cqPushOption_spec q psn wc
  rw [eq] at fits
  refine ⟨?_, done fits⟩
  rw [eq]
  refine { calm with quiet := fun effect member => ?_ }
  cases pushed with
  | none => exact calm.quiet effect member
  | some wc =>
      rcases List.mem_cons.mp member with rfl | old
      · rfl
      · exact calm.quiet effect old

theorem Calm.conclude {psn srcQp : Nat} {wc : Option Wc} (calm : Calm s regions q)
    (fits : (q.conclude psn srcQp .success wc).cq.overflowed = false) :
    Calm s regions (q.conclude psn srcQp .success wc) := by
  have fits' : (q.cqPushOption psn wc).1.cq.overflowed = false := fits
  obtain ⟨pushed, done⟩ := calm.cqPushOption fits'
  have status : ackStatus .success (q.cqPushOption psn wc).2 = .ok := by simp [ackStatus, done]
  simp only [RxQp.conclude, status]
  exact pushed.consumePsn.note rfl

theorem Calm.reackDuplicate (calm : Calm s regions q) (destQp srcQp psn : Nat) :
    Calm s regions (q.reackDuplicate destQp srcQp psn) := by
  have answer : (q.ackHistoryLookup psn).getD .ok = .ok := by
    simp only [RxQp.ackHistoryLookup]
    split <;> rename_i found
    · rfl
    · split
      · rw [calm.history _ _ _ found]
        rfl
      · rfl
  apply calm.note
  rw [answer]
  rfl

theorem Calm.pruneStale (calm : Calm s regions q) : Calm s regions q.pruneStale := by
  have each : ∀ (q : RxQp) (msg : ReorderMsg), Calm s regions q → Calm s regions (q.pruneMsg msg) := by
    intro q msg calm
    simp only [RxQp.pruneMsg]
    split
    · exact calm
    · split
      · have noted : Calm s regions (q.note (.readRetry msg.psn)) := calm.note rfl
        exact noted.unlink msg
      · have noted := calm.reackDuplicate msg.srcQp q.qpNum msg.psn
        exact noted.unlink msg
  simp only [RxQp.pruneStale]
  generalize q.rxReorder = msgs
  induction msgs generalizing q with
  | nil => exact calm
  | cons msg msgs ih => exact ih (each q msg calm)

/-! ## Delivery and the drain -/

section Deliver

variable {data : Message} {now bytes : Nat} {seen : List Nat} (calm : Calm s regions q)
  (served : env.mrs = regions) (request : s.request k = .data data)
  (inside : ∀ j ∈ seen, j < data.fragments)
include calm served request inside

theorem Calm.deliverSend (isSend : data.op.isWrite = false)
    (fits : (q.deliverSend env (s.stored k data now seen bytes)).1.cq.overflowed = false) :
    Calm s regions (q.deliverSend env (s.stored k data now seen bytes)).1 := by
  set msg := s.stored k data now seen bytes with stored
  simp only [RxQp.deliverSend] at fits ⊢
  split <;> rename_i popped
  · exact calm.note rfl
  · rename_i wqe q'
    obtain ⟨calm', usable, large⟩ := calm.popRecv popped
    have room : msg.totalLen ≤ wqe.length := large k data request isSend
    have copied : (RxQp.copyFrags env wqe msg.frags (q'.reorderUnlink msg) 0).2.2 = true := by
      apply copyFrags_ok served usable
      intro frag member
      exact (storedFrags_inside inside frag member).trans room
    have short : ¬msg.totalLen > wqe.length := by omega
    simp only [popped, copied, Bool.not_true, Bool.false_eq_true, if_false, if_neg short] at fits ⊢
    exact ((calm'.unlink msg).copied (copyFrags_copied ..)).conclude fits

theorem Calm.deliverWrite (keys : s.KeysValid regions) (op : data.op = .rdmaWrite)
    (nonempty : data.payload ≠ [])
    (fits : (q.deliverWrite env (s.stored k data now seen bytes)).1.cq.overflowed = false) :
    Calm s regions (q.deliverWrite env (s.stored k data now seen bytes)).1 := by
  have isWrite : data.op.isWrite = true := by rw [op]; rfl
  obtain ⟨mr, found, writable, takes⟩ := keys k data request isWrite nonempty
  set msg := s.stored k data now seen bytes with stored
  have plain : msg.withImm = false := by simp [stored, Stream.stored, op]
  have rkey : msg.rkey = data.rkey := by simp [stored, Stream.stored, isWrite]
  have remoteAddr : msg.remoteAddr = data.remoteAddr := by simp [stored, Stream.stored, isWrite]
  have known : ((env.mrs data.rkey).any fun mr => mr.remoteWrite) = true := by
    simp [served, found, writable]
  have copied : (RxQp.copyWriteFrags env data.rkey data.remoteAddr msg.frags (q.reorderUnlink msg)).2 =
      true :=
    copyWriteFrags_ok served found writable takes (storedFrags_inside inside)
  simp only [RxQp.deliverWrite, plain, rkey, remoteAddr, known, copied, Bool.false_eq_true, if_false,
    if_true] at fits ⊢
  exact ((calm.unlink msg).copied (copyWriteFrags_copied ..)).conclude fits

end Deliver

theorem Calm.queueReadWork (calm : Calm s regions q) (env : RxEnv) (request : DataHeader) :
    Calm s regions (q.queueReadWork env request) := by
  simp only [RxQp.queueReadWork]
  split
  · exact calm.note rfl
  · exact calm.note rfl

theorem Calm.deliver {msg : ReorderMsg} (calm : Calm s regions q) (keys : s.KeysValid regions)
    (served : env.mrs = regions) (base : Base s strict k hi k q) (member : msg ∈ q.rxReorder)
    (expected : msg.psn = s.psn k) (fits : (q.deliver env msg).1.cq.overflowed = false) :
    Calm s regions (q.deliver env msg).1 := by
  obtain ⟨n, lower, upper, buffered⟩ := base.entries msg member
  have near := base.near
  simp only [maxQpWr] at near
  obtain rfl : n = k := s.psn_inj (by omega) (by omega) (buffered.psn.symm.trans expected)
  cases buffered with
  | data bytes sane request noImm nodup inside =>
      rename_i data now seen
      by_cases isWrite : data.op.isWrite = true
      · have kind : (s.stored n data now seen bytes).kind = .write := by simp [Stream.stored, isWrite]
        have op : data.op = .rdmaWrite := by cases op : data.op <;> simp_all [SendOp.isWrite]
        have nonempty : data.payload ≠ [] := fun empty =>
          calm.nonempty _ member kind (by simp [Stream.stored, empty])
        simp only [RxQp.deliver, kind] at fits ⊢
        exact calm.deliverWrite served request inside keys op nonempty fits
      · have kind : (s.stored n data now seen bytes).kind = .send := by simp [Stream.stored, isWrite]
        simp only [RxQp.deliver, kind] at fits ⊢
        exact calm.deliverSend served request inside (by simpa using isWrite) fits
  | read _ request => exact (calm.unlink _).skipPsn.queueReadWork env _

theorem Calm.drainLoop {turns : Nat} (calm : Calm s regions q) (keys : s.KeysValid regions)
    (served : env.mrs = regions) (base : Base s strict lo hi k q) (idle : q.idle = true)
    (fits : (RxQp.drainLoop env turns q).cq.overflowed = false) :
    Calm s regions (RxQp.drainLoop env turns q) := by
  induction turns generalizing q k lo with
  | zero => exact calm
  | succ turns ih =>
      obtain ⟨pruned, keeps⟩ := base.pruneStale
      have calm' := calm.pruneStale
      simp only [RxQp.drainLoop, idle, Bool.not_true, Bool.false_eq_true, if_false] at fits ⊢
      split <;> rename_i found
      · exact calm'
      · rename_i msg
        obtain ⟨member, expected⟩ := reorderFind_some found
        rw [pruned.expected] at expected
        simp only [found] at fits
        split <;> rename_i complete
        · exact calm'
        · simp only [complete] at fits
          have delivered : Delivered s strict hi k q.pruneStale (q.pruneStale.deliver env msg) :=
            pruned.deliver member expected (by simpa using complete)
          have step := calm'.deliver keys served pruned member expected
          split <;> rename_i result <;> rw [result] at delivered step
          · simp only [result] at fits
            exact step fits
          · simp only [result] at fits
            cases delivered with
            | went base' keeps' =>
                have idle' := (keeps.trans keeps').idle.trans idle
                -- the queue pair after this turn has not overflowed, since the last one has not
                obtain ⟨_, _, _, _, kept⟩ := base'.drainLoop idle' fun _ => rfl
                exact ih (step (kept.fits fits)) base' idle' fits

theorem Calm.drain (calm : Calm s regions q) (keys : s.KeysValid regions) (served : env.mrs = regions)
    (base : Base s strict lo hi k q) (fits : (q.drain env).cq.overflowed = false) :
    Calm s regions (q.drain env) := by
  by_cases idle : q.idle = true
  · exact calm.drainLoop keys served base idle fits
  · rw [drain_busy (by simpa using idle)]
    exact calm

/-! ## Buffering -/

def RxQp.holds (q : RxQp) (psn idx : Nat) : Bool :=
  q.rxReorder.any fun msg => msg.psn = psn && msg.fragSeen.contains idx

def NoRoom (s : Stream) (q : RxQp) (n : Nat) (msg : Message) (i : Nat) : Prop :=
  msg.slice i ≠ [] ∧ q.rxReorderBytes + (msg.slice i).length > reorderMaxBytes ∧
    q.holds (s.psn n) i = false

theorem Base.place (base : Base s strict k hi k q) (lower : k ≤ n) (upper : n < k + maxQpWr)
    (new : q.reorderFind (s.psn n) = none) : q.rxReorderCount < reorderMaxMessages := by
  have absent : ∀ msg ∈ q.rxReorder, msg.psn ≠ s.psn n := by simpa [RxQp.reorderFind] using new
  have nodup : (s.psn n :: q.rxReorder.map ReorderMsg.psn).Nodup := by
    refine List.nodup_cons.mpr ⟨?_, base.distinct⟩
    intro listed
    obtain ⟨msg, member, psn⟩ := List.mem_map.mp listed
    exact absent msg member psn
  have window : s.psn n :: q.rxReorder.map ReorderMsg.psn ⊆
      (List.range maxQpWr).map fun j => s.psn (k + j) := by
    have inside : ∀ m, k ≤ m → m < k + maxQpWr →
        s.psn m ∈ (List.range maxQpWr).map fun j => s.psn (k + j) := by
      intro m above below
      refine List.mem_map.mpr ⟨m - k, List.mem_range.mpr (by omega), ?_⟩
      rw [Nat.add_sub_cancel' above]
    intro psn listed
    rcases List.mem_cons.mp listed with rfl | old
    · exact inside n lower upper
    · obtain ⟨msg, member, rfl⟩ := List.mem_map.mp old
      obtain ⟨m, above, below, buffered⟩ := base.entries msg member
      rw [buffered.psn]
      exact inside m above (below.trans_le base.near)
  have few := (nodup.subperm window).length_le
  simp only [List.length_cons, List.length_map, List.length_range] at few
  rw [base.count]
  exact few

theorem Calm.link {msg : ReorderMsg} (calm : Calm s regions q)
    (nonempty : msg.kind = .write → msg.totalLen ≠ 0) : Calm s regions (q.reorderLink msg) := by
  refine { calm with nonempty := ?_ }
  intro other member
  rcases List.mem_append.mp member with old | added
  · exact calm.nonempty other old
  · obtain rfl := List.mem_singleton.mp added
    exact nonempty

section Buffering

variable {msg : Message} (request : s.request n = .data msg) (noImm : msg.op ≠ .rdmaWriteImm)
  (lower : k ≤ n) (upper : n < k + maxQpWr) (bound : i < msg.fragments)
include request noImm lower upper bound

theorem Calm.bufferStore {now bytes : Nat} {seen : List Nat} (calm : Calm s regions q)
    (inv : Inv s strict sent k clock q) (keys : s.KeysValid regions) (served : env.mrs = regions)
    (member : s.stored n msg now seen bytes ∈ q.rxReorder) (unseen : i ∉ seen)
    (room : ¬storeFails q env (msg.slice i).length)
    (fits : (q.bufferStore env (s.dataFrame n msg i) (s.stored n msg now seen bytes) i).cq.overflowed = false) :
    Calm s regions (q.bufferStore env (s.dataFrame n msg i) (s.stored n msg now seen bytes) i) := by
  obtain ⟨stored, nodup, inside⟩ := inv.withFragment request noImm lower upper member bound unseen
  have calm' : Calm s regions (s.withFragment n msg now seen bytes i q) := by
    refine { calm with nonempty := ?_ }
    intro other listed
    rcases mem_replaceKey listed with rfl | ⟨old, _⟩
    · exact calm.nonempty (s.stored n msg now seen bytes) member
    · exact calm.nonempty other old
  rcases bufferStore_cases (s := s) (n := n) now bytes nodup inside bound unseen with ⟨fails, _⟩ | eq | eq
  · exact absurd fails room
  · rw [eq] at fits ⊢
    exact calm'.drain keys served stored.base fits
  · rw [eq]
    exact calm'

theorem Calm.buffering {q' : RxQp} (calm : Calm s regions q) (inv : Inv s strict sent k clock q)
    (known : n < sent) (keys : s.KeysValid regions) (time : env.Timely clock) (behind : q.rxMsg ≠ none → n ≠ k)
    (supplied : env.Supplied regions) (nonempty : msg.op.isWrite = true → msg.payload ≠ [])
    (room : ¬NoRoom s q n msg i) (step : Buffering s k n msg i env q q')
    (fits : q'.cq.overflowed = false) : Calm s regions q' := by
  have timely := inv.later time.later
  have stores : q.holds (s.psn n) i = false → ¬storeFails q env (msg.slice i).length := by
    rintro fresh ⟨filled, full | failed⟩
    · exact room ⟨List.length_pos_iff.mp (Nat.pos_of_ne_zero filled), full, fresh⟩
    · simp [supplied.fragAlloc] at failed
  cases step with
  | beyond far => omega
  | refused new full =>
      have place := inv.base.place lower upper new
      rcases full with many | failed
      · omega
      · simp [supplied.msgAlloc] at failed
  | first _ new =>
      have buffered : Buffered s n (s.stored n msg env.now [] 0) :=
        .data 0 time.bounded request noImm List.nodup_nil (by simp)
      have linked := timely.link known lower upper buffered new (le_refl _) behind
      have calm' : Calm s regions (q.reorderLink (s.stored n msg env.now [] 0)) := by
        refine calm.link fun kind => ?_
        have isWrite : msg.op.isWrite = true := by
          by_contra isSend
          simp [Stream.stored, isSend] at kind
        simpa [Stream.stored] using nonempty isWrite
      have absent : q.holds (s.psn n) i = false := by
        have others : ∀ msg ∈ q.rxReorder, msg.psn ≠ s.psn n := by simpa [RxQp.reorderFind] using new
        simp only [RxQp.holds, List.any_eq_false, Bool.and_eq_true, decide_eq_true_eq, not_and]
        exact fun msg member psn => absurd psn (others msg member)
      exact calm'.bufferStore request noImm lower upper bound linked keys supplied.mrs
        (List.mem_append_right _ (by simp)) (by simp) (stores absent) fits
  | further _ now bytes member unseen =>
      rename_i seen
      have absent : q.holds (s.psn n) i = false := by
        simp only [RxQp.holds, List.any_eq_false, Bool.and_eq_true, decide_eq_true_eq, not_and]
        intro other listed psn
        obtain rfl : other = s.stored n msg now seen bytes :=
          List.inj_on_of_nodup_map inv.base.distinct listed member psn
        simpa [Stream.stored] using unseen
      exact calm.bufferStore request noImm lower upper bound inv keys supplied.mrs member unseen
        (stores absent) fits
  | repeated => exact calm
  | ready => exact calm.drain keys supplied.mrs inv.base fits

end Buffering

/-! ## Receiving a message -/

theorem copySend_status {active : RxMessage} {offset : Nat} {payload : List UInt8} (q : RxQp)
    (served : env.mrs = regions) (usable : active.wqe.Usable regions)
    (inside : offset + payload.length ≤ active.wqe.length) :
    (q.copySend env active offset payload).2.status = active.status := by
  obtain ⟨delivered, copied⟩ := copyToWqe_ok q active.delivered served usable inside
  simp only [RxQp.copySend]
  split <;> rename_i eq
  · rw [eq] at copied
    cases copied
  · rfl

theorem RxMessage.Healthy.start {msg : Message} {wqe : RecvWqe} (usable : wqe.Usable regions)
    (large : wqe.Fits s) (request : s.request k = .data msg) (isSend : msg.op.isWrite = false)
    (now count : Nat) : (RxMessage.start (s.header k msg i) wqe now count).Healthy s regions := by
  refine ⟨?_, usable, large⟩
  have room := large k msg request isSend
  simp only [RxMessage.start, header_immData, isSend, Bool.false_and, Bool.false_eq_true, if_false]
  rw [if_neg (by omega)]

theorem Calm.receiving {msg : Message} {q' : RxQp} {active : RxMessage} (calm : Calm s regions q)
    (request : s.request k = .data msg) (isSend : msg.op.isWrite = false)
    (receiving : Receiving s k msg i env q q' active) :
    Calm s regions q' ∧ active.Healthy s regions := by
  cases receiving with
  | going active isActive => exact ⟨calm, calm.active active isActive⟩
  | begun wqe count vacant new popped =>
      obtain ⟨calm', usable, large⟩ := calm.popRecv popped
      exact ⟨calm', .start usable large request isSend env.now count⟩

section Recording

variable {msg : Message} {active : RxMessage} (calm : Calm s regions q)
  (base : Base s strict k hi k q) (noWrite : q.rxWrite = none)
  (alone : ∀ msg ∈ q.rxReorder, msg.psn ≠ s.psn k) (keys : s.KeysValid regions)
  (served : env.mrs = regions) (request : s.request k = .data msg) (isSend : msg.op.isWrite = false)
  (same : active.sameSend (s.header k msg 0) = true) (healthy : active.Healthy s regions)
include calm base noWrite alone keys served request isSend same healthy

theorem Calm.finishAndDrain (fits : ((q.finishSend active).drain env).cq.overflowed = false) :
    Calm s regions ((q.finishSend active).drain env) := by
  have finished := base.finishSend request isSend alone (psn_of_sameSend same)
  obtain ⟨_, _, _, _, keeps⟩ := finished.drain env (finishSend_idle active noWrite)
  have cleared : Calm s regions { q with rxMsg := none } := { calm with active := by simp }
  have calm' : Calm s regions (q.finishSend active) := by
    have fits' := keeps.fits fits
    simp only [RxQp.finishSend, healthy.status] at fits' ⊢
    exact cleared.conclude fits'
  exact calm'.drain keys served finished fits

omit base noWrite alone keys served request isSend same in
theorem Calm.begin : Calm s regions { q with rxMsg := some active } := by
  refine { calm with active := ?_ }
  rintro _ ⟨⟩
  exact healthy

theorem Calm.recordPlain (bound : i < msg.fragments)
    (fits : (q.recordPlain env active (i * dataMaxPayload) (msg.slice i)
      (decide (i + 1 = msg.fragments))).cq.overflowed = false) :
    Calm s regions
      (q.recordPlain env active (i * dataMaxPayload) (msg.slice i) (decide (i + 1 = msg.fragments))) := by
  obtain ⟨copied, status, delivered, eq⟩ := copySend_spec q env active (i * dataMaxPayload) (msg.slice i)
  have inside := (fragment_inside bound).trans (healthy.large k msg request isSend)
  have success := copySend_status q served healthy.usable inside
  set taken := q.copySend env active (i * dataMaxPayload) (msg.slice i) with takenDef
  have same' : taken.2.sameSend (s.header k msg 0) = true := by rw [eq]; exact same
  have healthy' : taken.2.Healthy s regions := by
    refine ⟨success.trans healthy.status, ?_, ?_⟩
    · rw [eq]
      exact healthy.usable
    · rw [eq]
      exact healthy.large
  have alone' : ∀ other ∈ taken.1.rxReorder, other.psn ≠ s.psn k := by rwa [copied.reorder]
  simp only [RxQp.recordPlain, ← takenDef] at fits ⊢
  split <;> rename_i last
  · rw [if_pos last] at fits
    exact (calm.copied copied).finishAndDrain (base.copied copied) (copied.keeps.rxWrite.trans noWrite)
      alone' keys served request isSend same' healthy' fits
  · exact (calm.copied copied).begin healthy'

theorem Calm.recordStriped (bound : i < msg.fragments)
    (fits : (q.recordStriped env active i (s.dataFrame k msg i)).cq.overflowed = false) :
    Calm s regions (q.recordStriped env active i (s.dataFrame k msg i)) := by
  obtain ⟨q', active', copied, message, status, eq⟩ := recordStriped_spec q env active i (s.dataFrame k msg i)
  have inside := (fragment_inside bound).trans (healthy.large k msg request isSend)
  have success : active'.status = active.status := by
    rcases status with kept | recorded
    · exact kept
    · exact recorded.trans (copySend_status q served healthy.usable inside)
  obtain ⟨received, delivered, _, fragsReceived, fragSeen, rfl⟩ := message
  have healthy' := RxMessage.Healthy.mk (success.trans healthy.status) healthy.usable healthy.large
  have alone' : ∀ other ∈ q'.rxReorder, other.psn ≠ s.psn k := by rwa [copied.reorder]
  rw [eq] at fits ⊢
  split <;> rename_i last
  · rw [if_pos last] at fits
    exact (calm.copied copied).finishAndDrain (base.copied copied) (copied.keeps.rxWrite.trans noWrite)
      alone' keys served request isSend same healthy' fits
  · exact (calm.copied copied).begin healthy'

end Recording

theorem Calm.finishWrite {write : RxWrite} (calm : Calm s regions q) (base : Base s strict k hi k q)
    (vacant : q.rxMsg = none) (psn : write.psn = s.psn k) (applied : AppliedIf s k q (WcStatus.success = .success))
    (keys : s.KeysValid regions) (served : env.mrs = regions)
    (fits : (q.finishWrite env write .success).cq.overflowed = false) :
    Calm s regions (q.finishWrite env write .success) := by
  obtain ⟨consumed, idle, _⟩ := base.advanceWrite vacant psn applied
  obtain ⟨_, _, _, _, kept⟩ := consumed.drain env idle
  rw [finishWrite_eq .success (base.expected.trans psn.symm)] at fits ⊢
  have fits' : (q.advanceWrite write .success).1.cq.overflowed = false := kept.fits fits
  have cleared : Calm s regions { q with rxWrite := none } := { calm with }
  simp only [RxQp.advanceWrite] at fits'
  obtain ⟨pushed, done⟩ := cleared.cqPushOption fits'
  have status : (q.advanceWrite write .success).2 = .ok := by
    simp [RxQp.advanceWrite, ackStatus, done]
  have advanced : Calm s regions (q.advanceWrite write .success).1 := by
    simp only [RxQp.advanceWrite, ackStatus, done, and_self, if_true]
    exact pushed.consumePsn
  rw [status]
  exact (advanced.drain keys served consumed fits).note rfl

theorem Calm.recordWrite {msg : Message} {write : RxWrite} (calm : Calm s regions q)
    (base : Base s strict k hi k q) (vacant : q.rxMsg = none) (keys : s.KeysValid regions)
    (served : env.mrs = regions) (request : s.request k = .data msg) (isWrite : msg.op.isWrite = true)
    (same : write.sameWrite (s.header k msg 0) = true) (bound : i < msg.fragments)
    (applied : ∀ j < i, SliceApplied msg q.trace j)
    (fits : (q.recordWrite env write (i * dataMaxPayload) (msg.slice i)
      (decide (i + 1 = msg.fragments))).cq.overflowed = false) :
    Calm s regions
      (q.recordWrite env write (i * dataMaxPayload) (msg.slice i) (decide (i + 1 = msg.fragments))) := by
  obtain ⟨psn, rkey, remoteAddr⟩ := fields_of_sameWrite isWrite same
  by_cases empty : msg.slice i = []
  · have whole : msg.payload = [] := by
      by_contra nonempty
      exact slice_ne_nil msg bound nonempty empty
    have final : AppliedIf s k q (WcStatus.success = .success) :=
      .of_slices request fun j _ filled => absurd (by simp [Message.slice, whole]) filled
    simp only [RxQp.recordWrite, if_pos empty] at fits ⊢
    split <;> rename_i last
    · rw [if_pos last] at fits
      exact calm.finishWrite base vacant psn final keys served fits
    · exact { calm with }
  · have filled : msg.payload ≠ [] := fun whole => empty (by simp [Message.slice, whole])
    obtain ⟨mr, found, writable, takes⟩ := keys k msg request isWrite filled
    have copied := copyToRemote_ok (q := q) served found writable takes (fragment_inside bound)
    set wrote := Effect.wrote msg.rkey (msg.remoteAddr + i * dataMaxPayload) (msg.slice i) with wroteDef
    have calm' : Calm s regions (q.note wrote) := calm.note rfl
    simp only [RxQp.recordWrite, if_neg empty, rkey, remoteAddr, copied] at fits ⊢
    split <;> rename_i last
    · rw [if_pos last] at fits
      have final : i + 1 = msg.fragments := by simpa using last
      have base' : Base s strict k hi k (q.note wrote) := base.note rfl trivial
      refine calm'.finishWrite base' vacant psn (.of_slices request fun j inside _ => ?_) keys served fits
      by_cases here : j = i
      · subst here
        exact List.mem_cons_self ..
      · exact List.mem_cons_of_mem _ (applied j (by omega))
    · exact { calm' with }

/-! ## Fatal frames -/

/-- An inner fragment of the expected request comes before the first one. A SEND has no place for it
without striping, a WRITE with immediate data never has. -/
def StartLost (s : Stream) (q : RxQp) (n i : Nat) (msg : Message) : Prop :=
  i ≠ 0 ∧ n = consumedCount q.trace ∧
    (msg.op.isWrite = false ∧ q.striping = false ∧ q.rxMsg = none ∧ q.reorderFind (s.psn n) = none ∨
      msg.op = .rdmaWriteImm ∧ q.rxWrite = none)

def Waits (s : Stream) (q : RxQp) (n i : Nat) (msg : Message) : Prop :=
  consumedCount q.trace ≤ n ∧ msg.op ≠ .rdmaWriteImm ∧
    if msg.op.isWrite then WriteWaits s (consumedCount q.trace) n i q
    else SendWaits s (consumedCount q.trace) n q

/-- Frame `i` of request `n` is answered with ERROR although the request could still succeed. -/
def FatalFrame (s : Stream) (q : RxQp) (n i : Nat) : Prop :=
  ∃ msg, s.request n = .data msg ∧
    (msg.op = .rdmaWrite ∧ msg.payload = [] ∨
      q.rnrSuppresses (s.header n msg i) = false ∧
        (StartLost s q n i msg ∨ Waits s q n i msg ∧ NoRoom s q n msg i))

theorem Calm.withRnr (calm : Calm s regions q) (rnr : Option RnrMark) :
    Calm s regions { q with rnr := rnr } := { calm with }

theorem Calm.refuseRnr (calm : Calm s regions q) (header : DataHeader) :
    Calm s regions (q.refuseRnr header) := (calm.withRnr _).note rfl

section Frame

variable {msg : Message} {q' : RxQp} (calm : Calm s regions q) (inv : Inv s strict sent k clock q)
  (keys : s.KeysValid regions) (supplied : env.Supplied regions) (time : env.Timely clock)
  (request : s.request n = .data msg) (known : n < sent) (upper : n < k + maxQpWr)
  (bound : i < msg.fragments) (started : ¬StartLost s q n i msg) (room : Waits s q n i msg → ¬NoRoom s q n msg i)
  (fits : q'.cq.overflowed = false)
include calm inv keys supplied time request known upper bound started room fits

theorem Calm.sendStep (isSend : msg.op.isWrite = false) (step : SendStep s k n msg i env q q') :
    Calm s regions q' := by
  have noImm : msg.op ≠ .rdmaWriteImm := by
    intro op
    simp [op, SendOp.isWrite] at isSend
  have count := inv.base.sound.count
  cases step with
  | ignored => exact calm
  | duplicate => exact calm.reackDuplicate _ _ _
  | buffered current waits step =>
      refine calm.buffering request noImm current upper bound inv known keys time ?_ supplied
        (by simp [isSend]) (room ⟨count ▸ current, noImm, ?_⟩) step fits
      · rcases waits with ahead | ⟨vacant, _⟩
        · exact fun _ => by omega
        · exact fun isActive => absurd vacant isActive
      · simpa only [isSend, Bool.false_eq_true, if_false, count] using waits
  | lost current plain vacant new inner =>
      exact absurd ⟨inner, current.trans count.symm, .inl ⟨isSend, plain, vacant, new⟩⟩ started
  | refused => exact calm.refuseRnr _
  | striped current mode receiving same count =>
      subst current
      obtain ⟨base, keeps, alone⟩ := receiving.base inv
      obtain ⟨calm', healthy⟩ := calm.receiving request isSend receiving
      exact calm'.recordStriped base (keeps.rxWrite.trans (inv.noWrite request isSend)) alone keys
        supplied.mrs request isSend same healthy bound fits
  | plain current mode receiving same place =>
      subst current
      obtain ⟨base, keeps, alone⟩ := receiving.base inv
      obtain ⟨calm', healthy⟩ := calm.receiving request isSend receiving
      exact calm'.recordPlain base (keeps.rxWrite.trans (inv.noWrite request isSend)) alone keys
        supplied.mrs request isSend same healthy bound fits

theorem Calm.writeStep (isWrite : msg.op.isWrite = true) (nonempty : msg.op = .rdmaWrite → msg.payload ≠ [])
    (step : WriteStep s k n msg i env q q') : Calm s regions q' := by
  have count := inv.base.sound.count
  cases step with
  | ignored => exact calm
  | duplicate => exact calm.reackDuplicate _ _ _
  | buffered current waits op step =>
      refine calm.buffering request (by simp [op]) current upper bound inv known keys time ?_ supplied
        (fun _ => nonempty op) (room ⟨count ▸ current, by simp [op], ?_⟩) step fits
      · rintro isActive rfl
        exact isActive (inv.noMsg request isWrite)
      · simpa only [isWrite, if_true, count] using waits
  | lost current vacant op inner =>
      exact absurd ⟨inner, current.trans count.symm, .inr ⟨op, vacant⟩⟩ started
  | refused => exact calm.refuseRnr _
  | recorded current writing same place =>
      subst current
      have vacant := inv.noMsg request isWrite
      cases writing with
      | going write isActive =>
          obtain ⟨own, j, ownRequest, _, _, _, received, applied⟩ := inv.write _ isActive
          obtain rfl : msg = own := by simpa [request] using ownRequest
          obtain rfl : j = i :=
            Nat.eq_of_mul_eq_mul_right (by decide : 0 < dataMaxPayload) (received.symm.trans place)
          exact calm.recordWrite inv.base vacant keys supplied.mrs request isWrite same bound applied fits
      | begun wqe idle new popped first =>
          subst first
          rcases popped with rfl | popped
          · exact calm.recordWrite inv.base vacant keys supplied.mrs request isWrite same bound (by omega) fits
          · have vacant' := (keeps_popRecv popped).rxMsg.trans vacant
            exact (calm.popRecv popped).1.recordWrite (inv.base.popRecv popped) vacant' keys supplied.mrs
              request isWrite same bound (by omega) fits

end Frame

theorem near_of_window (upper : n < k + maxQpWr) : n < k + 2 ^ 23 := by
  simp only [maxQpWr] at upper
  omega

section Handle

variable (calm : Calm s regions q) (inv : Inv s strict sent k clock q) (keys : s.KeysValid regions)
  (supplied : env.Supplied regions) (time : env.Timely clock) (known : n < sent)
  (young : k ≤ n + 2 ^ 23) (upper : n < k + maxQpWr)
include calm inv keys supplied time known young upper

theorem Calm.handleSendFragment {msg : Message} (request : s.request n = .data msg)
    (isSend : msg.op.isWrite = false) (bound : i < msg.fragments) (harmless : ¬FatalFrame s q n i)
    (fits : (q.handleSendFragment env (s.dataFrame n msg i)).cq.overflowed = false) :
    Calm s regions (q.handleSendFragment env (s.dataFrame n msg i)) := by
  rcases handleSendFragment_cases inv request isSend young (near_of_window upper) bound env with ⟨same, _⟩ |
    ⟨free, step⟩
  · rw [same]
    exact calm
  · obtain ⟨rnr, cleared⟩ := clearRnr_eq q s.srcQp (s.psn n)
    rw [cleared] at step
    refine (calm.withRnr rnr).sendStep (inv.withRnr rnr) keys supplied time request known upper bound ?_ ?_ fits
      isSend step
    · exact fun lost => harmless ⟨msg, request, .inr ⟨free, .inl lost⟩⟩
    · exact fun waits full => harmless ⟨msg, request, .inr ⟨free, .inr ⟨waits, full⟩⟩⟩

theorem Calm.handleRdmaWriteFragment {msg : Message} (request : s.request n = .data msg)
    (isWrite : msg.op.isWrite = true) (bound : i < msg.fragments) (harmless : ¬FatalFrame s q n i)
    (fits : (q.handleRdmaWriteFragment env (s.dataFrame n msg i)).cq.overflowed = false) :
    Calm s regions (q.handleRdmaWriteFragment env (s.dataFrame n msg i)) := by
  have nonempty : msg.op = .rdmaWrite → msg.payload ≠ [] := fun op empty =>
    harmless ⟨msg, request, .inl ⟨op, empty⟩⟩
  rcases handleRdmaWriteFragment_cases inv request isWrite young (near_of_window upper) bound env with
    ⟨denied | ⟨op, empty⟩, _⟩ | ⟨same, _⟩ | ⟨free, step⟩
  · rw [calm.remoteWrite] at denied
    cases denied
  · exact absurd empty (nonempty op)
  · rw [same]
    exact calm
  · obtain ⟨rnr, cleared⟩ := clearRnr_eq q s.srcQp (s.psn n)
    rw [cleared] at step
    refine (calm.withRnr rnr).writeStep (inv.withRnr rnr) keys supplied time request known upper bound ?_ ?_ fits
      isWrite nonempty step
    · exact fun lost => harmless ⟨msg, request, .inr ⟨free, .inl lost⟩⟩
    · exact fun waits full => harmless ⟨msg, request, .inr ⟨free, .inr ⟨waits, full⟩⟩⟩

omit time known young upper in
theorem Calm.bufferReadReq (header : DataHeader)
    (fits : (q.bufferReadReq env header).cq.overflowed = false) :
    Calm s regions (q.bufferReadReq env header) := by
  revert fits
  simp only [RxQp.bufferReadReq]
  split
  · exact fun _ => calm.note rfl
  split
  · exact fun _ => calm.note rfl
  split
  · split
    · exact fun _ => calm.note rfl
    · split
      · exact fun _ => calm.note rfl
      · exact fun _ => calm.link (by simp)
  · split
    · exact fun _ => (calm.unlink _).note rfl
    · split
      · exact fun fits => calm.drain keys supplied.mrs inv.base fits
      · exact fun _ => calm

omit time known in
theorem Calm.handleRdmaReadReq {totalLen remoteAddr rkey : Nat}
    (request : s.request n = .read totalLen remoteAddr rkey)
    (fits : (q.handleRdmaReadReq env
      (s.readFrame n totalLen remoteAddr rkey).header).cq.overflowed = false) :
    Calm s regions (q.handleRdmaReadReq env (s.readFrame n totalLen remoteAddr rkey).header) := by
  have near := near_of_window upper
  have delta : psnDelta (s.psn n) q.rxExpectedPsn = (n : Int) - k := by
    rw [inv.base.expected, s.psnDelta_psn young near]
  have psn : (s.readFrame n totalLen remoteAddr rkey).header.psn % psnMod = s.psn n := s.psn_mod n
  revert fits
  simp only [RxQp.handleRdmaReadReq, psn, delta]
  split
  · exact fun _ => calm.note rfl
  split <;> rename_i elsewhere
  · exact calm.bufferReadReq inv keys supplied _
  · simp only [not_or, not_not, Bool.not_eq_false, Bool.not_eq_true, Option.isSome_eq_false_iff,
      Option.isNone_iff_eq_none] at elsewhere
    obtain ⟨here, idle, new⟩ := elsewhere
    obtain rfl : n = k := by omega
    have absent : ∀ other ∈ q.rxReorder, other.psn ≠ s.psn n := by simpa [RxQp.reorderFind] using new
    have skipped : Base s strict (n + 1) (min sent (n + maxQpWr)) (n + 1) (q.skipPsn (s.psn n) .ok) := by
      refine (inv.base.alone absent).skip (by omega) .ok fun data again => ?_
      rw [request] at again
      cases again
    intro fits
    refine (calm.skipPsn.drain keys supplied.mrs skipped ?_).queueReadWork env _
    revert fits
    simp only [RxQp.queueReadWork]
    split <;> exact id

theorem Calm.handleFrame {frame : Frame} (framed : s.frame n i = some frame) (harmless : ¬FatalFrame s q n i)
    (fits : (q.handleFrame env frame).cq.overflowed = false) : Calm s regions (q.handleFrame env frame) := by
  simp only [Stream.frame] at framed
  split at framed <;> rename_i request
  · rename_i msg
    split at framed <;> rename_i bound
    · obtain rfl := Option.some.inj framed
      have opcode : (s.dataFrame n msg i).header.opcode = msg.op.opcode := rfl
      simp only [RxQp.handleFrame, opcode] at fits ⊢
      cases op : msg.op with
      | send | sendImm =>
          rw [op] at fits
          exact calm.handleSendFragment inv keys supplied time known young upper request
            (by simp [op, SendOp.isWrite]) bound harmless fits
      | rdmaWrite | rdmaWriteImm =>
          rw [op] at fits
          exact calm.handleRdmaWriteFragment inv keys supplied time known young upper request
            (by simp [op, SendOp.isWrite]) bound harmless fits
    · cases framed
  · split at framed
    · obtain rfl := Option.some.inj framed
      exact calm.handleRdmaReadReq inv keys supplied young upper request fits
    · cases framed

end Handle

/-! ## Runs -/

/-- At most `maxQpWr` requests are outstanding and no duplicate is too old. The regions are registered,
allocations succeed, every receive request is large enough, the completion queue does not overflow, and
neither the timeout nor the error work runs. -/
def Benign (s : Stream) (regions : Nat → Option Mr) (r : Receiver) (action : RxAction) : Prop :=
  (∀ r', s.rxStep r action = some r' → r'.q.cq.overflowed = false) ∧
    match action with
    | .deliver n _ env => n < consumedCount r.q.trace + maxQpWr ∧ consumedCount r.q.trace ≤ n + 2 ^ 23 ∧
        env.Supplied regions
    | .drain env => env.Supplied regions
    | .post wqes => ∀ wqe ∈ wqes, wqe.Usable regions ∧ wqe.Fits s
    | .cq _ => True
    | .reap .. | .flush .. => False

def FatalStep (s : Stream) (r : Receiver) : RxAction → Prop
  | .deliver n i _ => FatalFrame s r.q n i
  | _ => False

def Recoverable (s : Stream) (regions : Nat → Option Mr) (r : Receiver) (action : RxAction) : Prop :=
  Benign s regions r action ∧ ¬FatalStep s r action

def Stream.readyReceiver (s : Stream) (regions : Nat → Option Mr) : System Receiver RxAction where
  init r := r.q.Fresh s ∧ r.q.remoteWrite = true ∧ ∀ wqe ∈ r.q.recvq, wqe.Usable regions ∧ wqe.Fits s
  step := s.rxStep

theorem RxQp.Fresh.calm (fresh : q.Fresh s) (remoteWrite : q.remoteWrite = true)
    (recvq : ∀ wqe ∈ q.recvq, wqe.Usable regions ∧ wqe.Fits s) : Calm s regions q where
  quiet := by simp [fresh.trace]
  history := by simp [fresh.ackHistory]
  recvq := recvq
  active := by simp [fresh.rxMsg]
  remoteWrite := remoteWrite
  nonempty := by simp [fresh.rxReorder]

theorem Calm.step {r r' : Receiver} {action : RxAction} (calm : Calm s regions r.q)
    (inv : Inv s strict sent k r.clock r.q) (known : action.reach ≤ sent) (keys : s.KeysValid regions)
    (benign : Benign s regions r action) (harmless : ¬FatalStep s r action) (step : s.rxStep r action = some r') :
    Calm s regions r'.q := by
  obtain ⟨fits, usual⟩ := benign
  have fits' := fits r' step
  cases action with
  | deliver n i env =>
      simp only [Stream.rxStep] at step
      split at step
      · rename_i time
        obtain ⟨frame, framed, rfl⟩ := Option.map_eq_some_iff.mp step
        simp only [inv.base.sound.count] at usual
        exact calm.handleFrame inv keys usual.2.2 (.of_timely time) known usual.2.1 usual.1 framed harmless
          fits'
      · cases step
  | post wqes =>
      obtain rfl := Option.some.inj step
      refine { calm with recvq := fun wqe member => ?_ }
      rcases List.mem_append.mp member with old | added
      · exact calm.recvq wqe old
      · exact usual wqe added
  | drain env =>
      simp only [Stream.rxStep] at step
      split at step
      · obtain rfl := Option.some.inj step
        exact calm.drain keys usual.mrs inv.base fits'
      · cases step
  | cq cq =>
      obtain rfl := Option.some.inj step
      exact { calm with }
  | reap | flush => exact usual.elim

theorem Benign.conforming {r : Receiver} {action : RxAction} (benign : Benign s regions r action) :
    Conforming r action := by
  cases action with
  | deliver n i env => exact ⟨near_of_window benign.2.1, benign.2.2.1⟩
  | _ => trivial

/-- Without a fatal frame, nothing that the network does to the frames makes the receiver answer ERROR or
give a request up. -/
theorem loss_recoverable (s : Stream) (regions : Nat → Option Mr) (keys : s.KeysValid regions) (r : Receiver)
    (reachable : (s.readyReceiver regions).ReachableVia (Recoverable s regions) r) :
    ∀ effect ∈ r.q.trace, effect.isError = false := by
  have invariant : (∃ sent k, Inv s False sent k r.clock r.q) ∧ Calm s regions r.q := by
    induction reachable with
    | init start => exact ⟨⟨0, 0, start.1.inv⟩, start.1.calm start.2.1 start.2.2⟩
    | @step _ _ action _ allowed step ih =>
        obtain ⟨⟨sent, k, inv⟩, calm⟩ := ih
        have more := inv.more (le_max_left sent action.reach)
        have known := le_max_right sent action.reach
        obtain ⟨k', _, inv'⟩ := more.step known allowed.1.conforming (answerable_free s _ _) step
        exact ⟨⟨_, k', inv'⟩, calm.step more known keys allowed.1 allowed.2 step⟩
  exact invariant.2.quiet

/-! ## A SEND of two fragments that come in the wrong order -/

@[irreducible] def longPayload : List UInt8 := List.replicate 4049 0

theorem length_longPayload : longPayload.length = 4049 := by
  rw [longPayload]
  exact List.length_replicate

def twoFragments : Message :=
  { op := .send, payload := longPayload, bounded := by simp [length_longPayload, dataMaxMsgSize] }

def twoFragmentSends : Stream :=
  { firstPsn := 5, destQp := 2, srcQp := 3, request := fun _ => .data twoFragments }

def largeRegion : Nat → Option Mr
  | 7 => some { start := 64, length := 8192, virtAddr := 64, remoteWrite := true, remoteRead := true }
  | _ => none

def largeWqe : RecvWqe := { addr := 64, length := 8192, lkey := 7 }

def postedReceiver (striping : Bool) : Receiver :=
  { q := { freshQp twoFragmentSends striping with recvq := [largeWqe] }, clock := 0 }

theorem twoFragmentSends_keysValid : twoFragmentSends.KeysValid largeRegion := by
  intro n msg request isWrite
  obtain rfl : twoFragments = msg := by simpa [twoFragmentSends] using request
  simp [twoFragments, SendOp.isWrite] at isWrite

theorem largeWqe_fits : largeWqe.Fits twoFragmentSends := by
  intro n msg request _
  obtain rfl : twoFragments = msg := by simpa [twoFragmentSends] using request
  simp [twoFragments, length_longPayload, largeWqe]

theorem largeWqe_usable : largeWqe.Usable largeRegion := .inr ⟨_, rfl, by decide⟩

theorem postedReceiver_init (striping : Bool) :
    (twoFragmentSends.readyReceiver largeRegion).init (postedReceiver striping) := by
  refine ⟨⟨rfl, rfl, rfl, rfl, rfl, rfl, rfl, rfl, rfl⟩, rfl, ?_⟩
  simpa [postedReceiver] using ⟨largeWqe_usable, largeWqe_fits⟩

theorem twoFragmentSends_frame (n : Nat) {i : Nat} (bound : i < 2) :
    twoFragmentSends.frame n i = some (twoFragmentSends.dataFrame n twoFragments i) := by
  have count : twoFragments.fragments = 2 := by
    simp [Message.fragments, fragmentCount, twoFragments, length_longPayload, dataMaxPayload,
      dataFrameSize, dataHdrSize]
  simp [Stream.frame, twoFragmentSends, count, bound]

def takeFragment (i : Nat) (r : Receiver) : Receiver :=
  { q := r.q.handleFrame (rxEnv largeRegion) (twoFragmentSends.dataFrame 0 twoFragments i), clock := 1 }

section TakeFragment

variable {i : Nat} {r : Receiver} (bound : i < 2) (early : r.clock ≤ 1)
include bound early

theorem takeFragment_step :
    twoFragmentSends.rxStep r (.deliver 0 i (rxEnv largeRegion)) = some (takeFragment i r) := by
  have time : (rxEnv largeRegion).timely r.clock = true := by
    simp [RxEnv.timely, rxEnv, early, jiffyBound]
  simp only [Stream.rxStep, twoFragmentSends_frame 0 bound, time, if_true]
  rfl

theorem takeFragment_benign (window : consumedCount r.q.trace ≤ 2 ^ 23)
    (fits : (takeFragment i r).q.cq.overflowed = false) :
    Benign twoFragmentSends largeRegion r (.deliver 0 i (rxEnv largeRegion)) := by
  refine ⟨fun r' step => ?_, by simp [maxQpWr], by omega, rfl, rfl, rfl⟩
  rw [takeFragment_step bound early] at step
  rwa [← Option.some.inj step]

theorem takeFragment_reachable {ok : Receiver → RxAction → Prop}
    (reachable : (twoFragmentSends.readyReceiver largeRegion).ReachableVia ok r)
    (allowed : ok r (.deliver 0 i (rxEnv largeRegion))) :
    (twoFragmentSends.readyReceiver largeRegion).ReachableVia ok (takeFragment i r) :=
  .step reachable allowed (takeFragment_step bound early)

end TakeFragment

theorem loss_recoverable_striped :
    ∃ r, (twoFragmentSends.readyReceiver largeRegion).ReachableVia
        (Recoverable twoFragmentSends largeRegion) r ∧
      outcome r.q.trace 0 = some .ok ∧ ∀ effect ∈ r.q.trace, effect.isError = false := by
  have harmless : ∀ (r : Receiver) i, r.q.striping = true → r.q.rxReorderBytes = 0 →
      ¬FatalStep twoFragmentSends r (.deliver 0 i (rxEnv largeRegion)) := by
    rintro r i striping bytes ⟨msg, request, fatal⟩
    obtain rfl : twoFragments = msg := by simpa [twoFragmentSends] using request
    rcases fatal with ⟨op, _⟩ | ⟨_, ⟨_, _, ⟨_, plain, _⟩ | ⟨op, _⟩⟩ | ⟨_, _, full, _⟩⟩
    · simp [twoFragments] at op
    · rw [striping] at plain
      cases plain
    · simp [twoFragments] at op
    · have short : (twoFragments.slice i).length ≤ dataMaxPayload := by
        rw [Message.length_slice]
        exact min_le_right _ _
      simp only [bytes, reorderMaxBytes, dataMaxPayload, dataFrameSize, dataHdrSize] at full short
      omega
  have early : (takeFragment 1 (postedReceiver true)).clock ≤ 1 := le_refl _
  have window : consumedCount (takeFragment 1 (postedReceiver true)).q.trace ≤ 2 ^ 23 := by decide +kernel
  have second : (twoFragmentSends.readyReceiver largeRegion).ReachableVia
      (Recoverable twoFragmentSends largeRegion) (takeFragment 1 (postedReceiver true)) :=
    takeFragment_reachable (by omega) (by decide) (.init (postedReceiver_init true))
      ⟨takeFragment_benign (by omega) (by decide) (by decide) (by decide +kernel), harmless _ 1 rfl rfl⟩
  have first := takeFragment_reachable (i := 0) (by omega) early second
    ⟨takeFragment_benign (by omega) early window (by decide +kernel),
      harmless _ 0 (by decide +kernel) (by decide +kernel)⟩
  exact ⟨_, first, by decide +kernel, loss_recoverable _ _ twoFragmentSends_keysValid _ first⟩

/-- Without striping, the second fragment of a SEND alone makes an idle receiver answer ERROR. -/
theorem lost_start_fatal :
    twoFragmentSends.KeysValid largeRegion ∧
      ∃ r, (twoFragmentSends.readyReceiver largeRegion).ReachableVia (Benign twoFragmentSends largeRegion) r ∧
        r.q.trace = [.ack 3 2 (twoFragmentSends.psn 0) .error] := by
  refine ⟨twoFragmentSends_keysValid, takeFragment 1 (postedReceiver false), ?_, by decide +kernel⟩
  exact takeFragment_reachable (by omega) (by decide) (.init (postedReceiver_init false))
    (takeFragment_benign (by omega) (by decide) (by decide) (by decide +kernel))

end ThunderboltVerbs.Receive
