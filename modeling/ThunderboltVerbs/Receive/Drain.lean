import ThunderboltVerbs.Receive.Trace
import Mathlib.Data.List.Perm.Subperm

/-!
# The drain consumes requests in order

`Base` holds between the steps of a call: `k` requests of the stream have been consumed, and the reorder
list holds messages of requests `lo` to `hi`.
-/

namespace ThunderboltVerbs.Receive
open Proto Verbs Lib

/-! ## Buffered messages -/

def Message.storedFrags (msg : Message) (seen : List Nat) : List ReorderFrag :=
  seen.reverse.filterMap fun i =>
    if msg.slice i = [] then none else some { offset := i * dataMaxPayload, data := msg.slice i }

def Stream.stored (s : Stream) (n : Nat) (msg : Message) (now : Nat) (seen : List Nat) (bytes : Nat) :
    ReorderMsg where
  kind := if msg.op.isWrite then .write else .send
  firstJiffies := now
  srcQp := s.srcQp
  psn := s.psn n
  totalLen := msg.payload.length
  remoteAddr := if msg.op.isWrite then msg.remoteAddr else 0
  rkey := if msg.op.isWrite then msg.rkey else 0
  withImm := msg.op = .sendImm
  immData := if msg.op = .sendImm then msg.immData else 0
  fragCount := msg.fragments
  fragsReceived := seen.length
  fragSeen := seen
  received := bytes
  bufferedBytes := bytes
  complete := seen.length = msg.fragments
  frags := msg.storedFrags seen

def Stream.storedRead (s : Stream) (n totalLen remoteAddr rkey now : Nat) : ReorderMsg where
  kind := .readReq
  firstJiffies := now
  srcQp := s.srcQp
  psn := s.psn n
  totalLen := totalLen
  remoteAddr := remoteAddr
  rkey := rkey
  complete := true
  fragCount := 1
  fragsReceived := 1

/-- Times stay below this bound: `jiffies` does not wrap. -/
def jiffyBound : Nat := 2 ^ 62

inductive Buffered (s : Stream) (n : Nat) : ReorderMsg → Prop
  | data {msg : Message} {now : Nat} {seen : List Nat} (bytes : Nat) (sane : now < jiffyBound)
      (request : s.request n = .data msg) (noImm : msg.op ≠ .rdmaWriteImm) (nodup : seen.Nodup)
      (inside : ∀ i ∈ seen, i < msg.fragments) : Buffered s n (s.stored n msg now seen bytes)
  | read {totalLen remoteAddr rkey now : Nat} (sane : now < jiffyBound)
      (request : s.request n = .read totalLen remoteAddr rkey) :
      Buffered s n (s.storedRead n totalLen remoteAddr rkey now)

theorem Buffered.psn {s : Stream} {n : Nat} {msg : ReorderMsg} (buffered : Buffered s n msg) :
    msg.psn = s.psn n := by
  cases buffered <;> rfl

theorem Buffered.sane {s : Stream} {n : Nat} {msg : ReorderMsg} (buffered : Buffered s n msg) :
    msg.firstJiffies < jiffyBound := by
  cases buffered <;> assumption

theorem all_seen {count : Nat} {seen : List Nat} (nodup : seen.Nodup) (inside : ∀ i ∈ seen, i < count)
    (full : seen.length = count) : ∀ i < count, i ∈ seen := by
  have sub : seen ⊆ List.range count := fun i member => List.mem_range.mpr (inside i member)
  have perm : seen.Perm (List.range count) :=
    (nodup.subperm sub).perm_of_length_le (by simp [full])
  intro i bound
  exact perm.mem_iff.mpr (List.mem_range.mpr bound)

theorem mem_storedFrags {msg : Message} {seen : List Nat} {i : Nat} (member : i ∈ seen)
    (nonempty : msg.slice i ≠ []) :
    { offset := i * dataMaxPayload, data := msg.slice i } ∈ msg.storedFrags seen := by
  simp only [Message.storedFrags, List.mem_filterMap, List.mem_reverse]
  exact ⟨i, member, by simp [nonempty]⟩

/-! ## The invariant -/

def HistoryOk (s : Stream) (q : RxQp) : Prop :=
  ∀ n status, outcome q.trace n = some status → Covered q.trace n →
    q.ackHistory (s.psn n % ackHistorySize) = some (s.psn n, status)

structure Base (s : Stream) (strict : Prop) (lo hi k : Nat) (q : RxQp) : Prop where
  sound : Sound s strict k q.trace
  history : HistoryOk s q
  expected : q.rxExpectedPsn = s.psn k
  entries : ∀ msg ∈ q.rxReorder, ∃ n, lo ≤ n ∧ n < hi ∧ Buffered s n msg
  distinct : (q.rxReorder.map ReorderMsg.psn).Nodup
  count : q.rxReorderCount = q.rxReorder.length
  near : hi ≤ k + maxQpWr
  fresh : k ≤ lo + 1
  -- an overtaken message can only be that of the request consumed last
  last : lo < k → Recorded q.trace (k - 1)

/-- The fields that neither the delivery of buffered messages nor an answer touches; the trace only
grows, and a completion queue that overflowed stays so. -/
structure Keeps (q q' : RxQp) : Prop where
  rxMsg : q'.rxMsg = q.rxMsg
  rxWrite : q'.rxWrite = q.rxWrite
  striping : q'.striping = q.striping
  remoteWrite : q'.remoteWrite = q.remoteWrite
  rnr : q'.rnr = q.rnr
  closing : q'.closing = q.closing
  grows : q.trace <:+ q'.trace
  overflow : q.cq.overflowed = true → q'.cq.overflowed = true

theorem Keeps.refl (q : RxQp) : Keeps q q := ⟨rfl, rfl, rfl, rfl, rfl, rfl, List.suffix_rfl, id⟩

theorem Keeps.trans {q q' q'' : RxQp} (first : Keeps q q') (second : Keeps q' q'') : Keeps q q'' where
  rxMsg := second.rxMsg.trans first.rxMsg
  rxWrite := second.rxWrite.trans first.rxWrite
  striping := second.striping.trans first.striping
  remoteWrite := second.remoteWrite.trans first.remoteWrite
  rnr := second.rnr.trans first.rnr
  closing := second.closing.trans first.closing
  grows := first.grows.trans second.grows
  overflow := fun already => second.overflow (first.overflow already)

theorem Keeps.idle {q q' : RxQp} (keeps : Keeps q q') : q'.idle = q.idle := by
  simp [RxQp.idle, keeps.rxMsg, keeps.rxWrite]

variable {s : Stream} {strict : Prop} {lo hi k : Nat} {q : RxQp} {env : RxEnv}

theorem psn_ackHistory {n m : Nat} (same : s.psn n % ackHistorySize = s.psn m % ackHistorySize) :
    n % ackHistorySize = m % ackHistorySize := by
  simp only [Stream.psn, psnMod, ackHistorySize, maxQpWr] at same ⊢
  omega

theorem HistoryOk.plain {effect : Effect} (history : HistoryOk s q) (plain : effect.plain = true) :
    HistoryOk s (q.note effect) := by
  have same : consumptions (effect :: q.trace) = consumptions q.trace := consumptions_plain plain
  intro n status known covered
  exact history n status ((outcome_congr same).symm.trans known) ((covered_congr same).mp covered)

theorem Base.note {effect : Effect} (base : Base s strict lo hi k q) (plain : effect.plain = true)
    (lawful : Lawful s strict effect q.trace) : Base s strict lo hi k (q.note effect) :=
  { base with
    sound := base.sound.note plain lawful
    history := base.history.plain plain
    last := fun stale => (recorded_congr (consumptions_plain plain)).mpr (base.last stale) }

theorem keeps_note (q : RxQp) (effect : Effect) : Keeps q (q.note effect) :=
  ⟨rfl, rfl, rfl, rfl, rfl, rfl, List.suffix_cons _ _, id⟩

theorem Base.sendAck {destQp srcQp psn : Nat} {status : SendAckStatus} (base : Base s strict lo hi k q)
    (right : status = .ok → Succeeded s psn q.trace) :
    Base s strict lo hi k (q.sendAck destQp srcQp psn status) := by
  apply base.note rfl
  cases status with
  | ok => exact right rfl
  | rnr => trivial
  | error => trivial

/-! ## Taking a message off the list -/

theorem Base.unlinked (base : Base s strict lo hi k q) {msg other : ReorderMsg} (member : msg ∈ q.rxReorder)
    (left : other ∈ (q.reorderUnlink msg).rxReorder) : other ∈ q.rxReorder ∧ other.psn ≠ msg.psn := by
  exact ⟨List.mem_of_mem_eraseP left, key_ne_of_mem_eraseP base.distinct member left⟩

theorem Base.unlink (base : Base s strict lo hi k q) {msg : ReorderMsg} (member : msg ∈ q.rxReorder) :
    Base s strict lo hi k (q.reorderUnlink msg) := by
  refine { base with entries := ?_, distinct := ?_, count := ?_ }
  · intro other left
    exact base.entries other (base.unlinked member left).1
  · exact base.distinct.sublist (List.eraseP_sublist.map _)
  · have shorter : (q.reorderUnlink msg).rxReorder.length = q.rxReorder.length - 1 :=
      List.length_eraseP_of_mem member (by simp)
    simp only [shorter]
    simp only [RxQp.reorderUnlink, base.count]

theorem Base.unlink_expected (base : Base s strict k hi k q) {msg : ReorderMsg}
    (member : msg ∈ q.rxReorder) (expected : msg.psn = s.psn k) :
    Base s strict (k + 1) hi k (q.reorderUnlink msg) := by
  refine { base.unlink member with entries := ?_, fresh := by omega, last := by omega }
  intro other left
  have ⟨inside, differs⟩ := base.unlinked member left
  obtain ⟨n, lower, upper, buffered⟩ := base.entries other inside
  have ahead : n ≠ k := by
    rintro rfl
    exact differs (buffered.psn.trans expected.symm)
  exact ⟨n, by omega, upper, buffered⟩

/-! ## The advance -/

theorem cqPushOption_spec (q : RxQp) (psn : Nat) (wc : Option Wc) :
    ∃ cq pushed, (q.cqPushOption psn wc).1 =
      { q with cq := cq, trace := (Option.map (Effect.completion psn) pushed).toList ++ q.trace } ∧
      (q.cq.overflowed = true → cq.overflowed = true) ∧
      (cq.overflowed = false → (q.cqPushOption psn wc).2 = true) := by
  cases wc with
  | none => exact ⟨q.cq, none, rfl, id, fun _ => rfl⟩
  | some wc =>
      simp only [RxQp.cqPushOption, RxQp.cqPush]
      split <;> rename_i full
      · exact ⟨_, none, rfl, fun _ => rfl, nofun⟩
      · exact ⟨_, some wc, rfl, fun already => absurd (.inl already) full, fun _ => rfl⟩

theorem HistoryOk.consume {trace : List Effect} {status : SendAckStatus}
    (history : HistoryOk s q) (same : consumptions trace = consumptions q.trace)
    (count : consumedCount q.trace = k) :
    HistoryOk s ({ q with trace := trace }.consumePsn (s.psn k) status) := by
  have countTrace : consumedCount trace = k := (consumedCount_congr same).trans count
  intro n stored known covered
  change outcome (.consumed (s.psn k) status true :: trace) n = some stored at known
  change Covered (.consumed (s.psn k) status true :: trace) n at covered
  change Function.update q.ackHistory (s.psn k % ackHistorySize) (some (s.psn k % psnMod, status))
    (s.psn n % ackHistorySize) = some (s.psn n, stored)
  by_cases current : n = k
  · subst current
    rw [← countTrace, outcome_consumed_eq, Option.some.injEq] at known
    rw [Function.update_self, s.psn_mod, known]
  · have earlier : n < consumedCount trace := by
      have bound := outcome_lt known
      simp only [consumedCount, consumptions_consumed, List.length_cons] at bound countTrace ⊢
      omega
    -- request `k` is recorded now, so a request that stays covered has another slot
    have slot : s.psn n % ackHistorySize ≠ s.psn k % ackHistorySize := by
      intro same
      apply covered.2 k (by omega) (psn_ackHistory same).symm
      exact countTrace ▸ recorded_consumed_eq.mpr rfl
    rw [Function.update_of_ne slot]
    rw [outcome_consumed_lt earlier, outcome_congr same] at known
    exact history n stored known ((covered_congr same).mp (covered.of_consumed earlier))

theorem HistoryOk.skip {status : SendAckStatus} (history : HistoryOk s q) :
    HistoryOk s (q.skipPsn (s.psn k) status) := by
  intro n stored known covered
  change outcome (.consumed (s.psn k) status false :: q.trace) n = some stored at known
  change Covered (.consumed (s.psn k) status false :: q.trace) n at covered
  have earlier : n < consumedCount q.trace := by
    have bound := covered.1.lt
    have notLast : n ≠ consumedCount q.trace := by
      rintro rfl
      simpa using recorded_consumed_eq.mp covered.1
    simp only [consumedCount, consumptions_consumed, List.length_cons] at bound notLast ⊢
    omega
  rw [outcome_consumed_lt earlier] at known
  exact history n stored known (covered.of_consumed earlier)

def AppliedIf (s : Stream) (k : Nat) (q : RxQp) (success : Prop) : Prop :=
  ∀ msg, s.request k = .data msg → msg.op.isWrite = true → success → Applied msg q.trace

theorem Base.consume (base : Base s strict lo hi k q) (fresh : k ≤ lo) (wc : Option Wc)
    (status : SendAckStatus) (applied : AppliedIf s k q (status ≠ .error)) :
    Base s strict lo hi (k + 1) ((q.cqPushOption (s.psn k) wc).1.consumePsn (s.psn k) status) := by
  obtain ⟨cq, pushed, pushedEq, _⟩ := cqPushOption_spec q (s.psn k) wc
  rw [pushedEq]
  set before := (Option.map (Effect.completion (s.psn k)) pushed).toList ++ q.trace with beforeDef
  have same : consumptions before = consumptions q.trace := by cases pushed <;> rfl
  have count := base.sound.count
  refine { base with sound := ?_, history := ?_, expected := ?_, near := ?_, fresh := by omega, last := ?_ }
  · refine base.sound.consume pushed fun msg request isWrite => ?_
    by_cases failed : status = .error
    · exact .inl failed
    · exact .inr (applied msg request isWrite failed)
  · exact base.history.consume same count
  · exact s.psnNext_psn k
  · have near := base.near
    omega
  · intro _
    have current : Recorded (.consumed (s.psn k) status true :: before) (consumedCount before) :=
      recorded_consumed_eq.mpr rfl
    rw [(consumedCount_congr same).trans count] at current
    exact current

theorem Base.skip (base : Base s strict lo hi k q) (fresh : k < lo) (status : SendAckStatus)
    (applied : AppliedIf s k q (status ≠ .error)) :
    Base s strict lo hi (k + 1) (q.skipPsn (s.psn k) status) := by
  refine { base with sound := ?_, history := ?_, expected := ?_, near := ?_, fresh := by omega, last := by omega }
  · refine base.sound.consume none fun msg request isWrite => ?_
    by_cases failed : status = .error
    · exact .inl failed
    · exact .inr (applied msg request isWrite failed)
  · exact base.history.skip
  · exact s.psnNext_psn k
  · have near := base.near
    omega

theorem keeps_cqPushOption (q : RxQp) (psn : Nat) (wc : Option Wc) :
    Keeps q (q.cqPushOption psn wc).1 := by
  obtain ⟨cq, pushed, eq, overflow, _⟩ := cqPushOption_spec q psn wc
  rw [eq]
  exact ⟨rfl, rfl, rfl, rfl, rfl, rfl, List.suffix_append _ _, overflow⟩

theorem keeps_consumePsn (q : RxQp) (psn : Nat) (status : SendAckStatus) :
    Keeps q (q.consumePsn psn status) := ⟨rfl, rfl, rfl, rfl, rfl, rfl, List.suffix_cons _ _, id⟩

theorem keeps_skipPsn (q : RxQp) (psn : Nat) (status : SendAckStatus) :
    Keeps q (q.skipPsn psn status) := ⟨rfl, rfl, rfl, rfl, rfl, rfl, List.suffix_cons _ _, id⟩

theorem ackStatus_ne_error {status : WcStatus} {pushed : Bool} (fine : ackStatus status pushed ≠ .error) :
    status = .success := by
  by_contra failed
  simp [ackStatus, failed] at fine

theorem Base.outcome_consume (base : Base s strict lo hi k q) (wc : Option Wc) (status : SendAckStatus) :
    outcome ((q.cqPushOption (s.psn k) wc).1.consumePsn (s.psn k) status).trace k = some status := by
  obtain ⟨cq, pushed, eq, _⟩ := cqPushOption_spec q (s.psn k) wc
  rw [eq]
  set before := (Option.map (Effect.completion (s.psn k)) pushed).toList ++ q.trace with beforeDef
  have same : consumptions before = consumptions q.trace := by cases pushed <;> rfl
  have count : consumedCount before = k := (consumedCount_congr same).trans base.sound.count
  have known : outcome (.consumed (s.psn k) status true :: before) (consumedCount before) = some status :=
    outcome_consumed_eq
  rwa [count] at known

theorem Base.conclude (base : Base s strict lo hi k q) (fresh : k ≤ lo) {status : WcStatus}
    {wc : Option Wc} {srcQp : Nat} (applied : AppliedIf s k q (status = .success)) :
    Base s strict lo hi (k + 1) (q.conclude (s.psn k) srcQp status wc) := by
  have applied' : AppliedIf s k q (ackStatus status (q.cqPushOption (s.psn k) wc).2 ≠ .error) :=
    fun msg request isWrite fine => applied msg request isWrite (ackStatus_ne_error fine)
  have consumed := base.consume fresh wc _ applied'
  refine consumed.sendAck fun ok => Succeeded.mono List.suffix_rfl ?_ (by rw [consumed.sound.count]; omega)
  rw [← ok]
  exact base.outcome_consume wc _

theorem keeps_conclude (q : RxQp) (psn srcQp : Nat) (status : WcStatus) (wc : Option Wc) :
    Keeps q (q.conclude psn srcQp status wc) :=
  ((keeps_cqPushOption q psn wc).trans (keeps_consumePsn _ _ _)).trans (keeps_note _ _)

/-! ## Copies -/

inductive Copied : RxQp → RxQp → Prop
  | refl (q : RxQp) : Copied q q
  | wrote {q q' : RxQp} (key addr : Nat) (data : List UInt8) (rest : Copied (q.note (.wrote key addr data)) q') :
      Copied q q'
  | placed {q q' : RxQp} (key addr : Nat) (data : List UInt8)
      (rest : Copied (q.note (.placed key addr data)) q') : Copied q q'

theorem Base.copied {q' : RxQp} (base : Base s strict lo hi k q) (copied : Copied q q') :
    Base s strict lo hi k q' := by
  induction copied with
  | refl => exact base
  | wrote _ _ _ _ ih | placed _ _ _ _ ih => exact ih (base.note rfl trivial)

theorem Copied.keeps {q q' : RxQp} (copied : Copied q q') : Keeps q q' := by
  induction copied with
  | refl => exact .refl _
  | wrote _ _ _ _ ih | placed _ _ _ _ ih => exact (keeps_note _ _).trans ih

theorem Copied.reorder {q q' : RxQp} (copied : Copied q q') : q'.rxReorder = q.rxReorder := by
  induction copied with
  | refl => rfl
  | wrote _ _ _ _ ih | placed _ _ _ _ ih => exact ih

theorem Copied.subset {q q' : RxQp} (copied : Copied q q') : q.trace ⊆ q'.trace :=
  copied.keeps.grows.subset

theorem copyToWqe_copied (q : RxQp) (env : RxEnv) (wqe : RecvWqe) (offset : Nat) (payload : List UInt8)
    (delivered : Nat) : Copied q (q.copyToWqe env wqe offset payload delivered).1 := by
  simp only [RxQp.copyToWqe]
  split
  · exact .refl _
  · split
    · exact .refl _
    · split
      · exact .placed _ _ _ (.refl _)
      · exact .refl _

theorem Copied.trans {q q' q'' : RxQp} (first : Copied q q') (second : Copied q' q'') : Copied q q'' := by
  induction first with
  | refl => exact second
  | wrote key addr data _ ih => exact .wrote key addr data (ih second)
  | placed key addr data _ ih => exact .placed key addr data (ih second)

theorem copyFrags_copied (env : RxEnv) (wqe : RecvWqe) (frags : List ReorderFrag) (q : RxQp) (delivered : Nat) :
    Copied q (RxQp.copyFrags env wqe frags q delivered).1 := by
  induction frags generalizing q delivered with
  | nil => exact .refl _
  | cons frag rest ih =>
      have first := copyToWqe_copied q env wqe frag.offset frag.data delivered
      simp only [RxQp.copyFrags]
      split <;> rename_i eq <;> rw [eq] at first
      · exact first
      · exact first.trans (ih _ _)

theorem copyToRemote_eq {rkey remoteAddr offset : Nat} {payload : List UInt8} {q' : RxQp}
    (copied : q.copyToRemote env rkey remoteAddr offset payload = some q') :
    q' = q.note (.wrote rkey (remoteAddr + offset) payload) := by
  simp only [RxQp.copyToRemote] at copied
  split at copied
  · cases copied
  · split at copied
    · cases copied
    · split at copied
      · exact (Option.some.inj copied).symm
      · cases copied

theorem copyWriteFrags_copied (env : RxEnv) (rkey remoteAddr : Nat) (frags : List ReorderFrag) (q : RxQp) :
    Copied q (RxQp.copyWriteFrags env rkey remoteAddr frags q).1 := by
  induction frags generalizing q with
  | nil => exact .refl _
  | cons frag rest ih =>
      simp only [RxQp.copyWriteFrags]
      split <;> rename_i eq
      · exact .refl _
      · rw [copyToRemote_eq eq]
        exact .wrote _ _ _ (ih _)

theorem copyWriteFrags_wrote {rkey remoteAddr : Nat} {frags : List ReorderFrag} {q : RxQp}
    (done : (RxQp.copyWriteFrags env rkey remoteAddr frags q).2 = true) :
    ∀ frag ∈ frags, .wrote rkey (remoteAddr + frag.offset) frag.data ∈
      (RxQp.copyWriteFrags env rkey remoteAddr frags q).1.trace := by
  induction frags generalizing q with
  | nil => simp
  | cons frag rest ih =>
      simp only [RxQp.copyWriteFrags] at done ⊢
      split at done <;> rename_i eq
      · cases done
      · simp only [List.mem_cons]
        rintro each (rfl | member)
        · rw [copyToRemote_eq eq]
          exact (copyWriteFrags_copied _ _ _ _ _).subset (List.mem_cons_self ..)
        · exact ih done each member

/-! ## Delivery of one message -/

/-- What the delivery of the message of request `k` leaves, and whether the drain goes on. -/
inductive Delivered (s : Stream) (strict : Prop) (hi k : Nat) (q : RxQp) : RxQp × Bool → Prop
  | stopped {q' : RxQp} (base : Base s strict k hi k q') (keeps : Keeps q q') : Delivered s strict hi k q (q', false)
  | went {q' : RxQp} (base : Base s strict (k + 1) hi (k + 1) q') (keeps : Keeps q q') :
      Delivered s strict hi k q (q', true)

theorem keeps_reorderUnlink (q : RxQp) (msg : ReorderMsg) : Keeps q (q.reorderUnlink msg) :=
  ⟨rfl, rfl, rfl, rfl, rfl, rfl, List.suffix_rfl, id⟩

theorem popRecv_spec {wqe : RecvWqe} {q' : RxQp} (popped : q.popRecv = some (wqe, q')) :
    ∃ rest, q.recvq = wqe :: rest ∧ q' = { q with recvq := rest } := by
  simp only [RxQp.popRecv] at popped
  split at popped
  · cases popped
  · rename_i wqe' rest recvq
    split at popped
    · cases popped
    · simp only [Option.some.injEq, Prod.mk.injEq] at popped
      exact ⟨rest, popped.1 ▸ recvq, popped.2.symm⟩

theorem Base.popRecv {wqe : RecvWqe} {q' : RxQp} (base : Base s strict lo hi k q)
    (popped : q.popRecv = some (wqe, q')) : Base s strict lo hi k q' := by
  obtain ⟨rest, _, rfl⟩ := popRecv_spec popped
  exact { base with }

theorem keeps_popRecv {wqe : RecvWqe} {q' : RxQp} (popped : q.popRecv = some (wqe, q')) : Keeps q q' := by
  obtain ⟨rest, _, rfl⟩ := popRecv_spec popped
  exact ⟨rfl, rfl, rfl, rfl, rfl, rfl, List.suffix_rfl, id⟩

section Deliver

variable {msg : ReorderMsg} (base : Base s strict k hi k q) (member : msg ∈ q.rxReorder)
  (expected : msg.psn = s.psn k)
include base member expected

theorem Base.deliverSend (isSend : ∀ msg, s.request k = .data msg → msg.op.isWrite = false) :
    Delivered s strict hi k q (q.deliverSend env msg) := by
  simp only [RxQp.deliverSend]
  split <;> rename_i popped
  · exact .stopped (base.sendAck nofun) (keeps_note _ _)
  · rename_i wqe q'
    have linked : msg ∈ q'.rxReorder := by
      obtain ⟨rest, _, rfl⟩ := popRecv_spec popped
      exact member
    have copied := copyFrags_copied env wqe msg.frags (q'.reorderUnlink msg) 0
    have unlinked := ((base.popRecv popped).unlink_expected linked expected).copied copied
    refine .went ?_ ?_
    · rw [expected]
      refine unlinked.conclude (by omega) fun data request isWrite => ?_
      rw [isSend data request] at isWrite
      cases isWrite
    · exact (((keeps_popRecv popped).trans (keeps_reorderUnlink _ _)).trans copied.keeps).trans
        (keeps_conclude _ _ _ _ _)

theorem Base.deliverWrite {data : Message} (request : s.request k = .data data) {now : Nat}
    {seen : List Nat} {bytes : Nat} (noImm : data.op ≠ .rdmaWriteImm) (isWrite : data.op.isWrite = true)
    (stored : msg = s.stored k data now seen bytes) (all : ∀ i < data.fragments, i ∈ seen) :
    Delivered s strict hi k q (q.deliverWrite env msg) := by
  subst stored
  have plain : (s.stored k data now seen bytes).withImm = false := by
    cases op : data.op <;> simp_all [Stream.stored, SendOp.isWrite]
  have unlinked := base.unlink_expected member expected
  simp only [RxQp.deliverWrite, plain, Bool.false_eq_true, if_false]
  split <;> rename_i writable
  · set msg := s.stored k data now seen bytes with stored
    have copied := copyWriteFrags_copied env msg.rkey msg.remoteAddr msg.frags (q.reorderUnlink msg)
    refine .went ?_ (((keeps_reorderUnlink _ _).trans copied.keeps).trans (keeps_conclude _ _ _ _ _))
    rw [expected]
    refine (unlinked.copied copied).conclude (by omega) fun other again _ success => ?_
    obtain rfl : data = other := by simpa [request] using again
    have done : (RxQp.copyWriteFrags env msg.rkey msg.remoteAddr msg.frags (q.reorderUnlink msg)).2 = true := by
      by_contra failed
      simp [failed] at success
    have wrote := copyWriteFrags_wrote done
    apply applied_of_slices
    intro i bound nonempty
    have copy := wrote _ (mem_storedFrags (all i bound) nonempty)
    simpa [stored, Stream.stored, isWrite, SliceApplied] using copy
  · refine .went ?_ ((keeps_reorderUnlink _ _).trans (keeps_conclude _ _ _ _ _))
    rw [expected]
    exact unlinked.conclude (by omega) fun _ _ _ success => by simp at success

theorem Base.deliverRead {totalLen remoteAddr rkey : Nat}
    (request : s.request k = .read totalLen remoteAddr rkey) :
    Delivered s strict hi k q (q.deliverRead env msg, true) := by
  have skipped : Base s strict (k + 1) hi (k + 1) ((q.reorderUnlink msg).skipPsn msg.psn .ok) := by
    rw [expected]
    refine (base.unlink_expected member expected).skip (by omega) .ok fun data again => ?_
    rw [request] at again
    cases again
  have keeps : Keeps q ((q.reorderUnlink msg).skipPsn msg.psn .ok) :=
    (keeps_reorderUnlink q msg).trans (keeps_skipPsn _ _ _)
  have read : ReadConsumed s msg.psn ((q.reorderUnlink msg).skipPsn msg.psn .ok).trace :=
    ⟨k, by rw [skipped.sound.count]; omega, expected.symm, _, _, _, request⟩
  simp only [RxQp.deliverRead, RxQp.queueReadWork]
  split
  · exact .went (skipped.note rfl ⟨read, skipped.sound.writes⟩) (keeps.trans (keeps_note _ _))
  · exact .went (skipped.note rfl trivial) (keeps.trans (keeps_note _ _))

theorem Base.deliver (complete : msg.complete = true) : Delivered s strict hi k q (q.deliver env msg) := by
  obtain ⟨n, lower, upper, buffered⟩ := base.entries msg member
  have near := base.near
  have here : n = k := by
    apply s.psn_inj (by omega) (by simp only [maxQpWr] at near; omega)
    exact buffered.psn.symm.trans expected
  subst here
  cases buffered with
  | data bytes sane request noImm nodup inside =>
      rename_i data now seen
      by_cases isWrite : data.op.isWrite = true
      · have all := all_seen nodup inside (by simpa [Stream.stored] using complete)
        have kind : (s.stored n data now seen bytes).kind = .write := by simp [Stream.stored, isWrite]
        simp only [RxQp.deliver, kind]
        exact base.deliverWrite member expected request noImm isWrite rfl all
      · have kind : (s.stored n data now seen bytes).kind = .send := by simp [Stream.stored, isWrite]
        simp only [RxQp.deliver, kind]
        refine base.deliverSend member expected fun other again => ?_
        obtain rfl : data = other := by simpa [request] using again
        simpa using isWrite
  | read _ request => exact base.deliverRead member expected request

end Deliver

/-! ## Overtaken messages -/

theorem HistoryOk.lookup {n : Nat} {status : SendAckStatus} (history : HistoryOk s q)
    (known : outcome q.trace n = some status) (covered : Covered q.trace n) :
    q.ackHistoryLookup (s.psn n) = some status := by
  simp [RxQp.ackHistoryLookup, history n status known covered]

theorem Sound.outcome (sound : Sound s strict k q.trace) {n : Nat} (consumed : n < k) :
    ∃ status, outcome q.trace n = some status := by
  have bound : n < (consumptions q.trace).length := by rw [← sound.count] at consumed; exact consumed
  simp [Receive.outcome, nth, bound]

/-- The answer to a duplicate is right if the history covers every request that failed. -/
theorem Base.reackDuplicate {n destQp srcQp : Nat} (base : Base s strict lo hi k q) (consumed : n < k)
    (young : k ≤ n + 2 ^ 23)
    (covered : strict → outcome q.trace n ≠ some .ok → Covered q.trace n) :
    Base s strict lo hi k (q.reackDuplicate destQp srcQp (s.psn n)) := by
  apply base.note rfl
  obtain ⟨status, known⟩ := base.sound.outcome consumed
  have count := base.sound.count
  cases answer : (q.ackHistoryLookup (s.psn n)).getD .ok with
  | rnr => trivial
  | error => trivial
  | ok =>
      intro isStrict
      refine ⟨n, by omega, by omega, rfl, ?_⟩
      by_contra failed
      rw [base.history.lookup known (covered isStrict failed)] at answer
      exact failed (known.trans (congrArg some answer))

theorem Base.pruneMsg {msg : ReorderMsg} (base : Base s strict lo hi k q) (member : msg ∈ q.rxReorder) :
    (q.pruneMsg msg = q ∧ ∃ n, k ≤ n ∧ n < hi ∧ Buffered s n msg) ∨
      (Base s strict lo hi k (q.pruneMsg msg) ∧ Keeps q (q.pruneMsg msg) ∧
        (q.pruneMsg msg).rxReorder = (q.reorderUnlink msg).rxReorder) := by
  obtain ⟨n, lower, upper, buffered⟩ := base.entries msg member
  have near := base.near
  have fresh := base.fresh
  have duplicate : q.isDuplicate msg.psn = decide (n < k) := by
    rw [buffered.psn]
    exact s.isDuplicate_psn base.expected (by omega) (by simp only [maxQpWr] at near; omega)
  by_cases stale : n < k
  · right
    have newest : n = k - 1 := by omega
    -- the overtaken request was consumed last, so nothing has taken its slot
    have covered : Covered q.trace n := by
      refine ⟨newest ▸ base.last (by omega), fun m later _ known => ?_⟩
      have bound := known.lt
      rw [base.sound.count] at bound
      omega
    simp only [RxQp.pruneMsg, duplicate, stale, decide_true, Bool.not_true, Bool.false_eq_true, if_false]
    refine ⟨?_, ?_, ?_⟩
    · split
      · have retried : Base s strict lo hi k (q.note (.readRetry msg.psn)) := base.note rfl trivial
        exact retried.unlink member
      · rw [buffered.psn]
        exact (base.reackDuplicate stale (by omega) fun _ _ => covered).unlink member
    · split <;> exact (keeps_note _ _).trans (keeps_reorderUnlink _ _)
    · split <;> rfl
  · left
    refine ⟨?_, n, by omega, upper, buffered⟩
    simp [RxQp.pruneMsg, duplicate, stale]

theorem Base.prune_foldl {msgs : List ReorderMsg} (base : Base s strict lo hi k q)
    (linked : ∀ msg ∈ msgs, msg ∈ q.rxReorder) (distinct : (msgs.map ReorderMsg.psn).Nodup)
    (rest : ∀ msg ∈ q.rxReorder, msg ∈ msgs ∨ ∃ n, k ≤ n ∧ n < hi ∧ Buffered s n msg) :
    Base s strict k hi k (msgs.foldl RxQp.pruneMsg q) ∧ Keeps q (msgs.foldl RxQp.pruneMsg q) := by
  induction msgs generalizing q with
  | nil =>
      refine ⟨{ base with entries := ?_, fresh := by omega, last := by omega }, .refl _⟩
      intro msg member
      exact (rest msg member).resolve_left (by simp)
  | cons msg msgs ih =>
      simp only [List.map_cons, List.nodup_cons] at distinct
      simp only [List.foldl_cons]
      rcases base.pruneMsg (linked msg (by simp)) with ⟨same, current⟩ | ⟨pruned, keeps, left⟩
      · rw [same]
        apply ih base (fun other member => linked other (by simp [member])) distinct.2
        intro other member
        rcases rest other member with inside | later
        · rcases List.mem_cons.mp inside with rfl | further
          · exact .inr current
          · exact .inl further
        · exact .inr later
      · have others : ∀ other ∈ msgs, other.psn ≠ msg.psn := fun other member same =>
          distinct.1 (same ▸ List.mem_map_of_mem member)
        have result := ih pruned ?_ distinct.2 ?_
        · exact ⟨result.1, keeps.trans result.2⟩
        · intro other member
          rw [left]
          have kept := List.mem_eraseP_of_neg (p := fun each : ReorderMsg => each.psn = msg.psn)
            (l := q.rxReorder) (a := other) (by simpa using others other member)
          exact kept.mpr (linked other (by simp [member]))
        · intro other member
          rw [left] at member
          have ⟨inside, differs⟩ := base.unlinked (linked msg (by simp)) member
          rcases rest other inside with listed | later
          · rcases List.mem_cons.mp listed with rfl | further
            · exact absurd rfl differs
            · exact .inl further
          · exact .inr later

theorem Base.pruneStale (base : Base s strict lo hi k q) :
    Base s strict k hi k q.pruneStale ∧ Keeps q q.pruneStale :=
  base.prune_foldl (fun _ member => member) base.distinct fun _ member => .inl member

/-! ## The loop -/

theorem reorderFind_some {psn : Nat} {msg : ReorderMsg} (found : q.reorderFind psn = some msg) :
    msg ∈ q.rxReorder ∧ msg.psn = psn :=
  ⟨List.mem_of_find?_eq_some found, by simpa using List.find?_some found⟩

theorem Base.drainLoop {turns : Nat} (base : Base s strict lo hi k q) (idle : q.idle = true)
    (enough : turns = 0 → lo = k) :
    ∃ k', k ≤ k' ∧ k' ≤ max k hi ∧ Base s strict k' hi k' (RxQp.drainLoop env turns q) ∧
      Keeps q (RxQp.drainLoop env turns q) := by
  induction turns generalizing q k lo with
  | zero =>
      obtain rfl := enough rfl
      exact ⟨lo, le_refl _, by omega, base, .refl _⟩
  | succ turns ih =>
      obtain ⟨pruned, keeps⟩ := base.pruneStale
      simp only [RxQp.drainLoop, idle, Bool.not_true, Bool.false_eq_true, if_false]
      split
      · exact ⟨k, le_refl _, by omega, pruned, keeps⟩
      · rename_i msg found
        obtain ⟨member, expected⟩ := reorderFind_some found
        rw [pruned.expected] at expected
        split
        · exact ⟨k, le_refl _, by omega, pruned, keeps⟩
        · rename_i complete
          have below : k < hi := by
            obtain ⟨n, lower, upper, _⟩ := pruned.entries msg member
            omega
          have delivered : Delivered s strict hi k q.pruneStale (q.pruneStale.deliver env msg) :=
            pruned.deliver member expected (by simpa using complete)
          split <;> rename_i result <;> rw [result] at delivered
          · cases delivered with
            | stopped base' keeps' => exact ⟨k, le_refl _, by omega, base', keeps.trans keeps'⟩
          · cases delivered with
            | went base' keeps' =>
                have idle' := (keeps.trans keeps').idle.trans idle
                obtain ⟨k', above, bounded, final, kept⟩ := ih base' idle' fun _ => rfl
                exact ⟨k', by omega, by omega, final, (keeps.trans keeps').trans kept⟩

theorem Base.drain (base : Base s strict lo hi k q) (env : RxEnv) (idle : q.idle = true) :
    ∃ k', k ≤ k' ∧ k' ≤ max k hi ∧ Base s strict k' hi k' (q.drain env) ∧ Keeps q (q.drain env) :=
  base.drainLoop idle (by simp)

theorem drain_busy (busy : q.idle = false) : q.drain env = q := by
  simp [RxQp.drain, RxQp.drainLoop, busy]

end ThunderboltVerbs.Receive
