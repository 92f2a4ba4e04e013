import ThunderboltVerbs.Receive.Reorder
import Mathlib.Data.Finset.Card

/-!
# The counters, bitmaps and PSNs of the reorder buffer
-/

namespace ThunderboltVerbs.Receive
open Proto Verbs Lib

structure ReorderMsg.Sound (msg : ReorderMsg) : Prop where
  bytes : msg.bufferedBytes = tally (fun frag => frag.data.length) msg.frags
  bounded : msg.fragsReceived ≤ msg.fragCount
  complete : msg.complete = true ↔ msg.fragsReceived = msg.fragCount
  received : msg.kind ≠ .readReq → msg.fragsReceived = msg.fragSeen.length
  seen : msg.fragSeen.Nodup
  inside : ∀ idx ∈ msg.fragSeen, idx < msg.fragCount

structure Reorder.Represented (r : Reorder) : Prop where
  count : r.count = r.msgs.length
  room : r.count ≤ reorderMaxMessages
  bytes : r.bytes = tally ReorderMsg.bufferedBytes r.msgs
  limit : r.bytes ≤ reorderMaxBytes
  distinct : (r.msgs.map ReorderMsg.psn).Nodup
  sound : ∀ msg ∈ r.msgs, msg.Sound

theorem ReorderMsg.Fresh.sound {msg : ReorderMsg} (fresh : msg.Fresh) : msg.Sound := by
  have seen := fresh.seen
  refine ⟨by rw [fresh.bytes, fresh.frags, tally_nil], ?_, ?_, fun data => ?_, by simp [seen], by simp [seen]⟩
  · by_cases kind : msg.kind = .readReq
    · exact (fresh.read kind).2.2 ▸ (fresh.read kind).2.1 ▸ Nat.le_refl _
    · rw [(fresh.data kind).2.2]
      exact Nat.zero_le _
  · by_cases kind : msg.kind = .readReq
    · obtain ⟨complete, count, received⟩ := fresh.read kind
      simp [complete, count, received]
    · obtain ⟨complete, count, received⟩ := fresh.data kind
      simp only [complete, Bool.false_eq_true, received, false_iff]
      omega
  · rw [(fresh.data data).2.2, seen, List.length_nil]

/-- A message that takes one more fragment was not complete. -/
theorem ReorderMsg.Sound.addFragment {msg : ReorderMsg} {frame : Frame} {idx : Nat} (sound : msg.Sound)
    (takes : msg.Takes frame idx) : (msg.addFragment idx frame.header.fragOffset frame.payload).Sound := by
  have data : msg.kind ≠ .readReq := fun read => by
    have shape := takes.shape
    simp only [ReorderMsg.shape, read] at shape
    cases shape
  have bound := ReorderMsg.shape_lt takes.shape
  have nodup : (idx :: msg.fragSeen).Nodup := List.nodup_cons.mpr ⟨takes.unseen, sound.seen⟩
  have inside : ∀ i ∈ idx :: msg.fragSeen, i < msg.fragCount := by
    simpa using ⟨bound, sound.inside⟩
  have fits : msg.fragsReceived + 1 ≤ msg.fragCount := by
    have sub : idx :: msg.fragSeen ⊆ List.range msg.fragCount := fun i member =>
      List.mem_range.mpr (inside i member)
    have length := (nodup.subperm sub).length_le
    rw [List.length_cons, List.length_range, ← sound.received data] at length
    exact length
  have open_ : msg.complete = false := by
    by_contra done
    have full := sound.complete.mp (by simpa using done)
    omega
  refine ⟨?_, fits, ?_, fun _ => ?_, nodup, inside⟩
  · simp only [ReorderMsg.addFragment, sound.bytes]
    split <;> rename_i empty
    · simp [empty]
    · simp
  · simp [ReorderMsg.addFragment, open_]
  · simp [ReorderMsg.addFragment, sound.received data]

theorem nodup_link {r : Reorder} {msg : ReorderMsg} (distinct : (r.msgs.map ReorderMsg.psn).Nodup)
    (absent : ∀ other ∈ r.msgs, other.psn ≠ msg.psn) : ((r.link msg).msgs.map ReorderMsg.psn).Nodup := by
  simp only [Reorder.link, List.map_append, List.map_cons, List.map_nil]
  refine List.nodup_append.mpr ⟨distinct, by simp, ?_⟩
  intro psn old psn' added
  obtain ⟨other, member, rfl⟩ := List.mem_map.mp old
  obtain rfl := List.mem_singleton.mp added
  exact absent other member

namespace Reorder.Represented

variable {r : Reorder}

theorem unlink {msg : ReorderMsg} (held : r.Represented) (member : msg ∈ r.msgs) : (r.unlink msg).Represented := by
  have perm := perm_eraseP_key held.distinct member
  have length := perm.length_eq
  have bytes := tally_perm ReorderMsg.bufferedBytes perm
  have count := held.count
  have sum := held.bytes
  have room := held.room
  have limit := held.limit
  rw [List.length_cons] at length
  rw [tally_cons] at bytes
  refine ⟨?_, ?_, ?_, ?_, held.distinct.sublist (List.eraseP_sublist.map _), fun other left =>
    held.sound other (List.mem_of_mem_eraseP left)⟩
  all_goals simp only [Reorder.unlink]; omega

theorem link {msg : ReorderMsg} (held : r.Represented) (absent : ∀ other ∈ r.msgs, other.psn ≠ msg.psn)
    (room : r.count < reorderMaxMessages) (fresh : msg.Fresh) : (r.link msg).Represented := by
  refine ⟨by simp [Reorder.link, held.count], room, ?_, held.limit, nodup_link held.distinct absent,
    fun other member => ?_⟩
  · simp [Reorder.link, held.bytes, fresh.bytes]
  · rcases List.mem_append.mp member with old | added
    · exact held.sound other old
    · exact List.mem_singleton.mp added ▸ fresh.sound

theorem store {msg : ReorderMsg} {frame : Frame} {idx : Nat} (held : r.Represented) (member : msg ∈ r.msgs)
    (takes : msg.Takes frame idx)
    (fits : frame.header.length ≠ 0 → r.bytes + frame.header.length ≤ reorderMaxBytes) :
    (r.store msg idx frame).Represented := by
  have bytes : tally ReorderMsg.bufferedBytes _ + _ = _ + _ := tally_updateKey held.distinct member
    fun _ => msg.addFragment idx frame.header.fragOffset frame.payload
  have limit := held.limit
  have grown : (msg.addFragment idx frame.header.fragOffset frame.payload).bufferedBytes =
      msg.bufferedBytes + frame.header.length := by
    rw [← frame.sized]
    rfl
  refine ⟨?_, held.room, ?_, ?_, ?_, fun other inside => ?_⟩
  · simpa [Reorder.store] using held.count
  · simp only [Reorder.store, held.bytes, replaceKey]
    have same : (msg.addFragment idx frame.header.fragOffset frame.payload).psn = msg.psn := rfl
    rw [same]
    omega
  · by_cases empty : frame.header.length = 0
    · simpa [Reorder.store, empty] using limit
    · exact fits empty
  · simpa only [Reorder.store, keys_replaceKey] using held.distinct
  · rcases mem_replaceKey inside with rfl | ⟨old, -⟩
    · exact (held.sound msg member).addFragment takes
    · exact held.sound other old

theorem closed : Closed (fun _ => True) Represented where
  checked _ := trivial
  distinct held := held.distinct
  empty := ⟨rfl, Nat.zero_le _, rfl, Nat.zero_le _, List.nodup_nil, by simp [Reorder.empty]⟩
  unlink held member := held.unlink member
  link held absent room fresh _ := held.link absent room fresh
  store held member takes fits := held.store member takes fits

end Reorder.Represented

/-! ## The drain -/

variable {q : RxQp} {env : RxEnv}

def RxQp.Ahead (q : RxQp) : Prop := ∀ msg ∈ q.rxReorder, 0 ≤ psnDelta msg.psn q.rxExpectedPsn

theorem Pruning.ahead (pruned : Pruning q []) : q.Ahead := fun msg member => by
  have fresh := (pruned.rest msg member).resolve_left (by simp)
  simpa [RxQp.isDuplicate] using fresh

/-- Every turn but the last takes a message off the list, so the last one comes right after a prune. -/
theorem ahead_drainLoop {turns : Nat} (idle : q.idle = true) (distinct : (q.rxReorder.map ReorderMsg.psn).Nodup)
    (enough : q.rxReorder.length < turns) : (RxQp.drainLoop env turns q).Ahead := by
  induction turns generalizing q with
  | zero => omega
  | succ turns ih =>
      have pruned := pruning_pruneStale distinct
      obtain ⟨sublist, kept⟩ := pruneStale_kept q
      simp only [RxQp.drainLoop, idle, Bool.not_true, Bool.false_eq_true, if_false]
      split
      · exact pruned.ahead
      · rename_i msg found
        have member := (reorderFind_some found).1
        split
        · exact pruned.ahead
        · have delivery := delivery (q := q.pruneStale) env msg
          split <;> rename_i result <;> rw [result] at delivery
          · cases delivery
            exact pruned.ahead
          · cases delivery with
            | goes keeps unlinked =>
                have msgs := congrArg Reorder.msgs unlinked
                have perm := perm_eraseP_key pruned.distinct member
                have shorter := perm.length_eq
                have bound := sublist.length_le
                simp only [RxQp.reorder, Reorder.unlink] at msgs
                refine ih ?_ ?_ ?_
                · rw [keeps.idle, kept.idle, idle]
                · rw [msgs]
                  exact pruned.distinct.sublist (List.eraseP_sublist.map _)
                · rw [msgs]
                  rw [List.length_cons] at shorter
                  omega

theorem ahead_drain (idle : q.idle = true) (distinct : (q.rxReorder.map ReorderMsg.psn).Nodup) :
    (q.drain env).Ahead :=
  ahead_drainLoop idle distinct (Nat.lt_succ_self _)

/-! ## Every run -/

/-- `other` is any change that leaves the list alone, between two calls or inside one: requests are posted, a
message becomes the active one or ends, an attribute is modified. -/
inductive BufferAction
  | frame (env : RxEnv) (frame : Frame)
  | bufferFragment (env : RxEnv) (frame : Frame)
  | bufferWriteFragment (env : RxEnv) (frame : Frame) (totalLen : Nat) (withImm : Bool)
  | bufferReadReq (env : RxEnv) (header : DataHeader)
  | drop (psn : Nat)
  | prune
  | drain (env : RxEnv)
  | timeout (env : RxEnv) (timeout : Nat)
  | flush (env : RxEnv)
  | other (q : RxQp)

def RxQp.bufferStep (q : RxQp) : BufferAction → Option RxQp
  | .frame env frame => some (q.handleFrame env frame)
  | .bufferFragment env frame => some (q.bufferFragment env frame)
  | .bufferWriteFragment env frame totalLen withImm => some (q.bufferWriteFragment env frame totalLen withImm)
  | .bufferReadReq env header => some (q.bufferReadReq env header)
  | .drop psn => (q.reorderFind psn).map q.dropReorder
  | .prune => some q.pruneStale
  | .drain env => some (q.drain env)
  | .timeout env timeout => some (q.timeoutReapRx env timeout)
  | .flush env => some (q.flushRx env)
  | .other q' => if q'.reorder = q.reorder then some q' else none

def bufferSystem : System RxQp BufferAction where
  init q := q.reorder = .empty
  step := RxQp.bufferStep

/-- The size of a message that is buffered directly is one that a handler lets pass. -/
def BufferAction.checked : BufferAction → Bool
  | .bufferFragment _ fragment => fragment.header.immData ≤ dataMaxMsgSize
  | .bufferWriteFragment _ _ totalLen _ => totalLen ≤ dataMaxMsgSize
  | _ => true

variable {admits : ReorderMsg → Prop} {inv : Reorder → Prop} {ok : RxQp → BufferAction → Prop}

theorem Reorder.Closed.step (closed : Closed admits inv) {action : BufferAction} {q' : RxQp}
    (allowed : action.checked = true ∨ ∀ msg, admits msg) (held : inv q.reorder)
    (stepped : q.bufferStep action = some q') : inv q'.reorder := by
  cases action <;> simp only [RxQp.bufferStep, Option.some.injEq] at stepped
  case drop psn =>
      obtain ⟨msg, found, rfl⟩ := Option.map_eq_some_iff.mp stepped
      exact closed.dropReorder held (List.mem_of_find?_eq_some found)
  case other after =>
      split at stepped
      · rename_i same
        cases stepped
        rwa [same]
      · cases stepped
  all_goals subst stepped
  case frame env frame => exact closed.handleFrame held frame
  case bufferFragment env frame =>
      refine closed.bufferFragment held ?_
      rcases allowed with bound | all
      · exact closed.admitted (of_decide_eq_true bound)
      · exact fun msg _ => all msg
  case bufferWriteFragment env frame totalLen withImm =>
      refine closed.bufferWriteFragment held frame withImm ?_
      rcases allowed with bound | all
      · exact closed.admitted (of_decide_eq_true bound)
      · exact fun msg _ => all msg
  case bufferReadReq env header => exact closed.bufferReadReq held header
  case prune => exact closed.pruneStale held
  case drain env => exact closed.drain held
  case timeout env timeout => exact closed.timeoutReapRx held timeout
  case flush env => exact closed.flushRx

theorem Reorder.Closed.reachable (closed : Closed admits inv)
    (allowed : ∀ q action, ok q action → action.checked = true ∨ ∀ msg, admits msg)
    (reachable : bufferSystem.ReachableVia ok q) : inv q.reorder := by
  induction reachable with
  | init start =>
      have empty : _ = Reorder.empty := start
      rw [empty]
      exact closed.empty
  | step _ meets stepped held => exact closed.step (allowed _ _ meets) held stepped

theorem reorder_represented (reachable : bufferSystem.Reachable q) :
    q.rxReorderCount = q.rxReorder.length ∧ q.rxReorderCount ≤ reorderMaxMessages ∧
      q.rxReorderBytes = tally ReorderMsg.bufferedBytes q.rxReorder ∧
      q.rxReorderBytes = tally (fun msg => tally (fun frag => frag.data.length) msg.frags) q.rxReorder ∧
      q.rxReorderBytes ≤ reorderMaxBytes ∧ (q.rxReorder.map ReorderMsg.psn).Nodup ∧
      (q.idle = true → ∀ env, ∀ msg ∈ (q.drain env).rxReorder, 0 ≤ psnDelta msg.psn (q.drain env).rxExpectedPsn) ∧
      ∀ msg ∈ q.rxReorder, msg.fragsReceived ≤ msg.fragCount ∧
        (msg.complete = true ↔ msg.fragsReceived = msg.fragCount) ∧
        (msg.kind ≠ .readReq → msg.fragsReceived = msg.fragSeen.toFinset.card) := by
  have held : q.reorder.Represented :=
    Reorder.Represented.closed.reachable (fun _ _ _ => .inr fun _ => trivial) reachable
  refine ⟨held.count, held.room, held.bytes, ?_, held.limit, held.distinct, ?_, fun msg member => ?_⟩
  · exact held.bytes.trans (tally_congr fun msg member => (held.sound msg member).bytes)
  · exact fun idle env => ahead_drain idle held.distinct
  · have sound := held.sound msg member
    refine ⟨sound.bounded, sound.complete, fun data => ?_⟩
    rw [sound.received data, List.toFinset_card_of_nodup sound.seen]

def oneByteSend (psn : Nat) : Frame where
  header := { opcode := .send, flags := flagLast, psn, length := 1, immData := 1 }
  payload := [7]
  sized := rfl

/-- Two SENDs ahead of the expected PSN are buffered; the first one comes twice. -/
def twoBuffered : List BufferAction :=
  [.frame { mrs := fun _ => none, now := 1 } (oneByteSend 7), .frame { mrs := fun _ => none, now := 2 } (oneByteSend 6),
    .frame { mrs := fun _ => none, now := 3 } (oneByteSend 7)]

def emptyRxQp : RxQp := { qpNum := 0, remoteWrite := false, striping := false, rxExpectedPsn := 5, cq := { cqe := 4 } }

theorem reorder_represented_twoBuffered :
    ∃ q, bufferSystem.Reachable q ∧ q.rxReorder.map ReorderMsg.psn = [7, 6] ∧ q.rxReorderCount = 2 ∧
      q.rxReorderBytes = 2 ∧ (q.rxReorder.map ReorderMsg.psn).Nodup := by
  obtain ⟨q, reachable, passed⟩ := System.exists_reachableVia bufferSystem (fun _ _ => True) twoBuffered
    (fun q => q.rxReorder.map ReorderMsg.psn = [7, 6] && q.rxReorderBytes = 2) (s := emptyRxQp) rfl (by decide)
  simp only [Bool.and_eq_true, decide_eq_true_eq] at passed
  have represented := reorder_represented reachable
  refine ⟨q, reachable, passed.1, ?_, passed.2, represented.2.2.2.2.2.1⟩
  rw [represented.1, ← List.length_map ReorderMsg.psn, passed.1]
  rfl

end ThunderboltVerbs.Receive
