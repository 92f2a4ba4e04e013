import ThunderboltVerbs.SendQueue.Accounts
import ThunderboltVerbs.Verbs.Unwind

/-!
# The accounts over whole runs
-/

namespace ThunderboltVerbs.SendQueue
open Proto Lib Verbs

variable {m m' : Machine} {addr serial : Nat} {request : Request}

/-! ## Steps -/

theorem Accounted.return_ {label : Label} {error : Option Errno} (accounted : Accounted m) :
    Accounted (m.return_ serial label error) :=
  ⟨accounted.balanced, accounted.sends, accounted.reads, accounted.jobs, accounted.warned⟩

theorem Accounted.live_held {job : Job} (accounted : Accounted m) (member : job ∈ m.jobs)
    (held : addr ∈ job.held) : ∃ cell ∈ m.cells, cell.addr = addr :=
  accounted.balanced.live addr (Multiset.mem_add.mpr (.inr (List.mem_flatMap.mpr ⟨job, member, held⟩)))

theorem mem_retain {cells : List Cell} (live : ∃ cell ∈ cells, cell.addr = addr) :
    ∃ cell ∈ Cell.retain cells addr, cell.addr = addr := by
  obtain ⟨cell, member, same⟩ := live
  refine ⟨_, List.mem_map_of_mem member, ?_⟩
  rw [if_pos same]
  exact same

theorem Accounted.retains (accounted : Accounted m) (live : ∃ cell ∈ m.cells, cell.addr = addr)
    (psn n : Nat) :
    Accounted
      { m with
        cells := Nat.repeat (fun cells => Cell.retain cells addr) n m.cells
        jobs := List.replicate n (.sendTx addr psn) ++ m.jobs } ∧
    ∃ cell ∈ Nat.repeat (fun cells => Cell.retain cells addr) n m.cells, cell.addr = addr := by
  induction n with
  | zero => exact ⟨accounted, live⟩
  | succ n ih =>
      obtain ⟨earlier, alive⟩ := ih
      have retained := earlier.retain alive
      exact ⟨retained.become rfl rfl rfl rfl trivial, mem_retain alive⟩

theorem Accounted.updateSend (accounted : Accounted m) (addr : Nat) (f : SendCtx → SendCtx)
    (same : ∀ entry : SendEntry, sendKey (entry.1, f entry.2) = sendKey entry) :
    Accounted (m.updateSend addr f) :=
  accounted.stay (sendsStay_updateSend same)

theorem Accounted.transmit (accounted : Accounted m) (live : ∃ cell ∈ m.cells, cell.addr = addr)
    (psn more : Nat) : Accounted (m.transmit addr psn more) := by
  obtain ⟨retained, -⟩ := accounted.retains live psn (more + 1)
  exact retained.updateSend addr (fun send => { send with txPending := send.txPending + (more + 1) })
    fun _ => rfl

theorem Accounted.advance {stage : Stage}
    (accounted : Accounted (m.addJobs [.post stage addr serial request]))
    (kept : stage = .linked → ∃ cell ∈ m.cells, cell.addr = addr)
    (advanced : m.advance addr serial request stage = some m') : Accounted m' := by
  cases stage with
  | allocated =>
      simp only [Machine.advance] at advanced
      split at advanced <;> obtain rfl := Option.some.inj advanced
      · rename_i qp reserve
        exact accounted.reserve reserve
      · refine Accounted.return_ (accounted.refuseFresh.drop.setQp ?_ ?_ ?_ ?_ ?_)
        all_goals
          cases request with
          | send ctx credit =>
              simp only [Request.returnCredit, giveBack, Qp.returnRemoteRecvCredit]
              first
                | (split <;> (try split) <;> first | rfl | exact accounted.sends | exact accounted.reads)
          | read ctx => first | rfl | exact accounted.sends | exact accounted.reads
  | reserved =>
      obtain rfl := Option.some.inj advanced
      refine Accounted.become (accounted.setQp rfl rfl rfl accounted.sends accounted.reads) rfl rfl rfl rfl ?_
      exact (sqCounted_setPsn ..).trans (accounted.jobs _ List.mem_cons_self)
  | numbered =>
      cases request with
      | send ctx credit =>
          obtain rfl := Option.some.inj advanced
          exact accounted.queueSend.remember rfl rfl rfl rfl trivial
      | read ctx =>
          obtain rfl := Option.some.inj advanced
          exact accounted.queueRead.remember rfl rfl rfl rfl trivial
  | linked =>
      obtain rfl := Option.some.inj advanced
      have retained := (accounted.forget rfl rfl rfl rfl).retain (kept rfl)
      exact retained.become rfl rfl rfl rfl trivial
  | queued => cases advanced

theorem Accounted.sent {more : Nat} (accounted : Accounted (m.addJobs [.post .queued addr serial request])) :
    Accounted (m.sent addr serial more request) := by
  have holding : Accounted (m.addJobs [.leaving addr]) := accounted.become rfl rfl rfl rfl trivial
  cases request with
  | send ctx credit =>
      have live : ∃ cell ∈ m.cells, cell.addr = addr :=
        holding.live_held List.mem_cons_self (List.mem_singleton.mpr rfl)
      have posted := holding.transmit live ctx.msg.psn more
      have first : Accounted ((m.transmit addr ctx.msg.psn more).addJobs [.leaving addr]) := by
        have order : (Job.leaving addr :: (List.replicate (more + 1) (.sendTx addr ctx.msg.psn) ++
            m.jobs)).Perm (List.replicate (more + 1) (.sendTx addr ctx.msg.psn) ++
              Job.leaving addr :: m.jobs) := List.perm_middle.symm
        exact posted.perm order
      exact first.drop.return_
  | read ctx =>
      have sending : Accounted (m.addJobs [.readTx addr]) := holding.become rfl rfl rfl rfl trivial
      exact sending.return_

theorem Accounted.takeSend {qp : Qp} {entry : SendEntry} (accounted : Accounted m)
    (found : (m.qp.pendingSends.find? fun entry => entry.1 = addr) = some entry)
    (unqueued : m.qp.unqueueSend addr = (qp, true)) : Machine.sendSlots m.qp [addr] = [addr] ∧
      (addrs m.qp).Perm (addr :: addrs qp) ∧ qp.sendqCount = m.qp.sendqCount - 1 ∧
      qp.maxSendWr = m.qp.maxSendWr ∧ (∀ entry ∈ qp.pendingSends, entry.2.sqCounted = true) ∧
      ∀ entry ∈ qp.pendingReads, entry.2.sqCounted = true := by
  obtain ⟨qp', result, rest, reads, perm, sub, count⟩ := unqueueSend_found found
  obtain rfl : qp' = qp := congrArg Prod.fst (result.symm.trans unqueued)
  have own : entry.1 = addr := by simpa using List.find?_some found
  have counted := accounted.sends entry (List.mem_of_find?_eq_some found)
  have split : (m.qp.pendingSends.map Prod.fst).Perm ([addr] ++ qp'.pendingSends.map Prod.fst) := by
    have mapped := perm.map Prod.fst
    rw [List.map_cons, List.map_map, List.map_map] at mapped
    rw [List.singleton_append, ← own]
    exact mapped
  refine ⟨?_, ?_, by simpa [counted] using count, rest.maxSendWr, ?_, reads ▸ accounted.reads⟩
  · exact List.perm_singleton.mp
      (sendSlots_perm accounted.sends (List.nodup_append.mp accounted.nodup_addrs).1 split)
  · rw [addrs, addrs, reads]
    exact split.append_right _
  · exact counted_of_keys (fun key member => sub.mem member) accounted.sends

theorem Accounted.takeRead {qp : Qp} {entry : ReadEntry} (accounted : Accounted m)
    (found : (m.qp.pendingReads.find? fun entry => entry.1 = addr) = some entry)
    (unqueued : m.qp.unqueueRead addr = (qp, true)) : Machine.readSlots m.qp [addr] = [addr] ∧
      (addrs m.qp).Perm (addr :: addrs qp) ∧ qp.sendqCount = m.qp.sendqCount - 1 ∧
      qp.maxSendWr = m.qp.maxSendWr ∧ (∀ entry ∈ qp.pendingSends, entry.2.sqCounted = true) ∧
      ∀ entry ∈ qp.pendingReads, entry.2.sqCounted = true := by
  obtain ⟨qp', result, rest, sends, perm, sub, count⟩ := unqueueRead_found found
  obtain rfl : qp' = qp := congrArg Prod.fst (result.symm.trans unqueued)
  have own : entry.1 = addr := by simpa using List.find?_some found
  have counted := accounted.reads entry (List.mem_of_find?_eq_some found)
  have split : (m.qp.pendingReads.map Prod.fst).Perm ([addr] ++ qp'.pendingReads.map Prod.fst) := by
    have mapped := perm.map Prod.fst
    rw [List.map_cons, List.map_map, List.map_map] at mapped
    rw [List.singleton_append, ← own]
    exact mapped
  refine ⟨?_, ?_, by simpa [counted] using count, rest.maxSendWr, sends ▸ accounted.sends, ?_⟩
  · exact List.perm_singleton.mp
      (readSlots_perm accounted.reads (List.nodup_append.mp accounted.nodup_addrs).2.1 split)
  · rw [addrs, addrs, sends]
    exact (split.append_left _).trans List.perm_middle
  · exact counted_of_readKeys (fun key member => sub.mem member) accounted.reads

def holds (m : Machine) (addr serial : Nat) : Bool :=
  m.cells.any fun cell => cell.addr = addr && cell.serial = serial

/-- A post takes its reference while its context is still there, and a failed post finds its READ still on
the list. -/
def kept (m : Machine) : Action → Bool
  | .advance i =>
      match m.jobs[i]? with
      | some (.post .linked addr serial _) => holds m addr serial
      | _ => true
  | .unqueue i =>
      match m.jobs[i]? with
      | some (.unqueue addr serial _ _) =>
          holds m addr serial && m.qp.pendingReads.any fun entry => entry.1 = addr
      | _ => true
  | _ => true

theorem exists_of_holds (held : holds m addr serial = true) :
    ∃ cell ∈ m.cells, cell.addr = addr ∧ cell.serial = serial := by
  obtain ⟨cell, live, both⟩ := List.any_eq_true.mp held
  exact ⟨cell, live, by simpa using both⟩

theorem find_of_any {α : Type} {entries : List (Nat × α)}
    (any : (entries.any fun entry => entry.1 = addr) = true) :
    ∃ entry, (entries.find? fun entry => entry.1 = addr) = some entry := by
  obtain ⟨entry, member, own⟩ := List.any_eq_true.mp any
  exact Option.isSome_iff_exists.mp (List.find?_isSome.mpr ⟨entry, member, own⟩)

theorem Accounted.failed {error : Errno}
    (accounted : Accounted (m.addJobs [.post .queued addr serial request])) :
    Accounted (m.failed addr serial error request) := by
  have holding : Accounted (m.addJobs [.leaving addr]) := accounted.become rfl rfl rfl rfl trivial
  cases request with
  | send ctx credit =>
      simp only [Machine.failed]
      split
      · rename_i qp unqueued
        cases found : m.qp.pendingSends.find? fun entry => entry.1 = addr with
        | none => simp [Qp.unqueueSend, found] at unqueued
        | some entry =>
            obtain ⟨slots, split, count, maxSendWr, sends, reads⟩ := holding.takeSend found unqueued
            have refused := holding.refuseListed split count maxSendWr sends reads
            have first : Accounted ((((m.release qp [addr]).mark addr .refused).drop addr).addJobs
              [.leaving addr]) := refused.drop
            have same : addrs (giveBack qp credit) = addrs qp ∧
                (giveBack qp credit).sendqCount = qp.sendqCount ∧
                (giveBack qp credit).maxSendWr = qp.maxSendWr ∧
                (giveBack qp credit).pendingSends = qp.pendingSends ∧
                (giveBack qp credit).pendingReads = qp.pendingReads := by
              simp only [giveBack, Qp.returnRemoteRecvCredit]
              split
              · split <;> exact ⟨rfl, rfl, rfl, rfl, rfl⟩
              · exact ⟨rfl, rfl, rfl, rfl, rfl⟩
            have slotsHere : Machine.sendSlots m.qp [addr] = [addr] := slots
            rw [slotsHere]
            have credited := first.drop.setQp same.1 same.2.1 same.2.2.1 (same.2.2.2.1 ▸ sends)
              (same.2.2.2.2 ▸ reads)
            exact credited.return_
      · exact holding.drop.return_
  | read ctx => exact holding.drop.remember rfl rfl rfl rfl trivial

theorem Accounted.unqueue {ctx : ReadCtx} {error : Errno}
    (accounted : Accounted (m.addJobs [.unqueue addr serial ctx error]))
    (queued : (m.qp.pendingReads.any fun entry => entry.1 = addr) = true) :
    Accounted (m.unqueue addr serial ctx error) := by
  have alone : Accounted m := accounted.forget rfl rfl rfl rfl
  obtain ⟨entry, found⟩ := find_of_any queued
  obtain ⟨qp, unqueued, -⟩ := unqueueRead_found found
  obtain ⟨slots, split, count, maxSendWr, sends, reads⟩ := alone.takeRead found unqueued
  have own : [addr].Perm ([{ addr, read := true, label := readLabel ctx, status := none }].map
    Due.addr) := .refl _
  have taken := alone.take split own count maxSendWr sends reads
  simp only [Machine.unqueue, unqueued, slots]
  exact taken.become rfl rfl rfl rfl trivial

theorem Accounted.uncounted {ctx : ReadCtx} {error : Errno}
    (accounted : Accounted (m.addJobs [.unwind addr serial ctx error])) : m.countedAt addr = false := by
  have exclusive := accounted.balanced.exclusive
  have due : addr ∈ (m.addJobs [.unwind addr serial ctx error]).ledger.due :=
    List.mem_append_left _ (List.mem_singleton.mpr rfl)
  simp only [Ledger.pending, Multiset.nodup_add] at exclusive
  have apart := fun own => (Multiset.disjoint_right.mp exclusive.2.2 due) own
  have unlisted : addr ∉ addrs m.qp := fun listed =>
    apart (Multiset.mem_add.mpr (.inr (Multiset.mem_coe.mpr listed)))
  have unslotted : addr ∉ m.jobs.flatMap Job.slots := fun slot =>
    apart (Multiset.mem_add.mpr (.inl (Multiset.mem_add.mpr (.inr (Multiset.mem_coe.mpr slot)))))
  simp only [addrs, List.mem_append, List.mem_map, not_or, not_exists, not_and] at unlisted
  simp only [Machine.countedAt, Bool.or_eq_false_iff, List.any_eq_false]
  refine ⟨⟨?_, ?_⟩, ?_⟩
  · intro entry member both
    exact unlisted.1 entry member (by simpa using (Bool.and_eq_true_iff.mp both).1)
  · intro entry member both
    exact unlisted.2 entry member (by simpa using (Bool.and_eq_true_iff.mp both).1)
  · intro job member
    have flagged := accounted.jobs job (List.mem_cons_of_mem _ member)
    cases job with
    | post stage own serial request =>
        intro counted
        simp only [Bool.and_eq_true, decide_eq_true_eq] at counted
        obtain ⟨⟨⟨unlinked, unqueued⟩, rfl⟩, flag⟩ := counted
        cases stage with
        | allocated => exact Bool.noConfusion (flag.symm.trans flagged)
        | reserved | numbered =>
            exact unslotted (List.mem_flatMap.mpr ⟨_, member, List.mem_singleton.mpr rfl⟩)
        | linked => exact unlinked rfl
        | queued => exact unqueued rfl
    | _ => exact Bool.false_ne_true

theorem Accounted.refuseDue {ctx : ReadCtx} {error : Errno}
    (accounted : Accounted (m.addJobs [.unwind addr serial ctx error])) :
    Accounted ((m.mark addr .refused).addJobs [.leaving addr]) := by
  have balanced := accounted.balanced
  obtain ⟨cell, live, rfl⟩ : ∃ cell ∈ m.cells, cell.addr = addr := balanced.live addr
    (by simp [Ledger.pending, Machine.ledger, Machine.addJobs, Job.due])
  have serialAt : Cell.serialAt m.cells cell.addr = cell.serial := balanced.serialAt live
  constructor
  case balanced =>
    have here : (m.addJobs [.unwind cell.addr serial ctx error]).ledger.due =
      cell.addr ::ₘ ↑(m.jobs.flatMap Job.due) := rfl
    have refused := balanced.refuseDue live here
    rw [← serialAt] at refused
    exact refused
  case sends => exact accounted.sends
  case reads => exact accounted.reads
  case jobs =>
    intro job member
    rcases List.mem_cons.mp member with rfl | other
    · trivial
    · exact accounted.jobs job (List.mem_cons_of_mem _ other)
  case warned => exact accounted.warned

theorem Accounted.unwind {ctx : ReadCtx} {error : Errno}
    (accounted : Accounted (m.addJobs [.unwind addr serial ctx error])) :
    Accounted (m.unwind addr serial ctx error) := by
  simp only [Machine.unwind, accounted.uncounted, Bool.false_eq_true, if_false]
  exact accounted.refuseDue.drop.return_

theorem release_addJobs (qp : Qp) (slots : List Nat) (jobs : List Job) :
    (m.addJobs jobs).release qp slots = (m.release qp slots).addJobs jobs := by
  rw [release_eq, release_eq]
  rfl

theorem Accounted.swap {first second : Job} (accounted : Accounted ((m.addJobs [first]).addJobs [second])) :
    Accounted ((m.addJobs [second]).addJobs [first]) :=
  accounted.perm (.swap ..)

theorem Accounted.takeSends_with {job : Job} {result : Qp × List SendEntry}
    (accounted : Accounted (m.addJobs [job])) (leave : SendsLeave m.qp result) :
    Accounted ((m.takeSends result).addJobs [job]) := by
  have taken : Accounted ((m.addJobs [job]).takeSends result) := accounted.takeSends leave
  rw [Machine.takeSends, release_addJobs] at taken
  exact taken.swap

theorem Accounted.takeReads_with {job : Job} {result : Qp × List ReadEntry} {status : ReadCtx → Option Errno}
    (accounted : Accounted (m.addJobs [job])) (leave : ReadsLeave m.qp result) :
    Accounted ((m.takeReads result status).addJobs [job]) := by
  have taken : Accounted ((m.addJobs [job]).takeReads result status) := accounted.takeReads leave
  rw [Machine.takeReads, release_addJobs] at taken
  exact taken.swap

theorem Accounted.sendTxDone {psn now : Nat} {status : Option Errno}
    (accounted : Accounted (m.addJobs [.sendTx addr psn])) :
    Accounted (m.sendTxDone addr psn status now) := by
  have updated : Accounted ((m.updateSend addr fun send => send.packetDone status.isNone now).addJobs
    [.sendTx addr psn]) :=
    accounted.updateSend addr (fun send => send.packetDone status.isNone now) fun _ => rfl
  cases status with
  | none =>
      have leaving : Accounted ((m.updateSend addr fun send => send.packetDone true now).addJobs
        [.leaving addr]) := updated.become rfl rfl rfl rfl trivial
      exact leaving.drop
  | some error => exact updated.become rfl rfl rfl rfl trivial

theorem Accounted.readTxDone {now : Nat} {status : Option Errno}
    (accounted : Accounted (m.addJobs [.readTx addr])) : Accounted (m.readTxDone addr status now) := by
  have holding : Accounted (m.addJobs [.leaving addr]) := accounted.become rfl rfl rfl rfl trivial
  cases status with
  | none =>
      have keys : (m.qp.armReadTimeout addr now).pendingReads.map readKey = m.qp.pendingReads.map readKey := by
        refine map_updateFirst fun entry => ?_
        simp only [readKey, readLabel]
        split <;> rfl
      have armed : Accounted ({ m with qp := m.qp.armReadTimeout addr now }.addJobs [.leaving addr]) :=
        holding.setQp (addrs_of_keys rfl keys) rfl rfl holding.sends
          (counted_of_readKeys (fun key member => keys ▸ member) holding.reads)
      exact armed.drop
  | some error =>
      simp only [Machine.readTxDone]
      split
      · exact holding.drop
      · rename_i entry found
        exact holding.takeReads_with (readsLeave_unqueueRead found)

theorem Accounted.retryCheck {reason : PostReason} (accounted : Accounted (m.addJobs [.retry addr reason])) :
    Accounted (m.retryCheck addr reason) := by
  have holding : Accounted (m.addJobs [.leaving addr]) := accounted.become rfl rfl rfl rfl trivial
  simp only [Machine.retryCheck]
  split
  · exact holding.drop
  · split
    · exact accounted.become rfl rfl rfl rfl trivial
    · have updated : Accounted ((m.updateSend addr fun send => { send with retrying := false }).addJobs
        [.leaving addr]) := holding.updateSend addr (fun send => { send with retrying := false }) fun _ => rfl
      exact updated.drop

theorem Accounted.repost {psn more now : Nat} {reason : PostReason} {ret : Option Errno}
    (accounted : Accounted (m.addJobs [.repost addr psn reason])) :
    Accounted (m.repost addr psn reason ret more now) := by
  have holding : Accounted (m.addJobs [.leaving addr]) := accounted.become rfl rfl rfl rfl trivial
  have posted : Accounted ((if ret.isNone then m.transmit addr psn more else m).addJobs [.leaving addr]) := by
    split
    · have live : ∃ cell ∈ m.cells, cell.addr = addr :=
        holding.live_held List.mem_cons_self (List.mem_singleton.mpr rfl)
      have order : (Job.leaving addr :: (List.replicate (more + 1) (.sendTx addr psn) ++ m.jobs)).Perm
          (List.replicate (more + 1) (.sendTx addr psn) ++ Job.leaving addr :: m.jobs) :=
        List.perm_middle.symm
      exact (holding.transmit live psn more).perm order
    · exact holding
  simp only [Machine.repost]
  generalize (if ret.isNone then m.transmit addr psn more else m) = sending at posted ⊢
  refine posted.takeSends_with ?_
  split
  · exact sendsLeave_retried
  · exact (SendsStay.refl _).leave

theorem Accounted.ack {psn now : Nat} {status : SendAckStatus} (accounted : Accounted m)
    (handled : m.ack psn status now = some m') : Accounted m' := by
  obtain ⟨entry, found, rfl⟩ := Option.map_eq_some_iff.mp handled
  have listed : entry.1 ∈ addrs m.qp :=
    List.mem_append_left _ (List.mem_map_of_mem (List.mem_of_find?_eq_some found))
  refine (accounted.retain (accounted.live listed)).takeSends_with ?_
  cases status with
  | ok => exact sendsLeave_completeSendOrdered psn none
  | rnr => exact sendsLeave_noteRnrAck
  | error => exact sendsLeave_completeSendOrdered psn _

theorem Accounted.retries {entries : List (Nat × PostReason)} (accounted : Accounted m)
    (listed : ∀ entry ∈ entries, entry.1 ∈ addrs m.qp) :
    Accounted
      { m with
        cells := entries.foldl (fun cells entry => Cell.retain cells entry.1) m.cells
        jobs := entries.map (fun entry => .retry entry.1 entry.2) ++ m.jobs } := by
  induction entries generalizing m with
  | nil => exact accounted
  | cons entry rest ih =>
      have live := accounted.live (listed entry List.mem_cons_self)
      have retained : Accounted ((m.retain entry.1).addJobs [.retry entry.1 entry.2]) :=
        (accounted.retain live).become rfl rfl rfl rfl trivial
      have others := ih retained fun each inside => listed each (List.mem_cons_of_mem _ inside)
      exact others.perm List.perm_middle.symm

theorem Accounted.timeout {clock : Qp.Clock} (accounted : Accounted m) : Accounted (m.timeout clock) := by
  have retried := accounted.retries fun entry member =>
    List.mem_append_left _ (mem_retrySends (member : entry ∈
      retrySends (m.qp.reapEnv clock) m.qp.remoteRecvCredits m.qp.pendingSends))
  unfold Machine.timeout
  refine Accounted.takeReads ?_ (readsLeave_timeoutReapReads clock)
  exact retried.takeSends (sendsLeave_timeoutReapSends clock)

theorem Accounted.run {job : Job} {action : Action} (accounted : Accounted (m.addJobs [job]))
    (linked : ∀ i addr serial request, action = .advance i → job = .post .linked addr serial request →
      ∃ cell ∈ m.cells, cell.addr = addr)
    (queued : ∀ i addr serial ctx error, action = .unqueue i → job = .unqueue addr serial ctx error →
      (m.qp.pendingReads.any fun entry => entry.1 = addr) = true)
    (ran : m.run job action = some m') : Accounted m' := by
  unfold Machine.run at ran
  split at ran
  case h_1 i stage addr serial request =>
    refine accounted.advance ?_ ran
    rintro rfl
    exact linked i addr serial request rfl rfl
  case h_2 =>
    obtain rfl := Option.some.inj ran
    exact accounted.refuseSlot.drop.return_
  case h_3 =>
    obtain rfl := Option.some.inj ran
    exact accounted.sent
  case h_4 =>
    obtain rfl := Option.some.inj ran
    exact accounted.failed
  case h_5 i addr serial ctx error =>
    obtain rfl := Option.some.inj ran
    exact accounted.unqueue (queued i addr serial ctx error rfl rfl)
  case h_6 =>
    obtain rfl := Option.some.inj ran
    exact accounted.unwind
  case h_7 =>
    obtain rfl := Option.some.inj ran
    exact accounted.sendTxDone
  case h_8 addr psn error =>
    obtain rfl := Option.some.inj ran
    have holding : Accounted (m.addJobs [.leaving addr]) := accounted.become rfl rfl rfl rfl trivial
    exact holding.takeSends_with (sendsLeave_completeSendOrdered psn (some error))
  case h_9 =>
    obtain rfl := Option.some.inj ran
    exact accounted.readTxDone
  case h_10 addr =>
    obtain rfl := Option.some.inj ran
    have holding : Accounted (m.addJobs [.leaving addr]) := accounted.become rfl rfl rfl rfl trivial
    exact holding.takeReads_with readsLeave_completeReadOrdered
  case h_11 addr =>
    obtain rfl := Option.some.inj ran
    have holding : Accounted (m.addJobs [.leaving addr]) := accounted.become rfl rfl rfl rfl trivial
    exact holding.drop
  case h_12 =>
    obtain rfl := Option.some.inj ran
    exact accounted.drop
  case h_13 =>
    obtain rfl := Option.some.inj ran
    exact accounted.retryCheck
  case h_14 =>
    obtain rfl := Option.some.inj ran
    exact accounted.repost
  case h_15 =>
    obtain rfl := Option.some.inj ran
    exact accounted.forget rfl rfl rfl rfl
  case h_16 due rest =>
    obtain rfl := Option.some.inj ran
    have finished : Accounted (((m.finish due).addJobs [.complete rest]).addJobs [.leaving due.addr]) :=
      accounted.finish
    exact finished.drop
  case h_17 => cases ran

theorem Accounted.event {action : Action} (accounted : Accounted m) (happened : m.event action = some m') :
    Accounted m' := by
  cases action with
  | postSend addr op wr segs totalLen =>
      simp only [Machine.event] at happened
      split at happened
      · cases happened
      rename_i unknown
      have free : ∀ cell ∈ m.cells, cell.addr ≠ addr := by simpa using unknown
      split at happened
      · cases happened
      rename_i qp credit taken
      obtain rfl := Option.some.inj happened
      obtain ⟨credits, rfl⟩ := takeCredit_eq taken
      have allocated : Accounted (m.allocate addr (.send (newSend m.qp op wr segs totalLen) credit)) :=
        accounted.allocate free rfl
      exact allocated.setQp rfl rfl rfl accounted.sends accounted.reads
  | postRead addr wr segs totalLen =>
      simp only [Machine.event] at happened
      split at happened
      · cases happened
      rename_i unknown
      have free : ∀ cell ∈ m.cells, cell.addr ≠ addr := by simpa using unknown
      obtain rfl := Option.some.inj happened
      exact accounted.allocate free rfl
  | ack psn status now => exact accounted.ack happened
  | readFound psn =>
      obtain ⟨addr, found, rfl⟩ := Option.map_eq_some_iff.mp happened
      obtain ⟨entry, first, rfl⟩ := Option.map_eq_some_iff.mp found
      have listed : entry.1 ∈ addrs m.qp :=
        List.mem_append_right _ (List.mem_map_of_mem (List.mem_of_find?_eq_some first))
      exact (accounted.retain (accounted.live listed)).become rfl rfl rfl rfl trivial
  | timeout clock =>
      obtain rfl := Option.some.inj happened
      exact accounted.timeout
  | flushSends =>
      obtain rfl := Option.some.inj happened
      exact accounted.takeSends sendsLeave_flushSends
  | flushReads =>
      obtain rfl := Option.some.inj happened
      exact accounted.takeReads readsLeave_flushReads
  | setState state =>
      obtain rfl := Option.some.inj happened
      exact accounted.setQp rfl rfl rfl accounted.sends accounted.reads
  | close =>
      obtain rfl := Option.some.inj happened
      exact accounted.setQp rfl rfl rfl accounted.sends accounted.reads
  | setCredits credits =>
      obtain rfl := Option.some.inj happened
      exact accounted.setQp rfl rfl rfl accounted.sends accounted.reads
  | _ => cases happened

/-- The step of a job happens in the machine without it. -/
theorem step_cases {action : Action} (action_ : m.step action = some m') :
    m.event action = some m' ∨ ∃ i job, action.job = some i ∧ m.jobs[i]? = some job ∧
      { m with jobs := m.jobs.eraseIdx i }.run job action = some m' := by
  unfold Machine.step at action_
  split at action_
  · exact .inl action_
  · rename_i i job
    split at action_
    · cases action_
    · rename_i own found
      exact .inr ⟨i, own, job, found, action_⟩

theorem perm_eraseIdx {i : Nat} {job : Job} (found : m.jobs[i]? = some job) :
    (job :: m.jobs.eraseIdx i).Perm m.jobs := by
  obtain ⟨bound, rfl⟩ := List.getElem?_eq_some_iff.mp found
  exact List.getElem_cons_eraseIdx_perm bound

theorem Accounted.step {action : Action} (accounted : Accounted m) (allowed : kept m action = true)
    (stepped : m.step action = some m') : Accounted m' := by
  rcases step_cases stepped with happened | ⟨i, job, own, found, ran⟩
  · exact accounted.event happened
  · have focused : Accounted ({ m with jobs := m.jobs.eraseIdx i }.addJobs [job]) :=
      accounted.perm (perm_eraseIdx found)
    refine focused.run ?_ ?_ ran
    · rintro j addr serial request rfl rfl
      obtain rfl : j = i := Option.some.inj own
      simp only [kept, found] at allowed
      obtain ⟨cell, live, same, -⟩ := exists_of_holds allowed
      exact ⟨cell, live, same⟩
    · rintro j addr serial ctx error rfl rfl
      obtain rfl : j = i := Option.some.inj own
      simp only [kept, found, Bool.and_eq_true] at allowed
      exact allowed.2

theorem accounted_init (idle : Idle m) : Accounted m where
  balanced := by
    constructor <;>
      simp [Machine.ledger, Ledger.pending, addrs, idle.cells, idle.jobs, idle.sends, idle.reads, idle.count,
        idle.serials, idle.history, idle.completed]
  sends := by simp [idle.sends]
  reads := by simp [idle.reads]
  jobs := by simp [idle.jobs]
  warned := idle.warned

theorem accounted_of_reachable (reachable : machine.ReachableVia (fun m action => kept m action = true) m) :
    Accounted m :=
  reachable.invariant (fun _ idle => accounted_init idle)
    fun _ _ _ accounted allowed stepped => accounted.step allowed stepped

/-! ## What the accounts say -/

theorem Accounted.countedAt_iff (accounted : Accounted m) :
    m.countedAt addr = true ↔ addr ∈ addrs m.qp ++ m.jobs.flatMap Job.slots := by
  simp only [Machine.countedAt, Bool.or_eq_true, List.any_eq_true, Bool.and_eq_true, decide_eq_true_eq,
    addrs, List.mem_append, List.mem_map, List.mem_flatMap]
  constructor
  · rintro ((⟨entry, member, own, -⟩ | ⟨entry, member, own, -⟩) | ⟨job, member, counted⟩)
    · exact .inl (.inl ⟨entry, member, own⟩)
    · exact .inl (.inr ⟨entry, member, own⟩)
    · have flagged := accounted.jobs job member
      cases job with
      | post stage own serial request =>
          simp only [Bool.and_eq_true, decide_eq_true_eq] at counted
          obtain ⟨⟨⟨unlinked, unqueued⟩, rfl⟩, flag⟩ := counted
          cases stage with
          | allocated => exact Bool.noConfusion (flag.symm.trans flagged)
          | reserved | numbered => exact .inr ⟨_, member, List.mem_singleton.mpr rfl⟩
          | linked => exact absurd rfl unlinked
          | queued => exact absurd rfl unqueued
      | _ => cases counted
  · rintro ((⟨entry, member, own⟩ | ⟨entry, member, own⟩) | ⟨job, member, slot⟩)
    · exact .inl (.inl ⟨entry, member, own, accounted.sends entry member⟩)
    · exact .inl (.inr ⟨entry, member, own, accounted.reads entry member⟩)
    · have flagged := accounted.jobs job member
      refine .inr ⟨job, member, ?_⟩
      cases job with
      | post stage own serial request =>
          cases stage with
          | allocated | linked | queued => cases slot
          | reserved | numbered =>
              obtain rfl := List.mem_singleton.mp slot
              have flag : request.sqCounted = true := flagged
              simpa using flag
      | _ => cases slot

theorem Accounted.count (accounted : Accounted m) :
    m.qp.sendqCount = m.cells.countP fun cell => m.countedAt cell.addr := by
  have balanced := accounted.balanced
  have nodup : (addrs m.qp ++ m.jobs.flatMap Job.slots).Nodup := by
    have exclusive := balanced.exclusive
    have sub : m.ledger.listed + m.ledger.slots ≤ m.ledger.pending := by
      simp only [Ledger.pending]
      rw [Multiset.add_comm m.ledger.listed]
      refine (Multiset.le_add_left _ m.ledger.fresh).trans ?_
      rw [← Multiset.add_assoc]
      exact Multiset.le_add_right ..
    exact Multiset.coe_nodup.mp (Multiset.nodup_of_le sub exclusive)
  have same : ((m.cells.map Cell.addr).filter m.countedAt).Perm
      (addrs m.qp ++ m.jobs.flatMap Job.slots) := by
    refine (List.perm_ext_iff_of_nodup (balanced.addrs.filter _) nodup).mpr fun addr => ?_
    rw [List.mem_filter, accounted.countedAt_iff]
    refine ⟨And.right, fun inside => ⟨?_, inside⟩⟩
    have token : addr ∈ m.ledger.pending + m.ledger.held := by
      simp only [Ledger.pending, Machine.ledger, Multiset.mem_add, Multiset.mem_coe]
      rcases List.mem_append.mp inside with listed | slot
      · exact .inl (.inl (.inr listed))
      · exact .inl (.inl (.inl (.inr slot)))
    obtain ⟨cell, live, rfl⟩ := balanced.live addr token
    exact List.mem_map_of_mem live
  have size := balanced.size
  have length := same.length_eq
  rw [List.length_append, ← List.countP_eq_length_filter, List.countP_map] at length
  simp only [Machine.ledger, Multiset.coe_card] at size
  rw [size, Nat.add_comm, ← length]
  rfl

/-- The slot of a request was released at most once, and it was once the request is not counted. -/
def ReleasedOnce (m : Machine) (serial : Nat) : Prop :=
  (m.history serial).count .released ≤ 1 ∧
    (.reserved ∈ m.history serial → (.released ∈ m.history serial ↔
      ∀ cell ∈ m.cells, cell.serial = serial → m.countedAt cell.addr = false))

theorem Accounted.releasedOnce (accounted : Accounted m) (serial : Nat) : ReleasedOnce m serial := by
  have balanced := accounted.balanced
  have marked : ∀ cell ∈ m.cells, cell.serial = serial → m.countedAt cell.addr = true →
      m.history serial = [.reserved] := by
    rintro cell live rfl counted
    rw [accounted.countedAt_iff, List.mem_append, or_comm] at counted
    exact balanced.counted cell live (Multiset.mem_add.mpr counted)
  have unmarked : m.history serial ≠ [.reserved] → ∀ cell ∈ m.cells, cell.serial = serial →
      m.countedAt cell.addr = false :=
    fun other cell live own => Bool.eq_false_iff.mpr fun counted => other (marked cell live own counted)
  unfold ReleasedOnce
  by_cases below : serial < m.serials
  · rcases balanced.closed serial below with ⟨cell, live, rfl, open_⟩ | done
    · rcases Ledger.mem_pending.mp open_ with fresh | counted | due
      · rw [show m.history cell.serial = [] from balanced.fresh cell live fresh]
        simp
      · rw [show m.history cell.serial = [.reserved] from balanced.counted cell live counted]
        have flag : m.countedAt cell.addr = true :=
          accounted.countedAt_iff.mpr (List.mem_append.mpr (Multiset.mem_add.mp counted).symm)
        refine ⟨by simp, fun _ => ⟨fun impossible => by simp at impossible, fun all => ?_⟩⟩
        rw [all cell live rfl] at flag
        cases flag
      · have marks : m.history cell.serial = [.released, .reserved] := balanced.due cell live due
        have none := unmarked (by simp [marks])
        rw [marks]
        exact ⟨by simp, fun _ => ⟨fun _ => none, fun _ => by simp⟩⟩
    · have ended : m.history serial ∈ Ledger.ended := done
      simp only [Ledger.ended, List.mem_cons, List.not_mem_nil, or_false] at ended
      rcases ended with marks | marks | marks
      · rw [marks]
        simp
      · have none := unmarked (by simp [marks])
        rw [marks]
        exact ⟨by simp, fun _ => ⟨fun _ => none, fun _ => by simp⟩⟩
      · have none := unmarked (by simp [marks])
        rw [marks]
        exact ⟨by simp, fun _ => ⟨fun _ => none, fun _ => by simp⟩⟩
  · rw [show m.history serial = [] from balanced.unborn serial (Nat.le_of_not_lt below)]
    simp

/-- As long as no post takes its reference after its context was freed, and no READ post fails whose context
was taken off the list before. -/
theorem sendq_accounted
    (reachable : machine.ReachableVia (fun m action => kept m action = true) m) :
    m.qp.sendqCount = m.cells.countP (fun cell => m.countedAt cell.addr) ∧
    m.qp.sendqCount ≤ m.qp.maxSendWr ∧ m.warned = false ∧ (∀ serial, ReleasedOnce m serial) ∧
    (m.completed.map Done.serial).Nodup := by
  have accounted := accounted_of_reachable reachable
  exact ⟨accounted.count, accounted.balanced.room, accounted.warned, accounted.releasedOnce,
    accounted.balanced.completed_nodup⟩

def idleMachine : Machine := { qp := readyQp, labels := fun _ => { wrId := 0, signaled := false } }

theorem idleMachine_idle : Idle idleMachine := by constructor <;> rfl

def someRead : SendWr := { wrId := 7, opcode := .rdmaRead, sgList := [], signaled := true }

def someSend : SendWr := { wrId := 8, opcode := .send, sgList := [], signaled := true }

def sendAndRead : List Action :=
  [.postSend 0 .send someSend [] 0, .advance 0, .advance 0, .advance 0, .advance 0, .sent 0 0,
    .postRead 1 someRead [] 0, .advance 0, .advance 0, .advance 0, .advance 0, .ack 0 .ok 1,
    .failed 2 .eNotConn, .unqueue 0, .unwind 0, .complete 1, .leave 1]

theorem sendq_accounted_sendAndRead :
    ∃ m, m.completed.length = 1 ∧ m.returned.length = 2 ∧
      m.qp.sendqCount = m.cells.countP (fun cell => m.countedAt cell.addr) ∧
      m.qp.sendqCount ≤ m.qp.maxSendWr ∧ m.warned = false ∧ (∀ serial, ReleasedOnce m serial) ∧
      (m.completed.map Done.serial).Nodup := by
  obtain ⟨m, reachable, counts⟩ := machine.exists_reachableVia
    (fun m action => kept m action = true) sendAndRead
    (fun m => m.completed.length == 1 && m.returned.length == 2) idleMachine_idle (by decide +kernel)
  rw [Bool.and_eq_true, beq_iff_eq, beq_iff_eq] at counts
  exact ⟨m, counts.1, counts.2, sendq_accounted reachable⟩

/-- A READ that the peer answers before its frame fails to go out: the post drops a reference that it does
not have, and with it the context of another post that got the same address. -/
def droppedTwice : List Action :=
  [.postRead 0 someRead [] 0, .advance 0, .advance 0, .advance 0, .advance 0, .readFound 0,
    .readDone 0 (some .eIo), .complete 1, .complete 0, .leave 0, .failed 0 .eNotConn, .unqueue 0,
    .postRead 0 someRead [] 0, .unwind 1, .postRead 0 someRead [] 0, .advance 1, .advance 1]

/-- Two slots are taken, but only one context is left to give one back. -/
theorem droppedTwice_loses_slot :
    ∃ m, machine.Reachable m ∧
      (m.qp.sendqCount = 2 ∧ m.cells.countP (fun cell => m.countedAt cell.addr) = 1) := by
  obtain ⟨m, reachable, counts⟩ := machine.exists_reachableVia (fun _ _ => True) droppedTwice
    (fun m => m.qp.sendqCount == 2 && m.cells.countP (fun cell => m.countedAt cell.addr) == 1)
    idleMachine_idle (by decide +kernel)
  rw [Bool.and_eq_true, beq_iff_eq, beq_iff_eq] at counts
  exact ⟨m, reachable, counts⟩

end ThunderboltVerbs.SendQueue
