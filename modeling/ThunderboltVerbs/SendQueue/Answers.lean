import ThunderboltVerbs.SendQueue.Reports

/-!
# A work request is reported once

A post returns an error or its request is completed, as long as the context of a post that fails is still
on its list, and that of a post that takes its reference is still there.
-/

namespace ThunderboltVerbs.SendQueue
open Proto Lib Verbs

variable {m m' : Machine} {addr serial : Nat} {request : Request}

/-! ## Steps of other threads -/

theorem quiet_become {old new : Job} (claims : new.claims = old.claims) (owned : new.owned ⊆ old.owned)
    (tags : new.tags ⊆ old.tags) : Quiet (m.addJobs [old]) (m.addJobs [new]) := by
  refine quiet_jobs (m := m.addJobs [old]) ?_ ?_ ?_
  · simp only [Machine.claims, Machine.addJobs, List.flatMap_append, List.flatMap_cons, List.flatMap_nil,
      claims]
    exact .refl _
  · intro claim member
    simp only [List.flatMap_append, List.flatMap_cons, List.flatMap_nil, List.append_nil,
      List.mem_append] at member
    rcases member with own | other
    · exact List.mem_append_left _ (owned own)
    · exact List.mem_append_right _ other
  · intro tag member
    simp only [List.flatMap_append, List.flatMap_cons, List.flatMap_nil, List.append_nil,
      List.mem_append] at member
    refine List.mem_append_right _ ?_
    rcases member with own | other
    · exact List.mem_append_left _ (tags own)
    · exact List.mem_append_right _ other

theorem quiet_leaving : Quiet m (m.addJobs [.leaving addr]) := quiet_addJob rfl (List.nil_subset _)

theorem quiet_finish {due : Due} {rest : List Due} :
    Quiet (m.addJobs [.complete (due :: rest)]) ((m.finish due).addJobs [.complete rest]) := by
  have become : Quiet (m.addJobs [.complete (due :: rest)]) (m.addJobs [.complete rest]) :=
    quiet_become rfl (List.Subset.refl _) (List.map_subset _ (List.subset_cons_self due rest))
  unfold Machine.finish
  split
  · exact become
  · rename_i cell found
    split
    · exact become
    · have own : cell.addr = due.addr := by simpa using List.find?_some found
      have tag : (cell.addr, due.label) ∈ (m.addJobs [.complete (due :: rest)]).tags := by
        rw [own]
        exact List.mem_append_right _ (List.mem_append_left _ List.mem_cons_self)
      have other : Mark.completed ≠ .refused := by simp
      refine { become with cells := ?_, completed := ?_, refused := fun _ => refused_mark other _ }
      · exact fun each member => Cell.of_mem_finish member
      · intro done member
        rcases List.mem_append.mp member with earlier | new
        · exact .inl earlier
        · obtain rfl := List.mem_singleton.mp new
          exact .inr ⟨cell, List.mem_of_find?_eq_some found, rfl, tag⟩

theorem quiet_sendTxDone {psn now : Nat} {status : Option Errno} : Quiet m (m.sendTxDone addr psn status now) := by
  have counted : Quiet m (m.updateSend addr fun send => send.packetDone status.isNone now) :=
    quiet_updateSend fun _ => rfl
  cases status with
  | none => exact counted.trans quiet_drop
  | some error => exact counted.trans (quiet_addJob rfl (List.nil_subset _))

theorem quiet_readTxDone {now : Nat} {status : Option Errno} : Quiet m (m.readTxDone addr status now) := by
  cases status with
  | none =>
      have keys : (m.qp.armReadTimeout addr now).pendingReads.map readKey = m.qp.pendingReads.map readKey := by
        refine map_updateFirst fun entry => ?_
        simp only [readKey, readLabel]
        split <;> rfl
      have armed : Quiet m { m with qp := m.qp.armReadTimeout addr now } := by
        refine quiet_setQp fun tag member => List.mem_append_left _ ?_
        rcases List.mem_append.mp member with send | read
        · exact List.mem_append_left _ send
        · exact List.mem_append_right _ (readTags_of_keys (fun key inside => keys ▸ inside) tag read)
      exact armed.trans quiet_drop
  | some error =>
      simp only [Machine.readTxDone]
      split
      · exact quiet_drop
      · rename_i entry found
        exact (quiet_takeReads (readsLeave_unqueueRead found)).trans quiet_leaving

theorem quiet_retryCheck {reason : PostReason} : Quiet m (m.retryCheck addr reason) := by
  simp only [Machine.retryCheck]
  split
  · exact quiet_drop
  · split
    · exact quiet_addJob rfl (List.nil_subset _)
    · have updated : Quiet m (m.updateSend addr fun send => { send with retrying := false }) :=
        quiet_updateSend fun _ => rfl
      exact updated.trans quiet_drop

theorem quiet_repost {psn more now : Nat} {reason : PostReason} {ret : Option Errno} :
    Quiet m (m.repost addr psn reason ret more now) := by
  have posted : Quiet m (if ret.isNone then m.transmit addr psn more else m) := by
    split
    · exact quiet_transmit
    · exact .refl m
  simp only [Machine.repost]
  generalize (if ret.isNone then m.transmit addr psn more else m) = sending at posted ⊢
  refine posted.trans ((quiet_takeSends ?_).trans quiet_leaving)
  split
  · exact sendsLeave_retried
  · exact (SendsStay.refl _).leave

theorem quiet_ack {psn now : Nat} {status : SendAckStatus} (handled : m.ack psn status now = some m') :
    Quiet m m' := by
  obtain ⟨entry, found, rfl⟩ := Option.map_eq_some_iff.mp handled
  refine quiet_retain.trans ((quiet_takeSends ?_).trans quiet_leaving)
  cases status with
  | ok => exact sendsLeave_completeSendOrdered psn none
  | rnr => exact sendsLeave_noteRnrAck
  | error => exact sendsLeave_completeSendOrdered psn _

theorem quiet_retries {entries : List (Nat × PostReason)} :
    Quiet m
      { m with
        cells := entries.foldl (fun cells entry => Cell.retain cells entry.1) m.cells
        jobs := entries.map (fun entry => .retry entry.1 entry.2) ++ m.jobs } := by
  induction entries generalizing m with
  | nil => exact .refl m
  | cons entry rest ih =>
      have retained : Quiet m ((m.retain entry.1).addJobs [.retry entry.1 entry.2]) :=
        quiet_retain.trans (quiet_addJob rfl (List.nil_subset _))
      exact (retained.trans ih).trans (quiet_perm List.perm_middle.symm)

theorem quiet_timeout {clock : Qp.Clock} : Quiet m (m.timeout clock) := by
  unfold Machine.timeout
  refine Quiet.trans (Quiet.trans quiet_retries (quiet_takeSends ?_)) (quiet_takeReads ?_)
  · exact sendsLeave_timeoutReapSends clock
  · exact readsLeave_timeoutReapReads clock

theorem quiet_run {job : Job} {action : Action} (claims : job.claims = [])
    (ran : m.run job action = some m') : Quiet (m.addJobs [job]) m' := by
  have forget : Quiet (m.addJobs [job]) m := quiet_forget claims
  unfold Machine.run at ran
  split at ran
  case h_1 | h_2 | h_3 | h_4 | h_5 | h_6 => cases claims
  case h_17 => cases ran
  all_goals obtain rfl := Option.some.inj ran
  case h_7 => exact forget.trans quiet_sendTxDone
  case h_8 psn error =>
    exact forget.trans ((quiet_takeSends (sendsLeave_completeSendOrdered psn (some error))).trans quiet_leaving)
  case h_9 => exact forget.trans quiet_readTxDone
  case h_10 => exact forget.trans ((quiet_takeReads readsLeave_completeReadOrdered).trans quiet_leaving)
  case h_11 | h_12 => exact forget.trans quiet_drop
  case h_13 => exact forget.trans quiet_retryCheck
  case h_14 => exact forget.trans quiet_repost
  case h_15 => exact forget
  case h_16 => exact quiet_finish.trans quiet_drop

/-! ## Steps of a post -/

@[simp] theorem label_setCounted (counted : Bool) : (request.setCounted counted).label = request.label := by
  cases request <;> rfl

@[simp] theorem label_setPsn (psn : Nat) : (request.setPsn psn).label = request.label := by
  cases request <;> rfl

theorem Reported.release {qp : Qp} {slots : List Nat} (reported : Reported m)
    (distinct : (m.cells.map Cell.addr).Nodup) (tags : ∀ tag ∈ listTags qp, tag ∈ m.tags) :
    Reported (m.release qp slots) := by
  refine reported.quiet distinct (quiet_release tags) ?_
  rw [release_eq]
  intro claim member
  obtain ⟨cell, live, addr, -⟩ := reported.own claim member
  exact ⟨cell, live, addr⟩

theorem listTags_giveBack (qp : Qp) (credit : Bool) : listTags (giveBack qp credit) = listTags qp := by
  simp only [giveBack, Qp.returnRemoteRecvCredit]
  split
  · split <;> rfl
  · rfl

theorem listTags_returnCredit (qp : Qp) : listTags (request.returnCredit qp) = listTags qp := by
  cases request with
  | send ctx credit => exact listTags_giveBack qp credit
  | read ctx => rfl

section Posts

variable {stage : Stage} {error : Errno}

theorem serialAt_post (accounted : Accounted (m.addJobs [.post stage addr serial request]))
    (reported : Reported (m.addJobs [.post stage addr serial request])) (own : stage ≠ .linked) :
    Cell.serialAt m.cells addr = serial := by
  have claim : { addr, serial, label := request.label } ∈
      (m.addJobs [.post stage addr serial request]).owned := by
    cases stage with
    | linked => exact absurd rfl own
    | allocated | reserved | numbered | queued => exact List.mem_cons_self
  exact accounted.serialAt reported claim

theorem Reported.regain {old new : Job} {claim : Claim} (reported : Reported (m.addJobs [old]))
    (distinct : (m.cells.map Cell.addr).Nodup) (claims : old.claims = [claim]) (same : new.claims = [claim])
    (owned : new.owned = [claim]) (tags : new.tags = [(claim.addr, claim.label)])
    (live : ∃ cell ∈ m.cells, cell.addr = claim.addr ∧ cell.serial = claim.serial) :
    Reported (m.addJobs [new]) := by
  have list : (m.addJobs [new]).claims = (m.addJobs [old]).claims := by
    rw [claims_addJob claims, claims_addJob same]
  have claimed := reported.claimed claim (claims_addJob claims ▸ List.mem_cons_self)
  constructor
  case nodup => exact list ▸ reported.nodup
  case bound => exact list ▸ reported.bound
  case own =>
    intro each member
    simp only [Machine.owned, Machine.addJobs, List.flatMap_cons, owned, List.singleton_append,
      List.mem_cons] at member
    rcases member with rfl | other
    · exact live
    · exact reported.own each (List.mem_append_right _ other)
  case claimed => exact list ▸ reported.claimed
  case tags =>
    intro tag member cell inside own
    simp only [Machine.tags, Machine.addJobs, List.flatMap_cons, tags, List.singleton_append,
      List.mem_append, List.mem_cons] at member
    rcases member with listed | rfl | other
    · exact reported.tags tag (List.mem_append_left _ listed) cell inside own
    · obtain ⟨first, kept, addr, serial⟩ := live
      obtain rfl := List.inj_on_of_nodup_map distinct inside kept (own.trans addr.symm)
      exact serial ▸ claimed.1
    · exact reported.tags tag (List.mem_append_right _ (List.mem_append_right _ other)) cell inside own
  case completed => exact reported.completed
  case returned => exact reported.returned

theorem Reported.refuse {qp : Qp} (accounted : Accounted (m.addJobs [.post stage addr serial request]))
    (reported : Reported (m.addJobs [.post stage addr serial request])) (own : stage ≠ .linked)
    (tags : listTags qp = listTags m.qp)
    (after : Accounted ({ (m.mark addr .refused).drop addr with qp }.return_ serial request.label
      (some error))) :
    Reported ({ (m.mark addr .refused).drop addr with qp }.return_ serial request.label (some error)) := by
  have refused : Reported ((m.mark addr .refused).return_ serial request.label (some error)) :=
    reported.refused rfl (serialAt_post accounted reported own) error
  have same : Quiet ((m.mark addr .refused).return_ serial request.label (some error))
      { (m.mark addr .refused).return_ serial request.label (some error) with qp } :=
    quiet_setQp fun tag member => List.mem_append_left _ (tags ▸ member)
  exact refused.next accounted.balanced.addrs (same.trans quiet_drop) after

theorem Reported.advance (accounted : Accounted (m.addJobs [.post stage addr serial request]))
    (reported : Reported (m.addJobs [.post stage addr serial request])) (after : Accounted m')
    (kept : stage = .linked → holds m addr serial = true)
    (advanced : m.advance addr serial request stage = some m') : Reported m' := by
  have distinct := accounted.balanced.addrs
  cases stage with
  | allocated =>
      simp only [Machine.advance] at advanced
      split at advanced <;> obtain rfl := Option.some.inj advanced
      · rename_i qp reserve
        obtain rfl := reserveSendq_eq reserve
        have become : Quiet (m.addJobs [.post .allocated addr serial request])
            (m.addJobs [.post .reserved addr serial (request.setCounted true)]) := by
          apply quiet_become <;> simp [Job.claims, Job.owned, Job.tags]
        have mark : Mark.reserved ≠ .refused := by simp
        refine reported.next distinct (become.trans ((quiet_mark mark).trans (quiet_setQp ?_))) after
        exact fun tag member => List.mem_append_left _ member
      · exact reported.refuse accounted (by simp) (listTags_returnCredit m.qp) after
  | reserved =>
      obtain rfl := Option.some.inj advanced
      have become : Quiet (m.addJobs [.post .reserved addr serial request])
          (m.addJobs [.post .numbered addr serial (request.setPsn m.qp.takePsn.2)]) := by
        apply quiet_become <;> simp [Job.claims, Job.owned, Job.tags]
      refine reported.next distinct (become.trans (quiet_setQp ?_)) after
      exact fun tag member => List.mem_append_left _ member
  | numbered =>
      have own : (addr, request.label) ∈ (m.addJobs [.post .numbered addr serial request]).tags :=
        List.mem_append_right _ List.mem_cons_self
      cases request with
      | send ctx credit =>
          obtain rfl := Option.some.inj advanced
          have become : Quiet
              ({ m with qp := m.qp.queueSend addr ctx }.addJobs [.post .numbered addr serial (.send ctx credit)])
              ({ m with qp := m.qp.queueSend addr ctx }.addJobs [.post .linked addr serial (.send ctx credit)]) :=
            quiet_become rfl (List.nil_subset _) (List.nil_subset _)
          refine reported.next distinct (Quiet.trans (quiet_setQp ?_) become) after
          intro tag member
          simp only [listTags, Qp.queueSend, List.map_append, List.map_cons, List.map_nil,
            List.mem_append, List.mem_singleton] at member
          rcases member with (send | rfl) | read
          · exact List.mem_append_left _ (List.mem_append_left _ send)
          · exact own
          · exact List.mem_append_left _ (List.mem_append_right _ read)
      | read ctx =>
          obtain rfl := Option.some.inj advanced
          have become : Quiet
              ({ m with qp := m.qp.queueRead addr ctx }.addJobs [.post .numbered addr serial (.read ctx)])
              ({ m with qp := m.qp.queueRead addr ctx }.addJobs [.post .linked addr serial (.read ctx)]) :=
            quiet_become rfl (List.nil_subset _) (List.nil_subset _)
          refine reported.next distinct (Quiet.trans (quiet_setQp ?_) become) after
          intro tag member
          simp only [listTags, Qp.queueRead, List.map_append, List.map_cons, List.map_nil,
            List.mem_append, List.mem_singleton] at member
          rcases member with send | read | rfl
          · exact List.mem_append_left _ (List.mem_append_left _ send)
          · exact List.mem_append_left _ (List.mem_append_right _ read)
          · exact own
  | linked =>
      obtain rfl := Option.some.inj advanced
      have again : Reported (m.addJobs [.post .queued addr serial request]) :=
        reported.regain distinct rfl rfl rfl rfl (exists_of_holds (kept rfl))
      exact again.next distinct quiet_retain after
  | queued => cases advanced

theorem Reported.sent {more : Nat} (accounted : Accounted (m.addJobs [.post .queued addr serial request]))
    (reported : Reported (m.addJobs [.post .queued addr serial request])) :
    Reported (m.sent addr serial more request) := by
  have returned : Reported (m.return_ serial request.label none) := reported.accepted rfl
  have after : Accounted (m.sent addr serial more request) := accounted.sent
  cases request with
  | send ctx credit =>
      exact returned.next accounted.balanced.addrs (quiet_transmit.trans quiet_drop) after
  | read ctx => exact returned.next accounted.balanced.addrs (quiet_addJob rfl (List.nil_subset _)) after

theorem Reported.refuseReleased {qp qp' : Qp} {slots : List Nat}
    (accounted : Accounted (m.addJobs [.post stage addr serial request]))
    (reported : Reported (m.addJobs [.post stage addr serial request])) (own : stage ≠ .linked)
    (tags : ∀ tag ∈ listTags qp, tag ∈ listTags m.qp) (same : listTags qp' = listTags qp)
    (after : Accounted m')
    (last : Quiet ({ (m.release qp slots).mark addr .refused with qp := qp' }.return_ serial request.label
      (some error)) m') : Reported m' := by
  have released : Reported ((m.addJobs [.post stage addr serial request]).release qp slots) :=
    reported.release accounted.balanced.addrs fun tag member => List.mem_append_left _ (tags tag member)
  rw [release_addJobs] at released
  have cells : (m.release qp slots).cells = m.cells := by rw [release_eq]
  have serialAt : Cell.serialAt (m.release qp slots).cells addr = serial := by
    rw [cells]
    exact serialAt_post accounted reported own
  have distinct : ((m.release qp slots).cells.map Cell.addr).Nodup := by
    rw [cells]
    exact accounted.balanced.addrs
  have refused : Reported (((m.release qp slots).mark addr .refused).return_ serial request.label
    (some error)) := released.refused rfl serialAt error
  have queue : Quiet (((m.release qp slots).mark addr .refused).return_ serial request.label (some error))
      ({ (m.release qp slots).mark addr .refused with qp := qp' }.return_ serial request.label
        (some error)) := by
    refine quiet_setQp fun tag member => List.mem_append_left _ ?_
    rw [same] at member
    rw [release_eq]
    exact member
  exact refused.next distinct (queue.trans last) after

theorem listTags_unqueueSend {qp : Qp} {entry : SendEntry}
    (found : (m.qp.pendingSends.find? fun entry => entry.1 = addr) = some entry)
    (unqueued : m.qp.unqueueSend addr = (qp, true)) : ∀ tag ∈ listTags qp, tag ∈ listTags m.qp := by
  obtain ⟨qp', result, -, reads, -, sub, -⟩ := unqueueSend_found found
  obtain rfl : qp' = qp := congrArg Prod.fst (result.symm.trans unqueued)
  intro tag member
  rcases List.mem_append.mp member with send | read
  · exact List.mem_append_left _ (sendTags_of_keys (fun key inside => sub.mem inside) tag send)
  · exact List.mem_append_right _ (reads ▸ read)

theorem listTags_unqueueRead {qp : Qp} {entry : ReadEntry}
    (found : (m.qp.pendingReads.find? fun entry => entry.1 = addr) = some entry)
    (unqueued : m.qp.unqueueRead addr = (qp, true)) : ∀ tag ∈ listTags qp, tag ∈ listTags m.qp := by
  obtain ⟨qp', result, -, sends, -, sub, -⟩ := unqueueRead_found found
  obtain rfl : qp' = qp := congrArg Prod.fst (result.symm.trans unqueued)
  intro tag member
  rcases List.mem_append.mp member with send | read
  · exact List.mem_append_left _ (sends ▸ send)
  · exact List.mem_append_right _ (readTags_of_keys (fun key inside => sub.mem inside) tag read)

def sendListed (qp : Qp) (addr : Nat) : Request → Bool
  | .send _ _ => qp.pendingSends.any fun entry => entry.1 = addr
  | .read _ => true

theorem Reported.failed (accounted : Accounted (m.addJobs [.post .queued addr serial request]))
    (reported : Reported (m.addJobs [.post .queued addr serial request]))
    (still : sendListed m.qp addr request = true) : Reported (m.failed addr serial error request) := by
  have after : Accounted (m.failed addr serial error request) := accounted.failed
  cases request with
  | send ctx credit =>
      obtain ⟨entry, found⟩ := find_of_any still
      obtain ⟨qp, unqueued, -⟩ := unqueueSend_found found
      have tags := listTags_unqueueSend found unqueued
      simp only [Machine.failed, unqueued] at after ⊢
      exact reported.refuseReleased accounted (by simp) tags (listTags_giveBack qp credit) after
        (quiet_drop.trans quiet_drop)
  | read ctx =>
      have become : Quiet (m.addJobs [.post .queued addr serial (.read ctx)])
        (m.addJobs [.unqueue addr serial ctx error]) :=
        quiet_become rfl (List.nil_subset _) (List.nil_subset _)
      exact reported.next accounted.balanced.addrs (become.trans quiet_drop) after

theorem Reported.unqueue {ctx : ReadCtx} (accounted : Accounted (m.addJobs [.unqueue addr serial ctx error]))
    (reported : Reported (m.addJobs [.unqueue addr serial ctx error])) (held : holds m addr serial = true)
    (queued : (m.qp.pendingReads.any fun entry => entry.1 = addr) = true) :
    Reported (m.unqueue addr serial ctx error) := by
  have after := accounted.unqueue queued
  have distinct := accounted.balanced.addrs
  have again : Reported (m.addJobs [.unwind addr serial ctx error]) :=
    reported.regain distinct rfl rfl rfl rfl (exists_of_holds held)
  obtain ⟨entry, found⟩ := find_of_any queued
  obtain ⟨qp, unqueued, -⟩ := unqueueRead_found found
  have tags := listTags_unqueueRead found unqueued
  simp only [Machine.unqueue, unqueued] at after ⊢
  have released : Quiet (m.addJobs [.unwind addr serial ctx error])
      ((m.release qp (Machine.readSlots m.qp [addr])).addJobs [.unwind addr serial ctx error]) := by
    rw [← release_addJobs]
    exact quiet_release fun tag member => List.mem_append_left _ (tags tag member)
  exact again.next distinct released after

theorem Reported.abandon {ctx : ReadCtx}
    (accounted : Accounted (m.addJobs [.post .numbered addr serial (.read ctx)]))
    (reported : Reported (m.addJobs [.post .numbered addr serial (.read ctx)])) :
    Reported ((((m.release m.qp.releaseSendq [addr]).mark addr .refused).drop addr).return_ serial
      (readLabel ctx) (some error)) := by
  have tags : ∀ tag ∈ listTags m.qp.releaseSendq, tag ∈ listTags m.qp := fun _ member => member
  have dropped : Quiet ({ (m.release m.qp.releaseSendq [addr]).mark addr .refused with
      qp := m.qp.releaseSendq }.return_ serial (readLabel ctx) (some error))
    ((((m.release m.qp.releaseSendq [addr]).mark addr .refused).drop addr).return_ serial (readLabel ctx)
      (some error)) := quiet_drop
  exact reported.refuseReleased accounted (by simp) tags rfl accounted.refuseSlot.drop.return_ dropped

theorem Reported.unwind {ctx : ReadCtx} (accounted : Accounted (m.addJobs [.unwind addr serial ctx error]))
    (reported : Reported (m.addJobs [.unwind addr serial ctx error])) :
    Reported (m.unwind addr serial ctx error) := by
  have after : Accounted (m.unwind addr serial ctx error) := accounted.unwind
  have claim : { addr, serial, label := readLabel ctx } ∈
    (m.addJobs [.unwind addr serial ctx error]).owned := List.mem_cons_self
  have refused : Reported ((m.mark addr .refused).return_ serial (readLabel ctx) (some error)) :=
    reported.refused rfl (accounted.serialAt reported claim) error
  simp only [Machine.unwind, accounted.uncounted, Bool.false_eq_true, if_false] at after ⊢
  exact refused.next accounted.balanced.addrs quiet_drop after

end Posts

/-! ## Runs -/

/-- A post takes its reference while its context is still there, and one that fails finds its context still
on the list. -/
def stillQueued (m : Machine) : Action → Bool
  | .failed i _ =>
      match m.jobs[i]? with
      | some (.post .queued addr _ request) => sendListed m.qp addr request
      | _ => true
  | action => kept m action

theorem kept_of_stillQueued {action : Action} (still : stillQueued m action = true) :
    kept m action = true := by
  cases action with
  | failed i error => rfl
  | _ => exact still

theorem Reported.run {job : Job} {action : Action} (accounted : Accounted (m.addJobs [job]))
    (reported : Reported (m.addJobs [job])) (after : Accounted m')
    (linked : ∀ i addr serial request, action = .advance i → job = .post .linked addr serial request →
      holds m addr serial = true)
    (listed : ∀ i error addr serial request, action = .failed i error →
      job = .post .queued addr serial request → sendListed m.qp addr request = true)
    (queued : ∀ i addr serial ctx error, action = .unqueue i → job = .unqueue addr serial ctx error →
      holds m addr serial = true ∧ (m.qp.pendingReads.any fun entry => entry.1 = addr) = true)
    (ran : m.run job action = some m') : Reported m' := by
  by_cases claims : job.claims = []
  · exact reported.next accounted.balanced.addrs (quiet_run claims ran) after
  · unfold Machine.run at ran
    split at ran
    case h_1 i stage addr serial request =>
      refine reported.advance accounted after ?_ ran
      rintro rfl
      exact linked i addr serial request rfl rfl
    case h_2 =>
      obtain rfl := Option.some.inj ran
      exact reported.abandon accounted
    case h_3 =>
      obtain rfl := Option.some.inj ran
      exact reported.sent accounted
    case h_4 i error addr serial request =>
      obtain rfl := Option.some.inj ran
      exact reported.failed accounted (listed i error addr serial request rfl rfl)
    case h_5 i addr serial ctx error =>
      obtain rfl := Option.some.inj ran
      obtain ⟨held, found⟩ := queued i addr serial ctx error rfl rfl
      exact reported.unqueue accounted held found
    case h_6 =>
      obtain rfl := Option.some.inj ran
      exact reported.unwind accounted
    case h_17 => cases ran
    all_goals exact absurd rfl claims

theorem Reported.event {action : Action} (accounted : Accounted m) (reported : Reported m)
    (happened : m.event action = some m') : Reported m' := by
  have distinct := accounted.balanced.addrs
  have after := accounted.event happened
  cases action with
  | postSend addr op wr segs totalLen =>
      simp only [Machine.event] at happened
      split at happened
      · cases happened
      rename_i unknown
      have free : ∀ cell ∈ m.cells, cell.addr ≠ addr := by simpa using unknown
      split at happened
      · cases happened
      rename_i qp credit taken
      obtain rfl := Option.some.inj happened
      obtain ⟨credits, rfl⟩ := takeCredit_eq taken
      have allocated : Accounted (m.allocate addr (.send (newSend m.qp op wr segs totalLen) credit)) :=
        accounted.allocate free rfl
      refine (reported.allocate accounted free).next allocated.balanced.addrs (quiet_setQp ?_) after
      exact fun tag member => List.mem_append_left _ member
  | postRead addr wr segs totalLen =>
      simp only [Machine.event] at happened
      split at happened
      · cases happened
      rename_i unknown
      have free : ∀ cell ∈ m.cells, cell.addr ≠ addr := by simpa using unknown
      obtain rfl := Option.some.inj happened
      exact reported.allocate accounted free
  | ack psn status now => exact reported.next distinct (quiet_ack happened) after
  | readFound psn =>
      obtain ⟨addr, -, rfl⟩ := Option.map_eq_some_iff.mp happened
      exact reported.next distinct (quiet_retain.trans (quiet_addJob rfl (List.nil_subset _))) after
  | timeout clock =>
      obtain rfl := Option.some.inj happened
      exact reported.next distinct quiet_timeout after
  | flushSends =>
      obtain rfl := Option.some.inj happened
      exact reported.next distinct (quiet_takeSends sendsLeave_flushSends) after
  | flushReads =>
      obtain rfl := Option.some.inj happened
      exact reported.next distinct (quiet_takeReads readsLeave_flushReads) after
  | setState state =>
      obtain rfl := Option.some.inj happened
      exact reported.next distinct (quiet_setQp fun tag member => List.mem_append_left _ member) after
  | close =>
      obtain rfl := Option.some.inj happened
      exact reported.next distinct (quiet_setQp fun tag member => List.mem_append_left _ member) after
  | setCredits credits =>
      obtain rfl := Option.some.inj happened
      exact reported.next distinct (quiet_setQp fun tag member => List.mem_append_left _ member) after
  | _ => cases happened

theorem Reported.step {action : Action} (accounted : Accounted m) (reported : Reported m)
    (still : stillQueued m action = true) (stepped : m.step action = some m') : Reported m' := by
  have after := accounted.step (kept_of_stillQueued still) stepped
  rcases step_cases stepped with happened | ⟨i, job, own, found, ran⟩
  · exact reported.event accounted happened
  · have front := perm_eraseIdx found
    have focused : Accounted ({ m with jobs := m.jobs.eraseIdx i }.addJobs [job]) := accounted.perm front
    have told : Reported ({ m with jobs := m.jobs.eraseIdx i }.addJobs [job]) :=
      reported.next accounted.balanced.addrs (quiet_perm front) focused
    refine told.run focused after ?_ ?_ ?_ ran
    · rintro j addr serial request rfl rfl
      obtain rfl : j = i := Option.some.inj own
      simp only [stillQueued, kept, found] at still
      exact still
    · rintro j error addr serial request rfl rfl
      obtain rfl : j = i := Option.some.inj own
      simpa only [stillQueued, found] using still
    · rintro j addr serial ctx error rfl rfl
      obtain rfl : j = i := Option.some.inj own
      simp only [stillQueued, kept, found, Bool.and_eq_true] at still
      exact still

theorem reported_init (idle : Idle m) : Reported m := by
  constructor <;>
    simp [Machine.claims, Machine.owned, Machine.tags, listTags, idle.cells, idle.jobs, idle.sends, idle.reads,
      idle.completed, idle.returned]

theorem reported_of_reachable (reachable : machine.ReachableVia (fun m action => stillQueued m action = true) m) :
    Reported m :=
  reachable.invariant_with (fun _ run => accounted_of_reachable (run.mono fun _ _ => kept_of_stillQueued))
    (fun _ idle => reported_init idle)
    fun _ _ _ accounted reported still stepped => reported.step accounted still stepped

/-- The context is on a list, or a thread that took it off its list is about to complete it. -/
def Machine.Pending (m : Machine) (serial : Nat) : Prop :=
  ∃ cell ∈ m.cells, cell.serial = serial ∧ cell.addr ∈ addrs m.qp ++ m.jobs.flatMap Job.due

theorem Reported.pending_iff {back : Return} (accounted : Accounted m) (reported : Reported m)
    (member : back ∈ m.returned) :
    (∃ cell ∈ m.ledger.cells, cell.serial = back.serial ∧ cell.addr ∈ m.ledger.pending) ↔
      m.Pending back.serial := by
  have posting : ∀ cell ∈ m.cells, cell.serial = back.serial → ∀ job ∈ m.jobs,
      cell.addr ∉ job.fresh ++ job.slots := by
    intro cell live serial job inside place
    have claim : ∃ claim ∈ job.owned, claim.addr = cell.addr := by
      cases job with
      | post stage own number request =>
          cases stage with
          | allocated | reserved | numbered =>
              exact ⟨_, List.mem_singleton.mpr rfl, (List.mem_singleton.mp place).symm⟩
          | linked | queued => cases place
      | _ => cases place
    obtain ⟨claim, own, addr⟩ := claim
    have listed : claim ∈ m.claims := List.mem_flatMap.mpr ⟨job, inside, owned_subset job own⟩
    obtain ⟨other, alive, sameAddr, sameSerial⟩ :=
      reported.own claim (List.mem_flatMap.mpr ⟨job, inside, own⟩)
    obtain rfl := accounted.balanced.eq_of_addr alive live (sameAddr.trans addr)
    have apart := (List.nodup_append.mp reported.nodup).2.2
    exact apart _ (List.mem_map_of_mem listed) _ (List.mem_map_of_mem member)
      (sameSerial.symm.trans serial)
  simp only [Machine.Pending, Ledger.pending, Machine.ledger, Multiset.mem_add, Multiset.mem_coe,
    List.mem_append]
  refine exists_congr fun cell => and_congr_right fun live => and_congr_right fun serial => ?_
  constructor
  · rintro (((fresh | slot) | listed) | due)
    · obtain ⟨job, inside, place⟩ := List.mem_flatMap.mp fresh
      exact absurd (List.mem_append_left _ place) (posting cell live serial job inside)
    · obtain ⟨job, inside, place⟩ := List.mem_flatMap.mp slot
      exact absurd (List.mem_append_right _ place) (posting cell live serial job inside)
    · exact .inl listed
    · exact .inr due
  · rintro (listed | due)
    · exact .inl (.inr listed)
    · exact .inr due

theorem Accounted.completes {i : Nat} {due : Due} {rest : List Due} (accounted : Accounted m)
    (found : m.jobs[i]? = some (.complete (due :: rest))) :
    ∃ m' done, m.step (.complete i) = some m' ∧ m'.jobs = .complete rest :: m.jobs.eraseIdx i ∧
      m'.completed = m.completed ++ [done] ∧ done.serial = Cell.serialAt m.cells due.addr := by
  have pending : due.addr ∈ m.ledger.pending := by
    refine Multiset.mem_add.mpr (.inr (List.mem_flatMap.mpr ⟨_, List.mem_of_getElem? found, ?_⟩))
    exact List.mem_cons_self
  obtain ⟨cell, -, -, first, unfinished, -⟩ := accounted.found pending
  have stepped : m.step (.complete i) = some ((({ m with jobs := m.jobs.eraseIdx i }.finish due).drop
      due.addr).addJobs [.complete rest]) := by
    simp only [Machine.step, Action.job, found, Machine.run]
  rw [stepped]
  simp only [Machine.finish, first, unfinished, Bool.false_eq_true, if_false]
  exact ⟨_, _, rfl, rfl, rfl, by simp [Cell.serialAt, first]⟩

theorem filter_pushed_of_count {serial : Nat} (labels : ∀ done ∈ m.completed, m.labels done.serial = done.label)
    (signaled : (m.labels serial).signaled = true) (once : (m.completed.map Done.serial).count serial = 1) :
    ∃ done, (m.pushed.filter fun done => done.serial = serial) = [done] ∧ done.label = m.labels serial := by
  rw [List.count, List.countP_map, List.countP_eq_length_filter, List.length_eq_one_iff] at once
  obtain ⟨done, only⟩ := once
  have member : done ∈ m.completed.filter ((fun other => other == serial) ∘ Done.serial) := by
    rw [only]
    exact List.mem_singleton.mpr rfl
  obtain ⟨inside, own⟩ := List.mem_filter.mp member
  have serial_ : done.serial = serial := by simpa using own
  have label := labels done inside
  rw [serial_] at label
  refine ⟨done, ?_, label.symm⟩
  rw [Machine.pushed, List.filter_filter]
  rw [← only]
  refine List.filter_congr fun each here => ?_
  by_cases same : each.serial = serial
  · have flag := labels each here
    rw [same] at flag
    simp [same, ← flag, signaled]
  · simp [same]

/-- A post that returns an error has no completion, and one that returns none has one, and only one, when its
context is no longer pending, as long as every step is `stillQueued`. -/
theorem reported_once
    (reachable : machine.ReachableVia (fun m action => stillQueued m action = true) m) {back : Return}
    (member : back ∈ m.returned) :
    (back.error ≠ none → ∀ done ∈ m.pushed, done.serial ≠ back.serial) ∧
    (back.error = none → back.label.signaled = true →
      (m.Pending back.serial → ∀ done ∈ m.pushed, done.serial ≠ back.serial) ∧
      (¬m.Pending back.serial →
        ∃ done, (m.pushed.filter fun done => done.serial = back.serial) = [done] ∧
          done.label = back.label)) ∧
    ∀ i due rest, m.jobs[i]? = some (.complete (due :: rest)) →
      ∃ m' done, m.step (.complete i) = some m' ∧ m'.jobs = .complete rest :: m.jobs.eraseIdx i ∧
        m'.completed = m.completed ++ [done] ∧ done.serial = Cell.serialAt m.cells due.addr := by
  have accounted := accounted_of_reachable (reachable.mono fun _ _ => kept_of_stillQueued)
  have reported := reported_of_reachable reachable
  have balanced := accounted.balanced
  obtain ⟨label, refused⟩ := reported.returned back member
  have below : back.serial < m.serials :=
    reported.bound _ (List.mem_append_right _ (List.mem_map_of_mem member))
  have uncompleted : (m.completed.map Done.serial).count back.serial = 0 →
      ∀ done ∈ m.pushed, done.serial ≠ back.serial := by
    intro none done pushed same
    rw [List.count_eq_zero] at none
    exact none (same ▸ List.mem_map_of_mem (List.mem_filter.mp pushed).1)
  refine ⟨?_, ?_, fun i due rest found => accounted.completes found⟩
  · intro error
    have marked := refused.mp (Option.isSome_iff_ne_none.mpr error)
    exact uncompleted (List.count_eq_zero.mpr (balanced.not_completed marked))
  · intro noError signaled
    have accepted : .refused ∉ m.history back.serial := by
      rw [← refused, noError]
      exact nofun
    have count := balanced.completed_count below accepted
    have pending := reported.pending_iff accounted member
    constructor
    · intro open_
      rw [if_pos (pending.mpr open_)] at count
      exact uncompleted count
    · intro closed
      rw [if_neg fun open_ => closed (pending.mp open_)] at count
      rw [← label]
      exact filter_pushed_of_count reported.completed (label ▸ signaled) count

/-- The SEND of `sendAndRead` is completed and its READ is refused. -/
theorem reported_once_sendAndRead :
    ∃ (m : Machine) (sendBack readBack : Return), m.returned = [readBack, sendBack] ∧ readBack.error ≠ none ∧
      sendBack.error = none ∧ (∀ done ∈ m.pushed, done.serial ≠ readBack.serial) ∧
      ∃ done, (m.pushed.filter fun done => done.serial = sendBack.serial) = [done] ∧
        done.label = sendBack.label := by
  obtain ⟨m, reachable, final⟩ := machine.exists_reachableVia
    (fun m action => stillQueued m action = true) sendAndRead
    (fun m => m.returned == [{ serial := 1, label := { wrId := 7, signaled := true }, error := some .eNotConn },
      { serial := 0, label := { wrId := 8, signaled := true }, error := none }] &&
      (addrs m.qp ++ m.jobs.flatMap Job.due).isEmpty)
    idleMachine_idle (by decide +kernel)
  rw [Bool.and_eq_true, beq_iff_eq, List.isEmpty_iff] at final
  obtain ⟨returned, none⟩ := final
  have gone : ∀ serial, ¬m.Pending serial := by
    rintro serial ⟨cell, -, -, inside⟩
    rw [none] at inside
    cases inside
  have both := fun back (member : back ∈ m.returned) => reported_once reachable member
  rw [returned, List.forall_mem_cons, List.forall_mem_singleton] at both
  exact ⟨m, _, _, returned, nofun, rfl, both.1.1 nofun, (both.2.2.1 rfl rfl).2 (gone _)⟩

/-- The queue pair goes to the error state while the frames of a queued SEND cannot be sent. -/
def flushedWhileFailing : List Action :=
  [.postSend 0 .send someSend [] 0, .advance 0, .advance 0, .advance 0, .advance 0, .setState .err,
    .flushSends, .complete 0, .failed 1 .eNotConn]

theorem flushedWhileFailing_reports_twice :
    ∃ m, machine.Reachable m ∧ ∃ back ∈ m.returned, back.error ≠ none ∧
      ∃ done ∈ m.pushed, done.serial = back.serial := by
  obtain ⟨m, reachable, final⟩ := machine.exists_reachableVia (fun _ _ => True) flushedWhileFailing
    (fun m => m.returned.any fun back => back.error != none &&
      m.pushed.any fun done => done.serial == back.serial)
    idleMachine_idle (by decide +kernel)
  simp only [List.any_eq_true, Bool.and_eq_true, bne_iff_ne, beq_iff_eq] at final
  exact ⟨m, reachable, final⟩

end ThunderboltVerbs.SendQueue
