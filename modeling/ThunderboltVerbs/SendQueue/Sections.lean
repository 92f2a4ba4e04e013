import ThunderboltVerbs.SendQueue.Machine

/-!
# What a critical section does to the pending lists

Sends leave `pending_sends` from the front only, and every one that leaves gives its slot back.
-/

namespace ThunderboltVerbs.SendQueue
open Proto Lib Verbs

/-- What a section cannot change about a pending send. -/
def sendKey (entry : SendEntry) : Nat × Label × Nat × Bool :=
  (entry.1, sendLabel entry.2, entry.2.msg.psn, entry.2.sqCounted)

def readKey (entry : ReadEntry) : Nat × Label × Bool := (entry.1, readLabel entry.2, entry.2.sqCounted)

structure SameRest (qp qp' : Qp) : Prop where
  maxSendWr : qp'.maxSendWr = qp.maxSendWr
  sendPsn : qp'.sendPsn = qp.sendPsn

structure SendsLeave (qp : Qp) (result : Qp × List SendEntry) : Prop extends SameRest qp result.1 where
  front : ∃ left, qp.pendingSends.map sendKey = left ++ result.1.pendingSends.map sendKey ∧
    result.2.map (fun entry => (entry.1, sendLabel entry.2)) = left.map (fun key => (key.1, key.2.1)) ∧
    result.1.sendqCount = qp.sendqCount - left.countP fun key => key.2.2.2
  reads : result.1.pendingReads = qp.pendingReads

structure SendsStay (qp qp' : Qp) : Prop extends SameRest qp qp' where
  sends : qp'.pendingSends.map sendKey = qp.pendingSends.map sendKey
  reads : qp'.pendingReads = qp.pendingReads
  count : qp'.sendqCount = qp.sendqCount

variable {qp qp' : Qp} {psn now addr : Nat}

theorem SendsStay.refl (qp : Qp) : SendsStay qp qp :=
  { maxSendWr := rfl, sendPsn := rfl, sends := rfl, reads := rfl, count := rfl }

theorem sendsStay_updateSend {which : SendEntry → Bool} {f : SendCtx → SendCtx}
    (same : ∀ entry : SendEntry, sendKey (entry.1, f entry.2) = sendKey entry) :
    SendsStay qp (qp.updateSend which f) :=
  { maxSendWr := rfl, sendPsn := rfl, sends := map_updateFirst same, reads := rfl, count := rfl }

theorem sendKey_finish (entry : SendEntry) (status : Option Errno) :
    sendKey (entry.1, entry.2.finish status) = sendKey entry := by
  unfold SendCtx.finish
  split <;> rfl

theorem SendsStay.leave (stays : SendsStay qp qp') : SendsLeave qp (qp', []) where
  maxSendWr := stays.maxSendWr
  sendPsn := stays.sendPsn
  front := ⟨[], stays.sends.symm, rfl, stays.count⟩
  reads := stays.reads

theorem SendsStay.drain (stays : SendsStay qp qp') : SendsLeave qp qp'.drainReadySends where
  maxSendWr := stays.maxSendWr
  sendPsn := stays.sendPsn
  front := by
    refine ⟨(qp'.pendingSends.takeWhile fun entry => entry.2.ready).map sendKey, ?_, ?_, ?_⟩
    · rw [← stays.sends]
      simp only [Qp.drainReadySends]
      rw [← List.map_append, List.takeWhile_append_dropWhile]
    · simp only [Qp.drainReadySends, List.map_map]
      rfl
    · simp only [Qp.drainReadySends, List.countP_map, stays.count]
      rfl
  reads := stays.reads

theorem SendsLeave.addrs {result : Qp × List SendEntry} (leave : SendsLeave qp result) :
    qp.pendingSends.map Prod.fst = result.2.map Prod.fst ++ result.1.pendingSends.map Prod.fst := by
  obtain ⟨left, keys, out, -⟩ := leave.front
  have outAddrs := congrArg (List.map Prod.fst) out
  have listAddrs := congrArg (List.map Prod.fst) keys
  rw [List.map_map, List.map_map] at outAddrs
  rw [List.map_append, List.map_map, List.map_map] at listAddrs
  exact listAddrs.trans (congrArg (· ++ _) outAddrs.symm)

theorem sendsLeave_completeSendOrdered (psn : Nat) (status : Option Errno) :
    SendsLeave qp (qp.completeSendOrdered psn status) := by
  unfold Qp.completeSendOrdered
  split
  · exact (sendsStay_updateSend fun entry => sendKey_finish entry status).drain
  · exact (SendsStay.refl qp).leave

theorem sendsLeave_noteRnrAck : SendsLeave qp (qp.noteRnrAck psn now) := by
  unfold Qp.noteRnrAck
  split
  · exact (SendsStay.refl qp).leave
  · split
    · exact (sendsStay_updateSend fun entry => sendKey_finish entry _).drain
    · exact (sendsStay_updateSend fun _ => rfl).leave

theorem sendsLeave_flushSends : SendsLeave qp qp.flushSends where
  maxSendWr := rfl
  sendPsn := rfl
  front := by
    refine ⟨qp.pendingSends.map sendKey, by simp [Qp.flushSends], ?_, ?_⟩
    · simp only [Qp.flushSends, List.map_map]
      apply List.map_congr_left
      intro entry _
      have same := congrArg (fun key => (key.1, key.2.1)) (sendKey_finish entry (some .eCanceled))
      exact same
    · simp only [Qp.flushSends, List.countP_map]
      rfl
  reads := rfl

theorem sendKey_visitSend (env : ReapEnv) (credits : Nat) (entry : SendEntry) :
    sendKey (entry.1, (Qp.visitSend env credits entry.2).1) = sendKey entry := by
  unfold Qp.visitSend
  split
  · rfl
  · rfl
  · rfl
  · exact sendKey_finish entry _

theorem map_visitSends (env : ReapEnv) (credits : Nat) (entries : List SendEntry) :
    (Qp.visitSends env credits entries).1.map sendKey = entries.map sendKey := by
  induction entries generalizing credits with
  | nil => rfl
  | cons entry rest ih =>
      simp only [Qp.visitSends, List.map_cons, ih, sendKey_visitSend]

theorem sendsLeave_timeoutReapSends (clock : Qp.Clock) : SendsLeave qp (qp.timeoutReapSends clock) := by
  have visited : SendsStay qp
      { qp with
        pendingSends := (Qp.visitSends (qp.reapEnv clock) qp.remoteRecvCredits qp.pendingSends).1
        remoteRecvCredits := (Qp.visitSends (qp.reapEnv clock) qp.remoteRecvCredits qp.pendingSends).2.1 } :=
    { maxSendWr := rfl, sendPsn := rfl, sends := map_visitSends .., reads := rfl, count := rfl }
  simp only [Qp.timeoutReapSends]
  split
  · exact visited.drain
  · exact visited.leave

theorem sendsLeave_retried {reason : PostReason} {ret : Option Errno} :
    SendsLeave qp (qp.retried addr reason ret now) := by
  unfold Qp.retried
  simp only
  split
  · exact (sendsStay_updateSend fun _ => rfl).leave
  · split
    · refine (sendsStay_updateSend fun entry => ?_).leave
      split <;> rfl
    · exact (sendsStay_updateSend fun _ => rfl).leave
    · exact (sendsStay_updateSend fun _ => rfl).leave
    · exact (sendsStay_updateSend fun entry => sendKey_finish entry _).drain

theorem mem_retrySends {env : ReapEnv} {credits : Nat} {entries : List SendEntry}
    {retry : Nat × PostReason} (member : retry ∈ retrySends env credits entries) :
    retry.1 ∈ entries.map Prod.fst := by
  induction entries generalizing credits with
  | nil => cases member
  | cons entry rest ih =>
      simp only [retrySends] at member
      rw [List.map_cons, List.mem_cons]
      split at member
      · rcases List.mem_cons.mp member with rfl | later
        · exact .inl rfl
        · exact .inr (ih later)
      · rcases List.mem_cons.mp member with rfl | later
        · exact .inl rfl
        · exact .inr (ih later)
      · exact .inr (ih member)
      · exact .inr (ih member)

/-! ## Reads -/

structure ReadsLeave (qp : Qp) (result : Qp × List ReadEntry) : Prop extends SameRest qp result.1 where
  split : ∃ left, (qp.pendingReads.map readKey).Perm (left ++ result.1.pendingReads.map readKey) ∧
    result.2.map (fun entry => (entry.1, readLabel entry.2)) = left.map (fun key => (key.1, key.2.1)) ∧
    result.1.sendqCount = qp.sendqCount - left.countP fun key => key.2.2
  sends : result.1.pendingSends = qp.pendingSends

theorem readsLeave_drain {f : ReadCtx → ReadCtx} {which : ReadEntry → Bool}
    (same : ∀ entry : ReadEntry, readKey (entry.1, f entry.2) = readKey entry) :
    ReadsLeave qp (qp.updateRead which f).drainReadyReads where
  maxSendWr := rfl
  sendPsn := rfl
  split := by
    have keys : (qp.updateRead which f).pendingReads.map readKey = qp.pendingReads.map readKey :=
      map_updateFirst same
    refine ⟨((qp.updateRead which f).pendingReads.takeWhile fun entry => entry.2.ready).map readKey,
      ?_, ?_, ?_⟩
    · rw [← keys]
      simp only [Qp.drainReadyReads]
      rw [← List.map_append, List.takeWhile_append_dropWhile]
    · simp only [Qp.drainReadyReads, List.map_map]
      rfl
    · simp only [Qp.drainReadyReads, List.countP_map]
      rfl
  sends := rfl

theorem readsLeave_completeReadOrdered {status : Option Errno} :
    ReadsLeave qp (qp.completeReadOrdered addr status) := by
  unfold Qp.completeReadOrdered
  split
  · refine readsLeave_drain fun entry => ?_
    split <;> rfl
  · exact { maxSendWr := rfl, sendPsn := rfl, sends := rfl, split := ⟨[], .refl _, rfl, rfl⟩ }

theorem readsLeave_flushReads : ReadsLeave qp qp.flushReads where
  maxSendWr := rfl
  sendPsn := rfl
  split := by
    refine ⟨qp.pendingReads.map readKey, by simp [Qp.flushReads], ?_, ?_⟩
    · simp only [Qp.flushReads, List.map_map]
      rfl
    · simp only [Qp.flushReads, List.countP_map]
      rfl
  sends := rfl

theorem readsLeave_timeoutReapReads (clock : Qp.Clock) : ReadsLeave qp (qp.timeoutReapReads clock) where
  maxSendWr := rfl
  sendPsn := rfl
  split := by
    refine ⟨(qp.pendingReads.filter fun entry => !entry.2.ready &&
      entryExpired entry.2.queuedJiffies clock.now clock.timeout).map readKey, ?_, ?_, ?_⟩
    · simp only [Qp.timeoutReapReads]
      rw [← List.map_append]
      exact ((List.filter_append_perm _ _).map readKey).symm
    · simp only [Qp.timeoutReapReads, List.map_map]
      rfl
    · simp only [Qp.timeoutReapReads, List.countP_map]
      rfl
  sends := rfl

theorem unqueueSend_found {entry : SendEntry}
    (found : (qp.pendingSends.find? fun entry => entry.1 = addr) = some entry) :
    ∃ qp', qp.unqueueSend addr = (qp', true) ∧ SameRest qp qp' ∧ qp'.pendingReads = qp.pendingReads ∧
      (qp.pendingSends.map sendKey).Perm (sendKey entry :: qp'.pendingSends.map sendKey) ∧
      (qp'.pendingSends.map sendKey).Sublist (qp.pendingSends.map sendKey) ∧
      qp'.sendqCount = qp.sendqCount - entry.2.sqCounted.toNat := by
  have perm := perm_eraseP_of_find? found
  have sub : (qp.pendingSends.eraseP fun entry => entry.1 = addr).Sublist qp.pendingSends :=
    List.eraseP_sublist
  unfold Qp.unqueueSend
  rw [found]
  refine ⟨_, rfl, ?_⟩
  cases counted : entry.2.sqCounted
  · exact ⟨⟨rfl, rfl⟩, rfl, perm.map sendKey, sub.map sendKey, rfl⟩
  · exact ⟨⟨rfl, rfl⟩, rfl, perm.map sendKey, sub.map sendKey, rfl⟩

theorem unqueueRead_found {entry : ReadEntry}
    (found : (qp.pendingReads.find? fun entry => entry.1 = addr) = some entry) :
    ∃ qp', qp.unqueueRead addr = (qp', true) ∧ SameRest qp qp' ∧ qp'.pendingSends = qp.pendingSends ∧
      (qp.pendingReads.map readKey).Perm (readKey entry :: qp'.pendingReads.map readKey) ∧
      (qp'.pendingReads.map readKey).Sublist (qp.pendingReads.map readKey) ∧
      qp'.sendqCount = qp.sendqCount - entry.2.sqCounted.toNat := by
  have perm := perm_eraseP_of_find? found
  have sub : (qp.pendingReads.eraseP fun entry => entry.1 = addr).Sublist qp.pendingReads :=
    List.eraseP_sublist
  unfold Qp.unqueueRead
  rw [found]
  refine ⟨_, rfl, ?_⟩
  cases counted : entry.2.sqCounted
  · exact ⟨⟨rfl, rfl⟩, rfl, perm.map readKey, sub.map readKey, rfl⟩
  · exact ⟨⟨rfl, rfl⟩, rfl, perm.map readKey, sub.map readKey, rfl⟩

theorem readsLeave_unqueueRead {entry : ReadEntry}
    (found : (qp.pendingReads.find? fun entry => entry.1 = addr) = some entry) :
    ReadsLeave qp ((qp.unqueueRead addr).1, [entry]) := by
  obtain ⟨qp', unqueued, rest, sends, perm, -, count⟩ := unqueueRead_found found
  rw [unqueued]
  refine { toSameRest := rest, sends, split := ⟨[readKey entry], perm, rfl, ?_⟩ }
  rw [count]
  cases flag : entry.2.sqCounted <;> simp [readKey, flag]

end ThunderboltVerbs.SendQueue
