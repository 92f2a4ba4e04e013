import ThunderboltVerbs.Receive.Reassembly
import ThunderboltVerbs.Verbs.ReadResps

/-!
# Acknowledging a READ response again

A READ that has all its bytes is answered with OK once it is gone. One that waits behind an earlier READ is
still listed, and its duplicates are not answered at all.
-/

namespace ThunderboltVerbs.Verbs
open Proto Receive Lib

/-- The READ with the PSN of the snapshot has all its bytes: it is gone, or listed behind earlier ones. -/
def Finished (qp : Qp) (snap : Snapshot) : Prop :=
  (∀ entry ∈ qp.pendingReads, entry.2.psn ≠ snap.psn) ∨
    DistinctReads qp ∧ ∃ addr read, (addr, read) ∈ qp.pendingReads ∧ read.psn = snap.psn ∧
      read.totalLen = snap.data.length ∧ read.received = read.totalLen ∧ read.respFrags = []

namespace Responder

/-- The responder after the answer to one of its frames, if there was one. -/
def answered (r : Responder) (psn : Nat) : Option ReadAckStatus → Nat → Nat → Responder
  | none, _, _ => r
  | some status, now, timeout => r.readAcked psn status now timeout

end Responder

/-- Every fragment that is delivered again is answered with OK, and a responder that gets the answer before it gave
up does not drop the response. -/
def Recovers (qp : Qp) (snap : Snapshot) : Prop :=
  ∀ (i : Fin snap.fragments) (alloc : Bool),
    (qp.handleRdmaReadResp (snap.fragment i).header (snap.slice i) alloc).2.ack = some .ok ∧
      ∀ (r r' : Responder) (now timeout : Nat), (r.resps.map fun entry => entry.2.psn).Nodup →
        snap.psn ∉ r.dropped →
        (Responder.runs (r.answered snap.psn
          (qp.handleRdmaReadResp (snap.fragment i).header (snap.slice i) alloc).2.ack now timeout)).ReachableVia
            (Responder.Keeps snap.psn) r' →
        snap.psn ∉ r'.dropped

section Recovers

variable {qp : Qp} {snap : Snapshot} {addr : Nat} {read : ReadCtx} {i : Nat} {alloc : Bool}

theorem recovers_of_acks
    (acks : ∀ (i : Fin snap.fragments) (alloc : Bool),
      (qp.handleRdmaReadResp (snap.fragment i).header (snap.slice i) alloc).2.ack = some .ok) :
    Recovers qp snap := by
  intro i alloc
  refine ⟨acks i alloc, fun r r' now timeout distinct pending reached => ?_⟩
  rw [acks i alloc] at reached
  exact Responder.acked_never_dropped distinct pending reached

theorem ack_gone (gone : ∀ entry ∈ qp.pendingReads, entry.2.psn ≠ snap.psn) :
    (qp.handleRdmaReadResp (snap.fragment i).header (snap.slice i) alloc).2.ack = some .ok := by
  have found : qp.pendingReads.find? (fun entry => entry.2.psn = (snap.fragment i).header.psn) = none := by
    rw [List.find?_eq_none]
    intro entry member equal
    exact gone entry member (of_decide_eq_true equal)
  rw [Qp.handleRdmaReadResp, found]

section Listed

variable (distinct : DistinctReads qp) (listed : (addr, read) ∈ qp.pendingReads) (psn : read.psn = snap.psn)
  (total : read.totalLen = snap.data.length) (received : read.received = read.totalLen)
include distinct listed psn total received

theorem ack_empty (none : read.respFrags = []) (empty : snap.data = []) (bound : i < snap.fragments) :
    (qp.handleRdmaReadResp (snap.fragment i).header (snap.slice i) alloc).2.ack = some .ok := by
  have found := find_listed distinct listed
  rw [psn, ← snap.fragment_psn i] at found
  have zero : read.totalLen = 0 := by rw [total, empty, List.length_nil]
  have first : i = 0 := by
    have one : snap.fragments = 1 := by simp [Snapshot.fragments, fragmentCount, empty]
    omega
  have slice : snap.slice i = [] := by simp [Snapshot.slice, Snapshot.message, Message.slice, empty]
  have next : (snap.fragment i).header.fragOffset = read.received := by
    rw [Snapshot.fragment_fragOffset, first, received, zero, Nat.zero_mul]
  have taken : read.takeResponse (snap.fragment i).header.fragOffset (snap.slice i) =
      ({ read with received := (snap.fragment i).header.fragOffset }, [], Option.none) := by
    simp [ReadCtx.takeResponse, ReadCtx.copyToReadSegments, slice, none, ReadCtx.drainFrags]
  rw [handle_next found (responseError_fragment bound total) alloc next taken]
  rw [if_neg (not_not_intro (next.trans received))]
  rfl

theorem ack_listed (filled : snap.data ≠ []) (bound : i < snap.fragments) :
    (qp.handleRdmaReadResp (snap.fragment i).header (snap.slice i) alloc).2.ack = none := by
  have found := find_listed distinct listed
  rw [psn, ← snap.fragment_psn i] at found
  have before : (snap.fragment i).header.fragOffset < read.received := by
    rw [received, total]
    exact Snapshot.offset_lt bound filled
  rw [handle_duplicate found (responseError_fragment bound total) before]

end Listed

end Recovers

theorem lost_read_ack_recovered_iff {qp : Qp} {snap : Snapshot} (finished : Finished qp snap) :
    Recovers qp snap ↔ (∀ entry ∈ qp.pendingReads, entry.2.psn ≠ snap.psn) ∨ snap.data = [] := by
  rcases finished with gone | ⟨distinct, addr, read, listed, psn, total, received, none⟩
  · exact iff_of_true (recovers_of_acks fun _ _ => ack_gone gone) (.inl gone)
  by_cases empty : snap.data = []
  · have acks := recovers_of_acks fun i _ => ack_empty distinct listed psn total received none empty i.isLt
    exact iff_of_true acks (.inr empty)
  · constructor
    · intro recovers
      have bound : 0 < snap.fragments := fragments_pos snap.message
      have unanswered : (qp.handleRdmaReadResp (snap.fragment 0).header (snap.slice 0) true).2.ack = Option.none :=
        ack_listed distinct listed psn total received empty bound
      have acked := (recovers ⟨0, bound⟩ true).1
      rw [unanswered] at acked
      cases acked
    · rintro (gone | empty')
      · exact absurd psn (gone _ listed)
      · exact absurd empty' empty

theorem lost_read_ack_recovered_iff_gone :
    Recovers { twoSegmentQp with pendingReads := [] } twoFragments ↔
      (∀ entry ∈ ({ twoSegmentQp with pendingReads := [] } : Qp).pendingReads, entry.2.psn ≠ twoFragments.psn) ∨
        twoFragments.data = [] :=
  lost_read_ack_recovered_iff (.inl fun _ member => absurd member List.not_mem_nil)

/-! ## A READ behind a slow one -/

/-- READ 3 has its four bytes and waits for READ 2. -/
def fourBytes : Snapshot where
  destQp := 5
  srcQp := 7
  psn := 3
  data := [1, 2, 3, 4]
  bounded := Nat.le_of_ble_eq_true rfl

def behindSlowRead : Qp :=
  { state := .rts, refs := 3, qpNum := 5, destQpKnown := true, destQpNum := 7, retryCnt := 7, rnrRetry := 7
    maxSendWr := 16, sendPsn := 4, sendqCount := 2
    pendingReads :=
      [(1, { wrId := 1, psn := 2, totalLen := 4, segs := [{ mr := pageMr, addr := 4096, length := 4 }]
             signaled := true }),
        (2, { wrId := 2, psn := 3, totalLen := 4, segs := [{ mr := pageMr, addr := 8192, length := 4 }]
              signaled := true, ready := true, received := 4 })] }

/-- The response was sent once and its acknowledgement was lost. -/
def waitingResponder : Responder :=
  { resps := [(1, { snap := fourBytes, queuedJiffies := 100, responseSent := true })] }

/-- The timer expires, and the response is sent again. -/
def resend (now : Nat) : List RespAction := [.reap now 100, .send none, .finish now, .finishWork]

/-- Every retransmission reaches the requester and none is answered; the responder drops the response and is in
error. -/
theorem lost_read_ack_not_recovered :
    Finished behindSlowRead fourBytes ∧ ¬Recovers behindSlowRead fourBytes ∧
      behindSlowRead.handleRdmaReadResp (fourBytes.fragment 0).header (fourBytes.slice 0) true = (behindSlowRead, {}) ∧
      ((Responder.runs waitingResponder).runVia (fun _ _ => True) waitingResponder
        (resend 200 ++ resend 300 ++ resend 400 ++ [.reap 500 100, .finishWork])).any
          (fun r => r.state = .err && r.dropped = [3]) = true := by
  have listed : behindSlowRead.handleRdmaReadResp (fourBytes.fragment 0).header (fourBytes.slice 0) true =
      (behindSlowRead, {}) := by decide
  refine ⟨.inr ⟨⟨by decide, by decide⟩, 2, _, List.mem_cons_of_mem _ List.mem_cons_self, rfl, rfl, rfl, rfl⟩, ?_,
    listed, by decide⟩
  intro recovers
  have acked := (recovers ⟨0, by decide⟩ true).1
  rw [show ((⟨0, by decide⟩ : Fin fourBytes.fragments) : Nat) = 0 from rfl, listed] at acked
  cases acked

end ThunderboltVerbs.Verbs
