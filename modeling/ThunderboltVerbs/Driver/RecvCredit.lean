import ThunderboltVerbs.Driver.Device
import ThunderboltVerbs.Driver.RecvRing
import ThunderboltVerbs.Lib.Tally

/-!
# Receive credits between two queue pairs (`kernel/ibdev.c`)

A SEND, or a WRITE with immediate data, takes a credit of the peer's if it has one, and is posted without one
otherwise. The peer grants one credit for each receive request, in frames of its own, and takes a request from its
ring for each message that comes, whether or not the message had a credit.
-/

namespace ThunderboltVerbs.Driver
open Proto Verbs Lib

/-! ## The two ends -/

/-- A receiver, its sender and what is under way between them. `posting` are the posts under way and `messages` those
whose frames are, each with whether it took a credit; `refused` counts the messages that found no request and are to
be sent again. `lost` counts credits that nobody has any more, `unpaid` the requests that messages without a credit
took, and `turnedAway` how often a message with a credit found none. -/
structure CreditLink where
  ring : RecvRing
  qpNum : Nat
  destQpNum : Nat := 0
  sending : List DataHeader := []
  frames : List DataHeader := []
  sender : NativeQp
  posting : List Bool := []
  messages : List Bool := []
  refused : Nat := 0
  lost : Nat := 0
  unpaid : Nat := 0
  turnedAway : Nat := 0

inductive CreditAction
  | post (validate : Sge → Option Errno) (wr : RingWr)
  | setup (destQpNum : Option Nat) (state : QpState)
  | advertise
  | sent (i : Nat) (queued : Bool)
  | arrive (i : Nat)
  | lose (i : Nat)
  | consume (op : SendOp)
  | restore (i : Nat)
  | launch (i : Nat)
  | deliver (i : Nat)
  /-- The timer sends a refused message again; `waits` is `tbv_send_rnr_waits_for_recv_credit`. -/
  | retry (waits : Bool)
  /-- A message whose RNR ACK was lost is sent again. -/
  | resend
  | giveUp
  | abandon (i : Nat)
  | other (sender : NativeQp)
  | flush
  | close

namespace CreditLink

/-- The RECV_CREDIT branch of `tbv_ibdev_rx_native_frame`. -/
def credited (sender : NativeQp) (header : DataHeader) : NativeQp :=
  if header.immData = 0 then sender else sender.acceptRecvCredit header

def step (s : CreditLink) : CreditAction → Option CreditLink
  | .post validate wr =>
      match s.ring.postOne validate wr with
      | .error _ => none
      | .ok ring => some { s with ring }
  | .setup destQpNum state =>
      some { s with
        ring := { s.ring with destQpKnown := s.ring.destQpKnown || destQpNum.isSome, state }
        destQpNum := destQpNum.getD s.destQpNum }
  | .advertise =>
      s.ring.advertise.map fun (credits, ring) =>
        { s with ring, sending := s.sending ++ [recvCreditHeader s.destQpNum s.qpNum credits] }
  | .sent i queued =>
      s.sending[i]?.map fun header =>
        if queued then { s with sending := s.sending.eraseIdx i, frames := s.frames ++ [header] }
        else { s with sending := s.sending.eraseIdx i, ring := s.ring.takeBack header.immData }
  | .arrive i =>
      s.frames[i]?.map fun header =>
        let sender := credited s.sender header
        { s with
          frames := s.frames.eraseIdx i
          sender
          lost := s.lost + header.immData - (sender.tx.remoteRecvCredits - s.sender.tx.remoteRecvCredits) }
  | .lose i =>
      s.frames[i]?.map fun header => { s with frames := s.frames.eraseIdx i, lost := s.lost + header.immData }
  | .consume op =>
      if recvCreditRequired op then
        match takeCredit s.sender.tx op with
        | .error _ => none
        | .ok (tx, consumed) => some { s with sender := { s.sender with tx }, posting := s.posting ++ [consumed] }
      else none
  | .restore i =>
      s.posting[i]?.map fun consumed =>
        let tx := giveBack s.sender.tx consumed
        { s with
          sender := { s.sender with tx }
          posting := s.posting.eraseIdx i
          lost := s.lost + consumed.toNat - (tx.remoteRecvCredits - s.sender.tx.remoteRecvCredits) }
  | .launch i =>
      s.posting[i]?.map fun consumed =>
        { s with posting := s.posting.eraseIdx i, messages := s.messages ++ [consumed] }
  | .deliver i =>
      s.messages[i]?.map fun consumed =>
        match s.ring.popRecv with
        | some (_, ring) =>
            { s with ring, messages := s.messages.eraseIdx i, unpaid := s.unpaid + (!consumed).toNat }
        | none =>
            { s with
              messages := s.messages.eraseIdx i
              refused := s.refused + 1
              turnedAway := s.turnedAway + consumed.toNat }
  | .retry waits =>
      if s.refused = 0 ∨ s.sender.tx.closing ∨ s.sender.tx.state = .err then none
      else if s.sender.tx.remoteRecvCredits ≠ 0 then
        let tx := { s.sender.tx with remoteRecvCredits := s.sender.tx.remoteRecvCredits - 1 }
        some { s with
          sender := { s.sender with tx }
          refused := s.refused - 1
          messages := s.messages ++ [true] }
      else if waits then none
      else some { s with refused := s.refused - 1, messages := s.messages ++ [false] }
  | .resend =>
      if s.refused = 0 then none
      else some { s with refused := s.refused - 1, messages := s.messages ++ [false] }
  | .giveUp => if s.refused = 0 then none else some { s with refused := s.refused - 1 }
  | .abandon i =>
      s.messages[i]?.map fun consumed =>
        { s with messages := s.messages.eraseIdx i, lost := s.lost + consumed.toNat }
  | .other sender =>
      if sender.tx.remoteRecvCredits = s.sender.tx.remoteRecvCredits then some { s with sender } else none
  | .flush => s.ring.flushRecvWqe.map fun (_, ring) => { s with ring }
  | .close => some { s with ring := { s.ring with closing := true } }

end CreditLink

/-- The receiver is neither flushed nor destroyed. -/
def CreditAction.receives : CreditAction → Bool
  | .flush | .close => false
  | _ => true

def creditSystem : System CreditLink CreditAction where
  init s := ∃ maxRecvWr < 2 ^ 32, ∃ appleTransport kernelQp qpNum sender, sender.tx.remoteRecvCredits = 0 ∧
    s = { ring := RecvRing.create maxRecvWr appleTransport kernelQp, qpNum, sender }
  step := CreditLink.step

/-! ## Where a credit is -/

def creditsOf (headers : List DataHeader) : Nat := tally DataHeader.immData headers

/-- How many of them took a credit. -/
def paid (messages : List Bool) : Nat := tally Bool.toNat messages

namespace CreditLink

/-- The credits that the receiver has granted and not taken back. -/
def granted (s : CreditLink) : Nat :=
  s.sender.tx.remoteRecvCredits + creditsOf s.sending + creditsOf s.frames + paid s.posting + paid s.messages + s.lost

/-- A message without a credit takes a request, and the receiver counts a credit less for it. -/
structure Inv (s : CreditLink) : Prop where
  live : ∃ live, s.ring.Holds live
  least : s.ring.recvCreditsAdvertised ≤ s.granted
  most : s.granted + s.turnedAway ≤ s.ring.recvCreditsAdvertised + s.unpaid
  receiving : s.ring.closing = false

variable {s s' : CreditLink}

theorem accept_credits (sender : NativeQp) (header : DataHeader) :
    (credited sender header).tx.remoteRecvCredits = sender.tx.remoteRecvCredits ∨
      (credited sender header).tx.remoteRecvCredits = sender.tx.remoteRecvCredits + header.immData := by
  unfold credited
  split
  · exact .inl rfl
  simp only [NativeQp.acceptRecvCredit]
  split
  · exact .inl rfl
  split
  · split
    · split
      · exact .inl rfl
      · exact .inr rfl
    · exact .inl rfl
  split
  · exact .inl rfl
  · split
    · exact .inl rfl
    · exact .inr rfl

theorem giveBack_credits (qp : Qp) (consumed : Bool) :
    (giveBack qp consumed).remoteRecvCredits = qp.remoteRecvCredits ∨
      (giveBack qp consumed).remoteRecvCredits = qp.remoteRecvCredits + consumed.toNat := by
  cases consumed with
  | false => exact .inl rfl
  | true =>
      show qp.returnRemoteRecvCredit.remoteRecvCredits = _ ∨ qp.returnRemoteRecvCredit.remoteRecvCredits = _
      unfold Qp.returnRemoteRecvCredit
      split
      · exact .inr rfl
      · exact .inl rfl

theorem takeCredit_credits {qp qp' : Qp} {op : SendOp} {consumed : Bool}
    (taken : takeCredit qp op = .ok (qp', consumed)) :
    qp.remoteRecvCredits = qp'.remoteRecvCredits + consumed.toNat := by
  unfold takeCredit Qp.consumeRemoteRecvCredit at taken
  split at taken
  · split at taken
    · rename_i one
      cases taken
      split at one
      · cases one
      split at one
      · cases one
        show qp.remoteRecvCredits = qp.remoteRecvCredits - 1 + 1
        omega
      · cases one
    · cases taken
      rfl
    · cases taken
  · cases taken
    rfl

theorem creditsOf_eraseIdx {headers : List DataHeader} {i : Nat} {header : DataHeader}
    (found : headers[i]? = some header) : creditsOf headers = header.immData + creditsOf (headers.eraseIdx i) :=
  tally_eraseIdx _ found

theorem creditsOf_append (headers : List DataHeader) (header : DataHeader) :
    creditsOf (headers ++ [header]) = creditsOf headers + header.immData := by
  simp [creditsOf]

theorem paid_eraseIdx {messages : List Bool} {i : Nat} {consumed : Bool} (found : messages[i]? = some consumed) :
    paid messages = consumed.toNat + paid (messages.eraseIdx i) :=
  tally_eraseIdx _ found

theorem paid_append (messages : List Bool) (consumed : Bool) :
    paid (messages ++ [consumed]) = paid messages + consumed.toNat := by
  simp [paid]

/-! ## The ring -/

theorem advertise_grants {live : List RingWqe} {ring ring' : RecvRing} {credits : Nat} (holds : ring.Holds live)
    (sent : ring.advertise = some (credits, ring')) :
    ring'.recvCreditsAdvertised = ring.recvCreditsAdvertised + credits ∧ ring'.closing = ring.closing := by
  have small := holds.small
  have fits := holds.fits
  have count := holds.count
  have advertised := holds.advertised
  unfold RecvRing.advertise at sent
  split at sent
  · cases sent
  split at sent
  · cases sent
  cases sent
  refine ⟨?_, rfl⟩
  exact Nat.mod_eq_of_lt (by omega)

theorem postOne_grants {ring ring' : RecvRing} {validate : Sge → Option Errno} {wr : RingWr}
    (posted : ring.postOne validate wr = .ok ring') :
    ring'.recvCreditsAdvertised = ring.recvCreditsAdvertised ∧ ring'.closing = ring.closing := by
  unfold RecvRing.postOne RecvRing.store at posted
  split at posted
  · cases posted
  split at posted
  · cases posted
  split at posted
  · cases posted
  cases posted
  exact ⟨rfl, rfl⟩

theorem popRecv_grants {ring ring' : RecvRing} {wqe : RingWqe} (popped : ring.popRecv = some (wqe, ring')) :
    ring'.recvCreditsAdvertised = ring.recvCreditsAdvertised - 1 ∧ ring'.closing = ring.closing := by
  unfold RecvRing.popRecv at popped
  split at popped
  · cases popped
  cases popped
  refine ⟨?_, rfl⟩
  show (if ring.recvCreditsAdvertised ≠ 0 then ring.recvCreditsAdvertised - 1 else ring.recvCreditsAdvertised) = _
  split <;> omega

/-- Without a request no credit counts as advertised. -/
theorem popRecv_none {live : List RingWqe} {ring : RecvRing} (holds : ring.Holds live)
    (receiving : ring.closing = false) (empty : ring.popRecv = none) : ring.recvCreditsAdvertised = 0 := by
  have advertised := holds.advertised
  unfold RecvRing.popRecv at empty
  split at empty
  · rename_i none
    simp only [receiving, Bool.or_false, decide_eq_true_eq] at none
    omega
  · cases empty

/-! ## Every step -/

/-- A step that only moves credits from one place to another. -/
theorem Inv.moves (inv : s.Inv) (ring : s'.ring = s.ring) (granted : s'.granted = s.granted)
    (turnedAway : s'.turnedAway = s.turnedAway) (unpaid : s'.unpaid = s.unpaid) : s'.Inv where
  live := by
    rw [ring]
    exact inv.live
  least := by
    rw [ring, granted]
    exact inv.least
  most := by
    rw [ring, granted, turnedAway, unpaid]
    exact inv.most
  receiving := by
    rw [ring]
    exact inv.receiving

theorem Inv.step (inv : s.Inv) {action : CreditAction} (receives : action.receives = true)
    (stepped : s.step action = some s') : s'.Inv := by
  obtain ⟨live, holds⟩ := inv.live
  have least := inv.least
  have most := inv.most
  unfold granted at least most
  cases action with
  | post validate wr =>
      simp only [CreditLink.step] at stepped
      split at stepped
      · cases stepped
      · rename_i ring posted
        cases stepped
        obtain ⟨same, still⟩ := postOne_grants posted
        exact ⟨⟨_, (holds.postOne posted).1⟩, same.trans_le least, most.trans_eq (by rw [same]),
          still.trans inv.receiving⟩
  | setup destQpNum state =>
      cases stepped
      exact ⟨⟨live, { holds with }⟩, least, most, inv.receiving⟩
  | advertise =>
      obtain ⟨⟨credits, ring⟩, sent, rfl⟩ := Option.map_eq_some_iff.mp stepped
      obtain ⟨more, still⟩ := advertise_grants holds sent
      refine ⟨⟨_, (holds.advertise sent).1⟩, ?_, ?_, still.trans inv.receiving⟩
      all_goals
        simp only [granted, creditsOf_append, more, recvCreditHeader]
        omega
  | sent i queued =>
      obtain ⟨header, found, rfl⟩ := Option.map_eq_some_iff.mp stepped
      have split := creditsOf_eraseIdx found
      cases queued with
      | true =>
          refine inv.moves rfl ?_ rfl rfl
          simp only [if_true, granted, creditsOf_append]
          omega
      | false =>
          -- after messages without a credit the receiver may count fewer credits than it takes back
          refine ⟨⟨live, holds.takeBack _⟩, ?_, ?_, inv.receiving⟩
          all_goals
            simp only [Bool.false_eq_true, if_false, granted, RecvRing.takeBack]
            split <;> omega
  | arrive i =>
      obtain ⟨header, found, rfl⟩ := Option.map_eq_some_iff.mp stepped
      have split := creditsOf_eraseIdx found
      refine inv.moves rfl ?_ rfl rfl
      simp only [granted]
      rcases accept_credits s.sender header with same | more <;> omega
  | lose i =>
      obtain ⟨header, found, rfl⟩ := Option.map_eq_some_iff.mp stepped
      have split := creditsOf_eraseIdx found
      refine inv.moves rfl ?_ rfl rfl
      simp only [granted]
      omega
  | consume op =>
      simp only [CreditLink.step] at stepped
      split at stepped
      · split at stepped
        · cases stepped
        · rename_i tx consumed taken
          cases stepped
          have one := takeCredit_credits taken
          refine inv.moves rfl ?_ rfl rfl
          simp only [granted, paid_append]
          omega
      · cases stepped
  | restore i =>
      obtain ⟨consumed, found, rfl⟩ := Option.map_eq_some_iff.mp stepped
      have split := paid_eraseIdx found
      refine inv.moves rfl ?_ rfl rfl
      simp only [granted]
      rcases giveBack_credits s.sender.tx consumed with same | more <;> omega
  | launch i =>
      obtain ⟨consumed, found, rfl⟩ := Option.map_eq_some_iff.mp stepped
      have split := paid_eraseIdx found
      refine inv.moves rfl ?_ rfl rfl
      simp only [granted, paid_append]
      omega
  | deliver i =>
      obtain ⟨consumed, found, rfl⟩ := Option.map_eq_some_iff.mp stepped
      have split := paid_eraseIdx found
      cases popped : s.ring.popRecv with
      | some taken =>
          obtain ⟨wqe, ring⟩ := taken
          obtain ⟨fewer, still⟩ := popRecv_grants popped
          obtain ⟨rest, -, after, -⟩ := holds.popRecv popped
          refine ⟨⟨rest, after⟩, ?_, ?_, still.trans inv.receiving⟩
          all_goals
            simp only [granted, fewer]
            cases consumed <;> simp only [Bool.toNat_true, Bool.toNat_false, Bool.not_true, Bool.not_false] at split ⊢
              <;> omega
      | none =>
          have zero := popRecv_none holds inv.receiving popped
          refine ⟨⟨live, holds⟩, ?_, ?_, inv.receiving⟩
          all_goals
            simp only [granted]
            omega
  | retry waits =>
      simp only [CreditLink.step] at stepped
      split at stepped
      · cases stepped
      split at stepped
      · cases stepped
        refine inv.moves rfl ?_ rfl rfl
        simp only [granted, paid_append, Bool.toNat_true]
        omega
      split at stepped
      · cases stepped
      · cases stepped
        refine inv.moves rfl ?_ rfl rfl
        simp only [granted, paid_append, Bool.toNat_false, Nat.add_zero]
  | resend =>
      obtain ⟨-, stepped⟩ := Option.ite_none_left_eq_some.mp stepped
      obtain rfl := Option.some.inj stepped
      refine inv.moves rfl ?_ rfl rfl
      simp only [granted, paid_append, Bool.toNat_false, Nat.add_zero]
  | giveUp =>
      obtain ⟨-, stepped⟩ := Option.ite_none_left_eq_some.mp stepped
      obtain rfl := Option.some.inj stepped
      exact inv.moves rfl rfl rfl rfl
  | abandon i =>
      obtain ⟨consumed, found, rfl⟩ := Option.map_eq_some_iff.mp stepped
      have split := paid_eraseIdx found
      refine inv.moves rfl ?_ rfl rfl
      simp only [granted]
      omega
  | other sender =>
      simp only [CreditLink.step] at stepped
      split at stepped
      · rename_i same
        cases stepped
        refine inv.moves rfl ?_ rfl rfl
        simp only [granted, same]
      · cases stepped
  | flush => cases receives
  | close => cases receives

theorem inv_reachable (reachable : creditSystem.ReachableVia (fun _ action => action.receives = true) s) : s.Inv := by
  apply reachable.invariant
  · rintro s ⟨maxRecvWr, small, appleTransport, kernelQp, qpNum, sender, zero, rfl⟩
    have zero : CreditLink.granted { ring := RecvRing.create maxRecvWr appleTransport kernelQp, qpNum, sender } = 0 := by
      simp only [granted, zero]
      rfl
    refine ⟨⟨[], RecvRing.Holds.create small appleTransport kernelQp⟩, Nat.zero_le _, ?_, rfl⟩
    exact (congrArg (· + 0) zero).trans_le (Nat.zero_le _)
  · intro s action s' inv receives stepped
    exact inv.step receives stepped

/-- Every credit that the receiver counts is somewhere, and there are no more than requests but for those that messages
without a credit took. At most as often a message with a credit finds no request. When nothing is under way and
nothing was lost the sender has a credit for each request. -/
structure Covered (s : CreditLink) : Prop where
  least : s.ring.recvCreditsAdvertised ≤ s.granted
  most : s.granted + s.turnedAway ≤ s.ring.recvCreditsAdvertised + s.unpaid
  posted : s.granted + s.turnedAway ≤ s.ring.recvCount + s.unpaid
  turnedAway : s.turnedAway ≤ s.unpaid
  ready : true ∈ s.messages → s.unpaid = 0 → ∃ wqe ring, s.ring.popRecv = some (wqe, ring)
  quiet : s.sending = [] → s.frames = [] → s.posting = [] → s.messages = [] → s.lost = 0 →
    s.ring.appleTransport = false → s.ring.destQpKnown = true → s.ring.advertise = none →
      s.ring.recvCount ≤ s.sender.tx.remoteRecvCredits ∧
        s.sender.tx.remoteRecvCredits + s.turnedAway ≤ s.ring.recvCount + s.unpaid

theorem paid_pos {messages : List Bool} (member : true ∈ messages) : 0 < paid messages := by
  obtain ⟨i, found⟩ := List.getElem?_of_mem member
  have split := paid_eraseIdx found
  rw [Bool.toNat_true] at split
  omega

end CreditLink

/-- Whatever posts, credit frames, failed posts and messages do, and in whatever order: a message that took a credit
finds a request, unless messages without a credit took it. -/
theorem recv_credits_cover_messages (s : CreditLink)
    (reachable : creditSystem.ReachableVia (fun _ action => action.receives = true) s) : s.Covered := by
  have inv := CreditLink.inv_reachable reachable
  obtain ⟨live, holds⟩ := inv.live
  have least := inv.least
  have most := inv.most
  have advertised := holds.advertised
  refine ⟨least, most, by omega, by omega, ?_, ?_⟩
  · intro under none
    have one := CreditLink.paid_pos under
    cases popped : s.ring.popRecv with
    | some taken => exact ⟨taken.1, taken.2, rfl⟩
    | none =>
        have zero := CreditLink.popRecv_none holds inv.receiving popped
        unfold CreditLink.granted at most
        omega
  · intro sending frames posting messages lost native known idle
    have all : s.ring.recvCount ≤ s.ring.recvCreditsAdvertised := by
      by_contra! more
      simp [RecvRing.advertise, native, inv.receiving, known, Nat.not_le.mpr more] at idle
    have credits : s.granted = s.sender.tx.remoteRecvCredits := by
      simp only [CreditLink.granted, sending, frames, posting, messages, lost, creditsOf, paid, tally_nil, Nat.add_zero]
    omega

def creditSender : NativeQp :=
  let q := NativeQp.create 1 18 8 8 false { cqe := 8 }
  { q with tx := { q.tx with state := .rts, destQpKnown := true, destQpNum := 17 } }

/-- A message goes without a credit and takes the first request, so that the next one, which has the credit of that
request, is turned away. Of two more requests the first credit frame fails, and the next one carries the credits of
both: one goes to the message that is sent again. -/
def creditRun : List CreditAction :=
  [.setup (some 18) .rtr, .post (fun _ => none) ⟨7, 0, none⟩, .advertise, .sent 0 true, .consume .send, .launch 0,
    .deliver 0, .arrive 0, .consume .sendImm, .launch 0, .deliver 0, .post (fun _ => none) ⟨8, 0, none⟩, .advertise,
    .post (fun _ => none) ⟨9, 0, none⟩, .sent 0 false, .advertise, .sent 0 true, .arrive 0, .retry true, .deliver 0,
    .consume .send, .restore 0]

theorem recv_credits_cover_messages_creditRun :
    ∃ s, creditSystem.ReachableVia (fun _ action => action.receives = true) s ∧
      s.sender.tx.remoteRecvCredits = 1 ∧ s.ring.recvCount = 1 ∧ s.unpaid = 1 ∧ s.turnedAway = 1 ∧ s.Covered := by
  obtain ⟨s, reachable, seen⟩ := System.exists_reachableVia creditSystem (fun _ action => action.receives = true)
    creditRun (fun s => s.sender.tx.remoteRecvCredits = 1 ∧ s.ring.recvCount = 1 ∧ s.unpaid = 1 ∧ s.turnedAway = 1)
    ⟨2, by decide, false, false, 17, creditSender, rfl, rfl⟩ (by decide +kernel)
  obtain ⟨credits, requests, unpaid, turnedAway⟩ := of_decide_eq_true seen
  exact ⟨s, reachable, credits, requests, unpaid, turnedAway, recv_credits_cover_messages s reachable⟩

end ThunderboltVerbs.Driver
