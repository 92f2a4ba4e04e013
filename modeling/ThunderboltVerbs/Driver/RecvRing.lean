import ThunderboltVerbs.Driver.Qp
import ThunderboltVerbs.Lib.Ring

/-!
# The ring of receive requests (`kernel/ibdev.c`)

Posts, pops, flushes and credit advertisements meet at the lock of the queue pair; between two critical
sections of one call any other call may run.
-/

namespace ThunderboltVerbs.Driver
open Proto Verbs Receive Lib

/-! ## The ring -/

def u32 (n : Nat) : Nat := n % 2 ^ 32

/-- `struct tbv_recv_wqe`; a cleared one is `{}`. -/
structure RingWqe extends RecvWqe where
  wrCqe : Nat := 0
  kernelCqe : Bool := false
  deriving DecidableEq, Repr

/-- One element of the chain; `sgList` is what the pointer to the segments leads to. -/
structure RingWr where
  wrId : Nat
  numSge : Int
  sgList : Option Sge
  deriving DecidableEq, Repr

structure RecvRing where
  recvq : List RingWqe
  recvqSize : Nat
  recvHead : Nat := 0
  recvTail : Nat := 0
  recvCount : Nat := 0
  recvCreditsAdvertised : Nat := 0
  closing : Bool := false
  state : QpState := .reset
  destQpKnown : Bool := false
  appleTransport : Bool
  /-- The queue pair has no `uobject`. -/
  kernelQp : Bool
  deriving DecidableEq, Repr

namespace RecvRing

/-- The ring that `tbv_create_qp` makes. -/
def create (maxRecvWr : Nat) (appleTransport kernelQp : Bool) : RecvRing where
  recvq := List.replicate maxRecvWr {}
  recvqSize := maxRecvWr
  appleTransport
  kernelQp

def allowsPost (q : RecvRing) : Bool := !q.closing && q.state ≠ .reset && q.state ≠ .err

def sge (wr : RingWr) : Option Sge := if wr.numSge = 1 then wr.sgList else none

/-- What a request is stored as; `wr_id` and `wr_cqe` are one field of the request. -/
def wqe (q : RecvRing) (wr : RingWr) : RingWqe where
  wrId := wr.wrId
  wrCqe := wr.wrId
  kernelCqe := q.kernelQp
  addr := (sge wr).elim 0 Sge.addr
  length := (sge wr).elim 0 Sge.length
  lkey := (sge wr).elim 0 Sge.lkey

/-- The checks of `tbv_post_recv` outside of the lock; `validate` is `tbv_validate_recv_sge`. -/
def check (validate : Sge → Option Errno) (wr : RingWr) : Option Errno :=
  if wr.numSge > 1 then some .eInval
  else if wr.numSge = 1 then
    match wr.sgList with
    | none => some .eInval
    | some sge => validate sge
  else none

/-- The critical section of `tbv_post_recv`. -/
def store (q : RecvRing) (wr : RingWr) : Except Errno RecvRing :=
  if q.closing || q.state = .reset || q.state = .err then .error .eInval
  else if q.recvCount = q.recvqSize then .error .eNoMem
  else .ok { q with
    recvq := q.recvq.set q.recvTail (q.wqe wr)
    recvTail := u32 (q.recvTail + 1) % q.recvqSize
    recvCount := u32 (q.recvCount + 1) }

/-- One element of the chain: the checks, then the critical section. -/
def postOne (q : RecvRing) (validate : Sge → Option Errno) (wr : RingWr) : Except Errno RecvRing :=
  match check validate wr with
  | some err => .error err
  | none => q.store wr

/-- What `tbv_qp_pop_recv` and `tbv_qp_flush_recv_wqes` do to a ring that is not empty. -/
def take (q : RecvRing) : RingWqe × RecvRing :=
  (q.recvq.getD q.recvHead {},
    { q with
      recvq := q.recvq.set q.recvHead {}
      recvHead := u32 (q.recvHead + 1) % q.recvqSize
      recvCount := q.recvCount - 1
      recvCreditsAdvertised :=
        if q.recvCreditsAdvertised ≠ 0 then q.recvCreditsAdvertised - 1 else q.recvCreditsAdvertised })

def popRecv (q : RecvRing) : Option (RingWqe × RecvRing) :=
  if q.recvCount = 0 || q.closing then none else some q.take

/-- One turn of the loop of `tbv_qp_flush_recv_wqes`. -/
def flushRecvWqe (q : RecvRing) : Option (RingWqe × RecvRing) :=
  if q.recvCount = 0 || q.recvq.isEmpty then none else some q.take

/-- The first critical section of `tbv_qp_advertise_recv_credits`: the credits to send. -/
def advertise (q : RecvRing) : Option (Nat × RecvRing) :=
  if q.appleTransport then none
  else if q.closing || !q.destQpKnown || q.recvCount ≤ q.recvCreditsAdvertised then none
  else
    let credits := q.recvCount - q.recvCreditsAdvertised
    some (credits, { q with recvCreditsAdvertised := u32 (q.recvCreditsAdvertised + credits) })

/-- Its second critical section, after a send that failed. -/
def takeBack (q : RecvRing) (credits : Nat) : RecvRing :=
  { q with
    recvCreditsAdvertised :=
      if q.recvCreditsAdvertised ≥ credits then q.recvCreditsAdvertised - credits else 0 }

end RecvRing

/-! ## Calls -/

inductive PostRecvPhase
  | entering
  | looping
  | advertising (ret : Option Errno)
  | returned (ret : Option Errno)
  deriving DecidableEq, Repr

/-- A call of `tbv_post_recv`. After an error `cur` is what `bad_wr` points to. -/
structure PostRecvCall where
  chain : List RingWr
  cur : List RingWr
  posted : Nat := 0
  phase : PostRecvPhase := .entering
  deriving DecidableEq, Repr

/-- The call is past its loop; credits are advertised if it stored anything. -/
def PostRecvCall.stop (job : PostRecvCall) (ret : Option Errno) : PostRecvCall :=
  { job with phase := if job.posted ≠ 0 then .advertising ret else .returned ret }

/-- The calls on one ring. The requests that went into it, with the number of their call, and those that
came out are kept in their order. -/
structure RecvCalls where
  q : RecvRing
  calls : List PostRecvCall := []
  /-- Credits that were counted as advertised and whose frame is being sent. -/
  adverts : List Nat := []
  stored : List (Nat × RingWqe) := []
  taken : List RingWqe := []
  deriving DecidableEq

inductive RecvRingAction
  | post (chain : List RingWr)
  | enter (call : Nat)
  | turn (call : Nat) (validate : Sge → Option Errno)
  | leave (call : Nat)
  | advertise
  | sent (advert : Nat) (ok : Bool)
  | pop
  | flush
  /-- What transitions and the destruction of the queue pair change. -/
  | transition (closing : Bool) (state : QpState) (destQpKnown : Bool)

namespace RecvCalls

def advertised (s : RecvCalls) : RecvCalls :=
  match s.q.advertise with
  | none => s
  | some (credits, q) => { s with q, adverts := s.adverts ++ [credits] }

def took (s : RecvCalls) : Option (RingWqe × RecvRing) → Option RecvCalls
  | none => some s
  | some (wqe, q) => some { s with q, taken := s.taken ++ [wqe] }

def moved (s : RecvCalls) (call : Nat) (next : PostRecvCall) : RecvCalls :=
  { s with calls := s.calls.set call next }

/-- One turn of the loop of `tbv_post_recv`, or its end. -/
def turn (s : RecvCalls) (call : Nat) (job : PostRecvCall) (validate : Sge → Option Errno) : RecvCalls :=
  match job.cur with
  | [] => s.moved call (job.stop none)
  | wr :: rest =>
      match s.q.postOne validate wr with
      | .error err => s.moved call (job.stop (some err))
      | .ok q =>
          { s.moved call { job with cur := rest, posted := u32 (job.posted + 1) } with
            q, stored := s.stored ++ [(call, s.q.wqe wr)] }

def step (s : RecvCalls) : RecvRingAction → Option RecvCalls
  | .post chain => some { s with calls := s.calls ++ [{ chain, cur := chain }] }
  | .enter call =>
      s.calls[call]?.bind fun job =>
        if job.phase = .entering then
          some (s.moved call
            { job with phase := if s.q.allowsPost then .looping else .returned (some .eInval) })
        else none
  | .turn call validate =>
      s.calls[call]?.bind fun job =>
        if job.phase = .looping then some (s.turn call job validate) else none
  | .leave call =>
      s.calls[call]?.bind fun job =>
        match job.phase with
        | .advertising ret => some (s.advertised.moved call { job with phase := .returned ret })
        | _ => none
  | .advertise => some s.advertised
  | .sent advert ok =>
      s.adverts[advert]?.map fun credits =>
        { s with
          q := if ok then s.q else s.q.takeBack credits
          adverts := s.adverts.eraseIdx advert }
  | .pop => s.took s.q.popRecv
  | .flush => s.took s.q.flushRecvWqe
  | .transition closing state destQpKnown =>
      some { s with q := { s.q with closing, state, destQpKnown } }

/-- The requests that a call has stored. -/
def storedBy (s : RecvCalls) (call : Nat) : List RingWqe :=
  (s.stored.filter fun entry => entry.1 = call).map Prod.snd

end RecvCalls

def recvSystem : System RecvCalls RecvRingAction where
  init s := ∃ maxRecvWr < 2 ^ 32, ∃ appleTransport kernelQp,
    s = { q := RecvRing.create maxRecvWr appleTransport kernelQp }
  step := RecvCalls.step

/-! ## What one critical section keeps -/

/-- The requests in the ring, oldest first. All other cells are cleared. -/
structure RecvRing.Holds (q : RecvRing) (live : List RingWqe) : Prop where
  small : q.recvqSize < 2 ^ 32
  ring : 0 < q.recvqSize → Occupied (· = ({} : RingWqe)) q.recvq q.recvqSize q.recvHead live
  fits : live.length ≤ q.recvqSize
  count : q.recvCount = live.length
  tail : q.recvTail = (q.recvHead + q.recvCount) % q.recvqSize
  advertised : q.recvCreditsAdvertised ≤ q.recvCount

namespace RecvRing.Holds

variable {q : RecvRing} {live : List RingWqe}

theorem u32_of_le {n : Nat} (holds : q.Holds live) (bound : n ≤ q.recvqSize) : u32 n = n :=
  Nat.mod_eq_of_lt (bound.trans_lt holds.small)

theorem create {maxRecvWr : Nat} (small : maxRecvWr < 2 ^ 32) (appleTransport kernelQp : Bool) :
    (RecvRing.create maxRecvWr appleTransport kernelQp).Holds [] := by
  refine ⟨small, ?_, Nat.zero_le _, rfl, (Nat.zero_mod _).symm, Nat.le_refl _⟩
  intro positive
  refine ⟨.empty (List.length_replicate).ge positive, ?_⟩
  intro k x _ _ found
  exact (List.mem_replicate.mp (List.mem_of_getElem? found)).2

/-- A free cell of the ring is written, behind the requests that wait. -/
theorem store {q' : RecvRing} (holds : q.Holds live) {wr : RingWr} (stored : q.store wr = .ok q') :
    q'.Holds (live ++ [q.wqe wr]) ∧ q'.wqe = q.wqe := by
  unfold RecvRing.store at stored
  split at stored
  · cases stored
  split at stored
  · cases stored
  rename_i full
  cases stored
  have room : live.length < q.recvqSize := by
    have fits := holds.fits
    have count := holds.count
    omega
  have occupied := holds.ring (Nat.zero_lt_of_lt room)
  have tail : q.recvTail = (q.recvHead + live.length) % q.recvqSize := holds.count ▸ holds.tail
  have inside : q.recvTail < q.recvqSize := by
    rw [tail]
    exact ring_lt occupied.head_lt _
  have count : u32 (q.recvCount + 1) = live.length + 1 := by
    rw [holds.count]
    exact holds.u32_of_le room
  refine ⟨⟨holds.small, ?_, ?_, ?_, ?_, ?_⟩, rfl⟩
  · intro _
    show Occupied _ (q.recvq.set q.recvTail (q.wqe wr)) q.recvqSize q.recvHead (live ++ [q.wqe wr])
    rw [tail]
    exact occupied.push room (q.wqe wr)
  · rw [List.length_append, List.length_singleton]
    exact room
  · rw [List.length_append, List.length_singleton]
    exact count
  · show u32 (q.recvTail + 1) % q.recvqSize = (q.recvHead + u32 (q.recvCount + 1)) % q.recvqSize
    have next : u32 (q.recvTail + 1) = q.recvTail + 1 := holds.u32_of_le inside
    rw [count, next, tail, Nat.mod_add_mod, Nat.add_assoc]
  · show q.recvCreditsAdvertised ≤ u32 (q.recvCount + 1)
    rw [count, ← holds.count]
    exact Nat.le_succ_of_le holds.advertised

theorem postOne {q' : RecvRing} (holds : q.Holds live) {validate : Sge → Option Errno} {wr : RingWr}
    (posted : q.postOne validate wr = .ok q') : q'.Holds (live ++ [q.wqe wr]) ∧ q'.wqe = q.wqe := by
  unfold RecvRing.postOne at posted
  split at posted
  · cases posted
  · exact holds.store posted

/-- The oldest request is handed out, and at most the credit that it stands for is given up. -/
theorem take (holds : q.Holds live) (nonempty : q.recvCount ≠ 0) :
    ∃ rest, live = q.take.1 :: rest ∧ q.take.2.Holds rest := by
  obtain ⟨wqe, rest, rfl⟩ : ∃ wqe rest, live = wqe :: rest := by
    apply List.exists_cons_of_ne_nil
    rintro rfl
    exact nonempty holds.count
  have fits : rest.length + 1 ≤ q.recvqSize := holds.fits
  have count : q.recvCount = rest.length + 1 := holds.count
  have occupied := holds.ring (by omega)
  have next : u32 (q.recvHead + 1) = q.recvHead + 1 := holds.u32_of_le occupied.head_lt
  have first : q.recvq.getD q.recvHead {} = wqe := by
    rw [List.getD_eq_getElem?_getD, occupied.first]
    rfl
  refine ⟨rest, by rw [RecvRing.take, first], ⟨holds.small, ?_, Nat.le_of_succ_le fits, ?_, ?_, ?_⟩⟩
  · intro _
    show Occupied _ (q.recvq.set q.recvHead {}) q.recvqSize (u32 (q.recvHead + 1) % q.recvqSize) rest
    rw [next]
    exact occupied.pop rfl
  · show q.recvCount - 1 = rest.length
    omega
  · show q.recvTail = (u32 (q.recvHead + 1) % q.recvqSize + (q.recvCount - 1)) % q.recvqSize
    rw [next, ring_next, holds.tail, Nat.sub_add_cancel (by omega)]
  · show (if q.recvCreditsAdvertised ≠ 0 then q.recvCreditsAdvertised - 1 else q.recvCreditsAdvertised) ≤
      q.recvCount - 1
    have advertised := holds.advertised
    split <;> omega

theorem advertise {q' : RecvRing} {credits : Nat} (holds : q.Holds live)
    (sent : q.advertise = some (credits, q')) : q'.Holds live ∧ q'.wqe = q.wqe := by
  unfold RecvRing.advertise at sent
  split at sent
  · cases sent
  split at sent
  · cases sent
  cases sent
  refine ⟨{ holds with advertised := ?_ }, rfl⟩
  have total : q.recvCreditsAdvertised + (q.recvCount - q.recvCreditsAdvertised) = q.recvCount :=
    Nat.add_sub_cancel' holds.advertised
  show u32 (q.recvCreditsAdvertised + (q.recvCount - q.recvCreditsAdvertised)) ≤ q.recvCount
  rw [total]
  exact Nat.mod_le _ _

/-- Whatever has been popped since the credits were counted, taking them back only lowers the count. -/
theorem takeBack (holds : q.Holds live) (credits : Nat) : (q.takeBack credits).Holds live := by
  refine { holds with advertised := ?_ }
  show (if q.recvCreditsAdvertised ≥ credits then q.recvCreditsAdvertised - credits else 0) ≤ q.recvCount
  have advertised := holds.advertised
  split <;> omega

theorem popRecv {q' : RecvRing} {wqe : RingWqe} (holds : q.Holds live)
    (popped : q.popRecv = some (wqe, q')) : ∃ rest, live = wqe :: rest ∧ q'.Holds rest ∧ q'.wqe = q.wqe := by
  unfold RecvRing.popRecv at popped
  split at popped
  · cases popped
  rename_i nonempty
  simp only [Bool.or_eq_true, decide_eq_true_eq, not_or] at nonempty
  obtain ⟨rest, first, after⟩ := holds.take nonempty.1
  cases popped
  exact ⟨rest, first, after, rfl⟩

theorem flushRecvWqe {q' : RecvRing} {wqe : RingWqe} (holds : q.Holds live)
    (flushed : q.flushRecvWqe = some (wqe, q')) : ∃ rest, live = wqe :: rest ∧ q'.Holds rest ∧ q'.wqe = q.wqe := by
  unfold RecvRing.flushRecvWqe at flushed
  split at flushed
  · cases flushed
  rename_i nonempty
  simp only [Bool.or_eq_true, decide_eq_true_eq, not_or] at nonempty
  obtain ⟨rest, first, after⟩ := holds.take nonempty.1
  cases flushed
  exact ⟨rest, first, after, rfl⟩

end RecvRing.Holds

/-! ## What every step keeps -/

/-- The call has stored the part of its chain that `cur` is behind. -/
def PostRecvCall.Keeps (wqe : RingWr → RingWqe) (mine : List RingWqe) (job : PostRecvCall) : Prop :=
  (∃ before, job.chain = before ++ job.cur ∧ mine = before.map wqe) ∧
    (job.phase = .advertising none ∨ job.phase = .returned none → job.cur = [])

structure RecvCalls.Inv (wqe : RingWr → RingWqe) (s : RecvCalls) : Prop where
  maker : s.q.wqe = wqe
  ring : ∃ live, s.q.Holds live ∧ s.stored.map Prod.snd = s.taken ++ live
  calls : ∀ (call : Nat) (job : PostRecvCall), s.calls[call]? = some job → job.Keeps wqe (s.storedBy call)
  fresh : ∀ entry ∈ s.stored, entry.1 < s.calls.length

namespace RecvCalls.Inv

variable {wqe : RingWr → RingWqe} {s : RecvCalls}

theorem withRing (inv : s.Inv wqe) (q : RecvRing) (maker : q.wqe = s.q.wqe)
    (keeps : ∀ live, s.q.Holds live → q.Holds live) (adverts : List Nat) :
    ({ s with q, adverts } : RecvCalls).Inv wqe where
  maker := maker.trans inv.maker
  ring :=
    let ⟨live, holds, order⟩ := inv.ring
    ⟨live, keeps live holds, order⟩
  calls := inv.calls
  fresh := inv.fresh

theorem advertised (inv : s.Inv wqe) : s.advertised.Inv wqe := by
  unfold RecvCalls.advertised
  split
  · exact inv
  · rename_i credits q sent
    obtain ⟨live, holds, -⟩ := inv.ring
    exact inv.withRing q (holds.advertise sent).2 (fun live holds => (holds.advertise sent).1) _

theorem took (inv : s.Inv wqe) {result : Option (RingWqe × RecvRing)} {s' : RecvCalls}
    (takes : ∀ live w q, s.q.Holds live → result = some (w, q) →
      ∃ rest, live = w :: rest ∧ q.Holds rest ∧ q.wqe = s.q.wqe)
    (next : s.took result = some s') : s'.Inv wqe := by
  unfold RecvCalls.took at next
  split at next
  · cases next
    exact inv
  · rename_i w q
    cases next
    obtain ⟨live, holds, order⟩ := inv.ring
    obtain ⟨rest, rfl, after, maker⟩ := takes live w q holds rfl
    refine ⟨maker.trans inv.maker, ⟨rest, after, ?_⟩, inv.calls, inv.fresh⟩
    rw [order, List.append_assoc]
    rfl

theorem moved (inv : s.Inv wqe) {call : Nat} {next : PostRecvCall}
    (keeps : next.Keeps wqe (s.storedBy call)) : (s.moved call next).Inv wqe := by
  refine ⟨inv.maker, inv.ring, ?_, ?_⟩
  · intro other job' found
    simp only [RecvCalls.moved, List.getElem?_set] at found
    split at found
    · split at found
      · rename_i same _
        cases found
        exact same ▸ keeps
      · cases found
    · exact inv.calls other job' found
  · intro entry member
    exact (inv.fresh entry member).trans_eq (List.length_set ..).symm

theorem post (inv : s.Inv wqe) (chain : List RingWr) :
    ({ s with calls := s.calls ++ [{ chain, cur := chain }] } : RecvCalls).Inv wqe := by
  refine ⟨inv.maker, inv.ring, ?_, ?_⟩
  · intro call job found
    by_cases old : call < s.calls.length
    · rw [List.getElem?_append_left old] at found
      exact inv.calls call job found
    · have last : call = s.calls.length := by
        have bound := (List.getElem?_eq_some_iff.mp found).1
        rw [List.length_append, List.length_singleton] at bound
        omega
      subst last
      rw [List.getElem?_concat_length] at found
      cases found
      have nothing : s.storedBy s.calls.length = [] := by
        unfold RecvCalls.storedBy
        rw [List.filter_eq_nil_iff.mpr, List.map_nil]
        intro entry member
        simpa using (inv.fresh entry member).ne
      exact ⟨⟨[], rfl, nothing⟩, by simp⟩
  · intro entry member
    show entry.1 < (s.calls ++ [_]).length
    rw [List.length_append]
    exact (inv.fresh entry member).trans_le (Nat.le_add_right _ _)

/-- The request goes into the ring and to the account of its call, and to no other account. -/
theorem store (inv : s.Inv wqe) {call : Nat} {job : PostRecvCall} (found : s.calls[call]? = some job)
    {wr : RingWr} {rest : List RingWr} (cur : job.cur = wr :: rest) (looping : job.phase = .looping)
    {validate : Sge → Option Errno} {q : RecvRing} (stored : s.q.postOne validate wr = .ok q) (posted : Nat) :
    ({ s.moved call { job with cur := rest, posted } with
        q, stored := s.stored ++ [(call, s.q.wqe wr)] } : RecvCalls).Inv wqe := by
  obtain ⟨live, holds, order⟩ := inv.ring
  obtain ⟨after, maker⟩ := holds.postOne stored
  obtain ⟨bound, -⟩ := List.getElem?_eq_some_iff.mp found
  have own : ((s.stored ++ [(call, s.q.wqe wr)]).filter fun entry => entry.1 = call).map Prod.snd =
      s.storedBy call ++ [wqe wr] := by
    rw [List.filter_append, List.map_append, ← inv.maker]
    simp [RecvCalls.storedBy]
  have others : ∀ other, other ≠ call →
      ((s.stored ++ [(call, s.q.wqe wr)]).filter fun entry => entry.1 = other).map Prod.snd = s.storedBy other := by
    intro other differs
    rw [List.filter_append, List.map_append]
    simp [RecvCalls.storedBy, Ne.symm differs]
  refine ⟨maker.trans inv.maker, ⟨live ++ [s.q.wqe wr], after, ?_⟩, ?_, ?_⟩
  · rw [List.map_append, order, List.append_assoc]
    rfl
  · intro other job' there
    simp only [RecvCalls.moved, List.getElem?_set] at there
    split at there
    · rename_i same
      subst same
      cases there
      obtain ⟨⟨before, chain, mine⟩, -⟩ := inv.calls call job found
      refine ⟨⟨before ++ [wr], ?_, ?_⟩, by simp [looping]⟩
      · rw [chain, cur, List.append_assoc]
        rfl
      · show ((s.stored ++ [(call, s.q.wqe wr)]).filter fun entry => entry.1 = call).map Prod.snd = _
        rw [own, mine, List.map_append]
        rfl
    · rename_i differs
      obtain ⟨⟨before, chain, mine⟩, ended⟩ := inv.calls other job' there
      exact ⟨⟨before, chain, (others other (Ne.symm differs)).trans mine⟩, ended⟩
  · intro entry member
    show entry.1 < (s.calls.set call _).length
    rw [List.length_set]
    rcases List.mem_append.mp member with old | new
    · exact inv.fresh entry old
    · rw [List.mem_singleton.mp new]
      exact bound

theorem turn (inv : s.Inv wqe) {call : Nat} {job : PostRecvCall} (found : s.calls[call]? = some job)
    (looping : job.phase = .looping) (validate : Sge → Option Errno) : (s.turn call job validate).Inv wqe := by
  have keeps := (inv.calls call job found).1
  -- the call stops where it is, with an error or at the end of its chain
  have stops : ∀ ret : Option Errno, (ret = none → job.cur = []) → (s.moved call (job.stop ret)).Inv wqe := by
    intro ret ended
    apply inv.moved
    refine ⟨keeps, ?_⟩
    unfold PostRecvCall.stop
    intro phase
    apply ended
    rcases phase with phase | phase
    · split at phase <;> cases phase
      rfl
    · split at phase <;> cases phase
      rfl
  unfold RecvCalls.turn
  split
  · rename_i cur
    exact stops none fun _ => cur
  · rename_i wr rest cur
    split
    · rename_i err _
      exact stops (some err) fun none => by cases none
    · rename_i q stored
      exact inv.store found cur looping stored _

theorem step (inv : s.Inv wqe) {s' : RecvCalls} {action : RecvRingAction} (next : s.step action = some s') :
    s'.Inv wqe := by
  cases action with
  | post chain =>
      cases next
      exact inv.post chain
  | enter call =>
      obtain ⟨job, found, next⟩ := Option.bind_eq_some_iff.mp next
      split at next
      · cases next
        refine inv.moved ⟨(inv.calls call job found).1, ?_⟩
        intro phase
        rcases phase with phase | phase <;> split at phase <;> cases phase
      · cases next
  | turn call validate =>
      obtain ⟨job, found, next⟩ := Option.bind_eq_some_iff.mp next
      split at next
      · rename_i looping
        cases next
        exact inv.turn found looping validate
      · cases next
  | leave call =>
      obtain ⟨job, found, next⟩ := Option.bind_eq_some_iff.mp next
      split at next
      · rename_i ret phase
        cases next
        have kept := inv.calls call job found
        have same : s.advertised.storedBy call = s.storedBy call := by
          unfold RecvCalls.advertised
          split <;> rfl
        refine inv.advertised.moved ⟨same ▸ kept.1, ?_⟩
        intro ended
        apply kept.2
        rcases ended with ended | ended <;> cases ended
        exact Or.inl phase
      · cases next
  | advertise =>
      cases next
      exact inv.advertised
  | sent advert ok =>
      obtain ⟨credits, -, rfl⟩ := Option.map_eq_some_iff.mp next
      apply inv.withRing
      · cases ok <;> rfl
      · intro live holds
        cases ok
        · exact holds.takeBack credits
        · exact holds
  | pop => exact inv.took (fun live w q holds popped => holds.popRecv popped) next
  | flush => exact inv.took (fun live w q holds flushed => holds.flushRecvWqe flushed) next
  | transition closing state destQpKnown =>
      cases next
      exact inv.withRing { s.q with closing, state, destQpKnown } rfl
        (fun live holds => ⟨holds.small, holds.ring, holds.fits, holds.count, holds.tail, holds.advertised⟩) _

end RecvCalls.Inv

theorem recvCalls_inv {s : RecvCalls} (reachable : recvSystem.Reachable s) : s.Inv s.q.wqe := by
  have base (s) (start : recvSystem.init s) : s.Inv s.q.wqe := by
    obtain ⟨maxRecvWr, small, appleTransport, kernelQp, rfl⟩ := start
    exact ⟨rfl, ⟨[], .create small appleTransport kernelQp, rfl⟩, by simp, by simp⟩
  apply reachable.invariant base
  intro s action s' inv _ step
  have next := inv.step step
  rwa [← next.maker] at next

/-! ## The ring over all runs -/

structure RecvCalls.Sound (s : RecvCalls) : Prop where
  tail : s.q.recvTail = (s.q.recvHead + s.q.recvCount) % s.q.recvqSize
  count : s.q.recvCount ≤ s.q.recvqSize
  /-- What was stored and not yet taken is in the cells from the head on, and nothing else is. -/
  live : ∃ live, s.stored.map Prod.snd = s.taken ++ live ∧ live.length = s.q.recvCount ∧
    (∀ i < live.length, s.q.recvq[(s.q.recvHead + i) % s.q.recvqSize]? = live[i]?) ∧
    ∀ k < s.q.recvqSize, (∀ i < live.length, (s.q.recvHead + i) % s.q.recvqSize ≠ k) →
      s.q.recvq[k]? = some {}
  advertised : s.q.recvCreditsAdvertised ≤ s.q.recvCount
  /-- A call that failed at `cur` has stored what is before it, and one that did not has stored its chain. -/
  chains : ∀ (call : Nat) (job : PostRecvCall) (ret : Option Errno), s.calls[call]? = some job →
    job.phase = .returned ret →
    ∃ before, job.chain = before ++ job.cur ∧ s.storedBy call = before.map s.q.wqe ∧ (ret = none → job.cur = [])

theorem recv_ring {s : RecvCalls} (reachable : recvSystem.Reachable s) : s.Sound := by
  have inv := recvCalls_inv reachable
  obtain ⟨live, holds, order⟩ := inv.ring
  refine ⟨holds.tail, holds.count ▸ holds.fits, ⟨live, order, holds.count.symm, ?_, ?_⟩, holds.advertised, ?_⟩
  · intro i bound
    exact (holds.ring (by have fits := holds.fits; omega)).cell i bound
  · intro k inside free
    have occupied := holds.ring (Nat.zero_lt_of_lt inside)
    have there := List.getElem?_eq_getElem (inside.trans_le occupied.size_le)
    rw [there, occupied.rest k _ inside free there]
  · intro call job ret found returned
    obtain ⟨⟨before, chain, mine⟩, ended⟩ := inv.calls call job found
    refine ⟨before, chain, mine, ?_⟩
    rintro rfl
    exact ended (Or.inr returned)

def threeRequests : List RingWr := [⟨7, 0, none⟩, ⟨8, 0, none⟩, ⟨9, 0, none⟩]

/-- Three requests for a ring of two; one is taken while the credits for two are on their way, and then their
frame fails. -/
def fullRingRun : List RecvRingAction :=
  [.transition false .rtr true, .post threeRequests, .enter 0, .turn 0 fun _ => none, .turn 0 fun _ => none,
    .turn 0 fun _ => none, .leave 0, .pop, .sent 0 false]

theorem recv_ring_fullRing : ∃ s : RecvCalls,
    (s.q.recvHead, s.q.recvTail, s.q.recvCount, s.q.recvCreditsAdvertised) = (1, 0, 1, 0) ∧
      s.calls.map PostRecvCall.cur = [threeRequests.drop 2] ∧ s.Sound := by
  obtain ⟨s, reachable, here⟩ := System.exists_reachableVia recvSystem (fun _ _ => True) fullRingRun
    (fun s => (s.q.recvHead, s.q.recvTail, s.q.recvCount, s.q.recvCreditsAdvertised) = (1, 0, 1, 0) ∧
      s.calls.map PostRecvCall.cur = [threeRequests.drop 2])
    ⟨2, by decide, false, false, rfl⟩ (by decide +kernel)
  obtain ⟨counters, cur⟩ := of_decide_eq_true here
  exact ⟨s, counters, cur, recv_ring reachable⟩

/-! ## The list that the ring stands for -/

/-- Between two calls the ring is the list of requests of the queue pair. -/
structure RecvRing.Represents (ring : RecvRing) (q : NativeQp) : Prop where
  live : ∃ live, ring.Holds live ∧ live.map RingWqe.toRecvWqe = q.rx.recvq
  size : ring.recvqSize = q.recvqSize
  credits : ring.recvCreditsAdvertised = q.recvCreditsAdvertised
  closing : ring.closing = q.tx.closing
  state : ring.state = q.tx.state
  destQpKnown : ring.destQpKnown = q.tx.destQpKnown
  native : ring.appleTransport = false

def ringWr (wr : RecvWr) : RingWr where
  wrId := wr.wrId
  numSge := wr.sgList.length
  sgList := wr.sgList.head?

namespace RecvRing.Represents

variable {ring : RecvRing} {q : NativeQp}

theorem count (represents : ring.Represents q) : ring.recvCount = q.rx.recvq.length := by
  obtain ⟨live, holds, same⟩ := represents.live
  rw [holds.count, ← same, List.length_map]

theorem toRecvWqe_wqe {wr : RecvWr} (short : wr.sgList.length ≤ 1) :
    (ring.wqe (ringWr wr)).toRecvWqe = NativeQp.recvWqe wr := by
  obtain ⟨wrId, sgList⟩ := wr
  match sgList, short with
  | [], _ => rfl
  | [sge], _ => rfl

theorem check_eq (mrs : Nat → Option Mr) {wr : RecvWr} (short : wr.sgList.length ≤ 1) :
    check (NativeQp.validateRecvSge mrs) (ringWr wr) = wr.sgList.findSome? (NativeQp.validateRecvSge mrs) := by
  obtain ⟨wrId, sgList⟩ := wr
  match sgList, short with
  | [], _ => rfl
  | [sge], _ => exact (List.findSome?_singleton).symm

/-- One turn of the loop, with nothing in between, is one turn on the list. -/
theorem post (represents : ring.Represents q) (mrs : Nat → Option Mr) (wr : RecvWr) :
    match ring.postOne (NativeQp.validateRecvSge mrs) (ringWr wr) with
    | .error err => q.postRecvOne mrs wr = .error err
    | .ok ring' => ∃ q', q.postRecvOne mrs wr = .ok q' ∧ ring'.Represents q' := by
  unfold NativeQp.postRecvOne postOne
  by_cases long : wr.sgList.length > 1
  · rw [if_pos long, check, if_pos (show (ringWr wr).numSge > 1 from Int.ofNat_lt.mpr long)]
  rw [if_neg long, check_eq mrs (Nat.not_lt.mp long)]
  cases wr.sgList.findSome? (NativeQp.validateRecvSge mrs) with
  | some err => rfl
  | none =>
      obtain ⟨live, holds, same⟩ := represents.live
      have shut : (ring.closing || ring.state = .reset || ring.state = .err) = !q.tx.allowsPost := by
        rw [represents.closing, represents.state, Qp.allowsPost]
        simp
      have full : ring.recvCount = ring.recvqSize ↔ q.rx.recvq.length = q.recvqSize := by
        rw [represents.count, represents.size]
      simp only
      by_cases refused : (!q.tx.allowsPost) = true
      · rw [if_pos refused, store, if_pos (shut.trans refused)]
      by_cases filled : q.rx.recvq.length = q.recvqSize
      · rw [if_neg refused, if_pos filled, store, if_neg (shut ▸ refused), if_pos (full.mpr filled)]
      · have stored : ring.store (ringWr wr) = .ok { ring with
            recvq := ring.recvq.set ring.recvTail (ring.wqe (ringWr wr))
            recvTail := u32 (ring.recvTail + 1) % ring.recvqSize
            recvCount := u32 (ring.recvCount + 1) } := by
          rw [store, if_neg (shut ▸ refused), if_neg (full.not.mpr filled)]
        rw [if_neg refused, if_neg filled, stored]
        refine ⟨_, rfl, { represents with live := ⟨_, (holds.store stored).1, ?_⟩ }⟩
        rw [List.map_append, same, List.map_singleton, toRecvWqe_wqe (Nat.not_lt.mp long)]

/-- An advertisement with nothing in between. -/
theorem advertise (represents : ring.Represents q) (sent : Bool) :
    match ring.advertise with
    | none => q.advertiseRecvCredits sent = (q, [])
    | some (credits, ring') =>
        (if sent then ring' else ring'.takeBack credits).Represents (q.advertiseRecvCredits sent).1 := by
  obtain ⟨live, holds, same⟩ := represents.live
  have bound := holds.advertised
  have stays : (ring.closing || !ring.destQpKnown || ring.recvCount ≤ ring.recvCreditsAdvertised) =
      (q.tx.closing || !q.tx.destQpKnown || decide (q.rx.recvq.length ≤ q.recvCreditsAdvertised)) := by
    rw [represents.closing, represents.destQpKnown, represents.count, represents.credits]
  have native : ¬ring.appleTransport = true := by simp [represents.native]
  cases quiet : q.tx.closing || !q.tx.destQpKnown || decide (q.rx.recvq.length ≤ q.recvCreditsAdvertised) with
  | true =>
      have nothing : ring.advertise = none := by
        rw [RecvRing.advertise, if_neg native, if_pos (stays.trans quiet)]
      rw [nothing, NativeQp.advertiseRecvCredits, if_pos (by simp [quiet])]
  | false =>
      have counted : u32 (ring.recvCreditsAdvertised + (ring.recvCount - ring.recvCreditsAdvertised)) =
          ring.recvCount := by
        rw [Nat.add_sub_cancel' bound]
        exact holds.u32_of_le (holds.count ▸ holds.fits)
      have sends : ring.advertise = some (ring.recvCount - ring.recvCreditsAdvertised,
          { ring with recvCreditsAdvertised := ring.recvCount }) := by
        rw [RecvRing.advertise, if_neg native, if_neg (by rw [stays, quiet]; exact Bool.false_ne_true)]
        simp only [counted]
      rw [sends, NativeQp.advertiseRecvCredits, quiet]
      cases sent with
      | true =>
          refine { represents with live := ⟨live, { holds with advertised := le_rfl }, same⟩, credits := ?_ }
          exact represents.count
      | false =>
          have restored : takeBack { ring with recvCreditsAdvertised := ring.recvCount }
              (ring.recvCount - ring.recvCreditsAdvertised) = ring := by
            unfold takeBack
            simp only [ge_iff_le, Nat.sub_le, if_true, Nat.sub_sub_self bound]
          show (takeBack { ring with recvCreditsAdvertised := ring.recvCount } _).Represents q
          rw [restored]
          exact represents

/-- A pop hands out the oldest request of the list. -/
theorem pop (represents : ring.Represents q) :
    match ring.popRecv with
    | none => q.rx.recvq = [] ∨ q.tx.closing = true
    | some (wqe, ring') => ∃ rest, q.rx.recvq = wqe.toRecvWqe :: rest ∧
        ring'.Represents
          { q with rx := { q.rx with recvq := rest }, recvCreditsAdvertised := q.recvCreditsAdvertised - 1 } := by
  obtain ⟨live, holds, same⟩ := represents.live
  cases popped : ring.popRecv with
  | none =>
      unfold popRecv at popped
      split at popped
      · rename_i refused
        simp only [Bool.or_eq_true, decide_eq_true_eq] at refused
        rcases refused with empty | closing
        · left
          exact List.eq_nil_of_length_eq_zero (represents.count ▸ empty)
        · right
          exact represents.closing ▸ closing
      · cases popped
  | some result =>
      obtain ⟨wqe, ring'⟩ := result
      obtain ⟨rest, rfl, after, -⟩ := holds.popRecv popped
      unfold popRecv at popped
      split at popped
      · cases popped
      cases popped
      refine ⟨rest.map RingWqe.toRecvWqe, same.symm, { represents with live := ⟨rest, after, rfl⟩, credits := ?_ }⟩
      show (if ring.recvCreditsAdvertised ≠ 0 then ring.recvCreditsAdvertised - 1 else ring.recvCreditsAdvertised) =
        q.recvCreditsAdvertised - 1
      rw [represents.credits]
      split <;> omega

end RecvRing.Represents

end ThunderboltVerbs.Driver
