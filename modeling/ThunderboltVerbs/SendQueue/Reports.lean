import ThunderboltVerbs.SendQueue.Slots

/-!
# What a post returns and what its completion says
-/

namespace ThunderboltVerbs.SendQueue
open Proto Lib Verbs

structure Claim where
  addr : Nat
  serial : Nat
  label : Label
  deriving DecidableEq, Repr

namespace Job

def claims : Job → List Claim
  | .post _ addr serial request => [{ addr, serial, label := request.label }]
  | .unqueue addr serial ctx _ | .unwind addr serial ctx _ => [{ addr, serial, label := readLabel ctx }]
  | _ => []

def owned : Job → List Claim
  | .post .linked .. | .unqueue .. => []
  | job => job.claims

def tags : Job → List (Nat × Label)
  | .complete due => due.map fun each => (each.addr, each.label)
  | job => job.owned.map fun claim => (claim.addr, claim.label)

end Job

def sendTag (entry : SendEntry) : Nat × Label := (entry.1, sendLabel entry.2)

def readTag (entry : ReadEntry) : Nat × Label := (entry.1, readLabel entry.2)

def listTags (qp : Qp) : List (Nat × Label) := qp.pendingSends.map sendTag ++ qp.pendingReads.map readTag

namespace Machine

def claims (m : Machine) : List Claim := m.jobs.flatMap Job.claims

def owned (m : Machine) : List Claim := m.jobs.flatMap Job.owned

def tags (m : Machine) : List (Nat × Label) := listTags m.qp ++ m.jobs.flatMap Job.tags

end Machine

variable {m m' m'' : Machine} {addr serial : Nat} {request : Request}

/-! ## Steps in which no post begins, returns or is refused -/

structure Quiet (m m' : Machine) : Prop where
  cells : ∀ cell ∈ m'.cells, ∃ old ∈ m.cells, old.addr = cell.addr ∧ old.serial = cell.serial
  tags : ∀ tag ∈ m'.tags, tag ∈ m.tags
  completed : ∀ done ∈ m'.completed, done ∈ m.completed ∨
    ∃ cell ∈ m.cells, cell.serial = done.serial ∧ (cell.addr, done.label) ∈ m.tags
  labels : m'.labels = m.labels
  returned : m'.returned = m.returned
  serials : m'.serials = m.serials
  refused : ∀ serial, .refused ∈ m'.history serial ↔ .refused ∈ m.history serial
  claims : m'.claims.Perm m.claims
  owned : ∀ claim ∈ m'.owned, claim ∈ m.owned

theorem Quiet.refl (m : Machine) : Quiet m m where
  cells := fun cell member => ⟨cell, member, rfl, rfl⟩
  tags := fun _ member => member
  completed := fun _ member => .inl member
  labels := rfl
  returned := rfl
  serials := rfl
  refused := fun _ => .rfl
  claims := .refl _
  owned := fun _ member => member

theorem Quiet.trans (first : Quiet m m') (second : Quiet m' m'') : Quiet m m'' where
  cells := by
    intro cell member
    obtain ⟨mid, inside, addr, serial⟩ := second.cells cell member
    obtain ⟨old, live, addr', serial'⟩ := first.cells mid inside
    exact ⟨old, live, addr'.trans addr, serial'.trans serial⟩
  tags := fun tag member => first.tags tag (second.tags tag member)
  completed := by
    intro done member
    rcases second.completed done member with earlier | ⟨cell, inside, serial, tag⟩
    · exact first.completed done earlier
    · obtain ⟨old, live, addr, same⟩ := first.cells cell inside
      exact .inr ⟨old, live, same.trans serial, addr ▸ first.tags _ tag⟩
  labels := second.labels.trans first.labels
  returned := second.returned.trans first.returned
  serials := second.serials.trans first.serials
  refused := fun serial => (second.refused serial).trans (first.refused serial)
  claims := second.claims.trans first.claims
  owned := fun claim member => first.owned claim (second.owned claim member)

theorem quiet_retain : Quiet m (m.retain addr) :=
  { Quiet.refl m with cells := fun _ member => Cell.of_mem_retain member }

theorem quiet_drop : Quiet m (m.drop addr) :=
  { Quiet.refl m with cells := fun _ member => Cell.of_mem_drop member }

theorem quiet_jobs {jobs : List Job} (claims : (jobs.flatMap Job.claims).Perm m.claims)
    (owned : ∀ claim ∈ jobs.flatMap Job.owned, claim ∈ m.owned)
    (tags : ∀ tag ∈ jobs.flatMap Job.tags, tag ∈ m.tags) : Quiet m { m with jobs } :=
  { Quiet.refl m with
    claims
    owned
    tags := by
      intro tag member
      rcases List.mem_append.mp member with listed | due
      · exact List.mem_append_left _ listed
      · exact tags tag due }

theorem quiet_perm {jobs : List Job} (perm : jobs.Perm m.jobs) : Quiet m { m with jobs } := by
  refine quiet_jobs (perm.flatMap_right _) (fun claim member => ?_) fun tag member => ?_
  · exact (perm.flatMap_right Job.owned).mem_iff.mp member
  · exact List.mem_append_right _ ((perm.flatMap_right Job.tags).mem_iff.mp member)

theorem owned_subset (job : Job) : job.owned ⊆ job.claims := by
  unfold Job.owned
  split
  · exact List.nil_subset _
  · exact List.nil_subset _
  · exact List.Subset.refl _

theorem quiet_forget {job : Job} (claims : job.claims = []) : Quiet (m.addJobs [job]) m where
  cells := fun cell member => ⟨cell, member, rfl, rfl⟩
  tags := by
    intro tag member
    rcases List.mem_append.mp member with listed | due
    · exact List.mem_append_left _ listed
    · exact List.mem_append_right _ (List.mem_append_right _ due)
  completed := fun _ member => .inl member
  labels := rfl
  returned := rfl
  serials := rfl
  refused := fun _ => .rfl
  claims := by
    simp only [Machine.claims, Machine.addJobs, List.flatMap_append, List.flatMap_cons, List.flatMap_nil,
      claims, List.nil_append]
    exact .refl _
  owned := fun _ member => List.mem_append_right _ member

theorem quiet_addJob {job : Job} (claims : job.claims = []) (tags : ∀ tag ∈ job.tags, tag ∈ m.tags) :
    Quiet m (m.addJobs [job]) := by
  have owned : job.owned = [] := List.subset_nil.mp (claims ▸ owned_subset job)
  refine quiet_jobs ?_ ?_ ?_
  · simp only [List.flatMap_append, List.flatMap_cons, List.flatMap_nil, claims, List.nil_append]
    exact .refl _
  · intro claim member
    simp only [List.flatMap_append, List.flatMap_cons, List.flatMap_nil, owned, List.nil_append] at member
    exact member
  · intro tag member
    simp only [List.flatMap_append, List.flatMap_cons, List.flatMap_nil, List.append_nil,
      List.mem_append] at member
    rcases member with own | other
    · exact tags tag own
    · exact List.mem_append_right _ other

theorem quiet_setQp {qp : Qp} (tags : ∀ tag ∈ listTags qp, tag ∈ m.tags) : Quiet m { m with qp } :=
  { Quiet.refl m with
    tags := by
      intro tag member
      rcases List.mem_append.mp member with listed | due
      · exact tags tag listed
      · exact List.mem_append_right _ due }

theorem refused_mark {history : History} {mark : Mark} (other : mark ≠ .refused) (own : Nat) :
    .refused ∈ history.mark own mark serial ↔ .refused ∈ history serial := by
  unfold History.mark
  by_cases same : serial = own
  · subst same
    rw [Function.update_self, List.mem_cons]
    exact ⟨fun member => member.resolve_left (Ne.symm other), .inr⟩
  · rw [Function.update_of_ne same]

theorem quiet_mark {mark : Mark} (other : mark ≠ .refused) : Quiet m (m.mark addr mark) :=
  { Quiet.refl m with refused := fun _ => refused_mark other _ }

theorem quiet_release {qp : Qp} {slots : List Nat} (tags : ∀ tag ∈ listTags qp, tag ∈ m.tags) :
    Quiet m (m.release qp slots) := by
  have marks : Quiet m (slots.foldl (fun m addr => m.mark addr .released) m) := by
    clear tags
    induction slots generalizing m with
    | nil => exact .refl m
    | cons slot rest ih =>
        have marked : Quiet m (m.mark slot .released) := quiet_mark (by simp)
        exact marked.trans ih
  rw [foldl_mark] at marks
  rw [release_eq]
  refine { marks with tags := ?_ }
  intro tag member
  rcases List.mem_append.mp member with listed | due
  · exact tags tag listed
  · exact List.mem_append_right _ due

theorem quiet_take {qp : Qp} {slots : List Nat} {due : List Due}
    (listed : ∀ tag ∈ listTags qp, tag ∈ m.tags)
    (taken : ∀ each ∈ due, (each.addr, each.label) ∈ m.tags) :
    Quiet m ((m.release qp slots).addJobs [.complete due]) := by
  have released : Quiet m (m.release qp slots) := quiet_release listed
  have claims : ((m.release qp slots).addJobs [.complete due]).claims = (m.release qp slots).claims := rfl
  have tags : ∀ tag ∈ ((m.release qp slots).addJobs [.complete due]).tags, tag ∈ m.tags := by
    intro tag member
    rcases List.mem_append.mp member with list | jobs
    · exact released.tags tag (List.mem_append_left _ list)
    · rcases List.mem_append.mp jobs with own | other
      · obtain ⟨each, inside, rfl⟩ := List.mem_map.mp own
        exact taken each inside
      · exact released.tags tag (List.mem_append_right _ other)
  exact { released with claims := claims ▸ released.claims, owned := released.owned, tags }

theorem sendTags_of_keys {entries entries' : List SendEntry}
    (sub : ∀ key ∈ entries'.map sendKey, key ∈ entries.map sendKey) :
    ∀ tag ∈ entries'.map sendTag, tag ∈ entries.map sendTag := by
  intro tag member
  obtain ⟨entry, inside, rfl⟩ := List.mem_map.mp member
  obtain ⟨old, listed, same⟩ := List.mem_map.mp (sub _ (List.mem_map_of_mem inside))
  have tags : sendTag old = sendTag entry := congrArg (fun key => (key.1, key.2.1)) same
  exact tags ▸ List.mem_map_of_mem listed

theorem readTags_of_keys {entries entries' : List ReadEntry}
    (sub : ∀ key ∈ entries'.map readKey, key ∈ entries.map readKey) :
    ∀ tag ∈ entries'.map readTag, tag ∈ entries.map readTag := by
  intro tag member
  obtain ⟨entry, inside, rfl⟩ := List.mem_map.mp member
  obtain ⟨old, listed, same⟩ := List.mem_map.mp (sub _ (List.mem_map_of_mem inside))
  have tags : readTag old = readTag entry := congrArg (fun key => (key.1, key.2.1)) same
  exact tags ▸ List.mem_map_of_mem listed

theorem quiet_updateSend {f : SendCtx → SendCtx}
    (same : ∀ entry : SendEntry, sendKey (entry.1, f entry.2) = sendKey entry) :
    Quiet m (m.updateSend addr f) := by
  have stays : SendsStay m.qp (m.qp.updateSend (fun entry => entry.1 = addr) f) := sendsStay_updateSend same
  refine quiet_setQp fun tag member => List.mem_append_left _ ?_
  rcases List.mem_append.mp member with send | read
  · exact List.mem_append_left _ (sendTags_of_keys (fun key inside => stays.sends ▸ inside) tag send)
  · exact List.mem_append_right _ read

theorem quiet_takeSends {result : Qp × List SendEntry} (leave : SendsLeave m.qp result) :
    Quiet m (m.takeSends result) := by
  obtain ⟨left, keys, out, -⟩ := leave.front
  refine quiet_take ?_ ?_
  · intro tag member
    refine List.mem_append_left _ ?_
    rcases List.mem_append.mp member with send | read
    · refine List.mem_append_left _ (sendTags_of_keys (fun key inside => ?_) tag send)
      exact keys ▸ List.mem_append_right _ inside
    · exact List.mem_append_right _ (leave.reads ▸ read)
  · intro each member
    obtain ⟨entry, inside, rfl⟩ := List.mem_map.mp member
    have taken : sendTag entry ∈ left.map fun key => (key.1, key.2.1) := out ▸ List.mem_map_of_mem inside
    obtain ⟨key, kept, same⟩ := List.mem_map.mp taken
    obtain ⟨old, listed, rfl⟩ := List.mem_map.mp (keys ▸ List.mem_append_left _ kept)
    have tag : sendTag old = sendTag entry := same
    exact List.mem_append_left _ (List.mem_append_left _ (List.mem_map.mpr ⟨old, listed, tag⟩))

theorem quiet_takeReads {result : Qp × List ReadEntry} {status : ReadCtx → Option Errno}
    (leave : ReadsLeave m.qp result) : Quiet m (m.takeReads result status) := by
  obtain ⟨left, keys, out, -⟩ := leave.split
  refine quiet_take ?_ ?_
  · intro tag member
    refine List.mem_append_left _ ?_
    rcases List.mem_append.mp member with send | read
    · exact List.mem_append_left _ (leave.sends ▸ send)
    · refine List.mem_append_right _ (readTags_of_keys (fun key inside => ?_) tag read)
      exact keys.mem_iff.mpr (List.mem_append_right _ inside)
  · intro each member
    obtain ⟨entry, inside, rfl⟩ := List.mem_map.mp member
    have taken : readTag entry ∈ left.map fun key => (key.1, key.2.1) := out ▸ List.mem_map_of_mem inside
    obtain ⟨key, kept, same⟩ := List.mem_map.mp taken
    obtain ⟨old, listed, rfl⟩ := List.mem_map.mp (keys.mem_iff.mpr (List.mem_append_left _ kept))
    have tag : readTag old = readTag entry := same
    exact List.mem_append_left _ (List.mem_append_right _ (List.mem_map.mpr ⟨old, listed, tag⟩))

theorem quiet_transmit {psn more : Nat} : Quiet m (m.transmit addr psn more) := by
  have updated : Quiet m (m.updateSend addr fun send =>
    { send with txPending := send.txPending + (more + 1) }) := quiet_updateSend fun _ => rfl
  have claims : ∀ n, (List.replicate n (Job.sendTx addr psn)).flatMap Job.claims = [] := fun n => by
    simp [Job.claims]
  have owned : ∀ n, (List.replicate n (Job.sendTx addr psn)).flatMap Job.owned = [] := fun n => by
    simp [Job.owned, Job.claims]
  have tags : ∀ n, (List.replicate n (Job.sendTx addr psn)).flatMap Job.tags = [] := fun n => by
    simp [Job.tags, Job.owned, Job.claims]
  have cells : ∀ n, ∀ cell ∈ Nat.repeat (fun cells => Cell.retain cells addr) n m.cells,
      ∃ old ∈ m.cells, old.addr = cell.addr ∧ old.serial = cell.serial := by
    intro n
    induction n with
    | zero => exact fun cell member => ⟨cell, member, rfl, rfl⟩
    | succ n ih =>
        intro cell member
        obtain ⟨mid, inside, addr, serial⟩ := Cell.of_mem_retain member
        obtain ⟨old, live, addr', serial'⟩ := ih mid inside
        exact ⟨old, live, addr'.trans addr, serial'.trans serial⟩
  have sameClaims : (m.transmit addr psn more).claims = m.claims := by
    simp only [Machine.transmit, Machine.claims, List.flatMap_append, claims, List.nil_append]
  have sameOwned : (m.transmit addr psn more).owned = m.owned := by
    simp only [Machine.transmit, Machine.owned, List.flatMap_append, owned, List.nil_append]
  have fewerTags : ∀ tag ∈ (m.transmit addr psn more).tags, tag ∈ m.tags := by
    intro tag member
    simp only [Machine.transmit, Machine.tags, List.flatMap_append, tags, List.nil_append] at member
    exact updated.tags tag member
  exact { updated with
    cells := cells (more + 1)
    claims := .of_eq sameClaims
    owned := fun claim member => sameOwned ▸ member
    tags := fewerTags }

/-! ## The invariant -/

structure Reported (m : Machine) : Prop where
  nodup : (m.claims.map Claim.serial ++ m.returned.map Return.serial).Nodup
  bound : ∀ serial ∈ m.claims.map Claim.serial ++ m.returned.map Return.serial, serial < m.serials
  own : ∀ claim ∈ m.owned, ∃ cell ∈ m.cells, cell.addr = claim.addr ∧ cell.serial = claim.serial
  claimed : ∀ claim ∈ m.claims, m.labels claim.serial = claim.label ∧ .refused ∉ m.history claim.serial
  tags : ∀ tag ∈ m.tags, ∀ cell ∈ m.cells, cell.addr = tag.1 → m.labels cell.serial = tag.2
  completed : ∀ done ∈ m.completed, m.labels done.serial = done.label
  returned : ∀ back ∈ m.returned, m.labels back.serial = back.label ∧
    (back.error.isSome = true ↔ .refused ∈ m.history back.serial)

theorem Reported.quiet (reported : Reported m) (distinct : (m.cells.map Cell.addr).Nodup)
    (quiet : Quiet m m') (alive : ∀ claim ∈ m'.owned, ∃ cell ∈ m'.cells, cell.addr = claim.addr) :
    Reported m' := by
  have serials := quiet.claims.map Claim.serial
  constructor
  case nodup =>
    rw [quiet.returned]
    exact (serials.append_right _).nodup_iff.mpr reported.nodup
  case bound =>
    rw [quiet.returned, quiet.serials]
    exact fun serial member => reported.bound serial ((serials.append_right _).mem_iff.mp member)
  case own =>
    intro claim member
    obtain ⟨cell, inside, addr⟩ := alive claim member
    obtain ⟨old, live, sameAddr, sameSerial⟩ := quiet.cells cell inside
    obtain ⟨first, kept, firstAddr, firstSerial⟩ := reported.own claim (quiet.owned claim member)
    have same : first = old :=
      List.inj_on_of_nodup_map distinct kept live (firstAddr.trans (addr.symm.trans sameAddr.symm))
    exact ⟨cell, inside, addr, sameSerial.symm.trans (same ▸ firstSerial)⟩
  case claimed =>
    intro claim member
    rw [quiet.labels, quiet.refused]
    exact reported.claimed claim (quiet.claims.mem_iff.mp member)
  case tags =>
    intro tag member cell inside own
    obtain ⟨old, live, addr, serial⟩ := quiet.cells cell inside
    rw [quiet.labels, ← serial]
    exact reported.tags tag (quiet.tags tag member) old live (addr.trans own)
  case completed =>
    intro done member
    rw [quiet.labels]
    rcases quiet.completed done member with earlier | ⟨cell, live, serial, tag⟩
    · exact reported.completed done earlier
    · rw [← serial]
      exact reported.tags _ tag cell live rfl
  case returned =>
    intro back member
    rw [quiet.labels, quiet.refused]
    exact reported.returned back (quiet.returned ▸ member)

theorem claim_token {claim : Claim} (member : claim ∈ m.owned) :
    claim.addr ∈ m.ledger.pending + m.ledger.held := by
  obtain ⟨job, inside, own⟩ := List.mem_flatMap.mp member
  have place : claim.addr ∈ job.fresh ++ job.slots ++ job.due ++ job.held := by
    cases job with
    | post stage addr serial request =>
        cases stage with
        | linked => cases own
        | allocated | reserved | numbered | queued =>
            obtain rfl := List.mem_singleton.mp own
            simp [Job.fresh, Job.slots, Job.due, Job.held]
    | unwind addr serial ctx error =>
        obtain rfl := List.mem_singleton.mp own
        simp [Job.due]
    | _ => cases own
  simp only [List.mem_append] at place
  simp only [Ledger.pending, Machine.ledger, Multiset.mem_add, Multiset.mem_coe, List.mem_flatMap]
  rcases place with ((fresh | slot) | due) | held
  · exact .inl (.inl (.inl (.inl ⟨job, inside, fresh⟩)))
  · exact .inl (.inl (.inl (.inr ⟨job, inside, slot⟩)))
  · exact .inl (.inr ⟨job, inside, due⟩)
  · exact .inr ⟨job, inside, held⟩

theorem Reported.next (reported : Reported m) (distinct : (m.cells.map Cell.addr).Nodup)
    (quiet : Quiet m m') (after : Accounted m') : Reported m' :=
  reported.quiet distinct quiet fun claim member => after.balanced.live claim.addr (claim_token member)

/-! ## Posts -/

section Answers

variable {job : Job} {claim : Claim} {error : Option Errno} {history : History}

theorem claims_addJob (claims : job.claims = [claim]) : (m.addJobs [job]).claims = claim :: m.claims := by
  simp only [Machine.claims, Machine.addJobs, List.flatMap_cons, claims, List.singleton_append]

theorem Reported.answer (reported : Reported (m.addJobs [job])) (claims : job.claims = [claim])
    (result : error.isSome = true ↔ .refused ∈ history claim.serial)
    (others : ∀ serial ≠ claim.serial, history serial = m.history serial) :
    Reported ({ m with history }.return_ claim.serial claim.label error) := by
  have nodup := reported.nodup
  have bound := reported.bound
  have claimed := reported.claimed
  simp only [claims_addJob claims, List.map_cons, List.cons_append, List.nodup_cons, List.forall_mem_cons]
    at nodup bound claimed
  have apart : ∀ serial ∈ m.claims.map Claim.serial ++ m.returned.map Return.serial,
      serial ≠ claim.serial := fun serial member same => nodup.1 (same ▸ member)
  constructor
  case nodup =>
    change (m.claims.map Claim.serial ++ claim.serial :: m.returned.map Return.serial).Nodup
    rw [List.perm_middle.nodup_iff]
    exact List.nodup_cons.mpr nodup
  case bound =>
    change ∀ serial ∈ m.claims.map Claim.serial ++ claim.serial :: m.returned.map Return.serial,
      serial < m.serials
    intro serial member
    rcases List.mem_cons.mp (List.perm_middle.mem_iff.mp member) with rfl | other
    · exact bound.1
    · exact bound.2 serial other
  case own => exact fun each member => reported.own each (List.mem_append_right _ member)
  case claimed =>
    intro each member
    have other := apart each.serial (List.mem_append_left _ (List.mem_map_of_mem member))
    refine ⟨(claimed.2 each member).1, ?_⟩
    change .refused ∉ history each.serial
    rw [others each.serial other]
    exact (claimed.2 each member).2
  case tags =>
    intro tag member
    refine reported.tags tag ?_
    rcases List.mem_append.mp member with listed | due
    · exact List.mem_append_left _ listed
    · exact List.mem_append_right _ (List.mem_append_right _ due)
  case completed => exact reported.completed
  case returned =>
    intro back member
    rcases List.mem_cons.mp member with rfl | earlier
    · exact ⟨claimed.1.1, result⟩
    · have other := apart back.serial (List.mem_append_right _ (List.mem_map_of_mem earlier))
      change m.labels back.serial = back.label ∧ (back.error.isSome = true ↔ .refused ∈ history back.serial)
      rw [others back.serial other]
      exact reported.returned back earlier

theorem Reported.accepted (reported : Reported (m.addJobs [job])) (claims : job.claims = [claim]) :
    Reported (m.return_ claim.serial claim.label none) := by
  have claimed := (reported.claimed claim (claims_addJob claims ▸ List.mem_cons_self)).2
  have unrefused : (none : Option Errno).isSome = true ↔ .refused ∈ m.history claim.serial :=
    ⟨nofun, fun refused => absurd refused claimed⟩
  exact reported.answer claims unrefused fun _ _ => rfl

theorem Reported.refused (reported : Reported (m.addJobs [job])) (claims : job.claims = [claim])
    (serialAt : Cell.serialAt m.cells claim.addr = claim.serial) (errno : Errno) :
    Reported ((m.mark claim.addr .refused).return_ claim.serial claim.label (some errno)) := by
  refine reported.answer claims ?_ ?_
  · simp [serialAt, History.mark]
  · intro serial other
    rw [serialAt, History.mark, Function.update_of_ne other]

end Answers

theorem Accounted.serialAt {claim : Claim} (accounted : Accounted m) (reported : Reported m)
    (member : claim ∈ m.owned) : Cell.serialAt m.cells claim.addr = claim.serial := by
  obtain ⟨cell, live, addr, serial⟩ := reported.own claim member
  rw [← addr, ← serial]
  exact accounted.balanced.serialAt live

theorem tag_token {tag : Nat × Label} (member : tag ∈ m.tags) :
    tag.1 ∈ m.ledger.pending + m.ledger.held := by
  simp only [Machine.tags, listTags, List.mem_append, List.mem_map, List.mem_flatMap] at member
  rcases member with (⟨entry, inside, rfl⟩ | ⟨entry, inside, rfl⟩) | ⟨job, inside, own⟩
  · have listed : entry.1 ∈ addrs m.qp := List.mem_append_left _ (List.mem_map_of_mem inside)
    simp [Ledger.pending, Machine.ledger, sendTag, listed]
  · have listed : entry.1 ∈ addrs m.qp := List.mem_append_right _ (List.mem_map_of_mem inside)
    simp [Ledger.pending, Machine.ledger, readTag, listed]
  · cases job with
    | complete due =>
        obtain ⟨each, listed, rfl⟩ := List.mem_map.mp own
        have due : each.addr ∈ m.jobs.flatMap Job.due :=
          List.mem_flatMap.mpr ⟨_, inside, List.mem_map_of_mem listed⟩
        simp [Ledger.pending, Machine.ledger, due]
    | _ =>
        obtain ⟨claim, owned, rfl⟩ := List.mem_map.mp own
        exact claim_token (List.mem_flatMap.mpr ⟨_, inside, owned⟩)

theorem Reported.allocate (reported : Reported m) (accounted : Accounted m)
    (free : ∀ cell ∈ m.cells, cell.addr ≠ addr) : Reported (m.allocate addr request) := by
  have balanced := accounted.balanced
  have older : ∀ serial < m.serials, Function.update m.labels m.serials request.label serial =
      m.labels serial := fun serial below => Function.update_of_ne (Nat.ne_of_lt below) ..
  have bound := reported.bound
  have claimSerial : ∀ claim ∈ m.claims, claim.serial < m.serials := fun claim member =>
    bound _ (List.mem_append_left _ (List.mem_map_of_mem member))
  have backSerial : ∀ back ∈ m.returned, back.serial < m.serials := fun back member =>
    bound _ (List.mem_append_right _ (List.mem_map_of_mem member))
  have doneSerial : ∀ done ∈ m.completed, done.serial < m.serials := by
    intro done member
    by_contra beyond
    have none : m.history done.serial = [] := balanced.unborn done.serial (Nat.le_of_not_lt beyond)
    have log : (m.completed.map Done.serial).count done.serial = (m.history done.serial).count .completed :=
      balanced.log done.serial
    rw [none, List.count_nil, List.count_eq_zero] at log
    exact log (List.mem_map_of_mem member)
  constructor
  case nodup =>
    change (m.serials :: (m.claims.map Claim.serial ++ m.returned.map Return.serial)).Nodup
    refine List.nodup_cons.mpr ⟨fun again => ?_, reported.nodup⟩
    exact Nat.lt_irrefl _ (bound _ again)
  case bound =>
    intro serial member
    rcases List.mem_cons.mp member with rfl | old
    · exact Nat.lt_succ_self _
    · exact Nat.lt_succ_of_lt (bound serial old)
  case own =>
    intro claim member
    rcases List.mem_cons.mp member with rfl | old
    · exact ⟨_, List.mem_cons_self, rfl, rfl⟩
    · obtain ⟨cell, live, same⟩ := reported.own claim old
      exact ⟨cell, List.mem_cons_of_mem _ live, same⟩
  case claimed =>
    intro claim member
    rcases List.mem_cons.mp member with rfl | old
    · refine ⟨Function.update_self .., ?_⟩
      have none : m.history m.serials = [] := balanced.unborn _ (Nat.le_refl _)
      simp [Machine.allocate, none]
    · change Function.update m.labels m.serials request.label claim.serial = claim.label ∧ _
      rw [older _ (claimSerial claim old)]
      exact reported.claimed claim old
  case tags =>
    intro tag member cell inside own
    change Function.update m.labels m.serials request.label cell.serial = tag.2
    have earlier : tag ∈ m.tags ∨ tag = (addr, request.label) := by
      simp only [Machine.tags, Machine.allocate, List.flatMap_cons, Job.tags, List.mem_append] at member
      rcases member with listed | new | job
      · exact .inl (List.mem_append_left _ listed)
      · exact .inr (List.mem_singleton.mp new)
      · exact .inl (List.mem_append_right _ job)
    rcases List.mem_cons.mp inside with rfl | old
    · rcases earlier with known | rfl
      · obtain ⟨other, live, same⟩ := balanced.live tag.1 (tag_token known)
        exact absurd (same.trans own.symm) (free other live)
      · exact Function.update_self ..
    · rw [older _ (balanced.bound cell old)]
      rcases earlier with known | rfl
      · exact reported.tags tag known cell old own
      · exact absurd own (free cell old)
  case completed =>
    intro done member
    change Function.update m.labels m.serials request.label done.serial = done.label
    rw [older _ (doneSerial done member)]
    exact reported.completed done member
  case returned =>
    intro back member
    change Function.update m.labels m.serials request.label back.serial = back.label ∧ _
    rw [older _ (backSerial back member)]
    exact reported.returned back member

end ThunderboltVerbs.SendQueue
