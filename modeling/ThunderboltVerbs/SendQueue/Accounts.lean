import ThunderboltVerbs.SendQueue.Sections

/-!
# The accounts of the send queue

The machine is a ledger whose references are held by the lists and by the jobs.
-/

namespace ThunderboltVerbs.SendQueue
open Proto Lib Verbs

namespace Job

def fresh : Job → List Nat
  | .post .allocated addr _ _ => [addr]
  | _ => []

def slots : Job → List Nat
  | .post .reserved addr _ _ | .post .numbered addr _ _ => [addr]
  | _ => []

def due : Job → List Nat
  | .complete due => due.map Due.addr
  | .unwind addr _ _ _ => [addr]
  | _ => []

def held : Job → List Nat
  | .post .queued addr _ _ | .sendTx addr _ | .sendTxFailed addr _ _ | .readTx addr
  | .readResp addr | .leaving addr | .retry addr _ | .repost addr _ _ => [addr]
  | _ => []

def Flagged : Job → Prop
  | .post .allocated _ _ request => request.sqCounted = false
  | .post .reserved _ _ request | .post .numbered _ _ request => request.sqCounted = true
  | _ => True

end Job

def addrs (qp : Qp) : List Nat := qp.pendingSends.map Prod.fst ++ qp.pendingReads.map Prod.fst

def Machine.ledger (m : Machine) : Ledger where
  cells := m.cells
  fresh := ↑(m.jobs.flatMap Job.fresh)
  slots := ↑(m.jobs.flatMap Job.slots)
  listed := ↑(addrs m.qp)
  due := ↑(m.jobs.flatMap Job.due)
  held := ↑(m.jobs.flatMap Job.held)
  count := m.qp.sendqCount
  max := m.qp.maxSendWr
  serials := m.serials
  history := m.history
  completed := m.completed.map Done.serial

structure Accounted (m : Machine) : Prop where
  balanced : m.ledger.Balanced
  sends : ∀ entry ∈ m.qp.pendingSends, entry.2.sqCounted = true
  reads : ∀ entry ∈ m.qp.pendingReads, entry.2.sqCounted = true
  jobs : ∀ job ∈ m.jobs, job.Flagged
  warned : m.warned = false

variable {m m' : Machine} {addr serial : Nat} {request : Request} {rest : List Job}

theorem ledger_perm {jobs : List Job} (perm : jobs.Perm m.jobs) :
    { m with jobs }.ledger = m.ledger := by
  have flat : ∀ f : Job → List Nat, (↑(jobs.flatMap f) : Multiset Nat) = ↑(m.jobs.flatMap f) :=
    fun f => Multiset.coe_eq_coe.mpr (perm.flatMap_right f)
  simp only [Machine.ledger, flat]

theorem Accounted.perm {jobs : List Job} (accounted : Accounted m) (perm : jobs.Perm m.jobs) :
    Accounted { m with jobs } where
  balanced := ledger_perm perm ▸ accounted.balanced
  sends := accounted.sends
  reads := accounted.reads
  jobs := fun job member => accounted.jobs job (perm.mem_iff.mp member)
  warned := accounted.warned

theorem Accounted.become {old new : Job} (accounted : Accounted (m.addJobs [old]))
    (fresh : new.fresh = old.fresh) (slots : new.slots = old.slots) (due : new.due = old.due)
    (held : new.held = old.held) (flagged : new.Flagged) : Accounted (m.addJobs [new]) := by
  have same : (m.addJobs [new]).ledger = (m.addJobs [old]).ledger := by
    simp only [Machine.ledger, Machine.addJobs, List.flatMap_append, List.flatMap_cons, List.flatMap_nil,
      fresh, slots, due, held]
  refine ⟨same ▸ accounted.balanced, accounted.sends, accounted.reads, ?_, accounted.warned⟩
  intro job member
  rcases List.mem_cons.mp member with rfl | other
  · exact flagged
  · exact accounted.jobs job (List.mem_cons_of_mem _ other)

theorem Accounted.remember {new : Job} (accounted : Accounted m) (fresh : new.fresh = [])
    (slots : new.slots = []) (due : new.due = []) (held : new.held = []) (flagged : new.Flagged) :
    Accounted (m.addJobs [new]) := by
  have same : (m.addJobs [new]).ledger = m.ledger := by
    simp only [Machine.ledger, Machine.addJobs, List.flatMap_append, List.flatMap_cons, List.flatMap_nil,
      fresh, slots, due, held, List.nil_append]
  refine ⟨same ▸ accounted.balanced, accounted.sends, accounted.reads, ?_, accounted.warned⟩
  intro job member
  rcases List.mem_cons.mp member with rfl | other
  · exact flagged
  · exact accounted.jobs job other

theorem Accounted.forget {old : Job} (accounted : Accounted (m.addJobs [old])) (fresh : old.fresh = [])
    (slots : old.slots = []) (due : old.due = []) (held : old.held = []) : Accounted m := by
  have same : (m.addJobs [old]).ledger = m.ledger := by
    simp only [Machine.ledger, Machine.addJobs, List.flatMap_append, List.flatMap_cons, List.flatMap_nil,
      fresh, slots, due, held, List.nil_append]
  exact ⟨same ▸ accounted.balanced, accounted.sends, accounted.reads,
    fun job member => accounted.jobs job (List.mem_cons_of_mem _ member), accounted.warned⟩

theorem Accounted.drop (accounted : Accounted (m.addJobs [.leaving addr])) : Accounted (m.drop addr) where
  balanced := accounted.balanced.drop (show _ = addr ::ₘ ↑(m.jobs.flatMap Job.held) from rfl)
  sends := accounted.sends
  reads := accounted.reads
  jobs := fun job member => accounted.jobs job (List.mem_cons_of_mem _ member)
  warned := accounted.warned

theorem Accounted.retain (accounted : Accounted m) (live : ∃ cell ∈ m.cells, cell.addr = addr) :
    Accounted ((m.retain addr).addJobs [.leaving addr]) where
  balanced := accounted.balanced.retain live
  sends := accounted.sends
  reads := accounted.reads
  jobs := by
    intro job member
    rcases List.mem_cons.mp member with rfl | other
    · trivial
    · exact accounted.jobs job other
  warned := accounted.warned

theorem Accounted.live (accounted : Accounted m) (listed : addr ∈ addrs m.qp) :
    ∃ cell ∈ m.cells, cell.addr = addr :=
  accounted.balanced.live addr (by simp [Ledger.pending, Machine.ledger, listed])

theorem Accounted.setQp {qp : Qp} (accounted : Accounted m) (same : addrs qp = addrs m.qp)
    (count : qp.sendqCount = m.qp.sendqCount) (maxSendWr : qp.maxSendWr = m.qp.maxSendWr)
    (sends : ∀ entry ∈ qp.pendingSends, entry.2.sqCounted = true)
    (reads : ∀ entry ∈ qp.pendingReads, entry.2.sqCounted = true) : Accounted { m with qp } where
  balanced := by
    have ledger : { m with qp }.ledger = m.ledger := by
      simp only [Machine.ledger, same, count, maxSendWr]
    exact ledger ▸ accounted.balanced
  sends := sends
  reads := reads
  jobs := accounted.jobs
  warned := accounted.warned

theorem addrs_of_keys {qp qp' : Qp} (sends : qp'.pendingSends.map sendKey = qp.pendingSends.map sendKey)
    (reads : qp'.pendingReads.map readKey = qp.pendingReads.map readKey) : addrs qp' = addrs qp := by
  have sendAddrs := congrArg (List.map Prod.fst) sends
  have readAddrs := congrArg (List.map Prod.fst) reads
  simp only [List.map_map] at sendAddrs readAddrs
  exact congrArg₂ (· ++ ·) sendAddrs readAddrs

theorem counted_of_keys {entries entries' : List SendEntry}
    (sub : ∀ key ∈ entries'.map sendKey, key ∈ entries.map sendKey)
    (counted : ∀ entry ∈ entries, entry.2.sqCounted = true) :
    ∀ entry ∈ entries', entry.2.sqCounted = true := by
  intro entry member
  obtain ⟨old, inside, same⟩ := List.mem_map.mp (sub _ (List.mem_map_of_mem member))
  have flag : old.2.sqCounted = entry.2.sqCounted := congrArg (fun key => key.2.2.2) same
  exact flag ▸ counted old inside

theorem counted_of_readKeys {entries entries' : List ReadEntry}
    (sub : ∀ key ∈ entries'.map readKey, key ∈ entries.map readKey)
    (counted : ∀ entry ∈ entries, entry.2.sqCounted = true) :
    ∀ entry ∈ entries', entry.2.sqCounted = true := by
  intro entry member
  obtain ⟨old, inside, same⟩ := List.mem_map.mp (sub _ (List.mem_map_of_mem member))
  have flag : old.2.sqCounted = entry.2.sqCounted := congrArg (fun key => key.2.2) same
  exact flag ▸ counted old inside

theorem Accounted.stay {qp : Qp} (accounted : Accounted m) (stays : SendsStay m.qp qp) :
    Accounted { m with qp } := by
  refine accounted.setQp (addrs_of_keys stays.sends (by rw [stays.reads])) stays.count stays.maxSendWr ?_ ?_
  · exact counted_of_keys (fun key member => stays.sends ▸ member) accounted.sends
  · exact stays.reads ▸ accounted.reads

/-! ## Slots are released -/

theorem foldl_mark (slots : List Nat) (mark : Mark) :
    slots.foldl (fun m addr => m.mark addr mark) m =
      { m with
        history := slots.foldl
          (fun history addr => history.mark (Cell.serialAt m.cells addr) mark) m.history } := by
  induction slots generalizing m with
  | nil => rfl
  | cons addr rest ih => exact ih

theorem release_eq (qp : Qp) (slots : List Nat) : m.release qp slots =
    { m with
      qp
      history := slots.foldl
        (fun history addr => history.mark (Cell.serialAt m.cells addr) .released) m.history
      warned := m.warned || decide (m.qp.sendqCount < slots.length) } := by
  simp only [Machine.release, foldl_mark]

theorem Accounted.nodup_addrs (accounted : Accounted m) : (addrs m.qp).Nodup := by
  have exclusive := accounted.balanced.exclusive
  simp only [Ledger.pending] at exclusive
  have listed : m.ledger.listed.Nodup := Multiset.nodup_of_le
    ((Multiset.le_add_left _ _).trans (Multiset.le_add_right _ _)) exclusive
  exact Multiset.coe_nodup.mp listed

theorem Accounted.enough (accounted : Accounted m) {left right : List Nat}
    (here : (addrs m.qp).Perm (left ++ right)) : left.length ≤ m.qp.sendqCount := by
  have size := accounted.balanced.size
  have length := here.length_eq
  simp only [Machine.ledger, Multiset.coe_card, List.length_append] at size length
  omega

theorem filter_left {all left right : List Nat} (nodup : all.Nodup) (split : all.Perm (left ++ right)) :
    (all.filter fun addr => left.contains addr).Perm left := by
  have disjoint := (List.nodup_append.mp (split.nodup_iff.mp nodup)).2.2
  have kept : (left ++ right).filter (fun addr => left.contains addr) = left := by
    rw [List.filter_append, List.filter_eq_self.mpr fun addr inside => by simpa using inside,
      List.filter_eq_nil_iff.mpr, List.append_nil]
    intro addr outside inside
    exact disjoint addr (by simpa using inside) addr outside rfl
  exact (split.filter _).trans (.of_eq kept)

theorem sendSlots_perm {qp : Qp} {left right : List Nat}
    (counted : ∀ entry ∈ qp.pendingSends, entry.2.sqCounted = true)
    (nodup : (qp.pendingSends.map Prod.fst).Nodup)
    (split : (qp.pendingSends.map Prod.fst).Perm (left ++ right)) :
    (Machine.sendSlots qp left).Perm left := by
  have same : Machine.sendSlots qp left =
      (qp.pendingSends.map Prod.fst).filter fun addr => left.contains addr := by
    rw [Machine.sendSlots, List.filter_map]
    congr 1
    apply List.filter_congr
    intro entry member
    simp [counted entry member]
  exact same ▸ filter_left nodup split

theorem readSlots_perm {qp : Qp} {left right : List Nat}
    (counted : ∀ entry ∈ qp.pendingReads, entry.2.sqCounted = true)
    (nodup : (qp.pendingReads.map Prod.fst).Nodup)
    (split : (qp.pendingReads.map Prod.fst).Perm (left ++ right)) :
    (Machine.readSlots qp left).Perm left := by
  have same : Machine.readSlots qp left =
      (qp.pendingReads.map Prod.fst).filter fun addr => left.contains addr := by
    rw [Machine.readSlots, List.filter_map]
    congr 1
    apply List.filter_congr
    intro entry member
    simp [counted entry member]
  exact same ▸ filter_left nodup split

theorem Accounted.take {qp : Qp} {slots : List Nat} {due : List Due} (accounted : Accounted m)
    (split : (addrs m.qp).Perm (slots ++ addrs qp)) (dueSlots : slots.Perm (due.map Due.addr))
    (count : qp.sendqCount = m.qp.sendqCount - slots.length) (maxSendWr : qp.maxSendWr = m.qp.maxSendWr)
    (sends : ∀ entry ∈ qp.pendingSends, entry.2.sqCounted = true)
    (reads : ∀ entry ∈ qp.pendingReads, entry.2.sqCounted = true) :
    Accounted ((m.release qp slots).addJobs [.complete due]) := by
  have here : m.ledger.listed = ↑slots + ↑(addrs qp) := by
    rw [Multiset.coe_add]
    exact Multiset.coe_eq_coe.mpr split
  have taken := accounted.balanced.moves (accounted.balanced.takes here)
  have same : (↑slots : Multiset Nat) = ↑(due.map Due.addr) := Multiset.coe_eq_coe.mpr dueSlots
  rw [release_eq]
  constructor
  case balanced =>
    simp only [Machine.ledger, Machine.addJobs, List.flatMap_append, List.flatMap_cons, List.flatMap_nil,
      Job.fresh, Job.slots, Job.due, Job.held, List.nil_append, List.append_nil, ← Multiset.coe_add,
      count, maxSendWr, same] at taken ⊢
    exact taken
  case sends => exact sends
  case reads => exact reads
  case jobs =>
    intro job member
    rcases List.mem_cons.mp member with rfl | other
    · trivial
    · exact accounted.jobs job other
  case warned =>
    have enough := accounted.enough split
    simp only [Machine.addJobs, accounted.warned, Bool.false_or, decide_eq_false_iff_not]
    omega

theorem Accounted.takeSends {result : Qp × List SendEntry} (accounted : Accounted m)
    (leave : SendsLeave m.qp result) : Accounted (m.takeSends result) := by
  obtain ⟨left, keys, out, count⟩ := leave.front
  have nodup := accounted.nodup_addrs
  have outAddrs : result.2.map Prod.fst = left.map Prod.fst := by
    have mapped := congrArg (List.map Prod.fst) out
    rw [List.map_map, List.map_map] at mapped
    exact mapped
  have sendAddrs := leave.addrs
  have slots : (Machine.sendSlots m.qp (result.2.map Prod.fst)).Perm (result.2.map Prod.fst) :=
    sendSlots_perm accounted.sends (List.nodup_append.mp nodup).1 (.of_eq sendAddrs)
  have split : (addrs m.qp).Perm (Machine.sendSlots m.qp (result.2.map Prod.fst) ++ addrs result.1) := by
    rw [addrs, addrs, sendAddrs, leave.reads, List.append_assoc]
    exact slots.symm.append_right _
  have all : left.countP (fun key => key.2.2.2) = left.length := by
    rw [List.countP_eq_length]
    intro key inside
    obtain ⟨entry, member, rfl⟩ := List.mem_map.mp (keys ▸ List.mem_append_left _ inside)
    exact accounted.sends entry member
  refine accounted.take split ?_ ?_ leave.maxSendWr ?_ (leave.reads ▸ accounted.reads)
  · rw [List.map_map]
    exact slots
  · rw [count, all, slots.length_eq, outAddrs, List.length_map]
  · exact counted_of_keys (fun key member => keys ▸ List.mem_append_right _ member) accounted.sends

theorem Accounted.takeReads {result : Qp × List ReadEntry} {status : ReadCtx → Option Errno}
    (accounted : Accounted m) (leave : ReadsLeave m.qp result) : Accounted (m.takeReads result status) := by
  obtain ⟨left, keys, out, count⟩ := leave.split
  have nodup := accounted.nodup_addrs
  have outAddrs : result.2.map Prod.fst = left.map Prod.fst := by
    have mapped := congrArg (List.map Prod.fst) out
    rw [List.map_map, List.map_map] at mapped
    exact mapped
  have readAddrs : (m.qp.pendingReads.map Prod.fst).Perm
      (result.2.map Prod.fst ++ result.1.pendingReads.map Prod.fst) := by
    have mapped := keys.map Prod.fst
    rw [List.map_append, List.map_map, List.map_map, ← outAddrs] at mapped
    exact mapped
  have slots : (Machine.readSlots m.qp (result.2.map Prod.fst)).Perm (result.2.map Prod.fst) :=
    readSlots_perm accounted.reads (List.nodup_append.mp nodup).2.1 readAddrs
  have split : (addrs m.qp).Perm (Machine.readSlots m.qp (result.2.map Prod.fst) ++ addrs result.1) := by
    rw [addrs, addrs, leave.sends]
    refine (readAddrs.append_left _).trans ?_
    rw [← List.append_assoc, ← List.append_assoc]
    exact (List.perm_append_comm.trans (slots.symm.append_right _)).append_right _
  have all : left.countP (fun key => key.2.2) = left.length := by
    rw [List.countP_eq_length]
    intro key inside
    obtain ⟨entry, member, rfl⟩ := List.mem_map.mp (keys.mem_iff.mpr (List.mem_append_left _ inside))
    exact accounted.reads entry member
  refine accounted.take split ?_ ?_ leave.maxSendWr (leave.sends ▸ accounted.sends) ?_
  · rw [List.map_map]
    exact slots
  · rw [count, all, slots.length_eq, outAddrs, List.length_map]
  · exact counted_of_readKeys (fun key member => keys.mem_iff.mpr (List.mem_append_right _ member))
      accounted.reads

/-! ## Posts -/

theorem Accounted.front (accounted : Accounted (m.addJobs [.post .allocated addr serial request])) :
    ∃ cell ∈ m.cells, cell.addr = addr :=
  accounted.balanced.live addr
    (by simp [Ledger.pending, Machine.ledger, Machine.addJobs, Job.fresh])

theorem Accounted.allocate (accounted : Accounted m) (free : ∀ cell ∈ m.cells, cell.addr ≠ addr)
    (flagged : request.sqCounted = false) : Accounted (m.allocate addr request) where
  balanced := accounted.balanced.allocate free
  sends := accounted.sends
  reads := accounted.reads
  jobs := by
    intro job member
    rcases List.mem_cons.mp member with rfl | other
    · exact flagged
    · exact accounted.jobs job other
  warned := accounted.warned

theorem reserveSendq_room {qp qp' : Qp} (reserve : qp.reserveSendq = .ok qp') :
    qp.sendqCount < qp.maxSendWr := by
  simp only [Qp.reserveSendq] at reserve
  split at reserve
  · cases reserve
  · split at reserve
    · cases reserve
    · omega

@[simp] theorem sqCounted_setCounted (request : Request) (counted : Bool) :
    (request.setCounted counted).sqCounted = counted := by
  cases request <;> rfl

@[simp] theorem sqCounted_setPsn (request : Request) (psn : Nat) :
    (request.setPsn psn).sqCounted = request.sqCounted := by
  cases request <;> rfl

theorem Accounted.reserve {qp : Qp}
    (accounted : Accounted (m.addJobs [.post .allocated addr serial request]))
    (reserve : m.qp.reserveSendq = .ok qp) :
    Accounted ({ m.mark addr .reserved with qp }.addJobs
      [.post .reserved addr serial (request.setCounted true)]) := by
  obtain ⟨cell, live, rfl⟩ := accounted.front
  have balanced := accounted.balanced
  have serialAt : Cell.serialAt m.cells cell.addr = cell.serial := balanced.serialAt live
  obtain rfl := reserveSendq_eq reserve
  constructor
  case balanced =>
    have here : (m.addJobs [.post .allocated cell.addr serial request]).ledger.fresh =
      cell.addr ::ₘ ↑(m.jobs.flatMap Job.fresh) := rfl
    have reserved := balanced.reserve live here (reserveSendq_room reserve)
    rw [← serialAt] at reserved
    exact reserved
  case sends => exact accounted.sends
  case reads => exact accounted.reads
  case jobs =>
    intro job member
    rcases List.mem_cons.mp member with rfl | other
    · exact sqCounted_setCounted request true
    · exact accounted.jobs job (List.mem_cons_of_mem _ other)
  case warned => exact accounted.warned

theorem Accounted.refuseFresh
    (accounted : Accounted (m.addJobs [.post .allocated addr serial request])) :
    Accounted ((m.mark addr .refused).addJobs [.leaving addr]) := by
  obtain ⟨cell, live, rfl⟩ := accounted.front
  have balanced := accounted.balanced
  have serialAt : Cell.serialAt m.cells cell.addr = cell.serial := balanced.serialAt live
  constructor
  case balanced =>
    have here : (m.addJobs [.post .allocated cell.addr serial request]).ledger.fresh =
      cell.addr ::ₘ ↑(m.jobs.flatMap Job.fresh) := rfl
    have refused := balanced.refuseFresh live here
    rw [← serialAt] at refused
    exact refused
  case sends => exact accounted.sends
  case reads => exact accounted.reads
  case jobs =>
    intro job member
    rcases List.mem_cons.mp member with rfl | other
    · trivial
    · exact accounted.jobs job (List.mem_cons_of_mem _ other)
  case warned => exact accounted.warned

theorem Accounted.refuseSlot
    (accounted : Accounted (m.addJobs [.post .numbered addr serial request])) :
    Accounted (((m.release m.qp.releaseSendq [addr]).mark addr .refused).addJobs [.leaving addr]) := by
  have balanced := accounted.balanced
  obtain ⟨cell, live, rfl⟩ : ∃ cell ∈ m.cells, cell.addr = addr := balanced.live addr
    (by simp [Ledger.pending, Machine.ledger, Machine.addJobs, Job.slots])
  have serialAt : Cell.serialAt m.cells cell.addr = cell.serial := balanced.serialAt live
  constructor
  case balanced =>
    have here : (m.addJobs [.post .numbered cell.addr serial request]).ledger.slots =
      cell.addr ::ₘ ↑(m.jobs.flatMap Job.slots) := rfl
    have refused := balanced.refuseSlot live here
    rw [← serialAt] at refused
    exact refused
  case sends => exact accounted.sends
  case reads => exact accounted.reads
  case jobs =>
    intro job member
    rcases List.mem_cons.mp member with rfl | other
    · trivial
    · exact accounted.jobs job (List.mem_cons_of_mem _ other)
  case warned =>
    have size := balanced.size
    have positive : 0 < m.qp.sendqCount := by
      simp only [Machine.ledger, Machine.addJobs, List.flatMap_append, List.flatMap_cons, Job.slots,
        Multiset.coe_card, List.length_append, List.length_singleton] at size
      simp only [List.flatMap_nil] at size
      omega
    have warned : m.warned = false := accounted.warned
    simp only [Machine.addJobs, Machine.mark, Machine.release, List.foldl_cons, List.foldl_nil, warned,
      Bool.false_or, List.length_singleton, decide_eq_false_iff_not]
    omega

theorem Accounted.queueSend {ctx : SendCtx} {credit : Bool}
    (accounted : Accounted (m.addJobs [.post .numbered addr serial (.send ctx credit)])) :
    Accounted { m with qp := m.qp.queueSend addr ctx } := by
  have here : (m.addJobs [.post .numbered addr serial (.send ctx credit)]).ledger.slots =
    addr ::ₘ ↑(m.jobs.flatMap Job.slots) := rfl
  have linked := accounted.balanced.link here
  have order : addrs (m.qp.queueSend addr ctx) =
      m.qp.pendingSends.map Prod.fst ++ addr :: m.qp.pendingReads.map Prod.fst := by
    simp [addrs, Qp.queueSend]
  have listed : (↑(addrs (m.qp.queueSend addr ctx)) : Multiset Nat) = addr ::ₘ ↑(addrs m.qp) := by
    rw [order, Multiset.cons_coe]
    exact Multiset.coe_eq_coe.mpr List.perm_middle
  constructor
  case balanced =>
    simp only [Machine.ledger]
    rw [listed]
    exact linked
  case sends =>
    intro entry member
    rcases List.mem_append.mp member with old | new
    · exact accounted.sends entry old
    · obtain rfl := List.mem_singleton.mp new
      exact accounted.jobs _ List.mem_cons_self
  case reads => exact accounted.reads
  case jobs => exact fun job member => accounted.jobs job (List.mem_cons_of_mem _ member)
  case warned => exact accounted.warned

theorem Accounted.queueRead {ctx : ReadCtx}
    (accounted : Accounted (m.addJobs [.post .numbered addr serial (.read ctx)])) :
    Accounted { m with qp := m.qp.queueRead addr ctx } := by
  have here : (m.addJobs [.post .numbered addr serial (.read ctx)]).ledger.slots =
    addr ::ₘ ↑(m.jobs.flatMap Job.slots) := rfl
  have linked := accounted.balanced.link here
  have order : addrs (m.qp.queueRead addr ctx) = addrs m.qp ++ [addr] := by
    simp [addrs, Qp.queueRead]
  have listed : (↑(addrs (m.qp.queueRead addr ctx)) : Multiset Nat) = addr ::ₘ ↑(addrs m.qp) := by
    rw [order, Multiset.cons_coe]
    exact Multiset.coe_eq_coe.mpr (List.perm_append_singleton ..)
  constructor
  case balanced =>
    simp only [Machine.ledger]
    rw [listed]
    exact linked
  case sends => exact accounted.sends
  case reads =>
    intro entry member
    rcases List.mem_append.mp member with old | new
    · exact accounted.reads entry old
    · obtain rfl := List.mem_singleton.mp new
      exact accounted.jobs _ List.mem_cons_self
  case jobs => exact fun job member => accounted.jobs job (List.mem_cons_of_mem _ member)
  case warned => exact accounted.warned

theorem Accounted.refuseListed {qp : Qp} (accounted : Accounted m)
    (split : (addrs m.qp).Perm (addr :: addrs qp)) (count : qp.sendqCount = m.qp.sendqCount - 1)
    (maxSendWr : qp.maxSendWr = m.qp.maxSendWr)
    (sends : ∀ entry ∈ qp.pendingSends, entry.2.sqCounted = true)
    (reads : ∀ entry ∈ qp.pendingReads, entry.2.sqCounted = true) :
    Accounted (((m.release qp [addr]).mark addr .refused).addJobs [.leaving addr]) := by
  have balanced := accounted.balanced
  obtain ⟨cell, live, rfl⟩ := accounted.live (split.mem_iff.mpr List.mem_cons_self)
  have serialAt : Cell.serialAt m.cells cell.addr = cell.serial := balanced.serialAt live
  have here : m.ledger.listed = cell.addr ::ₘ ↑(addrs qp) := by
    rw [Multiset.cons_coe]
    exact Multiset.coe_eq_coe.mpr split
  constructor
  case balanced =>
    have refused := balanced.refuseListed live here
    rw [← serialAt] at refused
    simp only [Machine.ledger, Machine.addJobs, Machine.mark, release_eq, count, maxSendWr]
    exact refused
  case sends => exact sends
  case reads => exact reads
  case jobs =>
    intro job member
    rcases List.mem_cons.mp member with rfl | other
    · trivial
    · exact accounted.jobs job other
  case warned =>
    have enough : [cell.addr].length ≤ m.qp.sendqCount := accounted.enough split
    rw [List.length_singleton] at enough
    simp only [Machine.addJobs, Machine.mark, Machine.release, List.foldl_cons, List.foldl_nil,
      accounted.warned, Bool.false_or, List.length_singleton, decide_eq_false_iff_not]
    omega

/-! ## Completions -/

theorem Accounted.found (accounted : Accounted m) (pending : addr ∈ m.ledger.pending) :
    ∃ cell ∈ m.cells, cell.addr = addr ∧ (m.cells.find? fun each => each.addr = addr) = some cell ∧
      cell.completed = false ∧ Cell.serialAt m.cells addr = cell.serial := by
  have balanced := accounted.balanced
  obtain ⟨cell, live, rfl⟩ := balanced.live addr (Multiset.mem_add.mpr (.inl pending))
  refine ⟨cell, live, rfl, ?_, balanced.open_ cell live pending, balanced.serialAt live⟩
  cases result : m.cells.find? fun each => each.addr = cell.addr with
  | none => exact absurd (List.find?_eq_none.mp result cell live) (by simp)
  | some other =>
      have equal : other.addr = cell.addr := by simpa using List.find?_some result
      rw [balanced.eq_of_addr (List.mem_of_find?_eq_some result) live equal]

theorem Accounted.finish {due : Due} {others : List Due}
    (accounted : Accounted (m.addJobs [.complete (due :: others)])) :
    Accounted ((m.finish due).addJobs [.leaving due.addr, .complete others]) := by
  have balanced := accounted.balanced
  have pending : due.addr ∈ (m.addJobs [.complete (due :: others)]).ledger.pending := by
    simp [Ledger.pending, Machine.ledger, Machine.addJobs, Job.due]
  obtain ⟨cell, live, same, found, unfinished, serialAt⟩ := accounted.found pending
  simp only [Machine.addJobs] at found serialAt
  have here : (m.addJobs [.complete (due :: others)]).ledger.due =
      cell.addr ::ₘ ↑(others.map Due.addr ++ m.jobs.flatMap Job.due) := by
    rw [same]
    rfl
  have completed := balanced.complete live here
  rw [same] at completed
  simp only [Machine.finish, found, unfinished, Bool.false_eq_true, if_false]
  constructor
  case balanced =>
    simp only [Machine.ledger, Machine.addJobs, Machine.mark, serialAt, List.map_append]
    exact completed
  case sends => exact accounted.sends
  case reads => exact accounted.reads
  case jobs =>
    intro job member
    simp only [Machine.addJobs, List.cons_append, List.nil_append, List.mem_cons] at member
    rcases member with rfl | rfl | other
    · trivial
    · trivial
    · exact accounted.jobs job (List.mem_cons_of_mem _ other)
  case warned => exact accounted.warned

end ThunderboltVerbs.SendQueue
