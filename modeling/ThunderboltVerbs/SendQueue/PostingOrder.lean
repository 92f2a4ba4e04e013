import ThunderboltVerbs.SendQueue.Slots

/-!
# Completions and the order of posting

Sends and reads wait on a list each. The requests of one kind that are completed, taken off their list,
listed and being posted stand in one line, and every step moves the bounds between them.
-/

namespace ThunderboltVerbs.SendQueue
open Proto Lib Verbs

def Request.isRead : Request → Bool
  | .send .. => false
  | .read _ => true

namespace Job

def dueOf (read : Bool) : Job → List Nat
  | .complete due => (due.filter fun each => each.read = read).map Due.addr
  | _ => []

def starting (read : Bool) : Job → List (Nat × Nat)
  | .post .allocated addr serial request | .post .reserved addr serial request
  | .post .numbered addr serial request => if request.isRead = read then [(addr, serial)] else []
  | _ => []

end Job

def listedOf : Bool → Qp → List Nat
  | false, qp => qp.pendingSends.map Prod.fst
  | true, qp => qp.pendingReads.map Prod.fst

namespace Machine

def dues (read : Bool) (m : Machine) : List (List Nat) :=
  (m.jobs.map (Job.dueOf read)).filter fun due => !due.isEmpty

def starting (read : Bool) (m : Machine) : List (Nat × Nat) := m.jobs.flatMap (Job.starting read)

/-- The contexts that are taken off the list, and those that are on it. -/
def queue (read : Bool) (m : Machine) : List Nat := (m.dues read).flatten ++ listedOf read m.qp

def completedOf (read : Bool) (m : Machine) : List Done := m.completed.filter fun done => done.read = read

def line (read : Bool) (m : Machine) : List Nat :=
  (m.completedOf read).map Done.serial ++ (m.queue read).map (Cell.serialAt m.cells) ++
    (m.starting read).map Prod.snd

end Machine

structure InLine (read : Bool) (m : Machine) : Prop where
  rising : (m.line read).Pairwise (· < ·)
  below : ∀ serial ∈ m.line read, serial < m.serials
  handler : (m.dues read).length ≤ 1
  poster : (m.starting read).length ≤ 1
  own : ∀ start ∈ m.starting read, ∃ cell ∈ m.cells, cell.addr = start.1 ∧ cell.serial = start.2

variable {read : Bool} {m m' m'' : Machine} {addr serial : Nat} {request : Request}

/-! ## Steps that keep the line -/

structure Flows (read : Bool) (m m' : Machine) : Prop where
  cells : ∀ cell ∈ m'.cells, ∃ old ∈ m.cells, old.addr = cell.addr ∧ old.serial = cell.serial
  completed : m'.completedOf read = m.completedOf read
  queue : (m'.queue read).Sublist (m.queue read)
  dues : (m.dues read).length ≤ 1 → (m'.dues read).length ≤ 1
  starting : (m'.starting read).Sublist (m.starting read)
  serials : m'.serials = m.serials

theorem Flows.refl (read : Bool) (m : Machine) : Flows read m m where
  cells := fun cell member => ⟨cell, member, rfl, rfl⟩
  completed := rfl
  queue := .refl _
  dues := id
  starting := .refl _
  serials := rfl

theorem Flows.trans (first : Flows read m m') (second : Flows read m' m'') : Flows read m m'' where
  cells := by
    intro cell member
    obtain ⟨mid, inside, addr, serial⟩ := second.cells cell member
    obtain ⟨old, live, addr', serial'⟩ := first.cells mid inside
    exact ⟨old, live, addr'.trans addr, serial'.trans serial⟩
  completed := second.completed.trans first.completed
  queue := second.queue.trans first.queue
  dues := fun one => second.dues (first.dues one)
  starting := second.starting.trans first.starting
  serials := second.serials.trans first.serials

theorem queue_token (member : addr ∈ m.queue read) : addr ∈ m.ledger.pending := by
  simp only [Ledger.pending, Machine.ledger, Multiset.mem_add, Multiset.mem_coe]
  rcases List.mem_append.mp member with due | listed
  · obtain ⟨list, inside, own⟩ := List.mem_flatten.mp due
    obtain ⟨job, here, rfl⟩ := List.mem_map.mp (List.mem_filter.mp inside).1
    refine .inr (List.mem_flatMap.mpr ⟨job, here, ?_⟩)
    cases job with
    | complete due =>
        obtain ⟨each, kept, rfl⟩ := List.mem_map.mp own
        exact List.mem_map_of_mem (List.mem_filter.mp kept).1
    | _ => cases own
  · refine .inl (.inr ?_)
    cases read with
    | false => exact List.mem_append_left _ listed
    | true => exact List.mem_append_right _ listed

theorem starting_token {start : Nat × Nat} (member : start ∈ m.starting read) :
    start.1 ∈ m.ledger.pending := by
  obtain ⟨job, inside, own⟩ := List.mem_flatMap.mp member
  simp only [Ledger.pending, Machine.ledger, Multiset.mem_add, Multiset.mem_coe]
  cases job with
  | post stage addr serial request =>
      cases stage with
      | allocated =>
          simp only [Job.starting] at own
          split at own
          · obtain rfl := List.mem_singleton.mp own
            exact .inl (.inl (.inl (List.mem_flatMap.mpr ⟨_, inside, List.mem_singleton.mpr rfl⟩)))
          · cases own
      | reserved | numbered =>
          simp only [Job.starting] at own
          split at own
          · obtain rfl := List.mem_singleton.mp own
            exact .inl (.inl (.inr (List.mem_flatMap.mpr ⟨_, inside, List.mem_singleton.mpr rfl⟩)))
          · cases own
      | linked | queued => cases own
  | _ => cases own

theorem serialAt_flows (before : Accounted m) (after : Accounted m')
    (cells : ∀ cell ∈ m'.cells, ∃ old ∈ m.cells, old.addr = cell.addr ∧ old.serial = cell.serial)
    (pending : addr ∈ m'.ledger.pending) : Cell.serialAt m'.cells addr = Cell.serialAt m.cells addr := by
  obtain ⟨cell, live, rfl⟩ := after.balanced.live addr (Multiset.mem_add.mpr (.inl pending))
  obtain ⟨old, was, addr, serial⟩ := cells cell live
  have now : Cell.serialAt m'.cells cell.addr = cell.serial := after.balanced.serialAt live
  have then_ : Cell.serialAt m.cells old.addr = old.serial := before.balanced.serialAt was
  rw [now, ← addr, then_, serial]

theorem own_flows (before : Accounted m) (after : Accounted m')
    (cells : ∀ cell ∈ m'.cells, ∃ old ∈ m.cells, old.addr = cell.addr ∧ old.serial = cell.serial)
    (own : ∀ start ∈ m.starting read, ∃ cell ∈ m.cells, cell.addr = start.1 ∧ cell.serial = start.2)
    (sub : m'.starting read ⊆ m.starting read) :
    ∀ start ∈ m'.starting read, ∃ cell ∈ m'.cells, cell.addr = start.1 ∧ cell.serial = start.2 := by
  intro start member
  obtain ⟨cell, live, addr⟩ := after.balanced.live start.1 (Multiset.mem_add.mpr (.inl (starting_token member)))
  obtain ⟨old, was, sameAddr, sameSerial⟩ := cells cell live
  obtain ⟨first, here, firstAddr, firstSerial⟩ := own start (sub member)
  have same : first = old :=
    before.balanced.eq_of_addr here was (firstAddr.trans (addr.symm.trans sameAddr.symm))
  exact ⟨cell, live, addr, sameSerial.symm.trans (same ▸ firstSerial)⟩

theorem InLine.flows (inLine : InLine read m) (before : Accounted m) (after : Accounted m')
    (flows : Flows read m m') : InLine read m' := by
  have serials : (m'.queue read).map (Cell.serialAt m'.cells) =
      (m'.queue read).map (Cell.serialAt m.cells) :=
    List.map_congr_left fun addr member => serialAt_flows before after flows.cells (queue_token member)
  have sub : (m'.line read).Sublist (m.line read) := by
    simp only [Machine.line, serials, flows.completed]
    exact ((List.Sublist.refl _).append (flows.queue.map _)).append (flows.starting.map _)
  constructor
  case rising => exact inLine.rising.sublist sub
  case below => exact fun serial member => flows.serials ▸ inLine.below serial (sub.subset member)
  case handler => exact flows.dues inLine.handler
  case poster => exact flows.starting.length_le.trans inLine.poster
  case own => exact own_flows before after flows.cells inLine.own flows.starting.subset

theorem flows_retain : Flows read m (m.retain addr) :=
  { Flows.refl read m with cells := fun _ member => Cell.of_mem_retain member }

theorem flows_drop : Flows read m (m.drop addr) :=
  { Flows.refl read m with cells := fun _ member => Cell.of_mem_drop member }

theorem flows_same (cells : m'.cells = m.cells) (completed : m'.completed = m.completed)
    (qp : m'.qp = m.qp) (jobs : m'.jobs = m.jobs) (serials : m'.serials = m.serials) : Flows read m m' where
  cells := fun cell member => ⟨cell, cells ▸ member, rfl, rfl⟩
  completed := by rw [Machine.completedOf, Machine.completedOf, completed]
  queue := by rw [Machine.queue, Machine.queue, Machine.dues, Machine.dues, qp, jobs]
  dues := by
    rw [Machine.dues, Machine.dues, jobs]
    exact id
  starting := by rw [Machine.starting, Machine.starting, jobs]
  serials := serials

theorem dues_jobs {jobs : List Job} (none : ∀ job ∈ jobs, job.dueOf read = []) :
    (m.addJobs jobs).dues read = m.dues read := by
  have empty : (jobs.map (Job.dueOf read)).filter (fun due => !due.isEmpty) = [] := by
    rw [List.filter_eq_nil_iff]
    intro due member
    obtain ⟨job, inside, rfl⟩ := List.mem_map.mp member
    rw [none job inside]
    simp
  simp only [Machine.dues, Machine.addJobs, List.map_append, List.filter_append, empty, List.nil_append]

theorem starting_jobs {jobs : List Job} (none : ∀ job ∈ jobs, job.starting read = []) :
    (m.addJobs jobs).starting read = m.starting read := by
  simp only [Machine.starting, Machine.addJobs, List.flatMap_append, List.flatMap_eq_nil_iff.mpr none,
    List.nil_append]

theorem flows_addJobs {jobs : List Job} (due : ∀ job ∈ jobs, job.dueOf read = [])
    (starting : ∀ job ∈ jobs, job.starting read = []) : Flows read m (m.addJobs jobs) :=
  { Flows.refl read m with
    queue := by
      rw [Machine.queue, Machine.queue, dues_jobs due]
      exact .refl _
    dues := by
      rw [dues_jobs due]
      exact id
    starting := by
      rw [starting_jobs starting] }

theorem flows_addJob {job : Job} (due : job.dueOf read = []) (starting : job.starting read = []) :
    Flows read m (m.addJobs [job]) :=
  flows_addJobs (List.forall_mem_singleton.mpr due) (List.forall_mem_singleton.mpr starting)

theorem flows_forget {job : Job} (due : job.dueOf read = []) : Flows read (m.addJobs [job]) m :=
  { Flows.refl read m with
    queue := by
      rw [Machine.queue, Machine.queue, dues_jobs (List.forall_mem_singleton.mpr due)]
      exact .refl _
    dues := by
      rw [dues_jobs (List.forall_mem_singleton.mpr due)]
      exact id
    starting := List.sublist_append_right _ _ }

theorem flows_setQp {qp : Qp} (listed : (listedOf read qp).Sublist (listedOf read m.qp)) :
    Flows read m { m with qp } :=
  { Flows.refl read m with queue := (List.Sublist.refl _).append listed }

theorem flows_release {qp : Qp} {slots : List Nat} (listed : (listedOf read qp).Sublist (listedOf read m.qp)) :
    Flows read m (m.release qp slots) := by
  rw [release_eq]
  exact (flows_setQp listed).trans (flows_same rfl rfl rfl rfl rfl)

theorem flows_take {qp : Qp} {slots : List Nat} {due : List Due}
    (front : listedOf read m.qp = Job.dueOf read (.complete due) ++ listedOf read qp)
    (alone : m.dues read = []) : Flows read m ((m.release qp slots).addJobs [.complete due]) := by
  rw [release_eq]
  have dues : (({ m with
      qp
      history := slots.foldl
        (fun history addr => history.mark (Cell.serialAt m.cells addr) .released) m.history
      warned := m.warned || decide (m.qp.sendqCount < slots.length) } : Machine).addJobs
        [.complete due]).dues read = [Job.dueOf read (.complete due)].filter fun due => !due.isEmpty := by
    have here : (m.jobs.map (Job.dueOf read)).filter (fun due => !due.isEmpty) = [] := alone
    simp only [Machine.dues, Machine.addJobs, List.map_append, List.filter_append, here, List.append_nil,
      List.map_cons, List.map_nil]
  have flat : (([Job.dueOf read (.complete due)].filter fun due => !due.isEmpty)).flatten =
      Job.dueOf read (.complete due) := by
    cases Job.dueOf read (.complete due) <;> simp
  exact
    { Flows.refl read m with
      queue := by
        simp only [Machine.queue]
        rw [dues, flat, alone, List.flatten_nil, List.nil_append, front]
        exact .refl _
      dues := by
        intro _
        rw [dues]
        exact List.length_filter_le _ _ }

theorem dueOf_sends (read : Bool) (entries : List SendEntry) :
    Job.dueOf read (.complete (entries.map fun entry =>
      { addr := entry.1, read := false, label := sendLabel entry.2, status := entry.2.completionStatus })) =
        if read then [] else entries.map Prod.fst := by
  cases read with
  | false => simp [Job.dueOf, List.filter_map, Function.comp_def]
  | true => simp [Job.dueOf, List.filter_map, Function.comp_def]

theorem dueOf_reads (read : Bool) (entries : List ReadEntry) (status : ReadCtx → Option Errno) :
    Job.dueOf read (.complete (entries.map fun entry =>
      { addr := entry.1, read := true, label := readLabel entry.2, status := status entry.2 })) =
        if read then entries.map Prod.fst else [] := by
  cases read with
  | false => simp [Job.dueOf, List.filter_map, Function.comp_def]
  | true => simp [Job.dueOf, List.filter_map, Function.comp_def]

theorem flows_takeSends {result : Qp × List SendEntry} (leave : SendsLeave m.qp result)
    (alone : read = false → m.dues read = []) : Flows read m (m.takeSends result) := by
  cases read with
  | false =>
      refine flows_take ?_ (alone rfl)
      rw [dueOf_sends]
      exact leave.addrs
  | true =>
      refine (flows_release ?_).trans (flows_addJob (dueOf_sends true result.2) rfl)
      simp only [listedOf, leave.reads]
      exact .refl _

def ReadsFront (qp : Qp) (result : Qp × List ReadEntry) : Prop :=
  qp.pendingReads.map Prod.fst = result.2.map Prod.fst ++ result.1.pendingReads.map Prod.fst

theorem flows_takeReads {result : Qp × List ReadEntry} {status : ReadCtx → Option Errno}
    (leave : ReadsLeave m.qp result) (front : read = true → ReadsFront m.qp result)
    (alone : read = true → m.dues read = []) : Flows read m (m.takeReads result status) := by
  cases read with
  | false =>
      refine (flows_release ?_).trans (flows_addJob (dueOf_reads false result.2 status) rfl)
      simp only [listedOf, leave.sends]
      exact .refl _
  | true =>
      refine flows_take ?_ (alone rfl)
      rw [dueOf_reads]
      exact front rfl

theorem flows_become {old new : Job} (dueOld : old.dueOf read = []) (dueNew : new.dueOf read = [])
    (starting : (new.starting read).Sublist (old.starting read)) :
    Flows read (m.addJobs [old]) (m.addJobs [new]) := by
  have before : (m.addJobs [old]).dues read = m.dues read := dues_jobs (List.forall_mem_singleton.mpr dueOld)
  have after : (m.addJobs [new]).dues read = m.dues read := dues_jobs (List.forall_mem_singleton.mpr dueNew)
  exact
    { Flows.refl read m with
      queue := by
        rw [Machine.queue, Machine.queue, before, after]
        exact .refl _
      dues := by
        rw [before, after]
        exact id
      starting := starting.append (.refl _) }

/-! ## What the functions do to the line -/

theorem listedOf_updateSend {f : SendCtx → SendCtx}
    (same : ∀ entry : SendEntry, sendKey (entry.1, f entry.2) = sendKey entry) :
    listedOf read (m.updateSend addr f).qp = listedOf read m.qp := by
  have stays : SendsStay m.qp (m.qp.updateSend (fun entry => entry.1 = addr) f) := sendsStay_updateSend same
  cases read with
  | false =>
      have addrs := congrArg (List.map Prod.fst) stays.sends
      rw [List.map_map, List.map_map] at addrs
      exact addrs
  | true => rfl

theorem flows_updateSend {f : SendCtx → SendCtx}
    (same : ∀ entry : SendEntry, sendKey (entry.1, f entry.2) = sendKey entry) :
    Flows read m (m.updateSend addr f) := by
  refine flows_setQp ?_
  rw [← listedOf_updateSend same]
  exact .refl _

theorem flows_transmit {psn more : Nat} : Flows read m (m.transmit addr psn more) := by
  have cells : ∀ n, Flows read m
      { m with
        cells := Nat.repeat (fun cells => Cell.retain cells addr) n m.cells
        jobs := List.replicate n (.sendTx addr psn) ++ m.jobs } := by
    intro n
    induction n with
    | zero => exact .refl read m
    | succ n ih => exact ih.trans (flows_retain.trans (flows_addJob rfl rfl))
  have updated : Flows read
      { m with
        cells := Nat.repeat (fun cells => Cell.retain cells addr) (more + 1) m.cells
        jobs := List.replicate (more + 1) (.sendTx addr psn) ++ m.jobs }
      (m.transmit addr psn more) :=
    flows_updateSend (f := fun send => { send with txPending := send.txPending + (more + 1) }) fun _ => rfl
  exact (cells (more + 1)).trans updated

theorem flows_sent {more : Nat} : Flows read m (m.sent addr serial more request) := by
  cases request with
  | send ctx credit =>
      exact (flows_transmit.trans flows_drop).trans (flows_same rfl rfl rfl rfl rfl)
  | read ctx =>
      exact (flows_addJob rfl rfl).trans (flows_same rfl rfl rfl rfl rfl)

theorem listedOf_giveBack (qp : Qp) (credit : Bool) : listedOf read (giveBack qp credit) = listedOf read qp := by
  simp only [giveBack, Qp.returnRemoteRecvCredit]
  split
  · split <;> cases read <;> rfl
  · rfl

theorem listedOf_unqueueSend (qp : Qp) (addr : Nat) :
    (listedOf read (qp.unqueueSend addr).1).Sublist (listedOf read qp) := by
  cases found : qp.pendingSends.find? fun entry => entry.1 = addr with
  | none => simp [Qp.unqueueSend, found]
  | some entry =>
      obtain ⟨qp', unqueued, -, reads, -, sub, -⟩ := unqueueSend_found found
      rw [unqueued]
      cases read with
      | false =>
          have addrs := sub.map Prod.fst
          rw [List.map_map, List.map_map] at addrs
          exact addrs
      | true => simp only [listedOf, reads, List.Sublist.refl]

theorem listedOf_unqueueRead (qp : Qp) (addr : Nat) :
    (listedOf read (qp.unqueueRead addr).1).Sublist (listedOf read qp) := by
  cases found : qp.pendingReads.find? fun entry => entry.1 = addr with
  | none => simp [Qp.unqueueRead, found]
  | some entry =>
      obtain ⟨qp', unqueued, -, sends, -, sub, -⟩ := unqueueRead_found found
      rw [unqueued]
      cases read with
      | false => simp only [listedOf, sends, List.Sublist.refl]
      | true =>
          have addrs := sub.map Prod.fst
          rw [List.map_map, List.map_map] at addrs
          exact addrs

theorem flows_failed {error : Errno} : Flows read m (m.failed addr serial error request) := by
  cases request with
  | send ctx credit =>
      have listed : (listedOf read (m.qp.unqueueSend addr).1).Sublist (listedOf read m.qp) :=
        listedOf_unqueueSend m.qp addr
      simp only [Machine.failed]
      split
      · rename_i qp unqueued
        rw [unqueued] at listed
        have credited : (listedOf read (giveBack qp credit)).Sublist (listedOf read m.qp) := by
          rw [listedOf_giveBack]
          exact listed
        have refused : Flows read m
            { (m.release qp (Machine.sendSlots m.qp [addr])).mark addr .refused with
              qp := giveBack qp credit } := by
          rw [release_eq]
          exact (flows_setQp credited).trans (flows_same rfl rfl rfl rfl rfl)
        exact (refused.trans (flows_drop.trans flows_drop)).trans (flows_same rfl rfl rfl rfl rfl)
      · exact flows_drop.trans (flows_same rfl rfl rfl rfl rfl)
  | read ctx => exact flows_drop.trans (flows_addJob rfl rfl)

theorem flows_unqueue {ctx : ReadCtx} {error : Errno} : Flows read m (m.unqueue addr serial ctx error) := by
  have listed : (listedOf read (m.qp.unqueueRead addr).1).Sublist (listedOf read m.qp) :=
    listedOf_unqueueRead m.qp addr
  simp only [Machine.unqueue]
  split
  · rename_i qp unqueued
    rw [unqueued] at listed
    exact (flows_release listed).trans (flows_addJob rfl rfl)
  · exact flows_addJob rfl rfl

theorem flows_sendTxDone {psn now : Nat} {status : Option Errno} :
    Flows read m (m.sendTxDone addr psn status now) := by
  have counted : Flows read m (m.updateSend addr fun send => send.packetDone status.isNone now) :=
    flows_updateSend fun _ => rfl
  cases status with
  | none => exact counted.trans flows_drop
  | some error => exact counted.trans (flows_addJob rfl rfl)

theorem flows_retryCheck {reason : PostReason} : Flows read m (m.retryCheck addr reason) := by
  simp only [Machine.retryCheck]
  split
  · exact flows_drop
  · split
    · exact flows_addJob rfl rfl
    · have updated : Flows read m (m.updateSend addr fun send => { send with retrying := false }) :=
        flows_updateSend fun _ => rfl
      exact updated.trans flows_drop

theorem flows_repost {psn more now : Nat} {reason : PostReason} {ret : Option Errno}
    (alone : read = false → m.dues read = []) : Flows read m (m.repost addr psn reason ret more now) := by
  have posted : Flows read m (if ret.isNone then m.transmit addr psn more else m) ∧
      (read = false → (if ret.isNone then m.transmit addr psn more else m).dues read = []) := by
    split
    · refine ⟨flows_transmit, fun sends => ?_⟩
      have packets : ∀ job ∈ List.replicate (more + 1) (Job.sendTx addr psn), job.dueOf read = [] :=
        fun job member => by rw [List.eq_of_mem_replicate member]; rfl
      exact (dues_jobs packets).trans (alone sends)
    · exact ⟨.refl read m, alone⟩
  simp only [Machine.repost]
  generalize (if ret.isNone then m.transmit addr psn more else m) = sending at posted ⊢
  refine posted.1.trans ((flows_takeSends ?_ posted.2).trans (flows_addJob rfl rfl))
  split
  · exact sendsLeave_retried
  · exact (SendsStay.refl _).leave

theorem flows_ack {psn now : Nat} {status : SendAckStatus} (alone : read = false → m.dues read = [])
    (handled : m.ack psn status now = some m') : Flows read m m' := by
  obtain ⟨entry, -, rfl⟩ := Option.map_eq_some_iff.mp handled
  have retained : Flows read m (m.retain entry.1) := flows_retain
  have still : read = false → (m.retain entry.1).dues read = [] := alone
  refine retained.trans ((flows_takeSends ?_ still).trans (flows_addJob rfl rfl))
  cases status with
  | ok => exact sendsLeave_completeSendOrdered psn none
  | rnr => exact sendsLeave_noteRnrAck
  | error => exact sendsLeave_completeSendOrdered psn _

theorem readsFront_drain {qp : Qp} {f : ReadCtx → ReadCtx} {which : ReadEntry → Bool}
    (same : ∀ entry : ReadEntry, readKey (entry.1, f entry.2) = readKey entry) :
    ReadsFront qp (qp.updateRead which f).drainReadyReads := by
  have keys : (qp.updateRead which f).pendingReads.map readKey = qp.pendingReads.map readKey :=
    map_updateFirst same
  have addrs := congrArg (List.map Prod.fst) keys
  rw [List.map_map, List.map_map] at addrs
  simp only [ReadsFront, Qp.drainReadyReads, List.map_map]
  rw [show qp.pendingReads.map Prod.fst = (qp.updateRead which f).pendingReads.map Prod.fst from addrs.symm]
  exact (List.map_append ▸ congrArg _ List.takeWhile_append_dropWhile.symm)

theorem readsFront_completeReadOrdered {qp : Qp} {status : Option Errno} :
    ReadsFront qp (qp.completeReadOrdered addr status) := by
  unfold Qp.completeReadOrdered
  split
  · refine readsFront_drain fun entry => ?_
    split <;> rfl
  · rfl

theorem readsFront_flushReads (qp : Qp) : ReadsFront qp qp.flushReads := by
  simp [ReadsFront, Qp.flushReads]

theorem filter_append_filter_not {α : Type} {p : α → Bool} {list : List α}
    (rest : (list.dropWhile p).all (fun each => !p each) = true) :
    list.filter p ++ list.filter (fun each => !p each) = list := by
  have split := List.takeWhile_append_dropWhile (p := p) (l := list)
  have taken : ∀ each ∈ list.takeWhile p, p each = true := fun each member => List.mem_takeWhile_imp member
  rw [List.all_eq_true] at rest
  have left : list.filter p = list.takeWhile p := by
    conv_lhs => rw [← split]
    rw [List.filter_append, List.filter_eq_self.mpr taken, List.filter_eq_nil_iff.mpr, List.append_nil]
    intro each member
    simpa using rest each member
  have right : list.filter (fun each => !p each) = list.dropWhile p := by
    conv_lhs => rw [← split]
    rw [List.filter_append, List.filter_eq_self.mpr rest, List.filter_eq_nil_iff.mpr, List.nil_append]
    intro each member
    simpa using taken each member
  rw [left, right, split]

theorem readsFront_timeoutReapReads {qp : Qp} {clock : Qp.Clock}
    (rest : (qp.pendingReads.dropWhile (readExpired clock)).all (fun entry => !readExpired clock entry) = true) :
    ReadsFront qp (qp.timeoutReapReads clock) := by
  have addrs := congrArg (List.map Prod.fst) (filter_append_filter_not rest)
  rw [List.map_append] at addrs
  simp only [ReadsFront, Qp.timeoutReapReads, List.map_map]
  exact addrs.symm

theorem cells_retries (entries : List (Nat × PostReason)) (cells : List Cell) :
    ∀ cell ∈ entries.foldl (fun cells entry => Cell.retain cells entry.1) cells,
      ∃ old ∈ cells, old.addr = cell.addr ∧ old.serial = cell.serial := by
  induction entries generalizing cells with
  | nil => exact fun cell member => ⟨cell, member, rfl, rfl⟩
  | cons entry rest ih =>
      intro cell member
      obtain ⟨mid, inside, addr, serial⟩ := ih (Cell.retain cells entry.1) cell member
      obtain ⟨old, live, addr', serial'⟩ := Cell.of_mem_retain inside
      exact ⟨old, live, addr'.trans addr, serial'.trans serial⟩

theorem dues_release {qp : Qp} {slots : List Nat} : (m.release qp slots).dues read = m.dues read := by
  rw [release_eq]
  rfl

theorem flows_timeout {clock : Qp.Clock} (alone : m.dues read = [])
    (rest : (m.qp.pendingReads.dropWhile (readExpired clock)).all (fun entry => !readExpired clock entry) =
      true) : Flows read m (m.timeout clock) := by
  have leave : SendsLeave m.qp (m.qp.timeoutReapSends clock) := sendsLeave_timeoutReapSends clock
  unfold Machine.timeout
  generalize retrySends (m.qp.reapEnv clock) m.qp.remoteRecvCredits m.qp.pendingSends = entries
  have due : ∀ job ∈ entries.map fun entry => Job.retry entry.1 entry.2, job.dueOf read = [] := by
    intro job member
    obtain ⟨entry, -, rfl⟩ := List.mem_map.mp member
    rfl
  have starting : ∀ job ∈ entries.map fun entry => Job.retry entry.1 entry.2, job.starting read = [] := by
    intro job member
    obtain ⟨entry, -, rfl⟩ := List.mem_map.mp member
    rfl
  have retried : Flows read m
      { m with
        cells := entries.foldl (fun cells entry => Cell.retain cells entry.1) m.cells
        jobs := entries.map (fun entry => .retry entry.1 entry.2) ++ m.jobs } :=
    { flows_addJobs due starting with cells := cells_retries entries m.cells }
  have none := (dues_jobs due).trans alone
  refine (retried.trans (flows_takeSends leave fun _ => none)).trans
    (flows_takeReads (readsLeave_timeoutReapReads clock) (fun _ => readsFront_timeoutReapReads ?_) ?_)
  · change ((m.qp.timeoutReapSends clock).1.pendingReads.dropWhile (readExpired clock)).all _ = true
    rw [leave.reads]
    exact rest
  · rintro rfl
    have sends := dueOf_sends true (m.qp.timeoutReapSends clock).2
    rw [Machine.takeSends, dues_jobs (List.forall_mem_singleton.mpr sends), dues_release]
    exact none

theorem flows_readTxDone {now : Nat} {status : Option Errno} (alone : read = true → status ≠ none → m.dues read = [])
    (first : read = true → status ≠ none → (m.qp.pendingReads.find? fun entry => entry.1 = addr) = none ∨
      (m.qp.pendingReads.head?.map Prod.fst) = some addr) :
    Flows read m (m.readTxDone addr status now) := by
  cases status with
  | none =>
      have keys : (m.qp.armReadTimeout addr now).pendingReads.map readKey = m.qp.pendingReads.map readKey := by
        refine map_updateFirst fun entry => ?_
        simp only [readKey, readLabel]
        split <;> rfl
      have addrs := congrArg (List.map Prod.fst) keys
      rw [List.map_map, List.map_map] at addrs
      have armed : Flows read m { m with qp := m.qp.armReadTimeout addr now } := by
        refine flows_setQp ?_
        cases read with
        | false => exact .refl _
        | true =>
            change ((m.qp.armReadTimeout addr now).pendingReads.map Prod.fst).Sublist _
            rw [show (m.qp.armReadTimeout addr now).pendingReads.map Prod.fst =
              m.qp.pendingReads.map Prod.fst from addrs]
            exact .refl _
      exact armed.trans flows_drop
  | some error =>
      simp only [Machine.readTxDone]
      split
      · exact flows_drop
      · rename_i entry found
        refine (flows_takeReads (readsLeave_unqueueRead found) (fun reads => ?_)
          fun reads => alone reads (by simp)).trans
          (flows_addJob rfl rfl)
        rcases first reads (by simp) with none | head
        · rw [none] at found
          cases found
        · cases list : m.qp.pendingReads with
          | nil => simp [list] at head
          | cons front others =>
              have own : front.1 = addr := by simpa [list] using head
              have same : front = entry := by simpa [list, own] using found
              rw [ReadsFront, Qp.unqueueRead, found, list]
              simp only [List.eraseP_cons, own, decide_true, cond_true]
              split <;> simp [same, Qp.releaseSendq]

/-! ## A post links its context -/

@[simp] theorem isRead_setCounted (counted : Bool) : (request.setCounted counted).isRead = request.isRead := by
  cases request <;> rfl

@[simp] theorem isRead_setPsn (psn : Nat) : (request.setPsn psn).isRead = request.isRead := by
  cases request <;> rfl

theorem InLine.link {qp : Qp} (accounted : Accounted (m.addJobs [.post .numbered addr serial request]))
    (inLine : InLine read (m.addJobs [.post .numbered addr serial request]))
    (listed : listedOf read qp = listedOf read m.qp ++ if request.isRead = read then [addr] else []) :
    InLine read ({ m with qp }.addJobs [.post .linked addr serial request]) := by
  have dues : ∀ stage (m : Machine), (m.addJobs [.post stage addr serial request]).dues read = m.dues read :=
    fun stage m => dues_jobs (List.forall_mem_singleton.mpr rfl)
  have poster := inLine.poster
  have own := inLine.own
  have handler := inLine.handler
  have before : (m.addJobs [.post .numbered addr serial request]).starting read =
    (if request.isRead = read then [(addr, serial)] else []) ++ m.starting read := rfl
  have after : ({ m with qp }.addJobs [.post .linked addr serial request]).starting read = m.starting read :=
    rfl
  have same : ({ m with qp }.addJobs [.post .linked addr serial request]).line read =
      (m.addJobs [.post .numbered addr serial request]).line read := by
    simp only [Machine.line, Machine.queue, dues, before, after]
    split at listed <;> rename_i kind
    · simp only [before, kind, if_true, List.cons_append, List.nil_append, List.length_cons] at poster own
      have none : m.starting read = [] := List.length_eq_zero_iff.mp (by omega)
      obtain ⟨cell, live, cellAddr, cellSerial⟩ := own _ List.mem_cons_self
      have serialAt : Cell.serialAt m.cells cell.addr = cell.serial := accounted.balanced.serialAt live
      rw [cellAddr, cellSerial] at serialAt
      have list : listedOf read ({ m with qp }.addJobs [.post .linked addr serial request]).qp =
        listedOf read m.qp ++ [addr] := listed
      simp only [list, kind, none, List.map_append, List.map_cons, List.map_nil, List.append_nil, if_true,
        List.append_assoc]
      simp only [Machine.addJobs, serialAt]
      rfl
    · have list : listedOf read ({ m with qp }.addJobs [.post .linked addr serial request]).qp =
        listedOf read m.qp := listed.trans (List.append_nil _)
      simp only [list, kind, if_false, List.nil_append]
      rfl
  constructor
  case rising => exact same ▸ inLine.rising
  case below => exact same ▸ inLine.below
  case handler =>
    rw [dues] at handler ⊢
    exact handler
  case poster =>
    rw [before, List.length_append] at poster
    rw [after]
    omega
  case own =>
    rw [after]
    rw [before] at own
    exact fun start member => own start (List.mem_append_right _ member)

theorem InLine.advance {stage : Stage}
    (accounted : Accounted (m.addJobs [.post stage addr serial request]))
    (inLine : InLine read (m.addJobs [.post stage addr serial request])) (after : Accounted m')
    (advanced : m.advance addr serial request stage = some m') : InLine read m' := by
  cases stage with
  | allocated =>
      simp only [Machine.advance] at advanced
      split at advanced <;> obtain rfl := Option.some.inj advanced
      · rename_i qp reserve
        obtain rfl := reserveSendq_eq reserve
        have become : Flows read (m.addJobs [.post .allocated addr serial request])
            (m.addJobs [.post .reserved addr serial (request.setCounted true)]) :=
          flows_become rfl rfl (by simp [Job.starting])
        have listed : ∀ count, listedOf read { m.qp with sendqCount := count } = listedOf read m.qp :=
          fun count => by cases read <;> rfl
        refine inLine.flows accounted after (become.trans ((flows_setQp ?_).trans
          (flows_same rfl rfl rfl rfl rfl)))
        exact listed _ ▸ .refl _
      · have credited : listedOf read (request.returnCredit m.qp) = listedOf read m.qp := by
          cases request with
          | send ctx credit => exact listedOf_giveBack m.qp credit
          | read ctx => rfl
        refine inLine.flows accounted after ((flows_forget rfl).trans ((flows_setQp ?_).trans
          (flows_drop.trans (flows_same rfl rfl rfl rfl rfl))))
        exact credited ▸ .refl _
  | reserved =>
      obtain rfl := Option.some.inj advanced
      have become : Flows read (m.addJobs [.post .reserved addr serial request])
          (m.addJobs [.post .numbered addr serial (request.setPsn m.qp.takePsn.2)]) :=
        flows_become rfl rfl (by simp [Job.starting])
      have listed : listedOf read m.qp.takePsn.1 = listedOf read m.qp := by cases read <;> rfl
      refine inLine.flows accounted after (become.trans (flows_setQp ?_))
      exact listed ▸ .refl _
  | numbered =>
      cases request with
      | send ctx credit =>
          obtain rfl := Option.some.inj advanced
          refine inLine.link accounted ?_
          cases read <;> simp [listedOf, Qp.queueSend, Request.isRead]
      | read ctx =>
          obtain rfl := Option.some.inj advanced
          refine inLine.link accounted ?_
          cases read <;> simp [listedOf, Qp.queueRead, Request.isRead]
  | linked =>
      obtain rfl := Option.some.inj advanced
      have become : Flows read (m.addJobs [.post .linked addr serial request])
        (m.addJobs [.post .queued addr serial request]) := flows_become rfl rfl (List.nil_sublist _)
      exact inLine.flows accounted after (become.trans flows_retain)
  | queued => cases advanced

/-! ## A context is completed -/

theorem dueOf_cons (due : Due) (rest : List Due) : Job.dueOf read (.complete (due :: rest)) =
    (if due.read = read then [due.addr] else []) ++ Job.dueOf read (.complete rest) := by
  simp only [Job.dueOf, List.filter_cons]
  split <;> rename_i kind
  · rw [if_pos (by simpa using kind)]
    rfl
  · rw [if_neg (by simpa using kind)]
    rfl

theorem dues_complete (due : List Due) : (m.addJobs [.complete due]).dues read =
    ([Job.dueOf read (.complete due)].filter fun due => !due.isEmpty) ++ m.dues read := by
  simp only [Machine.dues, Machine.addJobs, List.map_append, List.filter_append, List.map_cons, List.map_nil]

theorem flatten_nonempty (list : List Nat) : ([list].filter fun due => !due.isEmpty).flatten = list := by
  cases list <;> simp

theorem InLine.finish {due : Due} {rest : List Due}
    (accounted : Accounted (m.addJobs [.complete (due :: rest)]))
    (inLine : InLine read (m.addJobs [.complete (due :: rest)]))
    (after : Accounted (((m.finish due).drop due.addr).addJobs [.complete rest])) :
    InLine read (((m.finish due).drop due.addr).addJobs [.complete rest]) := by
  have pending : due.addr ∈ (m.addJobs [.complete (due :: rest)]).ledger.pending := by
    simp [Ledger.pending, Machine.ledger, Machine.addJobs, Job.due]
  obtain ⟨cell, live, same, found, unfinished, serialAt⟩ := accounted.found pending
  have finished : m.finish due =
      { m.mark due.addr .completed with
        cells := Cell.finish m.cells due.addr
        completed := m.completed ++
          [{ serial := cell.serial, read := due.read, label := due.label, status := due.status }] } := by
    simp only [Machine.addJobs] at found
    simp only [Machine.finish, found, unfinished, Bool.false_eq_true, if_false]
  have cells : ∀ cell ∈ (((m.finish due).drop due.addr).addJobs [.complete rest]).cells,
      ∃ old ∈ m.cells, old.addr = cell.addr ∧ old.serial = cell.serial := by
    rw [finished]
    intro each member
    obtain ⟨mid, inside, addr, serial⟩ := Cell.of_mem_drop member
    obtain ⟨old, was, addr', serial'⟩ := Cell.of_mem_finish inside
    exact ⟨old, was, addr'.trans addr, serial'.trans serial⟩
  have completed : (((m.finish due).drop due.addr).addJobs [.complete rest]).completedOf read =
      m.completedOf read ++ if due.read = read then
        [{ serial := cell.serial, read := due.read, label := due.label, status := due.status }] else [] := by
    rw [finished]
    simp only [Machine.completedOf, Machine.addJobs, Machine.drop, List.filter_append, List.filter_cons,
      List.filter_nil]
    split <;> rename_i kind
    · rw [if_pos (by simpa using kind)]
    · rw [if_neg (by simpa using kind)]
  have jobs : ((m.finish due).drop due.addr).dues read = m.dues read := by
    rw [finished]
    rfl
  have list : listedOf read (((m.finish due).drop due.addr).addJobs [.complete rest]).qp =
      listedOf read m.qp := by
    rw [finished]
    rfl
  have starting : (((m.finish due).drop due.addr).addJobs [.complete rest]).starting read =
      (m.addJobs [.complete (due :: rest)]).starting read := by
    rw [finished]
    rfl
  have serials : (((m.finish due).drop due.addr).addJobs [.complete rest]).serials = m.serials := by
    rw [finished]
    rfl
  have queue : (m.addJobs [.complete (due :: rest)]).queue read =
      (if due.read = read then [due.addr] else []) ++
        (((m.finish due).drop due.addr).addJobs [.complete rest]).queue read := by
    simp only [Machine.queue, dues_complete, jobs, list, List.flatten_append, flatten_nonempty, dueOf_cons,
      List.append_assoc]
    rfl
  have kept : ((((m.finish due).drop due.addr).addJobs [.complete rest]).queue read).map
        (Cell.serialAt (((m.finish due).drop due.addr).addJobs [.complete rest]).cells) =
      ((((m.finish due).drop due.addr).addJobs [.complete rest]).queue read).map
        (Cell.serialAt (m.addJobs [.complete (due :: rest)]).cells) :=
    List.map_congr_left fun addr member => serialAt_flows accounted after cells (queue_token member)
  have line : (((m.finish due).drop due.addr).addJobs [.complete rest]).line read =
      (m.addJobs [.complete (due :: rest)]).line read := by
    rw [Machine.line, Machine.line, kept, completed, starting, queue]
    split
    · simp only [List.map_append, List.map_cons, List.map_nil, serialAt, List.append_assoc]
      rfl
    · simp only [List.append_nil, List.nil_append]
      rfl
  constructor
  case rising => exact line ▸ inLine.rising
  case below =>
    rw [line, serials]
    exact inLine.below
  case handler =>
    have handler := inLine.handler
    rw [dues_complete, List.length_append, dueOf_cons] at handler
    rw [dues_complete, jobs, List.length_append]
    refine Nat.le_trans (Nat.add_le_add_right ?_ _) handler
    cases Job.dueOf read (.complete rest) <;> simp
  case poster => exact starting ▸ inLine.poster
  case own => exact own_flows accounted after cells inLine.own (starting ▸ List.Subset.refl _)

/-! ## Runs -/

theorem eq_of_perm_of_short {α : Type} {list other : List α} (perm : list.Perm other)
    (short : other.length ≤ 1) : list = other := by
  match other, short with
  | [], _ => exact perm.eq_nil
  | [each], _ => exact perm.eq_singleton

theorem InLine.perm {jobs : List Job} (inLine : InLine read m) (perm : jobs.Perm m.jobs) :
    InLine read { m with jobs } := by
  have dues : { m with jobs }.dues read = m.dues read :=
    eq_of_perm_of_short ((perm.map _).filter _) inLine.handler
  have starting : { m with jobs }.starting read = m.starting read :=
    eq_of_perm_of_short (perm.flatMap_right _) inLine.poster
  have line : { m with jobs }.line read = m.line read := by
    simp only [Machine.line, Machine.queue, dues, starting]
    rfl
  exact ⟨line ▸ inLine.rising, line ▸ inLine.below, dues ▸ inLine.handler, starting ▸ inLine.poster,
    starting ▸ inLine.own⟩

theorem InLine.begin (inLine : InLine read m) (accounted : Accounted m)
    (free : ∀ cell ∈ m.cells, cell.addr ≠ addr)
    (alone : request.isRead = read → m.starting read = []) : InLine read (m.allocate addr request) := by
  have added : (m.addJobs [.post .allocated addr m.serials request]).dues read = m.dues read :=
    dues_jobs (List.forall_mem_singleton.mpr rfl)
  have dues : (m.allocate addr request).dues read = m.dues read := added
  have starting : (m.allocate addr request).starting read =
    (if request.isRead = read then [(addr, m.serials)] else []) ++ m.starting read := rfl
  have serialAt : ((m.allocate addr request).queue read).map (Cell.serialAt (m.allocate addr request).cells) =
      (m.queue read).map (Cell.serialAt m.cells) := by
    have queue : (m.allocate addr request).queue read = m.queue read := by
      simp only [Machine.queue, dues]
      rfl
    rw [queue]
    refine List.map_congr_left fun other member => ?_
    obtain ⟨cell, live, rfl⟩ := accounted.balanced.live other (Multiset.mem_add.mpr (.inl (queue_token member)))
    simp [Cell.serialAt, Machine.allocate, Ne.symm (free cell live)]
  have line : (m.allocate addr request).line read =
      m.line read ++ if request.isRead = read then [m.serials] else [] := by
    rw [Machine.line, Machine.line, serialAt, starting]
    split <;> rename_i kind
    · rw [alone kind]
      simp [Machine.completedOf, Machine.allocate]
    · simp [Machine.completedOf, Machine.allocate]
  constructor
  case rising =>
    rw [line]
    refine List.pairwise_append.mpr ⟨inLine.rising, ?_, ?_⟩
    · split
      · exact List.pairwise_singleton ..
      · exact .nil
    · intro first inFirst second inSecond
      split at inSecond
      · obtain rfl := List.mem_singleton.mp inSecond
        exact inLine.below first inFirst
      · cases inSecond
  case below =>
    rw [line]
    intro serial member
    change serial < m.serials + 1
    rcases List.mem_append.mp member with old | new
    · exact Nat.lt_succ_of_lt (inLine.below serial old)
    · split at new
      · obtain rfl := List.mem_singleton.mp new
        exact Nat.lt_succ_self _
      · cases new
  case handler => exact dues ▸ inLine.handler
  case poster =>
    rw [starting]
    split <;> rename_i kind
    · rw [alone kind]
      exact Nat.le_refl 1
    · exact inLine.poster
  case own =>
    rw [starting]
    intro start member
    rcases List.mem_append.mp member with new | old
    · split at new
      · obtain rfl := List.mem_singleton.mp new
        exact ⟨_, List.mem_cons_self, rfl, rfl⟩
      · cases new
    · obtain ⟨cell, live, same⟩ := inLine.own start old
      exact ⟨cell, List.mem_cons_of_mem _ live, same⟩

def firstRead (qp : Qp) (addr : Nat) : Bool :=
  !(qp.pendingReads.any fun entry => entry.1 = addr) || qp.pendingReads.head?.map Prod.fst = some addr

/-- Posts of one kind do not overlap, a handler takes requests off a list only after the others have pushed
the completions of that list, and no READ times out or fails to be sent before an earlier one. -/
def orderly (m : Machine) : Action → Bool
  | .postSend .. => (m.starting false).isEmpty
  | .postRead .. => (m.starting true).isEmpty
  | .ack .. | .flushSends | .sendTxFail _ | .repost .. => (m.dues false).isEmpty
  | .readDone .. | .flushReads => (m.dues true).isEmpty
  | .readTxDone i (some _) _ =>
      (m.dues true).isEmpty &&
        match m.jobs[i]? with
        | some (.readTx addr) => firstRead m.qp addr
        | _ => true
  | .timeout clock =>
      (m.dues false).isEmpty && (m.dues true).isEmpty &&
        (m.qp.pendingReads.dropWhile (readExpired clock)).all fun entry => !readExpired clock entry
  | _ => true

theorem dues_without {i : Nat} (none : m.dues read = []) :
    { m with jobs := m.jobs.eraseIdx i }.dues read = [] := by
  simp only [Machine.dues, List.filter_eq_nil_iff, List.mem_map] at none ⊢
  rintro due ⟨job, member, rfl⟩
  exact none _ ⟨job, List.mem_of_mem_eraseIdx member, rfl⟩

theorem InLine.run {job : Job} {action : Action} (accounted : Accounted (m.addJobs [job]))
    (inLine : InLine read (m.addJobs [job])) (after : Accounted m')
    (sends : ∀ i ret more now, action = .sendTxFail i ∨ action = .repost i ret more now →
      read = false → m.dues read = [])
    (reads : ∀ i status now, action = .readDone i status ∨ action = .readTxDone i status now ∧ status ≠ none →
      read = true → m.dues read = [])
    (first : ∀ i status now addr, action = .readTxDone i status now → job = .readTx addr → status ≠ none →
      firstRead m.qp addr = true)
    (ran : m.run job action = some m') : InLine read m' := by
  have step : ∀ {job : Job} {m' : Machine}, Accounted (m.addJobs [job]) → InLine read (m.addJobs [job]) →
      Accounted m' → job.dueOf read = [] → Flows read m m' → InLine read m' :=
    fun accounted inLine after due flows => inLine.flows accounted after ((flows_forget due).trans flows)
  unfold Machine.run at ran
  split at ran
  case h_1 => exact inLine.advance accounted after ran
  case h_17 => cases ran
  all_goals obtain rfl := Option.some.inj ran
  case h_2 addr _ _ =>
    have released : Flows read m (m.release m.qp.releaseSendq [addr]) :=
      flows_release (by cases read <;> exact .refl _)
    have marked : Flows read (m.release m.qp.releaseSendq [addr])
      ((m.release m.qp.releaseSendq [addr]).mark addr .refused) := flows_same rfl rfl rfl rfl rfl
    exact step accounted inLine after rfl
      (released.trans (marked.trans (flows_drop.trans (flows_same rfl rfl rfl rfl rfl))))
  case h_3 => exact step accounted inLine after rfl flows_sent
  case h_4 => exact step accounted inLine after rfl flows_failed
  case h_5 => exact step accounted inLine after rfl flows_unqueue
  case h_6 =>
    refine step accounted inLine after rfl ?_
    simp only [Machine.unwind, accounted.uncounted, Bool.false_eq_true, if_false]
    exact Flows.trans (flows_same rfl rfl rfl rfl rfl) (flows_drop.trans (flows_same rfl rfl rfl rfl rfl))
  case h_7 => exact step accounted inLine after rfl flows_sendTxDone
  case h_8 i addr psn error =>
    have taken := flows_takeSends (sendsLeave_completeSendOrdered psn (some error)) (sends i none 0 0 (.inl rfl))
    exact step accounted inLine after rfl (taken.trans (flows_addJob rfl rfl))
  case h_9 i status now addr =>
    refine step accounted inLine after rfl (flows_readTxDone ?_ ?_)
    · exact fun kind failed => reads i status now (.inr ⟨rfl, failed⟩) kind
    · intro kind failed
      have front := first i status now addr rfl rfl failed
      simp only [firstRead, Bool.or_eq_true, Bool.not_eq_true', List.any_eq_false, decide_eq_true_eq] at front
      rw [List.find?_eq_none]
      simpa using front
  case h_10 i status addr =>
    have taken : Flows read m (m.takeReads (m.qp.completeReadOrdered addr status) ReadCtx.completionStatus) :=
      flows_takeReads readsLeave_completeReadOrdered (fun _ => readsFront_completeReadOrdered)
        (reads i status 0 (.inl rfl))
    exact step accounted inLine after rfl (taken.trans (flows_addJob rfl rfl))
  case h_11 | h_12 => exact step accounted inLine after rfl flows_drop
  case h_13 => exact step accounted inLine after rfl flows_retryCheck
  case h_14 i ret more now _ _ _ =>
    exact step accounted inLine after rfl (flows_repost (sends i ret more now (.inr rfl)))
  case h_15 => exact step accounted inLine after rfl (.refl read m)
  case h_16 => exact inLine.finish accounted after

theorem InLine.event {action : Action} (accounted : Accounted m) (inLine : InLine read m)
    (order : orderly m action = true) (happened : m.event action = some m') : InLine read m' := by
  have after := accounted.event happened
  cases action with
  | postSend addr op wr segs totalLen =>
      simp only [Machine.event] at happened
      split at happened
      · cases happened
      rename_i unknown
      have free : ∀ cell ∈ m.cells, cell.addr ≠ addr := by simpa using unknown
      split at happened
      · cases happened
      rename_i qp credit taken
      obtain rfl := Option.some.inj happened
      obtain ⟨credits, rfl⟩ := takeCredit_eq taken
      have begun : InLine read (m.allocate addr (.send (newSend m.qp op wr segs totalLen) credit)) :=
        inLine.begin accounted free fun kind => kind ▸ List.isEmpty_iff.mp order
      have allocated : Accounted (m.allocate addr (.send (newSend m.qp op wr segs totalLen) credit)) :=
        accounted.allocate free rfl
      refine begun.flows allocated after (flows_setQp ?_)
      cases read <;> exact .refl _
  | postRead addr wr segs totalLen =>
      simp only [Machine.event] at happened
      split at happened
      · cases happened
      rename_i unknown
      have free : ∀ cell ∈ m.cells, cell.addr ≠ addr := by simpa using unknown
      obtain rfl := Option.some.inj happened
      exact inLine.begin accounted free fun kind => kind ▸ List.isEmpty_iff.mp order
  | ack psn status now =>
      have none : read = false → m.dues read = [] := fun kind => kind ▸ List.isEmpty_iff.mp order
      exact inLine.flows accounted after (flows_ack none happened)
  | readFound psn =>
      obtain ⟨addr, -, rfl⟩ := Option.map_eq_some_iff.mp happened
      exact inLine.flows accounted after (flows_retain.trans (flows_addJob rfl rfl))
  | timeout clock =>
      obtain rfl := Option.some.inj happened
      simp only [orderly, Bool.and_eq_true, List.isEmpty_iff] at order
      have none : m.dues read = [] := by
        cases read with
        | false => exact order.1.1
        | true => exact order.1.2
      exact inLine.flows accounted after (flows_timeout none order.2)
  | flushSends =>
      obtain rfl := Option.some.inj happened
      exact inLine.flows accounted after
        (flows_takeSends sendsLeave_flushSends fun kind => kind ▸ List.isEmpty_iff.mp order)
  | flushReads =>
      obtain rfl := Option.some.inj happened
      exact inLine.flows accounted after (flows_takeReads readsLeave_flushReads
        (fun _ => readsFront_flushReads m.qp) fun kind => kind ▸ List.isEmpty_iff.mp order)
  | setState state =>
      obtain rfl := Option.some.inj happened
      exact inLine.flows accounted after (flows_setQp (by cases read <;> exact .refl _))
  | close =>
      obtain rfl := Option.some.inj happened
      exact inLine.flows accounted after (flows_setQp (by cases read <;> exact .refl _))
  | setCredits credits =>
      obtain rfl := Option.some.inj happened
      exact inLine.flows accounted after (flows_setQp (by cases read <;> exact .refl _))
  | _ => cases happened

theorem InLine.step {action : Action} (accounted : Accounted m) (inLine : InLine read m)
    (allowed : kept m action = true) (order : orderly m action = true) (stepped : m.step action = some m') :
    InLine read m' := by
  have after := accounted.step allowed stepped
  rcases step_cases stepped with happened | ⟨i, job, own, found, ran⟩
  · exact inLine.event accounted order happened
  · have front := perm_eraseIdx found
    have focused : Accounted ({ m with jobs := m.jobs.eraseIdx i }.addJobs [job]) := accounted.perm front
    have lined : InLine read ({ m with jobs := m.jobs.eraseIdx i }.addJobs [job]) := inLine.perm front
    refine lined.run focused after ?_ ?_ ?_ ran
    · rintro j ret more now taking rfl
      apply dues_without
      rcases taking with rfl | rfl <;> exact List.isEmpty_iff.mp order
    · rintro j status now taking rfl
      apply dues_without
      rcases taking with rfl | ⟨rfl, failed⟩
      · exact List.isEmpty_iff.mp order
      · obtain ⟨error, rfl⟩ := Option.ne_none_iff_exists'.mp failed
        simp only [orderly, Bool.and_eq_true] at order
        exact List.isEmpty_iff.mp order.1
    · rintro j status now addr rfl rfl failed
      obtain ⟨error, rfl⟩ := Option.ne_none_iff_exists'.mp failed
      obtain rfl : j = i := Option.some.inj own
      simp only [orderly, found, Bool.and_eq_true] at order
      exact order.2

end ThunderboltVerbs.SendQueue
