import ThunderboltVerbs.Lib.System
import ThunderboltVerbs.Lib.Ledger
import ThunderboltVerbs.Verbs.Complete

/-!
# The send queue under concurrent posts, completions and flushes (`kernel/ibdev.c`)

A job is a thread between two critical sections, or a packet whose `done` callback is still to come. A
step is one critical section under the lock of the queue pair or of a context, with the code around it
that takes no such lock. A reference that is taken outside the lock (`tbv_send_ctx_get` after
`tbv_qp_queue_send`) or dropped before the lock is taken is a step of its own. Jobs take their steps in any
order. A handler that goes on after a list of completions (`tbv_qp_mark_error`, the second flush) goes on
with a step of its own.
-/

namespace ThunderboltVerbs.SendQueue
open Proto Lib Verbs

/-! ## Jobs -/

/-- A post that is `linked` has put its context on the list and has no reference of its own yet. -/
inductive Stage
  | allocated | reserved | numbered | linked | queued
  deriving DecidableEq, Repr

inductive Request
  | send (ctx : SendCtx) (creditConsumed : Bool)
  | read (ctx : ReadCtx)
  deriving DecidableEq, Repr

structure Label where
  wrId : Nat
  signaled : Bool
  deriving DecidableEq, Repr

structure Due where
  addr : Nat
  read : Bool
  label : Label
  status : Option Errno
  deriving DecidableEq, Repr

inductive Job
  /-- `tbv_post_send_one` or `tbv_post_rdma_read`. -/
  | post (stage : Stage) (addr serial : Nat) (request : Request)
  /-- `tbv_post_rdma_read` has dropped the reference of the frame that it could not send. -/
  | unqueue (addr serial : Nat) (ctx : ReadCtx) (error : Errno)
  /-- The label `err_put_ctx` of `tbv_post_rdma_read`. -/
  | unwind (addr serial : Nat) (ctx : ReadCtx) (error : Errno)
  | sendTx (addr psn : Nat)
  | sendTxFailed (addr psn : Nat) (status : Errno)
  | readTx (addr : Nat)
  | readResp (addr : Nat)
  /-- A handler that only has to drop its reference. -/
  | leaving (addr : Nat)
  | retry (addr : Nat) (reason : PostReason)
  | repost (addr psn : Nat) (reason : PostReason)
  | complete (due : List Due)
  deriving DecidableEq, Repr

def sendLabel (ctx : SendCtx) : Label := { wrId := ctx.wrId, signaled := ctx.signaled }

def readLabel (ctx : ReadCtx) : Label := { wrId := ctx.wrId, signaled := ctx.signaled }

namespace Request

def label : Request → Label
  | .send ctx _ => sendLabel ctx
  | .read ctx => readLabel ctx

def sqCounted : Request → Bool
  | .send ctx _ => ctx.sqCounted
  | .read ctx => ctx.sqCounted

def setCounted (counted : Bool) : Request → Request
  | .send ctx credit => .send { ctx with sqCounted := counted } credit
  | .read ctx => .read { ctx with sqCounted := counted }

def setPsn (psn : Nat) : Request → Request
  | .send ctx credit => .send { ctx with msg := { ctx.msg with psn } } credit
  | .read ctx => .read { ctx with psn }

def returnCredit (qp : Qp) : Request → Qp
  | .send _ credit => giveBack qp credit
  | .read _ => qp

end Request

def newSend (qp : Qp) (op : SendOp) (wr : SendWr) (segs : List Segment) (totalLen : Nat) : SendCtx :=
  { wrId := wr.wrId, msg := sendMsg qp op wr 0 totalLen, segs, signaled := wr.signaled
    maxRetries := qp.sendMaxRetries, maxRnrRetries := qp.sendMaxRnrRetries
    recvCreditRequired := recvCreditRequired op }

def newRead (wr : SendWr) (segs : List Segment) (totalLen : Nat) : ReadCtx :=
  { wrId := wr.wrId, psn := 0, totalLen, segs, signaled := wr.signaled }

/-- The contexts that the timeout walk puts on `retry_sends`. -/
def retrySends (env : ReapEnv) : Nat → List SendEntry → List (Nat × PostReason)
  | _, [] => []
  | credits, entry :: rest =>
      let later := retrySends env (Qp.visitSend env credits entry.2).2.1 rest
      match judge env credits entry.2 with
      | .retryRnr _ => (entry.1, .retryRnr) :: later
      | .retryTimeout => (entry.1, .retryTimeout) :: later
      | .skip _ | .fail .. => later

/-- The reads that `tbv_qp_timeout_reap_tx` takes off the list. -/
def readExpired (clock : Qp.Clock) (entry : ReadEntry) : Bool :=
  !entry.2.ready && entryExpired entry.2.queuedJiffies clock.now clock.timeout

/-! ## States -/

structure Done where
  serial : Nat
  read : Bool
  label : Label
  status : Option Errno
  deriving DecidableEq, Repr

structure Return where
  serial : Nat
  label : Label
  error : Option Errno
  deriving DecidableEq, Repr

/-- The serial numbers of contexts with their `labels` and their `history`, the contexts that are
`completed` and what posts `returned` are there for the statements. -/
structure Machine where
  qp : Qp
  cells : List Cell := []
  jobs : List Job := []
  serials : Nat := 0
  labels : Nat → Label
  history : History := fun _ => []
  completed : List Done := []
  returned : List Return := []
  /-- The `WARN_ON_ONCE` of `tbv_qp_release_sendq_counted_locked` was reached. -/
  warned : Bool := false

namespace Machine

/-- The entries of the send CQ, the oldest first. -/
def pushed (m : Machine) : List Done := m.completed.filter fun done => done.label.signaled

def retain (m : Machine) (addr : Nat) : Machine := { m with cells := Cell.retain m.cells addr }

def drop (m : Machine) (addr : Nat) : Machine := { m with cells := Cell.drop m.cells addr }

def mark (m : Machine) (addr : Nat) (mark : Mark) : Machine :=
  { m with history := m.history.mark (Cell.serialAt m.cells addr) mark }

def addJobs (m : Machine) (jobs : List Job) : Machine := { m with jobs := jobs ++ m.jobs }

def return_ (m : Machine) (serial : Nat) (label : Label) (error : Option Errno) : Machine :=
  { m with returned := { serial, label, error } :: m.returned }

def allocate (m : Machine) (addr : Nat) (request : Request) : Machine :=
  { m with
    cells := { addr, serial := m.serials } :: m.cells
    serials := m.serials + 1
    labels := Function.update m.labels m.serials request.label
    jobs := .post .allocated addr m.serials request :: m.jobs }

def updateSend (m : Machine) (addr : Nat) (f : SendCtx → SendCtx) : Machine :=
  { m with qp := m.qp.updateSend (fun entry => entry.1 = addr) f }

def release (m : Machine) (qp : Qp) (slots : List Nat) : Machine :=
  { slots.foldl (fun m addr => m.mark addr .released) m with
    qp
    warned := m.warned || decide (m.qp.sendqCount < slots.length) }

def sendSlots (qp : Qp) (addrs : List Nat) : List Nat :=
  (qp.pendingSends.filter fun entry => entry.2.sqCounted && addrs.contains entry.1).map Prod.fst

def readSlots (qp : Qp) (addrs : List Nat) : List Nat :=
  (qp.pendingReads.filter fun entry => entry.2.sqCounted && addrs.contains entry.1).map Prod.fst

def takeSends (m : Machine) (result : Qp × List SendEntry) : Machine :=
  (m.release result.1 (sendSlots m.qp (result.2.map Prod.fst))).addJobs
    [.complete (result.2.map fun entry =>
      { addr := entry.1, read := false, label := sendLabel entry.2, status := entry.2.completionStatus })]

def takeReads (m : Machine) (result : Qp × List ReadEntry) (status : ReadCtx → Option Errno) : Machine :=
  (m.release result.1 (readSlots m.qp (result.2.map Prod.fst))).addJobs
    [.complete (result.2.map fun entry =>
      { addr := entry.1, read := true, label := readLabel entry.2, status := status entry.2 })]

/-- `tbv_send_complete` or `tbv_read_complete`. -/
def finish (m : Machine) (due : Due) : Machine :=
  match m.cells.find? fun cell => cell.addr = due.addr with
  | none => m
  | some cell =>
      if cell.completed then m
      else
        { m.mark due.addr .completed with
          cells := Cell.finish m.cells due.addr
          completed := m.completed ++
            [{ serial := cell.serial, read := due.read, label := due.label, status := due.status }] }

def countedAt (m : Machine) (addr : Nat) : Bool :=
  (m.qp.pendingSends.any fun entry => entry.1 = addr && entry.2.sqCounted) ||
    (m.qp.pendingReads.any fun entry => entry.1 = addr && entry.2.sqCounted) ||
    m.jobs.any fun
      | .post stage own _ request =>
          stage ≠ .linked && stage ≠ .queued && own = addr && request.sqCounted
      | _ => false

def clearCounted (m : Machine) (addr : Nat) : Machine :=
  { m with
    qp := { m.qp with
      pendingSends := m.qp.pendingSends.map fun entry =>
        if entry.1 = addr then (entry.1, { entry.2 with sqCounted := false }) else entry
      pendingReads := m.qp.pendingReads.map fun entry =>
        if entry.1 = addr then (entry.1, { entry.2 with sqCounted := false }) else entry }
    jobs := m.jobs.map fun
      | .post stage own serial request =>
          .post stage own serial (if own = addr then request.setCounted false else request)
      | job => job }

/-- `tbv_native_send_ctx_post_frames` queued one packet and `more` others. -/
def transmit (m : Machine) (addr psn more : Nat) : Machine :=
  let queued := m.updateSend addr fun send => { send with txPending := send.txPending + (more + 1) }
  { queued with
    cells := Nat.repeat (fun cells => Cell.retain cells addr) (more + 1) m.cells
    jobs := List.replicate (more + 1) (.sendTx addr psn) ++ m.jobs }

end Machine

/-! ## Steps -/

inductive Action
  | postSend (addr : Nat) (op : SendOp) (wr : SendWr) (segs : List Segment) (totalLen : Nat)
  | postRead (addr : Nat) (wr : SendWr) (segs : List Segment) (totalLen : Nat)
  | ack (psn : Nat) (status : SendAckStatus) (now : Nat)
  | readFound (psn : Nat)
  | timeout (clock : Qp.Clock)
  | flushSends
  | flushReads
  | setState (state : QpState)
  | close
  | setCredits (credits : Nat)
  /-- The next critical section of a post. -/
  | advance (i : Nat)
  | abandon (i : Nat) (error : Errno)
  | sent (i more : Nat)
  | failed (i : Nat) (error : Errno)
  | unqueue (i : Nat)
  | unwind (i : Nat)
  | sendTxDone (i : Nat) (status : Option Errno) (now : Nat)
  | sendTxFail (i : Nat)
  | readTxDone (i : Nat) (status : Option Errno) (now : Nat)
  | readDone (i : Nat) (status : Option Errno)
  | leave (i : Nat)
  | retryCheck (i : Nat)
  | repost (i : Nat) (ret : Option Errno) (more now : Nat)
  | complete (i : Nat)
  deriving DecidableEq, Repr

namespace Machine

/-- The critical sections of a post before its frames go out. -/
def advance (m : Machine) (addr serial : Nat) (request : Request) : Stage → Option Machine
  | .allocated =>
      match m.qp.reserveSendq with
      | .ok qp =>
          some ({ m.mark addr .reserved with qp }.addJobs
            [.post .reserved addr serial (request.setCounted true)])
      | .error error =>
          some ({ (m.mark addr .refused).drop addr with qp := request.returnCredit m.qp }.return_ serial
            request.label (some error))
  | .reserved =>
      some ({ m with qp := m.qp.takePsn.1 }.addJobs
        [.post .numbered addr serial (request.setPsn m.qp.takePsn.2)])
  | .numbered =>
      match request with
      | .send ctx _ =>
          some ({ m with qp := m.qp.queueSend addr ctx }.addJobs [.post .linked addr serial request])
      | .read ctx =>
          some ({ m with qp := m.qp.queueRead addr ctx }.addJobs [.post .linked addr serial request])
  | .linked => some ((m.retain addr).addJobs [.post .queued addr serial request])
  | .queued => none

def sent (m : Machine) (addr serial more : Nat) : Request → Machine
  | .send ctx _ => ((m.transmit addr ctx.msg.psn more).drop addr).return_ serial (sendLabel ctx) none
  | .read ctx => (m.addJobs [.readTx addr]).return_ serial (readLabel ctx) none

def failed (m : Machine) (addr serial : Nat) (error : Errno) : Request → Machine
  | .send ctx credit =>
      match m.qp.unqueueSend addr with
      | (qp, true) =>
          let refused := ((m.release qp (sendSlots m.qp [addr])).mark addr .refused)
          (({ refused with qp := giveBack qp credit }.drop addr).drop addr).return_ serial (sendLabel ctx)
            (some error)
      | (_, false) => (m.drop addr).return_ serial (sendLabel ctx) (some error)
  | .read ctx => (m.drop addr).addJobs [.unqueue addr serial ctx error]

/-- `tbv_post_rdma_read` goes on whether or not it finds its context. -/
def unqueue (m : Machine) (addr serial : Nat) (ctx : ReadCtx) (error : Errno) : Machine :=
  match m.qp.unqueueRead addr with
  | (qp, true) => (m.release qp (readSlots m.qp [addr])).addJobs [.unwind addr serial ctx error]
  | (_, false) => m.addJobs [.unwind addr serial ctx error]

def unwind (m : Machine) (addr serial : Nat) (ctx : ReadCtx) (error : Errno) : Machine :=
  let released :=
    if m.countedAt addr then (m.release m.qp.releaseSendq [addr]).clearCounted addr else m
  ((released.mark addr .refused).drop addr).return_ serial (readLabel ctx) (some error)

def sendTxDone (m : Machine) (addr psn : Nat) (status : Option Errno) (now : Nat) : Machine :=
  let counted := m.updateSend addr fun send => send.packetDone status.isNone now
  match status with
  | none => counted.drop addr
  | some error => counted.addJobs [.sendTxFailed addr psn error]

def readTxDone (m : Machine) (addr : Nat) (status : Option Errno) (now : Nat) : Machine :=
  match status with
  | none => { m with qp := m.qp.armReadTimeout addr now }.drop addr
  | some error =>
      match m.qp.pendingReads.find? fun entry => entry.1 = addr with
      | none => m.drop addr
      | some entry =>
          (m.takeReads ((m.qp.unqueueRead addr).1, [entry]) fun _ => some error).addJobs [.leaving addr]

def retryCheck (m : Machine) (addr : Nat) (reason : PostReason) : Machine :=
  match m.qp.pendingSends.find? fun entry => entry.1 = addr with
  | none => m.drop addr
  | some (_, send) =>
      let completed := m.cells.any fun cell => cell.addr = addr && cell.completed
      if !completed && !m.qp.closing && m.qp.state ≠ .err && !send.rnrWaiting && send.txPending = 0 then
        m.addJobs [.repost addr send.msg.psn reason]
      else
        (m.updateSend addr fun send => { send with retrying := false }).drop addr

def repost (m : Machine) (addr psn : Nat) (reason : PostReason) (ret : Option Errno) (more now : Nat) :
    Machine :=
  let posted := if ret.isNone then m.transmit addr psn more else m
  let result :=
    if posted.qp.pendingSends.any fun entry => entry.1 = addr then posted.qp.retried addr reason ret now
    else (posted.qp, [])
  (posted.takeSends result).addJobs [.leaving addr]

def ack (m : Machine) (psn : Nat) (status : SendAckStatus) (now : Nat) : Option Machine :=
  (m.qp.pendingSends.find? (Qp.hasPsn psn)).map fun entry =>
    let result :=
      match status with
      | .ok => m.qp.completeSendOrdered psn none
      | .rnr => m.qp.noteRnrAck psn now
      | .error => m.qp.completeSendOrdered psn (some .eIo)
    ((m.retain entry.1).takeSends result).addJobs [.leaving entry.1]

def timeout (m : Machine) (clock : Qp.Clock) : Machine :=
  let retries := retrySends (m.qp.reapEnv clock) m.qp.remoteRecvCredits m.qp.pendingSends
  let retained : Machine :=
    { m with
      cells := retries.foldl (fun cells entry => Cell.retain cells entry.1) m.cells
      jobs := retries.map (fun entry => .retry entry.1 entry.2) ++ m.jobs }
  let sends := retained.takeSends (m.qp.timeoutReapSends clock)
  sends.takeReads (sends.qp.timeoutReapReads clock) fun _ => some .eTimedOut

/-- A job takes its step in a machine without it. -/
def run (m : Machine) (job : Job) (action : Action) : Option Machine :=
  match action, job with
  | .advance _, .post stage addr serial request => m.advance addr serial request stage
  | .abandon _ error, .post .numbered addr serial (.read ctx) =>
      some ((((m.release m.qp.releaseSendq [addr]).mark addr .refused).drop addr).return_ serial
        (readLabel ctx) (some error))
  | .sent _ more, .post .queued addr serial request => some (m.sent addr serial more request)
  | .failed _ error, .post .queued addr serial request => some (m.failed addr serial error request)
  | .unqueue _, .unqueue addr serial ctx error => some (m.unqueue addr serial ctx error)
  | .unwind _, .unwind addr serial ctx error => some (m.unwind addr serial ctx error)
  | .sendTxDone _ status now, .sendTx addr psn => some (m.sendTxDone addr psn status now)
  | .sendTxFail _, .sendTxFailed addr psn error =>
      some ((m.takeSends (m.qp.completeSendOrdered psn (some error))).addJobs [.leaving addr])
  | .readTxDone _ status now, .readTx addr => some (m.readTxDone addr status now)
  | .readDone _ status, .readResp addr =>
      some ((m.takeReads (m.qp.completeReadOrdered addr status) ReadCtx.completionStatus).addJobs
        [.leaving addr])
  | .leave _, .readResp addr => some (m.drop addr)
  | .leave _, .leaving addr => some (m.drop addr)
  | .retryCheck _, .retry addr reason => some (m.retryCheck addr reason)
  | .repost _ ret more now, .repost addr psn reason => some (m.repost addr psn reason ret more now)
  | .complete _, .complete [] => some m
  | .complete _, .complete (due :: rest) => some (((m.finish due).drop due.addr).addJobs [.complete rest])
  | _, _ => none

end Machine

def Action.job : Action → Option Nat
  | .advance i | .abandon i _ | .sent i _ | .failed i _ | .unqueue i | .unwind i | .sendTxDone i _ _
  | .sendTxFail i | .readTxDone i _ _ | .readDone i _ | .leave i | .retryCheck i | .repost i _ _ _
  | .complete i => some i
  | _ => none

namespace Machine

/-- The steps that no job takes. A post starts here once it got its credit and its context. -/
def event (m : Machine) : Action → Option Machine
  | .postSend addr op wr segs totalLen =>
      if m.cells.any fun cell => cell.addr = addr then none
      else
        match takeCredit m.qp op with
        | .error _ => none
        | .ok (qp, credit) =>
            some { m.allocate addr (.send (newSend m.qp op wr segs totalLen) credit) with qp }
  | .postRead addr wr segs totalLen =>
      if m.cells.any fun cell => cell.addr = addr then none
      else some (m.allocate addr (.read (newRead wr segs totalLen)))
  | .ack psn status now => m.ack psn status now
  | .readFound psn => (m.qp.findRead psn).map fun addr => (m.retain addr).addJobs [.readResp addr]
  | .timeout clock => some (m.timeout clock)
  | .flushSends => some (m.takeSends m.qp.flushSends)
  | .flushReads => some (m.takeReads m.qp.flushReads fun _ => some .eCanceled)
  | .setState state => some { m with qp := { m.qp with state } }
  | .close => some { m with qp := { m.qp with closing := true } }
  | .setCredits credits => some { m with qp := { m.qp with remoteRecvCredits := credits } }
  | _ => none

def step (m : Machine) (action : Action) : Option Machine :=
  match action.job with
  | none => m.event action
  | some i =>
      match m.jobs[i]? with
      | none => none
      | some job => { m with jobs := m.jobs.eraseIdx i }.run job action

end Machine

structure Idle (m : Machine) : Prop where
  sends : m.qp.pendingSends = []
  reads : m.qp.pendingReads = []
  count : m.qp.sendqCount = 0
  cells : m.cells = []
  jobs : m.jobs = []
  serials : m.serials = 0
  history : m.history = fun _ => []
  completed : m.completed = []
  returned : m.returned = []
  warned : m.warned = false

def machine : System Machine Action where
  init := Idle
  step := Machine.step

end ThunderboltVerbs.SendQueue
