import ThunderboltVerbs.Verbs.Send
import ThunderboltVerbs.Lib.Keyed
import ThunderboltVerbs.Lib.System
import ThunderboltVerbs.Lib.Tally

/-!
# The transmit window of an Apple queue pair (`kernel/ibdev.c`)

The send-queue worker takes the window under the lock of the queue pair, reserves frames on the path, and only
then records in the context what it took. `tbv_send_complete` gives back what it finds recorded. A context keeps
its name after it is completed.
-/

namespace ThunderboltVerbs.Apple
open Proto Lib Verbs

/-! ## The window (`proto/apple_tx.h`) -/

def txFrameCharge (frames maxFrames : Nat) : Nat :=
  if maxFrames = 0 then 0 else if frames < maxFrames then frames else maxFrames

def txRequiresExclusiveWindow (frames : Nat) : Bool := frames > 0

/-- The conversion of an `unsigned int` to `int`. -/
def toInt32 (n : Nat) : Int := if n < 2 ^ 31 then n else n - 2 ^ 32

def txWindowOk (curWr curFrames : Int) (exclusive : Bool) (maxWr maxFrames frameCharge : Nat) : Bool :=
  if curWr < 0 ∨ curFrames < 0 then false
  else if exclusive && (curWr ≠ 0 || curFrames ≠ 0) then false
  else if !exclusive && maxWr ≠ 0 && toInt32 maxWr ≤ curWr then false
  else !(maxFrames ≠ 0 && maxFrames < (curFrames.toNat + frameCharge) % 2 ^ 32)

def stateUsesTransport : QpState → Bool
  | .rtr | .rts | .sqd | .sqe => true
  | .reset | .init | .err => false

/-! ## Contexts and the worker -/

structure Window where
  wrAcquired : Bool
  frames : Nat
  deriving DecidableEq, Repr

def Window.wrs (window : Window) : Nat := window.wrAcquired.toNat

/-- `window` is what is recorded while `apple_window_acquired` is set, `inRing` the posted frames that are not done. -/
structure AppleSend where
  psn : Nat
  descs : Nat
  armed : Bool := false
  applePending : Int := 0
  inRing : Nat := 0
  ready : Bool := false
  completed : Bool := false
  window : Option Window := none
  deriving DecidableEq, Repr

abbrev AppleEntry := Nat × AppleSend

/-- Where `tbv_apple_sq_work` is with the entry it popped. -/
inductive SqWorker
  | idle
  | popped (addr : Nat)
  | holding (addr : Nat) (window : Window)
  | reserved (addr : Nat) (window : Window)
  | transmitting (addr : Nat)
  | failed (addr : Nat)
  deriving DecidableEq, Repr

/-- `completing` are the contexts that somebody took off `pending_sends` and is about to complete. -/
structure AppleTx where
  closing : Bool := false
  state : QpState := .reset
  inflight : Int := 0
  inflightFrames : Int := 0
  sends : List AppleEntry := []
  pendingSends : List Nat := []
  sq : List Nat := []
  completing : List Nat := []
  worker : SqWorker := .idle
  deriving DecidableEq, Repr

inductive TxAction
  | post (addr psn descs : Nat)
  | pop
  | refuse
  | acquire (maxWr maxFrames : Nat)
  | reserve (ret : Option Errno)
  | record
  | postFrame
  | transmitted (ret : Option Errno)
  | unqueue
  | txDone (addr : Nat) (failed : Bool)
  | timeout (addr : Nat)
  | setState (state : QpState)
  | close
  | flushSq
  | flushSends
  | complete (addr : Nat)
  deriving DecidableEq, Repr

namespace AppleTx

def find (s : AppleTx) (addr : Nat) : Option AppleSend :=
  (s.sends.find? fun entry => entry.1 = addr).map Prod.snd

def update (s : AppleTx) (addr : Nat) (f : AppleSend → AppleSend) : AppleTx :=
  { s with sends := s.sends.map fun entry => if entry.1 = addr then (entry.1, f entry.2) else entry }

def stopping (s : AppleTx) : Bool := s.closing || !stateUsesTransport s.state

def isReady (s : AppleTx) (addr : Nat) : Bool := (s.find addr).any AppleSend.ready

def drainReadySends (s : AppleTx) : AppleTx :=
  { s with
    pendingSends := s.pendingSends.dropWhile s.isReady
    completing := s.completing ++ s.pendingSends.takeWhile s.isReady }

/-- `tbv_qp_complete_send_ordered` on the first pending context with that PSN. -/
def completeSendOrdered (s : AppleTx) (psn : Nat) : AppleTx :=
  match s.pendingSends.find? fun addr => (s.find addr).any fun send => send.psn = psn with
  | none => s
  | some addr => (s.update addr fun send => { send with ready := true }).drainReadySends

def release (s : AppleTx) (window : Window) : AppleTx :=
  { s with
    inflight := if window.wrAcquired then s.inflight - 1 else s.inflight
    inflightFrames := s.inflightFrames - window.frames }

/-- `tbv_qp_try_acquire_apple_tx_window`; `none` when the caller has to wait. -/
def tryAcquire (s : AppleTx) (addr frames maxWr maxFrames : Nat) : Option AppleTx :=
  let frameCharge := txFrameCharge frames maxFrames
  let exclusive := txRequiresExclusiveWindow frames
  if !exclusive && maxWr = 0 && maxFrames = 0 then
    some { s with worker := .holding addr { wrAcquired := false, frames := 0 } }
  else if s.stopping then some { s with worker := .failed addr }
  else if txWindowOk s.inflight s.inflightFrames exclusive maxWr maxFrames frameCharge then
    let window : Window := { wrAcquired := maxWr ≠ 0 || exclusive, frames := frameCharge }
    some { s with
      inflight := if window.wrAcquired then s.inflight + 1 else s.inflight
      inflightFrames := s.inflightFrames + frameCharge
      worker := .holding addr window }
  else none

/-- `tbv_send_complete`. -/
def sendComplete (s : AppleTx) (addr : Nat) : AppleTx :=
  match s.find addr with
  | none => s
  | some send =>
      if send.completed then s
      else
        let done := s.update addr fun send => { send with completed := true, window := none }
        match send.window with
        | none => done
        | some window => done.release window

def step (s : AppleTx) : TxAction → Option AppleTx
  | .post addr psn descs =>
      if s.stopping || descs = 0 || s.sends.any fun entry => entry.1 = addr then none
      else
        some { s with
          sends := s.sends ++ [(addr, { psn, descs })]
          pendingSends := s.pendingSends ++ [addr], sq := s.sq ++ [addr] }
  | .pop =>
      match s.worker, s.sq with
      | .idle, addr :: rest => some { s with sq := rest, worker := .popped addr }
      | _, _ => none
  | .refuse =>
      match s.worker with
      | .popped addr => some { s with worker := .failed addr }
      | _ => none
  | .acquire maxWr maxFrames =>
      match s.worker with
      | .popped addr =>
          (s.find addr).bind fun send => s.tryAcquire addr send.descs maxWr maxFrames
      | _ => none
  | .reserve ret =>
      match s.worker with
      | .holding addr window =>
          match ret with
          | none => some { s with worker := .reserved addr window }
          | some .eNoMem => some { s.release window with worker := .popped addr }
          | some _ => some { s.release window with worker := .failed addr }
      | _ => none
  | .record =>
      match s.worker with
      | .reserved addr window =>
          some { s.update addr fun send =>
              { send with
                window := if window.wrAcquired || window.frames ≠ 0 then some window else none
                applePending := send.descs
                armed := send.armed || s.pendingSends.contains addr } with
            worker := .transmitting addr }
      | _ => none
  | .postFrame =>
      match s.worker with
      | .transmitting addr => some (s.update addr fun send => { send with inRing := send.inRing + 1 })
      | _ => none
  | .transmitted ret =>
      match s.worker with
      | .transmitting addr => some { s with worker := if ret.isSome then .failed addr else .idle }
      | _ => none
  | .unqueue =>
      match s.worker with
      | .failed addr =>
          if s.pendingSends.contains addr then
            some { s with
              pendingSends := s.pendingSends.erase addr, completing := s.completing ++ [addr], worker := .idle }
          else some { s with worker := .idle }
      | _ => none
  | .txDone addr failed =>
      match s.find addr with
      | none => none
      | some send =>
          if send.inRing = 0 then none
          else
            let counted := s.update addr fun send =>
              { send with inRing := send.inRing - 1, applePending := send.applePending - 1 }
            some (if failed || send.applePending = 1 then counted.completeSendOrdered send.psn else counted)
  | .timeout addr =>
      if s.pendingSends.contains addr && (s.find addr).any AppleSend.armed then
        some (s.update addr fun send => { send with ready := true }).drainReadySends
      else none
  | .setState state => some { s with state }
  | .close => some { s with closing := true }
  | .flushSq =>
      some { s with
        sq := []
        pendingSends := s.pendingSends.filter fun addr => !s.sq.contains addr
        completing := s.completing ++ s.sq.filter s.pendingSends.contains }
  | .flushSends => some { s with pendingSends := [], completing := s.completing ++ s.pendingSends }
  | .complete addr =>
      if s.completing.contains addr then
        some { s.sendComplete addr with completing := s.completing.erase addr }
      else none

end AppleTx

def windowSystem : System AppleTx TxAction where
  init := fun s => s = {}
  step := AppleTx.step

/-! ## What is held -/

namespace SqWorker

/-- The context whose window is not recorded yet. -/
def early : SqWorker → List Nat
  | .popped addr | .holding addr _ | .reserved addr _ => [addr]
  | .idle | .transmitting _ | .failed _ => []

def unrecorded : SqWorker → Option (Nat × Window)
  | .holding addr window | .reserved addr window => some (addr, window)
  | .idle | .popped _ | .transmitting _ | .failed _ => none

end SqWorker

def AppleSend.recorded (measure : Window → Nat) (send : AppleSend) : Nat := (send.window.map measure).getD 0

namespace AppleTx

/-- What the worker took for the context at `addr` and has not recorded. -/
def unrecordedFor (s : AppleTx) (measure : Window → Nat) (addr : Nat) : Nat :=
  match s.worker.unrecorded with
  | none => 0
  | some (target, window) => if addr = target then measure window else 0

/-- What the contexts that are not completed hold. -/
def held (s : AppleTx) (measure : Window → Nat) : Nat :=
  tally (fun entry => if entry.2.completed then 0 else entry.2.recorded measure + s.unrecordedFor measure entry.1)
    s.sends

def isCompleted (s : AppleTx) (addr : Nat) : Bool := (s.find addr).any AppleSend.completed

/-- The worker takes the window for a context that is not completed, and no context is completed before what was
taken for it is recorded. -/
def recordsInTime (s : AppleTx) : TxAction → Bool
  | .acquire .. => s.stopping || s.worker.early.all fun addr => !s.isCompleted addr
  | .complete addr => s.worker.unrecorded.all fun unrecorded => unrecorded.1 ≠ addr
  | _ => true

/-- What an entry is to the balance. -/
def brief (entry : AppleEntry) : Nat × Bool × Option Window × Nat :=
  (entry.1, entry.2.completed, entry.2.window, entry.2.descs)

def unrecordedAmount (s : AppleTx) (measure : Window → Nat) : Nat :=
  (s.worker.unrecorded.map fun unrecorded => measure unrecorded.2).getD 0

structure Inv (s : AppleTx) : Prop where
  distinct : (s.sends.map Prod.fst).Nodup
  wrs : s.inflight = (tally (fun entry => entry.2.recorded Window.wrs) s.sends + s.unrecordedAmount Window.wrs : Nat)
  frames : s.inflightFrames =
    (tally (fun entry => entry.2.recorded Window.frames) s.sends + s.unrecordedAmount Window.frames : Nat)
  queued : (s.worker.early ++ s.sq).Nodup
  known : ∀ addr ∈ s.worker.early ++ s.sq, addr ∈ s.sends.map Prod.fst
  bare : ∀ entry ∈ s.sends, entry.2.completed = true ∨ entry.1 ∈ s.worker.early ++ s.sq → entry.2.window = none
  live : ∀ unrecorded ∈ s.worker.unrecorded, ∀ entry ∈ s.sends, entry.1 = unrecorded.1 → entry.2.completed = false
  sized : ∀ entry ∈ s.sends, entry.2.descs ≠ 0

variable {s s' : AppleTx}

theorem tally_of_brief (measure : Window → Nat) {sends sends' : List AppleEntry}
    (same : sends'.map brief = sends.map brief) :
    tally (fun entry => entry.2.recorded measure) sends' = tally (fun entry => entry.2.recorded measure) sends := by
  have briefs := congrArg (tally fun b : Nat × Bool × Option Window × Nat => (b.2.2.1.map measure).getD 0) same
  rw [tally_map, tally_map] at briefs
  exact briefs

theorem Inv.quiet (inv : Inv s) (same : s'.sends.map brief = s.sends.map brief) (wrs : s'.inflight = s.inflight)
    (frames : s'.inflightFrames = s.inflightFrames)
    (part : (s'.worker.early ++ s'.sq).Sublist (s.worker.early ++ s.sq))
    (unrecorded : s'.worker.unrecorded = s.worker.unrecorded) : Inv s' := by
  have keys : s'.sends.map Prod.fst = s.sends.map Prod.fst := by
    have firsts := congrArg (List.map Prod.fst) same
    rw [List.map_map, List.map_map] at firsts
    exact firsts
  have old : ∀ entry ∈ s'.sends, ∃ entry' ∈ s.sends, brief entry' = brief entry := fun entry member => by
    have inside : brief entry ∈ s.sends.map brief := same ▸ List.mem_map_of_mem member
    exact List.mem_map.mp inside
  constructor
  · rw [keys]
    exact inv.distinct
  · rw [wrs, inv.wrs, tally_of_brief _ same, unrecordedAmount, unrecordedAmount, unrecorded]
  · rw [frames, inv.frames, tally_of_brief _ same, unrecordedAmount, unrecordedAmount, unrecorded]
  · exact part.nodup inv.queued
  · intro addr member
    rw [keys]
    exact inv.known addr (part.mem member)
  · intro entry member reason
    obtain ⟨entry', inside, equal⟩ := old entry member
    simp only [brief, Prod.mk.injEq] at equal
    rw [← equal.2.2.1]
    refine inv.bare entry' inside ?_
    rw [equal.1, equal.2.1]
    exact reason.imp_right part.mem
  · intro target taken entry member own
    obtain ⟨entry', inside, equal⟩ := old entry member
    simp only [brief, Prod.mk.injEq] at equal
    rw [← equal.2.1]
    exact inv.live target (unrecorded ▸ taken) entry' inside (equal.1.trans own)
  · intro entry member
    obtain ⟨entry', inside, equal⟩ := old entry member
    simp only [brief, Prod.mk.injEq] at equal
    rw [← equal.2.2.2]
    exact inv.sized entry' inside

theorem brief_update {addr : Nat} {f : AppleSend → AppleSend} (same : ∀ send,
      (f send).completed = send.completed ∧ (f send).window = send.window ∧ (f send).descs = send.descs) :
    (s.update addr f).sends.map brief = s.sends.map brief := by
  simp only [update, List.map_map]
  refine List.map_congr_left fun entry _ => ?_
  simp only [Function.comp_apply]
  split
  · simp [brief, same]
  · rfl

/-- The worker and the queue stay as they are, too. -/
structure Quiet (s s' : AppleTx) : Prop where
  same : s'.sends.map brief = s.sends.map brief
  wrs : s'.inflight = s.inflight
  frames : s'.inflightFrames = s.inflightFrames
  worker : s'.worker = s.worker
  sq : s'.sq = s.sq

theorem Inv.still (inv : Inv s) (quiet : Quiet s s') : Inv s' := by
  refine inv.quiet quiet.same quiet.wrs quiet.frames ?_ (by rw [quiet.worker])
  rw [quiet.worker, quiet.sq]

theorem Quiet.trans {s'' : AppleTx} (first : Quiet s s') (second : Quiet s' s'') : Quiet s s'' :=
  ⟨second.same.trans first.same, second.wrs.trans first.wrs, second.frames.trans first.frames,
    second.worker.trans first.worker, second.sq.trans first.sq⟩

theorem quiet_update {addr : Nat} {f : AppleSend → AppleSend} (same : ∀ send,
      (f send).completed = send.completed ∧ (f send).window = send.window ∧ (f send).descs = send.descs) :
    Quiet s (s.update addr f) :=
  ⟨brief_update same, rfl, rfl, rfl, rfl⟩

theorem quiet_ready (addr : Nat) : Quiet s (s.update addr fun send => { send with ready := true }) :=
  quiet_update fun _ => ⟨rfl, rfl, rfl⟩

theorem quiet_drainReadySends : Quiet s s.drainReadySends := ⟨rfl, rfl, rfl, rfl, rfl⟩

theorem quiet_completeSendOrdered (psn : Nat) : Quiet s (s.completeSendOrdered psn) := by
  rw [completeSendOrdered]
  split
  · exact ⟨rfl, rfl, rfl, rfl, rfl⟩
  · exact (quiet_ready _).trans quiet_drainReadySends

theorem mem_of_find {addr : Nat} {send : AppleSend} (found : s.find addr = some send) : (addr, send) ∈ s.sends := by
  obtain ⟨entry, inside, rfl⟩ := Option.map_eq_some_iff.mp found
  have own : entry.1 = addr := by simpa using List.find?_some inside
  rw [← own]
  exact List.mem_of_find?_eq_some inside

theorem Inv.find_of_mem (inv : Inv s) {entry : AppleEntry} (member : entry ∈ s.sends) :
    s.find entry.1 = some entry.2 := by
  cases found : s.find entry.1 with
  | none =>
      have missing := List.find?_eq_none.mp (Option.map_eq_none_iff.mp found) entry member
      simp at missing
  | some send => rw [← List.inj_on_of_nodup_map inv.distinct (mem_of_find found) member rfl]

theorem keys_update (addr : Nat) (f : AppleSend → AppleSend) :
    (s.update addr f).sends.map Prod.fst = s.sends.map Prod.fst := by
  simp only [update, List.map_map]
  refine List.map_congr_left fun entry _ => ?_
  simp only [Function.comp_apply]
  split <;> rfl

theorem Inv.tally_update (inv : Inv s) (measure : Window → Nat) {addr : Nat} {send : AppleSend}
    (member : (addr, send) ∈ s.sends) (f : AppleSend → AppleSend) :
    tally (fun entry => entry.2.recorded measure) (s.update addr f).sends + send.recorded measure =
      tally (fun entry => entry.2.recorded measure) s.sends + (f send).recorded measure := by
  have distinct : (s.sends.map Prod.fst).Nodup := inv.distinct
  exact tally_updateKey distinct member fun entry => (entry.1, f entry.2)

theorem mem_update {addr : Nat} {f : AppleSend → AppleSend} {entry : AppleEntry}
    (member : entry ∈ (s.update addr f).sends) :
    entry ∈ s.sends ∧ entry.1 ≠ addr ∨ ∃ send, (addr, send) ∈ s.sends ∧ entry = (addr, f send) := by
  obtain ⟨old, inside, rfl⟩ := List.mem_map.mp member
  by_cases own : old.1 = addr
  · rw [if_pos own, own]
    exact .inr ⟨old.2, own ▸ inside, rfl⟩
  · rw [if_neg own]
    exact .inl ⟨inside, own⟩

theorem Inv.post (inv : Inv s) {addr psn descs : Nat} (stepped : s.step (.post addr psn descs) = some s') :
    Inv s' := by
  simp only [step, Option.ite_none_left_eq_some, Bool.or_eq_true, not_or, Bool.not_eq_true, Option.some.injEq]
    at stepped
  obtain ⟨⟨⟨-, sized⟩, fresh⟩, rfl⟩ := stepped
  have unknown : addr ∉ s.sends.map Prod.fst := fun member => by
    obtain ⟨entry, inside, equal⟩ := List.mem_map.mp member
    exact absurd (List.any_eq_false.mp fresh entry inside) (by simp [equal])
  have apart : ∀ key ∈ s.sends.map Prod.fst, ∀ other ∈ [addr], key ≠ other := fun key member other single same => by
    rw [List.mem_singleton.mp single] at same
    exact unknown (same ▸ member)
  constructor
  · rw [List.map_append, List.nodup_append]
    exact ⟨inv.distinct, List.nodup_singleton _, apart⟩
  · rw [tally_append]
    exact inv.wrs
  · rw [tally_append]
    exact inv.frames
  · rw [← List.append_assoc, List.nodup_append]
    exact ⟨inv.queued, List.nodup_singleton _, fun key member => apart key (inv.known key member)⟩
  · intro key member
    rw [List.map_append]
    rw [← List.append_assoc] at member
    exact List.mem_append.mpr ((List.mem_append.mp member).imp_left (inv.known key))
  · intro entry member reason
    rcases List.mem_append.mp member with old | new
    · refine inv.bare entry old (reason.imp_right fun queued => ?_)
      rw [← List.append_assoc] at queued
      refine (List.mem_append.mp queued).resolve_right fun single => ?_
      exact apart entry.1 (List.mem_map_of_mem old) entry.1 single rfl
    · rw [List.mem_singleton.mp new]
  · intro target taken entry member own
    rcases List.mem_append.mp member with old | new
    · exact inv.live target taken entry old own
    · rw [List.mem_singleton.mp new]
  · intro entry member
    rcases List.mem_append.mp member with old | new
    · exact inv.sized entry old
    · rw [List.mem_singleton.mp new]
      simpa using sized

theorem Inv.take (inv : Inv s) {addr : Nat} (popped : s.worker = .popped addr) (window : Window)
    (open_ : s.isCompleted addr = false) :
    Inv { s with
      inflight := if window.wrAcquired then s.inflight + 1 else s.inflight
      inflightFrames := s.inflightFrames + window.frames
      worker := .holding addr window } := by
  have wrs := inv.wrs
  have frames := inv.frames
  have queued := inv.queued
  have known := inv.known
  have bare := inv.bare
  simp only [unrecordedAmount, popped, SqWorker.unrecorded, SqWorker.early] at wrs frames queued known bare
  refine ⟨inv.distinct, ?_, ?_, queued, known, bare, ?_, inv.sized⟩
  · rw [wrs]
    cases acquired : window.wrAcquired <;>
      simp [unrecordedAmount, SqWorker.unrecorded, Window.wrs, acquired]
  · rw [frames]
    simp [unrecordedAmount, SqWorker.unrecorded]
  · intro target taken entry member own
    obtain rfl := Option.some.inj taken
    have found := inv.find_of_mem member
    rw [own] at found
    simpa [isCompleted, found] using open_

theorem Inv.giveBack (inv : Inv s) {addr : Nat} {window : Window} (holding : s.worker = .holding addr window)
    {worker : SqWorker} (early : worker.early.Sublist [addr]) (none : worker.unrecorded = none) :
    Inv { s.release window with worker } := by
  have wrs := inv.wrs
  have frames := inv.frames
  have queued := inv.queued
  have known := inv.known
  have bare := inv.bare
  simp only [unrecordedAmount, holding, SqWorker.unrecorded, SqWorker.early] at wrs frames queued known bare
  have part : (worker.early ++ s.sq).Sublist ([addr] ++ s.sq) := early.append (List.Sublist.refl _)
  refine ⟨inv.distinct, ?_, ?_, part.nodup queued, fun key member => known key (part.mem member),
    fun entry member reason => bare entry member (reason.imp_right part.mem), ?_, inv.sized⟩
  · simp only [release, wrs, unrecordedAmount, none]
    cases acquired : window.wrAcquired <;> simp [Window.wrs, acquired]
  · simp [release, frames, unrecordedAmount, none]
  · intro target taken
    rw [none] at taken
    cases taken

theorem recorded_none {measure : Window → Nat} {send : AppleSend} (bare : send.window = none) :
    send.recorded measure = 0 := by
  rw [AppleSend.recorded, bare]
  rfl

theorem Inv.record (inv : Inv s) {addr : Nat} {window : Window} (reserved : s.worker = .reserved addr window)
    {f : AppleSend → AppleSend} (same : ∀ send, (f send).completed = send.completed ∧ (f send).descs = send.descs)
    (recorded : ∀ send, (f send).window = if window.wrAcquired || window.frames ≠ 0 then some window else none) :
    Inv { s.update addr f with worker := .transmitting addr } := by
  have wrs := inv.wrs
  have frames := inv.frames
  have queued := inv.queued
  have known := inv.known
  have bare := inv.bare
  have live := inv.live
  simp only [unrecordedAmount, reserved, SqWorker.unrecorded, SqWorker.early, Option.map_some, Option.getD_some]
    at wrs frames queued known bare live
  obtain ⟨⟨addr', send⟩, member, equal⟩ := List.mem_map.mp (known addr (by simp))
  obtain rfl : addr' = addr := equal
  have empty : send.window = none := bare _ member (.inr (by simp))
  have moved : ∀ measure : Window → Nat, measure window = 0 ∨ (window.wrAcquired || window.frames ≠ 0) = true →
      tally (fun entry => entry.2.recorded measure) (s.update addr' f).sends =
        tally (fun entry => entry.2.recorded measure) s.sends + measure window := fun measure some => by
    have tallies := inv.tally_update measure member f
    rw [recorded_none empty, AppleSend.recorded, recorded] at tallies
    by_cases taken : (window.wrAcquired || window.frames ≠ 0) = true
    · rw [if_pos taken] at tallies
      exact tallies
    · rw [if_neg taken] at tallies
      rw [some.resolve_right taken]
      exact tallies
  have part : s.sq.Sublist ([addr'] ++ s.sq) := List.sublist_append_right _ _
  refine ⟨?_, ?_, ?_, part.nodup queued, fun key inside => ?_, fun entry inside reason => ?_,
    by simp [SqWorker.unrecorded], fun entry inside => ?_⟩
  · rw [keys_update]
    exact inv.distinct
  · have wrs' := moved Window.wrs (by cases acquired : window.wrAcquired <;> simp [Window.wrs, acquired])
    rw [wrs', unrecordedAmount]
    exact wrs
  · have frames' := moved Window.frames (by by_cases none : window.frames = 0 <;> simp [none])
    rw [frames', unrecordedAmount]
    exact frames
  · rw [keys_update]
    exact known key (part.mem inside)
  · rcases mem_update inside with ⟨old, other⟩ | ⟨old, listed, rfl⟩
    · exact bare entry old (reason.imp_right part.mem)
    · rcases reason with done | waits
      · rw [(same old).1, live _ rfl _ listed rfl] at done
        cases done
      · exact absurd waits (List.nodup_cons.mp queued).1
  · rcases mem_update inside with ⟨old, -⟩ | ⟨old, listed, rfl⟩
    · exact inv.sized entry old
    · rw [(same old).2]
      exact inv.sized _ listed

theorem Inv.sendComplete (inv : Inv s) {addr : Nat}
    (other : ∀ unrecorded ∈ s.worker.unrecorded, unrecorded.1 ≠ addr) : Inv (s.sendComplete addr) := by
  rw [AppleTx.sendComplete]
  split
  · exact inv
  rename_i send found
  split
  · exact inv
  have member := mem_of_find found
  generalize finish : (fun send : AppleSend => { send with completed := true, window := none }) = f
  have taken : ∀ measure, tally (fun entry => entry.2.recorded measure) (s.update addr f).sends +
      send.recorded measure = tally (fun entry => entry.2.recorded measure) s.sends := fun measure => by
    have tallies := inv.tally_update measure member f
    have bare : (f send).window = none := by rw [← finish]
    rw [recorded_none bare] at tallies
    exact tallies
  have bare : ∀ entry ∈ (s.update addr f).sends,
      entry.2.completed = true ∨ entry.1 ∈ s.worker.early ++ s.sq → entry.2.window = none := by
    intro entry inside reason
    rcases mem_update inside with ⟨old, -⟩ | ⟨old, -, rfl⟩
    · exact inv.bare entry old reason
    · rw [← finish]
  have live : ∀ unrecorded ∈ s.worker.unrecorded, ∀ entry ∈ (s.update addr f).sends, entry.1 = unrecorded.1 →
      entry.2.completed = false := by
    intro target taken entry inside own
    rcases mem_update inside with ⟨old, -⟩ | ⟨old, -, rfl⟩
    · exact inv.live target taken entry old own
    · exact absurd own.symm (other target taken)
  have sized : ∀ entry ∈ (s.update addr f).sends, entry.2.descs ≠ 0 := by
    intro entry inside
    rcases mem_update inside with ⟨old, -⟩ | ⟨old, listed, rfl⟩
    · exact inv.sized entry old
    · rw [← finish]
      exact inv.sized (addr, old) listed
  have wrs := inv.wrs
  have frames := inv.frames
  have wrsTaken := taken Window.wrs
  have framesTaken := taken Window.frames
  simp only
  split
  · rename_i none
    rw [recorded_none none] at wrsTaken framesTaken
    refine ⟨by rw [keys_update]; exact inv.distinct, ?_, ?_, inv.queued, by rw [keys_update]; exact inv.known, bare,
      live, sized⟩
    · rw [← wrsTaken] at wrs
      exact wrs
    · rw [← framesTaken] at frames
      exact frames
  · rename_i window some
    refine ⟨?_, ?_, ?_, inv.queued, ?_, bare, live, sized⟩
    · rw [release, keys_update]
      exact inv.distinct
    · have same : ((s.update addr f).release window).unrecordedAmount Window.wrs = s.unrecordedAmount Window.wrs := rfl
      have amount : send.recorded Window.wrs = window.wrAcquired.toNat := by simp [AppleSend.recorded, some, Window.wrs]
      rw [same]
      change (if window.wrAcquired then s.inflight - 1 else s.inflight) = _
      cases acquired : window.wrAcquired <;> simp only [acquired, Bool.toNat_true, Bool.toNat_false] at amount <;>
        simp only [release, Bool.false_eq_true, if_true, if_false] <;> omega
    · have same : ((s.update addr f).release window).unrecordedAmount Window.frames =
          s.unrecordedAmount Window.frames := rfl
      have amount : send.recorded Window.frames = window.frames := by simp [AppleSend.recorded, some]
      rw [same]
      change s.inflightFrames - window.frames = _
      simp only [release]
      omega
    · rw [release, keys_update]
      exact inv.known

theorem Inv.acquire (inv : Inv s) {maxWr maxFrames : Nat} (inTime : s.recordsInTime (.acquire maxWr maxFrames) = true)
    (stepped : s.step (.acquire maxWr maxFrames) = some s') : Inv s' := by
  simp only [step] at stepped
  split at stepped
  swap
  · cases stepped
  rename_i addr popped
  obtain ⟨send, found, stepped⟩ := Option.bind_eq_some_iff.mp stepped
  simp only [tryAcquire] at stepped
  have open_ : s.stopping = false → s.isCompleted addr = false := fun running => by
    simpa [recordsInTime, popped, SqWorker.early, running] using inTime
  have early : s.worker.early = [addr] := by rw [popped, SqWorker.early]
  have idle : s.worker.unrecorded = none := by rw [popped, SqWorker.unrecorded]
  have exclusive : txRequiresExclusiveWindow send.descs = true :=
    decide_eq_true (Nat.pos_of_ne_zero (inv.sized _ (mem_of_find found)))
  split at stepped
  · rename_i unlimited
    simp [exclusive] at unlimited
  split at stepped
  · obtain rfl := Option.some.inj stepped
    refine inv.quiet rfl rfl rfl ?_ (by rw [idle, SqWorker.unrecorded])
    rw [early]
    exact List.sublist_append_right _ _
  rename_i running
  split at stepped
  · obtain rfl := Option.some.inj stepped
    exact inv.take popped
      { wrAcquired := maxWr ≠ 0 || txRequiresExclusiveWindow send.descs, frames := txFrameCharge send.descs maxFrames }
      (open_ (by simpa using running))
  · cases stepped

theorem Inv.step (inv : Inv s) {action : TxAction} (inTime : s.recordsInTime action = true)
    (stepped : s.step action = some s') : Inv s' := by
  cases action with
  | post addr psn descs => exact inv.post stepped
  | pop =>
      simp only [AppleTx.step] at stepped
      split at stepped
      · rename_i addr rest idle queued
        obtain rfl := Option.some.inj stepped
        refine inv.quiet rfl rfl rfl ?_ (by rw [idle, SqWorker.unrecorded, SqWorker.unrecorded])
        rw [idle, queued]
        exact List.Sublist.refl _
      · cases stepped
  | refuse =>
      simp only [AppleTx.step] at stepped
      split at stepped
      · rename_i addr popped
        obtain rfl := Option.some.inj stepped
        refine inv.quiet rfl rfl rfl ?_ (by rw [popped, SqWorker.unrecorded, SqWorker.unrecorded])
        rw [popped]
        exact List.sublist_append_right _ _
      · cases stepped
  | acquire maxWr maxFrames => exact inv.acquire inTime stepped
  | reserve ret =>
      simp only [AppleTx.step] at stepped
      split at stepped
      swap
      · cases stepped
      rename_i addr window holding
      split at stepped
      · obtain rfl := Option.some.inj stepped
        refine inv.quiet rfl rfl rfl ?_ (by rw [holding, SqWorker.unrecorded, SqWorker.unrecorded])
        rw [holding]
        exact List.Sublist.refl _
      · obtain rfl := Option.some.inj stepped
        exact inv.giveBack holding (List.Sublist.refl _) rfl
      · obtain rfl := Option.some.inj stepped
        exact inv.giveBack holding (List.nil_sublist _) rfl
  | record =>
      simp only [AppleTx.step] at stepped
      split at stepped
      · rename_i addr window reserved
        obtain rfl := Option.some.inj stepped
        exact inv.record reserved (fun _ => ⟨rfl, rfl⟩) fun _ => rfl
      · cases stepped
  | postFrame =>
      simp only [AppleTx.step] at stepped
      split at stepped
      · obtain rfl := Option.some.inj stepped
        exact inv.still (quiet_update fun _ => ⟨rfl, rfl, rfl⟩)
      · cases stepped
  | transmitted ret =>
      simp only [AppleTx.step] at stepped
      split at stepped
      · rename_i addr transmitting
        obtain rfl := Option.some.inj stepped
        refine inv.quiet rfl rfl rfl ?_ ?_ <;> rw [transmitting] <;> simp only <;> split <;> rfl
      · cases stepped
  | unqueue =>
      simp only [AppleTx.step] at stepped
      split at stepped
      · rename_i addr failed
        split at stepped <;> obtain rfl := Option.some.inj stepped <;>
          refine inv.quiet rfl rfl rfl ?_ ?_ <;> rw [failed] <;> rfl
      · cases stepped
  | txDone addr failed =>
      simp only [AppleTx.step] at stepped
      split at stepped
      · cases stepped
      split at stepped
      · cases stepped
      obtain rfl := Option.some.inj stepped
      split
      · refine inv.still (Quiet.trans ?_ (quiet_completeSendOrdered _))
        exact quiet_update fun _ => ⟨rfl, rfl, rfl⟩
      · exact inv.still (quiet_update fun _ => ⟨rfl, rfl, rfl⟩)
  | timeout addr =>
      simp only [AppleTx.step, Option.ite_none_right_eq_some, Option.some.injEq] at stepped
      obtain ⟨-, rfl⟩ := stepped
      exact inv.still ((quiet_ready addr).trans quiet_drainReadySends)
  | setState state =>
      obtain rfl := Option.some.inj stepped
      exact inv.still ⟨rfl, rfl, rfl, rfl, rfl⟩
  | close =>
      obtain rfl := Option.some.inj stepped
      exact inv.still ⟨rfl, rfl, rfl, rfl, rfl⟩
  | flushSq =>
      obtain rfl := Option.some.inj stepped
      refine inv.quiet rfl rfl rfl ?_ rfl
      rw [List.append_nil]
      exact List.sublist_append_left _ _
  | flushSends =>
      obtain rfl := Option.some.inj stepped
      exact inv.still ⟨rfl, rfl, rfl, rfl, rfl⟩
  | complete addr =>
      simp only [AppleTx.step, Option.ite_none_right_eq_some, Option.some.injEq] at stepped
      obtain ⟨-, rfl⟩ := stepped
      have other : ∀ unrecorded ∈ s.worker.unrecorded, unrecorded.1 ≠ addr := fun unrecorded taken => by
        simpa [recordsInTime, Option.mem_def.mp taken] using inTime
      exact (inv.sendComplete other).still ⟨rfl, rfl, rfl, rfl, rfl⟩

theorem inv_reachable (reachable : windowSystem.ReachableVia (fun s a => s.recordsInTime a = true) s) : Inv s := by
  refine reachable.invariant ?_ fun s action s' inv inTime stepped => inv.step inTime stepped
  rintro _ rfl
  exact ⟨List.nodup_nil, rfl, rfl, List.nodup_nil, by simp [SqWorker.early], by simp, by simp, by simp⟩

/-- With the records in time, what the worker took is held by a context that is not completed. -/
theorem Inv.held_eq (inv : Inv s) (measure : Window → Nat) :
    s.held measure = tally (fun entry => entry.2.recorded measure) s.sends + s.unrecordedAmount measure := by
  have split : s.held measure = tally (fun entry => entry.2.recorded measure) s.sends +
      tally (fun entry => if entry.2.completed then 0 else s.unrecordedFor measure entry.1) s.sends := by
    rw [held, ← tally_add]
    refine tally_congr fun entry member => ?_
    split
    · rename_i completed
      rw [recorded_none (inv.bare entry member (.inl completed))]
    · rfl
  rw [split, unrecordedAmount]
  congr 1
  cases worker : s.worker.unrecorded with
  | none =>
      refine tally_eq_zero fun entry _ => ?_
      rw [unrecordedFor, worker, ite_self]
  | some unrecorded =>
      obtain ⟨target, window⟩ := unrecorded
      have early : target ∈ s.worker.early ++ s.sq := by
        refine List.mem_append_left _ ?_
        cases at_ : s.worker <;> simp_all [SqWorker.unrecorded, SqWorker.early]
      have only : tally (fun entry => if entry.2.completed then 0 else s.unrecordedFor measure entry.1) s.sends =
          tally (fun entry => if entry.1 = target then measure window else 0) s.sends := by
        refine tally_congr fun entry member => ?_
        rw [unrecordedFor, worker]
        simp only
        by_cases own : entry.1 = target
        · rw [inv.live _ worker entry member own, if_neg Bool.false_ne_true]
        · rw [if_neg own, ite_self]
      rw [only, tally_single inv.distinct (inv.known target early)]
      rfl

end AppleTx

open AppleTx in
theorem apple_window_balanced {s : AppleTx}
    (reachable : windowSystem.ReachableVia (fun s a => s.recordsInTime a = true) s) :
    s.inflight = s.held Window.wrs ∧ s.inflightFrames = s.held Window.frames ∧ 0 ≤ s.inflight ∧
      0 ≤ s.inflightFrames ∧
      (s.worker = .idle → (∀ entry ∈ s.sends, entry.2.completed = true) →
        s.inflight = 0 ∧ s.inflightFrames = 0 ∧ ∀ maxWr maxFrames frames,
          txWindowOk s.inflight s.inflightFrames true maxWr maxFrames (txFrameCharge frames maxFrames) = true) := by
  have inv := inv_reachable reachable
  have wrs := inv.wrs
  have frames := inv.frames
  rw [← inv.held_eq] at wrs frames
  refine ⟨wrs, frames, by omega, by omega, fun idle completed => ?_⟩
  have none : ∀ measure, s.held measure = 0 := fun measure =>
    tally_eq_zero fun entry member => if_pos (completed entry member)
  rw [none] at wrs frames
  refine ⟨wrs, frames, fun maxWr maxFrames count => ?_⟩
  rw [wrs, frames]
  have charged : maxFrames ≠ 0 → txFrameCharge count maxFrames ≤ maxFrames := fun limited => by
    rw [txFrameCharge, if_neg limited]
    split <;> omega
  have room : maxFrames = 0 ∨ txFrameCharge count maxFrames % 2 ^ 32 ≤ maxFrames := by
    by_cases limited : maxFrames = 0
    · exact .inl limited
    · exact .inr ((Nat.mod_le _ _).trans (charged limited))
  simpa [txWindowOk] using room

/-- One message is sent, recorded and done. -/
def sentMessage : List TxAction :=
  [.setState .rts, .post 1 0 1, .pop, .acquire 16 16, .reserve none, .record, .postFrame, .transmitted none,
    .txDone 1 false, .complete 1]

theorem apple_window_balanced_sentMessage :
    ∃ s, windowSystem.runVia (fun s a => s.recordsInTime a = true) {} sentMessage = some s ∧ s.inflight = 0 ∧
      s.inflightFrames = 0 := by
  have run : (windowSystem.runVia (fun s a => s.recordsInTime a = true) {} sentMessage).isSome = true := by decide
  obtain ⟨s, stepped⟩ := Option.isSome_iff_exists.mp run
  have done : (windowSystem.runVia (fun s a => s.recordsInTime a = true) {} sentMessage).all
      (fun s => s.worker = .idle && s.sends.all fun entry => entry.2.completed) = true := by decide
  rw [stepped, Option.all_some, Bool.and_eq_true, decide_eq_true_eq, List.all_eq_true] at done
  have balanced := apple_window_balanced (System.reachableVia_of_runVia (.init rfl) stepped)
  have zero := balanced.2.2.2.2 done.1 done.2
  exact ⟨s, stepped, zero.1, zero.2.1⟩

/-- The queue pair goes to error and its sends are flushed between the acquisition and the record. -/
def flushedEarly : List TxAction :=
  [.setState .rts, .post 1 0 1, .pop, .acquire 16 16, .setState .err, .flushSq, .flushSends, .complete 1,
    .reserve none, .record, .transmitted (some .eCanceled), .unqueue, .setState .reset, .setState .rts]

/-- Every context is completed and the worker idle, and the window is still taken: no message can be sent again. -/
theorem flushed_window_lost :
    ∃ s, windowSystem.Reachable s ∧
      (s.worker = .idle && (s.sends.all fun entry => entry.2.completed) && s.inflight = 1 && s.inflightFrames = 1 &&
        s.held Window.wrs = 0 && s.held Window.frames = 0 &&
        !txWindowOk s.inflight s.inflightFrames true 16 16 (txFrameCharge 1 16)) = true :=
  System.exists_reachableVia windowSystem (fun _ _ => True) flushedEarly _ rfl (by decide)

end ThunderboltVerbs.Apple
