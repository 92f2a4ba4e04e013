import ThunderboltVerbs.DataPath.Bookkeeping

/-!
# Reservations

Reserved room in the data queue is one counter of the path. Who holds how much of it is known to the
senders only: `held` has the frames of each reservation that is not used up or released. A striped post whose
reservation on one path is refused releases frames on others that it never reserved there.
-/

namespace ThunderboltVerbs.DataPath
open Proto Lib

structure Senders where
  tx : TxThreads
  held : List Nat := []

inductive SenderAction
  | reserve (frames : Nat)
  | release (i frames : Nat)
  | releaseUnheld (frames : Nat)
  | sendList (i : Nat) (packets : List TxPacket)
  | sendOne (i : Nat) (packet : TxPacket)
  | other (action : TxAction)

def TxAction.unreserved : TxAction → Bool
  | .reserve _ | .release _ | .enqueue (.reserved _) => false
  | _ => true

namespace Senders

def use (s : Senders) (i used : Nat) (tx : TxThreads) : Senders :=
  { tx, held := s.held.eraseIdx i ++ (s.held[i]?.map (· - used)).toList }

def sendReserved (s : Senders) (i used : Nat) (what : Enqueue) : Option Senders :=
  if what.fresh ∧ s.held[i]?.any (fun frames => used ≤ frames) = true then
    match s.tx.path.enqueue what with
    | .error _ => some s
    | .ok _ => some (s.use i used (s.tx.enqueue what))
  else none

def step (nativeTxMaxInflight : Nat) (s : Senders) : SenderAction → Option Senders
  | .reserve frames =>
      match s.tx.path.reserveData frames with
      | .error _ => some s
      | .ok path => some { tx := { s.tx with path }, held := s.held ++ [frames] }
  | .release i frames =>
      if s.held[i]?.any (fun held => frames ≤ held) then
        some (s.use i frames { s.tx with path := s.tx.path.releaseDataReservation frames })
      else none
  | .releaseUnheld frames =>
      some { s with tx := { s.tx with path := s.tx.path.releaseDataReservation frames } }
  | .sendList i packets => s.sendReserved i packets.length (.reserved packets)
  | .sendOne i packet => s.sendReserved i 1 (.data packet)
  | .other action =>
      if action.unreserved then (s.tx.step nativeTxMaxInflight action).map fun tx => { s with tx } else none

/-- The tunnel stays up, and nothing without a reservation is sent or released while others hold one. -/
def honours (s : Senders) : SenderAction → Bool
  | .other .disableTunnel | .other .flush => false
  | .other (.enqueue (.data _)) | .releaseUnheld _ => s.tx.path.txDataReserved = 0
  | _ => true

end Senders

def senderSystem (cfg : PathConfig) (nativeTxMaxInflight : Nat) : System Senders SenderAction where
  init s := s = { tx := .started cfg }
  step := Senders.step nativeTxMaxInflight

/-! ## The counter -/

theorem scheduleTake_reserved (p : Path) (limit : Nat) :
    (p.scheduleTake limit).txDataReserved = p.txDataReserved := by
  simp only [Path.scheduleTake]
  split
  · rfl
  split <;> rfl

theorem postFailed_reserved (p : Path) (packet : TxPacket) (fromControlQueue charged : Bool) (oldRaw : RawStream)
    (oldStart : Nat) (error : Errno) :
    (p.postFailed packet fromControlQueue charged oldRaw oldStart error).txDataReserved = p.txDataReserved := by
  simp only [Path.postFailed, Path.requeueTx]
  split
  · split <;> rfl
  · rfl

theorem enqueue_reserved {p p' : Path} {what : Enqueue} (queued : p.enqueue what = .ok p') :
    p'.txDataReserved =
      match what with
      | .control _ _ _ | .list _ => p.txDataReserved
      | .data _ => p.txDataReserved - 1
      | .reserved packets => p.txDataReserved - packets.length := by
  cases what with
  | control frame done alloc =>
      simp only [Path.enqueue, Path.enqueueControl] at queued
      split at queued
      · cases queued
      split at queued
      · cases queued
      split at queued
      · cases queued
      · cases queued
        rfl
  | data packet =>
      simp only [Path.enqueue, Path.enqueueData] at queued
      split at queued
      · cases queued
      split at queued
      · cases queued
      · cases queued
        rfl
  | list packets =>
      simp only [Path.enqueue, Path.enqueueDataList] at queued
      split at queued
      · cases queued
        rfl
      split at queued
      · cases queued
      split at queued
      · cases queued
      · cases queued
        rfl
  | reserved packets =>
      simp only [Path.enqueue, Path.enqueueReservedDataList] at queued
      split at queued
      · rename_i empty
        cases queued
        simp [empty]
      split at queued
      · cases queued
      split at queued
      · cases queued
      · cases queued
        rfl

theorem TxThreads.step_reserved {s t : TxThreads} {limit : Nat} {action : TxAction}
    (honoured : Senders.honours { tx := s } (.other action) = true) (unreserved : action.unreserved = true)
    (stepped : s.step limit action = some t) : t.path.txDataReserved = s.path.txDataReserved := by
  cases action with
  | reserve frames | release frames => cases unreserved
  | disableTunnel | flush => cases honoured
  | enableTunnel =>
      simp only [TxThreads.step] at stepped
      split at stepped
      · cases stepped
        rfl
      · cases stepped
  | enqueue what =>
      simp only [TxThreads.step] at stepped
      split at stepped
      · cases stepped
        simp only [TxThreads.enqueue]
        split
        · rfl
        · rename_i path queued
          have counter := enqueue_reserved queued
          cases what with
          | control frame done alloc | list packets => exact counter
          | data packet =>
              have empty : s.path.txDataReserved = 0 := by simpa [Senders.honours] using honoured
              simp only [empty] at counter ⊢
              exact counter
          | reserved packets => cases unreserved
      · cases stepped
  | addCredits credits =>
      cases stepped
      obtain ⟨received, path, -⟩ := addRemoteRxCredits_eq s.path credits
      simp only [TxThreads.addCredits, path]
  | setCapacity rxRingSize =>
      cases stepped
      rfl
  | schedule =>
      simp only [TxThreads.step, Path.scheduleEnter] at stepped
      split at stepped
      · cases stepped
      · cases stepped
        split <;> rfl
  | take =>
      simp only [TxThreads.step] at stepped
      split at stepped
      · cases stepped
        exact scheduleTake_reserved s.path limit
      · cases stepped
  | post error =>
      simp only [TxThreads.step, TxThreads.post] at stepped
      split at stepped
      · cases error with
        | none =>
            cases stepped
            rfl
        | some error =>
            cases stepped
            exact postFailed_reserved s.path _ _ _ _ _ error
      · cases stepped
  | aborted =>
      simp only [TxThreads.step, TxThreads.aborted] at stepped
      split at stepped
      · cases stepped
      · cases stepped
        rfl
  | drop =>
      simp only [TxThreads.step, TxThreads.drop] at stepped
      split at stepped
      · cases stepped
      · cases stepped
        rfl
      · cases stepped
        rfl
  | released =>
      simp only [TxThreads.step, TxThreads.released] at stepped
      split at stepped
      · cases stepped
        rfl
      · cases stepped
  | complete i =>
      obtain ⟨packet, -, rfl⟩ := Option.map_eq_some_iff.mp stepped
      rfl
  | finish i =>
      obtain ⟨packet, -, rfl⟩ := Option.map_eq_some_iff.mp stepped
      rfl
  | leave =>
      simp only [TxThreads.step, TxThreads.leave] at stepped
      split at stepped
      · cases stepped
      · cases stepped
        rfl
  | cancel key visible =>
      cases stepped
      rfl
  | releasePacket i =>
      obtain ⟨packet, -, rfl⟩ := Option.map_eq_some_iff.mp stepped
      rfl
  | callOwed i =>
      obtain ⟨ctx, -, rfl⟩ := Option.map_eq_some_iff.mp stepped
      rfl

/-! ## Runs -/

namespace Senders

def Accounted (s : Senders) : Prop := s.tx.path.txDataReserved = tally id s.held

variable {s : Senders}

theorem Accounted.use {i used frames : Nat} {tx : TxThreads} (accounted : s.Accounted)
    (found : s.held[i]? = some frames) (enough : used ≤ frames)
    (counter : tx.path.txDataReserved = s.tx.path.txDataReserved - used) : (s.use i used tx).Accounted := by
  have total := tally_eraseIdx id found
  simp only [id] at total
  simp only [Accounted, Senders.use, found, Option.map_some, Option.toList_some, tally_append, tally_cons,
    tally_nil, id, counter] at accounted ⊢
  rw [accounted]
  omega

theorem Accounted.sendReserved {i used : Nat} {what : Enqueue} {t : Senders} (accounted : s.Accounted)
    (uses : ∀ p p' : Path, p.enqueue what = .ok p' → p'.txDataReserved = p.txDataReserved - used)
    (sent : s.sendReserved i used what = some t) : t.Accounted := by
  simp only [Senders.sendReserved] at sent
  split at sent
  · rename_i condition
    obtain ⟨frames, found, enough⟩ := (Option.any_eq_true _ _).mp condition.2
    split at sent
    · cases sent
      exact accounted
    · rename_i path queued
      cases sent
      refine accounted.use found (by simpa using enough) ?_
      simp only [TxThreads.enqueue, queued]
      exact uses _ _ queued
  · cases sent

theorem Accounted.step {limit : Nat} {action : SenderAction} {t : Senders} (accounted : s.Accounted)
    (honoured : s.honours action = true) (stepped : s.step limit action = some t) : t.Accounted := by
  cases action with
  | reserve frames =>
      simp only [Senders.step] at stepped
      split at stepped
      · cases stepped
        exact accounted
      · rename_i path reserved
        cases stepped
        obtain rfl := reserveData_eq reserved
        simp only [Accounted, tally_append, tally_cons, tally_nil, id] at accounted ⊢
        rw [accounted]
        rfl
  | release i frames =>
      simp only [Senders.step] at stepped
      split at stepped
      · rename_i condition
        cases stepped
        obtain ⟨held, found, enough⟩ := (Option.any_eq_true _ _).mp condition
        exact accounted.use found (by simpa using enough) rfl
      · cases stepped
  | releaseUnheld frames =>
      have nothing : s.tx.path.txDataReserved = 0 := by simpa [Senders.honours] using honoured
      cases stepped
      simp only [Accounted, Path.releaseDataReservation, nothing, Nat.zero_sub] at accounted ⊢
      exact accounted
  | sendList i packets => exact accounted.sendReserved (fun _ _ queued => enqueue_reserved queued) stepped
  | sendOne i packet => exact accounted.sendReserved (fun _ _ queued => enqueue_reserved queued) stepped
  | other action =>
      simp only [Senders.step] at stepped
      split at stepped
      · rename_i unreserved
        obtain ⟨tx, moved, rfl⟩ := Option.map_eq_some_iff.mp stepped
        have still : Senders.honours { tx := s.tx } (.other action) = true := by
          cases action with
          | enqueue what =>
              cases what with
              | data packet => simpa [Senders.honours] using honoured
              | control frame done alloc | list packets | reserved packets => rfl
          | disableTunnel | flush => cases honoured
          | _ => rfl
        exact (TxThreads.step_reserved still unreserved moved).trans accounted
      · cases stepped

theorem accounted_reachable {cfg : PathConfig} {limit : Nat}
    (reachable : (senderSystem cfg limit).ReachableVia (fun s action => s.honours action = true) s) : s.Accounted := by
  refine reachable.invariant ?_ fun _ _ _ accounted honoured stepped => accounted.step honoured stepped
  intro s start
  cases start
  rfl

/-- As long as packets without a reservation are sent, and frames that were never reserved are released, only
while nothing is reserved, a sender that holds a reservation gets its packets queued. -/
theorem reservation_honoured (cfg : PathConfig) (limit : Nat) (s : Senders)
    (reachable : (senderSystem cfg limit).ReachableVia (fun s action => s.honours action = true) s) (i frames : Nat)
    (holds : s.held[i]? = some frames) :
    (∀ packets : List TxPacket, packets.length ≤ frames →
      s.tx.path.enqueueReservedDataList packets packets.length ≠ .error .eNoMem) ∧
    (0 < frames → ∀ packet, s.tx.path.enqueueData packet ≠ .error .eNoMem) := by
  have accounted := accounted_reachable reachable
  have enough : frames ≤ s.tx.path.txDataReserved := by
    have total := tally_eraseIdx id holds
    rw [accounted, total]
    exact Nat.le_add_right _ _
  constructor
  · intro packets fits refused
    simp only [Path.enqueueReservedDataList] at refused
    split at refused
    · cases refused
    split at refused
    · cases refused
    split at refused
    · omega
    · cases refused
  · intro positive packet refused
    simp only [Path.enqueueData] at refused
    split at refused
    · cases refused
    split at refused
    · omega
    · cases refused

end Senders

def dataPacket (ctx : Nat) : TxPacket :=
  { frame := { len := 64, header := none }, done := some ctx, ownerCtx := some ctx }

theorem reservation_honoured_twoFrames :
    ∃ s, (senderSystem (nativePaths .left) 32).ReachableVia (fun s action => s.honours action = true) s ∧
      s.held = [2] ∧ s.tx.path.enqueueReservedDataList [dataPacket 1, dataPacket 1] 2 ≠ .error .eNoMem := by
  obtain ⟨s, reachable, holds⟩ := System.exists_reachableVia (senderSystem (nativePaths .left) 32)
    (fun s action => s.honours action = true) [.other .enableTunnel, .reserve 2] (fun s => s.held = [2]) rfl
    (by decide +kernel)
  have holds : s.held = [2] := by simpa using holds
  exact ⟨s, reachable, holds, (Senders.reservation_honoured (nativePaths .left) 32 s reachable 0 2
    (by rw [holds]; rfl)).1 [dataPacket 1, dataPacket 1] (Nat.le_refl 2)⟩

/-- A READ request without a reservation takes one of two reserved frames, and the list of two is refused. -/
theorem reservation_stolen :
    ∃ s, (senderSystem (nativePaths .left) 32).Reachable s ∧ s.tx.path.state = .tunnelEnabled ∧ s.held = [2] ∧
      s.tx.path.enqueueReservedDataList [dataPacket 1, dataPacket 1] 2 = .error .eNoMem := by
  obtain ⟨s, reachable, stolen⟩ := System.exists_reachableVia (senderSystem (nativePaths .left) 32) (fun _ _ => True)
    [.other .enableTunnel, .reserve 2, .other (.enqueue (.data (dataPacket 9)))]
    (fun s => s.tx.path.state = .tunnelEnabled ∧ s.held = [2] ∧ s.tx.path.txDataReserved = 1) rfl (by decide +kernel)
  simp only [decide_eq_true_eq] at stolen
  obtain ⟨enabled, holds, left⟩ := stolen
  refine ⟨s, reachable, enabled, holds, ?_⟩
  simp [Path.enqueueReservedDataList, enabled, left]

end ThunderboltVerbs.DataPath
