import ThunderboltVerbs.Apple.Rx
import ThunderboltVerbs.Lib.Subsequence

/-!
# Messages over an Apple link

`tbv_apple_sq_transmit` posts a message frame by frame and may stop before the last one; the send queue
goes on with the next message. The frames that were posted arrive in order at the peer's QP.
-/

namespace ThunderboltVerbs.Apple
open Proto Verbs Receive Lib

/-! ## Transmission -/

def divRoundUp (n d : Nat) : Nat := (n + d - 1) / d

/-- The loop of `tbv_apple_sq_transmit` in frame mode: the frames it posts, and whether it comes to the end.
`stops remaining` says that it stops with this many frames to go: the QP is stopping, a post fails, or the wait
for a group of frames is cancelled. -/
def transmitLoop (stops : Nat → Bool) : Nat → List UInt8 → List AppleFrame × Bool
  | 0, _ => ([], true)
  | remaining + 1, payload =>
      if stops (remaining + 1) then ([], false)
      else
        let frame : AppleFrame :=
          { sof := 1
            eof := if payload.length ≤ appleFrameSize then 3 else 2
            payload := payload.take appleFrameSize }
        let rest := transmitLoop stops remaining (payload.drop appleFrameSize)
        (frame :: rest.1, rest.2)

def sqTransmit (stops : Nat → Bool) (payload : List UInt8) : List AppleFrame × Bool :=
  transmitLoop stops (divRoundUp payload.length appleFrameSize) payload

/-! ## The link -/

/-- `posted` reads the frames that were posted as messages, and `transmitted` has the messages that were
transmitted completely. -/
structure AppleLink where
  rx : AppleQp
  wire : List AppleFrame := []
  posted : Framing := {}
  transmitted : List (List UInt8) := []

inductive LinkAction
  | transmit (stops : Nat → Bool) (payload : List UInt8)
  | deliver (env : AppleEnv)
  | postRecv (wqe : RecvWqe)
  | drain (env : AppleEnv)
  | pollCq

namespace AppleLink

def transmit (s : AppleLink) (stops : Nat → Bool) (payload : List UInt8) : AppleLink :=
  let outcome := sqTransmit stops payload
  { s with
    wire := s.wire ++ outcome.1
    posted := outcome.1.foldl Framing.push s.posted
    transmitted := if outcome.2 then s.transmitted ++ [payload] else s.transmitted }

def step (s : AppleLink) : LinkAction → Option AppleLink
  | .transmit stops payload => some (s.transmit stops payload)
  | .deliver env =>
      match s.wire with
      | [] => none
      | frame :: rest => some { s with rx := s.rx.rxFrame env frame, wire := rest }
  | .postRecv wqe => (s.rx.step (.postRecv wqe)).map fun rx => { s with rx }
  | .drain env => (s.rx.step (.drain env)).map fun rx => { s with rx }
  | .pollCq => (s.rx.step .pollCq).map fun rx => { s with rx }

/-- No frame is posted after a transmission that stopped amid its message. -/
def whole (s : AppleLink) : LinkAction → Bool
  | .transmit stops payload => s.posted.current.isNone || (sqTransmit stops payload).1.isEmpty
  | _ => true

end AppleLink

def linkSystem : System AppleLink LinkAction where
  init s := ∃ slotCount cqe, s = { rx := .created slotCount { cqe } }
  step := AppleLink.step

/-! ## The frames of a message -/

theorem push_messages (framing : Framing) (frame : AppleFrame) :
    framing.messages <+: (framing.push frame).messages := by
  simp only [Framing.push]
  split
  · exact List.prefix_append _ _
  · exact List.prefix_rfl

theorem foldl_push_messages (frames : List AppleFrame) (framing : Framing) :
    framing.messages <+: (frames.foldl Framing.push framing).messages := by
  induction frames generalizing framing with
  | nil => exact List.prefix_rfl
  | cons frame rest ih => exact (push_messages framing frame).trans (ih _)

theorem divRoundUp_eq_zero {n : Nat} (none : divRoundUp n appleFrameSize = 0) : n = 0 := by
  simp only [divRoundUp, appleFrameSize] at none
  omega

theorem divRoundUp_step {n remaining : Nat} (count : divRoundUp n appleFrameSize = remaining + 1) :
    0 < n ∧ divRoundUp (n - appleFrameSize) appleFrameSize = remaining ∧ (n ≤ appleFrameSize ↔ remaining = 0) := by
  simp only [divRoundUp, appleFrameSize] at count ⊢
  omega

section Loop

variable {stops : Nat → Bool} {remaining : Nat} {payload : List UInt8}

theorem transmitLoop_frames (count : divRoundUp payload.length appleFrameSize = remaining) :
    ∀ frame ∈ (transmitLoop stops remaining payload).1,
      frame.sof = 1 ∧ frame.payload ≠ [] ∧ frame.payload.length ≤ appleFrameSize := by
  induction remaining generalizing payload with
  | zero =>
      intro frame member
      cases member
  | succ remaining ih =>
      obtain ⟨filled, rest, -⟩ := divRoundUp_step count
      simp only [transmitLoop]
      split
      · intro frame member
        cases member
      · intro frame member
        rcases List.mem_cons.mp member with rfl | member
        · refine ⟨rfl, ?_, List.length_take_le _ _⟩
          intro empty
          have none := congrArg List.length empty
          simp only [List.length_take, List.length_nil, appleFrameSize] at none
          omega
        · exact ih (by rw [List.length_drop, rest]) frame member

/-- A transmission that comes to the end of a message that has bytes posts this message and no other. -/
theorem transmitLoop_complete (count : divRoundUp payload.length appleFrameSize = remaining) (filled : payload ≠ [])
    (framing : Framing) (complete : (transmitLoop stops remaining payload).2 = true) :
    (transmitLoop stops remaining payload).1.foldl Framing.push framing =
      { messages := framing.messages ++ [framing.current.getD [] ++ payload] } := by
  induction remaining generalizing payload framing with
  | zero =>
      have empty := divRoundUp_eq_zero count
      exact absurd (List.length_eq_zero_iff.mp empty) filled
  | succ remaining ih =>
      obtain ⟨-, rest, last⟩ := divRoundUp_step count
      simp only [transmitLoop] at complete ⊢
      split at complete
      · cases complete
      rename_i goes
      simp only [goes, Bool.false_eq_true, if_false, List.foldl_cons]
      by_cases short : payload.length ≤ appleFrameSize
      · obtain rfl := last.mp short
        simp [Framing.push, short, frameEnd, transmitLoop, List.take_of_length_le short]
      · have more : payload.drop appleFrameSize ≠ [] := by
          intro empty
          have none := congrArg List.length empty
          simp only [List.length_drop, List.length_nil] at none
          omega
        rw [ih (by rw [List.length_drop, rest]) more _ complete]
        simp [Framing.push, short, frameEnd, List.append_assoc]

theorem transmitLoop_stopped (count : divRoundUp payload.length appleFrameSize = remaining) (framing : Framing)
    (stopped : (transmitLoop stops remaining payload).2 = false) :
    ((transmitLoop stops remaining payload).1.foldl Framing.push framing).messages = framing.messages := by
  induction remaining generalizing payload framing with
  | zero => cases stopped
  | succ remaining ih =>
      obtain ⟨-, rest, last⟩ := divRoundUp_step count
      simp only [transmitLoop] at stopped ⊢
      split
      · rfl
      rename_i goes
      simp only [goes, Bool.false_eq_true, if_false] at stopped
      simp only [List.foldl_cons]
      rw [ih (by rw [List.length_drop, rest]) _ stopped]
      have long : ¬payload.length ≤ appleFrameSize := by
        intro short
        obtain rfl := last.mp short
        cases stopped
      simp [Framing.push, long, frameEnd]

end Loop

/-! ## Reception -/

def Pending.outcome (p : Pending) : WcStatus × Nat × List UInt8 := (p.status, p.bytes.length, p.bytes)

def Completion.outcome (completion : Completion) : WcStatus × Nat × List UInt8 :=
  (completion.status, completion.byteLen, completion.data)

def Carries (outcome : WcStatus × Nat × List UInt8) (message : List UInt8) : Prop :=
  outcome.1 = .success → outcome.2 = (message.length, message)

namespace AppleQp

structure Framed (q : AppleQp) : Prop where
  discarding : q.discard = true → q.active = none
  idle : q.active = none → q.discard = false → q.seen.current = none
  active : ∀ p, q.active = some p → Carries p.outcome (q.seen.current.getD [])
  delivered : List.SublistForall₂ Carries
    (q.completions.map Completion.outcome ++ q.ready.map Pending.outcome) q.seen.messages

variable {q q' : AppleQp} {env : AppleEnv} {frame : AppleFrame}

theorem completion_outcome (env : AppleEnv) (wqe : RecvWqe) (p : Pending)
    (success : (completion env wqe p).status = .success) : (completion env wqe p).outcome = p.outcome := by
  simp only [completion] at success
  split at success
  · cases success
  split at success
  · cases success
  rename_i copied fits
  have all : copyToWqe env wqe (min p.bytes.length wqe.length) = some p.bytes.length := by
    simp only [copyToWqe] at copied ⊢
    have short : min (min p.bytes.length wqe.length) wqe.length = p.bytes.length := by omega
    rw [short] at copied ⊢
    split
    · rename_i empty
      rw [empty]
    · rename_i filled
      simp only [filled, if_false] at copied
      split at copied
      · exact absurd rfl copied
      split at copied
      · rename_i takes
        simp only [takes, if_true]
      · exact absurd rfl copied
  simp [Completion.outcome, Pending.outcome, completion, all, fits]

theorem Framed.drained {drained : List Pending} {completed : List Completion} (framed : q.Framed)
    (drain : Drained env q q' drained completed) : q'.Framed where
  discarding := by
    rw [drain.discard, drain.active]
    exact framed.discarding
  idle := by
    rw [drain.discard, drain.active, drain.seen]
    exact framed.idle
  active := by
    rw [drain.active, drain.seen]
    exact framed.active
  delivered := by
    -- A success of the shorter list is the same success of the longer one.
    let Keeps (after before : WcStatus × Nat × List UInt8) : Prop := after.1 = .success → after = before
    have each : List.SublistForall₂ Keeps (completed.map Completion.outcome) (drained.map Pending.outcome) := by
      rw [List.sublistForall₂_map_left_iff, List.sublistForall₂_map_right_iff]
      refine drain.each.comp (S := Eq) ?_ (List.SublistForall₂.refl (fun _ => rfl) drained)
      rintro completion p _ ⟨wqe, rfl⟩ rfl success
      exact completion_outcome env wqe p success
    have same : ∀ outcomes, List.SublistForall₂ Keeps outcomes outcomes := List.SublistForall₂.refl fun _ _ => rfl
    have before := framed.delivered
    rw [drain.ready, List.map_append] at before
    rw [drain.completions, drain.seen, List.map_append, List.append_assoc]
    refine ((same _).append (each.append (same _))).comp ?_ before
    intro after before message keeps carries success
    have unchanged := keeps success
    subst unchanged
    exact carries success

theorem Framed.drainPending (framed : q.Framed) (env : AppleEnv) : (q.drainPending env).Framed := by
  obtain ⟨drained, completed, drain⟩ := q.drainPending_drained env
  exact framed.drained drain

theorem delivered_push (framed : q.Framed) (frame : AppleFrame) : List.SublistForall₂ Carries
    (q.completions.map Completion.outcome ++ q.ready.map Pending.outcome) (q.seen.push frame).messages := by
  obtain ⟨later, messages⟩ := push_messages q.seen frame
  rw [← messages]
  exact framed.delivered.skip later

theorem Framed.dropped (framed : q.Framed) (frame : AppleFrame) (idle : q.active = none) (spoiled : List Nat) :
    { q with seen := q.seen.push frame, discard := frame.eof ≠ frameEnd, spoiled }.Framed where
  discarding := fun _ => idle
  idle := by
    intro _ ends
    have ends : frame.eof = frameEnd := by simpa using ends
    simp [Framing.push, ends]
  active := by
    intro p active
    have active : q.active = some p := active
    rw [idle] at active
    cases active
  delivered := delivered_push framed frame

theorem Framed.takeFrame (framed : q.Framed) (env : AppleEnv) (frame : AppleFrame) (sof : frame.sof ≠ 0) :
    (q.takeFrame env frame).Framed := by
  simp only [AppleQp.takeFrame]
  split
  · rename_i discarding
    exact framed.dropped frame (framed.discarding discarding) _
  rename_i steady
  have steady : q.discard = false := by simpa using steady
  split
  · rename_i idle
    simp [startsMessage, sof] at idle
  split
  · rename_i full
    have idle : q.active = none := by
      cases active : q.active with
      | none => rfl
      | some p => simp [pendingActive, active] at full
    exact framed.dropped frame idle _
  · rename_i p slot
    have carries : Carries p.outcome (q.seen.current.getD []) := by
      cases active : q.active with
      | some p' =>
          simp only [pendingActive, active, Option.some.injEq] at slot
          subst slot
          exact framed.active p' active
      | none =>
          simp only [pendingActive, active] at slot
          split at slot
          · cases slot
          · cases slot
            rw [framed.idle active steady]
            exact fun _ => rfl
    obtain ⟨p', pendingBytes, copied, -, success⟩ :=
      { q with seen := q.seen.push frame }.copyFrame_eq env p frame.payload q.seen.messages.length
    have carries' : Carries p'.outcome (q.seen.current.getD [] ++ frame.payload) := by
      intro succeeded
      obtain ⟨before, bytes⟩ := success succeeded
      have sofar : p.bytes = q.seen.current.getD [] := congrArg Prod.snd (carries before)
      rw [Pending.outcome, bytes, sofar]
    rw [copied]
    split
    · rename_i ends
      refine Framed.drainPending ⟨fun _ => rfl, fun _ _ => ?_, ?_, ?_⟩ env
      · simp [Framing.push, ends, finish]
      · intro slot active
        cases active
      · simp only [finish, Framing.push, ends, if_true, List.map_append, List.map_cons, List.map_nil]
        rw [← List.append_assoc]
        exact framed.delivered.append (.cons carries' .nil)
    · rename_i going
      refine ⟨?_, ?_, ?_, delivered_push framed frame⟩
      · intro discarding
        have discarding : q.discard = true := discarding
        rw [steady] at discarding
        cases discarding
      · intro none
        cases none
      · intro slot active
        cases active
        simpa [Framing.push, going] using carries'

theorem Framed.rxFrame (framed : q.Framed) (env : AppleEnv) (frame : AppleFrame) (sof : frame.sof ≠ 0) :
    (q.rxFrame env frame).Framed := by
  simp only [AppleQp.rxFrame]
  split
  · exact framed
  · exact (framed.drainPending env).takeFrame env frame sof

@[simp] theorem drainPending_seen (q : AppleQp) (env : AppleEnv) : (q.drainPending env).seen = q.seen := by
  obtain ⟨drained, completed, drain⟩ := q.drainPending_drained env
  exact drain.seen

theorem takeFrame_seen (q : AppleQp) (env : AppleEnv) (frame : AppleFrame) :
    (q.takeFrame env frame).seen = q.seen.push frame := by
  simp only [AppleQp.takeFrame]
  split
  · rfl
  split
  · rfl
  split
  · rfl
  · rename_i p slot
    obtain ⟨p', pendingBytes, copied, -, -⟩ :=
      { q with seen := q.seen.push frame }.copyFrame_eq env p frame.payload q.seen.messages.length
    rw [copied]
    split
    · rw [drainPending_seen]
      rfl
    · rfl

theorem rxFrame_seen (q : AppleQp) (env : AppleEnv) (filled : frame.payload ≠ [])
    (short : frame.payload.length ≤ appleFrameSize) : (q.rxFrame env frame).seen = q.seen.push frame := by
  have valid : ¬(frame.payload = [] ∨ frame.payload.length > appleFrameSize) := by
    rintro (empty | long)
    · exact filled empty
    · omega
  rw [AppleQp.rxFrame, if_neg valid, takeFrame_seen, drainPending_seen]

theorem framed_created (slotCount : Nat) (cq : Cq) : (created slotCount cq).Framed where
  discarding := fun _ => rfl
  idle := fun _ _ => rfl
  active := by
    intro p active
    cases active
  delivered := .nil

end AppleQp

/-! ## Runs -/

namespace AppleLink

structure Inv (s : AppleLink) : Prop where
  framed : s.rx.Framed
  frames : ∀ frame ∈ s.wire, frame.sof = 1 ∧ frame.payload ≠ [] ∧ frame.payload.length ≤ appleFrameSize
  posted : s.wire.foldl Framing.push s.rx.seen = s.posted
  transmitted : s.posted.messages.Sublist s.transmitted

variable {s t : AppleLink}

theorem Inv.transmit (inv : s.Inv) (stops : Nat → Bool) (payload : List UInt8)
    (whole : s.whole (.transmit stops payload) = true) : (s.transmit stops payload).Inv where
  framed := inv.framed
  frames := by
    intro frame member
    rcases List.mem_append.mp member with waiting | new
    · exact inv.frames frame waiting
    · exact transmitLoop_frames rfl frame new
  posted := by
    simp only [AppleLink.transmit, List.foldl_append, inv.posted]
  transmitted := by
    simp only [AppleLink.whole, Bool.or_eq_true, Option.isNone_iff_eq_none, List.isEmpty_iff] at whole
    simp only [AppleLink.transmit]
    have grown : s.transmitted.Sublist
        (if (sqTransmit stops payload).2 then s.transmitted ++ [payload] else s.transmitted) := by
      split
      · exact List.sublist_append_left _ _
      · exact List.Sublist.refl _
    rcases whole with ended | nothing
    · cases complete : (sqTransmit stops payload).2 with
      | false =>
          have same := transmitLoop_stopped rfl s.posted complete
          simp only [Bool.false_eq_true, if_false]
          rw [sqTransmit, same]
          exact inv.transmitted
      | true =>
          by_cases filled : payload = []
          · subst filled
            exact inv.transmitted.trans (List.sublist_append_left _ _)
          · have posted := transmitLoop_complete rfl filled s.posted complete
            simp only [ended, Option.getD_none, List.nil_append] at posted
            simp only [sqTransmit, posted, if_true]
            exact inv.transmitted.append (List.Sublist.refl _)
    · rw [nothing]
      exact inv.transmitted.trans grown

theorem Inv.step (inv : s.Inv) {action : LinkAction} (whole : s.whole action = true)
    (stepped : s.step action = some t) : t.Inv := by
  cases action with
  | transmit stops payload =>
      cases stepped
      exact inv.transmit stops payload whole
  | deliver env =>
      simp only [AppleLink.step] at stepped
      split at stepped
      · cases stepped
      · rename_i frame rest wire
        cases stepped
        obtain ⟨sof, filled, short⟩ := inv.frames frame (by simp [wire])
        refine ⟨inv.framed.rxFrame env frame (by simp [sof]), ?_, ?_, inv.transmitted⟩
        · intro other member
          exact inv.frames other (by simp [wire, member])
        · have posted := inv.posted
          rw [wire, List.foldl_cons] at posted
          simpa only [AppleQp.rxFrame_seen s.rx env filled short] using posted
  | postRecv wqe =>
      cases stepped
      exact ⟨⟨inv.framed.discarding, inv.framed.idle, inv.framed.active, inv.framed.delivered⟩, inv.frames, inv.posted,
        inv.transmitted⟩
  | drain env =>
      cases stepped
      refine ⟨inv.framed.drainPending env, inv.frames, ?_, inv.transmitted⟩
      simpa using inv.posted
  | pollCq =>
      cases stepped
      exact ⟨⟨inv.framed.discarding, inv.framed.idle, inv.framed.active, inv.framed.delivered⟩, inv.frames, inv.posted,
        inv.transmitted⟩

/-- The completions belong, in order, to different messages that were transmitted completely, and a success
carries exactly the bytes of its message. -/
theorem completions_whole (s : AppleLink)
    (reachable : linkSystem.ReachableVia (fun s action => s.whole action = true) s) :
    ∃ messages, messages.Sublist s.transmitted ∧
      List.Forall₂ (fun completion message => completion.status = .success →
        (completion.byteLen, completion.data) = (message.length, message)) s.rx.completions messages := by
  have inv : s.Inv := by
    refine reachable.invariant ?_ ?_
    · rintro s ⟨slotCount, cqe, rfl⟩
      refine ⟨AppleQp.framed_created slotCount _, ?_, rfl, List.Sublist.refl _⟩
      intro frame member
      cases member
    · intro s action t inv whole stepped
      exact inv.step whole stepped
  have arrived : s.rx.seen.messages.Sublist s.transmitted := by
    have more := foldl_push_messages s.wire s.rx.seen
    rw [inv.posted] at more
    exact more.sublist.trans inv.transmitted
  have completed := List.sublistForall₂_map_left_iff.mp inv.framed.delivered.left
  obtain ⟨messages, each, chosen⟩ := List.sublistForall₂_iff.mp completed
  exact ⟨messages, chosen.trans arrived, each⟩

end AppleLink

def twoPageWqe : RecvWqe := { wrId := 1, addr := 4096, length := 8192, lkey := 1 }

def waitingQp : AppleQp := { AppleQp.created 16 { cqe := 16 } with recvq := [twoPageWqe] }

theorem rx_merged {first : List UInt8} (page : first.length = 4096) :
    ((waitingQp.rxFrame plainEnv ⟨1, 2, first⟩).rxFrame plainEnv ⟨1, 3, [7]⟩).completions.map Completion.outcome =
      [(.success, 4097, first ++ [7])] := by
  have filled : first ≠ [] := by
    rintro rfl
    cases page
  have all : (first ++ [7]).take 4097 = first ++ [7] := List.take_of_length_le (by simp [page])
  simp [waitingQp, AppleQp.rxFrame, AppleQp.created, AppleQp.drainPending, AppleQp.drainFrom, AppleQp.takeFrame,
    Framing.push, AppleQp.startsMessage, AppleQp.pendingActive, AppleQp.copyFrame, AppleQp.copyPiece, AppleQp.finish,
    AppleQp.popRecv, AppleQp.pushWc, AppleQp.completion, AppleQp.copyToWqe, Completion.outcome, plainEnv, twoPageWqe,
    frameEnd, appleFrameSize, appleMaxMsgSize, Mr.takesCopy, Mr.covers, page, filled, all]

theorem sqTransmit_two {first : List UInt8} (page : first.length = 4096) :
    sqTransmit (fun _ => false) (first ++ [7]) = ([⟨1, 2, first⟩, ⟨1, 3, [7]⟩], true) := by
  have taken : (first ++ [7]).take 4096 = first := List.take_left' page
  have left : (first ++ [7]).drop 4096 = [7] := List.drop_left' page
  simp [sqTransmit, transmitLoop, divRoundUp, appleFrameSize, page, taken, left]

/-- A message stops before its first frame, and the next one has two frames. -/
theorem two_frames_run {first : List UInt8} (page : first.length = 4096) :
    ∃ s, linkSystem.ReachableVia (fun s action => s.whole action = true) s ∧
      s.rx.completions.map Completion.outcome = [(.success, 4097, first ++ [7])] := by
  have start : linkSystem.ReachableVia (fun s action => s.whole action = true)
      { rx := .created 16 { cqe := 16 } } := .init ⟨16, 16, rfl⟩
  have refused := start.step (a := .transmit (fun _ => true) [4]) rfl rfl
  have sent : linkSystem.ReachableVia (fun s action => s.whole action = true)
      { rx := .created 16 { cqe := 16 }
        wire := [⟨1, 2, first⟩, ⟨1, 3, [7]⟩]
        posted := (Framing.push {} ⟨1, 2, first⟩).push ⟨1, 3, [7]⟩
        transmitted := [first ++ [7]] } := by
    refine refused.step (a := .transmit (fun _ => false) (first ++ [7])) rfl ?_
    have stopped : sqTransmit (fun _ => true) [4] = ([], false) := rfl
    simp [linkSystem, AppleLink.step, AppleLink.transmit, sqTransmit_two page, stopped]
  have waiting := sent.step (a := .postRecv twoPageWqe) rfl rfl
  have once := waiting.step (a := .deliver plainEnv) rfl rfl
  have twice := once.step (a := .deliver plainEnv) rfl rfl
  exact ⟨_, twice, rx_merged page⟩

theorem completions_whole_one :
    ∃ s, linkSystem.Reachable s ∧
      s.rx.completions.map Completion.outcome = [(.success, 4097, List.replicate 4096 5 ++ [7])] ∧
      ∃ messages, messages.Sublist s.transmitted ∧
        List.Forall₂ (fun completion message => completion.status = .success →
          (completion.byteLen, completion.data) = (message.length, message)) s.rx.completions messages := by
  have page : (List.replicate 4096 (5 : UInt8)).length = 4096 := List.length_replicate
  obtain ⟨s, reachable, done⟩ := two_frames_run page
  exact ⟨s, reachable.reachable, done, AppleLink.completions_whole s reachable⟩

theorem sqTransmit_half {payload : List UInt8} (length : payload.length = 4097) :
    sqTransmit (fun remaining => remaining = 1) payload = ([⟨1, 2, payload.take appleFrameSize⟩], false) := by
  simp [sqTransmit, transmitLoop, divRoundUp, appleFrameSize, length]

theorem merged_run {payload : List UInt8} (length : payload.length = 4097) :
    ∃ s, linkSystem.Reachable s ∧ s.transmitted = [[7]] ∧
      s.rx.completions.map Completion.outcome = [(.success, 4097, payload.take appleFrameSize ++ [7])] := by
  have page : (payload.take appleFrameSize).length = 4096 := by simp [length, appleFrameSize]
  generalize half : payload.take appleFrameSize = first at page
  have stopped : linkSystem.Reachable
      { rx := .created 16 { cqe := 16 }, wire := [⟨1, 2, first⟩], posted := Framing.push {} ⟨1, 2, first⟩ } := by
    refine .step (a := .transmit (fun remaining => remaining = 1) payload) (.init ⟨16, 16, rfl⟩) trivial ?_
    simp [linkSystem, AppleLink.step, AppleLink.transmit, sqTransmit_half length, half]
  have sent := stopped.step (a := .transmit (fun _ => false) [7]) trivial rfl
  have waiting := sent.step (a := .postRecv twoPageWqe) trivial rfl
  have once := waiting.step (a := .deliver plainEnv) trivial rfl
  have twice := once.step (a := .deliver plainEnv) trivial rfl
  exact ⟨_, twice, rfl, rx_merged page⟩

/-- A message stops after the first of its two frames, and the next message is appended to what came of it. -/
theorem messages_merged :
    ∃ s, linkSystem.Reachable s ∧ s.transmitted = [[7]] ∧
      s.rx.completions.map Completion.outcome =
        [(.success, 4097, (List.replicate 4097 0).take appleFrameSize ++ [7])] :=
  merged_run List.length_replicate

end ThunderboltVerbs.Apple
