import ThunderboltVerbs.Apple.Rx
import ThunderboltVerbs.Lib.Subsequence

/-!
# Resynchronisation

A frame that ends a message may be the whole of it, so only `apple_rx_discard` tells it from the tail of a
message whose start was dropped.
-/

namespace ThunderboltVerbs.Apple
open Proto Verbs Receive Lib

namespace AppleQp

/-- No fragment without SOF comes where a message should start, and nothing is flushed amid a message. -/
def synced (q : AppleQp) : RxAction → Bool
  | .frame _ frame => q.active.isSome || q.discard || startsMessage frame
  | .flush => q.active.isNone && !q.discard
  | _ => true

def Intact (q : AppleQp) (sources : List Nat) : Prop :=
  ∀ message ∈ sources, message < q.seen.messages.length ∧ message ∉ q.spoiled

structure Synced (q : AppleQp) : Prop where
  spoiled : ∀ message ∈ q.spoiled, message < q.seen.messages.length ∨
    (message = q.seen.messages.length ∧ q.discard = true)
  discarding : q.discard = true → q.active = none
  active : ∀ p, q.active = some p → ∀ message ∈ p.sources, message = q.seen.messages.length
  ready : ∀ p ∈ q.ready, q.Intact p.sources
  completions : ∀ completion ∈ q.completions, q.Intact completion.sources

variable {q q' : AppleQp} {env : AppleEnv}

@[simp] theorem length_messages_push (framing : Framing) (frame : AppleFrame) :
    (framing.push frame).messages.length =
      if frame.eof = frameEnd then framing.messages.length + 1 else framing.messages.length := by
  simp only [Framing.push]
  split <;> simp

theorem Intact.congr {sources : List Nat} (intact : q.Intact sources) (seen : q'.seen = q.seen)
    (spoiled : q'.spoiled = q.spoiled) : q'.Intact sources := by
  simpa [Intact, seen, spoiled] using intact

theorem Intact.later {sources : List Nat} (intact : q.Intact sources)
    (messages : q.seen.messages.length ≤ q'.seen.messages.length)
    (spoiled : ∀ message ∈ q'.spoiled, message ∈ q.spoiled ∨ message = q.seen.messages.length) :
    q'.Intact sources := by
  intro message member
  obtain ⟨before, kept⟩ := intact message member
  refine ⟨by omega, fun spoils => ?_⟩
  rcases spoiled message spoils with old | new
  · exact kept old
  · omega

theorem Synced.drained {drained : List Pending} {completed : List Completion} (synced : q.Synced)
    (drain : Drained env q q' drained completed) : q'.Synced where
  spoiled := by
    rw [drain.spoiled, drain.seen, drain.discard]
    exact synced.spoiled
  discarding := by
    rw [drain.discard, drain.active]
    exact synced.discarding
  active := by
    rw [drain.active, drain.seen]
    exact synced.active
  ready := by
    intro p member
    have before : p ∈ q.ready := by
      rw [drain.ready]
      exact List.mem_append_right drained member
    exact (synced.ready p before).congr drain.seen drain.spoiled
  completions := by
    intro completion member
    rw [drain.completions] at member
    refine Intact.congr ?_ drain.seen drain.spoiled
    rcases List.mem_append.mp member with old | new
    · exact synced.completions completion old
    · obtain ⟨p, inside, wqe, rfl⟩ := drain.each.exists_mem new
      apply synced.ready p
      rw [drain.ready]
      exact List.mem_append_left q'.ready inside

theorem Synced.drainPending (synced : q.Synced) (env : AppleEnv) : (q.drainPending env).Synced := by
  obtain ⟨drained, completed, drain⟩ := q.drainPending_drained env
  exact synced.drained drain

/-! ## Frames -/

theorem Synced.dropped (synced : q.Synced) (frame : AppleFrame) (idle : q.active = none) :
    { q with
      seen := q.seen.push frame
      discard := frame.eof ≠ frameEnd
      spoiled := q.seen.messages.length :: q.spoiled }.Synced := by
  have later : ∀ sources, q.Intact sources → { q with
      seen := q.seen.push frame
      discard := frame.eof ≠ frameEnd
      spoiled := q.seen.messages.length :: q.spoiled }.Intact sources := by
    intro sources intact
    apply intact.later
    · simp only [length_messages_push]
      split <;> omega
    · intro message member
      exact (List.mem_cons.mp member).symm
  refine ⟨?_, fun _ => idle, ?_, fun p member => later _ (synced.ready p member),
    fun completion member => later _ (synced.completions completion member)⟩
  · intro message member
    have bound : message ≤ q.seen.messages.length := by
      rcases List.mem_cons.mp member with rfl | old
      · exact le_refl _
      · rcases synced.spoiled message old with before | ⟨now, -⟩
        · omega
        · omega
    simp only [length_messages_push, decide_eq_true_eq]
    split
    · omega
    · rename_i going
      have cases := Nat.lt_or_eq_of_le bound
      simpa [going] using cases
  · intro p active
    have active : q.active = some p := active
    rw [idle] at active
    cases active

theorem Synced.copied (synced : q.Synced) {frame : AppleFrame} (going : frame.eof ≠ frameEnd) {p : Pending}
    {pendingBytes : Nat} (steady : q.discard = false)
    (sources : ∀ source ∈ p.sources, source = q.seen.messages.length) :
    { q with seen := q.seen.push frame, active := some p, pendingBytes }.Synced := by
  have same : (q.seen.push frame).messages.length = q.seen.messages.length := by simp [going]
  have later : ∀ sources, q.Intact sources →
      { q with seen := q.seen.push frame, active := some p, pendingBytes }.Intact sources := by
    intro sources intact
    exact intact.later (le_of_eq same.symm) fun message member => .inl member
  refine ⟨?_, ?_, ?_, fun p member => later _ (synced.ready p member),
    fun completion member => later _ (synced.completions completion member)⟩
  · intro message member
    simpa only [same] using synced.spoiled message member
  · intro discarding
    have discarding : q.discard = true := discarding
    rw [steady] at discarding
    cases discarding
  · intro p' active source member
    cases active
    simpa only [same] using sources source member

theorem Synced.finished (synced : q.Synced) {frame : AppleFrame} (ends : frame.eof = frameEnd) {p : Pending}
    {pendingBytes : Nat} (steady : q.discard = false)
    (sources : ∀ source ∈ p.sources, source = q.seen.messages.length) :
    { q with seen := q.seen.push frame, active := none, ready := q.ready ++ [p], pendingBytes }.Synced := by
  have same : (q.seen.push frame).messages.length = q.seen.messages.length + 1 := by simp [ends]
  have before : ∀ message ∈ q.spoiled, message < q.seen.messages.length := by
    intro message member
    rcases synced.spoiled message member with before | ⟨-, discarding⟩
    · exact before
    · rw [steady] at discarding
      cases discarding
  have later : ∀ sources, q.Intact sources →
      { q with seen := q.seen.push frame, active := none, ready := q.ready ++ [p], pendingBytes }.Intact sources := by
    intro sources intact
    refine intact.later ?_ fun message member => .inl member
    simp only [same]
    omega
  refine ⟨?_, fun _ => rfl, ?_, ?_, fun completion member => later _ (synced.completions completion member)⟩
  · intro message member
    have old := before message member
    simp only [same]
    omega
  · intro p active
    cases active
  · intro slot member
    rcases List.mem_append.mp member with old | new
    · exact later _ (synced.ready slot old)
    · obtain rfl := List.mem_singleton.mp new
      intro source inside
      have now := sources source inside
      refine ⟨by simp only [same]; omega, fun spoils => ?_⟩
      have old := before source spoils
      omega

theorem Synced.takeFrame (synced : q.Synced) (env : AppleEnv) (frame : AppleFrame)
    (starts : q.active.isSome = true ∨ q.discard = true ∨ startsMessage frame = true) :
    (q.takeFrame env frame).Synced := by
  simp only [AppleQp.takeFrame]
  split
  · rename_i discarding
    exact synced.dropped frame (synced.discarding discarding)
  rename_i steady
  have steady : q.discard = false := by simpa using steady
  split
  · -- The fragment without SOF that the condition rules out.
    rename_i idle
    simp [steady, idle.1] at starts
    simp [starts] at idle
  split
  · rename_i full
    have idle : q.active = none := by
      cases active : q.active with
      | none => rfl
      | some p => simp [pendingActive, active] at full
    exact synced.dropped frame idle
  · rename_i p slot
    have sources : ∀ source ∈ p.sources, source = q.seen.messages.length := by
      cases active : q.active with
      | some p' =>
          simp only [pendingActive, active, Option.some.injEq] at slot
          subst slot
          exact synced.active p' active
      | none =>
          simp only [pendingActive, active] at slot
          split at slot
          · cases slot
          · cases slot
            intro source member
            cases member
    obtain ⟨p', pendingBytes, copied, origin, -⟩ :=
      { q with seen := q.seen.push frame }.copyFrame_eq env p frame.payload q.seen.messages.length
    have sources' : ∀ source ∈ p'.sources, source = q.seen.messages.length := by
      intro source member
      exact (origin source member).elim (sources source) id
    rw [copied]
    split
    · rename_i ends
      exact (synced.finished ends steady sources').drainPending env
    · rename_i going
      exact synced.copied going steady sources'

theorem Synced.flushPending (synced : q.Synced) (idle : q.active = none) (steady : q.discard = false) :
    q.flushPending.Synced := by
  simp only [AppleQp.flushPending, idle, Option.isSome_none, Bool.false_eq_true, if_false]
  refine ⟨?_, fun _ => rfl, ?_, ?_, synced.completions⟩
  · simpa [steady] using synced.spoiled
  · intro p active
    cases active
  · intro p member
    cases member

theorem Synced.step (synced : q.Synced) {action : RxAction} (allowed : q.synced action = true)
    (stepped : q.step action = some q') : q'.Synced := by
  cases action with
  | frame env frame =>
      cases stepped
      simp only [rxFrame]
      split
      · exact synced
      · obtain ⟨drained, completed, drain⟩ := q.drainPending_drained env
        apply (synced.drained drain).takeFrame env frame
        simp only [AppleQp.synced, Bool.or_eq_true] at allowed
        rw [drain.active, drain.discard]
        tauto
  | postRecv wqe =>
      cases stepped
      exact ⟨synced.spoiled, synced.discarding, synced.active, synced.ready, synced.completions⟩
  | drain env =>
      cases stepped
      exact synced.drainPending env
  | pollCq =>
      cases stepped
      exact ⟨synced.spoiled, synced.discarding, synced.active, synced.ready, synced.completions⟩
  | flush =>
      cases stepped
      simp only [AppleQp.synced, Bool.and_eq_true, Option.isNone_iff_eq_none, Bool.not_eq_true'] at allowed
      exact synced.flushPending allowed.1 allowed.2
  | close =>
      cases stepped
      exact ⟨synced.spoiled, synced.discarding, synced.active, synced.ready, synced.completions⟩

theorem synced_created (slotCount : Nat) (cq : Cq) : (created slotCount cq).Synced where
  spoiled := by
    intro message member
    cases member
  discarding := fun _ => rfl
  active := by
    intro p active
    cases active
  ready := by
    intro p member
    cases member
  completions := by
    intro completion member
    cases member

/-- No completion comes from a message of which a frame was dropped. -/
theorem dropped_message_discarded (q : AppleQp)
    (reachable : rxSystem.ReachableVia (fun q action => q.synced action = true) q) :
    ∀ completion ∈ q.completions, completion.status = .success →
      ∀ message ∈ completion.sources, message ∉ q.spoiled := by
  have synced : q.Synced := by
    refine reachable.invariant ?_ ?_
    · rintro q ⟨slotCount, cqe, rfl⟩
      exact synced_created slotCount _
    · intro q action q' synced allowed stepped
      exact synced.step allowed stepped
  intro completion member _ message inside
  exact (synced.completions completion member message inside).2

end AppleQp

def pageWqe : RecvWqe := { wrId := 1, addr := 4096, length := 4096, lkey := 1 }

/-- The second message finds the only slot taken and is discarded as a whole. -/
def discardingRun : List RxAction :=
  [.frame plainEnv ⟨1, 3, [1]⟩, .frame plainEnv ⟨1, 2, [2]⟩, .postRecv pageWqe, .frame plainEnv ⟨0, 3, [3]⟩,
    .postRecv pageWqe, .frame plainEnv ⟨0, 3, [4]⟩]

theorem dropped_message_discarded_second :
    ∃ q, rxSystem.Reachable q ∧ q.spoiled = [1, 1] ∧ q.completions.map (·.data) = [[1], [4]] ∧
      ∀ completion ∈ q.completions, completion.status = .success →
        ∀ message ∈ completion.sources, message ∉ q.spoiled := by
  obtain ⟨q, reachable, done⟩ := System.exists_reachableVia rxSystem (fun q action => q.synced action = true)
    discardingRun (fun q => q.spoiled = [1, 1] ∧ q.completions.map (·.data) = [[1], [4]]) ⟨1, 16, rfl⟩
    (by decide +kernel)
  simp only [decide_eq_true_eq] at done
  exact ⟨q, reachable.reachable, done.1, done.2, AppleQp.dropped_message_discarded q reachable⟩

/-- The tail of a message is delivered as a whole one: after a fragment without SOF was dropped, and after a
flush amid the message. -/
theorem tail_delivered :
    (∃ q, rxSystem.Reachable q ∧ q.spoiled = [0] ∧
      q.completions.map (fun completion => (completion.status, completion.data, completion.sources)) =
        [(.success, [2], [0])]) ∧
    ∃ q, rxSystem.Reachable q ∧ q.spoiled = [0] ∧
      q.completions.map (fun completion => (completion.status, completion.data, completion.sources)) =
        [(.success, [2], [0])] := by
  refine ⟨?_, ?_⟩
  · obtain ⟨q, reachable, done⟩ := System.exists_reachableVia rxSystem (fun _ _ => True)
      [.postRecv pageWqe, .frame plainEnv ⟨0, 2, [1]⟩, .frame plainEnv ⟨0, 3, [2]⟩]
      (fun q => q.spoiled = [0] ∧
        q.completions.map (fun completion => (completion.status, completion.data, completion.sources)) =
          [(.success, [2], [0])]) ⟨16, 16, rfl⟩ (by decide +kernel)
    exact ⟨q, reachable, by simpa using done⟩
  · obtain ⟨q, reachable, done⟩ := System.exists_reachableVia rxSystem (fun _ _ => True)
      [.frame plainEnv ⟨1, 2, [1]⟩, .flush, .postRecv pageWqe, .frame plainEnv ⟨0, 3, [2]⟩]
      (fun q => q.spoiled = [0] ∧
        q.completions.map (fun completion => (completion.status, completion.data, completion.sources)) =
          [(.success, [2], [0])]) ⟨16, 16, rfl⟩ (by decide +kernel)
    exact ⟨q, reachable, by simpa using done⟩

end ThunderboltVerbs.Apple
