import ThunderboltVerbs.Receive.Stream
import ThunderboltVerbs.Lib.Journal

/-!
# What a trace says about the requests of a stream
-/

namespace ThunderboltVerbs.Receive
open Proto Verbs Lib

structure Consumption where
  psn : Nat
  status : SendAckStatus
  recorded : Bool
  deriving DecidableEq, Repr

def Effect.consumption : Effect → Option Consumption
  | .consumed psn status recorded => some { psn, status, recorded }
  | _ => none

def Effect.completionPsn : Effect → Option Nat
  | .completion psn _ => some psn
  | _ => none

def consumptions (trace : List Effect) : List Consumption := trace.filterMap Effect.consumption

def completionPsns (trace : List Effect) : List Nat := trace.filterMap Effect.completionPsn

def consumedCount (trace : List Effect) : Nat := (consumptions trace).length

def outcome (trace : List Effect) (n : Nat) : Option SendAckStatus :=
  (nth (consumptions trace) n).map Consumption.status

def Recorded (trace : List Effect) (n : Nat) : Prop :=
  (nth (consumptions trace) n).map Consumption.recorded = some true

/-- The ACK history still has the status of request `n`: it was recorded, and no request that shares
its slot was recorded after it. -/
def Covered (trace : List Effect) (n : Nat) : Prop :=
  Recorded trace n ∧ ∀ m, n < m → m % ackHistorySize = n % ackHistorySize → ¬Recorded trace m

def Applied (msg : Message) (trace : List Effect) : Prop :=
  ∀ b, (bound : b < msg.payload.length) →
    ∃ addr data, Effect.wrote msg.rkey addr data ∈ trace ∧ addr ≤ msg.remoteAddr + b ∧
      data[msg.remoteAddr + b - addr]? = some msg.payload[b]

def SliceApplied (msg : Message) (trace : List Effect) (i : Nat) : Prop :=
  .wrote msg.rkey (msg.remoteAddr + i * dataMaxPayload) (msg.slice i) ∈ trace

namespace Effect

def plain (effect : Effect) : Bool := effect.consumption.isNone && effect.completionPsn.isNone

end Effect

section Reading

variable {effect : Effect} {trace : List Effect} {psn n : Nat} {status : SendAckStatus} {recorded : Bool}

theorem consumptions_plain (plain : effect.plain = true) :
    consumptions (effect :: trace) = consumptions trace := by
  simp only [Effect.plain, Bool.and_eq_true, Option.isNone_iff_eq_none] at plain
  simp [consumptions, plain.1]

theorem completionPsns_plain (plain : effect.plain = true) :
    completionPsns (effect :: trace) = completionPsns trace := by
  simp only [Effect.plain, Bool.and_eq_true, Option.isNone_iff_eq_none] at plain
  simp [completionPsns, plain.2]

@[simp] theorem consumptions_consumed :
    consumptions (.consumed psn status recorded :: trace) =
      { psn, status, recorded } :: consumptions trace := rfl

@[simp] theorem consumptions_completion {wc : Wc} :
    consumptions (.completion psn wc :: trace) = consumptions trace := rfl

@[simp] theorem completionPsns_consumed :
    completionPsns (.consumed psn status recorded :: trace) = completionPsns trace := rfl

@[simp] theorem completionPsns_completion {wc : Wc} :
    completionPsns (.completion psn wc :: trace) = psn :: completionPsns trace := rfl

theorem outcome_congr {other : List Effect} (same : consumptions other = consumptions trace) :
    outcome other n = outcome trace n := by
  simp [outcome, same]

theorem consumedCount_congr {other : List Effect} (same : consumptions other = consumptions trace) :
    consumedCount other = consumedCount trace := by
  simp [consumedCount, same]

theorem recorded_congr {other : List Effect} (same : consumptions other = consumptions trace) :
    Recorded other n ↔ Recorded trace n := by
  simp [Recorded, same]

theorem covered_congr {other : List Effect} (same : consumptions other = consumptions trace) :
    Covered other n ↔ Covered trace n := by
  simp [Covered, recorded_congr same]

theorem outcome_consumed_lt (earlier : n < consumedCount trace) :
    outcome (.consumed psn status recorded :: trace) n = outcome trace n := by
  simp [outcome, nth_cons_lt earlier]

theorem outcome_consumed_eq :
    outcome (.consumed psn status recorded :: trace) (consumedCount trace) = some status := by
  simp [outcome, consumedCount]

theorem recorded_consumed_lt (earlier : n < consumedCount trace) :
    Recorded (.consumed psn status recorded :: trace) n ↔ Recorded trace n := by
  simp [Recorded, nth_cons_lt earlier]

theorem recorded_consumed_eq :
    Recorded (.consumed psn status recorded :: trace) (consumedCount trace) ↔ recorded = true := by
  simp [Recorded, consumedCount]

theorem Recorded.lt (known : Recorded trace n) : n < consumedCount trace := by
  obtain ⟨consumption, found, _⟩ := Option.map_eq_some_iff.mp known
  exact nth_lt found

theorem outcome_lt (known : outcome trace n = some status) : n < consumedCount trace := by
  obtain ⟨consumption, found, _⟩ := Option.map_eq_some_iff.mp known
  exact nth_lt found

theorem Covered.of_consumed
    (covered : Covered (.consumed psn status recorded :: trace) n) (earlier : n < consumedCount trace) :
    Covered trace n := by
  refine ⟨(recorded_consumed_lt earlier).mp covered.1, fun m later slot known => ?_⟩
  exact covered.2 m later slot ((recorded_consumed_lt known.lt).mpr known)

theorem nth_consumptions_suffix {later : List Effect} (grows : trace <:+ later)
    (bound : n < consumedCount trace) : nth (consumptions later) n = nth (consumptions trace) n := by
  obtain ⟨newer, rfl⟩ := grows
  induction newer with
  | nil => rfl
  | cons effect newer ih =>
      rw [← ih]
      cases effect with
      | consumed psn status recorded =>
          rw [List.cons_append, consumptions_consumed, nth_cons_lt]
          have split : consumptions (newer ++ trace) = consumptions newer ++ consumptions trace :=
            List.filterMap_append
          simp only [consumedCount] at bound
          rw [split, List.length_append]
          omega
      | _ => rfl

theorem outcome_suffix {later : List Effect} (grows : trace <:+ later) (bound : n < consumedCount trace) :
    outcome later n = outcome trace n := by
  simp only [outcome, nth_consumptions_suffix grows bound]

theorem consumedCount_suffix {later : List Effect} (grows : trace <:+ later) :
    consumedCount trace ≤ consumedCount later :=
  (grows.sublist.filterMap _).length_le

theorem Applied.mono {msg : Message} {later : List Effect} (applied : Applied msg trace)
    (subset : trace ⊆ later) : Applied msg later := by
  intro b bound
  obtain ⟨addr, data, wrote, start, byte⟩ := applied b bound
  exact ⟨addr, data, subset wrote, start, byte⟩

theorem applied_of_slices {msg : Message}
    (slices : ∀ i < msg.fragments, msg.slice i ≠ [] → SliceApplied msg trace i) : Applied msg trace := by
  intro b bound
  have size : dataMaxPayload = 4048 := rfl
  have inside : b / dataMaxPayload < msg.fragments := by
    simp only [Message.fragments, fragmentCount, size]
    split <;> omega
  have split : b / dataMaxPayload * dataMaxPayload + b % dataMaxPayload = b := Nat.div_add_mod' ..
  have nonempty : msg.slice (b / dataMaxPayload) ≠ [] :=
    slice_ne_nil msg inside (List.length_pos_iff.mp (by omega))
  refine ⟨_, _, slices _ inside nonempty, by omega, ?_⟩
  have index : msg.remoteAddr + b - (msg.remoteAddr + b / dataMaxPayload * dataMaxPayload) =
      b % dataMaxPayload := by omega
  have small : b % dataMaxPayload < dataMaxPayload := Nat.mod_lt _ (by decide)
  simp only [index, Message.slice, List.getElem?_take, small, if_true, List.getElem?_drop, split]
  exact List.getElem?_eq_getElem bound

end Reading

/-! ## Laws -/

def Succeeded (s : Stream) (psn : Nat) (trace : List Effect) : Prop :=
  ∃ n, n < consumedCount trace ∧ consumedCount trace ≤ n + 2 ^ 23 ∧ s.psn n = psn ∧
    outcome trace n = some .ok

theorem Succeeded.mono {s : Stream} {n : Nat} {trace later : List Effect} (grows : trace <:+ later)
    (ok : outcome trace n = some .ok) (young : consumedCount later ≤ n + 2 ^ 23) :
    Succeeded s (s.psn n) later := by
  have bound := outcome_lt ok
  exact ⟨n, bound.trans_le (consumedCount_suffix grows), young, rfl,
    (outcome_suffix grows bound).trans ok⟩

def WritesApplied (s : Stream) (trace : List Effect) : Prop :=
  ∀ n < consumedCount trace, ∀ msg, s.request n = .data msg → msg.op.isWrite = true →
    outcome trace n = some .error ∨ Applied msg trace

def ReadConsumed (s : Stream) (psn : Nat) (trace : List Effect) : Prop :=
  ∃ n < consumedCount trace, s.psn n = psn ∧
    ∃ totalLen remoteAddr rkey, s.request n = .read totalLen remoteAddr rkey

/-- What an effect promises about the trace before it. The answer to a duplicate is held to its word
only if `strict`. -/
def Lawful (s : Stream) (strict : Prop) : Effect → List Effect → Prop
  | .ack _ _ psn .ok, trace => Succeeded s psn trace
  | .reack _ _ psn .ok, trace => strict → Succeeded s psn trace
  | .dispatched request, trace => ReadConsumed s request.psn trace ∧ WritesApplied s trace
  | _, _ => True

/-- A trace in which `k` requests have been consumed in the order of their PSNs. -/
structure Sound (s : Stream) (strict : Prop) (k : Nat) (trace : List Effect) : Prop where
  consumed : (consumptions trace).map Consumption.psn = (List.range k).reverse.map s.psn
  completions : (completionPsns trace).Sublist ((consumptions trace).map Consumption.psn)
  writes : WritesApplied s trace
  lawful : Always (Lawful s strict) trace

variable {s : Stream} {strict : Prop} {k : Nat} {trace : List Effect}

theorem Sound.count (sound : Sound s strict k trace) : consumedCount trace = k := by
  simpa [consumedCount] using congrArg List.length sound.consumed

theorem Sound.note {effect : Effect} (sound : Sound s strict k trace) (plain : effect.plain = true)
    (lawful : Lawful s strict effect trace) : Sound s strict k (effect :: trace) where
  consumed := by simpa only [consumptions_plain plain] using sound.consumed
  completions := by
    simpa only [consumptions_plain plain, completionPsns_plain plain] using sound.completions
  writes := by
    intro n bound msg request isWrite
    have same : consumptions (effect :: trace) = consumptions trace := consumptions_plain plain
    rw [consumedCount_congr same] at bound
    rw [outcome_congr same]
    exact (sound.writes n bound msg request isWrite).imp_right fun applied =>
      applied.mono (List.subset_cons_self _ _)
  lawful := ⟨lawful, sound.lawful⟩

theorem Sound.consume {status : SendAckStatus} {recorded : Bool} (wc : Option Wc)
    (sound : Sound s strict k trace)
    (applied : ∀ msg, s.request k = .data msg → msg.op.isWrite = true →
      status = .error ∨ Applied msg trace) :
    Sound s strict (k + 1)
      (.consumed (s.psn k) status recorded ::
        ((wc.map fun wc => Effect.completion (s.psn k) wc).toList ++ trace)) := by
  set before := (wc.map fun wc => Effect.completion (s.psn k) wc).toList ++ trace with beforeDef
  have same : consumptions before = consumptions trace := by cases wc <;> rfl
  have lawfulBefore : Always (Lawful s strict) before := by
    cases wc with
    | none => exact sound.lawful
    | some wc => exact ⟨trivial, sound.lawful⟩
  have subset : trace ⊆ .consumed (s.psn k) status recorded :: before :=
    List.Subset.trans (List.subset_append_right _ _) (List.subset_cons_self _ _)
  refine ⟨?_, ?_, ?_, trivial, lawfulBefore⟩
  · simp [same, sound.consumed, List.range_succ]
  · rw [consumptions_consumed, completionPsns_consumed, same]
    cases wc with
    | none => exact sound.completions.trans (List.sublist_cons_self _ _)
    | some wc => exact sound.completions.cons_cons _
  · intro n bound msg request isWrite
    have countBefore : consumedCount before = k := (consumedCount_congr same).trans sound.count
    have total : consumedCount (.consumed (s.psn k) status recorded :: before) = k + 1 := by
      simp [consumedCount, ← countBefore]
    by_cases current : n = k
    · subst current
      rcases applied msg request isWrite with failed | done
      · left
        rw [← countBefore, outcome_consumed_eq, failed]
      · exact .inr (done.mono subset)
    · have earlier : n < k := by omega
      rw [outcome_consumed_lt (by omega), outcome_congr same]
      exact (sound.writes n (by rw [sound.count]; exact earlier) msg request isWrite).imp_right
        fun done => done.mono subset

end ThunderboltVerbs.Receive
