import ThunderboltVerbs.Receive.Drain
import ThunderboltVerbs.Lib.Store
import ThunderboltVerbs.Lib.Tally

/-!
# The copies of a message

A copy does not depend on the queue pair: it leaves its effect in the trace and a number of bytes, or it
fails. The fragments of a message go to different places, so their order does not matter.
-/

namespace ThunderboltVerbs.Receive
open Proto Verbs Lib

/-- What a copy leaves in the trace and how many bytes count as delivered. -/
abbrev Copy := Option (List Effect × Nat)

def Copy.effects (copy : Copy) : List Effect := (copy.map Prod.fst).getD []
def Copy.bytes (copy : Copy) : Nat := (copy.map Prod.snd).getD 0

/-- The copy of a fragment to the buffer of a receive request. -/
def placeCopy (env : RxEnv) (wqe : RecvWqe) (offset : Nat) (payload : List UInt8) : Copy :=
  let copyLen := min payload.length (wqe.length - offset)
  let addr := (wqe.addr + offset) % 2 ^ 64
  if copyLen = 0 then some ([], 0)
  else
    match env.mrs wqe.lkey with
    | none => none
    | some mr =>
        if mr.takesCopy addr copyLen then some ([.placed wqe.lkey addr (payload.take copyLen)], copyLen) else none

/-- The copy of a fragment to the region of a WRITE. -/
def writeCopy (env : RxEnv) (rkey remoteAddr offset : Nat) (payload : List UInt8) : Copy :=
  if payload = [] then some ([], 0)
  else if 2 ^ 64 ≤ remoteAddr + offset then none
  else
    match env.mrs rkey with
    | none => none
    | some mr =>
        if mr.remoteWrite && mr.takesIovaCopy (remoteAddr + offset) payload.length then
          some ([.wrote rkey (remoteAddr + offset) payload], 0)
        else none

variable {q : RxQp} {env : RxEnv}

theorem copyToWqe_eq (env : RxEnv) (wqe : RecvWqe) (offset : Nat) (payload : List UInt8) (delivered : Nat) :
    q.copyToWqe env wqe offset payload delivered =
      match placeCopy env wqe offset payload with
      | none => (q, none)
      | some (effects, bytes) => ({ q with trace := effects ++ q.trace }, some (delivered + bytes)) := by
  simp only [RxQp.copyToWqe, placeCopy]
  split
  · rfl
  cases env.mrs wqe.lkey with
  | none => rfl
  | some mr =>
      simp only
      split <;> rfl

theorem copyToRemote_copy (env : RxEnv) (rkey remoteAddr offset : Nat) {payload : List UInt8}
    (nonempty : payload ≠ []) :
    q.copyToRemote env rkey remoteAddr offset payload =
      (writeCopy env rkey remoteAddr offset payload).map fun copy => { q with trace := copy.1 ++ q.trace } := by
  simp only [RxQp.copyToRemote, writeCopy, if_neg nonempty]
  split
  · rfl
  cases env.mrs rkey with
  | none => rfl
  | some mr =>
      simp only
      split <;> rfl

/-! ## A list of fragments -/

section Fragments

variable (copy : Nat → Copy) (order : List Nat)

/-- The newest effect is the first. -/
def copyEffects : List Effect := order.reverse.flatMap fun i => (copy i).effects

def copyBytes : Nat := tally (fun i => (copy i).bytes) order

def copyFails : Bool := order.any fun i => (copy i).isNone

theorem copyEffects_cons (i : Nat) : copyEffects copy (i :: order) = copyEffects copy order ++ (copy i).effects := by
  simp [copyEffects]

theorem copyEffects_snoc (i : Nat) : copyEffects copy (order ++ [i]) = (copy i).effects ++ copyEffects copy order := by
  simp [copyEffects]

theorem copyFails_range_succ (count : Nat) :
    copyFails copy (List.range (count + 1)) = (copyFails copy (List.range count) || (copy count).isNone) := by
  simp [copyFails, List.range_succ]

variable {copy} in
theorem copyFails_first {count : Nat} (fails : copyFails copy (List.range count) = true) :
    ∃ i < count, copyFails copy (List.range i) = false ∧ copy i = none := by
  induction count with
  | zero => cases fails
  | succ count ih =>
      rw [copyFails_range_succ, Bool.or_eq_true] at fails
      cases before : copyFails copy (List.range count) with
      | true =>
          obtain ⟨i, bound, first⟩ := ih before
          exact ⟨i, by omega, first⟩
      | false =>
          rw [before] at fails
          exact ⟨count, by omega, before, by simpa using fails⟩

variable {order} {order' : List Nat}

theorem copyEffects_perm (perm : order.Perm order') : (copyEffects copy order).Perm (copyEffects copy order') :=
  ((order.reverse_perm.trans perm).trans order'.reverse_perm.symm).flatMap_right _

theorem copyBytes_perm (perm : order.Perm order') : copyBytes copy order = copyBytes copy order' :=
  tally_perm _ perm

theorem copyFails_perm (perm : order.Perm order') : copyFails copy order = copyFails copy order' := by
  rw [Bool.eq_iff_iff]
  simp only [copyFails, List.any_eq_true, perm.mem_iff]

end Fragments

/-- The copy of fragment `i` of a message. -/
def Message.placeCopy (msg : Message) (env : RxEnv) (wqe : RecvWqe) (i : Nat) : Copy :=
  Receive.placeCopy env wqe (i * dataMaxPayload) (msg.slice i)

def Message.writeCopy (msg : Message) (env : RxEnv) (i : Nat) : Copy :=
  Receive.writeCopy env msg.rkey msg.remoteAddr (i * dataMaxPayload) (msg.slice i)

def Message.storedFrag (msg : Message) (i : Nat) : Option ReorderFrag :=
  if msg.slice i = [] then none else some { offset := i * dataMaxPayload, data := msg.slice i }

variable {msg : Message} {order : List Nat}

theorem copyFrags_eq (wqe : RecvWqe) (delivered : Nat) (whole : copyFails (msg.placeCopy env wqe) order = false) :
    RxQp.copyFrags env wqe (order.filterMap msg.storedFrag) q delivered =
      ({ q with trace := copyEffects (msg.placeCopy env wqe) order ++ q.trace },
        delivered + copyBytes (msg.placeCopy env wqe) order, true) := by
  induction order generalizing q delivered with
  | nil => rfl
  | cons i rest ih =>
      simp only [copyFails, List.any_cons, Bool.or_eq_false_iff] at whole
      rw [copyEffects_cons, copyBytes, tally_cons]
      by_cases empty : msg.slice i = []
      · have nothing : msg.placeCopy env wqe i = some ([], 0) := by
          simp [Message.placeCopy, placeCopy, empty]
        rw [List.filterMap_cons_none (by simp [Message.storedFrag, empty]), ih _ whole.2, nothing]
        simp [Copy.effects, Copy.bytes, copyBytes]
      · rw [List.filterMap_cons_some (by rw [Message.storedFrag, if_neg empty])]
        have copied := copyToWqe_eq (q := q) env wqe (i * dataMaxPayload) (msg.slice i) delivered
        cases done : Receive.placeCopy env wqe (i * dataMaxPayload) (msg.slice i) with
        | none => simp [Message.placeCopy, done] at whole
        | some copy =>
            rw [done] at copied
            simp only [RxQp.copyFrags, copied]
            rw [ih _ whole.2]
            simp [Message.placeCopy, done, Copy.effects, Copy.bytes, copyBytes, Nat.add_assoc]

theorem copyFrags_fails (wqe : RecvWqe) (delivered : Nat) (fails : copyFails (msg.placeCopy env wqe) order = true) :
    (RxQp.copyFrags env wqe (order.filterMap msg.storedFrag) q delivered).2.2 = false := by
  induction order generalizing q delivered with
  | nil => cases fails
  | cons i rest ih =>
      simp only [copyFails, List.any_cons, Bool.or_eq_true] at fails
      by_cases empty : msg.slice i = []
      · have nothing : msg.placeCopy env wqe i = some ([], 0) := by
          simp [Message.placeCopy, placeCopy, empty]
        rw [List.filterMap_cons_none (by simp [Message.storedFrag, empty])]
        exact ih _ (fails.resolve_left (by simp [nothing]))
      · rw [List.filterMap_cons_some (by rw [Message.storedFrag, if_neg empty])]
        have copied := copyToWqe_eq (q := q) env wqe (i * dataMaxPayload) (msg.slice i) delivered
        cases done : Receive.placeCopy env wqe (i * dataMaxPayload) (msg.slice i) with
        | none =>
            rw [done] at copied
            simp only [RxQp.copyFrags, copied]
        | some copy =>
            rw [done] at copied
            simp only [RxQp.copyFrags, copied]
            exact ih _ (fails.resolve_left (by simp [Message.placeCopy, done]))

theorem copyWriteFrags_eq (whole : copyFails (msg.writeCopy env) order = false) :
    RxQp.copyWriteFrags env msg.rkey msg.remoteAddr (order.filterMap msg.storedFrag) q =
      ({ q with trace := copyEffects (msg.writeCopy env) order ++ q.trace }, true) := by
  induction order generalizing q with
  | nil => rfl
  | cons i rest ih =>
      simp only [copyFails, List.any_cons, Bool.or_eq_false_iff] at whole
      rw [copyEffects_cons]
      by_cases empty : msg.slice i = []
      · have nothing : msg.writeCopy env i = some ([], 0) := by
          simp [Message.writeCopy, writeCopy, empty]
        rw [List.filterMap_cons_none (by simp [Message.storedFrag, empty]), ih whole.2, nothing]
        simp [Copy.effects]
      · rw [List.filterMap_cons_some (by rw [Message.storedFrag, if_neg empty])]
        have copied := copyToRemote_copy (q := q) env msg.rkey msg.remoteAddr (i * dataMaxPayload) empty
        cases done : Receive.writeCopy env msg.rkey msg.remoteAddr (i * dataMaxPayload) (msg.slice i) with
        | none => simp [Message.writeCopy, done] at whole
        | some copy =>
            rw [done, Option.map_some] at copied
            simp only [RxQp.copyWriteFrags, copied]
            rw [ih whole.2]
            simp [Message.writeCopy, done, Copy.effects]

theorem copyWriteFrags_fails (fails : copyFails (msg.writeCopy env) order = true) :
    (RxQp.copyWriteFrags env msg.rkey msg.remoteAddr (order.filterMap msg.storedFrag) q).2 = false := by
  induction order generalizing q with
  | nil => cases fails
  | cons i rest ih =>
      simp only [copyFails, List.any_cons, Bool.or_eq_true] at fails
      by_cases empty : msg.slice i = []
      · have nothing : msg.writeCopy env i = some ([], 0) := by
          simp [Message.writeCopy, writeCopy, empty]
        rw [List.filterMap_cons_none (by simp [Message.storedFrag, empty])]
        exact ih (fails.resolve_left (by simp [nothing]))
      · rw [List.filterMap_cons_some (by rw [Message.storedFrag, if_neg empty])]
        have copied := copyToRemote_copy (q := q) env msg.rkey msg.remoteAddr (i * dataMaxPayload) empty
        cases done : Receive.writeCopy env msg.rkey msg.remoteAddr (i * dataMaxPayload) (msg.slice i) with
        | none =>
            rw [done, Option.map_none] at copied
            simp only [RxQp.copyWriteFrags, copied]
        | some copy =>
            rw [done, Option.map_some] at copied
            simp only [RxQp.copyWriteFrags, copied]
            exact ih (fails.resolve_left (by simp [Message.writeCopy, done]))

def Effect.isCopy : Effect → Bool
  | .wrote .. | .placed .. => true
  | _ => false

theorem Copied.effects {q' : RxQp} (copied : Copied q q') :
    ∃ effects, q' = { q with trace := effects ++ q.trace } ∧ ∀ effect ∈ effects, effect.isCopy = true := by
  induction copied with
  | refl => exact ⟨[], rfl, by simp⟩
  | wrote key addr data _ ih =>
      obtain ⟨effects, rfl, each⟩ := ih
      refine ⟨effects ++ [.wrote key addr data], by simp [RxQp.note], fun effect member => ?_⟩
      rcases List.mem_append.mp member with old | new
      · exact each effect old
      · exact List.mem_singleton.mp new ▸ rfl
  | placed key addr data _ ih =>
      obtain ⟨effects, rfl, each⟩ := ih
      refine ⟨effects ++ [.placed key addr data], by simp [RxQp.note], fun effect member => ?_⟩
      rcases List.mem_append.mp member with old | new
      · exact each effect old
      · exact List.mem_singleton.mp new ▸ rfl

theorem placeCopy_copies (env : RxEnv) (wqe : RecvWqe) (msg : Message) (order : List Nat) :
    ∀ effect ∈ copyEffects (msg.placeCopy env wqe) order, effect.isCopy = true := by
  intro effect member
  obtain ⟨i, -, own⟩ := List.mem_flatMap.mp member
  simp only [Message.placeCopy, Receive.placeCopy] at own
  split at own
  · cases own
  split at own
  · cases own
  split at own
  · exact List.mem_singleton.mp own ▸ rfl
  · cases own

theorem writeCopy_copies (env : RxEnv) (msg : Message) (order : List Nat) :
    ∀ effect ∈ copyEffects (msg.writeCopy env) order, effect.isCopy = true := by
  intro effect member
  obtain ⟨i, -, own⟩ := List.mem_flatMap.mp member
  simp only [Message.writeCopy, Receive.writeCopy] at own
  split at own
  · cases own
  split at own
  · cases own
  split at own
  · cases own
  split at own
  · exact List.mem_singleton.mp own ▸ rfl
  · cases own

theorem copyFrags_outcome (env : RxEnv) (wqe : RecvWqe) (msg : Message) (order : List Nat) (q : RxQp) :
    ∃ bytes written, RxQp.copyFrags env wqe (order.filterMap msg.storedFrag) q 0 =
        ({ q with trace := written ++ q.trace }, bytes, !copyFails (msg.placeCopy env wqe) order) ∧
      (∀ effect ∈ written, effect.isCopy = true) ∧
      (copyFails (msg.placeCopy env wqe) order = false →
        bytes = copyBytes (msg.placeCopy env wqe) order ∧ written = copyEffects (msg.placeCopy env wqe) order) := by
  have copied := copyFrags_copied env wqe (order.filterMap msg.storedFrag) q 0
  obtain ⟨written, left, each⟩ := copied.effects
  refine ⟨_, written, Prod.ext left (Prod.ext rfl ?_), each, fun whole => ?_⟩
  · cases fails : copyFails (msg.placeCopy env wqe) order with
    | true => exact copyFrags_fails wqe 0 fails
    | false => rw [copyFrags_eq wqe 0 fails, Bool.not_false]
  · rw [copyFrags_eq wqe 0 whole] at left ⊢
    have traces := congrArg RxQp.trace left
    exact ⟨Nat.zero_add _, (List.append_cancel_right traces).symm⟩

theorem copyWriteFrags_outcome (env : RxEnv) (msg : Message) (order : List Nat) (q : RxQp) :
    ∃ written, RxQp.copyWriteFrags env msg.rkey msg.remoteAddr (order.filterMap msg.storedFrag) q =
        ({ q with trace := written ++ q.trace }, !copyFails (msg.writeCopy env) order) ∧
      (∀ effect ∈ written, effect.isCopy = true) ∧
      (copyFails (msg.writeCopy env) order = false → written = copyEffects (msg.writeCopy env) order) := by
  have copied := copyWriteFrags_copied env msg.rkey msg.remoteAddr (order.filterMap msg.storedFrag) q
  obtain ⟨written, left, each⟩ := copied.effects
  refine ⟨written, Prod.ext left ?_, each, fun whole => ?_⟩
  · cases fails : copyFails (msg.writeCopy env) order with
    | true => exact copyWriteFrags_fails fails
    | false => rw [copyWriteFrags_eq fails, Bool.not_false]
  · rw [copyWriteFrags_eq whole] at left
    have traces := congrArg RxQp.trace left
    exact (List.append_cancel_right traces).symm

/-! ## The destination memory -/

/-- A byte of a region, by the address of the user or by the iova. -/
inductive Cell
  | user (lkey addr : Nat)
  | region (rkey iova : Nat)
  deriving DecidableEq, Repr

def Effect.cells : Effect → List (Cell × UInt8)
  | .placed lkey addr data => data.zipIdx.map fun byte => (.user lkey (addr + byte.2), byte.1)
  | .wrote rkey iova data => data.zipIdx.map fun byte => (.region rkey (iova + byte.2), byte.1)
  | _ => []

/-- Where the cells of the regions lie in a memory: two bytes of one region have two places. -/
structure Layout (κ : Type) where
  place : Cell → κ
  user : ∀ lkey, Function.Injective fun addr => place (.user lkey addr)
  region : ∀ rkey, Function.Injective fun iova => place (.region rkey iova)

variable {κ : Type} {layout : Layout κ}

def Layout.writes (layout : Layout κ) (effects : List Effect) : List (κ × UInt8) :=
  (effects.flatMap Effect.cells).map fun write => (layout.place write.1, write.2)

/-- Byte `t` of the message goes to `locate t`. -/
def Located (layout : Layout κ) (locate : Nat → κ) (copy : Nat → Copy) : Prop :=
  ∀ i, ∃ len ≤ dataMaxPayload, (layout.writes (copy i).effects).map Prod.fst =
    (List.range' (i * dataMaxPayload) len).map locate

theorem Located.distinct {locate : Nat → κ} {copy : Nat → Copy} (located : Located layout locate copy)
    (apart : ∀ t t', t < 2 ^ 64 → t' < 2 ^ 64 → locate t = locate t' → t = t') (once : order.Nodup)
    (bound : ∀ i ∈ order, i < dataMaxFrags) : ((layout.writes (copyEffects copy order)).map Prod.fst).Nodup := by
  choose len short places using located
  have keys : (layout.writes (copyEffects copy order)).map Prod.fst =
      order.reverse.flatMap fun i => (List.range' (i * dataMaxPayload) (len i)).map locate := by
    simp only [copyEffects, Layout.writes, List.flatMap_assoc, List.map_flatMap] at places ⊢
    simp only [places]
  have inside : ∀ i ∈ order.reverse, ∀ t ∈ List.range' (i * dataMaxPayload) (len i),
      t < 2 ^ 64 ∧ t / dataMaxPayload = i := by
    intro i member t within
    have few := bound i (List.mem_reverse.mp member)
    have len_le := short i
    have window := List.mem_range'_1.mp within
    have frags : dataMaxFrags = 4145 := rfl
    rw [show dataMaxPayload = 4048 from rfl] at len_le window ⊢
    refine ⟨by omega, ?_⟩
    rw [Nat.div_eq_iff (by omega)]
    omega
  rw [keys, List.nodup_flatMap]
  constructor
  · intro i member
    refine List.Nodup.map_on (fun t within t' within' same => ?_) (List.nodup_range' 1)
    exact apart t t' (inside i member t within).1 (inside i member t' within').1 same
  · refine (List.nodup_reverse.mpr once).imp_of_mem fun {i j} member member' differs => ?_
    simp only [Function.onFun, List.disjoint_left, List.mem_map, not_exists, not_and]
    rintro _ ⟨t, within, rfl⟩ t' within' same
    obtain ⟨small, own⟩ := inside i member t within
    obtain ⟨small', own'⟩ := inside j member' t' within'
    exact differs (own.symm.trans ((apart t' t small' small same) ▸ own'))

theorem writes_placed (layout : Layout κ) (lkey addr : Nat) (data : List UInt8) :
    (layout.writes [.placed lkey addr data]).map Prod.fst =
      (List.range data.length).map fun j => layout.place (.user lkey (addr + j)) := by
  simp only [Layout.writes, List.flatMap_singleton, Effect.cells, List.map_map]
  rw [List.range_eq_range', ← List.zipIdx_map_snd 0 data, List.map_map]
  rfl

theorem writes_wrote (layout : Layout κ) (rkey iova : Nat) (data : List UInt8) :
    (layout.writes [.wrote rkey iova data]).map Prod.fst =
      (List.range data.length).map fun j => layout.place (.region rkey (iova + j)) := by
  simp only [Layout.writes, List.flatMap_singleton, Effect.cells, List.map_map]
  rw [List.range_eq_range', ← List.zipIdx_map_snd 0 data, List.map_map]
  rfl

theorem map_range' (f : Nat → κ) (start len : Nat) :
    (List.range' start len).map f = (List.range len).map fun j => f (start + j) := by
  rw [List.range'_eq_map_range, List.map_map]
  rfl

theorem located_place (layout : Layout κ) (msg : Message) (env : RxEnv) (wqe : RecvWqe) :
    Located layout (fun t => layout.place (.user wqe.lkey ((wqe.addr + t) % 2 ^ 64))) (msg.placeCopy env wqe) := by
  intro i
  have length := msg.length_slice i
  simp only [Message.placeCopy, placeCopy]
  split
  · exact ⟨0, Nat.zero_le _, rfl⟩
  cases env.mrs wqe.lkey with
  | none => exact ⟨0, Nat.zero_le _, rfl⟩
  | some mr =>
      simp only
      split <;> rename_i taken
      · refine ⟨min (msg.slice i).length (wqe.length - i * dataMaxPayload), by omega, ?_⟩
        simp only [Mr.takesCopy, Bool.and_eq_true, decide_eq_true_eq] at taken
        have size : ((msg.slice i).take (min (msg.slice i).length (wqe.length - i * dataMaxPayload))).length =
            min (msg.slice i).length (wqe.length - i * dataMaxPayload) := by
          rw [List.length_take]
          omega
        change (layout.writes [_]).map Prod.fst = _
        rw [writes_placed, size, map_range']
        refine List.map_congr_left fun j within => ?_
        have before := List.mem_range.mp within
        have address : (wqe.addr + i * dataMaxPayload) % 2 ^ 64 + j =
            (wqe.addr + (i * dataMaxPayload + j)) % 2 ^ 64 := by
          omega
        rw [address]
      · exact ⟨0, Nat.zero_le _, rfl⟩

theorem located_write (layout : Layout κ) (msg : Message) (env : RxEnv) :
    Located layout (fun t => layout.place (.region msg.rkey (msg.remoteAddr + t))) (msg.writeCopy env) := by
  intro i
  have length := msg.length_slice i
  simp only [Message.writeCopy, writeCopy]
  split
  · exact ⟨0, Nat.zero_le _, rfl⟩
  split
  · exact ⟨0, Nat.zero_le _, rfl⟩
  cases env.mrs msg.rkey with
  | none => exact ⟨0, Nat.zero_le _, rfl⟩
  | some mr =>
      simp only
      split
      · refine ⟨(msg.slice i).length, by omega, ?_⟩
        change (layout.writes [_]).map Prod.fst = _
        rw [writes_wrote, map_range']
        exact List.map_congr_left fun j _ => by rw [Nat.add_assoc]
      · exact ⟨0, Nat.zero_le _, rfl⟩

variable [DecidableEq κ]

/-- The memory after the effects of a trace. -/
def Layout.after (layout : Layout κ) (memory : κ → UInt8) (trace : List Effect) : κ → UInt8 :=
  store memory (layout.writes trace.reverse)

theorem after_append (memory : κ → UInt8) (later trace : List Effect) :
    layout.after memory (later ++ trace) = layout.after (layout.after memory trace) later := by
  simp only [Layout.after, Layout.writes, List.reverse_append, List.flatMap_append, List.map_append, store_append]

/-- Effects that write to different places may come in any order. -/
theorem after_perm {effects effects' : List Effect} (perm : effects.Perm effects')
    (distinct : ((layout.writes effects).map Prod.fst).Nodup) (memory : κ → UInt8) :
    layout.after memory effects = layout.after memory effects' := by
  have reordered : ∀ {before after : List Effect}, before.Perm after →
      (layout.writes before).Perm (layout.writes after) := fun same => (same.flatMap_right _).map _
  have reversed := reordered effects.reverse_perm.symm
  refine store_perm (reordered ?_) ((reversed.map Prod.fst).nodup distinct)
  exact (effects.reverse_perm.trans perm).trans effects'.reverse_perm.symm

section Arrival

variable (layout : Layout κ) (memory : κ → UInt8) (arrival : order.Perm (List.range msg.fragments))
include arrival

theorem Located.reordered {locate : Nat → κ} {copy : Nat → Copy} (located : Located layout locate copy)
    (apart : ∀ t t', t < 2 ^ 64 → t' < 2 ^ 64 → locate t = locate t' → t = t') :
    layout.after memory (copyEffects copy order) =
      layout.after memory (copyEffects copy (List.range msg.fragments)) := by
  refine after_perm (copyEffects_perm copy arrival) (located.distinct apart ?_ fun i member => ?_) memory
  · exact arrival.nodup_iff.mpr List.nodup_range
  · exact (List.mem_range.mp (arrival.mem_iff.mp member)).trans_le (fragments_le msg)

theorem after_placeCopy (wqe : RecvWqe) :
    layout.after memory (copyEffects (msg.placeCopy env wqe) order) =
      layout.after memory (copyEffects (msg.placeCopy env wqe) (List.range msg.fragments)) := by
  refine Located.reordered layout memory arrival (located_place layout msg env wqe) fun t t' small small' same => ?_
  have address : (wqe.addr + t) % 2 ^ 64 = (wqe.addr + t') % 2 ^ 64 := layout.user wqe.lkey same
  omega

theorem after_writeCopy :
    layout.after memory (copyEffects (msg.writeCopy env) order) =
      layout.after memory (copyEffects (msg.writeCopy env) (List.range msg.fragments)) := by
  refine Located.reordered layout memory arrival (located_write layout msg env) fun t t' _ _ same => ?_
  have address : msg.remoteAddr + t = msg.remoteAddr + t' := layout.region msg.rkey same
  omega

end Arrival

end ThunderboltVerbs.Receive
