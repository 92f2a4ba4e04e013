import ThunderboltVerbs.Receive.Stream
import ThunderboltVerbs.Lib.Tally
import Mathlib.Algebra.Order.BigOperators.Group.List
import Mathlib.Data.List.Sort

/-!
# The response to a READ

The responder cuts its copy of the data into fragments and may send them again and again.
-/

namespace ThunderboltVerbs.Verbs
open Proto DataPath Receive Lib

/-! ## The responder -/

structure Snapshot where
  destQp : Nat
  srcQp : Nat
  psn : Nat
  data : List UInt8
  bounded : data.length ≤ dataMaxMsgSize

/-- The answers to one call; those about a frame are for the frame at that offset. -/
structure ResponseEnv where
  path : Bool
  reserve : Option Errno
  frame : Nat → Bool
  send : Nat → Option Errno

namespace Snapshot

variable (snap : Snapshot)

def frameAt (offset : Nat) : Frame :=
  let payload := (snap.data.drop offset).take dataMaxPayload
  { header := readResponseHeader snap.destQp snap.srcQp snap.psn snap.data.length offset payload.length
      (offset + payload.length = snap.data.length)
    payload
    sized := rfl }

/-- The loop of `tbv_send_read_response_ctx` from `offset` on: the frames it sent, and its result. -/
def sendFrom (env : ResponseEnv) : Nat → Nat → List Frame × Option Errno
  | 0, _ => ([], none)
  | turns + 1, offset =>
      let frame := snap.frameAt offset
      if !env.frame offset then ([], some .eNoMem)
      else
        match buildFrame frame.header with
        | .error error => ([], some error)
        | .ok _ =>
            match env.send offset with
            | some error => ([], some error)
            | none =>
                let next := offset + frame.payload.length
                let (frames, error) := if next < snap.data.length then sendFrom env turns next else ([], none)
                (frame :: frames, error)

def fragments : Nat := fragmentCount snap.data.length

/-- Every turn but the last sends a full frame. -/
def sendReadResponseCtx (env : ResponseEnv) : List Frame × Option Errno :=
  if !env.path then ([], some .eNotConn)
  else
    match env.reserve with
    | some error => ([], some error)
    | none => snap.sendFrom env snap.fragments 0

/-! ## Its fragments -/

def message : Message := { op := .send, payload := snap.data, bounded := snap.bounded }

def fragment (i : Nat) : Frame := snap.frameAt (i * dataMaxPayload)

def slice (i : Nat) : List UInt8 := snap.message.slice i

@[simp] theorem fragment_payload (i : Nat) : (snap.fragment i).payload = snap.slice i := rfl

@[simp] theorem fragment_psn (i : Nat) : (snap.fragment i).header.psn = snap.psn := rfl

@[simp] theorem fragment_fragOffset (i : Nat) : (snap.fragment i).header.fragOffset = i * dataMaxPayload := rfl

@[simp] theorem fragment_remoteAddr (i : Nat) : (snap.fragment i).header.remoteAddr = 0 := rfl

@[simp] theorem fragment_immData (i : Nat) : (snap.fragment i).header.immData = snap.data.length := rfl

theorem fragment_knownFlags (i : Nat) : knownFlags (snap.fragment i).header = true := by
  simp only [knownFlags, fragment, frameAt, readResponseHeader]
  split <;> decide

variable {i k : Nat}

theorem fragment_isLast (bound : i < snap.fragments) :
    (snap.fragment i).header.isLast = decide (i + 1 = snap.fragments) := by
  have last : (snap.fragment i).header.isLast =
      decide (i * dataMaxPayload + (snap.slice i).length = snap.data.length) := by
    simp only [DataHeader.isLast, fragment, frameAt, readResponseHeader]
    split <;> rename_i ends <;> simp only [decide_eq_true_eq] at ends
    · exact (decide_eq_true ends).symm
    · exact (decide_eq_false ends).symm
  exact last.trans (decide_eq_decide.mpr (fragment_ends (show i < snap.message.fragments from bound)))

theorem all_bytes : snap.data.length ≤ snap.fragments * dataMaxPayload := by
  simp only [fragments, fragmentCount, dataMaxPayload, dataFrameSize, dataHdrSize]
  split <;> omega

variable {snap}

theorem fragment_within (bound : i < snap.fragments) :
    i * dataMaxPayload + (snap.slice i).length ≤ snap.data.length :=
  fragment_inside (show i < snap.message.fragments from bound)

theorem frame_end (bound : i < snap.fragments) :
    i * dataMaxPayload + (snap.slice i).length = min ((i + 1) * dataMaxPayload) snap.data.length := by
  have length : (snap.slice i).length = min (snap.data.length - i * dataMaxPayload) dataMaxPayload :=
    snap.message.length_slice i
  have inside := fragment_within bound
  rw [Nat.succ_mul]
  omega

theorem offset_le (bound : i < snap.fragments) : i * dataMaxPayload ≤ snap.data.length :=
  (Nat.le_add_right _ _).trans (fragment_within bound)

theorem offset_lt (bound : i < snap.fragments) (nonempty : snap.data ≠ []) :
    i * dataMaxPayload < snap.data.length := by
  have inside := fragment_within bound
  have filled : 0 < (snap.slice i).length := List.length_pos_iff.mpr (slice_ne_nil snap.message bound nonempty)
  omega

variable (snap)

theorem frames_sendFrom (env : ResponseEnv) (turns first : Nat) (left : first + turns = snap.fragments)
    (some : 0 < turns) :
    ∃ count ≤ turns, (snap.sendFrom env turns (first * dataMaxPayload)).1 =
        (List.range' first count).map snap.fragment ∧
      ((snap.sendFrom env turns (first * dataMaxPayload)).2 = none → count = turns) := by
  induction turns generalizing first with
  | zero => exact absurd some (Nat.lt_irrefl 0)
  | succ turns ih =>
      have bound : first < snap.fragments := by omega
      have ends := frame_end bound
      rw [sendFrom]
      split
      · exact ⟨0, by omega, rfl, fun ok => by cases ok⟩
      split
      · exact ⟨0, by omega, rfl, fun ok => by cases ok⟩
      split
      · exact ⟨0, by omega, rfl, fun ok => by cases ok⟩
      simp only
      have next : first * dataMaxPayload + (snap.frameAt (first * dataMaxPayload)).payload.length =
          min ((first + 1) * dataMaxPayload) snap.data.length := ends
      rw [next]
      split
      · rename_i more
        have whole : min ((first + 1) * dataMaxPayload) snap.data.length = (first + 1) * dataMaxPayload := by omega
        have further : 0 < turns := by
          refine Nat.pos_of_ne_zero fun last => ?_
          have all := snap.all_bytes
          rw [show first + 1 = snap.fragments by omega] at more
          omega
        rw [whole]
        obtain ⟨count, few, frames, done⟩ := ih (first + 1) (by omega) further
        refine ⟨count + 1, by omega, ?_, fun ok => by rw [done ok]⟩
        rw [List.range'_succ, List.map_cons, frames]
        rfl
      · rename_i last
        refine ⟨1, by omega, rfl, fun _ => ?_⟩
        by_contra more
        have inside : first + 1 < snap.fragments := by omega
        by_cases empty : snap.data = []
        · simp [fragments, fragmentCount, empty] at inside
        · have below := offset_lt inside empty
          omega

/-- A call sends the first fragments, and all of them when it succeeds. -/
theorem frames_sendReadResponseCtx (env : ResponseEnv) :
    ∃ count ≤ snap.fragments, (snap.sendReadResponseCtx env).1 = (List.range count).map snap.fragment ∧
      ((snap.sendReadResponseCtx env).2 = none → count = snap.fragments) := by
  rw [sendReadResponseCtx]
  split
  · exact ⟨0, Nat.zero_le _, rfl, fun ok => by cases ok⟩
  split
  · exact ⟨0, Nat.zero_le _, rfl, fun ok => by cases ok⟩
  have start := snap.frames_sendFrom env snap.fragments 0 (Nat.zero_add _) (fragments_pos snap.message)
  rw [Nat.zero_mul] at start
  simpa only [List.range_eq_range'] using start

/-! ## The fragments that wait -/

/-- The fragments from `k` on that have arrived. -/
def waiting (seen : List Nat) (k : Nat) : List Nat :=
  (List.range snap.fragments).filter fun i => k ≤ i && i ∈ seen

def buffered (seen : List Nat) (k : Nat) : List (Nat × List UInt8) :=
  (snap.waiting seen k).map fun i => (i * dataMaxPayload, snap.slice i)

variable {snap} {seen : List Nat}

theorem mem_waiting : i ∈ snap.waiting seen k ↔ i < snap.fragments ∧ k ≤ i ∧ i ∈ seen := by
  simp [waiting]

theorem pairwise_waiting (seen : List Nat) (k : Nat) : (snap.waiting seen k).Pairwise (· < ·) :=
  List.pairwise_lt_range.filter _

theorem offset_inj {j : Nat} : i * dataMaxPayload = j * dataMaxPayload ↔ i = j :=
  Nat.mul_left_inj (by decide)

theorem buffered_congr {seen' : List Nat} {k' : Nat}
    (same : ∀ i < snap.fragments, k ≤ i ∧ i ∈ seen ↔ k' ≤ i ∧ i ∈ seen') :
    snap.buffered seen k = snap.buffered seen' k' := by
  have indices : snap.waiting seen k = snap.waiting seen' k' := by
    apply List.filter_congr
    intro i member
    rw [Bool.eq_iff_iff]
    simpa using same i (List.mem_range.mp member)
  rw [buffered, indices, buffered]

theorem buffered_head (bound : k < snap.fragments) (arrived : k ∈ seen) :
    snap.buffered seen k = (k * dataMaxPayload, snap.slice k) :: snap.buffered seen (k + 1) := by
  have first : snap.waiting seen k = k :: snap.waiting seen (k + 1) := by
    refine List.Pairwise.eq_of_mem_iff (pairwise_waiting seen k) ?_ fun i => ?_
    · refine (pairwise_waiting seen (k + 1)).cons fun i member => ?_
      exact (mem_waiting.mp member).2.1
    · rw [List.mem_cons, mem_waiting, mem_waiting]
      grind
  rw [buffered, first, List.map_cons, buffered]

theorem find_buffered (seen : List Nat) (k i : Nat) :
    (snap.buffered seen k).find? (fun frag => frag.1 = i * dataMaxPayload) =
      if i ∈ snap.waiting seen k then some (i * dataMaxPayload, snap.slice i) else none := by
  rw [buffered]
  induction snap.waiting seen k with
  | nil => rfl
  | cons j rest ih =>
      rw [List.map_cons]
      by_cases same : j = i
      · rw [List.find?_cons_of_pos (by simp [same]), if_pos (by simp [same]), same]
      · rw [List.find?_cons_of_neg (by rw [decide_eq_true_eq, offset_inj]; exact same), ih]
        simp [Ne.symm same]

theorem insert_pairwise {indices : List Nat} (sorted : indices.Pairwise (· < ·)) (fresh : i ∉ indices) :
    (indices.takeWhile (· ≤ i) ++ i :: indices.dropWhile (· ≤ i)).Pairwise (· < ·) := by
  induction indices with
  | nil => simp
  | cons j rest ih =>
      obtain ⟨first, later⟩ := List.pairwise_cons.mp sorted
      simp only [List.mem_cons, not_or] at fresh
      by_cases before : j ≤ i
      · rw [List.takeWhile_cons_of_pos (by simpa using before), List.dropWhile_cons_of_pos (by simpa using before),
          List.cons_append]
        refine (ih later fresh.2).cons fun next member => ?_
        rcases List.mem_append.mp member with front | tail
        · exact first next ((List.takeWhile_sublist _).mem front)
        · rcases List.mem_cons.mp tail with rfl | back
          · omega
          · exact first next ((List.dropWhile_sublist _).mem back)
      · rw [List.takeWhile_cons_of_neg (by simpa using before), List.dropWhile_cons_of_neg (by simpa using before),
          List.nil_append]
        refine sorted.cons fun next member => ?_
        rcases List.mem_cons.mp member with rfl | further
        · omega
        · have := first next further
          omega

theorem buffered_insert (bound : i < snap.fragments) (ahead : k ≤ i) (unseen : i ∉ seen) :
    (snap.buffered seen k).takeWhile (fun frag => frag.1 ≤ i * dataMaxPayload) ++
        (i * dataMaxPayload, snap.slice i) ::
          (snap.buffered seen k).dropWhile (fun frag => frag.1 ≤ i * dataMaxPayload) =
      snap.buffered (i :: seen) k := by
  have fresh : i ∉ snap.waiting seen k := fun member => unseen (mem_waiting.mp member).2.2
  have indices : (snap.waiting seen k).takeWhile (· ≤ i) ++ i :: (snap.waiting seen k).dropWhile (· ≤ i) =
      snap.waiting (i :: seen) k := by
    refine List.Pairwise.eq_of_mem_iff (insert_pairwise (pairwise_waiting seen k) fresh)
      (pairwise_waiting _ k) fun j => ?_
    have parts : j ∈ (snap.waiting seen k).takeWhile (· ≤ i) ∨ j ∈ (snap.waiting seen k).dropWhile (· ≤ i) ↔
        j ∈ snap.waiting seen k := by
      rw [← List.mem_append, List.takeWhile_append_dropWhile]
    rw [List.mem_append, List.mem_cons, ← or_left_comm, parts, mem_waiting, mem_waiting, List.mem_cons]
    grind
  have order : (fun frag : Nat × List UInt8 => decide (frag.1 ≤ i * dataMaxPayload)) ∘
      (fun j => (j * dataMaxPayload, snap.slice j)) = fun j => decide (j ≤ i) := by
    funext j
    exact decide_eq_decide.mpr (Nat.mul_le_mul_right_iff (by decide))
  simp only [buffered, List.takeWhile_map, List.dropWhile_map, order, ← indices, List.map_append, List.map_cons]

theorem slices_total {count : Nat} (few : count ≤ snap.fragments) :
    tally (fun i => (snap.slice i).length) (List.range count) = min (count * dataMaxPayload) snap.data.length := by
  induction count with
  | zero => simp
  | succ count ih =>
      have ends := frame_end few
      have start := offset_le few
      rw [List.range_succ, tally_append, tally_cons, tally_nil, ih (by omega)]
      omega

end Snapshot

def fragBytes (frags : List (Nat × List UInt8)) : Nat := tally (fun frag => frag.2.length) frags

theorem fragBytes_buffered (snap : Snapshot) (seen : List Nat) (k : Nat) :
    fragBytes (snap.buffered seen k) ≤ snap.data.length := by
  have part : ((snap.waiting seen k).map fun i => (snap.slice i).length).Sublist
      ((List.range snap.fragments).map fun i => (snap.slice i).length) :=
    List.filter_sublist.map _
  have bytes : fragBytes (snap.buffered seen k) = ((snap.waiting seen k).map fun i => (snap.slice i).length).sum := by
    rw [fragBytes, Snapshot.buffered, tally, List.map_map]
    rfl
  have all : ((List.range snap.fragments).map fun i => (snap.slice i).length).sum =
      min (snap.fragments * dataMaxPayload) snap.data.length := Snapshot.slices_total (Nat.le_refl _)
  have less := part.sum_le_sum fun _ _ => Nat.zero_le _
  omega

end ThunderboltVerbs.Verbs
