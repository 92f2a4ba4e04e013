import ThunderboltVerbs.Receive.Scatter
import ThunderboltVerbs.Receive.Snapshot

/-!
# Reassembling a READ

The requester copies the next fragment to its segments and keeps a later one until its turn comes.
-/

namespace ThunderboltVerbs.Verbs
open Proto Receive Lib

/-! ## One response -/

/-- The first `k` fragments are in their segments and the later ones that arrived wait. -/
structure Progress (snap : Snapshot) (segs : List Segment) (seen : List Nat) (k : Nat) (read : ReadCtx)
    (writes : List (Place × UInt8)) : Prop where
  psn : read.psn = snap.psn
  totalLen : read.totalLen = snap.data.length
  lists : read.segs = segs
  front : ∀ i < k, i ∈ seen
  bound : k ≤ snap.fragments
  received : read.received = min (k * dataMaxPayload) snap.data.length
  frags : read.respFrags = snap.buffered seen k
  bytes : read.respBufferedBytes = fragBytes (snap.buffered seen k)
  writes : writes = (segmentPlaces segs).zip (snap.data.take read.received)

/-- The segments take the data of the snapshot. -/
structure Fits (snap : Snapshot) (segs : List Segment) : Prop where
  writable : ∀ seg ∈ segs, seg.Writable
  sized : segmentBytes segs = snap.data.length

namespace Progress

variable {snap : Snapshot} {segs : List Segment} {seen : List Nat} {k i : Nat} {read : ReadCtx}
  {writes : List (Place × UInt8)}

theorem received_next (progress : Progress snap segs seen k read writes) (bound : k < snap.fragments) :
    read.received = k * dataMaxPayload := by
  have start := Snapshot.offset_le bound
  have received := progress.received
  omega

theorem copy (progress : Progress snap segs seen k read writes) (fits : Fits snap segs)
    (bound : k < snap.fragments) :
    ∃ copies, read.copyToReadSegments (k * dataMaxPayload) (snap.slice k) = (copies, none) ∧
      writes ++ copyWrites copies =
        (segmentPlaces segs).zip (snap.data.take (min ((k + 1) * dataMaxPayload) snap.data.length)) := by
  have within := Snapshot.fragment_within bound
  have ends := Snapshot.frame_end bound
  have writable : ∀ seg ∈ read.segs, seg.Writable := by
    rw [progress.lists]
    exact fits.writable
  have inside : k * dataMaxPayload + (snap.slice k).length ≤ segmentBytes read.segs := by
    rw [progress.lists, fits.sized]
    exact within
  obtain ⟨copies, copied, written⟩ := copyToReadSegments_writes writable _ _ inside
  refine ⟨copies, copied, ?_⟩
  have start : (snap.data.take (k * dataMaxPayload)).length = k * dataMaxPayload := by
    rw [List.length_take]
    have below := Snapshot.offset_le bound
    omega
  have room : (snap.data.take (k * dataMaxPayload)).length ≤ (segmentPlaces segs).length := by
    rw [start, length_segmentPlaces, fits.sized]
    exact Snapshot.offset_le bound
  rw [written, progress.writes, progress.received_next bound, progress.lists, ← List.take_eq_take_min, Nat.succ_mul,
    List.take_add, zip_split _ _ _ room, start]
  rfl

theorem advance (progress : Progress snap segs seen k read writes) (bound : k < snap.fragments)
    (arrived : k ∈ seen) {copies : List SegmentCopy}
    (written : writes ++ copyWrites copies =
      (segmentPlaces segs).zip (snap.data.take (min ((k + 1) * dataMaxPayload) snap.data.length))) :
    Progress snap segs seen (k + 1)
      { read with
        received := k * dataMaxPayload + (snap.slice k).length
        respBufferedBytes := read.respBufferedBytes - (snap.slice k).length
        respFrags := read.respFrags.eraseP fun frag => frag.1 = k * dataMaxPayload }
      (writes ++ copyWrites copies) := by
  have head := Snapshot.buffered_head bound arrived
  have ends := Snapshot.frame_end bound
  refine ⟨progress.psn, progress.totalLen, progress.lists, fun i before => ?_, bound, ends, ?_, ?_, ?_⟩
  · rcases Nat.lt_succ_iff_lt_or_eq.mp before with earlier | rfl
    · exact progress.front i earlier
    · exact arrived
  · rw [progress.frags, head, List.eraseP_cons_of_pos (by simp)]
  · rw [progress.bytes, head, fragBytes, tally_cons]
    exact Nat.add_sub_cancel_left _ _
  · rw [written, ends]

/-- The drain copies the fragments that are next until one is missing. -/
theorem drain (fits : Fits snap segs) (turns : Nat) (progress : Progress snap segs seen k read writes)
    (enough : read.respFrags.length < turns) :
    ∃ k' read' copies, read.drainFrags turns = (read', copies, none) ∧
      (k' < snap.fragments → k' ∉ seen) ∧ Progress snap segs seen k' read' (writes ++ copyWrites copies) ∧
      read'.ready = read.ready ∧ read'.completionStatus = read.completionStatus := by
  induction turns generalizing k read writes with
  | zero => exact absurd enough (Nat.not_lt_zero _)
  | succ turns ih =>
      rw [ReadCtx.drainFrags]
      by_cases next : k < snap.fragments ∧ k ∈ seen
      · obtain ⟨bound, arrived⟩ := next
        obtain ⟨copies, copied, written⟩ := progress.copy fits bound
        have found : read.respFrags.find? (fun frag => frag.1 = read.received) =
            some (k * dataMaxPayload, snap.slice k) := by
          rw [progress.frags, progress.received_next bound, Snapshot.find_buffered,
            if_pos (Snapshot.mem_waiting.mpr ⟨bound, Nat.le_refl _, arrived⟩)]
        have shorter : (read.respFrags.eraseP fun frag => frag.1 = k * dataMaxPayload).length < turns := by
          rw [List.length_eraseP_of_mem (List.mem_of_find?_eq_some found) (by simp)]
          have some := List.length_pos_of_mem (List.mem_of_find?_eq_some found)
          omega
        obtain ⟨k', read', more, drained, missing, after, ready, status⟩ :=
          ih (progress.advance bound arrived written) shorter
        refine ⟨k', read', copies ++ more, ?_, missing, ?_, ready, status⟩
        · rw [found]
          simp only [copied, drained]
        · rw [copyWrites_append, ← List.append_assoc]
          exact after
      · refine ⟨k, read, [], ?_, fun bound arrived => next ⟨bound, arrived⟩, ?_, rfl, rfl⟩
        · rw [progress.frags]
          by_cases bound : k < snap.fragments
          · rw [progress.received_next bound, Snapshot.find_buffered,
              if_neg fun member => next ⟨bound, (Snapshot.mem_waiting.mp member).2.2⟩]
          · have none : snap.waiting seen k = [] := by
              rw [List.eq_nil_iff_forall_not_mem]
              intro i member
              obtain ⟨inside, ahead, -⟩ := Snapshot.mem_waiting.mp member
              omega
            rw [Snapshot.buffered, none, List.map_nil, List.find?_nil]
        · rw [copyWrites_nil, List.append_nil]
          exact progress

theorem again (progress : Progress snap segs seen k read writes) (known : i < k ∨ i ∈ seen) :
    Progress snap segs (i :: seen) k read writes := by
  have same : snap.buffered (i :: seen) k = snap.buffered seen k := Snapshot.buffered_congr fun j _ => by
    rw [List.mem_cons]
    refine ⟨?_, fun ⟨ahead, arrived⟩ => ⟨ahead, .inr arrived⟩⟩
    rintro ⟨ahead, rfl | arrived⟩
    · rcases known with before | arrived
      · omega
      · exact ⟨ahead, arrived⟩
    · exact ⟨ahead, arrived⟩
  exact { progress with
    front := fun j before => List.mem_cons_of_mem _ (progress.front j before)
    frags := by rw [same, progress.frags]
    bytes := by rw [same, progress.bytes] }

/-- A fragment that is not the next one waits. The buffer has room for it. -/
theorem store (progress : Progress snap segs seen k read writes) (bound : i < snap.fragments) (ahead : k < i) :
    ∃ read', read.storeFrag (i * dataMaxPayload) (snap.slice i) true = (read', none) ∧
      Progress snap segs (i :: seen) k read' writes ∧ read'.ready = read.ready ∧
      read'.completionStatus = read.completionStatus := by
  rw [ReadCtx.storeFrag, progress.frags, Snapshot.find_buffered]
  by_cases arrived : i ∈ seen
  · refine ⟨read, ?_, progress.again (.inr arrived), rfl, rfl⟩
    rw [if_pos (Snapshot.mem_waiting.mpr ⟨bound, ahead.le, arrived⟩)]
    simp
  · rw [if_neg fun member => arrived (Snapshot.mem_waiting.mp member).2.2]
    have inserted := Snapshot.buffered_insert bound ahead.le arrived
    have bytes : fragBytes (snap.buffered (i :: seen) k) =
        fragBytes (snap.buffered seen k) + (snap.slice i).length := by
      rw [← inserted, fragBytes, tally_append, tally_cons, fragBytes]
      conv_rhs => rw [← List.takeWhile_append_dropWhile (p := fun frag => decide (frag.1 ≤ i * dataMaxPayload))
        (l := snap.buffered seen k), tally_append]
      simp only
      omega
    have room := fragBytes_buffered snap (i :: seen) k
    have bounded := snap.bounded
    have total := progress.totalLen
    simp only [dataMaxMsgSize] at bounded
    simp only [progress.bytes]
    rw [if_neg (by rw [u32Max]; omega)]
    refine ⟨_, rfl, ?_, rfl, rfl⟩
    exact { progress with
      front := fun j before => List.mem_cons_of_mem _ (progress.front j before)
      frags := inserted
      bytes := bytes.symm }

theorem take (progress : Progress snap segs seen k read writes) (fits : Fits snap segs)
    (bound : k < snap.fragments) (missing : k ∉ seen) :
    ∃ k' read' copies, read.takeResponse (k * dataMaxPayload) (snap.slice k) = (read', copies, none) ∧
      (k' < snap.fragments → k' ∉ k :: seen) ∧
      Progress snap segs (k :: seen) k' read' (writes ++ copyWrites copies) ∧
      read'.ready = read.ready ∧ read'.completionStatus = read.completionStatus := by
  obtain ⟨copies, copied, written⟩ := progress.copy fits bound
  have ends := Snapshot.frame_end bound
  have same : snap.buffered (k :: seen) (k + 1) = snap.buffered seen k := Snapshot.buffered_congr fun j _ => by
    rw [List.mem_cons]
    grind
  have next : Progress snap segs (k :: seen) (k + 1)
      { read with received := k * dataMaxPayload + (snap.slice k).length } (writes ++ copyWrites copies) := by
    refine ⟨progress.psn, progress.totalLen, progress.lists, fun j before => ?_, bound, ends, ?_, ?_, ?_⟩
    · rcases Nat.lt_succ_iff_lt_or_eq.mp before with earlier | rfl
      · exact List.mem_cons_of_mem _ (progress.front j earlier)
      · exact List.mem_cons_self
    · exact progress.frags.trans same.symm
    · rw [same]
      exact progress.bytes
    · rw [written, ends]
  obtain ⟨k', read', more, drained, absent, after, ready, status⟩ :=
    drain fits (read.respFrags.length + 1) next (Nat.lt_succ_self _)
  refine ⟨k', read', copies ++ more, ?_, absent, ?_, ready, status⟩
  · simp only [ReadCtx.takeResponse, copied, drained]
  · rw [copyWrites_append, ← List.append_assoc]
    exact after

end Progress

/-! ## The list of READs -/

def ReadCtx.done (read : ReadCtx) (status : Option Errno) : ReadCtx :=
  if read.ready then read else { read with ready := true, completionStatus := status }

def uncounted (entry : ReadEntry) : ReadEntry := (entry.1, { entry.2 with sqCounted := false })

/-- The READ at `addr` became `read`, and finished ones left at the front. -/
def Replaces (qp : Qp) (addr : Nat) (read : ReadCtx) (qp' : Qp) (completed : List ReadEntry) : Prop :=
  ∃ front, replaceKey Prod.fst (addr, read) qp.pendingReads = front ++ qp'.pendingReads ∧
    completed = front.map uncounted ∧ ∀ entry ∈ front, entry.2.ready = true

structure DistinctReads (qp : Qp) : Prop where
  addrs : (qp.pendingReads.map Prod.fst).Nodup
  psns : (qp.pendingReads.map fun entry => entry.2.psn).Nodup

section Replaces

variable {qp qp' : Qp} {addr : Nat} {old read : ReadCtx} {completed : List ReadEntry}

theorem pendingReads_updateRead (distinct : DistinctReads qp) (listed : (addr, old) ∈ qp.pendingReads)
    (f : ReadCtx → ReadCtx) :
    (qp.updateRead (fun entry => entry.1 = addr) f).pendingReads =
      replaceKey Prod.fst (addr, f old) qp.pendingReads :=
  updateFirst_eq_replaceKey distinct.addrs listed rfl

theorem psns_replaceKey (distinct : DistinctReads qp) (listed : (addr, old) ∈ qp.pendingReads)
    (same : read.psn = old.psn) :
    (replaceKey Prod.fst (addr, read) qp.pendingReads).map (fun entry => entry.2.psn) =
      qp.pendingReads.map fun entry => entry.2.psn := by
  simp only [replaceKey, List.map_map]
  refine List.map_congr_left fun entry member => ?_
  by_cases own : entry.1 = addr
  · obtain rfl := List.inj_on_of_nodup_map distinct.addrs member listed own
    simp [same]
  · simp [own]

theorem replaces_update (distinct : DistinctReads qp) (listed : (addr, old) ∈ qp.pendingReads) :
    Replaces qp addr read (qp.updateRead (fun entry => entry.1 = addr) fun _ => read) [] :=
  ⟨[], (pendingReads_updateRead distinct listed fun _ => read).symm, rfl, by simp⟩

theorem replaces_drain (replaced : qp'.pendingReads = replaceKey Prod.fst (addr, read) qp.pendingReads) :
    Replaces qp addr read qp'.drainReadyReads.1 qp'.drainReadyReads.2 := by
  refine ⟨qp'.pendingReads.takeWhile fun entry => entry.2.ready, ?_, rfl, fun entry member => ?_⟩
  · rw [← replaced]
    exact List.takeWhile_append_dropWhile.symm
  · exact List.mem_takeWhile_imp (p := fun entry : ReadEntry => entry.2.ready) member

theorem replaces_complete (distinct : DistinctReads qp) (listed : (addr, old) ∈ qp.pendingReads)
    (copies : List SegmentCopy) (status : Option Errno) :
    Replaces qp addr (old.done status) (qp.completeRead addr copies status).1
      (qp.completeRead addr copies status).2.completed := by
  have found : (qp.pendingReads.any fun entry => entry.1 = addr) = true :=
    List.any_eq_true.mpr ⟨_, listed, by simp⟩
  simp only [Qp.completeRead, Qp.completeReadOrdered, found, if_true]
  exact replaces_drain (pendingReads_updateRead distinct listed fun read =>
    if read.ready then read else { read with ready := true, completionStatus := status })

theorem Replaces.distinct (replaces : Replaces qp addr read qp' completed) (distinct : DistinctReads qp)
    (listed : (addr, old) ∈ qp.pendingReads) (same : read.psn = old.psn) : DistinctReads qp' := by
  obtain ⟨front, parts, -, -⟩ := replaces
  have sub : qp'.pendingReads.Sublist (replaceKey Prod.fst (addr, read) qp.pendingReads) := by
    rw [parts]
    exact List.sublist_append_right _ _
  constructor
  · have addrs := sub.map Prod.fst
    rw [keys_replaceKey] at addrs
    exact addrs.nodup distinct.addrs
  · have psns := sub.map fun entry => entry.2.psn
    rw [psns_replaceKey distinct listed same] at psns
    exact psns.nodup distinct.psns

theorem Replaces.entry (replaces : Replaces qp addr read qp' completed) (distinct : DistinctReads qp)
    (listed : (addr, old) ∈ qp.pendingReads) (same : read.psn = old.psn) {entry : ReadEntry}
    (member : entry ∈ replaceKey Prod.fst (addr, read) qp.pendingReads) :
    entry ∈ qp'.pendingReads ∨ entry.2.ready = true ∧ uncounted entry ∈ completed ∧
      ∀ other ∈ qp'.pendingReads, other.2.psn ≠ entry.2.psn := by
  obtain ⟨front, parts, rfl, ready⟩ := replaces
  have psns := psns_replaceKey distinct listed same
  rw [parts] at member psns
  rcases List.mem_append.mp member with gone | stays
  · refine .inr ⟨ready entry gone, List.mem_map_of_mem gone, fun other inside equal => ?_⟩
    have nodup := distinct.psns
    rw [← psns, List.map_append, List.nodup_append] at nodup
    exact nodup.2.2 _ (List.mem_map_of_mem gone) _ (List.mem_map_of_mem inside) equal.symm
  · exact .inl stays

theorem Replaces.mem_old (replaces : Replaces qp addr read qp' completed) (distinct : DistinctReads qp)
    (listed : (addr, old) ∈ qp.pendingReads) (same : read.psn = old.psn) {entry : ReadEntry}
    (member : entry ∈ qp'.pendingReads) : ∃ entry' ∈ qp.pendingReads, entry'.2.psn = entry.2.psn := by
  obtain ⟨front, parts, -, -⟩ := replaces
  have psn : entry.2.psn ∈ qp.pendingReads.map fun entry => entry.2.psn := by
    rw [← psns_replaceKey distinct listed same, parts]
    exact List.mem_map_of_mem (List.mem_append_right _ member)
  obtain ⟨entry', inside, equal⟩ := List.mem_map.mp psn
  exact ⟨entry', inside, equal⟩

end Replaces

/-! ## A response to any READ -/

theorem psn_storeFrag (read : ReadCtx) (offset : Nat) (payload : List UInt8) (alloc : Bool) :
    (read.storeFrag offset payload alloc).1.psn = read.psn := by
  rw [ReadCtx.storeFrag]
  split
  · rfl
  · simp only
    split
    · rfl
    · split <;> rfl

theorem psn_drainFrags (turns : Nat) (read : ReadCtx) : (read.drainFrags turns).1.psn = read.psn := by
  induction turns generalizing read with
  | zero => rfl
  | succ turns ih =>
      rw [ReadCtx.drainFrags]
      split
      · rfl
      · split
        · rfl
        · exact ih _

theorem psn_takeResponse (read : ReadCtx) (offset : Nat) (payload : List UInt8) :
    (read.takeResponse offset payload).1.psn = read.psn := by
  rw [ReadCtx.takeResponse]
  split
  · rfl
  · exact psn_drainFrags _ _

theorem psn_done (read : ReadCtx) (status : Option Errno) : (read.done status).psn = read.psn := by
  rw [ReadCtx.done]
  split <;> rfl

section Handler

variable {qp : Qp} {header : DataHeader} {payload : List UInt8} {alloc : Bool} {addr : Nat} {old read : ReadCtx}

theorem replaces_update_complete (distinct : DistinctReads qp) (listed : (addr, old) ∈ qp.pendingReads)
    (same : read.psn = old.psn) (copies : List SegmentCopy) (status : Option Errno) :
    Replaces qp addr (read.done status)
      ((qp.updateRead (fun entry => entry.1 = addr) fun _ => read).completeRead addr copies status).1
      ((qp.updateRead (fun entry => entry.1 = addr) fun _ => read).completeRead addr copies status).2.completed := by
  have updated := pendingReads_updateRead distinct listed fun _ => read
  have replaced : DistinctReads (qp.updateRead (fun entry => entry.1 = addr) fun _ => read) :=
    (replaces_update distinct listed).distinct distinct listed same
  have inside : (addr, read) ∈ (qp.updateRead (fun entry => entry.1 = addr) fun _ => read).pendingReads := by
    rw [updated]
    exact mem_replaceKey_self listed rfl
  have completes := replaces_complete replaced inside copies status
  have twice : replaceKey Prod.fst (addr, read.done status) (replaceKey Prod.fst (addr, read) qp.pendingReads) =
      replaceKey Prod.fst (addr, read.done status) qp.pendingReads := replaceKey_replaceKey rfl
  rw [Replaces, updated, twice] at completes
  exact completes

/-- A response changes the READ with its PSN only. -/
theorem handleRdmaReadResp_cases (distinct : DistinctReads qp) (header : DataHeader) (payload : List UInt8)
    (alloc : Bool) :
    (qp.handleRdmaReadResp header payload alloc).1 = qp ∧
        (qp.handleRdmaReadResp header payload alloc).2.completed = [] ∨
      ∃ addr old read, (addr, old) ∈ qp.pendingReads ∧ old.psn = header.psn ∧ read.psn = old.psn ∧
        Replaces qp addr read (qp.handleRdmaReadResp header payload alloc).1
          (qp.handleRdmaReadResp header payload alloc).2.completed := by
  rw [Qp.handleRdmaReadResp]
  split
  · exact .inl ⟨rfl, rfl⟩
  rename_i addr old found
  have listed : (addr, old) ∈ qp.pendingReads := List.mem_of_find?_eq_some found
  have psn : old.psn = header.psn := by simpa using List.find?_some found
  simp only
  split
  · exact .inr ⟨addr, old, _, listed, psn, psn_done old _, replaces_complete distinct listed [] _⟩
  split
  · exact .inl ⟨rfl, rfl⟩
  split
  · have same := psn_storeFrag old header.fragOffset payload alloc
    split
    · exact .inr ⟨addr, old, _, listed, psn, psn_done old _, replaces_complete distinct listed [] _⟩
    · rename_i read _ _ stored
      rw [stored] at same
      exact .inr ⟨addr, old, read, listed, psn, same, replaces_update distinct listed⟩
  · have same := psn_takeResponse old header.fragOffset payload
    split
    · rename_i read copies error taken
      rw [taken] at same
      exact .inr ⟨addr, old, _, listed, psn, (psn_done read _).trans same,
        replaces_update_complete distinct listed same copies _⟩
    · rename_i read copies taken
      rw [taken] at same
      split
      · exact .inr ⟨addr, old, read, listed, psn, same, replaces_update distinct listed⟩
      · exact .inr ⟨addr, old, _, listed, psn, (psn_done read _).trans same,
          replaces_update_complete distinct listed same copies _⟩

section Listed

variable (found : qp.pendingReads.find? (fun entry => entry.2.psn = header.psn) = some (addr, old))
  (free : old.responseError header = none)
include found free

theorem handle_duplicate (before : header.fragOffset < old.received) :
    qp.handleRdmaReadResp header payload alloc = (qp, {}) := by
  rw [Qp.handleRdmaReadResp, found]
  simp only [free]
  rw [if_pos before]

theorem handle_gap (ahead : old.received < header.fragOffset)
    (stored : old.storeFrag header.fragOffset payload alloc = (read, none)) :
    qp.handleRdmaReadResp header payload alloc =
      (qp.updateRead (fun entry => entry.1 = addr) fun _ => read, { ack := some .retry }) := by
  rw [Qp.handleRdmaReadResp, found]
  simp only [free]
  rw [if_neg (by omega), if_pos (by omega), stored]

theorem handle_next (alloc : Bool) {copies : List SegmentCopy} (next : header.fragOffset = old.received)
    (taken : old.takeResponse header.fragOffset payload = (read, copies, none)) :
    qp.handleRdmaReadResp header payload alloc =
      if read.received ≠ read.totalLen then
        (qp.updateRead (fun entry => entry.1 = addr) fun _ => read, { copies })
      else (qp.updateRead (fun entry => entry.1 = addr) fun _ => read).completeRead addr copies none := by
  rw [Qp.handleRdmaReadResp, found]
  simp only [free]
  rw [if_neg (by omega), if_neg (not_not_intro next), taken]

end Listed

end Handler

/-! ## A run of arrivals -/

/-- What reaches the queue pair: a fragment of the snapshot, or a response to another READ. -/
inductive Arrival (snap : Snapshot)
  | fragment (i : Fin snap.fragments)
  | other (frame : Frame) (alloc : Bool) (foreign : frame.header.psn ≠ snap.psn)

/-- The queue pair, with the bytes that the fragments of the snapshot wrote and the READs that completed. -/
structure Requester where
  qp : Qp
  writes : List (Place × UInt8) := []
  completed : List ReadEntry := []

namespace Requester

variable {snap : Snapshot}

def arrive (r : Requester) : Arrival snap → Requester
  | .fragment i =>
      let (qp, answer) := r.qp.handleRdmaReadResp (snap.fragment i).header (snap.fragment i).payload true
      { qp, writes := r.writes ++ copyWrites answer.copies, completed := r.completed ++ answer.completed }
  | .other frame alloc _ =>
      let (qp, answer) := r.qp.handleRdmaReadResp frame.header frame.payload alloc
      { qp, writes := r.writes, completed := r.completed ++ answer.completed }

def receive (r : Requester) (arrivals : List (Arrival snap)) : Requester := arrivals.foldl arrive r

end Requester

/-- The fragments that have arrived. -/
def Arrival.note {snap : Snapshot} (seen : List Nat) : Arrival snap → List Nat
  | .fragment i => i :: seen
  | .other .. => seen

/-- The READ at `addr` is listed, or it completed and is gone. -/
structure Tracks (snap : Snapshot) (segs : List Segment) (addr : Nat) (seen : List Nat) (r : Requester) (k : Nat)
    (read : ReadCtx) : Prop where
  distinct : DistinctReads r.qp
  progress : Progress snap segs seen k read r.writes
  missing : k < snap.fragments → k ∉ seen
  ready : read.ready = decide (k = snap.fragments)
  status : read.completionStatus = none
  located : (addr, read) ∈ r.qp.pendingReads ∨ k = snap.fragments ∧ (addr, read) ∈ r.completed ∧
    ∀ other ∈ r.qp.pendingReads, other.2.psn ≠ snap.psn

section Arrivals

variable {snap : Snapshot} {segs : List Segment} {addr : Nat} {seen : List Nat} {r : Requester} {k : Nat}
  {read : ReadCtx}

theorem Progress.uncounted {writes : List (Place × UInt8)} (progress : Progress snap segs seen k read writes) :
    Progress snap segs seen k { read with sqCounted := false } writes :=
  { progress with }

theorem Progress.done {writes : List (Place × UInt8)} (progress : Progress snap segs seen k read writes)
    (status : Option Errno) : Progress snap segs seen k (read.done status) writes := by
  rw [ReadCtx.done]
  split
  · exact progress
  · exact { progress with }

theorem ready_done (read : ReadCtx) (status : Option Errno) : (read.done status).ready = true := by
  rw [ReadCtx.done]
  split
  · assumption
  · rfl

theorem Tracks.other (tracks : Tracks snap segs addr seen r k read) (frame : Frame) (alloc : Bool)
    (foreign : frame.header.psn ≠ snap.psn) :
    ∃ read', Tracks snap segs addr seen (r.arrive (Arrival.other frame alloc foreign)) k read' := by
  simp only [Requester.arrive]
  generalize answered : r.qp.handleRdmaReadResp frame.header frame.payload alloc = result
  obtain ⟨qp, answer⟩ := result
  have cases := handleRdmaReadResp_cases tracks.distinct frame.header frame.payload alloc
  rw [answered] at cases
  simp only at cases ⊢
  rcases cases with ⟨rfl, none⟩ | ⟨addr', old', read', listed', psn', same, replaces⟩
  · rw [none, List.append_nil]
    exact ⟨read, { tracks with }⟩
  have distinct := replaces.distinct tracks.distinct listed' same
  rcases tracks.located with listed | ⟨all, completed, gone⟩
  · have other : addr ≠ addr' := by
      rintro rfl
      have own := List.inj_on_of_nodup_map tracks.distinct.addrs listed listed' rfl
      rw [Prod.mk.injEq] at own
      exact foreign (by rw [← psn', ← own.2, tracks.progress.psn])
    have member : (addr, read) ∈ replaceKey Prod.fst (addr', read') r.qp.pendingReads :=
      mem_replaceKey_of_ne listed other
    rcases replaces.entry tracks.distinct listed' same member with stays | ⟨ready, left, unlisted⟩
    · exact ⟨read, { tracks with distinct := distinct, located := .inl stays }⟩
    · have full : k = snap.fragments := by
        have done := tracks.ready
        rw [ready] at done
        exact of_decide_eq_true done.symm
      refine ⟨{ read with sqCounted := false }, { tracks with
        distinct := distinct
        progress := tracks.progress.uncounted
        located := .inr ⟨full, List.mem_append_right _ left, fun other inside => ?_⟩ }⟩
      rw [← tracks.progress.psn]
      exact unlisted other inside
  · refine ⟨read, { tracks with
      distinct := distinct
      located := .inr ⟨all, List.mem_append_left _ completed, fun other inside => ?_⟩ }⟩
    obtain ⟨entry, listed, equal⟩ := replaces.mem_old tracks.distinct listed' same inside
    rw [← equal]
    exact gone entry listed

theorem responseError_fragment {i : Nat} (bound : i < snap.fragments) (total : read.totalLen = snap.data.length) :
    read.responseError (snap.fragment i).header = none := by
  have within := Snapshot.fragment_within bound
  have bounded := snap.bounded
  let stream : Stream := { firstPsn := 0, destQp := 0, srcQp := 0, request := fun _ => .data snap.message }
  have last : (snap.fragment i).header.isLast = (stream.header 0 snap.message i).isLast := by
    rw [header_isLast stream 0 snap.message bound, snap.fragment_isLast bound]
    rfl
  have shape : rxFragmentShape read.totalLen (snap.fragment i).header = .ok (i, snap.fragments) := by
    have agreed := rxFragmentShape_header stream 0 snap.message bound
    rw [total]
    simp only [rxFragmentShape, rxFragmentShapeMax, header_fragOffset, header_length, last] at agreed ⊢
    exact agreed
  have length : (snap.fragment i).header.length = (snap.slice i).length := rfl
  have small : ¬(u32Max < i * dataMaxPayload + (snap.slice i).length) := by
    simp only [dataMaxMsgSize, u32Max] at bounded ⊢
    omega
  rw [ReadCtx.responseError, shape, if_neg (by simp [Snapshot.fragment, Snapshot.frameAt, readResponseHeader]), if_neg]
  simp only [Snapshot.fragment_fragOffset, length, total, small, Nat.not_lt.mpr within, Snapshot.fragment_knownFlags,
    Snapshot.fragment_remoteAddr, Snapshot.fragment_immData]
  simp

theorem find_listed {qp : Qp} (distinct : DistinctReads qp) (listed : (addr, read) ∈ qp.pendingReads) :
    qp.pendingReads.find? (fun entry => entry.2.psn = read.psn) = some (addr, read) := by
  cases found : qp.pendingReads.find? fun entry => entry.2.psn = read.psn with
  | none => exact absurd (List.find?_eq_none.mp found _ listed) (by simp)
  | some entry =>
      have psn : entry.2.psn = read.psn := by simpa using List.find?_some found
      rw [List.inj_on_of_nodup_map distinct.psns (List.mem_of_find?_eq_some found) listed psn]

/-- The next fragment, or the only one of no bytes again. -/
theorem Progress.respond {i : Nat} {writes : List (Place × UInt8)} (fits : Fits snap segs)
    (progress : Progress snap segs seen k read writes) (missing : k < snap.fragments → k ∉ seen)
    (bound : i < snap.fragments) (next : i * dataMaxPayload = read.received) :
    ∃ k' read' copies, read.takeResponse (i * dataMaxPayload) (snap.slice i) = (read', copies, none) ∧
      (k' < snap.fragments → k' ∉ i :: seen) ∧
      Progress snap segs (i :: seen) k' read' (writes ++ copyWrites copies) ∧
      read'.ready = read.ready ∧ read'.completionStatus = read.completionStatus := by
  by_cases more : k < snap.fragments
  · have own : i = k := Snapshot.offset_inj.mp (next.trans (progress.received_next more))
    subst own
    exact progress.take fits bound (missing bound)
  · have all : k = snap.fragments := by
      have bound := progress.bound
      omega
    have empty : snap.data = [] := by
      by_contra nonempty
      have below := Snapshot.offset_lt bound nonempty
      have covered := snap.all_bytes
      rw [next, progress.received, all] at below
      omega
    have slice : snap.slice i = [] := by simp [Snapshot.slice, Snapshot.message, Message.slice, empty]
    have same : { read with received := i * dataMaxPayload + (snap.slice i).length } = read := by
      rw [slice, next]
      rfl
    obtain ⟨k', read', copies, drained, absent, after, ready, status⟩ :=
      Progress.drain fits (read.respFrags.length + 1) (progress.again (.inl (all ▸ bound))) (Nat.lt_succ_self _)
    refine ⟨k', read', copies, ?_, absent, after, ready, status⟩
    rw [ReadCtx.takeResponse, ReadCtx.copyToReadSegments, if_pos slice]
    simp only [same, drained, List.nil_append]

/-- The READ became `read'`, and with it the queue pair and the answer. -/
theorem Tracks.replaced {seen' : List Nat} {k' : Nat} {read' : ReadCtx} {qp : Qp} {completed : List ReadEntry}
    (tracks : Tracks snap segs addr seen r k read) (copies : List SegmentCopy)
    (listed : (addr, read) ∈ r.qp.pendingReads) (replaces : Replaces r.qp addr read' qp completed)
    (progress : Progress snap segs seen' k' read' (r.writes ++ copyWrites copies))
    (missing : k' < snap.fragments → k' ∉ seen') (ready : read'.ready = decide (k' = snap.fragments))
    (status : read'.completionStatus = none) :
    ∃ read'', Tracks snap segs addr seen'
      { qp, writes := r.writes ++ copyWrites copies, completed := r.completed ++ completed } k' read'' := by
  have same : read'.psn = read.psn := by rw [progress.psn, tracks.progress.psn]
  have distinct := replaces.distinct tracks.distinct listed same
  have member : (addr, read') ∈ replaceKey Prod.fst (addr, read') r.qp.pendingReads :=
    mem_replaceKey_self listed rfl
  rcases replaces.entry tracks.distinct listed same member with stays | ⟨finished, left, unlisted⟩
  · exact ⟨read', distinct, progress, missing, ready, status, .inl stays⟩
  · have full : k' = snap.fragments := by
      rw [finished] at ready
      exact of_decide_eq_true ready.symm
    refine ⟨{ read' with sqCounted := false }, distinct, progress.uncounted, missing, ready, status,
      .inr ⟨full, List.mem_append_right _ left, fun other inside => ?_⟩⟩
    rw [← progress.psn]
    exact unlisted other inside

theorem Progress.received_all {i : Nat} {writes : List (Place × UInt8)}
    (progress : Progress snap segs (i :: seen) k read writes) (missing : k < snap.fragments → k ∉ i :: seen)
    (bound : i < snap.fragments) : read.received = read.totalLen ↔ k = snap.fragments := by
  have covered := snap.all_bytes
  rw [progress.received, progress.totalLen]
  constructor
  · intro all
    by_contra open_
    have further : k < snap.fragments := lt_of_le_of_ne progress.bound open_
    by_cases empty : snap.data = []
    · have one : snap.fragments = 1 := by simp [Snapshot.fragments, fragmentCount, empty]
      exact missing further (by rw [show k = i by omega]; exact List.mem_cons_self)
    · have below := Snapshot.offset_lt further empty
      omega
  · rintro rfl
    omega

theorem arrive_fragment {i : Fin snap.fragments} {qp : Qp} {answer : ReadAnswer}
    (handled : r.qp.handleRdmaReadResp (snap.fragment i).header (snap.slice i) true = (qp, answer)) :
    r.arrive (.fragment i) =
      { qp, writes := r.writes ++ copyWrites answer.copies, completed := r.completed ++ answer.completed } := by
  simp only [Requester.arrive, Snapshot.fragment_payload, handled]

theorem Tracks.fragment (tracks : Tracks snap segs addr seen r k read) (fits : Fits snap segs)
    (i : Fin snap.fragments) :
    ∃ k' read', Tracks snap segs addr (i.val :: seen) (r.arrive (.fragment i)) k' read' := by
  rcases tracks.located with listed | ⟨all, completed, gone⟩
  · have found := find_listed tracks.distinct listed
    rw [tracks.progress.psn, ← snap.fragment_psn i] at found
    have free := responseError_fragment i.isLt tracks.progress.totalLen
    rcases lt_trichotomy (i.val * dataMaxPayload) read.received with duplicate | next | gap
    · have before : i.val < k := by
        have received := tracks.progress.received
        exact Nat.lt_of_mul_lt_mul_right (a := dataMaxPayload) (by omega)
      rw [arrive_fragment (handle_duplicate found free duplicate), copyWrites_nil, List.append_nil, List.append_nil]
      refine ⟨k, read, tracks.distinct, tracks.progress.again (.inl before), fun more => ?_, tracks.ready,
        tracks.status, .inl listed⟩
      rw [List.mem_cons, not_or]
      exact ⟨by omega, tracks.missing more⟩
    · obtain ⟨k', read', copies, taken, missing, progress, ready, status⟩ :=
        tracks.progress.respond fits tracks.missing i.isLt next
      have complete := progress.received_all missing i.isLt
      have same : read'.psn = read.psn := by rw [progress.psn, tracks.progress.psn]
      have handled := handle_next found free true next taken
      refine ⟨k', ?_⟩
      by_cases full : k' = snap.fragments
      · rw [if_neg (not_not_intro (complete.mpr full))] at handled
        rw [arrive_fragment handled]
        have replaces := replaces_update_complete tracks.distinct listed same copies none
        refine tracks.replaced copies listed replaces (progress.done none) missing ?_ ?_
        · rw [ready_done, decide_eq_true full]
        · rw [ReadCtx.done]
          split
          · exact status.trans tracks.status
          · rfl
      · rw [if_pos (mt complete.mp full)] at handled
        rw [arrive_fragment handled]
        refine tracks.replaced copies listed (replaces_update tracks.distinct listed) progress missing ?_
          (status.trans tracks.status)
        have open_ : k ≠ snap.fragments := by
          rintro rfl
          have further : k' < snap.fragments := lt_of_le_of_ne progress.bound full
          exact missing further (List.mem_cons_of_mem _ (tracks.progress.front k' further))
        rw [ready, tracks.ready, decide_eq_false open_, decide_eq_false full]
    · have ahead : k < i.val := by
        have received := tracks.progress.received
        have start := Snapshot.offset_le i.isLt
        exact Nat.lt_of_mul_lt_mul_right (a := dataMaxPayload) (by omega)
      obtain ⟨read', stored, progress, ready, status⟩ := tracks.progress.store i.isLt ahead
      rw [arrive_fragment (handle_gap found free gap stored)]
      refine ⟨k, tracks.replaced [] listed (replaces_update tracks.distinct listed) ?_ (fun more => ?_)
        (ready.trans tracks.ready) (status.trans tracks.status)⟩
      · rw [copyWrites_nil, List.append_nil]
        exact progress
      · rw [List.mem_cons, not_or]
        exact ⟨by omega, tracks.missing more⟩
  · have found : r.qp.pendingReads.find? (fun entry => entry.2.psn = (snap.fragment i).header.psn) = none := by
      rw [List.find?_eq_none]
      intro entry member
      exact fun equal => gone entry member (of_decide_eq_true equal)
    have ignored : r.qp.handleRdmaReadResp (snap.fragment i).header (snap.slice i) true =
        (r.qp, { ack := some .ok }) := by rw [Qp.handleRdmaReadResp, found]
    rw [arrive_fragment ignored, copyWrites_nil, List.append_nil, List.append_nil]
    refine ⟨k, read, tracks.distinct, tracks.progress.again (.inl (all ▸ i.isLt)), fun more => ?_, tracks.ready,
      tracks.status, .inr ⟨all, completed, gone⟩⟩
    exact absurd all (Nat.ne_of_lt more)

theorem Tracks.arrive (tracks : Tracks snap segs addr seen r k read) (fits : Fits snap segs) (arrival : Arrival snap) :
    ∃ k' read', Tracks snap segs addr (arrival.note seen) (r.arrive arrival) k' read' := by
  cases arrival with
  | fragment i => exact tracks.fragment fits i
  | other frame alloc foreign => exact ⟨k, tracks.other frame alloc foreign⟩

theorem Tracks.receive (fits : Fits snap segs) (arrivals : List (Arrival snap))
    (tracks : Tracks snap segs addr seen r k read) :
    ∃ k' read', Tracks snap segs addr (arrivals.foldl Arrival.note seen) (r.receive arrivals) k' read' := by
  induction arrivals generalizing seen r k read with
  | nil => exact ⟨k, read, tracks⟩
  | cons arrival rest ih =>
      obtain ⟨k', read', next⟩ := tracks.arrive fits arrival
      exact ih next

theorem mem_note {i : Fin snap.fragments} (arrivals : List (Arrival snap)) (seen : List Nat) :
    i.val ∈ arrivals.foldl Arrival.note seen ↔ i.val ∈ seen ∨ Arrival.fragment i ∈ arrivals := by
  induction arrivals generalizing seen with
  | nil => simp
  | cons arrival rest ih =>
      rw [List.foldl_cons, ih, List.mem_cons]
      cases arrival with
      | fragment j => simp [Arrival.note, Fin.val_inj, or_assoc, or_left_comm]
      | other frame alloc foreign => simp [Arrival.note]

end Arrivals

/-- Every turn takes a fragment off the list, so that the loop ends where no fragment is next. -/
theorem drainFrags_ends {turns : Nat} {read read' : ReadCtx} {copies : List SegmentCopy}
    (drained : read.drainFrags turns = (read', copies, none)) (enough : read.respFrags.length < turns) :
    (read'.respFrags.find? fun frag => frag.1 = read'.received) = none := by
  induction turns generalizing read copies with
  | zero => exact absurd enough (Nat.not_lt_zero _)
  | succ turns ih =>
      rw [ReadCtx.drainFrags] at drained
      split at drained
      · obtain ⟨rfl, -⟩ := Prod.mk.inj drained
        assumption
      rename_i offset data found
      split at drained
      · cases drained
      generalize later : ReadCtx.drainFrags turns _ = result at drained
      obtain ⟨last, more, error⟩ := result
      cases drained
      refine ih later ?_
      rw [List.length_eraseP_of_mem (List.mem_of_find?_eq_some found) (by simp)]
      have some := List.length_pos_of_mem (List.mem_of_find?_eq_some found)
      omega

/-! ## Main theorem -/

structure Fresh (snap : Snapshot) (segs : List Segment) (read : ReadCtx) : Prop where
  psn : read.psn = snap.psn
  totalLen : read.totalLen = snap.data.length
  lists : read.segs = segs
  received : read.received = 0
  frags : read.respFrags = []
  bytes : read.respBufferedBytes = 0
  ready : read.ready = false
  status : read.completionStatus = none

/-- What holds of a READ and of the bytes written for it. `locate` says which places are the same byte. -/
structure Reassembled (snap : Snapshot) (segs : List Segment) (arrivals : List (Arrival snap))
    (writes : List (Place × UInt8)) (read : ReadCtx) : Prop where
  boundary : ∃ k ≤ snap.fragments, read.received = min (k * dataMaxPayload) snap.data.length
  copied : writes = (segmentPlaces segs).zip (snap.data.take read.received)
  memory : ∀ {κ : Type} [DecidableEq κ] (locate : Place → κ) (memory : κ → UInt8) (j : Nat) (place : Place),
    j < read.received → (segmentPlaces segs)[j]? = some place →
    (∀ later, j < later → later < read.received →
      ∀ other, (segmentPlaces segs)[later]? = some other → locate other ≠ locate place) →
    snap.data[j]? = some (store memory (writes.map fun write => (locate write.1, write.2)) (locate place))
  offsets : (read.respFrags.map Prod.fst).Pairwise (· < ·)
  above : ∀ frag ∈ read.respFrags, read.received < frag.1
  bytes : read.respBufferedBytes = fragBytes read.respFrags
  room : read.respBufferedBytes ≤ read.totalLen
  stored : ∀ i < snap.fragments, read.received < i * dataMaxPayload →
    (read.storeFrag (i * dataMaxPayload) (snap.slice i) true).2 = none
  drained : ∀ received turns read' copies, read.respFrags.length < turns →
    ReadCtx.drainFrags turns { read with received } = (read', copies, none) →
      read'.respFrags.find? (fun frag => frag.1 = read'.received) = none
  success : read.completionStatus = none ∧ (read.ready = true ↔ ∀ i, Arrival.fragment i ∈ arrivals)
  whole : read.ready = true → writes = (segmentPlaces segs).zip snap.data

section Reassembled

variable {snap : Snapshot} {segs : List Segment} {addr : Nat} {r : Requester} {k : Nat} {read : ReadCtx}

theorem Fresh.tracks {qp : Qp} (fresh : Fresh snap segs read) (distinct : DistinctReads qp)
    (listed : (addr, read) ∈ qp.pendingReads) : Tracks snap segs addr [] { qp } 0 read := by
  have none : snap.buffered [] 0 = [] := by simp [Snapshot.buffered, Snapshot.waiting]
  have some : 0 < snap.fragments := fragments_pos snap.message
  refine ⟨distinct, ⟨fresh.psn, fresh.totalLen, fresh.lists, by simp, Nat.zero_le _, ?_, ?_, ?_, ?_⟩, by simp, ?_,
    fresh.status, .inl listed⟩
  · rw [fresh.received, Nat.zero_mul, Nat.zero_min]
  · rw [fresh.frags, none]
  · rw [fresh.bytes, none]
    rfl
  · rw [fresh.received, List.take_zero, List.zip_nil_right]
  · rw [fresh.ready, decide_eq_false (Nat.ne_of_lt some)]

theorem Tracks.reassembled {arrivals : List (Arrival snap)}
    (tracks : Tracks snap segs addr (arrivals.foldl Arrival.note []) r k read) :
    Reassembled snap segs arrivals r.writes read := by
  have progress := tracks.progress
  have behind : ∀ i ∈ snap.waiting (arrivals.foldl Arrival.note []) k, k < i := fun i member => by
    obtain ⟨bound, ahead, arrived⟩ := Snapshot.mem_waiting.mp member
    refine lt_of_le_of_ne ahead ?_
    rintro rfl
    exact tracks.missing bound arrived
  have received := progress.received
  have covered := snap.all_bytes
  have taken : (snap.data.take read.received).length = read.received := by
    rw [List.length_take]
    omega
  refine ⟨⟨k, progress.bound, progress.received⟩, progress.writes, ?_, ?_, ?_, ?_, ?_, ?_, ?_, ⟨tracks.status, ?_⟩, ?_⟩
  · intro κ _ locate memory j place before own last
    have bound : j < snap.data.length := by omega
    have value : (snap.data.take read.received)[j]? = some snap.data[j] := by
      rw [List.getElem?_take_of_lt before, List.getElem?_eq_getElem bound]
    have writes : r.writes.map (fun write => (locate write.1, write.2)) =
        ((segmentPlaces segs).map locate).zip (snap.data.take read.received) := by
      rw [progress.writes, List.zip_map_left]
      rfl
    rw [writes, List.getElem?_eq_getElem bound, Option.some.injEq]
    refine (store_zip (by rw [List.getElem?_map, own, Option.map_some]) value fun later after within same => ?_).symm
    rw [List.getElem?_map, Option.map_eq_some_iff] at same
    obtain ⟨other, at_, equal⟩ := same
    exact last later after (taken ▸ within) other at_ equal
  · rw [progress.frags, Snapshot.buffered, List.map_map]
    refine (Snapshot.pairwise_waiting _ k).map _ fun i j before => ?_
    exact Nat.mul_lt_mul_of_pos_right before (by decide)
  · intro frag member
    rw [progress.frags] at member
    obtain ⟨i, inside, rfl⟩ := List.mem_map.mp member
    have before : k * dataMaxPayload < i * dataMaxPayload :=
      Nat.mul_lt_mul_of_pos_right (behind i inside) (by decide)
    simp only
    omega
  · rw [progress.bytes, progress.frags]
  · rw [progress.bytes, progress.totalLen]
    exact fragBytes_buffered ..
  · intro i bound ahead
    have later : k < i := by
      have start := Snapshot.offset_le bound
      exact Nat.lt_of_mul_lt_mul_right (a := dataMaxPayload) (by omega)
    obtain ⟨read', stored, -⟩ := progress.store bound later
    rw [stored]
  · intro received turns read' copies enough drained
    exact drainFrags_ends drained enough
  · rw [tracks.ready, decide_eq_true_eq]
    constructor
    · rintro rfl i
      exact ((mem_note arrivals []).mp (progress.front i i.isLt)).resolve_left (by simp)
    · intro all
      by_contra open_
      have further : k < snap.fragments := lt_of_le_of_ne progress.bound open_
      exact tracks.missing further ((mem_note (i := ⟨k, further⟩) arrivals []).mpr (.inr (all _)))
  · intro ready
    rw [tracks.ready, decide_eq_true_eq] at ready
    have all : read.received = snap.data.length := by
      rw [received, ready]
      omega
    rw [progress.writes, all, List.take_length]

end Reassembled

/-- Whatever fragments of the snapshot come, in whatever order and how often, between whatever responses to
other READs: the READ is listed or has completed, and it is reassembled. -/
theorem read_response_reassembled (snap : Snapshot) (segs : List Segment) (fits : Fits snap segs) {qp : Qp}
    {addr : Nat} {read : ReadCtx} (distinct : DistinctReads qp) (listed : (addr, read) ∈ qp.pendingReads)
    (fresh : Fresh snap segs read) :
    (∀ env, ∀ frame ∈ (snap.sendReadResponseCtx env).1, ∃ i : Fin snap.fragments, frame = snap.fragment i) ∧
      ∀ arrivals : List (Arrival snap), ∃ last : ReadCtx,
        ((addr, last) ∈ (Requester.receive { qp } arrivals).qp.pendingReads ∨
          (addr, last) ∈ (Requester.receive { qp } arrivals).completed ∧ last.ready = true) ∧
        Reassembled snap segs arrivals (Requester.receive { qp } arrivals).writes last := by
  refine ⟨fun env frame sent => ?_, fun arrivals => ?_⟩
  · obtain ⟨count, few, frames, -⟩ := snap.frames_sendReadResponseCtx env
    rw [frames] at sent
    obtain ⟨i, inside, rfl⟩ := List.mem_map.mp sent
    exact ⟨⟨i, (List.mem_range.mp inside).trans_le few⟩, rfl⟩
  · obtain ⟨k, last, tracks⟩ := (fresh.tracks distinct listed).receive fits arrivals
    refine ⟨last, ?_, tracks.reassembled⟩
    rcases tracks.located with stays | ⟨all, completed, -⟩
    · exact .inl stays
    · exact .inr ⟨completed, tracks.ready.trans (decide_eq_true all)⟩

/-- Two fragments for two segments. -/
def twoFragments : Snapshot where
  destQp := 5
  srcQp := 7
  psn := 3
  data := List.replicate 5000 1
  bounded := List.length_replicate.trans_le (Nat.le_of_ble_eq_true rfl)

def pageMr : Mr := { start := 4096, length := 8192, localWrite := true }

def twoSegments : List Segment :=
  [{ mr := pageMr, addr := 4096, length := 3000 }, { mr := pageMr, addr := 8192, length := 2000 }]

def twoSegmentRead : ReadCtx :=
  { wrId := 1, psn := 3, totalLen := 5000, segs := twoSegments, signaled := true }

def twoSegmentQp : Qp :=
  { state := .rts, refs := 2, qpNum := 5, destQpKnown := true, destQpNum := 7, retryCnt := 7, rnrRetry := 7
    maxSendWr := 16, sendPsn := 4, sendqCount := 1, pendingReads := [(1, twoSegmentRead)] }

theorem length_twoFragments : twoFragments.data.length = 5000 := List.length_replicate

theorem one_lt_twoFragments : 1 < twoFragments.fragments := by
  rw [Snapshot.fragments, length_twoFragments]
  decide

def backwards : List (Arrival twoFragments) :=
  [.fragment ⟨1, one_lt_twoFragments⟩, .fragment ⟨0, Nat.lt_of_succ_lt one_lt_twoFragments⟩]

theorem pageMr_covers {addr length : Nat} (first : 4096 ≤ addr) (last : addr + length ≤ 12288) :
    pageMr.covers addr length = true := by
  rw [Mr.covers, Bool.and_eq_true, Bool.and_eq_true, decide_eq_true_eq, decide_eq_true_eq, decide_eq_true_eq]
  exact ⟨⟨by decide, first⟩, last⟩

theorem twoSegments_fit : Fits twoFragments twoSegments := by
  refine ⟨fun seg member => ?_, length_twoFragments.symm⟩
  simp only [twoSegments, List.mem_cons, List.not_mem_nil, or_false] at member
  rcases member with rfl | rfl
  · refine ⟨by decide, fun offset length inside _ => copyError_covered rfl (pageMr_covers ?_ ?_)⟩ <;>
      simp only at inside ⊢ <;> omega
  · refine ⟨by decide, fun offset length inside _ => copyError_covered rfl (pageMr_covers ?_ ?_)⟩ <;>
      simp only at inside ⊢ <;> omega

theorem read_response_reassembled_backwards :
    ∃ last, ((1, last) ∈ (Requester.receive { qp := twoSegmentQp } backwards).qp.pendingReads ∨
        (1, last) ∈ (Requester.receive { qp := twoSegmentQp } backwards).completed ∧ last.ready = true) ∧
      Reassembled twoFragments twoSegments backwards
        (Requester.receive { qp := twoSegmentQp } backwards).writes last := by
  have distinct : DistinctReads twoSegmentQp := ⟨List.nodup_singleton _, List.nodup_singleton _⟩
  have fresh : Fresh twoFragments twoSegments twoSegmentRead :=
    ⟨rfl, length_twoFragments.symm, rfl, rfl, rfl, rfl, rfl, rfl⟩
  exact (read_response_reassembled twoFragments twoSegments twoSegments_fit distinct List.mem_cons_self fresh).2
    backwards

end ThunderboltVerbs.Verbs
