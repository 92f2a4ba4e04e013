import ThunderboltVerbs.Config.Transport
import ThunderboltVerbs.Control.Rail
import Mathlib.Data.List.MinMax
import Mathlib.Data.List.Nodup
import Mathlib.Data.List.Perm.Basic
import Mathlib.Data.Prod.Lex

/-!
# Which rail a QP is placed on (`kernel/ibdev.c`, `kernel/peer.c`)
-/

namespace ThunderboltVerbs.Driver
open Control

/-- A rail on its peer's list, as the selector reads it. -/
structure PeerRail where
  rail : Rail
  railId : UInt32
  /-- `rail->ibdev` is set. -/
  ibdev : Bool
  refcnt : Nat := 1
  nativeQpBindCount : Int32 := 0
  dataTxEnqueued : Int64 := 0
  dataTxCompleted : Int64 := 0
  deriving DecidableEq

structure Peer where
  backend : Config.BackendType
  rails : List PeerRail
  nativeQpRrRailId : UInt32 := 0
  deriving DecidableEq

namespace PeerRail

def eligible (rail : PeerRail) : Bool := rail.rail.dataReady && !rail.rail.removing && rail.ibdev

def qps (rail : PeerRail) : UInt32 := (max rail.nativeQpBindCount 0).toUInt32

def pendingDataFrames (rail : PeerRail) : UInt32 :=
  let pending := rail.dataTxEnqueued - rail.dataTxCompleted
  if pending ≤ 0 then 0 else if 0xffffffff < pending then 0xffffffff else pending.toUInt64.toUInt32

def get (rail : PeerRail) : PeerRail := { rail with refcnt := rail.refcnt + 1 }

def bind (rail : PeerRail) : PeerRail :=
  { rail.get with nativeQpBindCount := rail.nativeQpBindCount + 1 }

def unbind (rail : PeerRail) : PeerRail :=
  { rail with refcnt := rail.refcnt - 1, nativeQpBindCount := rail.nativeQpBindCount - 1 }

end PeerRail

def rrDistance (railId nextRailId : UInt32) : UInt32 :=
  if nextRailId ≤ railId then railId - nextRailId else 0xffffffff - nextRailId + 1 + railId

/-- The locals of the walk over the rails. -/
structure Scan where
  best : Option PeerRail := none
  bestQps : UInt32 := 0xffffffff
  bestPending : UInt32 := 0xffffffff
  bestRrDistance : UInt32 := 0xffffffff
  bestRailId : UInt32 := 0xffffffff

def Scan.visit (nextRailId : UInt32) (scan : Scan) (rail : PeerRail) : Scan :=
  if !rail.rail.dataReady || rail.rail.removing then scan
  else if !rail.ibdev then scan
  else
    let qps := rail.qps
    let pending := rail.pendingDataFrames
    let distance := rrDistance rail.railId nextRailId
    if scan.best.isNone || qps < scan.bestQps ||
        (qps = scan.bestQps &&
          (pending < scan.bestPending ||
            (pending = scan.bestPending &&
              (distance < scan.bestRrDistance ||
                (distance = scan.bestRrDistance && rail.railId < scan.bestRailId))))) then
      { best := some rail, bestQps := qps, bestPending := pending, bestRrDistance := distance
        bestRailId := rail.railId }
    else scan

namespace Peer

def updateRail (peer : Peer) (railId : UInt32) (f : PeerRail → PeerRail) : Peer :=
  { peer with rails := peer.rails.map fun rail => if rail.railId = railId then f rail else rail }

def bind (peer : Peer) (railId : UInt32) : Peer :=
  { peer.updateRail railId PeerRail.bind with nativeQpRrRailId := railId + 1 }

end Peer

/-- What the selector returns and what it leaves behind; `rail` is the rail as it was when chosen. -/
structure Selected where
  rail : Option PeerRail := none
  counted : Bool := false
  peer : Option Peer

/-- `tbv_select_qp_rail_locked` on a device of rail `home`, a rail of `peer`. `publishReady` is the answer of
`tbv_ibdev_rail_publish_ready_locked`. -/
def selectQpRail (home : Option PeerRail) (peer : Option Peer) (backend : Config.BackendType)
    (gsi publishReady : Bool) : Selected :=
  match home with
  | none => { peer }
  | some home =>
      if home.rail.removing then { peer }
      else if backend ≠ .native || gsi then
        if backend = .apple && !publishReady then { peer }
        else { rail := some home, peer := peer.map fun peer => peer.updateRail home.railId PeerRail.get }
      else
        match peer with
        | none => { peer := none }
        | some peer =>
            if peer.backend ≠ .native then { peer := some peer }
            else
              match (peer.rails.foldl (Scan.visit peer.nativeQpRrRailId) {}).best with
              | none => { peer := some peer }
              | some best => { rail := some best, counted := true, peer := some (peer.bind best.railId) }

/-! ## The least rail -/

/-- What the rails are compared by. -/
def PeerRail.rank (nextRailId : UInt32) (rail : PeerRail) : Nat ×ₗ Nat ×ₗ Nat ×ₗ Nat :=
  toLex (rail.qps.toNat, toLex (rail.pendingDataFrames.toNat,
    toLex ((rail.railId - nextRailId).toNat, rail.railId.toNat)))

theorem rrDistance_eq (railId nextRailId : UInt32) : rrDistance railId nextRailId = railId - nextRailId := by
  unfold rrDistance
  split
  · rfl
  · apply UInt32.toBitVec_inj.mp
    simp only [UInt32.toBitVec_add, UInt32.toBitVec_sub]
    rw [show UInt32.toBitVec 4294967295 = -1#32 from rfl, show UInt32.toBitVec 1 = 1#32 from rfl]
    bv_omega

namespace Scan

variable {next : UInt32}

/-- The four maxima are those of the best rail so far. -/
def Holds (next : UInt32) (scan : Scan) : Prop :=
  ∀ best, scan.best = some best → scan.bestQps = best.qps ∧ scan.bestPending = best.pendingDataFrames ∧
    scan.bestRrDistance = rrDistance best.railId next ∧ scan.bestRailId = best.railId

theorem beats_iff (rail best : PeerRail) :
    (rail.qps < best.qps ∨ rail.qps = best.qps ∧
      (rail.pendingDataFrames < best.pendingDataFrames ∨ rail.pendingDataFrames = best.pendingDataFrames ∧
        (rrDistance rail.railId next < rrDistance best.railId next ∨
          rrDistance rail.railId next = rrDistance best.railId next ∧ rail.railId < best.railId))) ↔
      rail.rank next < best.rank next := by
  simp only [PeerRail.rank, Prod.Lex.toLex_lt_toLex, rrDistance_eq, UInt32.lt_iff_toNat_lt, UInt32.toNat_inj]

theorem visit_spec {scan : Scan} (holds : scan.Holds next) (rail : PeerRail) :
    (scan.visit next rail).Holds next ∧
      (scan.visit next rail).best =
        if rail.eligible then List.argAux (fun a b => a.rank next < b.rank next) scan.best rail else scan.best := by
  by_cases eligible : rail.eligible = true
  · have ready : rail.rail.dataReady = true ∧ rail.rail.removing = false ∧ rail.ibdev = true := by
      simpa [PeerRail.eligible, and_assoc] using eligible
    obtain ⟨ready, live, published⟩ := ready
    rw [if_pos eligible]
    cases chosen : scan.best with
    | none =>
        simp [visit, ready, live, published, chosen, Holds, List.argAux]
    | some best =>
        obtain ⟨qps, pending, distance, railId⟩ := holds best chosen
        by_cases beats : rail.rank next < best.rank next
        · have condition := (beats_iff rail best).mpr beats
          simp [visit, ready, live, published, chosen, Holds, List.argAux, beats, qps, pending, distance, railId,
            condition]
        · have condition := mt (beats_iff rail best).mp beats
          simp [visit, ready, live, published, chosen, Holds, List.argAux, beats, qps, pending, distance, railId,
            condition]
  · have skipped : scan.visit next rail = scan := by
      unfold visit
      by_cases published : rail.ibdev = true
      · rw [if_pos (by simpa [PeerRail.eligible, published, or_iff_not_imp_left] using eligible)]
      · simp [published]
    rw [skipped, if_neg eligible]
    exact ⟨holds, rfl⟩

theorem foldl_best {scan : Scan} (holds : scan.Holds next) (rails : List PeerRail) :
    (rails.foldl (visit next) scan).best =
      (rails.filter PeerRail.eligible).foldl (List.argAux fun a b => a.rank next < b.rank next) scan.best := by
  induction rails generalizing scan with
  | nil => rfl
  | cons rail rest ih =>
      obtain ⟨later, best⟩ := visit_spec holds rail
      rw [List.foldl_cons, ih later, best]
      by_cases eligible : rail.eligible = true
      · rw [if_pos eligible, List.filter_cons_of_pos eligible, List.foldl_cons]
      · rw [if_neg eligible, List.filter_cons_of_neg eligible]

end Scan

namespace Peer

/-- The eligible rail of least rank. -/
def leastRail (peer : Peer) : Option PeerRail :=
  (peer.rails.filter PeerRail.eligible).argmin (PeerRail.rank peer.nativeQpRrRailId)

def Distinct (peer : Peer) : Prop := (peer.rails.map PeerRail.railId).Nodup

instance (peer : Peer) : Decidable peer.Distinct := inferInstanceAs (Decidable (List.Nodup _))

variable {peer : Peer}

theorem Distinct.eq (distinct : peer.Distinct) {a b : PeerRail} (first : a ∈ peer.rails) (second : b ∈ peer.rails)
    (same : a.railId = b.railId) : a = b :=
  List.inj_on_of_nodup_map distinct first second same

theorem railId_of_rank {next : UInt32} {a b : PeerRail} (same : a.rank next = b.rank next) :
    a.railId = b.railId := by
  simp only [PeerRail.rank, toLex_inj, Prod.mk.injEq] at same
  exact UInt32.toNat_inj.mp same.2.2.2

theorem leastRail_eq_none : peer.leastRail = none ↔ ∀ rail ∈ peer.rails, rail.eligible = false := by
  rw [leastRail, List.argmin_eq_none, List.filter_eq_nil_iff]
  simp

theorem leastRail_eq_some (distinct : peer.Distinct) {rail : PeerRail} :
    peer.leastRail = some rail ↔ rail ∈ peer.rails ∧ rail.eligible = true ∧
      ∀ other ∈ peer.rails, other.eligible = true → other ≠ rail →
        rail.rank peer.nativeQpRrRailId < other.rank peer.nativeQpRrRailId := by
  unfold leastRail
  constructor
  · intro chosen
    have member := List.mem_filter.mp (List.argmin_mem chosen)
    refine ⟨member.1, member.2, fun other listed eligible differs => ?_⟩
    apply lt_of_le_of_ne (List.le_of_mem_argmin (List.mem_filter.mpr ⟨listed, eligible⟩) chosen)
    intro same
    exact differs (distinct.eq listed member.1 (railId_of_rank same.symm))
  · intro ⟨listed, eligible, least⟩
    cases chosen : (peer.rails.filter PeerRail.eligible).argmin (PeerRail.rank peer.nativeQpRrRailId) with
    | none =>
        rw [List.argmin_eq_none, List.filter_eq_nil_iff] at chosen
        exact absurd eligible (chosen rail listed)
    | some other =>
        have member := List.mem_filter.mp (List.argmin_mem chosen)
        have le := List.le_of_mem_argmin (List.mem_filter.mpr ⟨listed, eligible⟩) chosen
        by_cases same : other = rail
        · rw [same]
        · exact absurd le (not_le_of_gt (least other member.1 member.2 same))

theorem leastRail_perm (distinct : peer.Distinct) {rails : List PeerRail} (order : rails.Perm peer.rails) :
    ({ peer with rails } : Peer).leastRail = peer.leastRail := by
  have alike : ({ peer with rails } : Peer).Distinct := (order.map _).nodup_iff.mpr distinct
  apply Option.ext
  intro rail
  rw [leastRail_eq_some alike, leastRail_eq_some distinct]
  simp only [order.mem_iff]

end Peer

theorem selectQpRail_native {home : PeerRail} {peer : Peer} (publishReady : Bool) (stays : home.rail.removing = false)
    (native : peer.backend = .native) :
    selectQpRail (some home) (some peer) .native false publishReady =
      match peer.leastRail with
      | none => { peer := some peer }
      | some best => { rail := some best, counted := true, peer := some (peer.bind best.railId) } := by
  have walk : (peer.rails.foldl (Scan.visit peer.nativeQpRrRailId) {}).best = peer.leastRail :=
    Scan.foldl_best (by simp [Scan.Holds]) peer.rails
  simp [selectQpRail, stays, native, walk]

end ThunderboltVerbs.Driver
