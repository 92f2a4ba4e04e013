import ThunderboltVerbs.Driver.Placement
import ThunderboltVerbs.Lib.System
import Mathlib.Data.List.Perm.Subperm
import Mathlib.Logic.Relation

/-!
# Runs of QP creation

The bind count of a rail is the number of QPs bound to it, and there are fewer numbers for QPs than an
`atomic_t` can count. Placing one QP more on a rail of least count keeps the counts even.
-/

namespace ThunderboltVerbs.Driver
open Control Lib

/-! ## The QPs of a peer -/

def qpnMin : Nat := 0x900
def qpnMax : Nat := 0x00ffffff

/-- A native peer, its bound QPs (number and rail) and every number its QPs have had; `tbv_free_qpn` gives no
native number back. -/
structure Placement where
  peer : Peer
  bound : List (Nat × UInt32)
  taken : List Nat
  deriving DecidableEq

/-- `createQp` ends with the number of the new QP, or with an error after the selection. `background` is
everything that moves no QP: frames, handshakes, devices that come and go. -/
inductive PlacementAction
  | createQp (home : PeerRail) (qpn : Option Nat)
  | destroyQp (qpn : Nat)
  | addRail (rail : PeerRail) (position : Nat)
  | removeRail (railId : UInt32)
  | background (rails : List PeerRail)

namespace Peer

def binding (rail : PeerRail) : UInt32 × Int32 := (rail.railId, rail.nativeQpBindCount)

def bindings (peer : Peer) : List (UInt32 × Int32) := peer.rails.map binding

def eligibleIds (peer : Peer) : List UInt32 := (peer.rails.filter PeerRail.eligible).map PeerRail.railId

end Peer

def placementStep (s : Placement) : PlacementAction → Option Placement
  | .createQp home qpn =>
      match selectQpRail (some home) (some s.peer) .native false true with
      | { rail := some rail, peer := some peer, .. } =>
          match qpn with
          | none => some { s with peer := peer.updateRail rail.railId PeerRail.unbind }
          | some qpn =>
              if qpnMin ≤ qpn ∧ qpn ≤ qpnMax ∧ qpn ∉ s.taken then
                some { peer, bound := (qpn, rail.railId) :: s.bound, taken := qpn :: s.taken }
              else none
      | _ => some s
  | .destroyQp qpn =>
      (s.bound.find? fun b => b.1 = qpn).map fun b =>
        { s with peer := s.peer.updateRail b.2 PeerRail.unbind, bound := s.bound.erase b }
  | .addRail rail position =>
      if position ≤ s.peer.rails.length ∧ rail.nativeQpBindCount = 0 ∧
          rail.railId ∉ s.peer.rails.map PeerRail.railId then
        some { s with peer := { s.peer with rails := s.peer.rails.insertIdx position rail } }
      else none
  | .removeRail railId =>
      if railId ∈ s.bound.map Prod.snd then none
      else some { s with peer := { s.peer with rails := s.peer.rails.filter fun rail => rail.railId ≠ railId } }
  | .background rails =>
      if (rails.map Peer.binding).Perm s.peer.bindings then some { s with peer := { s.peer with rails } } else none

def placementSystem : System Placement PlacementAction where
  init s := s.peer.backend = .native ∧ s.peer.Distinct ∧ (∀ rail ∈ s.peer.rails, rail.nativeQpBindCount = 0) ∧
    s.bound = [] ∧ s.taken = []
  step := placementStep

/-- The action neither unbinds a QP nor fails to place one. -/
def PlacementAction.places : PlacementAction → Bool
  | .createQp _ none | .destroyQp _ => false
  | _ => true

/-- A step of a run of selections: no QP is unbound and the eligible rails stay. -/
def Selecting (before after : Placement) : Prop :=
  ∃ action : PlacementAction, action.places = true ∧ placementSystem.step before action = some after ∧
    ∀ railId, railId ∈ after.peer.eligibleIds ↔ railId ∈ before.peer.eligibleIds

def Peer.WithinOne (peer : Peer) : Prop :=
  ∀ a ∈ peer.rails, ∀ b ∈ peer.rails, a.eligible = true → b.eligible = true →
    a.nativeQpBindCount.toInt ≤ b.nativeQpBindCount.toInt + 1

instance (peer : Peer) : Decidable peer.WithinOne :=
  inferInstanceAs (Decidable (∀ a ∈ peer.rails, ∀ b ∈ peer.rails, a.eligible = true → b.eligible = true →
    a.nativeQpBindCount.toInt ≤ b.nativeQpBindCount.toInt + 1))

/-! ### The counts are the bound QPs -/

namespace Placement

def boundTo (s : Placement) (railId : UInt32) : Nat := s.bound.countP fun b => b.2 = railId

structure Bookkept (s : Placement) : Prop where
  native : s.peer.backend = .native
  distinct : s.peer.Distinct
  counted : ∀ rail ∈ s.peer.rails, rail.nativeQpBindCount.toInt = s.boundTo rail.railId
  listed : ∀ b ∈ s.bound, b.2 ∈ s.peer.rails.map PeerRail.railId
  numbers : (s.bound.map Prod.fst).Sublist s.taken
  once : s.taken.Nodup
  inRange : ∀ qpn ∈ s.taken, qpn ≤ qpnMax

variable {s : Placement}

theorem Bookkept.boundTo_le (kept : s.Bookkept) (railId : UInt32) : s.boundTo railId ≤ qpnMax + 1 :=
  calc s.boundTo railId
    _ ≤ s.bound.length := List.countP_le_length
    _ = (s.bound.map Prod.fst).length := (List.length_map _).symm
    _ ≤ s.taken.length := kept.numbers.length_le
    _ ≤ (List.range (qpnMax + 1)).length :=
        (kept.once.subperm fun qpn member => List.mem_range.mpr (Nat.lt_succ_of_le (kept.inRange qpn member))).length_le
    _ = qpnMax + 1 := List.length_range

theorem toInt_succ {count : Int32} {n : Nat} (same : count.toInt = n) (small : n ≤ qpnMax + 1) :
    (count + 1).toInt = (n + 1 : Nat) := by
  unfold qpnMax at small
  rw [Int32.toInt_add, same]
  simp only [Int.bmod, Int32.reduceToInt]
  omega

theorem toInt_pred {count : Int32} {n : Nat} (same : count.toInt = (n + 1 : Nat)) (small : n ≤ qpnMax + 1) :
    (count - 1).toInt = n := by
  unfold qpnMax at small
  rw [Int32.toInt_sub, same]
  simp only [Int.bmod, Int32.reduceToInt]
  omega

/-- The bookkeeping reads the rails only through their numbers and counts. -/
theorem Bookkept.rebound (kept : s.Bookkept) {peer : Peer} (native : peer.backend = .native)
    (same : peer.bindings.Perm s.peer.bindings) : ({ s with peer } : Placement).Bookkept := by
  have ids : (peer.rails.map PeerRail.railId).Perm (s.peer.rails.map PeerRail.railId) := by
    simpa [Peer.bindings, Peer.binding, Function.comp_def] using same.map Prod.fst
  refine { native, distinct := ids.nodup_iff.mpr kept.distinct, counted := ?_, listed := ?_
           numbers := kept.numbers, once := kept.once, inRange := kept.inRange }
  · intro rail member
    obtain ⟨old, held, equal⟩ := List.mem_map.mp (same.mem_iff.mp (List.mem_map_of_mem (f := Peer.binding) member))
    have counted := kept.counted old held
    rw [Peer.binding, Peer.binding, Prod.mk.injEq] at equal
    rwa [equal.1, equal.2] at counted
  · intro b member
    exact ids.mem_iff.mpr (kept.listed b member)

end Placement

namespace Peer

variable {peer : Peer} {railId : UInt32} {f : PeerRail → PeerRail}

theorem ids_updateRail (keeps : ∀ rail, (f rail).railId = rail.railId) :
    (peer.updateRail railId f).rails.map PeerRail.railId = peer.rails.map PeerRail.railId := by
  rw [updateRail, List.map_map]
  refine List.map_congr_left fun rail _ => ?_
  rw [Function.comp_apply]
  split
  · exact keeps rail
  · rfl

theorem eligibleIds_updateRail (keeps : ∀ rail, (f rail).railId = rail.railId)
    (alike : ∀ rail, (f rail).eligible = rail.eligible) :
    (peer.updateRail railId f).eligibleIds = peer.eligibleIds := by
  unfold eligibleIds updateRail
  induction peer.rails with
  | nil => rfl
  | cons rail rest ih =>
      have same : (if rail.railId = railId then f rail else rail).eligible = rail.eligible := by
        split
        · exact alike rail
        · rfl
      have named : (if rail.railId = railId then f rail else rail).railId = rail.railId := by
        split
        · exact keeps rail
        · rfl
      by_cases eligible : rail.eligible = true
      · rw [List.map_cons, List.filter_cons_of_pos (same.trans eligible), List.filter_cons_of_pos eligible,
          List.map_cons, List.map_cons, ih, named]
      · rw [List.map_cons, List.filter_cons_of_neg (by rwa [same]), List.filter_cons_of_neg eligible, ih]

end Peer

namespace Placement

variable {s : Placement}

theorem select_cases (native : s.peer.backend = .native) (home : PeerRail) :
    selectQpRail (some home) (some s.peer) .native false true = { peer := some s.peer } ∨
      ∃ best, s.peer.leastRail = some best ∧ selectQpRail (some home) (some s.peer) .native false true =
        { rail := some best, counted := true, peer := some (s.peer.bind best.railId) } := by
  by_cases stays : home.rail.removing = false
  · rw [selectQpRail_native true stays native]
    cases s.peer.leastRail with
    | none => exact .inl rfl
    | some best => exact .inr ⟨best, rfl, rfl⟩
  · left
    rw [selectQpRail, if_pos (by simpa using stays)]

theorem Bookkept.bind (kept : s.Bookkept) {railId : UInt32} {qpn : Nat}
    (listed : railId ∈ s.peer.rails.map PeerRail.railId) (top : qpn ≤ qpnMax) (fresh : qpn ∉ s.taken) :
    ({ peer := s.peer.bind railId, bound := (qpn, railId) :: s.bound, taken := qpn :: s.taken } :
      Placement).Bookkept := by
  have ids : (s.peer.bind railId).rails.map PeerRail.railId = s.peer.rails.map PeerRail.railId :=
    Peer.ids_updateRail fun _ => rfl
  constructor
  case native => exact kept.native
  case distinct =>
    show ((s.peer.bind railId).rails.map PeerRail.railId).Nodup
    rw [ids]
    exact kept.distinct
  case counted =>
    intro rail member
    obtain ⟨old, held, rfl⟩ := List.mem_map.mp member
    have counted := kept.counted old held
    split
    · rename_i same
      have more : ((qpn, railId) :: s.bound).countP (fun b => b.2 = old.railId) = s.boundTo old.railId + 1 :=
        List.countP_cons_of_pos (by simp [same])
      exact (toInt_succ counted (kept.boundTo_le old.railId)).trans (congrArg Nat.cast more.symm)
    · rename_i other
      have same : ((qpn, railId) :: s.bound).countP (fun b => b.2 = old.railId) = s.boundTo old.railId :=
        List.countP_cons_of_neg (by simpa using fun equal => other equal.symm)
      exact counted.trans (congrArg Nat.cast same.symm)
  case listed =>
    intro b member
    show b.2 ∈ (s.peer.bind railId).rails.map PeerRail.railId
    rw [ids]
    rcases List.mem_cons.mp member with rfl | old
    · exact listed
    · exact kept.listed b old
  case numbers => exact kept.numbers.cons_cons qpn
  case once => exact List.nodup_cons.mpr ⟨fresh, kept.once⟩
  case inRange =>
    intro number member
    rcases List.mem_cons.mp member with rfl | old
    · exact top
    · exact kept.inRange number old

/-- A QP less on its rail; its number stays taken. -/
theorem Bookkept.unbind (kept : s.Bookkept) {b : Nat × UInt32} (held : b ∈ s.bound) :
    ({ s with peer := s.peer.updateRail b.2 PeerRail.unbind, bound := s.bound.erase b } : Placement).Bookkept := by
  have ids : (s.peer.updateRail b.2 PeerRail.unbind).rails.map PeerRail.railId = s.peer.rails.map PeerRail.railId :=
    Peer.ids_updateRail fun _ => rfl
  constructor
  case native => exact kept.native
  case distinct =>
    show ((s.peer.updateRail b.2 PeerRail.unbind).rails.map PeerRail.railId).Nodup
    rw [ids]
    exact kept.distinct
  case counted =>
    intro rail member
    obtain ⟨old, listed, rfl⟩ := List.mem_map.mp member
    have counted := kept.counted old listed
    have parts := (List.perm_cons_erase held).countP_eq fun entry : Nat × UInt32 => entry.2 = old.railId
    split
    · rename_i same
      have fewer : s.boundTo old.railId = (s.bound.erase b).countP (fun entry => entry.2 = old.railId) + 1 :=
        parts.trans (List.countP_cons_of_pos (by simp [same]))
      have bounded := kept.boundTo_le old.railId
      rw [fewer] at counted bounded
      exact toInt_pred counted (Nat.le_of_succ_le bounded)
    · rename_i other
      have same : s.boundTo old.railId = (s.bound.erase b).countP fun entry => entry.2 = old.railId :=
        parts.trans (List.countP_cons_of_neg (by simpa using fun equal => other equal.symm))
      exact counted.trans (congrArg Nat.cast same)
  case listed =>
    intro entry member
    show entry.2 ∈ (s.peer.updateRail b.2 PeerRail.unbind).rails.map PeerRail.railId
    rw [ids]
    exact kept.listed entry (List.mem_of_mem_erase member)
  case numbers => exact ((List.erase_sublist).map _).trans kept.numbers
  case once => exact kept.once
  case inRange => exact kept.inRange

theorem bind_unbind (peer : Peer) (railId : UInt32) :
    ((peer.bind railId).updateRail railId PeerRail.unbind).bindings = peer.bindings := by
  simp only [Peer.bindings, Peer.bind, Peer.updateRail, List.map_map]
  refine List.map_congr_left fun rail _ => ?_
  simp only [Function.comp_apply]
  by_cases same : rail.railId = railId
  · rw [if_pos same, if_pos (by exact same)]
    simp [Peer.binding, PeerRail.bind, PeerRail.unbind, PeerRail.get, Int32.add_sub_cancel]
  · rw [if_neg same, if_neg same]

theorem Bookkept.addRail (kept : s.Bookkept) {rail : PeerRail} {position : Nat}
    (inside : position ≤ s.peer.rails.length) (unused : rail.nativeQpBindCount = 0)
    (fresh : rail.railId ∉ s.peer.rails.map PeerRail.railId) :
    ({ s with peer := { s.peer with rails := s.peer.rails.insertIdx position rail } } : Placement).Bookkept := by
  have order := List.perm_insertIdx rail s.peer.rails inside
  constructor
  case native => exact kept.native
  case distinct => exact (order.map _).nodup_iff.mpr (List.nodup_cons.mpr ⟨fresh, kept.distinct⟩)
  case counted =>
    intro other member
    rcases List.mem_cons.mp (order.mem_iff.mp member) with rfl | old
    · have none : s.boundTo other.railId = 0 := by
        refine List.countP_eq_zero.mpr fun b member => ?_
        simp only [decide_eq_true_eq]
        exact fun same => fresh (same ▸ kept.listed b member)
      rw [unused]
      exact congrArg Nat.cast none.symm
    · exact kept.counted other old
  case listed =>
    exact fun b member => (order.map _).mem_iff.mpr (List.mem_cons_of_mem _ (kept.listed b member))
  case numbers => exact kept.numbers
  case once => exact kept.once
  case inRange => exact kept.inRange

theorem Bookkept.removeRail (kept : s.Bookkept) {railId : UInt32} (free : railId ∉ s.bound.map Prod.snd) :
    ({ s with peer := { s.peer with rails := s.peer.rails.filter fun rail => rail.railId ≠ railId } } :
      Placement).Bookkept := by
  constructor
  case native => exact kept.native
  case distinct => exact kept.distinct.sublist ((List.filter_sublist).map _)
  case counted => exact fun rail member => kept.counted rail (List.mem_of_mem_filter member)
  case listed =>
    intro b member
    obtain ⟨rail, listed, named⟩ := List.mem_map.mp (kept.listed b member)
    refine List.mem_map.mpr ⟨rail, List.mem_filter.mpr ⟨listed, decide_eq_true fun same => ?_⟩, named⟩
    exact free (List.mem_map.mpr ⟨b, member, named.symm.trans same⟩)
  case numbers => exact kept.numbers
  case once => exact kept.once
  case inRange => exact kept.inRange

theorem Bookkept.step (kept : s.Bookkept) {action : PlacementAction} {after : Placement}
    (stepped : placementSystem.step s action = some after) : after.Bookkept := by
  cases action with
  | createQp home qpn =>
      simp only [placementSystem, placementStep] at stepped
      rcases select_cases kept.native home with refused | ⟨best, least, chosen⟩
      · simp only [refused, Option.some.injEq] at stepped
        exact stepped ▸ kept
      · have listed : best.railId ∈ s.peer.rails.map PeerRail.railId :=
          List.mem_map_of_mem ((Peer.leastRail_eq_some kept.distinct).mp least).1
        rw [chosen] at stepped
        cases qpn with
        | none =>
            simp only [Option.some.injEq] at stepped
            subst stepped
            exact kept.rebound kept.native (.of_eq (bind_unbind s.peer best.railId))
        | some qpn =>
            simp only [Option.ite_none_right_eq_some, Option.some.injEq] at stepped
            obtain ⟨⟨-, top, fresh⟩, rfl⟩ := stepped
            exact kept.bind listed top fresh
  | destroyQp qpn =>
      simp only [placementSystem, placementStep, Option.map_eq_some_iff] at stepped
      obtain ⟨b, found, rfl⟩ := stepped
      exact kept.unbind (List.mem_of_find?_eq_some found)
  | addRail rail position =>
      simp only [placementSystem, placementStep, Option.ite_none_right_eq_some, Option.some.injEq] at stepped
      obtain ⟨⟨inside, unused, fresh⟩, rfl⟩ := stepped
      exact kept.addRail inside unused fresh
  | removeRail railId =>
      simp only [placementSystem, placementStep, Option.ite_none_left_eq_some, Option.some.injEq] at stepped
      obtain ⟨free, rfl⟩ := stepped
      exact kept.removeRail free
  | background rails =>
      simp only [placementSystem, placementStep, Option.ite_none_right_eq_some, Option.some.injEq] at stepped
      obtain ⟨same, rfl⟩ := stepped
      exact kept.rebound kept.native same

theorem bookkept_of_reachable (reachable : placementSystem.Reachable s) : s.Bookkept := by
  apply reachable.invariant
  · intro start ⟨native, distinct, unused, bound, taken⟩
    constructor
    case native => exact native
    case distinct => exact distinct
    case counted =>
      intro rail member
      rw [unused rail member, boundTo, bound]
      rfl
    case listed => simp [bound]
    case numbers => simp [bound]
    case once => simp [taken]
    case inRange => simp [taken]
  · exact fun _ _ _ kept _ stepped => kept.step stepped

end Placement

/-! ### Balance -/

theorem PeerRail.qps_toNat {rail : PeerRail} {n : Nat} (counted : rail.nativeQpBindCount.toInt = n) :
    rail.qps.toNat = n := by
  have nonneg : (0 : Int32) ≤ rail.nativeQpBindCount := by
    rw [Int32.le_iff_toInt_le, counted]
    exact Int.natCast_nonneg n
  have clamped : max rail.nativeQpBindCount 0 = rail.nativeQpBindCount := by
    show (if rail.nativeQpBindCount ≤ 0 then 0 else rail.nativeQpBindCount) = rail.nativeQpBindCount
    split
    · rename_i nonpos
      exact Int32.le_antisymm nonneg nonpos
    · rfl
  rw [qps, clamped, Int32.toNat_toUInt32_of_le nonneg]
  exact (congrArg Int.toNat counted).trans (Int.toNat_natCast n)

namespace Placement

variable {s after : Placement}

theorem withinOne_iff (kept : s.Bookkept) :
    s.peer.WithinOne ↔
      ∀ a ∈ s.peer.eligibleIds, ∀ b ∈ s.peer.eligibleIds, s.boundTo a ≤ s.boundTo b + 1 := by
  constructor
  · intro within a first b second
    obtain ⟨rail, member, rfl⟩ := List.mem_map.mp first
    obtain ⟨other, elsewhere, rfl⟩ := List.mem_map.mp second
    rw [List.mem_filter] at member elsewhere
    have near := within rail member.1 other elsewhere.1 member.2 elsewhere.2
    rw [kept.counted rail member.1, kept.counted other elsewhere.1] at near
    exact_mod_cast near
  · intro near a first b second eligible alike
    rw [kept.counted a first, kept.counted b second]
    exact_mod_cast near _ (List.mem_map_of_mem (List.mem_filter.mpr ⟨first, eligible⟩)) _
      (List.mem_map_of_mem (List.mem_filter.mpr ⟨second, alike⟩))

theorem Bookkept.least (kept : s.Bookkept) {best : PeerRail} (least : s.peer.leastRail = some best) {railId : UInt32}
    (listed : railId ∈ s.peer.eligibleIds) : s.boundTo best.railId ≤ s.boundTo railId := by
  obtain ⟨member, -, below⟩ := (Peer.leastRail_eq_some kept.distinct).mp least
  obtain ⟨rail, eligible, rfl⟩ := List.mem_map.mp listed
  rw [List.mem_filter] at eligible
  by_cases same : rail = best
  · rw [same]
  · have less := below rail eligible.1 eligible.2 same
    simp only [PeerRail.rank, Prod.Lex.toLex_lt_toLex, PeerRail.qps_toNat (kept.counted best member),
      PeerRail.qps_toNat (kept.counted rail eligible.1)] at less
    omega

theorem withinOne_least {ι : Type} [DecidableEq ι] {load more : ι → Nat} {eligible : List ι} {best : ι}
    (least : ∀ i ∈ eligible, load best ≤ load i)
    (added : ∀ i, more i = if i = best then load i + 1 else load i)
    (within : ∀ i ∈ eligible, ∀ j ∈ eligible, load i ≤ load j + 1) :
    ∀ i ∈ eligible, ∀ j ∈ eligible, more i ≤ more j + 1 := by
  intro i first j second
  have near := within i first j second
  have above := least j second
  rw [added i, added j]
  by_cases chosen : i = best
  · subst chosen
    rw [if_pos rfl]
    split <;> omega
  · rw [if_neg chosen]
    split <;> omega

theorem Bookkept.withinOne_step (kept : s.Bookkept) (selecting : Selecting s after) (within : s.peer.WithinOne) :
    after.peer.WithinOne := by
  obtain ⟨action, places, stepped, fixed⟩ := selecting
  have later := kept.step stepped
  rw [withinOne_iff kept] at within
  rw [withinOne_iff later]
  -- every other action leaves the bound QPs as they are
  have still (same : after.bound = s.bound) : ∀ a ∈ after.peer.eligibleIds, ∀ b ∈ after.peer.eligibleIds,
      after.boundTo a ≤ after.boundTo b + 1 := by
    intro a first b second
    rw [boundTo, boundTo, same]
    exact within a ((fixed a).mp first) b ((fixed b).mp second)
  cases action with
  | createQp home qpn =>
      cases qpn with
      | none => cases places
      | some qpn =>
          simp only [placementSystem, placementStep] at stepped
          rcases select_cases kept.native home with refused | ⟨best, least, chosen⟩
          · simp only [refused, Option.some.injEq] at stepped
            exact still (congrArg Placement.bound stepped.symm)
          · simp only [chosen, Option.ite_none_right_eq_some, Option.some.injEq] at stepped
            obtain ⟨-, rfl⟩ := stepped
            apply withinOne_least (fun i listed => kept.least least ((fixed i).mp listed))
            · intro i
              show ((qpn, best.railId) :: s.bound).countP (fun b => b.2 = i) = _
              split
              · rename_i same
                exact List.countP_cons_of_pos (by simp [same])
              · rename_i other
                exact List.countP_cons_of_neg (by simpa using fun equal => other equal.symm)
            · exact fun i first j second => within i ((fixed i).mp first) j ((fixed j).mp second)
  | destroyQp qpn => cases places
  | addRail rail position =>
      simp only [placementSystem, placementStep, Option.ite_none_right_eq_some, Option.some.injEq] at stepped
      exact still (by rw [← stepped.2])
  | removeRail railId =>
      simp only [placementSystem, placementStep, Option.ite_none_left_eq_some, Option.some.injEq] at stepped
      exact still (by rw [← stepped.2])
  | background rails =>
      simp only [placementSystem, placementStep, Option.ite_none_right_eq_some, Option.some.injEq] at stepped
      exact still (by rw [← stepped.2])

/-- A create that keeps its QP never changes which rails are eligible. -/
theorem selecting_create (native : s.peer.backend = .native) {home : PeerRail} {qpn : Nat}
    (stepped : placementSystem.step s (.createQp home (some qpn)) = some after) : Selecting s after := by
  refine ⟨.createQp home (some qpn), rfl, stepped, fun railId => ?_⟩
  simp only [placementSystem, placementStep] at stepped
  rcases select_cases native home with refused | ⟨best, -, chosen⟩
  · simp only [refused, Option.some.injEq] at stepped
    rw [stepped]
  · simp only [chosen, Option.ite_none_right_eq_some, Option.some.injEq] at stepped
    obtain ⟨-, rfl⟩ := stepped
    have same : (s.peer.bind best.railId).eligibleIds = s.peer.eligibleIds :=
      Peer.eligibleIds_updateRail (fun _ => rfl) fun _ => rfl
    rw [same]

theorem withinOne_run (reachable : placementSystem.Reachable s) (run : Relation.ReflTransGen Selecting s after)
    (within : s.peer.WithinOne) : placementSystem.Reachable after ∧ after.peer.WithinOne := by
  induction run with
  | refl => exact ⟨reachable, within⟩
  | tail _ selecting ih =>
      have balanced := (bookkept_of_reachable ih.1).withinOne_step selecting ih.2
      obtain ⟨_, _, stepped, _⟩ := selecting
      exact ⟨.step ih.1 trivial stepped, balanced⟩

end Placement

/-- A native QP goes to the eligible rail of least rank, wherever that rail is on the list, and to none only where
no rail is eligible. However many QPs are then placed, with whatever frames pending, bind counts of the eligible
rails that are within one of each other stay so. -/
theorem qp_placement (home : PeerRail) (peer : Peer) (publishReady : Bool) (stays : home.rail.removing = false)
    (native : peer.backend = .native) (distinct : peer.Distinct) :
    (∀ rail, (selectQpRail (some home) (some peer) .native false publishReady).rail = some rail ↔
      rail ∈ peer.rails ∧ rail.eligible = true ∧
        ∀ other ∈ peer.rails, other.eligible = true → other ≠ rail →
          rail.rank peer.nativeQpRrRailId < other.rank peer.nativeQpRrRailId) ∧
    ((selectQpRail (some home) (some peer) .native false publishReady).rail = none ↔
      ∀ rail ∈ peer.rails, rail.eligible = false) ∧
    (∀ rails, rails.Perm peer.rails →
      (selectQpRail (some home) (some { peer with rails }) .native false publishReady).rail =
        (selectQpRail (some home) (some peer) .native false publishReady).rail) ∧
    ∀ s after, placementSystem.Reachable s → Relation.ReflTransGen Selecting s after → s.peer.WithinOne →
      after.peer.WithinOne := by
  have chosen (peer : Peer) (native : peer.backend = .native) :
      (selectQpRail (some home) (some peer) .native false publishReady).rail = peer.leastRail := by
    rw [selectQpRail_native publishReady stays native]
    cases peer.leastRail <;> rfl
  rw [chosen peer native]
  refine ⟨fun rail => Peer.leastRail_eq_some distinct, Peer.leastRail_eq_none, fun rails order => ?_, ?_⟩
  · rw [chosen { peer with rails } native]
    exact Peer.leastRail_perm distinct order
  · exact fun s after reachable run within => (Placement.withinOne_run reachable run within).2

/-- A data-ready rail with a device. -/
def readyRail (railId : UInt32) : PeerRail where
  rail :=
    let rail := Rail.added ⟨64, 64, by decide, by decide⟩
    { rail.setPath { rail.link.path with state := .tunnelEnabled } with
      nativeReadySent := true, nativeRemoteReady := true }
  railId
  ibdev := true

def twoRails : Placement where
  peer := { backend := .native, rails := [readyRail 0, readyRail 1], nativeQpRrRailId := 1 }
  bound := []
  taken := []

/-- The turn is with rail 1, then with rail 0. -/
theorem qp_placement_twoRails :
    (selectQpRail (some (readyRail 0)) (some twoRails.peer) .native false true).rail = some (readyRail 1) ∧
      ∃ after : Placement, after.bound = [(0x901, 0), (0x900, 1)] ∧ after.peer.WithinOne := by
  obtain ⟨chosen, -, -, balanced⟩ :=
    qp_placement (readyRail 0) twoRails.peer true rfl rfl (by decide)
  have start : placementSystem.init twoRails := ⟨rfl, by decide, by decide, rfl, rfl⟩
  refine ⟨(chosen (readyRail 1)).mpr (by decide +kernel), ?_⟩
  let once := (placementSystem.step twoRails (.createQp (readyRail 0) (some 0x900))).get (by decide +kernel)
  let twice := (placementSystem.step once (.createQp (readyRail 0) (some 0x901))).get (by decide +kernel)
  have first : placementSystem.step twoRails (.createQp (readyRail 0) (some 0x900)) = some once :=
    (Option.some_get _).symm
  have second : placementSystem.step once (.createQp (readyRail 0) (some 0x901)) = some twice :=
    (Option.some_get _).symm
  have run : Relation.ReflTransGen Selecting twoRails twice :=
    (Relation.ReflTransGen.single (Placement.selecting_create rfl first)).tail
      (Placement.selecting_create (by decide +kernel) second)
  exact ⟨twice, by decide +kernel, balanced twoRails twice (.init start) run (by decide +kernel)⟩

end ThunderboltVerbs.Driver
