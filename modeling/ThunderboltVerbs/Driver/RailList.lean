import ThunderboltVerbs.Config.Transport
import ThunderboltVerbs.Lib.Ordered
import ThunderboltVerbs.Lib.System
import ThunderboltVerbs.Proto.NativeData
import Mathlib.Data.Finset.Card
import Mathlib.Data.Finset.Range
import Mathlib.Data.List.Perm.Basic
import Mathlib.Data.Prod.Lex

/-!
# The rails of a peer (`kernel/peer.c`, `kernel/rail.c`)

A rail takes its id before the state lock is taken and gives it back after the lock is dropped, so calls on
one peer can run between the steps of one another.
-/

namespace ThunderboltVerbs.Driver
open Proto Lib Config
open scoped List

/-! ## Keys -/

structure RailKey where
  route : UInt64
  localAdapter : UInt32
  remoteAdapter : UInt32
  pathId : UInt32
  deriving DecidableEq, Repr

attribute [ext] RailKey

def railKeyCmp (a b : RailKey) : Int :=
  if a.route < b.route then -1
  else if a.route > b.route then 1
  else if a.localAdapter < b.localAdapter then -1
  else if a.localAdapter > b.localAdapter then 1
  else if a.remoteAdapter < b.remoteAdapter then -1
  else if a.remoteAdapter > b.remoteAdapter then 1
  else if a.pathId < b.pathId then -1
  else if a.pathId > b.pathId then 1
  else 0

def RailKey.rank (key : RailKey) : Nat ×ₗ Nat ×ₗ Nat ×ₗ Nat :=
  toLex (key.route.toNat, toLex (key.localAdapter.toNat, toLex (key.remoteAdapter.toNat, key.pathId.toNat)))

/-- The comparison is that of a total order. -/
theorem railKeyCmp_neg_iff (a b : RailKey) : railKeyCmp a b < 0 ↔ a.rank < b.rank := by
  simp only [railKeyCmp, RailKey.rank, Prod.Lex.toLex_lt_toLex, gt_iff_lt, UInt64.lt_iff_toNat_lt,
    UInt32.lt_iff_toNat_lt]
  split_ifs <;> omega

theorem railKeyCmp_eq_zero_iff (a b : RailKey) : railKeyCmp a b = 0 ↔ a = b := by
  constructor
  · obtain ⟨route, localAdapter, remoteAdapter, pathId⟩ := a
    obtain ⟨route', localAdapter', remoteAdapter', pathId'⟩ := b
    simp only [railKeyCmp, RailKey.mk.injEq, gt_iff_lt, UInt64.lt_iff_toNat_lt, UInt32.lt_iff_toNat_lt,
      ← UInt64.toNat_inj, ← UInt32.toNat_inj]
    intro equal
    split_ifs at equal <;> omega
  · rintro rfl
    simp only [railKeyCmp, gt_iff_lt, UInt64.lt_irrefl, UInt32.lt_irrefl, if_false]

theorem RailKey.rank_inj {a b : RailKey} : a.rank = b.rank ↔ a = b := by
  constructor
  · intro same
    simpa [RailKey.rank, UInt64.toNat_inj, UInt32.toNat_inj, RailKey.ext_iff] using same
  · rintro rfl
    rfl

/-! ## Peers and calls -/

structure ListedRail where
  key : RailKey
  railId : Nat
  nativeLane : UInt32
  removing : Bool := false
  deriving DecidableEq, Repr

/-- A running call that holds a rail id and whose rail is not on the list. A call of `tbv_peer_remove_rail`
before its second section is the mark on its rail. -/
inductive RailCall
  | adding (key : RailKey) (nativeLane : UInt32) (railId : Nat)
  | freeing (railId : Nat)
  deriving DecidableEq, Repr

def RailCall.railId : RailCall → Nat
  | .adding _ _ railId => railId
  | .freeing railId => railId

structure RailPeer where
  backend : BackendType
  rails : List ListedRail := []
  nrRails : UInt32 := 0
  /-- The ids that the `ida` of the peer has handed out. -/
  railIds : List Nat := []
  calls : List RailCall := []
  deriving DecidableEq

structure RailState where
  nativeControlSourceAware : Bool
  peers : List RailPeer
  deriving DecidableEq

def RailState.setPeer (s : RailState) (p : Nat) (peer : RailPeer) : RailState :=
  { s with peers := s.peers.set p peer }

/-- `tbv_native_legacy_rail_key_allowed_locked`: no other native peer has a rail with this key. -/
def RailState.nativeLegacyRailKeyAllowed (s : RailState) (p : Nat) (key : RailKey) : Bool :=
  s.peers.zipIdx.all fun (posPeer, q) =>
    posPeer.backend ≠ .native || posPeer.rails.all fun posRail =>
      q = p || railKeyCmp key posRail.key ≠ 0

/-- The check in front of the walk over the list passes. -/
def RailState.keyAllowed (s : RailState) (p : Nat) (peer : RailPeer) (key : RailKey) : Bool :=
  !(peer.backend = .native && !s.nativeControlSourceAware && !s.nativeLegacyRailKeyAllowed p key)

/-- The walk over `peer->rails`. -/
def insertRail (rail : ListedRail) : List ListedRail → Except Errno (List ListedRail)
  | [] => .ok [rail]
  | pos :: rest =>
      let cmp := railKeyCmp rail.key pos.key
      if cmp = 0 then .error .eExist
      else if cmp < 0 then .ok (rail :: pos :: rest)
      else (insertRail rail rest).map (pos :: ·)

/-- The section of `tbv_peer_add_rail` under the lock: the peer with the rail on its list. -/
def RailState.linkRail (s : RailState) (p : Nat) (peer : RailPeer) (rail : ListedRail) :
    Except Errno RailPeer :=
  if !s.keyAllowed p peer rail.key then .error .eBusy
  else (insertRail rail peer.rails).map fun rails =>
    { peer with rails := rails, nrRails := peer.nrRails + 1 }

/-- What `ida_alloc` may answer: an error, or an id that is not in use. -/
def RailPeer.mayAlloc (peer : RailPeer) (ida : Except Errno Nat) : Bool :=
  match ida with
  | .error _ => true
  | .ok railId => railId < 2 ^ 31 && !peer.railIds.contains railId

/-! ## Whole calls -/

/-- `tbv_peer_add_rail`; `kzalloc` and `ida` are the answers of the two allocations. -/
def RailState.addRail (s : RailState) (p : Nat) (peer : RailPeer) (key : RailKey) (nativeLane : UInt32)
    (kzalloc : Bool) (ida : Except Errno Nat) : RailState × Except Errno ListedRail :=
  if !kzalloc then (s, .error .eNoMem)
  else
    match ida with
    | .error err => (s, .error err)
    | .ok railId =>
        let rail := { key := key, railId := railId, nativeLane := nativeLane }
        let taken := { peer with railIds := railId :: peer.railIds }
        match s.linkRail p taken rail with
        | .error err => (s.setPeer p { taken with railIds := taken.railIds.erase railId }, .error err)
        | .ok linked => (s.setPeer p linked, .ok rail)

def RailPeer.unlink (peer : RailPeer) (i : Nat) : RailPeer :=
  { peer with
    rails := peer.rails.eraseIdx i
    nrRails := if peer.nrRails ≠ 0 then peer.nrRails - 1 else 0 }

/-- `tbv_peer_remove_rail` on the rail at the place `i` of the list. -/
def RailState.removeRail (s : RailState) (p : Nat) (peer : RailPeer) (i : Nat) (rail : ListedRail) : RailState :=
  s.setPeer p { peer.unlink i with railIds := peer.railIds.erase rail.railId }

/-! ## Calls section by section -/

inductive RailAction
  /-- A call of `tbv_peer_add_rail` up to its lock. -/
  | allocate (key : RailKey) (nativeLane : UInt32) (kzalloc : Bool) (ida : Except Errno Nat)
  | link (call : Nat)
  /-- A call of `tbv_peer_remove_rail` begins, and goes on once the references to the rail are gone. -/
  | mark (i : Nat)
  | unlink (i : Nat)
  | free (call : Nat)

def RailState.stepPeer (s : RailState) (p : Nat) (peer : RailPeer) : RailAction → Option RailPeer
  | .allocate key nativeLane kzalloc ida =>
      if !peer.mayAlloc ida then none
      else if !kzalloc then some peer
      else
        match ida with
        | .error _ => some peer
        | .ok railId =>
            some { peer with
              railIds := railId :: peer.railIds
              calls := .adding key nativeLane railId :: peer.calls }
  | .link call =>
      match peer.calls[call]? with
      | some (.adding key nativeLane railId) =>
          match s.linkRail p peer { key := key, railId := railId, nativeLane := nativeLane } with
          | .error _ => some { peer with calls := peer.calls.set call (.freeing railId) }
          | .ok linked => some { linked with calls := linked.calls.eraseIdx call }
      | _ => none
  | .mark i =>
      peer.rails[i]?.bind fun rail =>
        if rail.removing then none
        else some { peer with rails := peer.rails.set i { rail with removing := true } }
  | .unlink i =>
      peer.rails[i]?.bind fun rail =>
        if rail.removing then
          some { peer.unlink i with calls := .freeing rail.railId :: peer.calls }
        else none
  | .free call =>
      match peer.calls[call]? with
      | some (.freeing railId) =>
          some { peer with
            railIds := peer.railIds.erase railId
            calls := peer.calls.eraseIdx call }
      | _ => none

def RailState.step (s : RailState) (action : Nat × RailAction) : Option RailState :=
  s.peers[action.1]?.bind fun peer => (s.stepPeer action.1 peer action.2).map (s.setPeer action.1)

/-- Any number of peers without rails, and any calls on them. -/
def railSystem : System RailState (Nat × RailAction) where
  init s := ∀ peer ∈ s.peers, peer = { backend := peer.backend }
  step := RailState.step

/-! ## The insertion -/

def ListedRail.rank (rail : ListedRail) : Nat ×ₗ Nat ×ₗ Nat ×ₗ Nat := rail.key.rank

theorem insertRail_eq (rail : ListedRail) (rails : List ListedRail) :
    insertRail rail rails =
      match insertNew ListedRail.rank rail rails with
      | none => .error .eExist
      | some inserted => .ok inserted := by
  induction rails with
  | nil => rfl
  | cons pos rest ih =>
      have same : rail.rank = pos.rank ↔ railKeyCmp rail.key pos.key = 0 := by
        rw [railKeyCmp_eq_zero_iff]
        exact RailKey.rank_inj
      have before : rail.rank < pos.rank ↔ railKeyCmp rail.key pos.key < 0 := (railKeyCmp_neg_iff _ _).symm
      simp only [insertRail, insertNew, same, before, ih]
      split
      · rfl
      split
      · rfl
      · cases insertNew ListedRail.rank rail rest <;> rfl

section Link

variable {s : RailState} {p : Nat} {peer linked : RailPeer} {rail : ListedRail}

theorem linkRail_ok (link : s.linkRail p peer rail = .ok linked) :
    s.keyAllowed p peer rail.key = true ∧
      ∃ rails, insertNew ListedRail.rank rail peer.rails = some rails ∧
        linked = { peer with rails := rails, nrRails := peer.nrRails + 1 } := by
  unfold RailState.linkRail at link
  split at link
  · cases link
  rename_i allowed
  rw [insertRail_eq] at link
  cases walk : insertNew ListedRail.rank rail peer.rails with
  | none =>
      rw [walk] at link
      cases link
  | some rails =>
      rw [walk] at link
      cases link
      exact ⟨by simpa using allowed, rails, rfl, rfl⟩

theorem linkRail_exists_iff (increasing : Increasing ListedRail.rank peer.rails)
    (allowed : s.keyAllowed p peer rail.key = true) :
    s.linkRail p peer rail = .error .eExist ↔ ∃ other ∈ peer.rails, other.key = rail.key := by
  have same : (∃ other ∈ peer.rails, other.key = rail.key) ↔
      insertNew ListedRail.rank rail peer.rails = none := by
    rw [insertNew_eq_none_iff increasing]
    simp only [ListedRail.rank, RailKey.rank_inj]
  rw [same, RailState.linkRail, allowed, insertRail_eq]
  cases insertNew ListedRail.rank rail peer.rails with
  | none => exact iff_of_true rfl rfl
  | some rails =>
      apply iff_of_false
      · intro failed
        cases failed
      · simp

end Link

/-! ## What holds of every peer -/

/-- Each id that the `ida` has handed out belongs to one rail of the list or to one running call. -/
structure RailPeer.Kept (peer : RailPeer) : Prop where
  increasing : Increasing ListedRail.rank peer.rails
  counted : peer.nrRails.toNat = peer.rails.length
  distinct : peer.railIds.Nodup
  small : ∀ railId ∈ peer.railIds, railId < 2 ^ 31
  held : peer.railIds.Perm (peer.rails.map ListedRail.railId ++ peer.calls.map RailCall.railId)

theorem map_set_same {α β : Type} {f : α → β} {l : List α} {i : Nat} {a b : α} (found : l[i]? = some a)
    (same : f b = f a) : (l.set i b).map f = l.map f := by
  obtain ⟨bound, rfl⟩ := List.getElem?_eq_some_iff.mp found
  rw [List.map_set, same, ← List.map_set, List.set_getElem_self]

theorem perm_eraseIdx_map {α β : Type} (f : α → β) {l : List α} {i : Nat} {a : α} (found : l[i]? = some a) :
    (l.map f).Perm (f a :: (l.eraseIdx i).map f) := by
  obtain ⟨bound, rfl⟩ := List.getElem?_eq_some_iff.mp found
  exact ((List.getElem_cons_eraseIdx_perm bound).map f).symm

theorem Increasing.congr {rails rails' : List ListedRail} (increasing : Increasing ListedRail.rank rails)
    (same : rails'.map ListedRail.key = rails.map ListedRail.key) : Increasing ListedRail.rank rails' := by
  have ranks : ∀ l : List ListedRail, Increasing ListedRail.rank l ↔
      ((l.map ListedRail.key).map RailKey.rank).Pairwise (· < ·) := by
    intro l
    rw [List.map_map, List.pairwise_map]
    rfl
  rw [ranks, same, ← ranks]
  exact increasing

namespace RailPeer.Kept

variable {peer : RailPeer}

theorem ids (kept : peer.Kept) : (peer.rails.map ListedRail.railId).Nodup :=
  (List.nodup_append.mp (kept.held.nodup_iff.mp kept.distinct)).1

theorem length_le (kept : peer.Kept) : peer.rails.length ≤ 2 ^ 31 := by
  have inside : (peer.rails.map ListedRail.railId).toFinset ⊆ Finset.range (2 ^ 31) := by
    intro railId member
    have listed := List.mem_append_left (peer.calls.map RailCall.railId) (List.mem_toFinset.mp member)
    exact Finset.mem_range.mpr (kept.small railId (kept.held.mem_iff.mpr listed))
  have bound := Finset.card_le_card inside
  rwa [List.toFinset_card_of_nodup kept.ids, List.length_map, Finset.card_range] at bound

theorem allocate (kept : peer.Kept) {railId : Nat} (fresh : peer.mayAlloc (.ok railId) = true) (key : RailKey)
    (nativeLane : UInt32) :
    ({ peer with
        railIds := railId :: peer.railIds
        calls := .adding key nativeLane railId :: peer.calls } : RailPeer).Kept := by
  obtain ⟨small, unused⟩ : railId < 2 ^ 31 ∧ railId ∉ peer.railIds := by
    simpa [RailPeer.mayAlloc] using fresh
  refine ⟨kept.increasing, kept.counted, List.nodup_cons.mpr ⟨unused, kept.distinct⟩, ?_, ?_⟩
  · intro other member
    rcases List.mem_cons.mp member with rfl | old
    · exact small
    · exact kept.small other old
  · exact (kept.held.cons railId).trans List.perm_middle.symm

theorem link (kept : peer.Kept) {s : RailState} {p call railId : Nat} {key : RailKey} {nativeLane : UInt32}
    (found : peer.calls[call]? = some (.adding key nativeLane railId)) {linked : RailPeer}
    (link : s.linkRail p peer { key := key, railId := railId, nativeLane := nativeLane } = .ok linked) :
    ({ linked with calls := linked.calls.eraseIdx call } : RailPeer).Kept := by
  obtain ⟨-, rails, walk, rfl⟩ := linkRail_ok link
  have perm := perm_insertNew walk
  refine ⟨kept.increasing.insertNew walk, ?_, kept.distinct, kept.small, ?_⟩
  · -- fewer rails than ids, so the counter does not wrap
    have longer : rails.length = peer.rails.length + 1 := perm.length_eq
    have bound := kept.length_le
    show (peer.nrRails + 1).toNat = rails.length
    rw [UInt32.toNat_add, kept.counted, longer]
    exact Nat.mod_eq_of_lt (by simp only [UInt32.toNat_one]; omega)
  · have rest := perm_eraseIdx_map RailCall.railId found
    calc peer.railIds
      _ ~ peer.rails.map ListedRail.railId ++ peer.calls.map RailCall.railId := kept.held
      _ ~ peer.rails.map ListedRail.railId ++ railId :: (peer.calls.eraseIdx call).map RailCall.railId :=
          rest.append_left _
      _ ~ (railId :: peer.rails.map ListedRail.railId) ++ (peer.calls.eraseIdx call).map RailCall.railId :=
          List.perm_middle
      _ ~ rails.map ListedRail.railId ++ (peer.calls.eraseIdx call).map RailCall.railId :=
          (perm.map ListedRail.railId).symm.append_right _

theorem refuse (kept : peer.Kept) {call railId : Nat} {key : RailKey} {nativeLane : UInt32}
    (found : peer.calls[call]? = some (.adding key nativeLane railId)) :
    ({ peer with calls := peer.calls.set call (.freeing railId) } : RailPeer).Kept := by
  refine ⟨kept.increasing, kept.counted, kept.distinct, kept.small, ?_⟩
  show peer.railIds.Perm (_ ++ (peer.calls.set call (.freeing railId)).map RailCall.railId)
  rw [map_set_same found (show (RailCall.freeing railId).railId = _ from rfl)]
  exact kept.held

theorem mark (kept : peer.Kept) {i : Nat} {rail : ListedRail} (found : peer.rails[i]? = some rail) :
    ({ peer with rails := peer.rails.set i { rail with removing := true } } : RailPeer).Kept := by
  refine ⟨Increasing.congr kept.increasing (map_set_same found rfl), ?_, kept.distinct, kept.small, ?_⟩
  · exact kept.counted.trans (List.length_set ..).symm
  · show peer.railIds.Perm ((peer.rails.set i { rail with removing := true }).map ListedRail.railId ++ _)
    rw [map_set_same found (show ({ rail with removing := true } : ListedRail).railId = _ from rfl)]
    exact kept.held

theorem unlink (kept : peer.Kept) {i : Nat} {rail : ListedRail} (found : peer.rails[i]? = some rail) :
    ({ peer.unlink i with calls := .freeing rail.railId :: peer.calls } : RailPeer).Kept := by
  obtain ⟨bound, -⟩ := List.getElem?_eq_some_iff.mp found
  refine ⟨kept.increasing.sublist (List.eraseIdx_sublist ..), ?_, kept.distinct, kept.small, ?_⟩
  · have counted := kept.counted
    have nonzero : peer.nrRails ≠ 0 := by
      rintro zero
      rw [zero] at counted
      simp at counted
      omega
    have one : (1 : UInt32) ≤ peer.nrRails := by
      rw [UInt32.le_iff_toNat_le]
      show 1 ≤ peer.nrRails.toNat
      omega
    show (if peer.nrRails ≠ 0 then peer.nrRails - 1 else 0).toNat = (peer.rails.eraseIdx i).length
    rw [if_pos nonzero, UInt32.toNat_sub_of_le _ _ one, List.length_eraseIdx_of_lt bound, counted]
    rfl
  · calc peer.railIds
      _ ~ peer.rails.map ListedRail.railId ++ peer.calls.map RailCall.railId := kept.held
      _ ~ (rail.railId :: (peer.rails.eraseIdx i).map ListedRail.railId) ++ peer.calls.map RailCall.railId :=
          (perm_eraseIdx_map ListedRail.railId found).append_right _
      _ ~ (peer.rails.eraseIdx i).map ListedRail.railId ++ rail.railId :: peer.calls.map RailCall.railId :=
          List.perm_middle.symm

theorem free (kept : peer.Kept) {call railId : Nat} (found : peer.calls[call]? = some (.freeing railId)) :
    ({ peer with railIds := peer.railIds.erase railId, calls := peer.calls.eraseIdx call } : RailPeer).Kept := by
  refine ⟨kept.increasing, kept.counted, kept.distinct.erase railId,
    fun other member => kept.small other (List.mem_of_mem_erase member), ?_⟩
  have rest := perm_eraseIdx_map RailCall.railId found
  have held : peer.railIds ~
      railId :: (peer.rails.map ListedRail.railId ++ (peer.calls.eraseIdx call).map RailCall.railId) :=
    kept.held.trans ((rest.append_left _).trans List.perm_middle)
  simpa using held.erase railId

end RailPeer.Kept

/-! ## Runs -/

/-- What a section can do to its peer. -/
inductive PeerMove (s : RailState) (p : Nat) (peer : RailPeer) : RailPeer → Prop
  | stay : PeerMove s p peer peer
  | allocate {railId : Nat} (may : peer.mayAlloc (.ok railId) = true) (key : RailKey) (nativeLane : UInt32) :
      PeerMove s p peer { peer with
        railIds := railId :: peer.railIds
        calls := .adding key nativeLane railId :: peer.calls }
  | refuse {call railId : Nat} {key : RailKey} {nativeLane : UInt32}
      (found : peer.calls[call]? = some (.adding key nativeLane railId)) :
      PeerMove s p peer { peer with calls := peer.calls.set call (.freeing railId) }
  | link {call railId : Nat} {key : RailKey} {nativeLane : UInt32}
      (found : peer.calls[call]? = some (.adding key nativeLane railId)) {linked : RailPeer}
      (link : s.linkRail p peer { key := key, railId := railId, nativeLane := nativeLane } = .ok linked) :
      PeerMove s p peer { linked with calls := linked.calls.eraseIdx call }
  | mark {i : Nat} {rail : ListedRail} (found : peer.rails[i]? = some rail) :
      PeerMove s p peer { peer with rails := peer.rails.set i { rail with removing := true } }
  | unlink {i : Nat} {rail : ListedRail} (found : peer.rails[i]? = some rail) :
      PeerMove s p peer { peer.unlink i with calls := .freeing rail.railId :: peer.calls }
  | free {call railId : Nat} (found : peer.calls[call]? = some (.freeing railId)) :
      PeerMove s p peer { peer with railIds := peer.railIds.erase railId, calls := peer.calls.eraseIdx call }

theorem stepPeer_move {s : RailState} {p : Nat} {peer next : RailPeer} {action : RailAction}
    (step : s.stepPeer p peer action = some next) : PeerMove s p peer next := by
  cases action with
  | allocate key nativeLane kzalloc ida =>
      simp only [RailState.stepPeer] at step
      split at step
      · cases step
      rename_i may
      split at step
      · cases step
        exact .stay
      cases ida with
      | error err =>
          cases step
          exact .stay
      | ok railId =>
          cases step
          exact .allocate (by simpa using may) key nativeLane
  | link call =>
      simp only [RailState.stepPeer] at step
      split at step
      · rename_i key nativeLane railId found
        split at step
        · cases step
          exact .refuse found
        · rename_i linked link
          cases step
          exact .link found link
      · cases step
  | mark i =>
      obtain ⟨rail, found, step⟩ := Option.bind_eq_some_iff.mp step
      split at step
      · cases step
      · cases step
        exact .mark found
  | unlink i =>
      obtain ⟨rail, found, step⟩ := Option.bind_eq_some_iff.mp step
      split at step
      · cases step
        exact .unlink found
      · cases step
  | free call =>
      simp only [RailState.stepPeer] at step
      split at step
      · rename_i railId found
        cases step
        exact .free found
      · cases step

theorem stepPeer_kept {s : RailState} {p : Nat} {peer next : RailPeer} (kept : peer.Kept) {action : RailAction}
    (step : s.stepPeer p peer action = some next) : next.Kept := by
  cases stepPeer_move step with
  | stay => exact kept
  | allocate may key nativeLane => exact kept.allocate may key nativeLane
  | refuse found => exact kept.refuse found
  | link found link => exact kept.link found link
  | mark found => exact kept.mark found
  | unlink found => exact kept.unlink found
  | free found => exact kept.free found

theorem step_ok {s s' : RailState} {p : Nat} {action : RailAction} (step : s.step (p, action) = some s') :
    ∃ peer next, s.peers[p]? = some peer ∧ s.stepPeer p peer action = some next ∧ s' = s.setPeer p next := by
  obtain ⟨peer, found, step⟩ := Option.bind_eq_some_iff.mp step
  obtain ⟨next, moved, rfl⟩ := Option.map_eq_some_iff.mp step
  exact ⟨peer, next, found, moved, rfl⟩

theorem peers_kept {s : RailState} (reachable : railSystem.Reachable s) : ∀ peer ∈ s.peers, peer.Kept := by
  have base (s) (start : railSystem.init s) : ∀ peer ∈ s.peers, peer.Kept := by
    intro peer member
    rw [start peer member]
    exact ⟨.nil, rfl, .nil, by simp, .nil⟩
  apply reachable.invariant base
  rintro s ⟨p, action⟩ s' kept - step peer member
  obtain ⟨old, next, found, moved, rfl⟩ := step_ok step
  rcases List.mem_or_eq_of_mem_set member with same | rfl
  · exact kept peer same
  · exact stepPeer_kept (kept old (List.mem_of_getElem? found)) moved

/-- What the list of a peer looks like between any two sections of any calls. -/
structure RailPeer.WellKept (peer : RailPeer) : Prop where
  increasing : peer.rails.Pairwise fun a b => railKeyCmp a.key b.key < 0
  keys : (peer.rails.map ListedRail.key).Nodup
  ids : (peer.rails.map ListedRail.railId).Nodup
  counted : peer.nrRails.toNat = peer.rails.length

theorem RailPeer.Kept.wellKept {peer : RailPeer} (kept : peer.Kept) : peer.WellKept where
  increasing := kept.increasing.imp (railKeyCmp_neg_iff _ _).mpr
  keys := by
    have ranks := kept.increasing.nodup
    rw [show peer.rails.map ListedRail.rank = (peer.rails.map ListedRail.key).map RailKey.rank by
      rw [List.map_map]; rfl] at ranks
    exact ranks.of_map
  ids := kept.ids
  counted := kept.counted

theorem setPeer_self {s : RailState} {p : Nat} {peer : RailPeer} (found : s.peers[p]? = some peer) :
    s.setPeer p peer = s := by
  obtain ⟨bound, rfl⟩ := List.getElem?_eq_some_iff.mp found
  rw [RailState.setPeer, List.set_getElem_self]

/-! ## A whole call is its sections in a row -/

section Calls

variable {s : RailState} {p : Nat} {peer : RailPeer}

theorem nativeLegacyRailKeyAllowed_iff {key : RailKey} : s.nativeLegacyRailKeyAllowed p key = true ↔
    ∀ q other, s.peers[q]? = some other → other.backend = .native → q ≠ p →
      ∀ rail ∈ other.rails, rail.key ≠ key := by
  simp only [RailState.nativeLegacyRailKeyAllowed, List.all_eq_true, Prod.forall,
    List.mem_zipIdx_iff_getElem?, Bool.or_eq_true, decide_eq_true_eq, ne_eq, railKeyCmp_eq_zero_iff]
  constructor
  · intro all q other found native apart rail member
    rcases all other q found with foreign | absent
    · exact absurd native foreign
    · exact Ne.symm ((absent rail member).resolve_left apart)
  · intro all other q found
    by_cases native : other.backend = .native
    · right
      intro rail member
      by_cases apart : q = p
      · exact Or.inl apart
      · exact Or.inr (Ne.symm (all q other found native apart rail member))
    · exact Or.inl native

theorem keyAllowed_setPeer (peer same other : RailPeer) (backend : same.backend = peer.backend) (key : RailKey) :
    (s.setPeer p other).keyAllowed p same key = s.keyAllowed p peer key := by
  have others : (s.setPeer p other).nativeLegacyRailKeyAllowed p key = s.nativeLegacyRailKeyAllowed p key := by
    rw [Bool.eq_iff_iff, nativeLegacyRailKeyAllowed_iff, nativeLegacyRailKeyAllowed_iff]
    apply forall₂_congr
    intro q posPeer
    by_cases apart : q = p
    · simp [apart]
    · rw [RailState.setPeer, List.getElem?_set_ne (Ne.symm apart)]
  simp only [RailState.keyAllowed, backend, others]
  rfl

theorem setPeer_setPeer (first second : RailPeer) : (s.setPeer p first).setPeer p second = s.setPeer p second := by
  simp only [RailState.setPeer, List.set_set]

theorem getElem?_setPeer (found : s.peers[p]? = some peer) (next : RailPeer) :
    (s.setPeer p next).peers[p]? = some next :=
  List.getElem?_set_self (List.getElem?_eq_some_iff.mp found).1

theorem reachable_section (reachable : railSystem.Reachable s) (found : s.peers[p]? = some peer)
    (action : RailAction) (next : RailPeer) (step : s.stepPeer p peer action = some next) :
    railSystem.Reachable (s.setPeer p next) := by
  apply System.ReachableVia.step reachable (a := (p, action)) trivial
  show (s.peers[p]?.bind fun peer => (s.stepPeer p peer action).map (s.setPeer p)) = _
  rw [found, Option.bind_some, step, Option.map_some]

theorem linkRail_setPeer (peer other : RailPeer) (rail : ListedRail) (railIds : List Nat) (calls : List RailCall) :
    (s.setPeer p other).linkRail p { peer with railIds := railIds, calls := calls } rail =
      (s.linkRail p { peer with railIds := railIds } rail).map fun linked => { linked with calls := calls } := by
  unfold RailState.linkRail
  rw [keyAllowed_setPeer { peer with railIds := railIds } { peer with railIds := railIds, calls := calls } other rfl]
  split
  · rfl
  · cases insertRail rail peer.rails <;> rfl

theorem reachable_addRail (reachable : railSystem.Reachable s) (found : s.peers[p]? = some peer)
    {ida : Except Errno Nat} (may : peer.mayAlloc ida = true) (key : RailKey) (nativeLane : UInt32)
    (kzalloc : Bool) : railSystem.Reachable (s.addRail p peer key nativeLane kzalloc ida).1 := by
  unfold RailState.addRail
  split
  · exact reachable
  rename_i allocated
  cases ida with
  | error err => exact reachable
  | ok railId =>
      let call := RailCall.adding key nativeLane railId
      let rail : ListedRail := { key := key, railId := railId, nativeLane := nativeLane }
      let waiting : RailPeer := { peer with railIds := railId :: peer.railIds, calls := call :: peer.calls }
      have took : s.stepPeer p peer (.allocate key nativeLane true (.ok railId)) = some waiting := by
        simp [RailState.stepPeer, may, waiting, call]
      have first := reachable_section reachable found _ waiting took
      have here := getElem?_setPeer found waiting
      have locked :=
        linkRail_setPeer (s := s) (p := p) peer waiting rail (railId :: peer.railIds) (call :: peer.calls)
      simp only
      cases link : s.linkRail p { peer with railIds := railId :: peer.railIds } rail with
      | error err =>
          rw [link] at locked
          let giving : RailPeer := { waiting with calls := .freeing railId :: peer.calls }
          have refused : (s.setPeer p waiting).stepPeer p waiting (.link 0) = some giving := by
            show (match (s.setPeer p waiting).linkRail p waiting rail with
              | .error _ => some { waiting with calls := waiting.calls.set 0 (.freeing railId) }
              | .ok linked => some { linked with calls := linked.calls.eraseIdx 0 }) = some giving
            rw [locked]
            rfl
          have second := reachable_section first here _ giving refused
          have third := reachable_section second (getElem?_setPeer here giving) (.free 0)
            { giving with railIds := giving.railIds.erase railId, calls := peer.calls } rfl
          simpa only [setPeer_setPeer] using third
      | ok linked =>
          rw [link] at locked
          obtain ⟨-, rails, -, rfl⟩ := linkRail_ok link
          have entered : (s.setPeer p waiting).stepPeer p waiting (.link 0) =
              some { peer with
                railIds := railId :: peer.railIds, rails := rails, nrRails := peer.nrRails + 1 } := by
            show (match (s.setPeer p waiting).linkRail p waiting rail with
              | .error _ => some { waiting with calls := waiting.calls.set 0 (.freeing railId) }
              | .ok linked => some { linked with calls := linked.calls.eraseIdx 0 }) = _
            rw [locked]
            rfl
          simpa only [setPeer_setPeer] using reachable_section first here _ _ entered

theorem reachable_removeRail (reachable : railSystem.Reachable s) (found : s.peers[p]? = some peer) {i : Nat}
    {rail : ListedRail} (listed : peer.rails[i]? = some rail) (once : rail.removing = false) :
    railSystem.Reachable (s.removeRail p peer i rail) := by
  obtain ⟨bound, -⟩ := List.getElem?_eq_some_iff.mp listed
  let marked : RailPeer := { peer with rails := peer.rails.set i { rail with removing := true } }
  have marks : s.stepPeer p peer (.mark i) = some marked := by
    simp [RailState.stepPeer, listed, once, marked]
  have first := reachable_section reachable found _ marked marks
  have here := getElem?_setPeer found marked
  let unlinked : RailPeer := { peer.unlink i with calls := .freeing rail.railId :: peer.calls }
  have unlinks : (s.setPeer p marked).stepPeer p marked (.unlink i) = some unlinked := by
    simp [RailState.stepPeer, marked, unlinked, RailPeer.unlink, List.getElem?_set_self bound,
      List.eraseIdx_set_eq]
  have second := reachable_section first here _ unlinked unlinks
  have third := reachable_section second (getElem?_setPeer here unlinked) (.free 0)
    { unlinked with railIds := unlinked.railIds.erase rail.railId, calls := peer.calls } rfl
  rw [setPeer_setPeer, setPeer_setPeer] at third
  exact third

end Calls

theorem addRail_error {s s' : RailState} {p : Nat} {peer : RailPeer} (found : s.peers[p]? = some peer)
    {key : RailKey} {nativeLane : UInt32} {kzalloc : Bool} {ida : Except Errno Nat} {err : Errno}
    (failed : s.addRail p peer key nativeLane kzalloc ida = (s', .error err)) : s' = s := by
  unfold RailState.addRail at failed
  split at failed
  · exact (Prod.mk.inj failed).1.symm
  cases ida with
  | error err => exact (Prod.mk.inj failed).1.symm
  | ok railId =>
      simp only at failed
      split at failed
      · have same := (Prod.mk.inj failed).1
        rw [List.erase_cons_head] at same
        exact same.symm.trans (setPeer_self found)
      · cases (Prod.mk.inj failed).2

theorem addRail_exists_iff {s : RailState} {p : Nat} {peer : RailPeer} (kept : peer.Kept) {key : RailKey}
    (allowed : s.keyAllowed p peer key = true) (nativeLane : UInt32) (railId : Nat) :
    (s.addRail p peer key nativeLane true (.ok railId)).2 = .error .eExist ↔
      ∃ rail ∈ peer.rails, rail.key = key := by
  let taken : RailPeer := { peer with railIds := railId :: peer.railIds }
  let rail : ListedRail := { key := key, railId := railId, nativeLane := nativeLane }
  have refused : s.linkRail p taken rail = .error .eExist ↔ ∃ other ∈ peer.rails, other.key = key :=
    linkRail_exists_iff kept.increasing allowed
  rw [← refused]
  show (match s.linkRail p taken rail with
    | .error err => (s.setPeer p { taken with railIds := taken.railIds.erase railId }, Except.error err)
    | .ok linked => (s.setPeer p linked, .ok rail)).2 = .error .eExist ↔ _
  cases s.linkRail p taken rail <;> simp

/-! ## Keys of different peers -/

theorem stepPeer_keys {s : RailState} {p : Nat} {peer next : RailPeer} {action : RailAction}
    (step : s.stepPeer p peer action = some next) :
    next.backend = peer.backend ∧ ∀ rail ∈ next.rails,
      (∃ old ∈ peer.rails, old.key = rail.key) ∨ s.keyAllowed p peer rail.key = true := by
  have same : ∀ rail ∈ peer.rails,
      (∃ old ∈ peer.rails, old.key = rail.key) ∨ s.keyAllowed p peer rail.key = true :=
    fun rail member => Or.inl ⟨rail, member, rfl⟩
  cases stepPeer_move step with
  | stay | allocate | refuse | free => exact ⟨rfl, same⟩
  | link found link =>
      obtain ⟨allowed, rails, walk, rfl⟩ := linkRail_ok link
      refine ⟨rfl, ?_⟩
      intro rail member
      rcases List.mem_cons.mp ((perm_insertNew walk).mem_iff.mp member) with rfl | old
      · exact Or.inr allowed
      · exact same rail old
  | mark found =>
      refine ⟨rfl, ?_⟩
      intro other member
      rcases List.mem_or_eq_of_mem_set member with old | rfl
      · exact same other old
      · exact Or.inl ⟨_, List.mem_of_getElem? found, rfl⟩
  | unlink => exact ⟨rfl, fun other member => same other (List.mem_of_mem_eraseIdx member)⟩

/-- Where the control messages do not say whom they come from, no two native peers share a rail key. -/
def RailState.LegacyDistinct (s : RailState) : Prop :=
  s.nativeControlSourceAware = false → ∀ (p q : Nat) (a b : RailPeer), p ≠ q → s.peers[p]? = some a →
    s.peers[q]? = some b → a.backend = .native → b.backend = .native →
    ∀ rail ∈ a.rails, ∀ other ∈ b.rails, other.key ≠ rail.key

theorem LegacyDistinct.step {s s' : RailState} {p : Nat} {action : RailAction} (distinct : s.LegacyDistinct)
    (step : s.step (p, action) = some s') : s'.LegacyDistinct := by
  obtain ⟨peer, next, found, moved, rfl⟩ := step_ok step
  obtain ⟨backend, keys⟩ := stepPeer_keys moved
  intro blind
  -- the changed peer against any other one; the rest is symmetric or untouched
  have against : ∀ q b, p ≠ q → s.peers[q]? = some b → next.backend = .native → b.backend = .native →
      ∀ rail ∈ next.rails, ∀ other ∈ b.rails, other.key ≠ rail.key := by
    intro q b apart there native foreign rail member other listed
    rcases keys rail member with ⟨old, was, same⟩ | allowed
    · rw [← same]
      exact distinct blind p q peer b apart found there (backend ▸ native) foreign old was other listed
    · have checked : s.nativeLegacyRailKeyAllowed p rail.key = true := by
        have blind : s.nativeControlSourceAware = false := blind
        simpa [RailState.keyAllowed, ← backend, native, blind] using allowed
      exact nativeLegacyRailKeyAllowed_iff.mp checked q b there foreign (Ne.symm apart) other listed
  intro q r a b apart first second native foreign rail member other listed
  simp only [RailState.setPeer, List.getElem?_set] at first second
  by_cases here : p = q
  · subst here
    rw [if_neg apart] at second
    rw [if_pos rfl, if_pos (List.getElem?_eq_some_iff.mp found).1, Option.some.injEq] at first
    subst first
    exact against r b apart second native foreign rail member other listed
  · rw [if_neg here] at first
    by_cases there : p = r
    · subst there
      rw [if_pos rfl, if_pos (List.getElem?_eq_some_iff.mp found).1, Option.some.injEq] at second
      subst second
      exact Ne.symm (against q a here first foreign native other listed rail member)
    · rw [if_neg there] at second
      exact distinct blind q r a b apart first second native foreign rail member other listed

theorem legacy_keys_distinct {s : RailState} (reachable : railSystem.Reachable s) : s.LegacyDistinct := by
  have base (s) (start : railSystem.init s) : s.LegacyDistinct := by
    intro _ p _ a _ _ found _ _ _ rail member
    rw [start a (List.mem_of_getElem? found)] at member
    cases member
  apply reachable.invariant base
  rintro s ⟨p, action⟩ s' distinct - step
  exact LegacyDistinct.step distinct step

/-! ## The list over all runs -/

theorem peer_rail_list {s : RailState} (reachable : railSystem.Reachable s) :
    (∀ peer ∈ s.peers, peer.WellKept) ∧
      (∀ p peer key nativeLane kzalloc ida s' err, s.peers[p]? = some peer →
        s.addRail p peer key nativeLane kzalloc ida = (s', .error err) → s' = s) ∧
      ∀ p peer key nativeLane railId, s.peers[p]? = some peer → s.keyAllowed p peer key = true →
        ((s.addRail p peer key nativeLane true (.ok railId)).2 = .error .eExist ↔
          ∃ rail ∈ peer.rails, rail.key = key) := by
  have kept := peers_kept reachable
  refine ⟨fun peer member => (kept peer member).wellKept, ?_, ?_⟩
  · intro p peer key nativeLane kzalloc ida s' err found failed
    exact addRail_error found failed
  · intro p peer key nativeLane railId found allowed
    exact addRail_exists_iff (kept peer (List.mem_of_getElem? found)) allowed nativeLane railId

def laneKey (pathId : UInt32) : RailKey := { route := 1, localAdapter := 0, remoteAdapter := 0, pathId }

def onePeer (peer : RailPeer) : RailState := { nativeControlSourceAware := true, peers := [peer] }

def laneTwo : RailPeer :=
  { backend := .native, rails := [⟨laneKey 2, 0, 2, false⟩], nrRails := 1, railIds := [0] }

def lanesOneTwo : RailPeer :=
  { backend := .native, rails := [⟨laneKey 1, 1, 1, false⟩, ⟨laneKey 2, 0, 2, false⟩], nrRails := 2
    railIds := [1, 0] }

theorem peer_rail_list_lanes : lanesOneTwo.WellKept ∧
    ((onePeer lanesOneTwo).addRail 0 lanesOneTwo (laneKey 1) 1 true (.ok 2)).2 = .error .eExist := by
  have empty : railSystem.Reachable (onePeer { backend := .native }) :=
    .init fun peer member => by rw [List.mem_singleton.mp member]
  have one : railSystem.Reachable (onePeer laneTwo) :=
    reachable_addRail empty (show (onePeer _).peers[0]? = some _ from rfl)
      (show RailPeer.mayAlloc _ (.ok 0) = true from rfl) (laneKey 2) 2 true
  have two : railSystem.Reachable (onePeer lanesOneTwo) :=
    reachable_addRail one (show (onePeer _).peers[0]? = some _ from rfl)
      (show RailPeer.mayAlloc _ (.ok 1) = true from rfl) (laneKey 1) 1 true
  obtain ⟨kept, -, present⟩ := peer_rail_list two
  exact ⟨kept _ (List.mem_singleton.mpr rfl),
    (present 0 lanesOneTwo (laneKey 1) 1 2 rfl rfl).mpr ⟨_, List.mem_cons_self, rfl⟩⟩

end ThunderboltVerbs.Driver
