import ThunderboltVerbs.Config.Configfs
import ThunderboltVerbs.Driver.RailList
import ThunderboltVerbs.Lib.LittleEndian
import Mathlib.Data.Int.ModEq
import Mathlib.Data.List.Nodup
import Mathlib.Data.List.Pairwise

/-!
# The identity of a rail's device (`kernel/ibdev.c`)

The name is made of the domain and the lane, the GUID of the peer and the rail.
-/

namespace ThunderboltVerbs.Driver
open Proto Lib Config

def nativeMaxLanes : Nat := 4

def enodev : Int := 19
def erange : Int := 34

/-- What the identity of a rail is made of. `domainIdx` is `peer->xd->tb->index`, if there is an `xd` and a
`tb`. -/
structure IbRail where
  backend : BackendType
  peerId : UInt32
  railId : UInt32
  nativeLane : UInt32
  domainIdx : Option Int32
  deriving DecidableEq, Repr

namespace IbRail

def slot (rail : IbRail) : Nat :=
  match rail.backend with
  | .native => rail.nativeLane.toNat
  | .apple => nativeMaxLanes

/-- `tbv_ibdev_rail_name_index`; the sum is made unsigned and given back as an `int`. -/
def nameIndex (rail : IbRail) : Int :=
  match rail.domainIdx with
  | none => -enodev
  | some domainIdx =>
      if domainIdx.toInt < 0 then -enodev
      else if rail.backend = .native ∧ nativeMaxLanes ≤ rail.nativeLane.toNat then -erange
      else (domainIdx.toInt * (nativeMaxLanes + 1) + rail.slot).bmod (2 ^ 32)

def named (rail : IbRail) : Bool := 0 ≤ rail.nameIndex

end IbRail

/-- `snprintf` into a buffer of `size` bytes. -/
def snprintf (size : Nat) (text : Text) : Text := text.take (size - 1)

/-- `"usb4_rdma%d"`, of an index that is not negative. -/
def formatName (index : Int) : Text := "usb4_rdma".toList ++ decimal index.toNat

def nameSize : Nat := 16

def deviceName (index : Int) : Text := snprintf nameSize (formatName index)

/-- The bytes of a word as they lie in memory. -/
def cpuToBe64 (value : UInt64) : List UInt8 :=
  (bytes32 (value &&& 0xffffffff).toUInt32 ++ bytes32 (value >>> 32).toUInt32).reverse

def backendCode : BackendType → UInt64
  | .native => 0
  | .apple => 1

namespace IbRail

def guidWord (rail : IbRail) : UInt64 :=
  (0x0200544256524253 : UInt64) + (backendCode rail.backend <<< 56) + (rail.peerId.toUInt64 <<< 24) +
    rail.railId.toUInt64

/-- The GUID that `tbv_ibdev_register_one` gives a device. -/
def nodeGuid (rail : IbRail) : List UInt8 := cpuToBe64 rail.guidWord

end IbRail

/-- Each rail that gets an index has one of its own, its name is not cut off, and the GUIDs are different. -/
structure Identified (rails : List IbRail) : Prop where
  indices : rails.Pairwise fun a b => a.named = true → b.named = true → a.nameIndex ≠ b.nameIndex
  names : ∀ rail ∈ rails, rail.named = true → deviceName rail.nameIndex = formatName rail.nameIndex
  guids : rails.Pairwise fun a b => a.nodeGuid ≠ b.nodeGuid

/-! ## GUIDs -/

theorem cpuToBe64_injective : Function.Injective cpuToBe64 := by
  intro a b equal
  obtain ⟨low, high⟩ := List.append_inj (List.reverse_inj.mp equal) rfl
  rw [← word64_halves a, bytes32_injective low, bytes32_injective high, word64_halves]

theorem IbRail.guidWord_toNat (rail : IbRail) :
    rail.guidWord.toNat = (0x0200544256524253 + (backendCode rail.backend).toNat * 2 ^ 56 +
      rail.peerId.toNat * 2 ^ 24 + rail.railId.toNat) % 2 ^ 64 := by
  have peer := rail.peerId.toNat_lt
  have code : (backendCode rail.backend).toNat ≤ 1 := by
    cases rail.backend <;> decide
  simp only [guidWord, UInt64.toNat_add, UInt64.toNat_shiftLeft, UInt32.toNat_toUInt64, Nat.shiftLeft_eq,
    UInt64.reduceToNat, Nat.reduceMod]
  omega

theorem IbRail.nodeGuid_ne {a b : IbRail} (distinct : (a.peerId, a.railId) ≠ (b.peerId, b.railId))
    (numbered : a.railId.toNat < 2 ^ 24) (numbered' : b.railId.toNat < 2 ^ 24) : a.nodeGuid ≠ b.nodeGuid := by
  intro equal
  have words := congrArg UInt64.toNat (cpuToBe64_injective equal)
  rw [guidWord_toNat, guidWord_toNat] at words
  have code : (backendCode a.backend).toNat ≤ 1 := by
    cases a.backend <;> decide
  have code' : (backendCode b.backend).toNat ≤ 1 := by
    cases b.backend <;> decide
  have peer := a.peerId.toNat_lt
  have peer' := b.peerId.toNat_lt
  have parts : a.peerId.toNat = b.peerId.toNat ∧ a.railId.toNat = b.railId.toNat := by omega
  exact distinct (Prod.ext (UInt32.toNat_inj.mp parts.1) (UInt32.toNat_inj.mp parts.2))

/-! ## Names -/

theorem deviceName_eq_iff {index : Int} (positive : 0 ≤ index) :
    deviceName index = formatName index ↔ index < 10 ^ 6 := by
  have digits : (decimal index.toNat).length ≤ 6 ↔ index.toNat < 10 ^ 6 :=
    Nat.length_toDigits_le_iff (by decide) (by decide)
  have length : (formatName index).length = 9 + (decimal index.toNat).length := List.length_append
  constructor
  · intro whole
    have short := congrArg List.length whole
    rw [deviceName, snprintf, nameSize, List.length_take, length] at short
    omega
  · intro small
    apply List.take_of_length_le
    rw [length, nameSize]
    omega

theorem formatName_injective {index index' : Int} (positive : 0 ≤ index) (positive' : 0 ≤ index')
    (equal : formatName index = formatName index') : index = index' := by
  have digits : Nat.toDigits 10 index.toNat = Nat.toDigits 10 index'.toNat := List.append_cancel_left equal
  have values := congrArg (fun digits => Nat.ofDigitChars 10 digits 0) digits
  simp only [Nat.ofDigitChars_ten_toDigits] at values
  omega

/-! ## Places -/

structure RailPlace where
  domain : Nat
  slot : Nat
  deriving DecidableEq, Repr

/-- The places of a domain, one behind the other. -/
def RailPlace.number (place : RailPlace) : Nat := place.domain * (nativeMaxLanes + 1) + place.slot

/-- The domain and the slot of a rail that has both. -/
def IbRail.place (rail : IbRail) : Option RailPlace :=
  match rail.domainIdx with
  | none => none
  | some domainIdx =>
      if domainIdx.toInt < 0 ∨ (rail.backend = .native ∧ nativeMaxLanes ≤ rail.nativeLane.toNat) then none
      else some { domain := domainIdx.toInt.toNat, slot := rail.slot }

/-- No two rails with a place are at places whose numbers agree in an `int`, and the numbers are of at most six
digits. A number that is negative in an `int` is no index. -/
structure OwnNumbers (rails : List IbRail) : Prop where
  apart : rails.Pairwise fun a b => ∀ p ∈ a.place, ∀ q ∈ b.place, p.number ≡ q.number [MOD 2 ^ 32] →
    2 ^ 31 ≤ p.number % 2 ^ 32
  low : ∀ rail ∈ rails, ∀ p ∈ rail.place, p.number % 2 ^ 32 < 2 ^ 31 → p.number % 2 ^ 32 < 10 ^ 6

/-- No two rails are in one slot of one domain, and the domains are below 200000. -/
structure OwnPlaces (rails : List IbRail) : Prop where
  apart : rails.Pairwise fun a b => ∀ p ∈ a.place, p ∉ b.place
  low : ∀ rail ∈ rails, ∀ p ∈ rail.place, p.domain < 200000

namespace IbRail

variable {rail : IbRail}

theorem slot_le_of_place {p : RailPlace} (placed : rail.place = some p) : p.slot ≤ nativeMaxLanes := by
  unfold place at placed
  split at placed
  · cases placed
  split at placed
  · cases placed
  rename_i fits
  cases placed
  unfold slot
  cases kind : rail.backend with
  | native =>
      have lane : ¬nativeMaxLanes ≤ rail.nativeLane.toNat := fun high => fits (.inr ⟨kind, high⟩)
      exact Nat.le_of_not_le lane
  | apple => exact Nat.le_refl _

theorem nameIndex_of_place {p : RailPlace} (placed : rail.place = some p) :
    rail.nameIndex = (p.number : Int).bmod (2 ^ 32) := by
  unfold place at placed
  split at placed
  · cases placed
  rename_i domainIdx known
  split at placed
  · cases placed
  rename_i fits
  cases placed
  rw [not_or] at fits
  rw [nameIndex, known]
  simp only [if_neg fits.1, if_neg fits.2, RailPlace.number]
  congr 1
  push_cast
  rw [Int.toNat_of_nonneg (Int.not_lt.mp fits.1)]

theorem nameIndex_of_no_place (unplaced : rail.place = none) : rail.nameIndex < 0 := by
  unfold place at unplaced
  unfold nameIndex
  split at unplaced
  · decide
  · split at unplaced
    · rename_i out
      split_ifs with negative lane
      · decide
      · decide
      · exact (out.elim negative lane).elim
    · cases unplaced

/-- A rail gets an index where its number is not negative in an `int`, and the index is the number there. -/
theorem named_iff_of_place {p : RailPlace} (placed : rail.place = some p) :
    rail.named = true ↔ p.number % 2 ^ 32 < 2 ^ 31 := by
  rw [named, decide_eq_true_iff, nameIndex_of_place placed, Int.bmod_def]
  split <;> omega

theorem nameIndex_eq_of_named {p : RailPlace} (placed : rail.place = some p) (named : rail.named = true) :
    rail.nameIndex = (p.number % 2 ^ 32 : Nat) := by
  have low := (named_iff_of_place placed).mp named
  rw [nameIndex_of_place placed, Int.bmod_def, if_pos (by omega)]
  omega

theorem place_of_named (named : rail.named = true) : ∃ p, rail.place = some p := by
  cases placed : rail.place with
  | none => exact absurd (nameIndex_of_no_place placed) (Int.not_lt.mpr (of_decide_eq_true named))
  | some p => exact ⟨p, rfl⟩

theorem ownNumber_iff {p : RailPlace} (placed : rail.place = some p) :
    (rail.named = true → deviceName rail.nameIndex = formatName rail.nameIndex) ↔
      (p.number % 2 ^ 32 < 2 ^ 31 → p.number % 2 ^ 32 < 10 ^ 6) := by
  rw [named_iff_of_place placed]
  refine imp_congr_right fun low => ?_
  have index := nameIndex_eq_of_named placed ((named_iff_of_place placed).mpr low)
  rw [index, deviceName_eq_iff (Int.natCast_nonneg _)]
  omega

theorem ownIndices_iff {a b : IbRail} {p q : RailPlace} (placed : a.place = some p) (placed' : b.place = some q) :
    (a.named = true → b.named = true → a.nameIndex ≠ b.nameIndex) ↔
      (p.number ≡ q.number [MOD 2 ^ 32] → 2 ^ 31 ≤ p.number % 2 ^ 32) := by
  constructor
  · intro apart agree
    by_contra low
    have named : a.named = true := (named_iff_of_place placed).mpr (Nat.lt_of_not_le low)
    have named' : b.named = true := (named_iff_of_place placed').mpr (agree ▸ Nat.lt_of_not_le low)
    apply apart named named'
    rw [nameIndex_eq_of_named placed named, nameIndex_eq_of_named placed' named', agree]
  · intro apart named named' equal
    rw [nameIndex_eq_of_named placed named, nameIndex_eq_of_named placed' named'] at equal
    have low := (named_iff_of_place placed).mp named
    exact Nat.not_lt.mpr (apart (Int.natCast_inj.mp equal)) low

end IbRail

theorem ownIndices_of_pair (a b : IbRail) :
    (a.named = true → b.named = true → a.nameIndex ≠ b.nameIndex) ↔
      ∀ p ∈ a.place, ∀ q ∈ b.place, p.number ≡ q.number [MOD 2 ^ 32] → 2 ^ 31 ≤ p.number % 2 ^ 32 := by
  constructor
  · intro apart p placed q placed'
    exact (IbRail.ownIndices_iff placed placed').mp apart
  · intro apart named named'
    obtain ⟨p, placed⟩ := IbRail.place_of_named named
    obtain ⟨q, placed'⟩ := IbRail.place_of_named named'
    exact (IbRail.ownIndices_iff placed placed').mpr (apart p placed q placed') named named'

theorem identified_iff {rails : List IbRail} (distinct : (rails.map fun rail => (rail.peerId, rail.railId)).Nodup)
    (numbered : ∀ rail ∈ rails, rail.railId.toNat < 2 ^ 24) : Identified rails ↔ OwnNumbers rails := by
  constructor
  · intro identified
    constructor
    · exact identified.indices.imp fun {a b} => (ownIndices_of_pair a b).mp
    · intro rail member p placed
      exact (IbRail.ownNumber_iff placed).mp (identified.names rail member)
  · intro own
    constructor
    · exact own.apart.imp fun {a b} => (ownIndices_of_pair a b).mpr
    · intro rail member named
      obtain ⟨p, placed⟩ := IbRail.place_of_named named
      exact (IbRail.ownNumber_iff placed).mpr (own.low rail member p placed) named
    · apply (List.pairwise_map.mp distinct).imp_of_mem
      intro a b member member' different
      exact IbRail.nodeGuid_ne different (numbered a member) (numbered b member')

/-- Below a domain where the product leaves the `int`, the number of a place is the number in an `int`, and no
two places have one number. -/
theorem RailPlace.number_within {p : RailPlace} (within : p.domain < 2 ^ 31 / (nativeMaxLanes + 1))
    (slot : p.slot ≤ nativeMaxLanes) :
    p.number % 2 ^ 32 = p.number ∧ p.number < 2 ^ 31 ∧ p.number = 5 * p.domain + p.slot := by
  have lanes : nativeMaxLanes = 4 := rfl
  rw [lanes] at within slot
  rw [number, lanes]
  omega

theorem ownNumbers_iff {rails : List IbRail}
    (within : ∀ rail ∈ rails, ∀ p ∈ rail.place, p.domain < 2 ^ 31 / (nativeMaxLanes + 1)) :
    OwnNumbers rails ↔ OwnPlaces rails := by
  have numbers : ∀ rail ∈ rails, ∀ p ∈ rail.place, p.slot ≤ 4 ∧
      p.number % 2 ^ 32 = p.number ∧ p.number < 2 ^ 31 ∧ p.number = 5 * p.domain + p.slot := by
    intro rail member p placed
    have slot := IbRail.slot_le_of_place placed
    exact ⟨slot, RailPlace.number_within (within rail member p placed) slot⟩
  constructor
  · intro own
    constructor
    · apply own.apart.imp_of_mem
      intro a b member member' apart p placed placed'
      have number := numbers a member p placed
      have negative := apart p placed p placed' rfl
      omega
    · intro rail member p placed
      have number := numbers rail member p placed
      have low := own.low rail member p placed
      omega
  · intro own
    constructor
    · apply own.apart.imp_of_mem
      intro a b member member' apart p placed q placed' agree
      have number := numbers a member p placed
      have number' := numbers b member' q placed'
      rw [Nat.ModEq] at agree
      have same : p = q := by
        obtain ⟨domain, slot⟩ := p
        obtain ⟨domain', slot'⟩ := q
        simp only [RailPlace.mk.injEq] at *
        omega
      exact absurd (same ▸ placed') (apart p placed)
    · intro rail member p placed _
      have number := numbers rail member p placed
      have low := own.low rail member p placed
      omega

/-! ## Distinct identities -/

theorem rail_identities (rails : List IbRail)
    (distinct : (rails.map fun rail => (rail.peerId, rail.railId)).Nodup)
    (numbered : ∀ rail ∈ rails, rail.railId.toNat < 2 ^ 24) :
    (Identified rails ↔ OwnNumbers rails) ∧
      ((∀ rail ∈ rails, ∀ p ∈ rail.place, p.domain < 2 ^ 31 / (nativeMaxLanes + 1)) →
        (Identified rails ↔ OwnPlaces rails)) := by
  have own := identified_iff distinct numbered
  exact ⟨own, fun within => own.trans (ownNumbers_iff within)⟩

/-- Two rails of one peer and a rail of a peer on another domain. -/
def spreadRails : List IbRail :=
  [{ backend := .native, peerId := 0, railId := 0, nativeLane := 0, domainIdx := some 0 },
    { backend := .native, peerId := 0, railId := 1, nativeLane := 1, domainIdx := some 0 },
    { backend := .apple, peerId := 1, railId := 0, nativeLane := 0, domainIdx := some 1 }]

theorem rail_identities_spread : Identified spreadRails ∧ spreadRails.map IbRail.nameIndex = [0, 1, 9] := by
  have within : ∀ rail ∈ spreadRails, ∀ p ∈ rail.place, p.domain < 2 ^ 31 / (nativeMaxLanes + 1) := by decide
  have own : OwnPlaces spreadRails := ⟨by decide, by decide⟩
  exact ⟨((rail_identities spreadRails (by decide) (by decide)).2 within).mpr own, by decide⟩

/-- Lane 0 of two peers on one domain. -/
def sharedDomain : List IbRail :=
  [{ backend := .native, peerId := 0, railId := 0, nativeLane := 0, domainIdx := some 0 },
    { backend := .native, peerId := 1, railId := 0, nativeLane := 0, domainIdx := some 0 }]

theorem rail_identities_shared_domain :
    (sharedDomain.map fun rail => (rail.peerId, rail.railId)).Nodup ∧
      (∀ rail ∈ sharedDomain, rail.railId.toNat < 2 ^ 24 ∧ rail.named = true) ∧
      sharedDomain.map IbRail.nameIndex = [0, 0] ∧ ¬Identified sharedDomain := by
  refine ⟨by decide, by decide, by decide, fun identified => ?_⟩
  have apart := List.rel_of_pairwise_cons identified.indices List.mem_cons_self
  exact apart (by decide) (by decide) (by decide)

theorem Identified.index_ne {rails : List IbRail} (identified : Identified rails) {i j : Nat} {a b : IbRail}
    (found : rails[i]? = some a) (found' : rails[j]? = some b) (apart : i ≠ j) (named : a.named = true)
    (named' : b.named = true) : a.nameIndex ≠ b.nameIndex := by
  obtain ⟨bound, rfl⟩ := List.getElem?_eq_some_iff.mp found
  obtain ⟨bound', rfl⟩ := List.getElem?_eq_some_iff.mp found'
  rcases Nat.lt_or_gt_of_ne apart with before | behind
  · exact List.pairwise_iff_getElem.mp identified.indices i j bound bound' before named named'
  · exact (List.pairwise_iff_getElem.mp identified.indices j i bound' bound behind named' named).symm

/-! ## The rails of the peers -/

/-- The rails on the lists of all peers. -/
def RailState.liveRails (s : RailState) (peerId : Nat → UInt32) (domainIdx : Nat → Option Int32) : List IbRail :=
  s.peers.zipIdx.flatMap fun (peer, p) => peer.rails.map fun rail =>
    { backend := peer.backend, peerId := peerId p, railId := .ofNat rail.railId, nativeLane := rail.nativeLane,
      domainIdx := domainIdx p }

/-- Peer ids that are different keep the rails of a run apart, since a peer hands out no id twice. -/
theorem liveRails_distinct {s : RailState} (reachable : railSystem.Reachable s) {peerId : Nat → UInt32}
    (peerIds : ∀ p < s.peers.length, ∀ q < s.peers.length, peerId p = peerId q → p = q)
    (domainIdx : Nat → Option Int32) :
    ((s.liveRails peerId domainIdx).map fun rail => (rail.peerId, rail.railId)).Nodup := by
  have ids (peer) (member : peer ∈ s.peers) : (peer.rails.map fun rail => UInt32.ofNat rail.railId).Nodup := by
    have kept := peers_kept reachable peer member
    have small : ∀ railId ∈ peer.rails.map ListedRail.railId, railId < 2 ^ 31 := by
      intro railId held
      exact kept.small railId (kept.held.mem_iff.mpr (List.mem_append_left _ held))
    have different : ((peer.rails.map ListedRail.railId).map UInt32.ofNat).Nodup := by
      apply List.Nodup.map_on _ kept.ids
      intro a held b held' same
      have below := small a held
      have below' := small b held'
      have values := congrArg UInt32.toNat same
      rw [UInt32.toNat_ofNat', UInt32.toNat_ofNat'] at values
      omega
    rwa [List.map_map] at different
  rw [RailState.liveRails, List.map_flatMap, List.nodup_flatMap]
  constructor
  · rintro ⟨peer, p⟩ entry
    have member : peer ∈ s.peers := (List.mem_zipIdx' entry).2 ▸ List.getElem_mem _
    rw [List.map_map]
    exact List.Nodup.of_map Prod.snd (by rw [List.map_map]; exact ids peer member)
  · rw [List.pairwise_iff_getElem]
    intro p q bound bound' before
    simp only [List.getElem_zipIdx, Nat.zero_add, List.map_map]
    apply List.disjoint_left.mpr
    intro pair mine others
    obtain ⟨rail, -, rfl⟩ := List.mem_map.mp mine
    obtain ⟨other, -, same⟩ := List.mem_map.mp others
    rw [List.length_zipIdx] at bound bound'
    exact Nat.ne_of_gt before (peerIds q bound' p bound (congrArg Prod.fst same))

/-! ## Registration -/

/-- What `tbv_ibdev_rail_event` keeps of a rail; `ibdev` is the name of its device. -/
structure RailDevice where
  ibdev : Option Text := none
  registerFailed : Bool := false
  registerDeferred : Bool := false
  deriving DecidableEq, Repr

/-- The rails by their place in the list. `held` are the names of the registered devices, each with its rail;
a down event takes the device off the rail before the device is unregistered. -/
structure Registry where
  device : Nat → RailDevice := fun _ => {}
  held : List (Nat × Text) := []

/-- What `tbv_ibdev_register_one` comes to, the name of the device apart. -/
inductive RegisterOutcome
  | registers | probeDefer | fails
  deriving DecidableEq, Repr

namespace Registry

def setDevice (s : Registry) (i : Nat) (device : RailDevice) : Registry :=
  { s with device := Function.update s.device i device }

def refuse (s : Registry) (i : Nat) : Registry :=
  s.setDevice i { s.device i with registerFailed := true, registerDeferred := false }

/-- `tbv_ibdev_rail_event` on the up edge; `ready` is that joins are enabled and the rail may be published. The
RDMA core refuses a name that a device has. -/
def railUp (s : Registry) (i : Nat) (rail : IbRail) (ready : Bool) (outcome : RegisterOutcome) : Registry :=
  let device := s.device i
  if device.ibdev.isSome || device.registerFailed || device.registerDeferred || !ready then s
  else if rail.nameIndex < 0 then s.refuse i
  else
    let name := deviceName rail.nameIndex
    match outcome with
    | .probeDefer => s.setDevice i { device with registerDeferred := true }
    | .fails => s.refuse i
    | .registers =>
        if name ∈ s.held.map Prod.snd then s.refuse i
        else
          { s.setDevice i { device with ibdev := some name, registerDeferred := false } with
            held := (i, name) :: s.held }

/-- `tbv_ibdev_rail_event` on the down edge, under the lock. -/
def railDown (s : Registry) (i : Nat) : Registry :=
  s.setDevice i { s.device i with ibdev := none, registerDeferred := false }

/-- `ib_unregister_device`, after the lock is dropped. -/
def unregister (s : Registry) (i : Nat) : Option Registry :=
  if (s.device i).ibdev.isSome then none else some { s with held := s.held.filter fun entry => entry.1 ≠ i }

/-- `tbv_ibdev_netdev_retry_work`, before it replays the up edge. -/
def retry (s : Registry) (i : Nat) : Registry :=
  let device := s.device i
  if device.registerDeferred && !device.ibdev.isSome && !device.registerFailed then
    s.setDevice i { device with registerDeferred := false }
  else s

end Registry

inductive RegisterAction
  | up (i : Nat) (ready : Bool) (outcome : RegisterOutcome)
  | down (i : Nat)
  | unregister (i : Nat)
  | retry (i : Nat)
  deriving DecidableEq, Repr

def registrationFrom (rails : List IbRail) (start : Registry) : System Registry RegisterAction where
  init s := s = start
  step s action :=
    match action with
    | .up i ready outcome => rails[i]?.map fun rail => s.railUp i rail ready outcome
    | .down i => some (s.railDown i)
    | .unregister i => s.unregister i
    | .retry i => some (s.retry i)

abbrev registration (rails : List IbRail) : System Registry RegisterAction := registrationFrom rails {}

/-- The names that devices hold are different, and each is that of its rail. -/
structure Registry.Consistent (rails : List IbRail) (s : Registry) : Prop where
  published : ∀ i name, (s.device i).ibdev = some name → (i, name) ∈ s.held
  owned : ∀ entry ∈ s.held, ∃ rail, rails[entry.1]? = some rail ∧ rail.named = true ∧
    entry.2 = deviceName rail.nameIndex
  different : (s.held.map Prod.snd).Nodup
  refused : ∀ i, (s.device i).registerFailed = true → (s.device i).ibdev = none

namespace Registry

variable {rails : List IbRail} {s : Registry} {i : Nat}

theorem device_setDevice (j : Nat) (device : RailDevice) :
    (s.setDevice i device).device j = if j = i then device else s.device j :=
  Function.update_apply ..

/-- One device is written, and the names that are held grow. -/
theorem Consistent.write (consistent : s.Consistent rails) {device : RailDevice} {held : List (Nat × Text)}
    (more : s.held ⊆ held)
    (owned : ∀ entry ∈ held, ∃ rail, rails[entry.1]? = some rail ∧ rail.named = true ∧
      entry.2 = deviceName rail.nameIndex)
    (different : (held.map Prod.snd).Nodup) (published : ∀ name, device.ibdev = some name → (i, name) ∈ held)
    (refused : device.registerFailed = true → device.ibdev = none) :
    Registry.Consistent rails { s.setDevice i device with held := held } := by
  refine ⟨?_, owned, different, ?_⟩
  · intro j name has
    rw [device_setDevice] at has
    split at has
    · rename_i own
      exact own ▸ published name has
    · exact more (consistent.published j name has)
  · intro j failed
    rw [device_setDevice] at failed ⊢
    split
    · rename_i own
      rw [if_pos own] at failed
      exact refused failed
    · rename_i other
      rw [if_neg other] at failed
      exact consistent.refused j failed

theorem Consistent.setDevice (consistent : s.Consistent rails) {device : RailDevice}
    (fewer : device.ibdev = (s.device i).ibdev ∨ device.ibdev = none)
    (refused : device.registerFailed = true → device.ibdev = none) : (s.setDevice i device).Consistent rails := by
  apply consistent.write (List.Subset.refl _) consistent.owned consistent.different _ refused
  intro name has
  rcases fewer with same | gone
  · exact consistent.published i name (same ▸ has)
  · rw [gone] at has
    cases has

theorem Consistent.railUp (consistent : s.Consistent rails) {rail : IbRail} (found : rails[i]? = some rail)
    (ready : Bool) (outcome : RegisterOutcome) : (s.railUp i rail ready outcome).Consistent rails := by
  unfold Registry.railUp
  simp only
  split
  · exact consistent
  rename_i free
  simp only [Bool.or_eq_true, not_or, Bool.not_eq_true, Option.isSome_eq_false_iff, Option.isNone_iff_eq_none] at free
  obtain ⟨⟨⟨unpublished, unrefused⟩, -⟩, -⟩ := free
  have refuses : (s.refuse i).Consistent rails := consistent.setDevice (.inl rfl) fun _ => unpublished
  split
  · exact refuses
  rename_i index
  cases outcome with
  | fails => exact refuses
  | probeDefer => exact consistent.setDevice (.inl rfl) fun _ => unpublished
  | registers =>
      simp only
      split
      · exact refuses
      rename_i fresh
      apply consistent.write (List.subset_cons_self _ _)
      case owned =>
        intro entry member
        rcases List.mem_cons.mp member with rfl | other
        · exact ⟨rail, found, decide_eq_true (Int.not_lt.mp index), rfl⟩
        · exact consistent.owned entry other
      case different => exact List.nodup_cons.mpr ⟨fresh, consistent.different⟩
      case published =>
        intro name named
        rw [← Option.some.inj named]
        exact List.mem_cons_self
      case refused =>
        intro failed
        exact absurd (unrefused.symm.trans failed) Bool.false_ne_true

theorem Consistent.unregister (consistent : s.Consistent rails) {s' : Registry}
    (done : s.unregister i = some s') : s'.Consistent rails := by
  unfold Registry.unregister at done
  split at done
  · cases done
  rename_i gone
  cases done
  refine ⟨?_, ?_, ?_, consistent.refused⟩
  · intro j name held
    have other : j ≠ i := by
      rintro rfl
      exact gone (by rw [held]; rfl)
    exact List.mem_filter.mpr ⟨consistent.published j name held, decide_eq_true other⟩
  · intro entry member
    exact consistent.owned entry (List.mem_of_mem_filter member)
  · exact consistent.different.sublist (List.filter_sublist.map _)

theorem Consistent.step (consistent : s.Consistent rails) {action : RegisterAction} {start s' : Registry}
    (step : (registrationFrom rails start).step s action = some s') : s'.Consistent rails := by
  cases action with
  | up i ready outcome =>
      obtain ⟨rail, found, rfl⟩ := Option.map_eq_some_iff.mp step
      exact consistent.railUp found ready outcome
  | down i =>
      cases step
      exact consistent.setDevice (.inr rfl) fun _ => rfl
  | unregister i => exact consistent.unregister step
  | retry i =>
      cases step
      unfold Registry.retry
      simp only
      split
      · exact consistent.setDevice (.inl rfl) (consistent.refused i)
      · exact consistent

theorem consistent_of_reachable (reachable : (registration rails).Reachable s) : s.Consistent rails := by
  have base (s : Registry) (start : s = {}) : s.Consistent rails := by
    subst start
    exact ⟨by simp, by simp, List.nodup_nil, by simp⟩
  exact reachable.invariant base fun s action s' consistent _ step => consistent.step step

/-- In every run, the devices that are registered have different names. -/
theorem published_names_differ (reachable : (registration rails).Reachable s) {j : Nat} {name name' : Text}
    (published : (s.device i).ibdev = some name) (published' : (s.device j).ibdev = some name') (other : i ≠ j) :
    name ≠ name' := by
  have consistent := consistent_of_reachable reachable
  rintro rfl
  have same := List.inj_on_of_nodup_map consistent.different (consistent.published i name published)
    (consistent.published j name published') rfl
  exact other (congrArg Prod.fst same)

/-- Where the rails have identities of their own, a rail that is ready gets its device, unless the device it
had before is still to be unregistered. -/
theorem registers_of_identified (identified : Identified rails) (reachable : (registration rails).Reachable s)
    {rail : IbRail} (found : rails[i]? = some rail) (named : rail.named = true) (idle : s.device i = {})
    (unregistered : ∀ name, (i, name) ∉ s.held) :
    ((s.railUp i rail true .registers).device i).ibdev = some (formatName rail.nameIndex) := by
  have consistent := consistent_of_reachable reachable
  have fits := identified.names rail (List.mem_of_getElem? found) named
  have fresh : deviceName rail.nameIndex ∉ s.held.map Prod.snd := by
    intro taken
    obtain ⟨⟨j, name⟩, member, same⟩ := List.mem_map.mp taken
    obtain ⟨owner, present, ownerNamed, rfl⟩ := consistent.owned _ member
    have index : owner.nameIndex = rail.nameIndex := by
      apply formatName_injective (of_decide_eq_true ownerNamed) (of_decide_eq_true named)
      rw [← identified.names owner (List.mem_of_getElem? present) ownerNamed, ← fits]
      exact same
    by_cases own : j = i
    · exact unregistered _ (own ▸ member)
    · exact identified.index_ne present found own ownerNamed named index
  have positive : ¬rail.nameIndex < 0 := Int.not_lt.mpr (of_decide_eq_true named)
  rw [fits] at fresh
  rw [railUp, idle]
  simp only [Option.isSome_none, Bool.or_self, Bool.not_true, Bool.false_eq_true, if_false, if_neg positive, fits,
    if_neg fresh, Registry.setDevice, Function.update_self]

/-- The second lane registers while the first has its device. -/
theorem registers_of_identified_spread :
    ∃ s : Registry, (registration spreadRails).Reachable s ∧ (s.device 0).ibdev = some (formatName 0) ∧
      spreadRails[1]?.map (fun rail => ((s.railUp 1 rail true .registers).device 1).ibdev) =
        some (some (formatName 1)) := by
  have identified : Identified spreadRails :=
    (identified_iff (by decide) (by decide)).mpr ⟨by decide, by decide⟩
  obtain ⟨s, reachable, test⟩ := (registration spreadRails).exists_reachableVia (fun _ _ => True)
    [.up 0 true .registers]
    (fun s => decide ((s.device 0).ibdev = some (formatName 0) ∧ s.device 1 = {} ∧ ∀ entry ∈ s.held, entry.1 ≠ 1)) rfl
    (by decide)
  obtain ⟨first, idle, others⟩ := of_decide_eq_true test
  refine ⟨s, reachable, first, congrArg some ?_⟩
  exact registers_of_identified identified reachable rfl (by decide) idle fun name member => others _ member rfl

theorem registerFailed_step {action : RegisterAction} {start s' : Registry}
    (step : (registrationFrom rails start).step s action = some s') (failed : (s.device i).registerFailed = true) :
    (s'.device i).registerFailed = true := by
  have kept (j : Nat) (device : RailDevice)
      (same : (s.device j).registerFailed = true → device.registerFailed = true) :
      ((s.setDevice j device).device i).registerFailed = true := by
    rw [device_setDevice]
    split
    · rename_i own
      exact same (own ▸ failed)
    · exact failed
  cases action with
  | up j ready outcome =>
      obtain ⟨rail, -, rfl⟩ := Option.map_eq_some_iff.mp step
      unfold railUp
      simp only
      split
      · exact failed
      split
      · exact kept _ _ fun _ => rfl
      cases outcome with
      | fails => exact kept _ _ fun _ => rfl
      | probeDefer => exact kept _ _ id
      | registers =>
          simp only
          split
          · exact kept _ _ fun _ => rfl
          · exact kept _ _ id
  | down j =>
      cases step
      exact kept _ _ id
  | unregister j =>
      simp only [registrationFrom, Registry.unregister] at step
      split at step
      · cases step
      · cases step
        exact failed
  | retry j =>
      cases step
      unfold retry
      simp only
      split
      · exact kept _ _ id
      · exact failed

/-- A rail that is registered while the device of another rail has its name never gets a device, in any run
from there. -/
theorem never_registered (reachable : (registration rails).Reachable s) {j : Nat} {rail other : IbRail}
    (found : rails[i]? = some rail) (found' : rails[j]? = some other) (apart : i ≠ j)
    (same : rail.nameIndex = other.nameIndex) (published : (s.device i).ibdev.isSome = true)
    (undeferred : (s.device j).registerDeferred = false) {later : Registry}
    (run : (registrationFrom rails (s.railUp j other true .registers)).Reachable later) :
    (later.device j).ibdev = none := by
  have consistent := consistent_of_reachable reachable
  obtain ⟨name, device⟩ := Option.isSome_iff_exists.mp published
  obtain ⟨owner, present, named, rfl⟩ := consistent.owned _ (consistent.published i name device)
  obtain rfl : owner = rail := Option.some.inj (present.symm.trans found)
  have unpublished : (s.device j).ibdev = none := by
    cases device' : (s.device j).ibdev with
    | none => rfl
    | some name' =>
        obtain ⟨owner', present', -, rfl⟩ := consistent.owned _ (consistent.published j name' device')
        obtain rfl : owner' = other := Option.some.inj (present'.symm.trans found')
        exact absurd (congrArg deviceName same) (published_names_differ reachable device device' apart)
  have taken : deviceName other.nameIndex ∈ s.held.map Prod.snd :=
    List.mem_map.mpr ⟨_, consistent.published i _ device, congrArg deviceName same⟩
  have positive : ¬other.nameIndex < 0 := same ▸ Int.not_lt.mpr (of_decide_eq_true named)
  have start : ((s.railUp j other true .registers).device j).registerFailed = true := by
    unfold railUp
    by_cases failed : (s.device j).registerFailed = true
    · simp only [failed, Bool.or_true, Bool.true_or, if_true]
    · simp only [unpublished, undeferred, failed, Option.isSome_none, Bool.or_self, Bool.not_true, Bool.false_eq_true,
        if_false, if_neg positive, if_pos taken, refuse, device_setDevice, if_true]
  have base (s') (begins : s' = s.railUp j other true .registers) :
      s'.Consistent rails ∧ (s'.device j).registerFailed = true := by
    rw [begins]
    exact ⟨consistent.railUp found' true .registers, start⟩
  have kept := run.invariant base fun s action s' held _ step =>
    ⟨held.1.step step, registerFailed_step step held.2⟩
  exact kept.1.refused j kept.2

def secondPeer : IbRail := { backend := .native, peerId := 1, railId := 0, nativeLane := 0, domainIdx := some 0 }

/-- Lane 0 of the second peer has no device even after the first peer's device is gone. -/
theorem never_registered_shared_domain :
    ∃ later : Registry, later.held = [] ∧ (later.device 1).ibdev = none ∧
      ∃ s, (registration sharedDomain).Reachable s ∧ ∃ other, sharedDomain[1]? = some other ∧
        (registrationFrom sharedDomain (s.railUp 1 other true .registers)).Reachable later := by
  obtain ⟨s, reachable, test⟩ := (registration sharedDomain).exists_reachableVia (fun _ _ => True)
    [.up 0 true .registers]
    (fun s => (s.device 0).ibdev.isSome && !(s.device 1).registerDeferred &&
      (((registrationFrom sharedDomain (s.railUp 1 secondPeer true .registers)).runVia (fun _ _ => True)
        (s.railUp 1 secondPeer true .registers) [.down 0, .unregister 0, .retry 1, .up 1 true .registers]).any
          fun later => later.held = []))
    rfl (by decide)
  simp only [Bool.and_eq_true] at test
  obtain ⟨⟨published, undeferred⟩, after⟩ := test
  obtain ⟨later, run, gone⟩ := System.exists_reachableVia _ _ _ _ rfl after
  refine ⟨later, of_decide_eq_true gone, ?_, s, reachable, _, rfl, run⟩
  exact never_registered reachable rfl rfl (by decide) (by decide) published (by simpa using undeferred) run

end Registry

end ThunderboltVerbs.Driver
