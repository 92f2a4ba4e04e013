import ThunderboltVerbs.Config.Identity
import Mathlib.Data.List.Basic
import Mathlib.Data.Nat.Bitwise

/-!
# What the selectors select

Both selectors walk the table once. Which GID they take depends on the table only through the first wanted
GID, the first preferred one and the endpoints.
-/

namespace ThunderboltVerbs.Config
open Proto

/-! ## One pass over the table -/

section Pass

variable {wanted preferred : Gid → Bool}

def Gid.endpoint (gid : Gid) : UInt32 × UInt8 := (gid.deviceId, gid.port)

theorem sameEndpoint_iff {a b : Gid} : a.sameEndpoint b = true ↔ a.endpoint = b.endpoint := by
  simp [Gid.sameEndpoint, Gid.endpoint]

/-- The first preferred GID of the wanted ones, or else the first. -/
def pick (wanted preferred : Gid → Bool) (best : Gid) (gids : List Gid) : Gid :=
  if preferred best then best else (gids.find? fun gid => wanted gid && preferred gid).getD best

def better (preferred : Gid → Bool) (best gid : Gid) : Bool := !preferred best && preferred gid

theorem endpoint_pick (best : Gid) (gids : List Gid)
    (same : ∀ gid ∈ gids, wanted gid = true → gid.endpoint = best.endpoint) :
    (pick wanted preferred best gids).endpoint = best.endpoint := by
  unfold pick
  split
  · rfl
  cases found : gids.find? fun gid => wanted gid && preferred gid with
  | none => rfl
  | some gid =>
      have chosen := List.find?_some found
      rw [Bool.and_eq_true] at chosen
      exact same gid (List.mem_of_find?_eq_some found) chosen.1

theorem selectFrom_some (best : Gid) (gids : List Gid) :
    selectFrom wanted (better preferred) (some best) gids =
      if gids.all (fun gid => !wanted gid || best.sameEndpoint gid) then
        ((pick wanted preferred best gids).select, none)
      else ({}, some .eExist) := by
  induction gids generalizing best with
  | nil =>
      simp only [selectFrom, List.all_nil, if_true, pick, List.find?_nil, Option.getD_none, ite_self]
  | cons gid rest ih =>
      unfold selectFrom
      by_cases want : wanted gid = true
      · by_cases same : best.sameEndpoint gid = true
        · have later : ∀ other : Gid, (if better preferred best gid then gid else best).sameEndpoint other =
              best.sameEndpoint other := by
            intro other
            split
            · rw [Bool.eq_iff_iff, sameEndpoint_iff, sameEndpoint_iff, sameEndpoint_iff.mp same]
            · rfl
          have next : pick wanted preferred (if better preferred best gid then gid else best) rest =
              pick wanted preferred best (gid :: rest) := by
            by_cases has : preferred best = true
            · simp [pick, better, has]
            · by_cases gains : preferred gid = true
              · simp [pick, better, has, gains, want]
              · simp [pick, better, has, gains]
          simp only [want, same, Bool.not_true, Bool.false_eq_true, if_false, if_true, ih, later, next, List.all_cons,
            Bool.false_or, Bool.true_and]
        · simp [want, same]
      · have skipped : pick wanted preferred best (gid :: rest) = pick wanted preferred best rest := by
          simp [pick, want]
        simp only [want, Bool.not_false, if_true, ih, skipped, List.all_cons, Bool.true_or, Bool.true_and]

theorem selectFrom_none (gids : List Gid) :
    selectFrom wanted (better preferred) none gids =
      match gids.find? wanted with
      | none => ({}, some .eNoDev)
      | some first =>
          if gids.all (fun gid => !wanted gid || first.sameEndpoint gid) then
            ((pick wanted preferred first gids).select, none)
          else ({}, some .eExist) := by
  induction gids with
  | nil => rfl
  | cons gid rest ih =>
      unfold selectFrom
      by_cases want : wanted gid = true
      · have same : gid.sameEndpoint gid = true := sameEndpoint_iff.mpr rfl
        have first : pick wanted preferred gid (gid :: rest) = pick wanted preferred gid rest := by
          by_cases has : preferred gid = true
          · simp [pick, has]
          · simp [pick, has]
        simp only [want, Bool.not_true, Bool.false_eq_true, if_false, List.find?_cons_of_pos, selectFrom_some, first,
          List.all_cons, same, Bool.false_or, Bool.true_and]
      · have skipped (best : Gid) : pick wanted preferred best (gid :: rest) = pick wanted preferred best rest := by
          simp [pick, want]
        simp only [want, Bool.not_false, if_true, ih, skipped, List.all_cons, Bool.true_or, Bool.true_and,
          Bool.false_eq_true, not_false_eq_true, List.find?_cons_of_neg]

/-- What a selector has to do for the GIDs that are wanted. -/
structure Selects (wanted : Gid → Prop) (gids : List Gid) (result : Selection × Option Errno) : Prop where
  noDev : result.2 = some .eNoDev ↔ ∀ gid ∈ gids, ¬wanted gid
  exist : result.2 = some .eExist ↔
    ∃ gid ∈ gids, ∃ other ∈ gids, wanted gid ∧ wanted other ∧ gid.endpoint ≠ other.endpoint
  errors : ∀ error, result.2 = some error → (error = .eNoDev ∨ error = .eExist) ∧ result.1 = {}
  selected : result.2 = none →
    ∃ gid ∈ gids, wanted gid ∧ result.1 = gid.select ∧ ∀ other ∈ gids, wanted other → other.endpoint = gid.endpoint

theorem selectFrom_selects (wanted preferred : Gid → Bool) (gids : List Gid) :
    Selects (fun gid => wanted gid = true) gids (selectFrom wanted (better preferred) none gids) := by
  rw [selectFrom_none]
  cases found : gids.find? wanted with
  | none =>
      have unwanted : ∀ gid ∈ gids, ¬wanted gid = true := by simpa using found
      constructor
      case noDev => exact iff_of_true rfl unwanted
      case exist =>
        refine iff_of_false (by simp) ?_
        rintro ⟨gid, member, -, -, want, -⟩
        exact unwanted gid member want
      case errors => exact fun error failed => ⟨.inl (by simpa using failed.symm), rfl⟩
      case selected => exact fun absurd => by cases absurd
  | some first =>
      have member := List.mem_of_find?_eq_some found
      have want : wanted first = true := List.find?_some found
      dsimp only
      by_cases alone : gids.all (fun gid => !wanted gid || first.sameEndpoint gid) = true
      · rw [if_pos alone]
        have same : ∀ gid ∈ gids, wanted gid = true → gid.endpoint = first.endpoint := by
          intro gid inside wants
          have here := List.all_eq_true.mp alone gid inside
          rw [wants, Bool.not_true, Bool.false_or, sameEndpoint_iff] at here
          exact here.symm
        constructor
        case noDev => exact iff_of_false (by simp) fun none => none first member want
        case exist =>
          refine iff_of_false (by simp) ?_
          rintro ⟨gid, inside, other, also, wants, wants', apart⟩
          exact apart ((same gid inside wants).trans (same other also wants').symm)
        case errors => exact fun error failed => by cases failed
        case selected =>
          intro _
          have chosen : pick wanted preferred first gids ∈ gids ∧ wanted (pick wanted preferred first gids) = true := by
            unfold pick
            split
            · exact ⟨member, want⟩
            cases better : gids.find? fun gid => wanted gid && preferred gid with
            | none => exact ⟨member, want⟩
            | some gid =>
                have both := List.find?_some better
                rw [Bool.and_eq_true] at both
                exact ⟨List.mem_of_find?_eq_some better, both.1⟩
          refine ⟨_, chosen.1, chosen.2, rfl, fun other inside wants => ?_⟩
          rw [endpoint_pick first gids same]
          exact same other inside wants
      · rw [if_neg alone]
        simp only [List.all_eq_true, not_forall, Bool.or_eq_true, Bool.not_eq_true', sameEndpoint_iff, not_or,
          Bool.not_eq_false] at alone
        obtain ⟨gid, inside, wants, apart⟩ := alone
        constructor
        case noDev => exact iff_of_false (by simp) fun none => none first member want
        case exist => exact iff_of_true rfl ⟨first, member, gid, inside, want, wants, apart⟩
        case errors => exact fun error failed => ⟨.inr (by simpa using failed.symm), rfl⟩
        case selected => exact fun absurd => by cases absurd

theorem pick_preferred {best : Gid} {gids : List Gid}
    (exists_preferred : ∃ gid ∈ gids, wanted gid = true ∧ preferred gid = true) :
    preferred (pick wanted preferred best gids) = true := by
  obtain ⟨gid, member, want, prefers⟩ := exists_preferred
  unfold pick
  split
  · assumption
  cases found : gids.find? fun gid => wanted gid && preferred gid with
  | none =>
      have missed := List.find?_eq_none.mp found gid member
      simp [want, prefers] at missed
  | some other =>
      have both := List.find?_some found
      rw [Bool.and_eq_true] at both
      exact both.2

theorem selectFrom_preferred {gids : List Gid} {gid : Gid}
    (selected : selectFrom wanted (better preferred) none gids = (gid.select, none))
    (exists_preferred : ∃ gid ∈ gids, wanted gid = true ∧ preferred gid = true) :
    ∃ other, preferred other = true ∧ other.select = gid.select := by
  rw [selectFrom_none] at selected
  split at selected
  · cases selected
  · split at selected
    · exact ⟨_, pick_preferred exists_preferred, congrArg Prod.fst selected⟩
    · cases selected

/-- Two tables with the same GIDs have the same error, and selections of one endpoint. -/
theorem Selects.perm {wanted : Gid → Prop} {gids gids' : List Gid} {result result' : Selection × Option Errno}
    (selects : Selects wanted gids result) (selects' : Selects wanted gids' result') (perm : gids.Perm gids') :
    result.2 = result'.2 ∧ (result.2 = none → ∃ gid gid', gid ∈ gids ∧ gid' ∈ gids' ∧ wanted gid ∧ wanted gid' ∧
      result.1 = gid.select ∧ result'.1 = gid'.select ∧ gid.endpoint = gid'.endpoint) := by
  have noDev : result.2 = some .eNoDev ↔ result'.2 = some .eNoDev := by
    rw [selects.noDev, selects'.noDev]
    exact ⟨fun unwanted gid member => unwanted gid (perm.mem_iff.mpr member),
      fun unwanted gid member => unwanted gid (perm.mem_iff.mp member)⟩
  have exist : result.2 = some .eExist ↔ result'.2 = some .eExist := by
    rw [selects.exist, selects'.exist]
    constructor
    · rintro ⟨gid, inside, other, also, apart⟩
      exact ⟨gid, perm.mem_iff.mp inside, other, perm.mem_iff.mp also, apart⟩
    · rintro ⟨gid, inside, other, also, apart⟩
      exact ⟨gid, perm.mem_iff.mpr inside, other, perm.mem_iff.mpr also, apart⟩
  have same : result.2 = result'.2 := by
    cases failed : result.2 with
    | none =>
        cases failed' : result'.2 with
        | none => rfl
        | some error =>
            rcases (selects'.errors error failed').1 with rfl | rfl
            · exact absurd (noDev.mpr failed') (by simp [failed])
            · exact absurd (exist.mpr failed') (by simp [failed])
    | some error =>
        rcases (selects.errors error failed).1 with rfl | rfl
        · exact (noDev.mp failed).symm
        · exact (exist.mp failed).symm
  refine ⟨same, fun succeeded => ?_⟩
  obtain ⟨gid, member, wants, chosen, -⟩ := selects.selected succeeded
  obtain ⟨gid', member', wants', chosen', alone⟩ := selects'.selected (same ▸ succeeded)
  exact ⟨gid, gid', member, member', wants, wants', chosen, chosen', alone gid (perm.mem_iff.mp member) wants⟩

end Pass

/-! ## Address ranges -/

/-- The bits of a byte, the most significant first. -/
def byteBits (byte : UInt8) : List Bool := (List.range 8).map fun i => byte.toNat.testBit (7 - i)

def bitsOf (bytes : List UInt8) : List Bool := bytes.flatMap byteBits

/-- The bits of the address in its family. -/
def Addr.bits (addr : Addr) : List Bool :=
  if addr.family = afInet then bitsOf (addr.bytes.toList.drop 12)
  else if addr.family = afInet6 then bitsOf addr.bytes.toList
  else []

theorem length_byteBits (byte : UInt8) : (byteBits byte).length = 8 := by simp [byteBits]

theorem length_bytes (addr : Addr) : addr.bytes.toList.length = 16 := addr.bytes.length_toList

theorem length_bitsOf (bytes : List UInt8) : (bitsOf bytes).length = 8 * bytes.length := by
  induction bytes with
  | nil => rfl
  | cons byte rest ih =>
      rw [bitsOf, List.flatMap_cons, List.length_append, length_byteBits]
      rw [bitsOf] at ih
      rw [ih, List.length_cons]
      omega

theorem byteBits_inj {a b : UInt8} : byteBits a = byteBits b ↔ a = b := by
  refine ⟨fun same => ?_, congrArg byteBits⟩
  refine UInt8.toNat_inj.mp (Nat.eq_of_testBit_eq fun i => ?_)
  by_cases small : i < 8
  · have bit := congrArg (fun bits => bits[7 - i]?) same
    simpa [byteBits, show 7 - (7 - i) = i by omega, show 7 - i < 8 by omega] using bit
  · have high (byte : UInt8) : byte.toNat.testBit i = false :=
      Nat.testBit_lt_two_pow (byte.toNat_lt.trans_le (Nat.pow_le_pow_right (by decide) (not_lt.mp small)))
    rw [high a, high b]

theorem testBit_mask : ∀ bits < 8, ∀ i < 8, 0 < bits →
    ((0xff : UInt8) <<< (8 - bits).toUInt8).toNat.testBit i = decide (8 - bits ≤ i) := by
  decide

theorem masked_eq_iff {a b : UInt8} {bits : Nat} (some : 0 < bits) (few : bits < 8) :
    a &&& 0xff <<< (8 - bits).toUInt8 = b &&& 0xff <<< (8 - bits).toUInt8 ↔
      (byteBits a).take bits = (byteBits b).take bits := by
  have masked (byte : UInt8) {i : Nat} (small : i < 8) :
      (byte &&& 0xff <<< (8 - bits).toUInt8).toNat.testBit i = (byte.toNat.testBit i && decide (8 - bits ≤ i)) := by
    rw [UInt8.toNat_and, Nat.testBit_and, testBit_mask bits few i small some]
  have leading (byte : UInt8) {k : Nat} (inside : k < bits) :
      ((byteBits byte).take bits)[k]? = Option.some (byte.toNat.testBit (7 - k)) := by
    simp [byteBits, inside, show k < 8 by omega]
  constructor
  · intro same
    refine List.ext_getElem? fun k => ?_
    by_cases inside : k < bits
    · have bit := congrArg (fun byte => byte.toNat.testBit (7 - k)) same
      simp only [masked a (show 7 - k < 8 by omega), masked b (show 7 - k < 8 by omega),
        decide_eq_true (show 8 - bits ≤ 7 - k by omega), Bool.and_true] at bit
      rw [leading a inside, leading b inside, bit]
    · rw [List.getElem?_eq_none (by simp; omega), List.getElem?_eq_none (by simp; omega)]
  · intro same
    refine UInt8.toNat_inj.mp (Nat.eq_of_testBit_eq fun i => ?_)
    by_cases small : i < 8
    · rw [masked a small, masked b small]
      by_cases kept : 8 - bits ≤ i
      · have bit := congrArg (fun list => list[7 - i]?) same
        simp only [leading a (show 7 - i < bits by omega), leading b (show 7 - i < bits by omega),
          show 7 - (7 - i) = i by omega, Option.some.injEq] at bit
        rw [bit]
      · rw [decide_eq_false kept, Bool.and_false, Bool.and_false]
    · have high (byte : UInt8) : byte.toNat.testBit i = false :=
        Nat.testBit_lt_two_pow (byte.toNat_lt.trans_le (Nat.pow_le_pow_right (by decide) (not_lt.mp small)))
      rw [high, high]

theorem take_bitsOf {bytes : List UInt8} {full rest : Nat} (bound : full < bytes.length ∨ (rest = 0 ∧ full ≤ bytes.length))
    (small : rest < 8) :
    (bitsOf bytes).take (8 * full + rest) = bitsOf (bytes.take full) ++ (byteBits (bytes.getD full 0)).take rest := by
  induction bytes generalizing full with
  | nil =>
      obtain ⟨rfl, none⟩ := bound.resolve_left (Nat.not_lt_zero _)
      simp [bitsOf]
  | cons byte tail ih =>
      have cons : bitsOf (byte :: tail) = byteBits byte ++ bitsOf tail := List.flatMap_cons
      cases full with
      | zero =>
          rw [cons, Nat.mul_zero, Nat.zero_add, List.take_append_of_le_length (by rw [length_byteBits]; exact small.le)]
          rfl
      | succ full =>
          have next : full < tail.length ∨ (rest = 0 ∧ full ≤ tail.length) := by
            simp only [List.length_cons] at bound
            omega
          have width : 8 * (full + 1) + rest = (byteBits byte).length + (8 * full + rest) := by
            rw [length_byteBits]
            omega
          rw [cons, width, List.take_length_add_append, ih next, List.take_succ_cons, List.getD_cons_succ]
          exact (List.append_assoc ..).symm

theorem bitsOf_inj {a b : List UInt8} (same : a.length = b.length) : bitsOf a = bitsOf b ↔ a = b := by
  refine ⟨fun equal => ?_, congrArg bitsOf⟩
  induction a generalizing b with
  | nil => exact (List.length_eq_zero_iff.mp same.symm).symm
  | cons byte rest ih =>
      cases b with
      | nil => cases same
      | cons byte' rest' =>
          have parts : byteBits byte ++ bitsOf rest = byteBits byte' ++ bitsOf rest' := equal
          obtain ⟨first, later⟩ := List.append_inj parts (by rw [length_byteBits, length_byteBits])
          rw [byteBits_inj.mp first, ih (by simpa using same) later]

theorem prefixMatchBytes_iff {addr range : List UInt8} {size : Nat} (sized : addr.length = size)
    (sized' : range.length = size) (bits : Nat) :
    prefixMatchBytes addr range bits (8 * size) = true ↔
      bits ≤ (bitsOf range).length ∧ (bitsOf addr).take bits = (bitsOf range).take bits := by
  have same : addr.length = range.length := sized.trans sized'.symm
  rw [length_bitsOf, sized', ← sized]
  by_cases long : bits > 8 * addr.length
  · simp [prefixMatchBytes, long, Nat.not_le.mpr long]
  have inside : bits / 8 < addr.length ∨ (bits % 8 = 0 ∧ bits / 8 ≤ addr.length) := by omega
  have inside' : bits / 8 < range.length ∨ (bits % 8 = 0 ∧ bits / 8 ≤ range.length) := same ▸ inside
  have small : bits % 8 < 8 := Nat.mod_lt _ (by decide)
  have leading (bytes : List UInt8) (bound : bits / 8 < bytes.length ∨ (bits % 8 = 0 ∧ bits / 8 ≤ bytes.length)) :
      (bitsOf bytes).take bits =
        bitsOf (bytes.take (bits / 8)) ++ (byteBits (bytes.getD (bits / 8) 0)).take (bits % 8) := by
    rw [← take_bitsOf bound small, Nat.div_add_mod]
  have halves : (addr.take (bits / 8)).length = (range.take (bits / 8)).length := by
    rw [List.length_take, List.length_take, same]
  have split : (bitsOf addr).take bits = (bitsOf range).take bits ↔
      addr.take (bits / 8) = range.take (bits / 8) ∧
        (byteBits (addr.getD (bits / 8) 0)).take (bits % 8) = (byteBits (range.getD (bits / 8) 0)).take (bits % 8) := by
    rw [leading addr inside, leading range inside', ← bitsOf_inj halves]
    refine ⟨fun equal => List.append_inj equal ?_, fun equal => by rw [equal.1, equal.2]⟩
    rw [length_bitsOf, length_bitsOf, halves]
  simp only [prefixMatchBytes, if_neg long, not_lt.mp long, true_and, split]
  by_cases first : addr.take (bits / 8) = range.take (bits / 8)
  · rw [if_neg (by simp [first])]
    by_cases aligned : bits % 8 = 0
    · simp [aligned, first]
    · rw [if_pos aligned, decide_eq_true_eq, masked_eq_iff (Nat.pos_of_ne_zero aligned) small]
      simp [first]
  · have some : bits / 8 ≠ 0 := by
      intro zero
      simp [zero] at first
    simp [first, some]

/-! ## The GIDs that are wanted -/

/-- A RoCE GID with the address that the route sends from. -/
structure HasSource (route : Route) (gid : Gid) : Prop where
  roce : gid.gidType = gidRoceV1 ∨ gid.gidType = gidRoceV2
  source : gid.addr = route.localSrcAddr

/-- The leading bits of the address are those of the range, if there is one. -/
def InRange (policy : NcclPolicy) (gid : Gid) : Prop :=
  policy.hasAddrRange = true →
    policy.addrRange.family = policy.family ∧ (policy.family = afInet ∨ policy.family = afInet6) ∧
      policy.addrRangeBits.toNat ≤ policy.addrRange.bits.length ∧
      gid.addr.bits.take policy.addrRangeBits.toNat = policy.addrRange.bits.take policy.addrRangeBits.toNat

structure MeetsPolicy (policy : NcclPolicy) (gid : Gid) : Prop where
  global : gid.isGlobalRoce = true
  family : gid.addr.family = policy.family
  version : gid.roceVersion = policy.roceVersion
  range : InRange policy gid

theorem llamaWanted_iff {route : Route} {gid : Gid} : llamaWanted route gid = true ↔ HasSource route gid := by
  simp only [llamaWanted, Gid.isRoce, Bool.and_eq_true, Bool.or_eq_true, decide_eq_true_eq]
  exact ⟨fun ⟨roce, source⟩ => ⟨roce, source⟩, fun ⟨roce, source⟩ => ⟨roce, source⟩⟩

theorem matchesRange_iff {policy : NcclPolicy} {gid : Gid} (family : gid.addr.family = policy.family) :
    gid.matchesRange policy = true ↔ InRange policy gid := by
  unfold Gid.matchesRange InRange
  by_cases ranged : policy.hasAddrRange = true
  · by_cases same : policy.addrRange.family = policy.family
    · by_cases inet : policy.family = afInet
      · have sized (addr : Addr) : (addr.bytes.toList.drop 12).length = 4 := by rw [List.length_drop, length_bytes]
        have matched := prefixMatchBytes_iff (sized gid.addr) (sized policy.addrRange) policy.addrRangeBits.toNat
        simp [ranged, same, family, inet, Addr.bits, ← matched]
      · by_cases inet6 : policy.family = afInet6
        · have matched := prefixMatchBytes_iff (length_bytes gid.addr) (length_bytes policy.addrRange)
            policy.addrRangeBits.toNat
          have other : afInet6 ≠ afInet := by decide
          simp [ranged, same, family, inet6, other, Addr.bits, ← matched]
        · simp [ranged, same, family, inet, inet6]
    · simp [ranged, same, family]
  · simp [ranged]

theorem ncclWanted_iff {policy : NcclPolicy} {gid : Gid} : ncclWanted policy gid = true ↔ MeetsPolicy policy gid := by
  simp only [ncclWanted, Bool.and_eq_true, decide_eq_true_eq]
  constructor
  · rintro ⟨⟨⟨global, family⟩, version⟩, range⟩
    exact ⟨global, family, version, (matchesRange_iff family).mp range⟩
  · rintro ⟨global, family, version, range⟩
    exact ⟨⟨⟨global, family⟩, version⟩, (matchesRange_iff family).mpr range⟩

/-! ## The selectors -/

def isRoceV2 (gid : Gid) : Bool := gid.gidType = gidRoceV2

theorem selectLlama_eq (gids : List Gid) (route : Route) :
    selectLlama gids route = selectFrom (llamaWanted route) (better isRoceV2) none gids := by
  have same : llamaBetter = better isRoceV2 := by
    funext best gid
    simp [llamaBetter, better, isRoceV2]
  rw [selectLlama, same]

theorem selectNccl_eq (gids : List Gid) (policy : NcclPolicy) :
    selectNccl gids policy = selectFrom (ncclWanted policy) (better fun _ => false) none gids := by
  have same : (fun _ _ => false) = better fun _ => false := by
    funext best gid
    rfl
  rw [selectNccl, same]

theorem selectLlama_selects (gids : List Gid) (route : Route) :
    Selects (HasSource route) gids (selectLlama gids route) := by
  have selects := selectFrom_selects (llamaWanted route) isRoceV2 gids
  simp only [llamaWanted_iff, ← selectLlama_eq] at selects
  exact selects

theorem selectNccl_selects (gids : List Gid) (policy : NcclPolicy) :
    Selects (MeetsPolicy policy) gids (selectNccl gids policy) := by
  have selects := selectFrom_selects (ncclWanted policy) (fun _ => false) gids
  simp only [ncclWanted_iff, ← selectNccl_eq] at selects
  exact selects

theorem selectLlama_preferred {gids : List Gid} {route : Route} (succeeded : (selectLlama gids route).2 = none)
    (offered : ∃ gid ∈ gids, HasSource route gid ∧ gid.gidType = gidRoceV2) :
    (selectLlama gids route).1.gidType = gidRoceV2 := by
  obtain ⟨gid, -, -, selected, -⟩ := (selectLlama_selects gids route).selected succeeded
  have result : selectLlama gids route = (gid.select, none) := Prod.ext selected succeeded
  rw [selectLlama_eq] at result
  obtain ⟨best, inside, source, type⟩ := offered
  obtain ⟨other, prefers, same⟩ := selectFrom_preferred result
    ⟨best, inside, llamaWanted_iff.mpr source, decide_eq_true type⟩
  rw [selected, ← same]
  exact of_decide_eq_true prefers

/-- The error, the endpoint and the type do not depend on the order of the table. -/
structure SameChoice (result result' : Selection × Option Errno) : Prop where
  error : result.2 = result'.2
  device : result.1.deviceId = result'.1.deviceId
  port : result.1.port = result'.1.port
  type : result.1.gidType = result'.1.gidType

theorem Selects.sameChoice {wanted : Gid → Prop} {gids gids' : List Gid} {result result' : Selection × Option Errno}
    (selects : Selects wanted gids result) (selects' : Selects wanted gids' result') (perm : gids.Perm gids')
    (type : ∀ gid ∈ gids, ∀ gid' ∈ gids', wanted gid → wanted gid' → result = (gid.select, none) →
      result' = (gid'.select, none) → gid.gidType = gid'.gidType) : SameChoice result result' := by
  obtain ⟨error, success⟩ := selects.perm selects' perm
  cases failed : result.2 with
  | some found =>
      have cleared : result.1 = result'.1 := by
        rw [(selects.errors found failed).2, (selects'.errors found (error ▸ failed)).2]
      exact ⟨error, congrArg _ cleared, congrArg _ cleared, congrArg _ cleared⟩
  | none =>
      obtain ⟨gid, gid', member, member', wants, wants', selected, selected', endpoint⟩ := success failed
      have same := type gid member gid' member' wants wants' (Prod.ext selected failed)
        (Prod.ext selected' (error ▸ failed))
      refine ⟨error, ?_, ?_, ?_⟩ <;> rw [selected, selected']
      · exact congrArg Prod.fst endpoint
      · exact congrArg Prod.snd endpoint
      · exact same

theorem selectLlama_perm {gids gids' : List Gid} (route : Route) (perm : gids.Perm gids') :
    SameChoice (selectLlama gids route) (selectLlama gids' route) := by
  refine (selectLlama_selects gids route).sameChoice (selectLlama_selects gids' route) perm ?_
  intro gid member gid' member' source source' selected selected'
  by_cases offered : ∃ best ∈ gids, HasSource route best ∧ best.gidType = gidRoceV2
  · have succeeded : (selectLlama gids route).2 = none := by rw [selected]
    have succeeded' : (selectLlama gids' route).2 = none := by rw [selected']
    have here := selectLlama_preferred succeeded offered
    obtain ⟨best, inside, also⟩ := offered
    have there := selectLlama_preferred succeeded' ⟨best, perm.mem_iff.mp inside, also⟩
    rw [selected] at here
    rw [selected'] at there
    exact Eq.trans here there.symm
  · have plain (other : Gid) (inside : other ∈ gids) (source : HasSource route other) : other.gidType = gidRoceV1 :=
      source.roce.resolve_right fun v2 => offered ⟨other, inside, source, v2⟩
    rw [plain gid member source, plain gid' (perm.mem_iff.mpr member') source']

theorem type_of_version {gid gid' : Gid} (global : gid.isGlobalRoce = true) (global' : gid'.isGlobalRoce = true)
    (same : gid.roceVersion = gid'.roceVersion) : gid.gidType = gid'.gidType := by
  have roce (other : Gid) (global : other.isGlobalRoce = true) :
      other.gidType = gidRoceV1 ∨ other.gidType = gidRoceV2 := by
    simp only [Gid.isGlobalRoce, Gid.isRoce, Bool.and_eq_true, Bool.or_eq_true, decide_eq_true_eq] at global
    exact global.1.1.1
  have differ : gidRoceV2 ≠ gidRoceV1 := by decide
  unfold Gid.roceVersion at same
  rcases roce gid global with type | type <;> rcases roce gid' global' with type' | type' <;>
    simp [type, type', differ] at same ⊢

theorem selectNccl_perm {gids gids' : List Gid} (policy : NcclPolicy) (perm : gids.Perm gids') :
    SameChoice (selectNccl gids policy) (selectNccl gids' policy) := by
  refine (selectNccl_selects gids policy).sameChoice (selectNccl_selects gids' policy) perm ?_
  intro gid _ gid' _ meets meets' _ _
  exact type_of_version meets.global meets'.global (meets.version.trans meets'.version.symm)

/-- Both selectors decide existence, ambiguity and preference as the whole table says. -/
theorem gid_selection_exact (gids : List Gid) (route : Route) (policy : NcclPolicy) :
    Selects (HasSource route) gids (selectLlama gids route) ∧
    ((selectLlama gids route).2 = none → (∃ gid ∈ gids, HasSource route gid ∧ gid.gidType = gidRoceV2) →
      (selectLlama gids route).1.gidType = gidRoceV2) ∧
    Selects (MeetsPolicy policy) gids (selectNccl gids policy) ∧
    ∀ gids', gids.Perm gids' → SameChoice (selectLlama gids route) (selectLlama gids' route) ∧
      SameChoice (selectNccl gids policy) (selectNccl gids' policy) :=
  ⟨selectLlama_selects gids route, selectLlama_preferred, selectNccl_selects gids policy,
    fun _ perm => ⟨selectLlama_perm route perm, selectNccl_perm policy perm⟩⟩

def bridgeGid (deviceId : UInt32) (gidType : UInt8) : Gid where
  deviceId := deviceId
  port := 1
  gidIndex := gidType
  gidType := gidType
  addr := addrV4 192 168 23 136

def bridgeRoute : Route where
  localSrcAddr := addrV4 192 168 23 136

theorem gid_selection_exact_bridge :
    (selectLlama [bridgeGid 5 gidRoceV1, bridgeGid 5 gidRoceV2] bridgeRoute).1.gidType = gidRoceV2 ∧
      SameChoice (selectLlama [bridgeGid 5 gidRoceV1, bridgeGid 6 gidRoceV2] bridgeRoute)
        (selectLlama [bridgeGid 6 gidRoceV2, bridgeGid 5 gidRoceV1] bridgeRoute) :=
  ⟨(gid_selection_exact _ bridgeRoute ncclPolicyDefault).2.1 (by decide)
      ⟨bridgeGid 5 gidRoceV2, by simp, ⟨.inr rfl, rfl⟩, rfl⟩,
    ((gid_selection_exact _ bridgeRoute ncclPolicyDefault).2.2.2 _ (.swap _ _ _)).1⟩

end ThunderboltVerbs.Config
