import ThunderboltVerbs.Config.Compat
import ThunderboltVerbs.Lib.Calls

/-!
# The configuration of a link (`proto/config.c`)

A link is configured while it is empty or a draft. Sealing it selects the GID, and from then on it can only be
activated and deactivated.
-/

namespace ThunderboltVerbs.Config
open Proto Lib

def maxAppGids : Nat := 8

def backendNone : UInt8 := 0
def backendNative : UInt8 := 1
def backendApple : UInt8 := 2

inductive CfgState
  | empty | draft | sealed | active
  deriving DecidableEq, Repr

def Gid.zero : Gid where
  deviceId := 0
  port := 0
  gidIndex := 0
  gidType := 0
  addr := {}

/-- The entries of `appGids` from `appGidCount` on are left over. -/
structure CfgLink where
  linkId : UInt32
  state : CfgState := .empty
  backend : UInt8 := backendNone
  routeSet : Bool := false
  ncclPolicySet : Bool := false
  route : Route := {}
  ncclPolicy : NcclPolicy := ncclPolicyDefault
  appGids : List Gid := List.replicate maxAppGids .zero
  appGidCount : Nat := 0
  appSelection : Selection := {}
  deriving DecidableEq, Repr

namespace CfgLink

def init (linkId : UInt32) : CfgLink := { linkId }

def isMutable (link : CfgLink) : Bool := link.state = .empty || link.state = .draft

def setBackend (link : CfgLink) (backend : UInt8) : CfgLink × Option Errno :=
  if !link.isMutable then (link, some .eBusy)
  else if backend ≠ backendNative ∧ backend ≠ backendApple then (link, some .eInval)
  else ({ link with backend, state := .draft }, none)

def setRoute (link : CfgLink) (route : Route) : CfgLink × Option Errno :=
  if !link.isMutable then (link, some .eBusy)
  else ({ link with route, routeSet := true, state := .draft }, none)

def setNcclPolicy (link : CfgLink) (ncclPolicy : NcclPolicy) : CfgLink × Option Errno :=
  if !link.isMutable then (link, some .eBusy)
  else ({ link with ncclPolicy, ncclPolicySet := true, state := .draft }, none)

/-- `none` is a null pointer. -/
def setAppGids (link : CfgLink) (gids : Option (List Gid)) : CfgLink × Option Errno :=
  if !link.isMutable then (link, some .eBusy)
  else
    match gids with
    | none => (link, some .eInval)
    | some gids =>
        if gids.length = 0 ∨ gids.length > maxAppGids then (link, some .eInval)
        else
          ({ link with
              appGids := gids ++ link.appGids.drop gids.length, appGidCount := gids.length, state := .draft },
            none)

def storedGids (link : CfgLink) : List Gid := link.appGids.take link.appGidCount

def effectivePolicy (link : CfgLink) : NcclPolicy :=
  if !link.ncclPolicySet then ncclPolicyDefault else link.ncclPolicy

/-- The selection is written to the link also when it is not sealed. -/
def sealLink (link : CfgLink) : CfgLink × Option Errno :=
  if !link.isMutable then (link, some .eBusy)
  else if link.backend ≠ backendNative ∧ link.backend ≠ backendApple then (link, some .eInval)
  else if !link.routeSet ∨ link.appGidCount = 0 then (link, some .eInval)
  else
    match validateAppCompat link.storedGids link.route link.effectivePolicy with
    | (appSelection, some error) => ({ link with appSelection }, some error)
    | (appSelection, none) => ({ link with appSelection, state := .sealed }, none)

def activate (link : CfgLink) : CfgLink × Option Errno :=
  if link.state ≠ .sealed then (link, some .eInval) else ({ link with state := .active }, none)

def deactivate (link : CfgLink) : CfgLink × Option Errno :=
  if link.state ≠ .active then (link, some .eInval) else ({ link with state := .sealed }, none)

end CfgLink

inductive CfgCall
  | setBackend (backend : UInt8)
  | setRoute (route : Route)
  | setNcclPolicy (policy : NcclPolicy)
  | setAppGids (gids : Option (List Gid))
  | sealLink
  | activate
  | deactivate
  deriving DecidableEq, Repr

def CfgLink.call (link : CfgLink) : CfgCall → CfgLink × Option Errno
  | .setBackend backend => link.setBackend backend
  | .setRoute route => link.setRoute route
  | .setNcclPolicy policy => link.setNcclPolicy policy
  | .setAppGids gids => link.setAppGids gids
  | .sealLink => link.sealLink
  | .activate => link.activate
  | .deactivate => link.deactivate

namespace CfgLink

variable {link link' : CfgLink}

/-! ## The selection of a link -/

/-- A link that can be configured has no selection; one that is sealed has the selection of its configuration. -/
structure Consistent (link : CfgLink) : Prop where
  draft : link.isMutable = true → link.appSelection = {}
  sealed : link.isMutable = false →
    validateAppCompat link.storedGids link.route link.effectivePolicy = (link.appSelection, none)
  count : link.appGidCount ≤ maxAppGids

/-- A call does nothing, configures a link that can be configured, seals it, or moves between sealed and active. -/
inductive Change (link : CfgLink) : CfgLink × Option Errno → Prop
  | refused (error : Errno) : Change link (link, some error)
  | configured {link' : CfgLink} (configurable : link.isMutable = true) (draft : link'.state = .draft)
      (selection : link'.appSelection = link.appSelection) (count : link'.appGidCount ≤ maxAppGids ∨
        link'.appGidCount = link.appGidCount) : Change link (link', none)
  | unsealed (error : Errno) (configurable : link.isMutable = true) :
      Change link ({ link with appSelection := {} }, some error)
  | sealed (appSelection : Selection) (configurable : link.isMutable = true)
      (validated : validateAppCompat link.storedGids link.route link.effectivePolicy = (appSelection, none)) :
      Change link ({ link with appSelection, state := .sealed }, none)
  | moved (state : CfgState) (fixed : link.isMutable = false) (after : state = .sealed ∨ state = .active) :
      Change link ({ link with state }, none)

theorem change_call (link : CfgLink) (call : CfgCall) : Change link (link.call call) := by
  cases configurable : link.isMutable with
  | false =>
      cases call with
      | setBackend | setRoute | setNcclPolicy | setAppGids | sealLink =>
          simp only [CfgLink.call, setBackend, setRoute, setNcclPolicy, setAppGids, sealLink, configurable,
            Bool.not_false, if_true]
          exact .refused .eBusy
      | activate =>
          simp only [CfgLink.call, activate]
          split
          · exact .refused .eInval
          · exact .moved .active configurable (.inr rfl)
      | deactivate =>
          simp only [CfgLink.call, deactivate]
          split
          · exact .refused .eInval
          · exact .moved .sealed configurable (.inl rfl)
  | true =>
      have early : link.state = .empty ∨ link.state = .draft := by simpa [isMutable] using configurable
      cases call with
      | setBackend backend =>
          simp only [CfgLink.call, setBackend, configurable, Bool.not_true, Bool.false_eq_true, if_false]
          split
          · exact .refused .eInval
          · exact .configured configurable rfl rfl (.inr rfl)
      | setRoute route =>
          simp only [CfgLink.call, setRoute, configurable, Bool.not_true, Bool.false_eq_true, if_false]
          exact .configured configurable rfl rfl (.inr rfl)
      | setNcclPolicy policy =>
          simp only [CfgLink.call, setNcclPolicy, configurable, Bool.not_true, Bool.false_eq_true, if_false]
          exact .configured configurable rfl rfl (.inr rfl)
      | setAppGids gids =>
          simp only [CfgLink.call, setAppGids, configurable, Bool.not_true, Bool.false_eq_true, if_false]
          split
          · exact .refused .eInval
          split
          · exact .refused .eInval
          · rename_i fits
            exact .configured configurable rfl rfl (.inl (not_lt.mp (not_or.mp fits).2))
      | sealLink =>
          simp only [CfgLink.call, sealLink, configurable, Bool.not_true, Bool.false_eq_true, if_false]
          split
          · exact .refused .eInval
          split
          · exact .refused .eInval
          rcases validated : validateAppCompat link.storedGids link.route link.effectivePolicy with ⟨selection, _ | error⟩
          · exact .sealed selection configurable validated
          · have cleared := validate_cleared (congrArg Prod.snd validated)
            rw [validated] at cleared
            dsimp only at cleared ⊢
            rw [cleared]
            exact .unsealed error configurable
      | activate =>
          have unsealed : link.state ≠ .sealed := by rcases early with state | state <;> simp [state]
          simp only [CfgLink.call, activate, if_pos unsealed]
          exact .refused .eInval
      | deactivate =>
          have inactive : link.state ≠ .active := by rcases early with state | state <;> simp [state]
          simp only [CfgLink.call, deactivate, if_pos inactive]
          exact .refused .eInval

theorem Consistent.init (linkId : UInt32) : (CfgLink.init linkId).Consistent where
  draft _ := rfl
  sealed fixed := by cases fixed
  count := Nat.zero_le _

theorem Consistent.call (consistent : link.Consistent) (call : CfgCall) : (link.call call).1.Consistent := by
  have change := change_call link call
  generalize link.call call = result at change ⊢
  cases change with
  | refused error => exact consistent
  | configured configurable draft selection count =>
      constructor
      case draft => exact fun _ => selection.trans (consistent.draft configurable)
      case sealed =>
        intro fixed
        simp [isMutable, draft] at fixed
      case count =>
        rcases count with bounded | same
        · exact bounded
        · exact same.trans_le consistent.count
  | unsealed error configurable =>
      constructor
      case draft => exact fun _ => rfl
      case sealed => exact fun fixed => absurd (configurable.symm.trans fixed) (by decide)
      case count => exact consistent.count
  | sealed appSelection configurable validated =>
      constructor
      case draft => exact fun configurable => by simp [isMutable] at configurable
      case sealed => exact fun _ => validated
      case count => exact consistent.count
  | moved state fixed after =>
      constructor
      case draft =>
        intro configurable
        rcases after with rfl | rfl <;> simp [isMutable] at configurable
      case sealed => exact fun _ => consistent.sealed fixed
      case count => exact consistent.count

/-- Only a link that can be configured could lose a selection, and it has none. -/
theorem Consistent.unchanged (consistent : link.Consistent) {call : CfgCall} {error : Errno}
    (failed : (link.call call).2 = some error) : (link.call call).1 = link := by
  have change := change_call link call
  generalize link.call call = result at change failed ⊢
  cases change with
  | refused error => rfl
  | unsealed error configurable =>
      have none := consistent.draft configurable
      cases link
      simpa using none.symm
  | configured | sealed | moved => cases failed

/-- What sealing fixes. -/
structure SameConfig (link link' : CfgLink) : Prop where
  fixed : link'.isMutable = false
  backend : link'.backend = link.backend
  route : link'.route = link.route
  routeSet : link'.routeSet = link.routeSet
  ncclPolicy : link'.ncclPolicy = link.ncclPolicy
  ncclPolicySet : link'.ncclPolicySet = link.ncclPolicySet
  appGids : link'.appGids = link.appGids
  appGidCount : link'.appGidCount = link.appGidCount
  appSelection : link'.appSelection = link.appSelection

theorem sameConfig_call (fixed : link.isMutable = false) (call : CfgCall) : SameConfig link (link.call call).1 := by
  have change := change_call link call
  generalize link.call call = result at change ⊢
  cases change with
  | refused error => exact ⟨fixed, rfl, rfl, rfl, rfl, rfl, rfl, rfl, rfl⟩
  | configured configurable | unsealed error configurable | sealed appSelection configurable =>
      exact absurd (configurable.symm.trans fixed) (by decide)
  | moved state _ after =>
      refine ⟨?_, rfl, rfl, rfl, rfl, rfl, rfl, rfl, rfl⟩
      rcases after with rfl | rfl <;> rfl

theorem SameConfig.trans {link'' : CfgLink} (first : SameConfig link link') (second : SameConfig link' link'') :
    SameConfig link link'' where
  fixed := second.fixed
  backend := second.backend.trans first.backend
  route := second.route.trans first.route
  routeSet := second.routeSet.trans first.routeSet
  ncclPolicy := second.ncclPolicy.trans first.ncclPolicy
  ncclPolicySet := second.ncclPolicySet.trans first.ncclPolicySet
  appGids := second.appGids.trans first.appGids
  appGidCount := second.appGidCount.trans first.appGidCount
  appSelection := second.appSelection.trans first.appSelection

theorem sameConfig_calls (fixed : link.isMutable = false) (script : List CfgCall) :
    SameConfig link (calls CfgLink.call link script).1 :=
  calls_invariant (fun _ call same => same.trans (sameConfig_call same.fixed call))
    ⟨fixed, rfl, rfl, rfl, rfl, rfl, rfl, rfl, rfl⟩ script

theorem fixed_iff : link.isMutable = false ↔ link.state = .sealed ∨ link.state = .active := by
  unfold isMutable
  cases link.state <;> simp

theorem valid_of_validated {gids : List Gid} {route : Route} {policy : NcclPolicy} {selection : Selection}
    (validated : validateAppCompat gids route policy = (selection, none)) : selection.valid = true := by
  obtain ⟨llama, nccl, -, rfl⟩ := validate_ok.mp validated
  rfl

/-- In every run a sealed link has the selection of its configuration, which stays as it is, and a call that
fails changes nothing. -/
theorem link_machine (linkId : UInt32) (script : List CfgCall) :
    let link := (calls CfgLink.call (init linkId) script).1
    (link.state = .sealed ∨ link.state = .active →
      link.appSelection.valid = true ∧
      validateAppCompat link.storedGids link.route link.effectivePolicy = (link.appSelection, none) ∧
      ∀ later, SameConfig link (calls CfgLink.call link later).1) ∧
    link.appGidCount ≤ maxAppGids ∧
    ∀ call error, (link.call call).2 = some error → (link.call call).1 = link := by
  intro link
  have consistent : link.Consistent := calls_invariant (fun _ call held => held.call call) (.init linkId) script
  refine ⟨fun reached => ?_, consistent.count, fun call error => consistent.unchanged⟩
  have fixed := fixed_iff.mpr reached
  have validated := consistent.sealed fixed
  exact ⟨valid_of_validated validated, validated, sameConfig_calls fixed⟩

def canonicalCalls : List CfgCall :=
  [.setBackend backendNative, .setRoute bridgeRoute, .setAppGids (some [bridgeGid 4 gidRoceV2]), .sealLink]

theorem link_machine_canonical :
    let link := (calls CfgLink.call (init 6) canonicalCalls).1
    link.appSelection.valid = true ∧ (link.call (.setBackend backendApple)).1 = link :=
  ⟨((link_machine 6 canonicalCalls).1 (by decide)).1,
    (link_machine 6 canonicalCalls).2.2 (.setBackend backendApple) .eBusy (by decide)⟩

end CfgLink
end ThunderboltVerbs.Config
