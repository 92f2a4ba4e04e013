import ThunderboltVerbs.Config.Link

/-!
# Transports and published links (`kernel/backend.c`, `kernel/native.c`, `kernel/apple.c`, `kernel/link.c`)
-/

namespace ThunderboltVerbs.Config
open Proto

/-- The bytes of an attribute or a name, one character each. -/
abbrev Text := List Char

inductive BackendType
  | native | apple
  deriving DecidableEq, Repr

structure TransportOps where
  validateConfig : CfgLink → Option Errno
  activate : CfgLink → Option Errno

def nativeValidateConfig (link : CfgLink) : Option Errno :=
  if link.backend ≠ backendNative then some .eInval
  else if !link.appSelection.valid then some .eInval
  else if link.appSelection.gidType ≠ gidRoceV2 then some .eInval
  else none

def appleValidateConfig (link : CfgLink) : Option Errno :=
  if link.backend ≠ backendApple then some .eInval
  else if !link.appSelection.valid then some .eInval
  else none

/-- Activating and deactivating a transport only writes to the log. -/
def transportGet : BackendType → TransportOps
  | .native => { validateConfig := nativeValidateConfig, activate := fun _ => none }
  | .apple => { validateConfig := appleValidateConfig, activate := fun _ => none }

def CfgLink.backendType (link : CfgLink) : BackendType := if link.backend = backendNative then .native else .apple

structure ConfiguredLink where
  linkId : UInt32
  backend : BackendType
  appSelection : Selection
  name : Text
  deriving DecidableEq, Repr

def linkNameMax : Nat := 15

/-- `tbv_link_activate_config`; `alloc` is the answer of `kzalloc`. -/
def linkActivateConfig (configured : List ConfiguredLink) (name : Text) (backend : BackendType) (cfg : CfgLink)
    (alloc : Bool) : List ConfiguredLink × Option Errno :=
  if !cfg.appSelection.valid then (configured, some .eInval)
  else if !alloc then (configured, some .eNoMem)
  else if configured.any fun link => link.linkId = cfg.linkId then (configured, some .eExist)
  else
    (configured ++ [{ linkId := cfg.linkId, backend, appSelection := cfg.appSelection, name := name.take linkNameMax }],
      none)

theorem linkActivateConfig_failed {configured : List ConfiguredLink} {name : Text} {backend : BackendType}
    {cfg : CfgLink} {alloc : Bool} {error : Errno}
    (failed : (linkActivateConfig configured name backend cfg alloc).2 = some error) :
    (linkActivateConfig configured name backend cfg alloc).1 = configured := by
  unfold linkActivateConfig at failed ⊢
  split
  · rfl
  rename_i valid
  rw [if_neg valid] at failed
  split
  · rfl
  rename_i allocated
  rw [if_neg allocated] at failed
  split
  · rfl
  rename_i fresh
  rw [if_neg fresh] at failed
  cases failed

theorem roceV2_of_validated {gids : List Gid} {route : Route} {policy : NcclPolicy} {selection : Selection}
    (version : policy.roceVersion = 2) (validated : validateAppCompat gids route policy = (selection, none)) :
    selection.gidType = gidRoceV2 := by
  obtain ⟨llama, nccl, agrees, rfl⟩ := validate_ok.mp validated
  obtain ⟨-, fits⟩ := choice_mem agrees.fits
  have same := agrees.same
  simp only [Gid.compared, Prod.mk.injEq] at same
  simp only [ncclWanted, Bool.and_eq_true, decide_eq_true_eq, version, Gid.roceVersion] at fits
  rw [Gid.select, same.2.2.2]
  have versioned := fits.1.2
  split at versioned
  · exact absurd versioned (by decide)
  split at versioned
  · assumption
  · exact absurd versioned (by decide)

/-- A link that is sealed under a policy of version 2 passes the check of its transport. -/
theorem validateConfig_of_sealed {link link' : CfgLink} (version : link.effectivePolicy.roceVersion = 2)
    (done : link.sealLink = (link', none)) : (transportGet link'.backendType).validateConfig link' = none := by
  unfold CfgLink.sealLink at done
  split at done
  · cases done
  split at done
  · cases done
  rename_i backend
  split at done
  · cases done
  split at done
  · cases done
  rename_i selection validated
  cases done
  have valid := CfgLink.valid_of_validated validated
  have type := roceV2_of_validated version validated
  by_cases native : link.backend = backendNative
  · simp [transportGet, CfgLink.backendType, native, nativeValidateConfig, valid, type]
  · have apple : link.backend = backendApple := by simpa [native] using backend
    have differ : backendApple ≠ backendNative := by decide
    simp [transportGet, CfgLink.backendType, apple, differ, appleValidateConfig, valid]

end ThunderboltVerbs.Config
