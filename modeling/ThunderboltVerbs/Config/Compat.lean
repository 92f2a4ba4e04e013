import ThunderboltVerbs.Config.Selection

/-!
# One GID for both applications

`tbv_id_validate_app_compat` compares what the two selectors took without the address: entries of the table
that share device, port, index and type are taken for one GID.
-/

namespace ThunderboltVerbs.Config
open Proto

/-! ## What the selectors took -/

section Choice

variable {wanted preferred : Gid → Bool}

def choice (wanted preferred : Gid → Bool) (gids : List Gid) : Option Gid :=
  (gids.find? wanted).map fun first => pick wanted preferred first gids

/-- The wanted GIDs lie on one endpoint. -/
def OneEndpoint (wanted : Gid → Bool) (gids : List Gid) : Prop :=
  ∀ gid ∈ gids, ∀ other ∈ gids, wanted gid = true → wanted other = true → gid.endpoint = other.endpoint

theorem select_choice {gids : List Gid} {selection : Selection} :
    selectFrom wanted (better preferred) none gids = (selection, none) ↔
      ∃ gid, choice wanted preferred gids = some gid ∧ selection = gid.select ∧ OneEndpoint wanted gids := by
  rw [selectFrom_none, choice]
  cases found : gids.find? wanted with
  | none => simp
  | some first =>
      have member := List.mem_of_find?_eq_some found
      have want : wanted first = true := List.find?_some found
      have one : gids.all (fun gid => !wanted gid || first.sameEndpoint gid) = true ↔ OneEndpoint wanted gids := by
        simp only [List.all_eq_true, Bool.or_eq_true, Bool.not_eq_true', sameEndpoint_iff]
        constructor
        · intro all gid inside other also wants wants'
          have here := (all gid inside).resolve_left (by simp [wants])
          have there := (all other also).resolve_left (by simp [wants'])
          exact here.symm.trans there
        · intro one gid inside
          cases wants : wanted gid with
          | false => exact .inl rfl
          | true => exact .inr (one first member gid inside want wants)
      simp only [Option.map_some, Option.some.injEq, exists_eq_left']
      by_cases alone : gids.all (fun gid => !wanted gid || first.sameEndpoint gid) = true
      · rw [if_pos alone, ← one]
        simp only [Prod.mk.injEq, and_true, alone]
        exact eq_comm
      · rw [if_neg alone, ← one]
        simp [alone]

theorem choice_mem {gids : List Gid} {gid : Gid} (chosen : choice wanted preferred gids = some gid) :
    gid ∈ gids ∧ wanted gid = true := by
  obtain ⟨first, found, rfl⟩ := Option.map_eq_some_iff.mp chosen
  unfold pick
  split
  · exact ⟨List.mem_of_find?_eq_some found, List.find?_some found⟩
  cases better : gids.find? fun gid => wanted gid && preferred gid with
  | none => exact ⟨List.mem_of_find?_eq_some found, List.find?_some found⟩
  | some gid =>
      have both := List.find?_some better
      rw [Bool.and_eq_true] at both
      exact ⟨List.mem_of_find?_eq_some better, both.1⟩

end Choice

/-- What the comparison looks at. -/
def Gid.compared (gid : Gid) : UInt32 × UInt8 × UInt8 × UInt8 := (gid.deviceId, gid.port, gid.gidIndex, gid.gidType)

/-- Both applications find a GID on one endpoint, and the comparison takes the two for the same. -/
structure Agrees (gids : List Gid) (route : Route) (policy : NcclPolicy) (llama nccl : Gid) : Prop where
  sends : choice (llamaWanted route) isRoceV2 gids = some llama
  fits : choice (ncclWanted policy) (fun _ => false) gids = some nccl
  sends_one : OneEndpoint (llamaWanted route) gids
  fits_one : OneEndpoint (ncclWanted policy) gids
  same : llama.compared = nccl.compared

theorem validate_ok {gids : List Gid} {route : Route} {policy : NcclPolicy} {selection : Selection} :
    validateAppCompat gids route policy = (selection, none) ↔
      ∃ llama nccl, Agrees gids route policy llama nccl ∧ selection = llama.select := by
  constructor
  · intro validated
    unfold validateAppCompat at validated
    rcases selected : selectLlama gids route with ⟨llama, failed⟩
    rcases selected' : selectNccl gids policy with ⟨nccl, failed'⟩
    rw [selected, selected'] at validated
    cases failed with
    | some error => cases validated
    | none =>
    cases failed' with
    | some error => cases validated
    | none =>
    dsimp only at validated
    rw [selectLlama_eq] at selected
    rw [selectNccl_eq] at selected'
    obtain ⟨gid, chosen, rfl, one⟩ := select_choice.mp selected
    obtain ⟨gid', chosen', rfl, one'⟩ := select_choice.mp selected'
    split at validated
    · cases validated
    rename_i same
    cases validated
    refine ⟨gid, gid', ⟨chosen, chosen', one, one', ?_⟩, rfl⟩
    simp only [Gid.select, ne_eq, not_or, not_not] at same
    obtain ⟨device, port, index, type⟩ := same
    simp only [Gid.compared, device, port, index, type]
  · rintro ⟨llama, nccl, agrees, rfl⟩
    have selected : selectLlama gids route = (llama.select, none) := by
      rw [selectLlama_eq]
      exact select_choice.mpr ⟨llama, agrees.sends, rfl, agrees.sends_one⟩
    have selected' : selectNccl gids policy = (nccl.select, none) := by
      rw [selectNccl_eq]
      exact select_choice.mpr ⟨nccl, agrees.fits, rfl, agrees.fits_one⟩
    have same := agrees.same
    simp only [Gid.compared, Prod.mk.injEq] at same
    simp [validateAppCompat, selected, selected', Gid.select, same]

theorem validate_cleared {gids : List Gid} {route : Route} {policy : NcclPolicy} {error : Errno}
    (failed : (validateAppCompat gids route policy).2 = some error) :
    (validateAppCompat gids route policy).1 = {} := by
  revert failed
  unfold validateAppCompat
  rcases selectLlama gids route with ⟨llama, _ | found⟩
  · rcases selectNccl gids policy with ⟨nccl, _ | found⟩
    · dsimp only
      split_ifs
      · exact fun _ => rfl
      · exact fun failed => by cases failed
    · exact fun _ => rfl
  · exact fun _ => rfl

/-! ## When the selection satisfies both -/

/-- A selection that was returned is a GID of the table that both applications can use, and no other endpoint
has a GID for either; with an error the selection is cleared. -/
structure SatisfiesBoth (gids : List Gid) (route : Route) (policy : NcclPolicy)
    (result : Selection × Option Errno) : Prop where
  address : result.2 = none → result.1.addr = route.localSrcAddr
  usable : result.2 = none → ∃ gid ∈ gids, result.1 = gid.select ∧ HasSource route gid ∧ MeetsPolicy policy gid
  alone : result.2 = none → ∀ gid ∈ gids, HasSource route gid ∨ MeetsPolicy policy gid →
    gid.endpoint = (result.1.deviceId, result.1.port)
  cleared : ∀ error, result.2 = some error → result.1 = {}

theorem satisfiesBoth_iff_meets (gids : List Gid) (route : Route) (policy : NcclPolicy) :
    SatisfiesBoth gids route policy (validateAppCompat gids route policy) ↔
      ∀ llama nccl, Agrees gids route policy llama nccl → MeetsPolicy policy llama := by
  constructor
  · intro satisfies llama nccl agrees
    have validated := validate_ok.mpr ⟨llama, nccl, agrees, rfl⟩
    rw [validated] at satisfies
    obtain ⟨gid, -, selected, -, meets⟩ := satisfies.usable rfl
    have same : gid = llama := by
      cases gid
      cases llama
      simpa [Gid.select, eq_comm] using selected
    exact same ▸ meets
  · intro meets
    rcases validated : validateAppCompat gids route policy with ⟨selection, _ | error⟩
    · obtain ⟨llama, nccl, agrees, rfl⟩ := validate_ok.mp validated
      obtain ⟨inside, wants⟩ := choice_mem agrees.sends
      obtain ⟨inside', wants'⟩ := choice_mem agrees.fits
      have source := llamaWanted_iff.mp wants
      constructor
      case address => exact fun _ => source.source
      case usable => exact fun _ => ⟨llama, inside, rfl, source, meets llama nccl agrees⟩
      case alone =>
        intro _ gid member wanted
        rcases wanted with sends | fits
        · exact agrees.sends_one gid member llama inside (llamaWanted_iff.mpr sends) wants
        · have same := agrees.same
          simp only [Gid.compared, Prod.mk.injEq] at same
          rw [agrees.fits_one gid member nccl inside' (ncclWanted_iff.mpr fits) wants']
          exact Prod.ext same.1.symm same.2.1.symm
      case cleared => exact fun error failed => by cases failed
    · have cleared := validate_cleared (congrArg Prod.snd validated)
      rw [validated] at cleared
      have failed : ¬(selection, some error).2 = none := by simp
      constructor
      case address => exact fun succeeded => absurd succeeded failed
      case usable => exact fun succeeded => absurd succeeded failed
      case alone => exact fun succeeded => absurd succeeded failed
      case cleared => exact fun _ _ => cleared

/-- The policy takes a GID with this address, if it has a type that the policy takes. -/
structure AdmitsAddr (policy : NcclPolicy) (addr : Addr) : Prop where
  family : addr.family = policy.family
  known : addr.family ≠ afNone
  nonzero : addr.isZero = false
  global : addr.isLinkLocalV6 = false
  range : policy.hasAddrRange = true →
    policy.addrRange.family = policy.family ∧ (policy.family = afInet ∨ policy.family = afInet6) ∧
      policy.addrRangeBits.toNat ≤ policy.addrRange.bits.length ∧
      addr.bits.take policy.addrRangeBits.toNat = policy.addrRange.bits.take policy.addrRangeBits.toNat

theorem meetsPolicy_iff {policy : NcclPolicy} {gid : Gid} :
    MeetsPolicy policy gid ↔
      (gid.isRoce = true ∧ gid.roceVersion = policy.roceVersion) ∧ AdmitsAddr policy gid.addr := by
  constructor
  · intro meets
    have global := meets.global
    simp only [Gid.isGlobalRoce, Bool.and_eq_true, Bool.not_eq_true', decide_eq_true_eq] at global
    obtain ⟨⟨⟨roce, known⟩, nonzero⟩, routed⟩ := global
    exact ⟨⟨roce, meets.version⟩, meets.family, known, nonzero, routed, meets.range⟩
  · rintro ⟨⟨roce, version⟩, admits⟩
    refine ⟨?_, admits.family, version, admits.range⟩
    simp only [Gid.isGlobalRoce, Bool.and_eq_true, Bool.not_eq_true', decide_eq_true_eq]
    exact ⟨⟨⟨roce, admits.known⟩, admits.nonzero⟩, admits.global⟩

/-- The comparison covers the type, so that only the address is left, which is the one of the route. -/
theorem Agrees.meets_iff {gids : List Gid} {route : Route} {policy : NcclPolicy} {llama nccl : Gid}
    (agrees : Agrees gids route policy llama nccl) : MeetsPolicy policy llama ↔ AdmitsAddr policy route.localSrcAddr := by
  obtain ⟨-, sends⟩ := choice_mem agrees.sends
  obtain ⟨-, fits⟩ := choice_mem agrees.fits
  have source := (llamaWanted_iff.mp sends).source
  have typed := (meetsPolicy_iff.mp (ncclWanted_iff.mp fits)).1
  have same : llama.gidType = nccl.gidType := by
    have compared := agrees.same
    simp only [Gid.compared, Prod.mk.injEq] at compared
    exact compared.2.2.2
  rw [meetsPolicy_iff, source]
  constructor
  · exact And.right
  · intro admits
    refine ⟨?_, admits⟩
    simpa only [Gid.isRoce, Gid.roceVersion, same] using typed

/-! ## Entries that are taken for one -/

/-- The first entry of the table with the property. -/
def IsFirst (wanted : Gid → Prop) (gids : List Gid) (gid : Gid) : Prop :=
  ∃ before after, gids = before ++ gid :: after ∧ wanted gid ∧ ∀ other ∈ before, ¬wanted other

/-- The first entry with the property that has RoCE v2 as well, or the first one if none has. -/
def IsFirstV2 (wanted : Gid → Prop) (gids : List Gid) (gid : Gid) : Prop :=
  IsFirst (fun gid => wanted gid ∧ isRoceV2 gid = true) gids gid ∨
    (IsFirst wanted gids gid ∧ ∀ other ∈ gids, wanted other → isRoceV2 other = false)

/-- Two entries that differ in the address only. One is the first for the route and the other the first for the
policy, and no entry for either is on another endpoint. -/
structure Twins (gids : List Gid) (route : Route) (policy : NcclPolicy) (mine theirs : Gid) : Prop where
  same : mine.compared = theirs.compared
  differ : mine.addr ≠ theirs.addr
  first_mine : IsFirstV2 (HasSource route) gids mine
  first_theirs : IsFirst (MeetsPolicy policy) gids theirs
  alone : ∀ gid ∈ gids, HasSource route gid ∨ MeetsPolicy policy gid → gid.endpoint = mine.endpoint

section First

variable {wanted : Gid → Bool} {gids : List Gid} {gid : Gid}

theorem find_isFirst : gids.find? wanted = some gid ↔ IsFirst (fun gid => wanted gid = true) gids gid := by
  rw [List.find?_eq_some_iff_append, IsFirst]
  constructor
  · rintro ⟨wants, before, after, rfl, others⟩
    refine ⟨before, after, rfl, wants, fun other member => ?_⟩
    simpa using others other member
  · rintro ⟨before, after, rfl, wants, others⟩
    refine ⟨wants, before, after, rfl, fun other member => ?_⟩
    simpa using others other member

theorem choice_isFirst :
    choice wanted (fun _ => false) gids = some gid ↔ IsFirst (fun gid => wanted gid = true) gids gid := by
  rw [← find_isFirst, choice]
  cases found : gids.find? wanted with
  | none => rfl
  | some first =>
      have only : (gids.find? fun gid => wanted gid && false) = none := by simp
      rw [Option.map_some, pick, if_neg Bool.false_ne_true, only, Option.getD_none]

theorem choice_isFirstV2 :
    choice wanted isRoceV2 gids = some gid ↔ IsFirstV2 (fun gid => wanted gid = true) gids gid := by
  have both : IsFirst (fun gid => wanted gid = true ∧ isRoceV2 gid = true) gids gid ↔
      (gids.find? fun gid => wanted gid && isRoceV2 gid) = some gid := by
    simp only [find_isFirst, Bool.and_eq_true]
  rw [IsFirstV2, both, ← find_isFirst, choice]
  cases better : gids.find? fun gid => wanted gid && isRoceV2 gid with
  | none =>
      have plain : ∀ other ∈ gids, wanted other = true → isRoceV2 other = false := by simpa using better
      cases found : gids.find? wanted with
      | none => simp
      | some first =>
          have unfit := plain first (List.mem_of_find?_eq_some found) (List.find?_some found)
          rw [Option.map_some, pick, unfit, if_neg Bool.false_ne_true, better, Option.getD_none]
          constructor
          · exact fun same => .inr ⟨same, plain⟩
          · rintro (absurd | ⟨same, -⟩)
            · cases absurd
            · exact same
  | some best =>
      have fits := List.find?_some better
      rw [Bool.and_eq_true] at fits
      have member := List.mem_of_find?_eq_some better
      have chosen : (gids.find? wanted).map (fun first => pick wanted isRoceV2 first gids) = some best := by
        cases found : gids.find? wanted with
        | none => exact absurd fits.1 (List.find?_eq_none.mp found best member)
        | some first =>
            rw [Option.map_some, pick]
            split
            · rename_i first_fits
              obtain ⟨before, after, split, wants, others⟩ := find_isFirst.mp found
              have same : (gids.find? fun gid => wanted gid && isRoceV2 gid) = some first := by
                refine find_isFirst.mpr ⟨before, after, split, Bool.and_eq_true_iff.mpr ⟨wants, first_fits⟩, ?_⟩
                intro other inside fits
                exact others other inside (Bool.and_eq_true_iff.mp fits).1
              rw [← same, better]
            · rw [better, Option.getD_some]
      rw [chosen]
      constructor
      · exact .inl
      · rintro (same | ⟨-, plain⟩)
        · exact same
        · exact absurd ((plain best member fits.1).symm.trans fits.2) Bool.false_ne_true

end First

theorem twins_of_agrees {gids : List Gid} {route : Route} {policy : NcclPolicy} {llama nccl : Gid}
    (agrees : Agrees gids route policy llama nccl) (differ : llama.addr ≠ nccl.addr) :
    Twins gids route policy llama nccl := by
  obtain ⟨inside, sends⟩ := choice_mem agrees.sends
  obtain ⟨inside', fits⟩ := choice_mem agrees.fits
  have same := agrees.same
  refine ⟨same, differ, ?_, ?_, ?_⟩
  · simpa only [llamaWanted_iff] using choice_isFirstV2.mp agrees.sends
  · simpa only [ncclWanted_iff] using choice_isFirst.mp agrees.fits
  · intro gid member wanted
    rcases wanted with sends' | fits'
    · exact agrees.sends_one gid member llama inside (llamaWanted_iff.mpr sends') sends
    · rw [agrees.fits_one gid member nccl inside' (ncclWanted_iff.mpr fits') fits]
      simp only [Gid.compared, Prod.mk.injEq] at same
      exact Prod.ext same.1.symm same.2.1.symm

theorem Twins.agrees {gids : List Gid} {route : Route} {policy : NcclPolicy} {mine theirs : Gid}
    (twins : Twins gids route policy mine theirs) : Agrees gids route policy mine theirs := by
  refine ⟨?_, ?_, ?_, ?_, twins.same⟩
  · refine choice_isFirstV2.mpr ?_
    simpa only [llamaWanted_iff] using twins.first_mine
  · refine choice_isFirst.mpr ?_
    simpa only [ncclWanted_iff] using twins.first_theirs
  · intro gid inside other also wants wants'
    have here := twins.alone gid inside (.inl (llamaWanted_iff.mp wants))
    exact here.trans (twins.alone other also (.inl (llamaWanted_iff.mp wants'))).symm
  · intro gid inside other also wants wants'
    have here := twins.alone gid inside (.inr (ncclWanted_iff.mp wants))
    exact here.trans (twins.alone other also (.inr (ncclWanted_iff.mp wants'))).symm

/-- The selection satisfies both exactly if the policy takes the address of the route, or the table has no twins. -/
theorem validated_satisfies_both_iff (gids : List Gid) (route : Route) (policy : NcclPolicy) :
    SatisfiesBoth gids route policy (validateAppCompat gids route policy) ↔
      AdmitsAddr policy route.localSrcAddr ∨ ∀ mine theirs, ¬Twins gids route policy mine theirs := by
  rw [satisfiesBoth_iff_meets]
  constructor
  · intro meets
    by_cases admits : AdmitsAddr policy route.localSrcAddr
    · exact .inl admits
    · refine .inr fun mine theirs twins => admits ?_
      exact twins.agrees.meets_iff.mp (meets mine theirs twins.agrees)
  · rintro (admits | none) llama nccl agrees
    · exact agrees.meets_iff.mpr admits
    · have same : llama.addr = nccl.addr := by
        by_contra differ
        exact none llama nccl (twins_of_agrees agrees differ)
      obtain ⟨-, sends⟩ := choice_mem agrees.sends
      obtain ⟨-, fits⟩ := choice_mem agrees.fits
      have admits := (meetsPolicy_iff.mp (ncclWanted_iff.mp fits)).2
      rw [← same, (llamaWanted_iff.mp sends).source] at admits
      exact agrees.meets_iff.mpr admits

/-- In a table whose entries differ in what is compared, the comparison is enough. -/
theorem validated_satisfies_both {gids : List Gid} (route : Route) (policy : NcclPolicy)
    (distinct : ∀ gid ∈ gids, ∀ other ∈ gids, gid.compared = other.compared → gid = other) :
    SatisfiesBoth gids route policy (validateAppCompat gids route policy) := by
  refine (satisfiesBoth_iff_meets gids route policy).mpr fun llama nccl agrees => ?_
  obtain ⟨inside, -⟩ := choice_mem agrees.sends
  obtain ⟨inside', fits⟩ := choice_mem agrees.fits
  rw [distinct llama inside nccl inside' agrees.same]
  exact ncclWanted_iff.mp fits

def rangedPolicy : NcclPolicy :=
  { ncclPolicyDefault with hasAddrRange := true, addrRange := addrV4 10 0 0 0, addrRangeBits := 8 }

def sharedIndex (addr : Addr) : Gid where
  deviceId := 4
  port := 1
  gidIndex := 1
  gidType := gidRoceV2
  addr := addr

/-- Two entries with one index: the selection has an address outside the range of the policy. -/
theorem validated_misses_policy :
    validateAppCompat [sharedIndex (addrV4 10 0 4 2), sharedIndex (addrV4 192 168 23 136)] bridgeRoute rangedPolicy =
        ((sharedIndex (addrV4 192 168 23 136)).select, none) ∧
      ¬SatisfiesBoth [sharedIndex (addrV4 10 0 4 2), sharedIndex (addrV4 192 168 23 136)] bridgeRoute rangedPolicy
        (validateAppCompat [sharedIndex (addrV4 10 0 4 2), sharedIndex (addrV4 192 168 23 136)] bridgeRoute
          rangedPolicy) := by
  refine ⟨by decide, fun satisfies => ?_⟩
  obtain ⟨gid, member, selected, source, meets⟩ := satisfies.usable (by decide)
  have outside : ncclWanted rangedPolicy (sharedIndex (addrV4 192 168 23 136)) = false := by decide
  have first : gid ≠ sharedIndex (addrV4 10 0 4 2) := by
    rintro rfl
    exact absurd source.source (by decide)
  simp only [List.mem_cons, first, false_or, List.not_mem_nil, or_false] at member
  rw [← member, ncclWanted_iff.mpr meets] at outside
  cases outside

end ThunderboltVerbs.Config
