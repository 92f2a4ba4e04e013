import ThunderboltVerbs.Config.Configfs

/-!
# Failed writes

A write of an address stages it before the link refuses it. Every other write that fails leaves everything as
it was.
-/

namespace ThunderboltVerbs.Config
open Proto Lib

/-- The text is an address that reads otherwise than the one shown. -/
def replaces (text : Text) (shown : Addr) : Bool :=
  match parseIpv4 text with
  | .error _ => false
  | .ok addr => formatIpv4 addr ≠ formatIpv4 shown

namespace CfgfsLink

/-- The write replaces an address of a link that is sealed or active. -/
def clobbers (link : CfgfsLink) : CfgfsStore → Text → Bool
  | .localSrcIpv4, text => !link.cfg.isMutable && replaces text link.stagedRoute.localSrcAddr
  | .peerIpv4, text => !link.cfg.isMutable && replaces text link.stagedRoute.peerAddr
  | _, _ => false

/-- The policy always asks for RoCE v2. While the link can be configured its route is the staged one. -/
structure Sound (link : CfgfsLink) : Prop where
  consistent : link.cfg.Consistent
  version : link.cfg.ncclPolicy.roceVersion = 2
  both : link.cfg.routeSet = true → link.localSrcSet = true ∧ link.peerSet = true
  routed : link.cfg.isMutable = false → link.cfg.routeSet = true
  staged : link.cfg.isMutable = true → link.cfg.routeSet = true → link.stagedRoute = link.cfg.route

variable {link link' : CfgfsLink}

theorem make_eq {name : Text} {linkId : UInt32} {alloc : Bool} (made : makeLink name linkId alloc = .ok link) :
    link = { name, cfg := .init linkId } := by
  unfold makeLink at made
  split at made
  · cases made
  split at made
  · cases made
  · exact (Except.ok.inj made).symm

theorem sound_new (name : Text) (linkId : UInt32) : ({ name, cfg := .init linkId } : CfgfsLink).Sound where
  consistent := .init linkId
  version := rfl
  both set := Bool.noConfusion set
  routed fixed := Bool.noConfusion fixed
  staged _ set := Bool.noConfusion set

/-! ## What a store can do -/

/-- The link stays sealed or active, with the addresses it has. -/
structure Kept (link link' : CfgfsLink) : Prop where
  fixed : link'.cfg.isMutable = false
  route : link'.cfg.route = link.cfg.route
  localSrc : link'.localSrcIpv4Show = link.localSrcIpv4Show
  peer : link'.peerIpv4Show = link.peerIpv4Show

/-- A store is refused and leaves the link as it was, is refused after it has staged an address, or succeeds. -/
inductive Change (link : CfgfsLink) (clobbers : Bool) : CfgfsLink × Option Errno → Prop
  | refused (error : Errno) (spares : clobbers = false) : Change link clobbers (link, some error)
  | staged (stagedRoute : Route) (fixed : link.cfg.isMutable = false)
      (same : clobbers = false ↔ formatIpv4 stagedRoute.localSrcAddr = link.localSrcIpv4Show ∧
        formatIpv4 stagedRoute.peerAddr = link.peerIpv4Show) :
      Change link clobbers ({ link with stagedRoute }, some .eBusy)
  | done {link' : CfgfsLink} (spares : clobbers = false) (sound : link'.Sound)
      (kept : link.cfg.isMutable = false → Kept link link')
      (sealing : link.cfg.isMutable = true → link'.cfg.isMutable = false → link'.stagedRoute = link'.cfg.route) :
      Change link clobbers (link', none)

theorem change_refused (sound : link.Sound) {call : CfgCall} {error : Errno} {cfg : CfgLink}
    (refused : link.cfg.call call = (cfg, some error)) : Change link false (link.update (cfg, some error)) := by
  have same := sound.consistent.unchanged (congrArg Prod.snd refused)
  rw [refused] at same
  cases same
  exact .refused error rfl

theorem change_draft (sound : link.Sound) (configurable : link.cfg.isMutable = true) {call : CfgCall} {cfg : CfgLink}
    (called : link.cfg.call call = (cfg, none)) (draft : cfg.state = .draft)
    (version : cfg.ncclPolicy.roceVersion = 2) (routeSet : cfg.routeSet = link.cfg.routeSet)
    (route : cfg.route = link.cfg.route) : Change link false (link.update (cfg, none)) := by
  have after : cfg.isMutable = true := by simp [CfgLink.isMutable, draft]
  refine .done rfl ?_ (fun fixed => absurd (configurable.symm.trans fixed) (by decide))
    fun _ fixed => absurd (after.symm.trans fixed) (by decide)
  constructor
  case consistent => exact congrArg Prod.fst called ▸ sound.consistent.call call
  case version => exact version
  case both => exact fun set => sound.both (routeSet ▸ set)
  case routed => exact fun fixed => absurd (after.symm.trans fixed) (by decide)
  case staged => exact fun _ set => (sound.staged configurable (routeSet ▸ set)).trans route.symm

theorem change_backend (sound : link.Sound) (backend : UInt8) :
    Change link false (link.update (link.cfg.setBackend backend)) := by
  have called : link.cfg.call (.setBackend backend) = link.cfg.setBackend backend := rfl
  generalize result : link.cfg.setBackend backend = after at called ⊢
  unfold CfgLink.setBackend at result
  split at result
  · subst result
    exact change_refused sound called
  split at result
  · subst result
    exact change_refused sound called
  · rename_i configurable _
    subst result
    exact change_draft sound (by simpa using configurable) called rfl sound.version rfl rfl

theorem change_backendStore (sound : link.Sound) (text : Text) : Change link false (link.backendStore text) := by
  unfold backendStore
  split
  · exact change_backend sound backendNative
  split
  · exact change_backend sound backendApple
  · exact .refused .eInval rfl

theorem change_policy (sound : link.Sound) {policy : NcclPolicy} (version : policy.roceVersion = 2) :
    Change link false (link.update (link.cfg.setNcclPolicy policy)) := by
  have called : link.cfg.call (.setNcclPolicy policy) = link.cfg.setNcclPolicy policy := rfl
  generalize result : link.cfg.setNcclPolicy policy = after at called ⊢
  unfold CfgLink.setNcclPolicy at result
  split at result
  · subst result
    exact change_refused sound called
  · rename_i configurable
    subst result
    exact change_draft sound (by simpa using configurable) called rfl version rfl rfl

theorem change_ncclAddrRangeStore (sound : link.Sound) (text : Text) :
    Change link false (link.ncclAddrRangeStore text) := by
  unfold ncclAddrRangeStore
  split
  · exact .refused .eInval rfl
  split
  · exact .refused .eInval rfl
  split
  · exact .refused _ rfl
  · exact change_policy sound rfl

theorem change_gids (sound : link.Sound) (gids : List Gid) :
    Change link false (link.update (link.cfg.setAppGids (some gids))) := by
  have called : link.cfg.call (.setAppGids (some gids)) = link.cfg.setAppGids (some gids) := rfl
  generalize result : link.cfg.setAppGids (some gids) = after at called ⊢
  unfold CfgLink.setAppGids at result
  dsimp only at result
  split at result
  · subst result
    exact change_refused sound called
  rename_i configurable
  split at result
  · subst result
    exact change_refused sound called
  · subst result
    exact change_draft sound (by simpa using configurable) called rfl sound.version rfl rfl

theorem change_appGidsStore (sound : link.Sound) (text : Text) : Change link false (link.appGidsStore text) := by
  unfold appGidsStore
  split
  · exact .refused _ rfl
  split
  · exact .refused .eNoSpc rfl
  · exact change_gids sound _

theorem effective_version (sound : link.Sound) : link.cfg.effectivePolicy.roceVersion = 2 := by
  unfold CfgLink.effectivePolicy
  split
  · rfl
  · exact sound.version

/-- The transport checks nothing that sealing has not checked. -/
theorem change_sealStore (sound : link.Sound) (text : Text) : Change link false (link.sealStore text) := by
  unfold sealStore
  split
  · exact .refused .eInval rfl
  have called : link.cfg.call .sealLink = link.cfg.sealLink := rfl
  rcases sealed : link.cfg.sealLink with ⟨cfg, _ | error⟩
  · simp only [validateConfig_of_sealed (effective_version sound) sealed]
    have consistent : cfg.Consistent := by
      have after := sound.consistent.call .sealLink
      rwa [called, sealed] at after
    unfold CfgLink.sealLink at sealed
    split at sealed
    · cases sealed
    rename_i configurable
    have configurable : link.cfg.isMutable = true := by simpa using configurable
    split at sealed
    · cases sealed
    split at sealed
    · cases sealed
    rename_i routed
    split at sealed
    · cases sealed
    cases sealed
    have routeSet : link.cfg.routeSet = true := by_contra fun unset => routed (.inl (by simpa using unset))
    refine .done rfl ?_ (fun fixed => absurd (configurable.symm.trans fixed) (by decide))
      fun _ _ => sound.staged configurable routeSet
    constructor
    case consistent => exact consistent
    case version => exact sound.version
    case both => exact sound.both
    case routed => exact fun _ => routeSet
    case staged => exact fun configurable => by simp [CfgLink.isMutable] at configurable
  · exact change_refused sound (called.trans sealed)

/-! ### Addresses -/

/-- Staging both addresses, of which the link may have had none. -/
theorem change_applyRoute (sound : link.Sound) {clobbers : Bool} (stagedRoute : Route) {localSrcSet peerSet : Bool}
    (localSrc : link.localSrcSet = true → localSrcSet = true) (peer : link.peerSet = true → peerSet = true)
    (spares : link.cfg.isMutable = true → clobbers = false)
    (same : link.cfg.isMutable = false → (clobbers = false ↔
      formatIpv4 stagedRoute.localSrcAddr = link.localSrcIpv4Show ∧
        formatIpv4 stagedRoute.peerAddr = link.peerIpv4Show)) :
    Change link clobbers ({ link with stagedRoute, localSrcSet, peerSet } : CfgfsLink).applyRoute := by
  cases configurable : link.cfg.isMutable with
  | false =>
      obtain ⟨first, second⟩ := sound.both (sound.routed configurable)
      have refused : ({ link with stagedRoute, localSrcSet, peerSet } : CfgfsLink).applyRoute =
          ({ link with stagedRoute }, some .eBusy) := by
        simp [applyRoute, update, CfgLink.setRoute, configurable, localSrc first, peer second, first, second]
      rw [refused]
      exact .staged stagedRoute configurable (same configurable)
  | true =>
      unfold applyRoute
      have absent (fixed : link.cfg.isMutable = false) : False := by
        rw [configurable] at fixed
        cases fixed
      split
      · rename_i missing
        refine .done (spares configurable) ?_ (fun fixed => (absent fixed).elim) fun _ fixed => (absent fixed).elim
        have unset : link.cfg.routeSet = false := by
          by_contra set
          obtain ⟨first, second⟩ := sound.both (by simpa using set)
          simp [localSrc first, peer second] at missing
        constructor
        case consistent => exact sound.consistent
        case version => exact sound.version
        case both => exact fun set => absurd (unset.symm.trans set) (by decide)
        case routed => exact sound.routed
        case staged => exact fun _ set => absurd (unset.symm.trans set) (by decide)
      · rename_i whole
        have called : link.cfg.setRoute stagedRoute =
            ({ link.cfg with route := stagedRoute, routeSet := true, state := .draft }, none) := by
          simp [CfgLink.setRoute, configurable]
        simp only [update, called]
        refine .done (spares configurable) ?_ (fun fixed => (absent fixed).elim) fun _ fixed => by
          simp [CfgLink.isMutable] at fixed
        constructor
        case consistent =>
          have after := sound.consistent.call (.setRoute stagedRoute)
          rwa [CfgLink.call, called] at after
        case version => exact sound.version
        case both => exact fun _ => by simpa using whole
        case routed => exact fun fixed => by simp [CfgLink.isMutable] at fixed
        case staged => exact fun _ _ => rfl

theorem change_localSrcIpv4Store (sound : link.Sound) (text : Text) :
    Change link (link.clobbers .localSrcIpv4 text) (link.localSrcIpv4Store text) := by
  unfold localSrcIpv4Store storeAddress
  cases parsed : parseIpv4 text with
  | error error => exact .refused error (by simp [clobbers, replaces, parsed])
  | ok addr =>
      apply change_applyRoute sound _ (fun _ => rfl) id
      · intro configurable
        simp [clobbers, configurable]
      · intro fixed
        simp [clobbers, fixed, replaces, parsed, localSrcIpv4Show, peerIpv4Show]

theorem change_peerIpv4Store (sound : link.Sound) (text : Text) :
    Change link (link.clobbers .peerIpv4 text) (link.peerIpv4Store text) := by
  unfold peerIpv4Store storeAddress
  cases parsed : parseIpv4 text with
  | error error => exact .refused error (by simp [clobbers, replaces, parsed])
  | ok addr =>
      apply change_applyRoute sound _ id (fun _ => rfl)
      · intro configurable
        simp [clobbers, configurable]
      · intro fixed
        simp [clobbers, fixed, replaces, parsed, localSrcIpv4Show, peerIpv4Show]

/-! ### Activation -/

/-- Activation that fails has undone its steps. -/
theorem activateStore_cases (sound : link.Sound) (configured : List ConfiguredLink) (text : Text) (alloc : Bool) :
    (∃ error, link.activateStore configured text alloc = (link, configured, some error)) ∨
      ∃ link' published, link.activateStore configured text alloc = (link', published, none) ∧ link'.Sound ∧
        link.cfg.isMutable = false ∧ Kept link link' := by
  unfold activateStore
  split
  · exact .inl ⟨.eInval, rfl⟩
  dsimp only
  split
  · exact .inl ⟨.eInval, rfl⟩
  rename_i sealed
  rw [ne_eq, not_not] at sealed
  have fixed : link.cfg.isMutable = false := by simp [CfgLink.isMutable, sealed]
  have ready : (transportGet link.cfg.backendType).activate link.cfg = none := by
    cases link.cfg.backendType <;> rfl
  have activated : link.cfg.activate = ({ link.cfg with state := .active }, none) := by
    simp [CfgLink.activate, sealed]
  simp only [ready, activated]
  rcases published : linkActivateConfig configured link.name link.cfg.backendType { link.cfg with state := .active }
    alloc with ⟨configured', _ | error⟩
  · refine .inr ⟨_, _, rfl, ?_, fixed, rfl, rfl, rfl, rfl⟩
    constructor
    case consistent =>
      have after := sound.consistent.call .activate
      rwa [CfgLink.call, activated] at after
    case version => exact sound.version
    case both => exact sound.both
    case routed => exact fun _ => sound.routed fixed
    case staged => exact fun configurable => by simp [CfgLink.isMutable] at configurable
  · left
    have same := linkActivateConfig_failed (congrArg Prod.snd published)
    rw [published] at same
    have undone : ({ link.cfg with state := .active } : CfgLink).deactivate.1 = link.cfg := by
      rw [CfgLink.deactivate, if_neg (by simp), ← sealed]
    dsimp only at same
    subst same
    exact ⟨error, by simp only [undone]⟩

end CfgfsLink

/-! ## One write -/

namespace Cfgfs

variable {s : Cfgfs}

/-- A write that fails leaves all reads and the published links as they were. -/
def AllOrNothing (s : Cfgfs) (attr : CfgfsStore) (text : Text) (alloc : Bool) : Prop :=
  ∀ error, (s.store attr text alloc).2 = some error →
    (s.store attr text alloc).1.configured = s.configured ∧
      ∀ shown, (s.store attr text alloc).1.link.read shown = s.link.read shown

/-- What a write does to the link and to the published links. -/
inductive Change (s : Cfgfs) (clobbers : Bool) : Cfgfs × Option Errno → Prop
  | onLink {result : CfgfsLink × Option Errno} (change : s.link.Change clobbers result) :
      Change s clobbers ({ s with link := result.1 }, result.2)
  | published {link' : CfgfsLink} (spares : clobbers = false) (configured : List ConfiguredLink) (sound : link'.Sound)
      (fixed : s.link.cfg.isMutable = false) (kept : s.link.Kept link') :
      Change s clobbers ({ link := link', configured }, none)

theorem change_store (sound : s.link.Sound) (attr : CfgfsStore) (text : Text) (alloc : Bool) :
    s.Change (s.link.clobbers attr text) (s.store attr text alloc) := by
  cases attr with
  | backend => exact .onLink (CfgfsLink.change_backendStore sound text)
  | localSrcIpv4 => exact .onLink (CfgfsLink.change_localSrcIpv4Store sound text)
  | peerIpv4 => exact .onLink (CfgfsLink.change_peerIpv4Store sound text)
  | ncclAddrRange => exact .onLink (CfgfsLink.change_ncclAddrRangeStore sound text)
  | appGids => exact .onLink (CfgfsLink.change_appGidsStore sound text)
  | sealLink => exact .onLink (CfgfsLink.change_sealStore sound text)
  | activate =>
      simp only [store]
      rcases CfgfsLink.activateStore_cases sound s.configured text alloc with
        ⟨error, failed⟩ | ⟨link', configured, done, after, fixed, kept⟩
      · rw [failed]
        exact .onLink (.refused error rfl)
      · rw [done]
        exact .published rfl configured after fixed kept

theorem sound_act (sound : s.link.Sound) (action : CfgfsAction) : (s.act action).1.link.Sound := by
  cases action with
  | others configured => exact sound
  | store attr text alloc =>
      have change := change_store sound attr text alloc
      simp only [act]
      generalize s.store attr text alloc = result at change ⊢
      cases change with
      | published spares configured after => exact after
      | onLink change =>
          cases change with
          | refused error spares => exact sound
          | done spares after => exact after
          | staged stagedRoute fixed same =>
              constructor
              case consistent => exact sound.consistent
              case version => exact sound.version
              case both => exact sound.both
              case routed => exact sound.routed
              case staged => exact fun configurable => absurd (configurable.symm.trans fixed) (by decide)

theorem allOrNothing_iff (sound : s.link.Sound) (attr : CfgfsStore) (text : Text) (alloc : Bool) :
    s.AllOrNothing attr text alloc ↔ s.link.clobbers attr text = false := by
  have change := change_store sound attr text alloc
  unfold AllOrNothing
  generalize s.store attr text alloc = result at change ⊢
  generalize s.link.clobbers attr text = clobbers at change ⊢
  cases change with
  | published spares => simp [spares]
  | onLink change =>
      cases change with
      | refused error spares => simp [spares]
      | done spares => simp [spares]
      | staged stagedRoute fixed same =>
          rw [same]
          constructor
          · intro nothing
            obtain ⟨-, reads⟩ := nothing .eBusy rfl
            exact ⟨reads .localSrcIpv4, reads .peerIpv4⟩
          · intro ⟨localSrc, peer⟩ _ _
            refine ⟨rfl, fun shown => ?_⟩
            cases shown with
            | localSrcIpv4 => exact localSrc
            | peerIpv4 => exact peer
            | backend | ncclAddrRange | appGids | state | selection => rfl

/-! ## Runs -/

/-- No write of the run replaces an address of a link that is sealed or active. -/
def spares : Cfgfs → List CfgfsAction → Bool
  | _, [] => true
  | s, .others configured :: rest => spares (s.act (.others configured)).1 rest
  | s, .store attr text alloc :: rest =>
      !s.link.clobbers attr text && spares (s.act (.store attr text alloc)).1 rest

theorem spares_store {attr : CfgfsStore} {text : Text} {alloc : Bool} {rest : List CfgfsAction} :
    s.spares (.store attr text alloc :: rest) = true ↔
      s.link.clobbers attr text = false ∧ (s.act (.store attr text alloc)).1.spares rest = true := by
  simp [spares]

theorem kept_store (sound : s.link.Sound) (fixed : s.link.cfg.isMutable = false) {attr : CfgfsStore} {text : Text}
    (alloc : Bool) (spares : s.link.clobbers attr text = false) : s.link.Kept (s.store attr text alloc).1.link := by
  have change := change_store sound attr text alloc
  rw [spares] at change
  generalize s.store attr text alloc = result at change ⊢
  cases change with
  | published _ configured after _ kept => exact kept
  | onLink change =>
      cases change with
      | refused error => exact ⟨fixed, rfl, rfl, rfl⟩
      | done _ _ kept => exact kept fixed
      | staged stagedRoute fixed same => exact ⟨fixed, rfl, (same.mp rfl).1, (same.mp rfl).2⟩

theorem kept_run (sound : s.link.Sound) (fixed : s.link.cfg.isMutable = false) {script : List CfgfsAction}
    (spared : s.spares script = true) : s.link.Kept (calls act s script).1.link := by
  induction script generalizing s with
  | nil => exact ⟨fixed, rfl, rfl, rfl⟩
  | cons action rest ih =>
      have after := sound_act sound action
      cases action with
      | others configured => exact ih after fixed spared
      | store attr text alloc =>
          obtain ⟨here, rest⟩ := spares_store.mp spared
          have first := kept_store sound fixed alloc here
          have later := ih after first.fixed rest
          exact ⟨later.fixed, later.route.trans first.route, later.localSrc.trans first.localSrc,
            later.peer.trans first.peer⟩

theorem sound_run (sound : s.link.Sound) (script : List CfgfsAction) : (calls act s script).1.link.Sound := by
  have step (s : Cfgfs) (action : CfgfsAction) (sound : s.link.Sound) : (s.act action).1.link.Sound :=
    sound_act sound action
  exact calls_invariant step sound script

/-- A link that is sealed or active shows the addresses of the route that was validated. -/
def ShowsRoute (link : CfgfsLink) : Prop :=
  link.cfg.isMutable = false → link.localSrcIpv4Show = formatIpv4 link.cfg.route.localSrcAddr ∧
    link.peerIpv4Show = formatIpv4 link.cfg.route.peerAddr

theorem showsRoute_store (sound : s.link.Sound) (shows : ShowsRoute s.link) {attr : CfgfsStore} {text : Text}
    (alloc : Bool) (spares : s.link.clobbers attr text = false) : ShowsRoute (s.store attr text alloc).1.link := by
  intro fixed
  cases before : s.link.cfg.isMutable with
  | false =>
      have kept := kept_store sound before alloc spares
      rw [kept.localSrc, kept.peer, kept.route]
      exact shows before
  | true =>
      have change := change_store sound attr text alloc
      generalize s.store attr text alloc = result at change fixed ⊢
      cases change with
      | published _ configured after early => exact absurd (before.symm.trans early) (by decide)
      | onLink change =>
          cases change with
          | refused error => exact absurd (before.symm.trans fixed) (by decide)
          | staged stagedRoute early => exact absurd (before.symm.trans early) (by decide)
          | done _ _ _ sealing =>
              have staged := sealing before fixed
              exact ⟨congrArg (fun route : Route => formatIpv4 route.localSrcAddr) staged,
                congrArg (fun route : Route => formatIpv4 route.peerAddr) staged⟩

theorem showsRoute_run (sound : s.link.Sound) (shows : ShowsRoute s.link) {script : List CfgfsAction}
    (spared : s.spares script = true) : ShowsRoute (calls act s script).1.link := by
  induction script generalizing s with
  | nil => exact shows
  | cons action rest ih =>
      have after := sound_act sound action
      cases action with
      | others configured => exact ih after shows spared
      | store attr text alloc =>
          obtain ⟨here, rest⟩ := spares_store.mp spared
          exact ih after (showsRoute_store sound shows alloc here) rest

end Cfgfs

/-- In every state of every run exactly the writes that replace an address of a sealed or active link are not all
or nothing. In a run without such writes, a link that is sealed or active shows the addresses it was sealed with,
from then on. -/
theorem config_writes_all_or_nothing_iff {name : Text} {linkId : UInt32} {alloc : Bool} {link : CfgfsLink}
    (made : makeLink name linkId alloc = .ok link) (configured : List ConfiguredLink) (script : List CfgfsAction) :
    let start : Cfgfs := ⟨link, configured⟩
    let s := (calls Cfgfs.act start script).1
    (∀ attr text alloc, s.AllOrNothing attr text alloc ↔ s.link.clobbers attr text = false) ∧
    (start.spares script = true → s.link.cfg.state = .sealed ∨ s.link.cfg.state = .active →
      ∀ later, s.spares later = true →
      let after := (calls Cfgfs.act s later).1.link
      after.read .localSrcIpv4 = formatIpv4 s.link.cfg.route.localSrcAddr ∧
        after.read .peerIpv4 = formatIpv4 s.link.cfg.route.peerAddr ∧ after.cfg.route = s.link.cfg.route) := by
  obtain rfl := CfgfsLink.make_eq made
  intro start s
  have begun : start.link.Sound := CfgfsLink.sound_new name linkId
  have sound : s.link.Sound := Cfgfs.sound_run begun script
  refine ⟨fun attr text alloc => Cfgfs.allOrNothing_iff sound attr text alloc, ?_⟩
  intro spared reached later kindly after
  have fixed := CfgLink.fixed_iff.mpr reached
  have first : Cfgfs.ShowsRoute start.link := fun fixed => Bool.noConfusion fixed
  obtain ⟨localSrc, peer⟩ := Cfgfs.showsRoute_run begun first spared fixed
  have kept := Cfgfs.kept_run sound fixed kindly
  exact ⟨kept.localSrc.trans localSrc, kept.peer.trans peer, kept.route⟩

def draftWrites : List CfgfsAction :=
  [.store .backend "native\n".toList true, .store .localSrcIpv4 "192.168.23.136\n".toList true,
    .store .peerIpv4 "192.168.23.137\n".toList true, .store .appGids "4 1 2 roce-v2 192.168.23.136\n".toList true,
    .store .sealLink "1\n".toList true]

def newLink : CfgfsLink := { name := "usb4_rdma0".toList, cfg := .init 1 }

theorem config_writes_all_or_nothing_iff_sealed :
    let s := (calls Cfgfs.act ⟨newLink, []⟩ draftWrites).1
    s.AllOrNothing .peerIpv4 "192.168.23\n".toList true ∧ s.AllOrNothing .activate "1\n".toList false ∧
      s.link.read .localSrcIpv4 = formatIpv4 s.link.cfg.route.localSrcAddr := by
  have made : makeLink "usb4_rdma0".toList 1 true = .ok newLink := by decide +kernel
  obtain ⟨writes, shows⟩ := config_writes_all_or_nothing_iff made [] draftWrites
  refine ⟨(writes _ _ _).mpr (by decide +kernel), (writes _ _ _).mpr (by decide +kernel), ?_⟩
  exact (shows (by decide +kernel) (.inl (by decide +kernel)) [] rfl).1

/-- A sealed link refuses a new source address and shows it from then on. -/
theorem sealed_address_replaced :
    makeLink "usb4_rdma0".toList 1 true = .ok newLink ∧
      let s := (calls Cfgfs.act ⟨newLink, []⟩ draftWrites).1
      let (after, result) := s.store .localSrcIpv4 "192.168.23.9\n".toList true
      s.link.cfg.state = .sealed ∧ result = some .eBusy ∧
        s.link.read .localSrcIpv4 = "192.168.23.136\n".toList ∧
        after.link.read .localSrcIpv4 = "192.168.23.9\n".toList ∧ after.link.cfg.state = .sealed := by
  decide +kernel

end ThunderboltVerbs.Config
