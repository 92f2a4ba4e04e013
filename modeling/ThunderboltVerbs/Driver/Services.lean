import ThunderboltVerbs.Driver.RailIdentity
import ThunderboltVerbs.Driver.RailList
import ThunderboltVerbs.Lib.Counted

/-!
# Services and their peers (`kernel/service.c`, `kernel/peer.c`)

The bus probes a service for each lane of a connection, in any order and at the same time. Services of one XDomain
and one backend share a peer, which goes away with the last of them.
-/

namespace ThunderboltVerbs.Driver
open Proto Lib Config

/-! ## Peers -/

structure XDomain where
  remoteUuid : Option Nat := none
  route : UInt64
  link : UInt32 := 0
  depth : UInt32 := 0
  vendorName : Option String := none
  deriving DecidableEq, Repr

structure ServicePeer where
  peerId : UInt32
  backend : BackendType
  xd : Nat
  rails : List ListedRail := []
  deriving DecidableEq

def ServicePeer.railKeys (peer : ServicePeer) : List RailKey := peer.rails.map ListedRail.key

/-- A call that is under way, or a service that is bound. -/
inductive ServiceCall
  | creating (backend : BackendType) (xd : Nat) (key : RailKey) (nativeLane : UInt32)
  | adding (peer : Nat) (key : RailKey) (nativeLane : UInt32)
  | settingUp (peer : Nat) (key : RailKey)
  | bound (peer : Nat) (key : RailKey)
  | unbinding (peer : Nat) (key : RailKey)
  | unlinking (peer : Nat) (key : RailKey)
  | leaving (peer : Nat)
  | dropping (xd : Nat)
  deriving DecidableEq, Repr

namespace ServiceCall

/-- The peer that the call has a reference to. -/
def peer? : ServiceCall → Option Nat
  | .adding peer _ _ | .settingUp peer _ | .bound peer _ | .unbinding peer _ | .unlinking peer _ | .leaving peer =>
      some peer
  | _ => none

/-- The rail of the call, on the list of the peer `peer`. -/
def railOf (peer : Nat) : ServiceCall → Option RailKey
  | .settingUp other key | .bound other key | .unbinding other key | .unlinking other key =>
      if other = peer then some key else none
  | _ => none

/-- The XDomain that the call, and no peer, has a reference to. -/
def xd? : ServiceCall → Option Nat
  | .creating _ xd _ _ | .dropping xd => some xd
  | _ => none

/-- Who has a rail of a peer has the peer. -/
theorem peer?_of_railOf {peer : Nat} {call : ServiceCall} {key : RailKey} (held : call.railOf peer = some key) :
    call.peer? = some peer := by
  cases call with
  | settingUp other rail | bound other rail | unbinding other rail | unlinking other rail =>
      simp only [railOf, Option.ite_none_right_eq_some] at held
      exact congrArg some held.1
  | _ => cases held

end ServiceCall

structure ServiceConfig where
  appleEnabled : Bool := true
  appleData : Bool := true
  nativeEnabled : Bool := true
  nativeData : Bool := true
  lanesAuto : Bool := true
  lanesMax : UInt32 := 1
  nativeControlSourceAware : Bool
  deriving DecidableEq, Repr

structure Services where
  cfg : ServiceConfig
  xds : Nat → XDomain
  nextPeerId : UInt32 := 1
  peers : List (Counted Nat ServicePeer) := []
  /-- The references to XDomains that the driver has. -/
  xdRefs : List Nat := []
  calls : List ServiceCall := []
  /-- How many peers were ever made. -/
  created : Nat := 0

/-! ## Probing -/

def ServiceConfig.backendEnabled (cfg : ServiceConfig) : BackendType → Bool
  | .apple => cfg.appleEnabled && cfg.appleData
  | .native => cfg.nativeEnabled && cfg.nativeData

def ServiceConfig.nativeLaneCount (cfg : ServiceConfig) : UInt32 :=
  if cfg.lanesAuto then min 2 (UInt32.ofNat nativeMaxLanes) else cfg.lanesMax

def XDomain.appleAllowed (xd : XDomain) : Bool := xd.vendorName.all (· = "Apple Inc.")

def servicePathId (prtcid : UInt32) (backend : BackendType) (nativeLane : UInt32) : UInt32 :=
  if backend ≠ .native then prtcid else if nativeLane = 0 then prtcid else prtcid <<< 8 ||| nativeLane

def XDomain.railKey (xd : XDomain) (pathId : UInt32) : RailKey where
  route := xd.route
  localAdapter := xd.link
  remoteAdapter := xd.depth
  pathId := pathId

/-- The checks at the head of `tbv_service_probe`. -/
def ServiceConfig.probes (cfg : ServiceConfig) (backend : BackendType) (xd : XDomain) (nativeLane : UInt32) : Bool :=
  cfg.backendEnabled backend && (backend ≠ .apple || xd.appleAllowed) &&
    (backend ≠ .native || nativeLane < cfg.nativeLaneCount)

/-- `tbv_peer_matches`. -/
def ServicePeer.matches (peer : ServicePeer) (backend : BackendType) (xd : Nat) : Bool :=
  peer.backend = backend && peer.xd = xd

/-- `tbv_xdomain_same_remote_host`, of two XDomains that are not the same. -/
def XDomain.sameRemoteHost (a b : XDomain) : Bool :=
  match a.remoteUuid, b.remoteUuid with
  | some first, some second => first = second
  | _, _ => a.route = b.route && a.link = b.link && a.depth = b.depth

/-- `tbv_native_legacy_xdomain_allowed_locked`. -/
def legacyXdomainAllowed (xds : Nat → XDomain) (xd : Nat) : List ServicePeer → Bool
  | [] => true
  | pos :: rest =>
      if pos.backend ≠ .native then legacyXdomainAllowed xds xd rest
      else if pos.xd = xd then true
      else if !(xds pos.xd).sameRemoteHost (xds xd) then legacyXdomainAllowed xds xd rest
      else false

/-- `tbv_native_legacy_rail_key_allowed_locked`. -/
def legacyRailKeyAllowed (peers : List (Counted Nat ServicePeer)) (peer : Nat) (key : RailKey) : Bool :=
  peers.all fun pos => pos.value.backend ≠ .native || pos.key = peer ||
    pos.value.rails.all fun rail => railKeyCmp key rail.key ≠ 0

inductive GotPeer
  | reused (peer : Nat)
  | busy
  | created (peer : Counted Nat ServicePeer)

namespace Services

def newPeer (s : Services) (addr : Nat) (backend : BackendType) (xd : Nat) : Counted Nat ServicePeer where
  key := addr
  refs := 1
  value := { peerId := s.nextPeerId, backend, xd }

/-- The critical section of `tbv_peer_get_or_create`; the new peer is at `addr`. -/
def getOrCreate (s : Services) (addr : Nat) (backend : BackendType) (xd : Nat) : GotPeer :=
  match s.peers.find? fun pos => pos.value.matches backend xd with
  | some pos => .reused pos.key
  | none =>
      if backend = .native && !s.cfg.nativeControlSourceAware &&
          !legacyXdomainAllowed s.xds xd (s.peers.map Counted.value) then .busy
      else .created (s.newPeer addr backend xd)

/-- The critical section of `tbv_peer_add_rail`: the rails of the peer afterwards. -/
def addRail (s : Services) (peer : Counted Nat ServicePeer) (key : RailKey) (nativeLane : UInt32) (railId : Nat) :
    Except Errno (List ListedRail) :=
  if peer.value.backend = .native && !s.cfg.nativeControlSourceAware && !legacyRailKeyAllowed s.peers peer.key key then
    .error .eBusy
  else insertRail { key, railId, nativeLane } peer.value.rails

/-- The call `c` goes on as `news`. -/
def goOn (s : Services) (c : Nat) (news : List ServiceCall) : Services :=
  { s with calls := news ++ s.calls.eraseIdx c }

inductive Action
  | probe (backend : BackendType) (xd : Nat) (prtcid nativeLane : UInt32)
  | enter (c addr : Nat)
  | addRail (c : Nat) (ida : Except Errno Nat)
  | setUp (c : Nat) (ok : Bool)
  | remove (c : Nat)
  | mark (c : Nat)
  | unlink (c : Nat)
  | leave (c : Nat)
  | drop (c : Nat)

def markRail (key : RailKey) (peer : ServicePeer) : ServicePeer :=
  { peer with rails := peer.rails.map fun rail => if rail.key = key then { rail with removing := true } else rail }

def unlinkRail (key : RailKey) (peer : ServicePeer) : ServicePeer :=
  { peer with rails := peer.rails.eraseP fun rail => rail.key = key }

def step (s : Services) : Action → Option Services
  | .probe backend xd prtcid nativeLane =>
      if s.cfg.probes backend (s.xds xd) nativeLane then
        let key := (s.xds xd).railKey (servicePathId prtcid backend nativeLane)
        some { s with xdRefs := xd :: s.xdRefs, calls := .creating backend xd key nativeLane :: s.calls }
      else some s
  | .enter c addr =>
      match s.calls[c]? with
      | some (.creating backend xd key nativeLane) =>
          if s.peers.any fun pos => pos.key = addr then none
          else
            match s.getOrCreate addr backend xd with
            | .reused peer =>
                some ({ s with peers := Counted.retain peer s.peers }.goOn c [.adding peer key nativeLane, .dropping xd])
            | .busy => some (s.goOn c [.dropping xd])
            | .created peer =>
                some ({ s with
                  peers := s.peers ++ [peer]
                  nextPeerId := s.nextPeerId + 1
                  created := s.created + 1 }.goOn c [.adding addr key nativeLane])
      | _ => none
  | .addRail c ida =>
      match s.calls[c]? with
      | some (.adding addr key nativeLane) =>
          match ida, s.peers.find? fun pos => pos.key = addr with
          | .ok railId, some peer =>
              match s.addRail peer key nativeLane railId with
              | .ok rails =>
                  some ({ s with
                    peers := Counted.modify addr (fun peer => { peer with rails }) s.peers }.goOn c [.settingUp addr key])
              | .error _ => some (s.goOn c [.leaving addr])
          | .error _, some _ => some (s.goOn c [.leaving addr])
          | _, none => none
      | _ => none
  | .setUp c ok =>
      match s.calls[c]? with
      | some (.settingUp addr key) => some (s.goOn c [if ok then .bound addr key else .unbinding addr key])
      | _ => none
  | .remove c =>
      match s.calls[c]? with
      | some (.bound addr key) => some (s.goOn c [.unbinding addr key])
      | _ => none
  | .mark c =>
      match s.calls[c]? with
      | some (.unbinding addr key) =>
          some ({ s with peers := Counted.modify addr (markRail key) s.peers }.goOn c [.unlinking addr key])
      | _ => none
  | .unlink c =>
      match s.calls[c]? with
      | some (.unlinking addr key) =>
          some ({ s with peers := Counted.modify addr (unlinkRail key) s.peers }.goOn c [.leaving addr])
      | _ => none
  | .leave c =>
      match s.calls[c]? with
      | some (.leaving addr) =>
          match s.peers.find? fun pos => pos.key = addr with
          | some peer =>
              some ({ s with peers := Counted.release addr s.peers }.goOn c
                (if peer.refs = 1 then [.dropping peer.value.xd] else []))
          | none => none
      | _ => none
  | .drop c =>
      match s.calls[c]? with
      | some (.dropping xd) => some ({ s with xdRefs := s.xdRefs.erase xd }.goOn c [])
      | _ => none

end Services

def serviceSystem (cfg : ServiceConfig) (xds : Nat → XDomain) : System Services Services.Action where
  init s := s = { cfg, xds }
  step := Services.step

/-! ## What holds between two peers -/

/-- Two peers are not for the same service, and a control that cannot tell XDomains apart has one native peer for
each host and one native rail for each key. -/
structure Apart (xds : Nat → XDomain) (sourceAware : Bool) (a b : ServicePeer) : Prop where
  service : a.backend = b.backend → a.xd ≠ b.xd
  host : sourceAware = false → a.backend = .native → b.backend = .native →
    (xds a.xd).sameRemoteHost (xds b.xd) = false
  keys : sourceAware = false → a.backend = .native → b.backend = .native → ∀ key ∈ a.railKeys, key ∉ b.railKeys

theorem sameRemoteHost_comm (a b : XDomain) : a.sameRemoteHost b = b.sameRemoteHost a := by
  unfold XDomain.sameRemoteHost
  cases a.remoteUuid with
  | none => simp [eq_comm]
  | some first =>
      cases b.remoteUuid with
      | none => simp [eq_comm]
      | some second => simp [eq_comm]

theorem Apart.symm {xds : Nat → XDomain} {sourceAware : Bool} (a b : ServicePeer) (apart : Apart xds sourceAware a b) :
    Apart xds sourceAware b a where
  service same other := apart.service same.symm other.symm
  host blind native native' := by
    rw [sameRemoteHost_comm]
    exact apart.host blind native' native
  keys blind native native' key inside other := apart.keys blind native' native key other inside

theorem legacyXdomainAllowed_apart {xds : Nat → XDomain} {xd : Nat} {peers : List ServicePeer}
    (allowed : legacyXdomainAllowed xds xd peers = true)
    (fresh : ∀ pos ∈ peers, pos.backend = .native → pos.xd ≠ xd) :
    ∀ pos ∈ peers, pos.backend = .native → (xds pos.xd).sameRemoteHost (xds xd) = false := by
  induction peers with
  | nil => simp
  | cons first rest ih =>
      have later := fun pos member => fresh pos (List.mem_cons_of_mem first member)
      rw [legacyXdomainAllowed] at allowed
      intro pos member native
      rcases List.mem_cons.mp member with rfl | member
      · rw [if_neg (by simpa using native), if_neg (fresh pos List.mem_cons_self native)] at allowed
        split at allowed
        · rename_i other
          simpa using other
        · cases allowed
      · split at allowed
        · exact ih allowed later pos member native
        rename_i firstNative
        rw [if_neg (fresh first List.mem_cons_self (by simpa using firstNative))] at allowed
        split at allowed
        · exact ih allowed later pos member native
        · cases allowed

/-! ## The invariant -/

namespace Services

structure Inv (s : Services) : Prop where
  balanced : Counted.Balanced s.peers (s.calls.filterMap ServiceCall.peer?)
  rails : ∀ peer ∈ s.peers, peer.value.railKeys.Perm (s.calls.filterMap (ServiceCall.railOf peer.key))
  apart : (s.peers.map Counted.value).Pairwise (Apart s.xds s.cfg.nativeControlSourceAware)
  nextPeerId : s.nextPeerId = UInt32.ofNat (s.created + 1)
  ids : s.created ≤ 2 ^ 32 → (s.peers.map fun peer => peer.value.peerId).Nodup ∧
    ∀ peer ∈ s.peers, (peer.value.peerId - 1).toNat < s.created
  xdomains : s.xdRefs.Perm (s.peers.map (fun peer => peer.value.xd) ++ s.calls.filterMap ServiceCall.xd?)

variable {s s' : Services} {c : Nat} {call : ServiceCall}

/-- The order of the calls does not matter. -/
theorem Inv.pick (inv : s.Inv) (found : s.calls[c]? = some call) :
    ({ s with calls := call :: s.calls.eraseIdx c } : Services).Inv := by
  obtain ⟨bound, rfl⟩ := List.getElem?_eq_some_iff.mp found
  have perm := (List.getElem_cons_eraseIdx_perm bound).symm
  refine ⟨inv.balanced.perm (perm.filterMap _), ?_, inv.apart, inv.nextPeerId, inv.ids, ?_⟩
  · intro peer member
    exact (inv.rails peer member).trans (perm.filterMap _)
  · exact inv.xdomains.trans ((perm.filterMap _).append_left _)

/-- A call goes on that holds the same peer, the same rail and the same XDomain. -/
theorem Inv.goOn (inv : s.Inv) (found : s.calls[c]? = some call) {next : ServiceCall} (peer : next.peer? = call.peer?)
    (rail : ∀ peer, next.railOf peer = call.railOf peer) (xd : next.xd? = call.xd?) : (s.goOn c [next]).Inv := by
  have picked := inv.pick found
  have balanced := picked.balanced
  have rails := picked.rails
  have xdomains := picked.xdomains
  simp only [List.filterMap_cons, ← peer, ← xd, ← rail] at balanced rails xdomains
  refine ⟨?_, ?_, inv.apart, inv.nextPeerId, inv.ids, ?_⟩
  · simpa only [Services.goOn, List.singleton_append, List.filterMap_cons] using balanced
  · simpa only [Services.goOn, List.singleton_append, List.filterMap_cons] using rails
  · simpa only [Services.goOn, List.singleton_append, List.filterMap_cons] using xdomains

theorem find?_peer {peer : Counted Nat ServicePeer} {addr : Nat}
    (found : (s.peers.find? fun pos => pos.key = addr) = some peer) : peer ∈ s.peers ∧ peer.key = addr :=
  ⟨List.mem_of_find?_eq_some found, by simpa using List.find?_some found⟩

/-! ## Getting a peer -/

theorem getOrCreate_spec (s : Services) (addr : Nat) (backend : BackendType) (xd : Nat) :
    match s.getOrCreate addr backend xd with
    | .reused peer => ∃ pos ∈ s.peers, pos.key = peer ∧ pos.value.matches backend xd = true
    | .busy => backend = .native ∧ s.cfg.nativeControlSourceAware = false
    | .created peer => peer = s.newPeer addr backend xd ∧
        (∀ pos ∈ s.peers, pos.value.matches backend xd = false) ∧
        (backend = .native → s.cfg.nativeControlSourceAware = false →
          legacyXdomainAllowed s.xds xd (s.peers.map Counted.value) = true) := by
  unfold Services.getOrCreate
  cases search : s.peers.find? (fun pos => pos.value.matches backend xd) with
  | some pos =>
      have found := List.find?_some search
      exact ⟨pos, List.mem_of_find?_eq_some search, rfl, found⟩
  | none =>
      have missing : ∀ pos ∈ s.peers, pos.value.matches backend xd = false := by
        simpa using List.find?_eq_none.mp search
      by_cases busy : (backend = .native && !s.cfg.nativeControlSourceAware &&
          !legacyXdomainAllowed s.xds xd (s.peers.map Counted.value)) = true
      · simp only [busy, if_true]
        simp only [Bool.and_eq_true, decide_eq_true_eq, Bool.not_eq_true'] at busy
        exact busy.1
      · simp only [busy, Bool.false_eq_true, if_false, true_and]
        refine ⟨missing, ?_⟩
        intro native blind
        simpa [native, blind] using busy

theorem Inv.reuse (inv : s.Inv) {backend : BackendType} {xd : Nat} {key : RailKey} {nativeLane : UInt32}
    (found : s.calls[c]? = some (.creating backend xd key nativeLane)) {pos : Counted Nat ServicePeer}
    (member : pos ∈ s.peers) :
    ({ s with peers := Counted.retain pos.key s.peers }.goOn c
      [.adding pos.key key nativeLane, .dropping xd] : Services).Inv := by
  have picked := inv.pick found
  have values := Counted.values_retain pos.key s.peers
  refine ⟨picked.balanced.retain member, ?_, ?_, inv.nextPeerId, ?_, ?_⟩
  · intro peer inside
    obtain ⟨old, listed, name, value⟩ := Counted.mem_retain inside
    rw [value, name]
    exact picked.rails old listed
  · show ((Counted.retain pos.key s.peers).map Counted.value).Pairwise _
    rw [values]
    exact inv.apart
  · intro few
    obtain ⟨distinct, below⟩ := inv.ids few
    constructor
    · have ids := congrArg (List.map ServicePeer.peerId) values
      rw [List.map_map, List.map_map] at ids
      exact ids ▸ distinct
    · intro peer inside
      obtain ⟨old, listed, -, value⟩ := Counted.mem_retain inside
      rw [value]
      exact below old listed
  · have xds := congrArg (List.map ServicePeer.xd) values
    rw [List.map_map, List.map_map] at xds
    show s.xdRefs.Perm ((Counted.retain pos.key s.peers).map (ServicePeer.xd ∘ Counted.value) ++ _)
    rw [xds]
    exact picked.xdomains

theorem Inv.create (inv : s.Inv) {backend : BackendType} {xd : Nat} {key : RailKey} {nativeLane : UInt32} {addr : Nat}
    (found : s.calls[c]? = some (.creating backend xd key nativeLane)) (fresh : ∀ pos ∈ s.peers, pos.key ≠ addr)
    (missing : ∀ pos ∈ s.peers, pos.value.matches backend xd = false)
    (allowed : backend = .native → s.cfg.nativeControlSourceAware = false →
      legacyXdomainAllowed s.xds xd (s.peers.map Counted.value) = true) :
    ({ s with
      peers := s.peers ++ [s.newPeer addr backend xd]
      nextPeerId := s.nextPeerId + 1
      created := s.created + 1 }.goOn c [.adding addr key nativeLane] : Services).Inv := by
  have picked := inv.pick found
  have other : ∀ pos ∈ s.peers, pos.value.backend = backend → pos.value.xd ≠ xd := by
    intro pos member same equal
    have differs := missing pos member
    simp [ServicePeer.matches, same, equal] at differs
  refine ⟨picked.balanced.insert fresh _, ?_, ?_, ?_, ?_, ?_⟩
  · intro peer inside
    rcases List.mem_append.mp inside with inside | inside
    · exact picked.rails peer inside
    · obtain rfl := List.mem_singleton.mp inside
      have empty : (s.calls.eraseIdx c).filterMap (ServiceCall.railOf addr) = [] := by
        apply List.filterMap_eq_nil_iff.mpr
        intro call member
        cases held : call.railOf addr with
        | none => rfl
        | some key =>
            have holder : addr ∈ (ServiceCall.creating backend xd key nativeLane :: s.calls.eraseIdx c).filterMap
                ServiceCall.peer? :=
              List.mem_filterMap.mpr ⟨call, List.mem_cons_of_mem _ member, ServiceCall.peer?_of_railOf held⟩
            obtain ⟨pos, listed, same⟩ := picked.balanced.live addr holder
            exact absurd same (fresh pos listed)
      show List.Perm [] ((s.calls.eraseIdx c).filterMap (ServiceCall.railOf addr))
      rw [empty]
  · show ((s.peers ++ [s.newPeer addr backend xd]).map Counted.value).Pairwise _
    rw [List.map_append, List.pairwise_append]
    refine ⟨inv.apart, List.pairwise_singleton _ _, ?_⟩
    intro a member b single
    obtain ⟨pos, listed, rfl⟩ := List.mem_map.mp member
    rw [List.map_singleton, List.mem_singleton] at single
    subst single
    refine ⟨other pos listed, ?_, fun _ _ _ _ _ => List.not_mem_nil⟩
    intro blind native native'
    apply legacyXdomainAllowed_apart (allowed native' blind) _ _ (List.mem_map_of_mem listed) native
    intro peer inside here
    obtain ⟨old, member, rfl⟩ := List.mem_map.mp inside
    exact other old member (here.trans native'.symm)
  · show s.nextPeerId + 1 = UInt32.ofNat (s.created + 1 + 1)
    rw [inv.nextPeerId, UInt32.ofNat_add (s.created + 1) 1]
    rfl
  · intro few
    obtain ⟨distinct, below⟩ := inv.ids (Nat.le_of_succ_le few)
    have serial : (s.nextPeerId - 1).toNat = s.created := by
      rw [inv.nextPeerId, UInt32.ofNat_add, show UInt32.ofNat 1 = 1 from rfl, UInt32.add_sub_cancel]
      exact UInt32.toNat_ofNat_of_lt' few
    constructor
    · show ((s.peers ++ [s.newPeer addr backend xd]).map fun peer => peer.value.peerId).Nodup
      rw [List.map_append, List.nodup_append]
      refine ⟨distinct, List.nodup_singleton _, ?_⟩
      intro id member last single same
      obtain ⟨pos, listed, rfl⟩ := List.mem_map.mp member
      rw [List.map_singleton, List.mem_singleton] at single
      have small := below pos listed
      rw [same, single] at small
      exact absurd serial small.ne
    · intro peer inside
      rcases List.mem_append.mp inside with inside | inside
      · exact Nat.lt_succ_of_lt (below peer inside)
      · obtain rfl := List.mem_singleton.mp inside
        show (s.nextPeerId - 1).toNat < s.created + 1
        omega
  · have refs := picked.xdomains
    show s.xdRefs.Perm ((s.peers ++ [s.newPeer addr backend xd]).map (fun peer => peer.value.xd) ++ _)
    rw [List.map_append, List.append_assoc]
    exact refs

/-! ## Rails -/

/-- The rails of the peer `addr` change, and with them what one call holds. -/
theorem Inv.changeRails (inv : s.Inv) (found : s.calls[c]? = some call) {addr : Nat} {next : ServiceCall}
    {f : ServicePeer → ServicePeer} (peer : next.peer? = call.peer?) (xd : next.xd? = call.xd?)
    (elsewhere : ∀ other, other ≠ addr → next.railOf other = call.railOf other)
    (kept : ∀ peer, (f peer).backend = peer.backend ∧ (f peer).xd = peer.xd ∧ (f peer).peerId = peer.peerId)
    (here : ∀ peer ∈ s.peers, peer.key = addr → ∀ rest : List RailKey,
      peer.value.railKeys.Perm ((call.railOf addr).toList ++ rest) →
        (f peer.value).railKeys.Perm ((next.railOf addr).toList ++ rest))
    (keys : ∀ peer ∈ s.peers, peer.key = addr → s.cfg.nativeControlSourceAware = false →
      peer.value.backend = .native → ∀ key ∈ (f peer.value).railKeys, key ∈ peer.value.railKeys ∨
        ∀ other ∈ s.peers, other.key ≠ addr → other.value.backend = .native → key ∉ other.value.railKeys) :
    ({ s with peers := Counted.modify addr f s.peers }.goOn c [next] : Services).Inv := by
  have picked := inv.pick found
  have cons : ∀ {β : Type} (g : ServiceCall → Option β) (first : ServiceCall) (rest : List ServiceCall),
      (first :: rest).filterMap g = (g first).toList ++ rest.filterMap g := by
    intro β g first rest
    cases given : g first <;> simp [given]
  have same : ∀ {β : Type} (image : ServicePeer → β), (∀ peer, image (f peer) = image peer) →
      (Counted.modify addr f s.peers).map (fun peer => image peer.value) = s.peers.map fun peer => image peer.value := by
    intro β image blind
    simp only [Counted.modify, Counted.update, List.map_map]
    apply List.map_congr_left
    intro object _
    simp only [Function.comp_apply]
    split
    · exact blind object.value
    · rfl
  refine ⟨?_, ?_, ?_, inv.nextPeerId, ?_, ?_⟩
  · have balanced := picked.balanced.modify addr f
    simp only [List.filterMap_cons, ← peer] at balanced
    simpa only [Services.goOn, List.singleton_append, List.filterMap_cons] using balanced
  · intro object inside
    obtain ⟨old, listed, name, which⟩ := Counted.mem_modify inside
    have before := picked.rails old listed
    show object.value.railKeys.Perm ((next :: s.calls.eraseIdx c).filterMap (ServiceCall.railOf object.key))
    simp only [cons] at before ⊢
    rw [name]
    rcases which with ⟨place, value⟩ | ⟨place, value⟩
    · rw [value, place]
      rw [place] at before
      exact here old listed place _ before
    · rw [value, elsewhere old.key place]
      exact before
  · apply Counted.pairwise_modify Apart.symm inv.balanced.distinct inv.apart
    intro object listed place other member away apart
    obtain ⟨backend, xd, -⟩ := kept object.value
    refine ⟨?_, ?_, ?_⟩
    · rw [backend, xd]
      exact apart.service
    · rw [backend, xd]
      exact apart.host
    · rw [backend]
      intro blind native native' key inside
      rcases keys object listed place blind native key inside with old | fresh
      · exact apart.keys blind native native' key old
      · exact fresh other member away native'
  · intro few
    obtain ⟨distinct, below⟩ := inv.ids few
    constructor
    · show ((Counted.modify addr f s.peers).map fun peer => peer.value.peerId).Nodup
      rw [same ServicePeer.peerId fun peer => (kept peer).2.2]
      exact distinct
    · intro object inside
      obtain ⟨old, listed, -, ⟨-, value⟩ | ⟨-, value⟩⟩ := Counted.mem_modify inside
      · rw [value, (kept old.value).2.2]
        exact below old listed
      · rw [value]
        exact below old listed
  · have refs := picked.xdomains
    simp only [List.filterMap_cons, ← xd] at refs
    show s.xdRefs.Perm ((Counted.modify addr f s.peers).map (fun peer => peer.value.xd) ++ _)
    rw [same ServicePeer.xd fun peer => (kept peer).2.1]
    simpa only [Services.goOn, List.singleton_append, List.filterMap_cons] using refs

theorem insertRail_perm {rail : ListedRail} {rails inserted : List ListedRail}
    (insert : insertRail rail rails = .ok inserted) : inserted.Perm (rail :: rails) := by
  rw [insertRail_eq] at insert
  split at insert
  · cases insert
  · rename_i walk
    cases insert
    exact perm_insertNew walk

theorem legacyRailKeyAllowed_iff {peers : List (Counted Nat ServicePeer)} {addr : Nat} {key : RailKey} :
    legacyRailKeyAllowed peers addr key = true ↔
      ∀ pos ∈ peers, pos.key ≠ addr → pos.value.backend = .native → key ∉ pos.value.railKeys := by
  simp only [legacyRailKeyAllowed, List.all_eq_true, Bool.or_eq_true, decide_eq_true_eq, ne_eq,
    railKeyCmp_eq_zero_iff, ServicePeer.railKeys, List.mem_map, not_exists, not_and]
  apply forall₂_congr
  intro pos _
  by_cases native : pos.value.backend = .native
  · simp only [native, not_true_eq_false, false_or, forall_const, eq_comm (b := key)]
    by_cases here : pos.key = addr
    · simp [here]
    · simp [here]
  · simp [native]

theorem Inv.attach (inv : s.Inv) {addr : Nat} {key : RailKey} {nativeLane : UInt32} {railId : Nat}
    (found : s.calls[c]? = some (.adding addr key nativeLane)) {peer : Counted Nat ServicePeer} (member : peer ∈ s.peers)
    (name : peer.key = addr) {rails : List ListedRail} (added : s.addRail peer key nativeLane railId = .ok rails) :
    ({ s with peers := Counted.modify addr (fun peer => { peer with rails }) s.peers }.goOn c
      [.settingUp addr key] : Services).Inv := by
  unfold Services.addRail at added
  split at added
  · cases added
  rename_i allowed
  have perm := (insertRail_perm added).map ListedRail.key
  have only : ∀ other ∈ s.peers, other.key = addr → other = peer := fun other listed here =>
    inv.balanced.eq_of_key listed member (here.trans name.symm)
  apply inv.changeRails found
  · rfl
  · rfl
  · intro other away
    simp [ServiceCall.railOf, Ne.symm away]
  · exact fun _ => ⟨rfl, rfl, rfl⟩
  · intro other listed here rest before
    rw [only other listed here] at before
    simp only [ServiceCall.railOf, if_true, Option.toList_some, List.singleton_append]
    exact perm.trans (before.cons key)
  · intro other listed here blind native inserted inside
    rw [only other listed here] at native ⊢
    rcases List.mem_cons.mp (perm.mem_iff.mp inside) with same | old
    · rw [same]
      have free : legacyRailKeyAllowed s.peers peer.key key = true := by simpa [native, blind] using allowed
      rw [name] at free
      exact .inr (legacyRailKeyAllowed_iff.mp free)
    · exact .inl old

theorem railKeys_markRail (key : RailKey) (peer : ServicePeer) : (markRail key peer).railKeys = peer.railKeys := by
  simp only [ServicePeer.railKeys, markRail, List.map_map]
  apply List.map_congr_left
  intro rail _
  simp only [Function.comp_apply]
  split
  · rfl
  · rfl

theorem railKeys_unlinkRail (key : RailKey) (peer : ServicePeer) :
    (unlinkRail key peer).railKeys = peer.railKeys.erase key := by
  simp only [ServicePeer.railKeys, unlinkRail]
  induction peer.rails with
  | nil => rfl
  | cons rail rest ih =>
      by_cases here : rail.key = key
      · simp [here]
      · simp [here, ih]

theorem Inv.mark (inv : s.Inv) {addr : Nat} {key : RailKey} (found : s.calls[c]? = some (.unbinding addr key)) :
    ({ s with peers := Counted.modify addr (markRail key) s.peers }.goOn c [.unlinking addr key] : Services).Inv := by
  apply inv.changeRails found
  · rfl
  · rfl
  · exact fun _ _ => rfl
  · exact fun _ => ⟨rfl, rfl, rfl⟩
  · intro peer _ _ rest before
    rw [railKeys_markRail]
    exact before
  · intro peer _ _ _ _ key inside
    rw [railKeys_markRail] at inside
    exact .inl inside

theorem Inv.unlink (inv : s.Inv) {addr : Nat} {key : RailKey} (found : s.calls[c]? = some (.unlinking addr key)) :
    ({ s with peers := Counted.modify addr (unlinkRail key) s.peers }.goOn c [.leaving addr] : Services).Inv := by
  apply inv.changeRails found
  · rfl
  · rfl
  · intro other away
    simp [ServiceCall.railOf, Ne.symm away]
  · exact fun _ => ⟨rfl, rfl, rfl⟩
  · intro peer _ _ rest before
    rw [railKeys_unlinkRail]
    simp only [ServiceCall.railOf, if_true, Option.toList_some, List.singleton_append] at before
    have left := before.erase key
    rw [List.erase_cons_head] at left
    exact left
  · intro peer _ _ _ _ other inside
    rw [railKeys_unlinkRail] at inside
    exact .inl (List.mem_of_mem_erase inside)

/-! ## Leaving -/

theorem Inv.leave (inv : s.Inv) {addr : Nat} (found : s.calls[c]? = some (.leaving addr)) {peer : Counted Nat ServicePeer}
    (member : peer ∈ s.peers) (name : peer.key = addr) :
    ({ s with peers := Counted.release addr s.peers }.goOn c
      (if peer.refs = 1 then [.dropping peer.value.xd] else []) : Services).Inv := by
  have picked := inv.pick found
  have balanced : Counted.Balanced s.peers (addr :: (s.calls.eraseIdx c).filterMap ServiceCall.peer?) := picked.balanced
  have values := Counted.values_release addr s.peers
  have silent : ∀ {β : Type} (g : ServiceCall → Option β), (∀ xd, g (.dropping xd) = none) →
      ((if peer.refs = 1 then [ServiceCall.dropping peer.value.xd] else []) ++ s.calls.eraseIdx c).filterMap g =
        (s.calls.eraseIdx c).filterMap g := by
    intro β g quiet
    split
    · simp [quiet]
    · rfl
  refine ⟨?_, ?_, ?_, inv.nextPeerId, ?_, ?_⟩
  · simp only [Services.goOn, silent ServiceCall.peer? fun _ => rfl]
    exact balanced.release
  · intro object inside
    obtain ⟨old, listed, key, value⟩ := Counted.mem_release inside
    have before : old.value.railKeys.Perm ((s.calls.eraseIdx c).filterMap (ServiceCall.railOf old.key)) :=
      picked.rails old listed
    show object.value.railKeys.Perm _
    simp only [Services.goOn, silent (ServiceCall.railOf object.key) fun _ => rfl]
    rw [value, key]
    exact before
  · exact inv.apart.sublist values
  · intro few
    obtain ⟨distinct, below⟩ := inv.ids few
    constructor
    · have fewer := values.map ServicePeer.peerId
      rw [List.map_map, List.map_map] at fewer
      exact fewer.nodup distinct
    · intro object inside
      obtain ⟨old, listed, -, value⟩ := Counted.mem_release inside
      rw [value]
      exact below old listed
  · have refs : s.xdRefs.Perm (s.peers.map (fun peer => peer.value.xd) ++
      (s.calls.eraseIdx c).filterMap ServiceCall.xd?) := picked.xdomains
    have moved := Counted.perm_release ServicePeer.xd balanced.distinct balanced.held member
    rw [name] at moved
    show s.xdRefs.Perm ((Counted.release addr s.peers).map (fun peer => peer.value.xd) ++ List.filterMap ServiceCall.xd?
      ((if peer.refs = 1 then [.dropping peer.value.xd] else []) ++ s.calls.eraseIdx c))
    have dropped : List.filterMap ServiceCall.xd? (if peer.refs = 1 then [ServiceCall.dropping peer.value.xd] else []) =
        if peer.refs = 1 then [peer.value.xd] else [] := by
      split
      · rfl
      · rfl
    rw [List.filterMap_append, dropped, ← List.append_assoc]
    exact refs.trans ((moved.trans List.perm_append_comm).append_right _)

theorem Inv.drop (inv : s.Inv) {xd : Nat} (found : s.calls[c]? = some (.dropping xd)) :
    ({ s with xdRefs := s.xdRefs.erase xd }.goOn c [] : Services).Inv := by
  have picked := inv.pick found
  refine ⟨picked.balanced, picked.rails, inv.apart, inv.nextPeerId, inv.ids, ?_⟩
  have refs : s.xdRefs.Perm (s.peers.map (fun peer => peer.value.xd) ++
    xd :: (s.calls.eraseIdx c).filterMap ServiceCall.xd?) := picked.xdomains
  have left := (refs.trans List.perm_middle).erase xd
  rw [List.erase_cons_head] at left
  exact left

theorem Inv.step (inv : s.Inv) {action : Action} (stepped : s.step action = some s') : s'.Inv := by
  cases action with
  | probe backend xd prtcid nativeLane =>
      simp only [Services.step] at stepped
      split at stepped
      · cases stepped
        refine ⟨inv.balanced, inv.rails, inv.apart, inv.nextPeerId, inv.ids, ?_⟩
        exact (inv.xdomains.cons xd).trans List.perm_middle.symm
      · cases stepped
        exact inv
  | enter c addr =>
      simp only [Services.step] at stepped
      split at stepped
      · rename_i backend xd key nativeLane found
        split at stepped
        · cases stepped
        rename_i free
        have fresh : ∀ pos ∈ s.peers, pos.key ≠ addr := by simpa using free
        have spec := s.getOrCreate_spec addr backend xd
        cases got : s.getOrCreate addr backend xd with
        | reused peer =>
            rw [got] at stepped spec
            cases stepped
            obtain ⟨pos, member, rfl, -⟩ := spec
            exact inv.reuse found member
        | busy =>
            rw [got] at stepped
            cases stepped
            exact inv.goOn found rfl (fun _ => rfl) rfl
        | created peer =>
            rw [got] at stepped spec
            cases stepped
            obtain ⟨rfl, missing, allowed⟩ := spec
            exact inv.create found fresh missing allowed
      · cases stepped
  | addRail c ida =>
      simp only [Services.step] at stepped
      split at stepped
      · rename_i addr key nativeLane found
        split at stepped
        · rename_i railId peer search
          obtain ⟨member, name⟩ := find?_peer search
          split at stepped
          · rename_i rails added
            cases stepped
            exact inv.attach found member name added
          · cases stepped
            exact inv.goOn found rfl (fun _ => rfl) rfl
        · cases stepped
          exact inv.goOn found rfl (fun _ => rfl) rfl
        · cases stepped
      · cases stepped
  | setUp c ok =>
      simp only [Services.step] at stepped
      split at stepped
      · rename_i addr key found
        cases stepped
        cases ok with
        | true => exact inv.goOn found rfl (fun _ => rfl) rfl
        | false => exact inv.goOn found rfl (fun _ => rfl) rfl
      · cases stepped
  | remove c =>
      simp only [Services.step] at stepped
      split at stepped
      · rename_i addr key found
        cases stepped
        exact inv.goOn found rfl (fun _ => rfl) rfl
      · cases stepped
  | mark c =>
      simp only [Services.step] at stepped
      split at stepped
      · rename_i addr key found
        cases stepped
        exact inv.mark found
      · cases stepped
  | unlink c =>
      simp only [Services.step] at stepped
      split at stepped
      · rename_i addr key found
        cases stepped
        exact inv.unlink found
      · cases stepped
  | leave c =>
      simp only [Services.step] at stepped
      split at stepped
      · rename_i addr found
        split at stepped
        · rename_i peer search
          obtain ⟨member, name⟩ := find?_peer search
          cases stepped
          exact inv.leave found member name
        · cases stepped
      · cases stepped
  | drop c =>
      simp only [Services.step] at stepped
      split at stepped
      · rename_i xd found
        cases stepped
        exact inv.drop found
      · cases stepped

theorem inv_reachable {cfg : ServiceConfig} {xds : Nat → XDomain} (reachable : (serviceSystem cfg xds).Reachable s) :
    s.Inv := by
  apply reachable.invariant
  · rintro s rfl
    exact ⟨.nil, by simp, .nil, rfl, fun _ => ⟨.nil, by simp⟩, .refl _⟩
  · intro s action s' inv _ stepped
    exact inv.step stepped

/-- The peers of the driver are those that its services use. `idle` says that `tbv_peer_put` destroys a peer only
after its last rail. -/
structure Sound (s : Services) : Prop where
  counted : ∀ peer ∈ s.peers, peer.refs = (s.calls.filterMap ServiceCall.peer?).count peer.key ∧ 0 < peer.refs
  used : ∀ call ∈ s.calls, ∀ addr ∈ call.peer?, ∃ peer ∈ s.peers, peer.key = addr ∧
    ∀ key ∈ call.railOf addr, key ∈ peer.value.railKeys
  idle : ∀ (c addr : Nat), s.calls[c]? = some (ServiceCall.leaving addr) → ∀ peer ∈ s.peers, peer.key = addr → peer.refs = 1 →
    peer.value.rails = []
  apart : (s.peers.map Counted.value).Pairwise (Apart s.xds s.cfg.nativeControlSourceAware)
  distinct : (s.peers.map Counted.key).Nodup ∧ (s.created ≤ 2 ^ 32 → (s.peers.map fun peer => peer.value.peerId).Nodup)
  xdomains : s.xdRefs.Perm (s.peers.map (fun peer => peer.value.xd) ++ s.calls.filterMap ServiceCall.xd?)
  quiet : s.calls = [] → s.peers = [] ∧ s.xdRefs = []

theorem Inv.sound (inv : s.Inv) : s.Sound := by
  have balanced := inv.balanced
  refine ⟨fun peer member => ⟨balanced.counted peer member, balanced.held peer member⟩, ?_, ?_, inv.apart,
    ⟨balanced.distinct, fun few => (inv.ids few).1⟩, inv.xdomains, ?_⟩
  · intro call member addr holds
    obtain ⟨peer, listed, rfl⟩ := balanced.live addr (List.mem_filterMap.mpr ⟨call, member, holds⟩)
    refine ⟨peer, listed, rfl, ?_⟩
    intro key rail
    exact (inv.rails peer listed).mem_iff.mpr (List.mem_filterMap.mpr ⟨call, member, rail⟩)
  · rintro c addr found peer listed rfl last
    have picked := inv.pick found
    have one : peer.refs = ((s.calls.eraseIdx c).filterMap ServiceCall.peer?).count peer.key + 1 := by
      have counted := picked.balanced.counted peer listed
      simpa [ServiceCall.peer?] using counted
    have alone : ((s.calls.eraseIdx c).filterMap ServiceCall.peer?).count peer.key = 0 := by omega
    have nothing : (s.calls.eraseIdx c).filterMap (ServiceCall.railOf peer.key) = [] := by
      apply List.filterMap_eq_nil_iff.mpr
      intro call member
      cases held : call.railOf peer.key with
      | none => rfl
      | some key =>
          have holder := List.mem_filterMap.mpr ⟨call, member, ServiceCall.peer?_of_railOf held⟩
          exact absurd holder (List.count_eq_zero.mp alone)
    have rails : peer.value.railKeys.Perm ((s.calls.eraseIdx c).filterMap (ServiceCall.railOf peer.key)) :=
      picked.rails peer listed
    rw [nothing] at rails
    exact List.map_eq_nil_iff.mp rails.eq_nil
  · intro done
    have peers : s.peers = [] := by
      apply List.eq_nil_iff_forall_not_mem.mpr
      intro peer member
      have counted := balanced.counted peer member
      rw [done] at counted
      exact absurd counted (balanced.held peer member).ne'
    have refs := inv.xdomains
    rw [peers, done] at refs
    exact ⟨peers, refs.eq_nil⟩

end Services

/-- Whatever services come and go, in whatever order their probes and removals run: no call loses its peer, no peer
outlives its services, and no two peers are mixed up. -/
theorem services_sound (cfg : ServiceConfig) (xds : Nat → XDomain) (s : Services)
    (reachable : (serviceSystem cfg xds).Reachable s) : s.Sound :=
  (Services.inv_reachable reachable).sound

def twoCables : Nat → XDomain := fun xd =>
  { remoteUuid := some 7, route := if xd = 0 then 1 else 3 }

/-- Two lanes of one cable share a peer; with a blind control the second cable to the host is refused. -/
def cablesRun : List Services.Action :=
  [.probe .native 0 0x6e01 0, .enter 0 100, .addRail 0 (.ok 0), .setUp 0 true, .probe .native 0 0x6e01 1, .enter 0 200,
    .probe .native 1 0x6e01 0, .enter 0 300]

theorem services_sound_cablesRun :
    ∃ s, (serviceSystem { nativeControlSourceAware := false } twoCables).Reachable s ∧
      s.peers.map Counted.refs = [2] ∧ s.xdRefs.length = 3 ∧ s.Sound := by
  obtain ⟨s, reachable, seen⟩ := System.exists_reachableVia
    (serviceSystem { nativeControlSourceAware := false } twoCables) (fun _ _ => True) cablesRun
    (fun s => s.peers.map Counted.refs = [2] ∧ s.xdRefs.length = 3) rfl (by decide +kernel)
  obtain ⟨refs, xds⟩ := of_decide_eq_true seen
  exact ⟨s, reachable, refs, xds, services_sound _ _ s reachable⟩

end ThunderboltVerbs.Driver
