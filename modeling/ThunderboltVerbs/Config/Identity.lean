import ThunderboltVerbs.Proto.NativeData

/-!
# Addresses, GIDs and their selection (`proto/identity.c`)

A selection is written through a pointer and cleared first, so that the selectors return it beside their
error.
-/

namespace ThunderboltVerbs.Config
open Proto

def afNone : UInt8 := 0
def afInet : UInt8 := 4
def afInet6 : UInt8 := 6

def gidIb : UInt8 := 0
def gidRoceV1 : UInt8 := 1
def gidRoceV2 : UInt8 := 2

def addrBytes : Nat := 16

structure Addr where
  family : UInt8 := afNone
  bytes : Vector UInt8 addrBytes := Vector.replicate addrBytes 0
  deriving DecidableEq, Repr

structure Gid where
  deviceId : UInt32
  port : UInt8
  gidIndex : UInt8
  gidType : UInt8
  addr : Addr
  deriving DecidableEq, Repr

structure Route where
  peerAddr : Addr := {}
  localSrcAddr : Addr := {}
  deriving DecidableEq, Repr

structure NcclPolicy where
  family : UInt8 := 0
  roceVersion : UInt8 := 0
  hasAddrRange : Bool := false
  addrRange : Addr := {}
  addrRangeBits : UInt8 := 0
  deriving DecidableEq, Repr

/-- `tbv_id_selection_clear` gives the default values. -/
structure Selection where
  valid : Bool := false
  deviceId : UInt32 := 0
  port : UInt8 := 0
  gidIndex : UInt8 := 0
  gidType : UInt8 := 0
  addr : Addr := {}
  deriving DecidableEq, Repr

def addrV4 (a b c d : UInt8) : Addr where
  family := afInet
  bytes := #v[0, 0, 0, 0, 0, 0, 0, 0, 0, 0, 0, 0, a, b, c, d]

def ncclPolicyDefault : NcclPolicy where
  family := afInet
  roceVersion := 2

/-! ## GIDs -/

namespace Addr

def isZero (addr : Addr) : Bool := addr.bytes.toList.all (· = 0)

def isLinkLocalV6 (addr : Addr) : Bool :=
  addr.family = afInet6 && addr.bytes[0] = 0xfe && addr.bytes[1] &&& 0xc0 = 0x80

end Addr

namespace Gid

def isRoce (gid : Gid) : Bool := gid.gidType = gidRoceV1 || gid.gidType = gidRoceV2

def roceVersion (gid : Gid) : UInt8 :=
  if gid.gidType = gidRoceV1 then 1 else if gid.gidType = gidRoceV2 then 2 else 0

def isGlobalRoce (gid : Gid) : Bool :=
  gid.isRoce && gid.addr.family ≠ afNone && !gid.addr.isZero && !gid.addr.isLinkLocalV6

def sameEndpoint (a b : Gid) : Bool := a.deviceId = b.deviceId && a.port = b.port

def select (gid : Gid) : Selection where
  valid := true
  deviceId := gid.deviceId
  port := gid.port
  gidIndex := gid.gidIndex
  gidType := gid.gidType
  addr := gid.addr

end Gid

def prefixMatchBytes (addr range : List UInt8) (bits maxBits : Nat) : Bool :=
  let fullBytes := bits / 8
  let remBits := bits % 8
  let mask : UInt8 := 0xff <<< (8 - remBits).toUInt8
  if bits > maxBits then false
  else if fullBytes ≠ 0 ∧ addr.take fullBytes ≠ range.take fullBytes then false
  else if remBits ≠ 0 then addr.getD fullBytes 0 &&& mask = range.getD fullBytes 0 &&& mask
  else true

def Gid.matchesRange (gid : Gid) (policy : NcclPolicy) : Bool :=
  if !policy.hasAddrRange then true
  else if gid.addr.family ≠ policy.family ∨ policy.addrRange.family ≠ policy.family then false
  else if policy.family = afInet then
    prefixMatchBytes (gid.addr.bytes.toList.drop 12) (policy.addrRange.bytes.toList.drop 12)
      policy.addrRangeBits.toNat 32
  else if policy.family = afInet6 then
    prefixMatchBytes gid.addr.bytes.toList policy.addrRange.bytes.toList policy.addrRangeBits.toNat 128
  else false

/-! ## Selection -/

/-- The loop of both selectors: `better` tells whether a further GID of the same endpoint takes the place of
the best one. -/
def selectFrom (wanted : Gid → Bool) (better : Gid → Gid → Bool) : Option Gid → List Gid → Selection × Option Errno
  | none, [] => ({}, some .eNoDev)
  | some best, [] => (best.select, none)
  | best, gid :: rest =>
      if !wanted gid then selectFrom wanted better best rest
      else
        match best with
        | none => selectFrom wanted better (some gid) rest
        | some best =>
            if best.sameEndpoint gid then
              selectFrom wanted better (some (if better best gid then gid else best)) rest
            else ({}, some .eExist)

def llamaWanted (route : Route) (gid : Gid) : Bool := gid.isRoce && gid.addr = route.localSrcAddr

def llamaBetter (best gid : Gid) : Bool := best.gidType ≠ gidRoceV2 && gid.gidType = gidRoceV2

def selectLlama (gids : List Gid) (route : Route) : Selection × Option Errno :=
  selectFrom (llamaWanted route) llamaBetter none gids

def ncclWanted (policy : NcclPolicy) (gid : Gid) : Bool :=
  gid.isGlobalRoce && gid.addr.family = policy.family && gid.roceVersion = policy.roceVersion &&
    gid.matchesRange policy

def selectNccl (gids : List Gid) (policy : NcclPolicy) : Selection × Option Errno :=
  selectFrom (ncclWanted policy) (fun _ _ => false) none gids

def validateAppCompat (gids : List Gid) (route : Route) (policy : NcclPolicy) : Selection × Option Errno :=
  match selectLlama gids route with
  | (_, some error) => ({}, some error)
  | (llama, none) =>
      match selectNccl gids policy with
      | (_, some error) => ({}, some error)
      | (nccl, none) =>
          if llama.deviceId ≠ nccl.deviceId ∨ llama.port ≠ nccl.port ∨ llama.gidIndex ≠ nccl.gidIndex ∨
              llama.gidType ≠ nccl.gidType then ({}, some .eXDev)
          else (llama, none)

end ThunderboltVerbs.Config
