import ThunderboltVerbs.Config.Transport

/-!
# The attributes of a link (`kernel/configfs.c`)

What is written to an attribute is read with `sscanf` of the kernel: `%u` wraps, and white space goes before a
conversion.
-/

namespace ThunderboltVerbs.Config
open Proto Lib

/-! ## Text -/

def isSpace (c : Char) : Bool := c = ' ' || (9 ≤ c.toNat && c.toNat ≤ 13) || c.toNat = 160

def skipSpaces (text : Text) : Text := text.dropWhile isSpace

/-- `%u` -/
def scanUInt (text : Text) : Option (UInt32 × Text) :=
  let text := skipSpaces text
  let digits := text.takeWhile Char.isDigit
  if digits = [] then none
  else some (digits.foldl (fun n d => n * 10 + (d.toNat - '0'.toNat).toUInt32) 0, text.drop digits.length)

def scanChar (c : Char) : Text → Option Text
  | [] => none
  | d :: rest => if d = c then some rest else none

/-- `%<width>s` -/
def scanWord (width : Nat) (text : Text) : Option (Text × Text) :=
  let text := skipSpaces text
  let word := (text.takeWhile fun c => !isSpace c).take width
  if word = [] then none else some (word, text.drop word.length)

/-- `%<width>[^<stop>]` -/
def scanUntil (width : Nat) (stop : Char) (text : Text) : Option (Text × Text) :=
  let word := (text.takeWhile (· ≠ stop)).take width
  if word = [] then none else some (word, text.drop word.length)

def scanIpv4 (text : Text) : Option (UInt32 × UInt32 × UInt32 × UInt32) := do
  let (a, text) ← scanUInt text
  let text ← scanChar '.' text
  let (b, text) ← scanUInt text
  let text ← scanChar '.' text
  let (c, text) ← scanUInt text
  let text ← scanChar '.' text
  let (d, _) ← scanUInt text
  return (a, b, c, d)

def scanRange (text : Text) : Option (Text × UInt32) := do
  let (ip, text) ← scanUntil 31 '/' text
  let text ← scanChar '/' text
  let (bits, _) ← scanUInt text
  return (ip, bits)

def scanGid (text : Text) : Option (UInt32 × UInt32 × UInt32 × Text × Text) := do
  let (dev, text) ← scanUInt text
  let (port, text) ← scanUInt text
  let (index, text) ← scanUInt text
  let (type, text) ← scanWord 15 text
  let (ip, _) ← scanWord 31 text
  return (dev, port, index, type, ip)

/-- `sysfs_streq` with a word without newline. -/
def sysfsStreq (text : Text) (word : String) : Bool := text = word.toList || text = word.toList ++ ['\n']

def parseIpv4 (text : Text) : Except Errno Addr :=
  match scanIpv4 text with
  | none => .error .eInval
  | some (a, b, c, d) =>
      if a > 255 || b > 255 || c > 255 || d > 255 then .error .eInval
      else .ok (addrV4 a.toUInt8 b.toUInt8 c.toUInt8 d.toUInt8)

def parseGidType (type : Text) : Except Errno UInt8 :=
  if type = "roce-v2".toList then .ok gidRoceV2
  else if type = "roce-v1".toList then .ok gidRoceV1
  else if type = "ib".toList then .ok gidIb
  else .error .eInval

def decimal (n : Nat) : Text := Nat.toDigits 10 n

def unset : Text := "<unset>\n".toList

/-- `%u.%u.%u.%u` of the last four bytes. -/
def dotted (addr : Addr) : Text :=
  decimal addr.bytes[12].toNat ++ '.' :: decimal addr.bytes[13].toNat ++ '.' :: decimal addr.bytes[14].toNat ++
    '.' :: decimal addr.bytes[15].toNat

def formatIpv4 (addr : Addr) : Text := if addr.family ≠ afInet then unset else dotted addr ++ ['\n']

def stateName : CfgState → String
  | .empty => "empty"
  | .draft => "draft"
  | .sealed => "sealed"
  | .active => "active"

def backendName (backend : UInt8) : String :=
  if backend = backendNative then "native" else if backend = backendApple then "apple" else "unset"

def gidTypeName (gidType : UInt8) : String :=
  if gidType = gidRoceV1 then "roce-v1"
  else if gidType = gidRoceV2 then "roce-v2"
  else if gidType = gidIb then "ib"
  else "unknown"

/-! ## Links -/

structure CfgfsLink where
  name : Text
  cfg : CfgLink
  stagedRoute : Route := {}
  localSrcSet : Bool := false
  peerSet : Bool := false
  deriving DecidableEq, Repr

def linkNameHead : Text := "usb4_rdma".toList

def linkNameCharAllowed (c : Char) : Bool :=
  ('a' ≤ c && c ≤ 'z') || ('A' ≤ c && c ≤ 'Z') || ('0' ≤ c && c ≤ '9') || c = '_' || c = '-'

/-- The characters of a name from index `i` on. -/
def validateNameFrom : Nat → Text → Option Errno
  | _, [] => none
  | i, c :: rest =>
      if linkNameMax ≤ i then some .eNameTooLong
      else if !linkNameCharAllowed c then some .eInval
      else validateNameFrom (i + 1) rest

def validateName (name : Text) : Option Errno :=
  if !linkNameHead.isPrefixOf name then some .eInval
  else if name.length = linkNameHead.length then some .eInval
  else validateNameFrom linkNameHead.length (name.drop linkNameHead.length)

/-- `tbv_cfgfs_make_link`; `linkId` is the next number and `alloc` the answer of `kzalloc`. -/
def makeLink (name : Text) (linkId : UInt32) (alloc : Bool) : Except Errno CfgfsLink :=
  match validateName name with
  | some error => .error error
  | none => if !alloc then .error .eNoMem else .ok { name, cfg := .init linkId }

namespace CfgfsLink

/-- A call of `proto/config.c` on the link. -/
def update (link : CfgfsLink) (result : CfgLink × Option Errno) : CfgfsLink × Option Errno :=
  ({ link with cfg := result.1 }, result.2)

def applyRoute (link : CfgfsLink) : CfgfsLink × Option Errno :=
  if !link.localSrcSet || !link.peerSet then (link, none) else link.update (link.cfg.setRoute link.stagedRoute)

/-! ### Shows -/

def backendShow (link : CfgfsLink) : Text := (backendName link.cfg.backend).toList ++ ['\n']

def localSrcIpv4Show (link : CfgfsLink) : Text := formatIpv4 link.stagedRoute.localSrcAddr

def peerIpv4Show (link : CfgfsLink) : Text := formatIpv4 link.stagedRoute.peerAddr

def ncclAddrRangeShow (link : CfgfsLink) : Text :=
  if !link.cfg.ncclPolicySet || !link.cfg.ncclPolicy.hasAddrRange then unset
  else
    dotted link.cfg.ncclPolicy.addrRange ++ '/' :: decimal link.cfg.ncclPolicy.addrRangeBits.toNat ++ ['\n']

/-- `%u %u %u %s %u.%u.%u.%u` -/
def gidLine (deviceId : UInt32) (port gidIndex gidType : UInt8) (addr : Addr) : Text :=
  decimal deviceId.toNat ++ ' ' :: decimal port.toNat ++ ' ' :: decimal gidIndex.toNat ++
    ' ' :: (gidTypeName gidType).toList ++ ' ' :: dotted addr ++ ['\n']

def appGidsShow (link : CfgfsLink) : Text :=
  link.cfg.storedGids.flatMap fun gid => gidLine gid.deviceId gid.port gid.gidIndex gid.gidType gid.addr

def stateShow (link : CfgfsLink) : Text := (stateName link.cfg.state).toList ++ ['\n']

def selectionShow (link : CfgfsLink) : Text :=
  let sel := link.cfg.appSelection
  if !sel.valid then unset else gidLine sel.deviceId sel.port sel.gidIndex sel.gidType sel.addr

/-! ### Stores -/

def backendStore (link : CfgfsLink) (text : Text) : CfgfsLink × Option Errno :=
  if sysfsStreq text "native" then link.update (link.cfg.setBackend backendNative)
  else if sysfsStreq text "apple" then link.update (link.cfg.setBackend backendApple)
  else (link, some .eInval)

def stageLocalSrc (link : CfgfsLink) (addr : Addr) : CfgfsLink :=
  { link with stagedRoute := { link.stagedRoute with localSrcAddr := addr }, localSrcSet := true }

def stagePeer (link : CfgfsLink) (addr : Addr) : CfgfsLink :=
  { link with stagedRoute := { link.stagedRoute with peerAddr := addr }, peerSet := true }

def storeAddress (link : CfgfsLink) (stage : Addr → CfgfsLink) (text : Text) : CfgfsLink × Option Errno :=
  match parseIpv4 text with
  | .error error => (link, some error)
  | .ok addr => (stage addr).applyRoute

def localSrcIpv4Store (link : CfgfsLink) (text : Text) : CfgfsLink × Option Errno :=
  link.storeAddress link.stageLocalSrc text

def peerIpv4Store (link : CfgfsLink) (text : Text) : CfgfsLink × Option Errno := link.storeAddress link.stagePeer text

def ncclAddrRangeStore (link : CfgfsLink) (text : Text) : CfgfsLink × Option Errno :=
  match scanRange text with
  | none => (link, some .eInval)
  | some (ip, bits) =>
      if bits > 32 then (link, some .eInval)
      else
        match parseIpv4 ip with
        | .error error => (link, some error)
        | .ok addrRange =>
            link.update (link.cfg.setNcclPolicy
              { ncclPolicyDefault with hasAddrRange := true, addrRange, addrRangeBits := bits.toUInt8 })

def parseGid (text : Text) : Except Errno Gid :=
  match scanGid text with
  | none => .error .eInval
  | some (dev, port, index, type, ip) =>
      if port > 255 || index > 255 then .error .eInval
      else
        match parseGidType type with
        | .error error => .error error
        | .ok gidType =>
            match parseIpv4 ip with
            | .error error => .error error
            | .ok addr => .ok { deviceId := dev, port := port.toUInt8, gidIndex := index.toUInt8, gidType, addr }

def appGidsStore (link : CfgfsLink) (text : Text) : CfgfsLink × Option Errno :=
  match parseGid text with
  | .error error => (link, some error)
  | .ok gid =>
      if link.cfg.appGidCount ≥ maxAppGids then (link, some .eNoSpc)
      else link.update (link.cfg.setAppGids (some (link.cfg.storedGids ++ [gid])))

def sealStore (link : CfgfsLink) (text : Text) : CfgfsLink × Option Errno :=
  if !sysfsStreq text "1" then (link, some .eInval)
  else
    match link.cfg.sealLink with
    | (cfg, some error) => ({ link with cfg }, some error)
    | (cfg, none) => ({ link with cfg }, (transportGet cfg.backendType).validateConfig cfg)

def activateStore (link : CfgfsLink) (configured : List ConfiguredLink) (text : Text) (alloc : Bool) :
    CfgfsLink × List ConfiguredLink × Option Errno :=
  if !sysfsStreq text "1" then (link, configured, some .eInval)
  else
    let backend := link.cfg.backendType
    if link.cfg.state ≠ .sealed then (link, configured, some .eInval)
    else
      match (transportGet backend).activate link.cfg with
      | some error => (link, configured, some error)
      | none =>
          match link.cfg.activate with
          | (cfg, some error) => ({ link with cfg }, configured, some error)
          | (cfg, none) =>
              match linkActivateConfig configured link.name backend cfg alloc with
              | (configured, some error) => ({ link with cfg := cfg.deactivate.1 }, configured, some error)
              | (configured, none) => ({ link with cfg }, configured, none)

end CfgfsLink

/-! ## Reads and writes -/

/-- The attributes that can be read. -/
inductive CfgfsShow
  | backend | localSrcIpv4 | peerIpv4 | ncclAddrRange | appGids | state | selection
  deriving DecidableEq, Repr

/-- The attributes that can be written. -/
inductive CfgfsStore
  | backend | localSrcIpv4 | peerIpv4 | ncclAddrRange | appGids | sealLink | activate
  deriving DecidableEq, Repr

def CfgfsLink.read (link : CfgfsLink) : CfgfsShow → Text
  | .backend => link.backendShow
  | .localSrcIpv4 => link.localSrcIpv4Show
  | .peerIpv4 => link.peerIpv4Show
  | .ncclAddrRange => link.ncclAddrRangeShow
  | .appGids => link.appGidsShow
  | .state => link.stateShow
  | .selection => link.selectionShow

/-- A link and the links that are published. -/
structure Cfgfs where
  link : CfgfsLink
  configured : List ConfiguredLink
  deriving DecidableEq, Repr

/-- `others` is what the other links publish and withdraw. -/
inductive CfgfsAction
  | store (attr : CfgfsStore) (text : Text) (alloc : Bool)
  | others (configured : List ConfiguredLink)
  deriving DecidableEq, Repr

namespace Cfgfs

/-- `none` is the number of bytes written. -/
def store (s : Cfgfs) (attr : CfgfsStore) (text : Text) (alloc : Bool) : Cfgfs × Option Errno :=
  let onLink (result : CfgfsLink × Option Errno) : Cfgfs × Option Errno := ({ s with link := result.1 }, result.2)
  match attr with
  | .backend => onLink (s.link.backendStore text)
  | .localSrcIpv4 => onLink (s.link.localSrcIpv4Store text)
  | .peerIpv4 => onLink (s.link.peerIpv4Store text)
  | .ncclAddrRange => onLink (s.link.ncclAddrRangeStore text)
  | .appGids => onLink (s.link.appGidsStore text)
  | .sealLink => onLink (s.link.sealStore text)
  | .activate =>
      let (link, configured, error) := s.link.activateStore s.configured text alloc
      ({ link, configured }, error)

def act (s : Cfgfs) : CfgfsAction → Cfgfs × Option Errno
  | .store attr text alloc => s.store attr text alloc
  | .others configured => ({ s with configured }, none)

end Cfgfs

end ThunderboltVerbs.Config
