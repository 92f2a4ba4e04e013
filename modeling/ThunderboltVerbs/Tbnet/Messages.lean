import ThunderboltVerbs.Lib.LittleEndian

/-!
# ThunderboltIP messages (`kernel/tbnet_identity.c`)

A builder lays a struct over the caller's buffer and a parser reads one off it, in the byte order of the host,
which is little-endian here. A buffer is the list of its bytes.
-/

namespace ThunderboltVerbs.Tbnet
open Lib

inductive TbipError
  | eInval | eNoSpc | eProto | eProtoNoSupport
  deriving DecidableEq, Repr

abbrev Uuid := Vector UInt8 16
abbrev Mac := Vector UInt8 6

def tbipUuid : Uuid :=
  #v[0x79, 0x8f, 0x58, 0x9e, 0x36, 0x16, 0x8a, 0x47, 0x97, 0xc6, 0x56, 0x64, 0xa9, 0x20, 0xc8, 0xdd]

def loginProtoVersion : UInt32 := 1
def headerSize : Nat := 68
def loginSize : Nat := 92
def loginResponseSize : Nat := 100
def logoutSize : Nat := 68
def statusSize : Nat := 72

inductive TbipType
  | login | loginResponse | logout | status
  deriving DecidableEq, Repr

def TbipType.code : TbipType → UInt32
  | .login => 0
  | .loginResponse => 1
  | .logout => 2
  | .status => 3

def TbipType.size : TbipType → Nat
  | .login => loginSize
  | .loginResponse => loginResponseSize
  | .logout => logoutSize
  | .status => statusSize

def TbipType.ofCode (code : UInt32) : Option TbipType :=
  if code = 0 then some .login
  else if code = 1 then some .loginResponse
  else if code = 2 then some .logout
  else if code = 3 then some .status
  else none

structure TbipControl where
  route : UInt64
  sequence : UInt8
  initiatorUuid : Uuid
  targetUuid : Uuid
  commandId : UInt32
  deriving DecidableEq, Repr

structure LoginParams where
  ctrl : TbipControl
  transmitPath : UInt32
  deriving DecidableEq, Repr

structure LoginResponseParams where
  ctrl : TbipControl
  status : UInt32
  receiverMac : Mac
  deriving DecidableEq, Repr

/-- `tbv_tbip_status_params` and `tbv_tbip_status_result`. -/
structure StatusParams where
  ctrl : TbipControl
  status : UInt32
  deriving DecidableEq, Repr

structure LoginResponseResult where
  ctrl : TbipControl
  status : UInt32
  receiverMac : Mac
  receiverMacLen : UInt32
  deriving DecidableEq, Repr

/-! ## Builders -/

def snMask : UInt32 := 0x18000000

/-- The dwords behind the first three, and the two low bits of the sequence number. -/
def headerLengthSn (size : Nat) (sequence : UInt8) : UInt32 :=
  ((size - 12) / 4).toUInt32 ||| sequence.toUInt32 <<< 27 &&& snMask

def fillHeader (buffer : List UInt8) (ctrl : TbipControl) (type : TbipType) (size : Nat) : List UInt8 :=
  let buffer := patch buffer 0 (bytes32 (ctrl.route >>> 32).toUInt32)
  let buffer := patch buffer 4 (bytes32 (ctrl.route &&& 0xffffffff).toUInt32)
  let buffer := patch buffer 8 (bytes32 (headerLengthSn size ctrl.sequence))
  let buffer := patch buffer 12 tbipUuid.toList
  let buffer := patch buffer 28 ctrl.initiatorUuid.toList
  let buffer := patch buffer 44 ctrl.targetUuid.toList
  let buffer := patch buffer 60 (bytes32 type.code)
  patch buffer 64 (bytes32 ctrl.commandId)

/-- `memset` of the struct and `tbv_tbip_fill_header`, which every builder begins with. -/
def beginMessage (buffer : List UInt8) (ctrl : TbipControl) (type : TbipType) (size : Nat) : List UInt8 :=
  fillHeader (patch buffer 0 (List.replicate size 0)) ctrl type size

def buildLogin (buffer : List UInt8) (params : LoginParams) : Except TbipError (Nat × List UInt8) :=
  if buffer.length < loginSize then .error .eNoSpc
  else
    let buffer := beginMessage buffer params.ctrl .login loginSize
    let buffer := patch buffer 68 (bytes32 loginProtoVersion)
    .ok (loginSize, patch buffer 72 (bytes32 params.transmitPath))

def buildLoginResponse (buffer : List UInt8) (params : LoginResponseParams) :
    Except TbipError (Nat × List UInt8) :=
  if buffer.length < loginResponseSize then .error .eNoSpc
  else
    let buffer := beginMessage buffer params.ctrl .loginResponse loginResponseSize
    let buffer := patch buffer 68 (bytes32 params.status)
    let buffer := patch buffer 72 params.receiverMac.toList
    .ok (loginResponseSize, patch buffer 80 (bytes32 6))

def buildLogout (buffer : List UInt8) (ctrl : TbipControl) : Except TbipError (Nat × List UInt8) :=
  if buffer.length < logoutSize then .error .eNoSpc
  else .ok (logoutSize, beginMessage buffer ctrl .logout logoutSize)

def buildStatus (buffer : List UInt8) (params : StatusParams) : Except TbipError (Nat × List UInt8) :=
  if buffer.length < statusSize then .error .eNoSpc
  else
    let buffer := beginMessage buffer params.ctrl .status statusSize
    .ok (statusSize, patch buffer 68 (bytes32 params.status))

/-! ## Parsers -/

def routeMask : UInt64 := ~~~((1 : UInt64) <<< 63)

def vectorAt (buffer : List UInt8) (offset size : Nat) : Vector UInt8 size :=
  Vector.ofFn fun i => byteAt buffer (offset + i)

def getControl (buffer : List UInt8) : TbipControl where
  route := word64 (word32At buffer 4) (word32At buffer 0) &&& routeMask
  sequence := ((word32At buffer 8 &&& snMask) >>> 27).toUInt8
  initiatorUuid := vectorAt buffer 28 16
  targetUuid := vectorAt buffer 44 16
  commandId := word32At buffer 64

def parseHeader (buffer : List UInt8) : Except TbipError (TbipType × TbipControl) :=
  if buffer.length < headerSize then .error .eInval
  else if vectorAt buffer 12 16 ≠ tbipUuid then .error .eProto
  else
    match TbipType.ofCode (word32At buffer 60) with
    | none => .error .eProto
    | some type => .ok (type, getControl buffer)

def parseType (buffer : List UInt8) : Except TbipError (TbipType × TbipControl) := parseHeader buffer

def parseLogin (buffer : List UInt8) : Except TbipError LoginParams :=
  if buffer.length < loginSize then .error .eInval
  else
    match parseHeader buffer with
    | .error error => .error error
    | .ok (type, ctrl) =>
        if type ≠ .login then .error .eProto
        else if word32At buffer 68 ≠ loginProtoVersion then .error .eProtoNoSupport
        else .ok { ctrl, transmitPath := word32At buffer 72 }

/-- Only the bytes that the length covers are copied from the address field. -/
def parseLoginResponse (buffer : List UInt8) : Except TbipError LoginResponseResult :=
  if buffer.length < loginResponseSize then .error .eInval
  else
    match parseHeader buffer with
    | .error error => .error error
    | .ok (type, ctrl) =>
        if type ≠ .loginResponse then .error .eProto
        else if word32At buffer 80 > 6 then .error .eProto
        else
          .ok {
            ctrl
            status := word32At buffer 68
            receiverMac := Vector.ofFn fun i => if i.val < (word32At buffer 80).toNat then byteAt buffer (72 + i) else 0
            receiverMacLen := word32At buffer 80 }

def parseStatus (buffer : List UInt8) : Except TbipError StatusParams :=
  if buffer.length < statusSize then .error .eInval
  else
    match parseHeader buffer with
    | .error error => .error error
    | .ok (type, ctrl) =>
        if type ≠ .status then .error .eProto else .ok { ctrl, status := word32At buffer 68 }

/-! ## The four messages -/

inductive TbipMessage
  | login (params : LoginParams)
  | loginResponse (params : LoginResponseParams)
  | logout (ctrl : TbipControl)
  | status (params : StatusParams)
  deriving DecidableEq, Repr

/-- What a parser may return, the header of a LOGOUT being all of it. -/
inductive TbipReading
  | login (params : LoginParams)
  | loginResponse (result : LoginResponseResult)
  | logout (ctrl : TbipControl)
  | status (result : StatusParams)
  deriving DecidableEq, Repr

namespace TbipMessage

def ctrl : TbipMessage → TbipControl
  | login params => params.ctrl
  | loginResponse params => params.ctrl
  | logout ctrl => ctrl
  | status params => params.ctrl

def type : TbipMessage → TbipType
  | login _ => .login
  | loginResponse _ => .loginResponse
  | logout _ => .logout
  | status _ => .status

def size (message : TbipMessage) : Nat := message.type.size

def build (buffer : List UInt8) : TbipMessage → Except TbipError (Nat × List UInt8)
  | login params => buildLogin buffer params
  | loginResponse params => buildLoginResponse buffer params
  | logout ctrl => buildLogout buffer ctrl
  | status params => buildStatus buffer params

end TbipMessage

/-- The parser of its kind returns the reading. -/
def Reads (buffer : List UInt8) : TbipReading → Prop
  | .login params => parseLogin buffer = .ok params
  | .loginResponse result => parseLoginResponse buffer = .ok result
  | .logout ctrl => parseType buffer = .ok (.logout, ctrl)
  | .status result => parseStatus buffer = .ok result

/-- The top bit of the route and all but two bits of the sequence number are lost on the way. -/
def TbipControl.received (ctrl : TbipControl) : TbipControl :=
  { ctrl with route := ctrl.route &&& routeMask, sequence := ctrl.sequence &&& 3 }

def TbipMessage.received : TbipMessage → TbipReading
  | login params => .login { params with ctrl := params.ctrl.received }
  | loginResponse params =>
      .loginResponse {
        ctrl := params.ctrl.received
        status := params.status
        receiverMac := params.receiverMac
        receiverMacLen := 6 }
  | logout ctrl => .logout ctrl.received
  | status params => .status { params with ctrl := params.ctrl.received }

/-! ## The fields of a message -/

def headerFields (ctrl : TbipControl) (type : TbipType) (size : Nat) : List (List UInt8) :=
  [bytes32 (ctrl.route >>> 32).toUInt32, bytes32 (ctrl.route &&& 0xffffffff).toUInt32,
    bytes32 (headerLengthSn size ctrl.sequence), tbipUuid.toList, ctrl.initiatorUuid.toList, ctrl.targetUuid.toList,
    bytes32 type.code, bytes32 ctrl.commandId]

namespace TbipMessage

def bodyFields : TbipMessage → List (List UInt8)
  | login params => [bytes32 loginProtoVersion, bytes32 params.transmitPath, List.replicate 16 0]
  | loginResponse params =>
      [bytes32 params.status, params.receiverMac.toList, List.replicate 2 0, bytes32 6, List.replicate 16 0]
  | logout _ => []
  | status params => [bytes32 params.status]

def fields (message : TbipMessage) : List (List UInt8) :=
  headerFields message.ctrl message.type message.size ++ message.bodyFields

def bytes (message : TbipMessage) : List UInt8 := message.fields.flatten

end TbipMessage

theorem filled_beginMessage (size room : Nat) (sized : size = room + headerSize) (buffer : List UInt8)
    (ctrl : TbipControl) (type : TbipType) :
    Filled (headerFields ctrl type size) headerSize room (buffer.drop size) (beginMessage buffer ctrl type size) := by
  have zeros := filled_zeros buffer size
  rw [sized] at zeros
  have high := zeros.patch (room + 64) 4 (bytes32 (ctrl.route >>> 32).toUInt32) rfl
  have low := high.patch (room + 60) 4 (bytes32 (ctrl.route &&& 0xffffffff).toUInt32) rfl
  have count := low.patch (room + 56) 4 (bytes32 (headerLengthSn size ctrl.sequence)) rfl
  have uuid := count.patch (room + 40) 16 tbipUuid.toList Vector.length_toList
  have initiator := uuid.patch (room + 24) 16 ctrl.initiatorUuid.toList Vector.length_toList
  have target := initiator.patch (room + 8) 16 ctrl.targetUuid.toList Vector.length_toList
  have kind := target.patch (room + 4) 4 (bytes32 type.code) rfl
  have last := kind.patch room 4 (bytes32 ctrl.commandId) rfl
  rw [← sized] at last
  exact last

/-- What a builder leaves in a buffer that is long enough. -/
theorem build_eq (message : TbipMessage) (buffer : List UInt8) :
    message.build buffer =
      if buffer.length < message.size then .error .eNoSpc
      else .ok (message.size, message.bytes ++ buffer.drop message.size) := by
  cases message with
  | login params =>
      have filled := filled_beginMessage loginSize 24 rfl buffer params.ctrl .login
      have version := filled.patch 20 4 (bytes32 loginProtoVersion) rfl
      have path := (version.patch 16 4 (bytes32 params.transmitPath) rfl).skip 0 16
      rw [List.append_assoc, List.append_assoc] at path
      simp only [TbipMessage.build, buildLogin]
      have content := path.content
      simp only [headerSize, Nat.reduceAdd] at content
      rw [content]
      rfl
  | loginResponse params =>
      have filled := filled_beginMessage loginResponseSize 32 rfl buffer params.ctrl .loginResponse
      have status := filled.patch 28 4 (bytes32 params.status) rfl
      have mac := (status.patch 22 6 params.receiverMac.toList Vector.length_toList).skip 20 2
      have length := (mac.patch 16 4 (bytes32 6) rfl).skip 0 16
      simp only [List.append_assoc] at length
      simp only [TbipMessage.build, buildLoginResponse]
      have content := length.content
      simp only [headerSize, Nat.reduceAdd] at content
      rw [content]
      rfl
  | logout ctrl =>
      have filled := filled_beginMessage logoutSize 0 rfl buffer ctrl .logout
      simp only [TbipMessage.build, buildLogout]
      rw [filled.content]
      rfl
  | status params =>
      have filled := filled_beginMessage statusSize 4 rfl buffer params.ctrl .status
      have status := filled.patch 0 4 (bytes32 params.status) rfl
      simp only [TbipMessage.build, buildStatus]
      have content := status.content
      simp only [headerSize] at content
      rw [content]
      rfl

/-! ## Reading the fields -/

variable {fields : List (List UInt8)} {offset : Nat}

theorem vectorAt_field (index : Nat) (rest : List UInt8) (here : (fields.take index).flatten.length = offset)
    {size : Nat} {value : Vector UInt8 size} (found : fields[index]? = some value.toList) :
    vectorAt (fields.flatten ++ rest) offset size = value := by
  obtain ⟨after, dropped⟩ := drop_field index rest found here
  apply Vector.ext
  intro i inside
  rw [vectorAt, Vector.getElem_ofFn, byteAt_drop, dropped, byteAt, List.getD_eq_getElem?_getD,
    List.getElem?_append_left (by rwa [Vector.length_toList]), List.getElem?_eq_getElem (by rwa [Vector.length_toList])]
  exact Vector.getElem_toList _

theorem sequence_headerLengthSn {size : Nat} (small : size < 2 ^ 27) (sequence : UInt8) :
    ((headerLengthSn size sequence &&& snMask) >>> 27).toUInt8 = sequence &&& 3 := by
  have two (n : Nat) : n &&& 3 = n % 4 := Nat.and_two_pow_sub_one_eq_mod n 2
  have dwords : ((size - 12) / 4).toUInt32.toNat >>> 27 = 0 := by
    rw [Nat.shiftRight_eq_div_pow]
    change ((size - 12) / 4) % 2 ^ 32 / 2 ^ 27 = 0
    omega
  have shifted : (sequence.toNat <<< 27 % 2 ^ 32) >>> 27 = sequence.toNat % 32 := by
    rw [Nat.shiftLeft_eq, Nat.shiftRight_eq_div_pow]
    omega
  apply UInt8.toNat_inj.mp
  simp only [headerLengthSn, snMask, UInt32.toNat_toUInt8, UInt32.toNat_shiftRight, UInt32.toNat_and, UInt32.toNat_or,
    UInt32.toNat_shiftLeft, UInt8.toNat_toUInt32, UInt8.toNat_and, UInt32.reduceToNat, UInt8.reduceToNat,
    Nat.reduceMod]
  rw [Nat.shiftRight_and_distrib, Nat.shiftRight_or_distrib, Nat.shiftRight_and_distrib, dwords, shifted,
    Nat.zero_or]
  simp only [Nat.reduceShiftRight, two]
  omega

theorem TbipType.ofCode_code (type : TbipType) : TbipType.ofCode type.code = some type := by
  cases type <;> rfl

namespace TbipMessage

variable (message : TbipMessage) (rest : List UInt8)

theorem size_small : message.size < 2 ^ 27 := by
  rw [size]
  cases message.type <;> decide

theorem headerSize_le_size : headerSize ≤ message.size := by
  rw [size]
  cases message.type <;> decide

theorem length_bytes : message.bytes.length = message.size := by
  cases message <;>
    simp [bytes, fields, headerFields, bodyFields, type, size, TbipType.size, bytes32, loginSize, loginResponseSize,
      logoutSize, statusSize]

/-- The fields of the body lie behind the header. -/
theorem body_here (k offset : Nat) (here : (message.bodyFields.take k).flatten.length = offset) :
    (message.fields.take (8 + k)).flatten.length = headerSize + offset := by
  have first : (headerFields message.ctrl message.type message.size).length = 8 := rfl
  rw [fields, ← first, List.take_length_add_append, List.flatten_append, List.length_append, here]
  simp [headerFields, bytes32, headerSize]

theorem getControl_bytes : getControl (message.bytes ++ rest) = message.ctrl.received := by
  have high : word32At (message.bytes ++ rest) 0 = (message.ctrl.route >>> 32).toUInt32 := word32At_field 0 rfl rfl
  have low : word32At (message.bytes ++ rest) 4 = (message.ctrl.route &&& 0xffffffff).toUInt32 :=
    word32At_field 1 rfl rfl
  have count : word32At (message.bytes ++ rest) 8 = headerLengthSn message.size message.ctrl.sequence :=
    word32At_field 2 rfl rfl
  have initiator : vectorAt (message.bytes ++ rest) 28 16 = message.ctrl.initiatorUuid := vectorAt_field 4 rest rfl rfl
  have target : vectorAt (message.bytes ++ rest) 44 16 = message.ctrl.targetUuid :=
    vectorAt_field 5 rest (by simp [fields, headerFields, bytes32]) rfl
  have command : word32At (message.bytes ++ rest) 64 = message.ctrl.commandId :=
    word32At_field 7 (by simp [fields, headerFields, bytes32]) rfl
  simp only [getControl, high, low, count, initiator, target, command, word64_halves,
    sequence_headerLengthSn message.size_small]
  rfl

theorem parseHeader_bytes : parseHeader (message.bytes ++ rest) = .ok (message.type, message.ctrl.received) := by
  have long : headerSize ≤ (message.bytes ++ rest).length := by
    rw [List.length_append, length_bytes]
    exact Nat.le_add_right_of_le message.headerSize_le_size
  have uuid : vectorAt (message.bytes ++ rest) 12 16 = tbipUuid := vectorAt_field 3 rest rfl rfl
  have code : word32At (message.bytes ++ rest) 60 = message.type.code :=
    word32At_field 6 (by simp [fields, headerFields, bytes32]) rfl
  rw [parseHeader, if_neg (by omega), if_neg (not_not_intro uuid), code, TbipType.ofCode_code, getControl_bytes]

end TbipMessage

namespace TbipReading

def ctrl : TbipReading → TbipControl
  | login params => params.ctrl
  | loginResponse result => result.ctrl
  | logout ctrl => ctrl
  | status result => result.ctrl

def type : TbipReading → TbipType
  | login _ => .login
  | loginResponse _ => .loginResponse
  | logout _ => .logout
  | status _ => .status

end TbipReading

section Reading

variable {buffer : List UInt8} {reading other : TbipReading}

theorem parseLogin_ok {params : LoginParams} (parsed : parseLogin buffer = .ok params) :
    loginSize ≤ buffer.length ∧ parseHeader buffer = .ok (.login, params.ctrl) ∧
      word32At buffer 68 = loginProtoVersion ∧ params.transmitPath = word32At buffer 72 := by
  unfold parseLogin at parsed
  split at parsed
  · cases parsed
  rename_i long
  split at parsed
  · cases parsed
  rename_i type ctrl header
  split at parsed
  · cases parsed
  rename_i kind
  split at parsed
  · cases parsed
  rename_i version
  cases parsed
  exact ⟨Nat.not_lt.mp long, by rw [header, not_not.mp kind], not_not.mp version, rfl⟩

theorem parseLoginResponse_ok {result : LoginResponseResult} (parsed : parseLoginResponse buffer = .ok result) :
    parseHeader buffer = .ok (.loginResponse, result.ctrl) ∧ result.status = word32At buffer 68 := by
  unfold parseLoginResponse at parsed
  split at parsed
  · cases parsed
  split at parsed
  · cases parsed
  rename_i type ctrl header
  split at parsed
  · cases parsed
  rename_i kind
  split at parsed
  · cases parsed
  cases parsed
  exact ⟨by rw [header, not_not.mp kind], rfl⟩

theorem parseStatus_ok {result : StatusParams} (parsed : parseStatus buffer = .ok result) :
    parseHeader buffer = .ok (.status, result.ctrl) ∧ result.status = word32At buffer 68 := by
  unfold parseStatus at parsed
  split at parsed
  · cases parsed
  split at parsed
  · cases parsed
  rename_i type ctrl header
  split at parsed
  · cases parsed
  rename_i kind
  cases parsed
  exact ⟨by rw [header, not_not.mp kind], rfl⟩

/-- A parser that succeeds has seen a header of its own kind. -/
theorem Reads.header (reads : Reads buffer reading) : parseHeader buffer = .ok (reading.type, reading.ctrl) := by
  cases reading with
  | login params => exact (parseLogin_ok reads).2.1
  | loginResponse result => exact (parseLoginResponse_ok reads).1
  | logout ctrl => exact reads
  | status result => exact (parseStatus_ok reads).1

theorem Reads.unique (reads : Reads buffer reading) (reads' : Reads buffer other) : reading = other := by
  have same := reads.header.symm.trans reads'.header
  injection same with same
  have kind : reading.type = other.type := (Prod.mk.inj same).1
  cases reading <;> cases other <;> try cases kind
  all_goals
    have equal := Except.ok.inj (reads.symm.trans reads')
  · rw [equal]
  · rw [equal]
  · rw [(Prod.mk.inj equal).2]
  · rw [equal]

theorem TbipMessage.not_short (message : TbipMessage) (rest : List UInt8) :
    ¬(message.bytes ++ rest).length < message.size := by
  rw [List.length_append, message.length_bytes]
  omega

theorem parseLogin_bytes (params : LoginParams) (rest : List UInt8) :
    parseLogin ((TbipMessage.login params).bytes ++ rest) = .ok { params with ctrl := params.ctrl.received } := by
  have long : ¬((TbipMessage.login params).bytes ++ rest).length < loginSize := TbipMessage.not_short _ rest
  have version : word32At ((TbipMessage.login params).bytes ++ rest) 68 = loginProtoVersion :=
    word32At_field 8 (TbipMessage.body_here _ 0 0 rfl) rfl
  have path : word32At ((TbipMessage.login params).bytes ++ rest) 72 = params.transmitPath :=
    word32At_field 9 (TbipMessage.body_here _ 1 4 rfl) rfl
  rw [parseLogin, if_neg long, TbipMessage.parseHeader_bytes]
  simp only [version, path]
  rfl

theorem parseLoginResponse_bytes (params : LoginResponseParams) (rest : List UInt8) :
    parseLoginResponse ((TbipMessage.loginResponse params).bytes ++ rest) =
      .ok {
        ctrl := params.ctrl.received
        status := params.status
        receiverMac := params.receiverMac
        receiverMacLen := 6 } := by
  have long : ¬((TbipMessage.loginResponse params).bytes ++ rest).length < loginResponseSize :=
    TbipMessage.not_short _ rest
  have status : word32At ((TbipMessage.loginResponse params).bytes ++ rest) 68 = params.status :=
    word32At_field 8 (TbipMessage.body_here _ 0 0 rfl) rfl
  have mac : vectorAt ((TbipMessage.loginResponse params).bytes ++ rest) 72 6 = params.receiverMac :=
    vectorAt_field 9 rest (TbipMessage.body_here _ 1 4 rfl) rfl
  have length : word32At ((TbipMessage.loginResponse params).bytes ++ rest) 80 = 6 := by
    apply word32At_field 11 (TbipMessage.body_here _ 3 12 ?here) rfl
    case here => simp [TbipMessage.bodyFields, bytes32]
  have whole : (Vector.ofFn fun i : Fin 6 =>
      if i.val < (6 : UInt32).toNat then byteAt ((TbipMessage.loginResponse params).bytes ++ rest) (72 + i)
      else 0) = params.receiverMac := by
    rw [← mac]
    apply Vector.ext
    intro i inside
    rw [vectorAt, Vector.getElem_ofFn, Vector.getElem_ofFn]
    exact if_pos inside
  rw [parseLoginResponse, if_neg long, TbipMessage.parseHeader_bytes]
  simp only [status, length, whole]
  rfl

theorem parseStatus_bytes (params : StatusParams) (rest : List UInt8) :
    parseStatus ((TbipMessage.status params).bytes ++ rest) = .ok { params with ctrl := params.ctrl.received } := by
  have long : ¬((TbipMessage.status params).bytes ++ rest).length < statusSize := TbipMessage.not_short _ rest
  have status : word32At ((TbipMessage.status params).bytes ++ rest) 68 = params.status :=
    word32At_field 8 (TbipMessage.body_here _ 0 0 rfl) rfl
  rw [parseStatus, if_neg long, TbipMessage.parseHeader_bytes]
  simp only [status]
  rfl

theorem reads_received (message : TbipMessage) (rest : List UInt8) :
    Reads (message.bytes ++ rest) message.received := by
  cases message with
  | login params => exact parseLogin_bytes params rest
  | loginResponse params => exact parseLoginResponse_bytes params rest
  | logout ctrl => exact TbipMessage.parseHeader_bytes _ rest
  | status params => exact parseStatus_bytes params rest

theorem reads_bytes_iff (message : TbipMessage) (rest : List UInt8) :
    Reads (message.bytes ++ rest) reading ↔ reading = message.received := by
  constructor
  · intro reads
    exact reads.unique (reads_received message rest)
  · rintro rfl
    exact reads_received message rest

/-! ## What is accepted could have been sent -/

theorem parseHeader_ok {type : TbipType} {ctrl : TbipControl} (parsed : parseHeader buffer = .ok (type, ctrl)) :
    ctrl = getControl buffer := by
  unfold parseHeader at parsed
  split at parsed
  · cases parsed
  split at parsed
  · cases parsed
  split at parsed
  · cases parsed
  · cases parsed
    rfl

/-- A control block that was read loses nothing when it is sent on. -/
theorem received_getControl (buffer : List UInt8) : (getControl buffer).received = getControl buffer := by
  have route (word : UInt64) : word &&& routeMask &&& routeMask = word &&& routeMask := by
    rw [UInt64.and_assoc, UInt64.and_self]
  have sequence (word : UInt32) :
      ((word &&& snMask) >>> 27).toUInt8 &&& (3 : UInt8) = ((word &&& snMask) >>> 27).toUInt8 := by
    have two (n : Nat) : n &&& 3 = n % 4 := Nat.and_two_pow_sub_one_eq_mod n 2
    apply UInt8.toNat_inj.mp
    simp only [snMask, UInt8.toNat_and, UInt32.toNat_toUInt8, UInt32.toNat_shiftRight, UInt32.toNat_and,
      UInt32.reduceToNat, UInt8.reduceToNat, Nat.reduceMod]
    rw [Nat.shiftRight_and_distrib]
    simp only [Nat.reduceShiftRight, two]
    omega
  simp only [TbipControl.received, getControl, route, sequence]

def TbipReading.Whole : TbipReading → Prop
  | .loginResponse result => result.receiverMacLen = 6
  | _ => True

theorem Reads.sent (reads : Reads buffer reading) (whole : reading.Whole) :
    ∃ message : TbipMessage, message.received = reading := by
  have own : reading.ctrl.received = reading.ctrl := by
    rw [parseHeader_ok reads.header, received_getControl]
  cases reading with
  | login params =>
      refine ⟨.login params, ?_⟩
      rw [TbipMessage.received, show params.ctrl.received = params.ctrl from own]
  | loginResponse result =>
      refine ⟨.loginResponse { ctrl := result.ctrl, status := result.status, receiverMac := result.receiverMac }, ?_⟩
      obtain ⟨ctrl, status, receiverMac, receiverMacLen⟩ := result
      obtain rfl : receiverMacLen = 6 := whole
      rw [TbipMessage.received, show ctrl.received = ctrl from own]
  | logout ctrl =>
      refine ⟨.logout ctrl, ?_⟩
      rw [TbipMessage.received, show ctrl.received = ctrl from own]
  | status result =>
      refine ⟨.status result, ?_⟩
      rw [TbipMessage.received, show result.ctrl.received = result.ctrl from own]

/-- A message that is built reads as itself whatever follows it, but for the two bits of the route and the
sequence number that do not fit, and no parser takes it for another one. A message that is accepted is one that
could have been built. -/
theorem tbip_round_trip :
    (∀ (message : TbipMessage) (buffer : List UInt8),
      (buffer.length < message.size ∧ message.build buffer = .error .eNoSpc) ∨
        ∃ out, message.build buffer = .ok (message.size, out) ∧ out.length = buffer.length ∧
          out.drop message.size = buffer.drop message.size ∧
          ∀ rest reading, Reads (out.take message.size ++ rest) reading ↔ reading = message.received) ∧
      ∀ buffer reading, Reads buffer reading → reading.Whole → ∃ message : TbipMessage, message.received = reading := by
  constructor
  · intro message buffer
    rw [build_eq]
    by_cases short : buffer.length < message.size
    · exact .inl ⟨short, if_pos short⟩
    · right
      refine ⟨_, if_neg short, ?_, ?_, ?_⟩
      · rw [List.length_append, message.length_bytes, List.length_drop]
        omega
      · exact List.drop_left' message.length_bytes
      · intro rest reading
        rw [List.take_left' message.length_bytes]
        exact reads_bytes_iff message rest
  · intro buffer reading reads whole
    exact reads.sent whole

end Reading

end ThunderboltVerbs.Tbnet
