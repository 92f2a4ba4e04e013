import ThunderboltVerbs.Lib.LittleEndian
import ThunderboltVerbs.Proto.NativeData

/-!
# The bytes of HELLO messages and data headers (`proto/native_wire.h`, `proto/native_data.h`)

A buffer is the list of its bytes and its size is the length of that list. Builders overwrite the
buffer field by field, at the offsets the source uses; parsers read at offsets of their own.
-/

namespace ThunderboltVerbs.Proto
open Lib

def putLe16 (buffer : List UInt8) (offset : Nat) (value : UInt16) : List UInt8 :=
  patch buffer offset (bytes16 value)

def putLe32 (buffer : List UInt8) (offset : Nat) (value : UInt32) : List UInt8 :=
  patch buffer offset (bytes32 value)

def putLe64 (buffer : List UInt8) (offset : Nat) (value : UInt64) : List UInt8 :=
  putLe32 (putLe32 buffer offset (value &&& 0xffffffff).toUInt32) (offset + 4)
    (value >>> 32).toUInt32

/-! ## HELLO -/

def wireMagic : UInt32 := 0x31564254
def wireVersion : UInt16 := 1
def wireXdomainHdrSize : Nat := 32
def wireHdrSize : Nat := 16
def wireHelloSize : Nat := 40
def wireHelloMsgSize : Nat := wireXdomainHdrSize + wireHdrSize + wireHelloSize

def wireUuid : List UInt8 :=
  [0x7c, 0x2c, 0x8f, 0x1e, 0x5b, 0x4d, 0x4a, 0x01, 0x9f, 0x3a, 0x2b, 0x8e, 0x6d, 0x4c, 0x1a, 0x07]

def wireOpHello : UInt16 := 1
def wireOpHelloAck : UInt16 := 2
def wireOpReady : UInt16 := 3
def wireOpReadyAck : UInt16 := 4

def isWireOp (op : UInt16) : Bool :=
  op == wireOpHello || op == wireOpHelloAck || op == wireOpReady || op == wireOpReadyAck

structure WireInfo where
  op : UInt16
  flags : UInt16
  xdomainSequence : UInt8
  seq : UInt32
  route : UInt64
  deriving DecidableEq, Repr

structure WireHello where
  capabilities : UInt32
  railId : UInt32
  route : UInt64
  txHop : UInt32
  rxHop : UInt32
  transmitPath : UInt32
  txRingSize : UInt32
  rxRingSize : UInt32
  pathFlags : UInt32
  deriving DecidableEq, Repr

/-- `tbv_native_wire_put_header`. -/
def putWireHeader (buffer : List UInt8) (p : Nat) (op length flags : UInt16) (seq : UInt32) :
    List UInt8 :=
  let buffer := putLe32 buffer p wireMagic
  let buffer := putLe16 buffer (p + 4) wireVersion
  let buffer := putLe16 buffer (p + 6) op
  let buffer := putLe16 buffer (p + 8) length
  let buffer := putLe16 buffer (p + 10) flags
  putLe32 buffer (p + 12) seq

/-- The word that carries the dword count and, from bit 27 on, the XDomain sequence number. -/
def lengthSn (size : UInt16) (sequence : UInt8) : UInt32 :=
  let dwords : UInt32 := (size.toUInt32 - 12) / 4
  dwords ||| (sequence.toUInt32 &&& 0x3) <<< 27

def putXdomainHeader (buffer : List UInt8) (p : Nat) (route : UInt64) (sequence : UInt8)
    (type : UInt32) (size : UInt16) : List UInt8 :=
  let buffer := putLe32 buffer p (route >>> 32).toUInt32
  let buffer := putLe32 buffer (p + 4) (route &&& 0xffffffff).toUInt32
  let buffer := putLe32 buffer (p + 8) (lengthSn size sequence)
  let buffer := patch buffer (p + 12) wireUuid
  putLe32 buffer (p + 28) type

def putHello (buffer : List UInt8) (p : Nat) (hello : WireHello) : List UInt8 :=
  let buffer := putLe32 buffer p hello.capabilities
  let buffer := putLe32 buffer (p + 4) hello.railId
  let buffer := putLe64 buffer (p + 8) hello.route
  let buffer := putLe32 buffer (p + 16) hello.txHop
  let buffer := putLe32 buffer (p + 20) hello.rxHop
  let buffer := putLe32 buffer (p + 24) hello.transmitPath
  let buffer := putLe32 buffer (p + 28) hello.txRingSize
  let buffer := putLe32 buffer (p + 32) hello.rxRingSize
  putLe32 buffer (p + 36) hello.pathFlags

/-- `tbv_native_wire_build_hello`: the number of bytes written and the buffer afterwards. -/
def buildHello (buffer : List UInt8) (hello : WireHello) (op flags : UInt16) (seq : UInt32)
    (route : UInt64) (xdomainSequence : UInt8) : Except Errno (Nat × List UInt8) :=
  if !isWireOp op then .error .eInval
  else if buffer.length < wireHelloMsgSize then .error .eNoSpc
  else
    let size := wireHelloMsgSize.toUInt16
    let buffer := patch buffer 0 (List.replicate wireHelloMsgSize 0)
    let buffer := putXdomainHeader buffer 0 route xdomainSequence op.toUInt32 size
    let p := wireXdomainHdrSize
    let buffer := putWireHeader buffer p op size flags seq
    let p := p + wireHdrSize
    .ok (wireHelloMsgSize, putHello buffer p hello)

def getHello (buffer : List UInt8) (p : Nat) : WireHello where
  capabilities := word32At buffer p
  railId := word32At buffer (p + 4)
  route := word64At buffer (p + 8)
  txHop := word32At buffer (p + 16)
  rxHop := word32At buffer (p + 20)
  transmitPath := word32At buffer (p + 24)
  txRingSize := word32At buffer (p + 28)
  rxRingSize := word32At buffer (p + 32)
  pathFlags := word32At buffer (p + 36)

def isWireOp32 (op : UInt32) : Bool :=
  op == wireOpHello.toUInt32 || op == wireOpHelloAck.toUInt32 || op == wireOpReady.toUInt32 ||
    op == wireOpReadyAck.toUInt32

def parseHello (buffer : List UInt8) : Except Errno (WireHello × WireInfo) :=
  if buffer.length < wireHelloMsgSize then .error .eInval
  else
    let lengthSn := word32At buffer 8
    if lengthSn &&& 0x3f ≠ (wireHelloMsgSize.toUInt32 - 12) / 4 then .error .eInval
    else if (buffer.drop 12).take wireUuid.length ≠ wireUuid then .error .eInval
    else if !isWireOp32 (word32At buffer 28) then .error .eInval
    else
      let p := wireXdomainHdrSize
      if word32At buffer p ≠ wireMagic then .error .eInval
      else if word16At buffer (p + 4) ≠ wireVersion then .error .eInval
      else
        let op := word16At buffer (p + 6)
        if !isWireOp op then .error .eInval
        else if op.toUInt32 ≠ word32At buffer 28 then .error .eInval
        else
          let length := word16At buffer (p + 8)
          if length.toNat ≠ wireHelloMsgSize ∨ buffer.length < length.toNat then .error .eInval
          else
            .ok (getHello buffer (p + wireHdrSize),
              { op := op
                flags := word16At buffer (p + 10)
                xdomainSequence := ((lengthSn >>> 27) &&& 0x3).toUInt8
                seq := word32At buffer (p + 12)
                route := ((word32At buffer 0).toUInt64 <<< 32 ||| (word32At buffer 4).toUInt64) &&&
                  ~~~((1 : UInt64) <<< 63) })

/-! ## Data headers -/

def dataMagic : UInt32 := 0x31445654
def dataVersion : UInt16 := 1
def dataOpMax : UInt8 := 11

/-- The header as it is on the wire; `DataHeader` is its meaning for the opcodes that exist. -/
structure WireHeader where
  opcode : UInt8
  flags : UInt8
  destQp : UInt32
  srcQp : UInt32
  psn : UInt32
  length : UInt32
  immData : UInt32
  remoteAddr : UInt64
  rkey : UInt32
  fragOffset : UInt32
  deriving DecidableEq, Repr

def WireHeader.opcodeOk (header : WireHeader) : Bool :=
  header.opcode != 0 && header.opcode ≤ dataOpMax

def WireHeader.lengthOk (header : WireHeader) : Bool :=
  header.length.toNat ≤ if hasFlag header.flags flagRawStream then dataMaxMsgSize else dataMaxPayload

def putDataHeader (buffer : List UInt8) (header : WireHeader) : List UInt8 :=
  let buffer := putLe32 buffer 0 dataMagic
  let buffer := putLe16 buffer 4 dataVersion
  let buffer := putLe16 buffer 6 dataHdrSize.toUInt16
  let buffer := patch buffer 8 [header.opcode]
  let buffer := patch buffer 9 [header.flags]
  let buffer := putLe32 buffer 12 header.destQp
  let buffer := putLe32 buffer 16 header.srcQp
  let buffer := putLe32 buffer 20 header.psn
  let buffer := putLe32 buffer 24 header.length
  let buffer := putLe32 buffer 28 header.immData
  let buffer := putLe64 buffer 32 header.remoteAddr
  let buffer := putLe32 buffer 40 header.rkey
  putLe32 buffer 44 header.fragOffset

/-- `tbv_native_data_build_header`: the number of bytes written and the buffer afterwards. -/
def buildHeader (buffer : List UInt8) (header : WireHeader) : Except Errno (Nat × List UInt8) :=
  if buffer.length < dataHdrSize then .error .eNoSpc
  else if !header.opcodeOk then .error .eInval
  else if !header.lengthOk then .error .eMsgSize
  else .ok (dataHdrSize, putDataHeader (patch buffer 0 (List.replicate dataHdrSize 0)) header)

def getDataHeader (buffer : List UInt8) : WireHeader where
  opcode := byteAt buffer 8
  flags := byteAt buffer 9
  destQp := word32At buffer 12
  srcQp := word32At buffer 16
  psn := word32At buffer 20
  length := word32At buffer 24
  immData := word32At buffer 28
  remoteAddr := word64At buffer 32
  rkey := word32At buffer 40
  fragOffset := word32At buffer 44

def parseHeader (buffer : List UInt8) : Except Errno WireHeader :=
  if buffer.length < dataHdrSize then .error .eInval
  else if word32At buffer 0 ≠ dataMagic then .error .eInval
  else if word16At buffer 4 ≠ dataVersion ∨ word16At buffer 6 ≠ dataHdrSize.toUInt16 then
    .error .eInval
  else
    let header := getDataHeader buffer
    if !header.opcodeOk then .error .eInval
    else if !header.lengthOk then .error .eMsgSize
    else .ok header

/-! ## The fields in their order on the wire -/

def dataFields (header : WireHeader) : List (List UInt8) :=
  [bytes32 dataMagic, bytes16 dataVersion, bytes16 dataHdrSize.toUInt16, [header.opcode],
    [header.flags], List.replicate 2 0, bytes32 header.destQp, bytes32 header.srcQp,
    bytes32 header.psn, bytes32 header.length, bytes32 header.immData,
    bytes32 (header.remoteAddr &&& 0xffffffff).toUInt32,
    bytes32 (header.remoteAddr >>> 32).toUInt32, bytes32 header.rkey, bytes32 header.fragOffset]

theorem putDataHeader_fields (buffer : List UInt8) (header : WireHeader) :
    putDataHeader (patch buffer 0 (List.replicate dataHdrSize 0)) header =
      (dataFields header).flatten ++ buffer.drop dataHdrSize := by
  have magic := (filled_zeros buffer dataHdrSize).patch 44 4 (bytes32 dataMagic) rfl
  have version := magic.patch 42 2 (bytes16 dataVersion) rfl
  have size := version.patch 40 2 (bytes16 dataHdrSize.toUInt16) rfl
  have opcode := size.patch 39 1 [header.opcode] rfl
  have flags := opcode.patch 38 1 [header.flags] rfl
  have reserved := flags.skip 36 2
  have destQp := reserved.patch 32 4 (bytes32 header.destQp) rfl
  have srcQp := destQp.patch 28 4 (bytes32 header.srcQp) rfl
  have psn := srcQp.patch 24 4 (bytes32 header.psn) rfl
  have length := psn.patch 20 4 (bytes32 header.length) rfl
  have immData := length.patch 16 4 (bytes32 header.immData) rfl
  have low := immData.patch 12 4 (bytes32 (header.remoteAddr &&& 0xffffffff).toUInt32) rfl
  have high := low.patch 8 4 (bytes32 (header.remoteAddr >>> 32).toUInt32) rfl
  have rkey := high.patch 4 4 (bytes32 header.rkey) rfl
  have fragOffset := rkey.patch 0 4 (bytes32 header.fragOffset) rfl
  exact fragOffset.content

theorem getDataHeader_fields (header : WireHeader) (rest : List UInt8) :
    getDataHeader ((dataFields header).flatten ++ rest) = header := by
  cases header with
  | mk opcode flags destQp srcQp psn length immData remoteAddr rkey fragOffset =>
    simp only [getDataHeader, WireHeader.mk.injEq]
    refine ⟨?_, ?_, ?_, ?_, ?_, ?_, ?_, ?_, ?_, ?_⟩
    · exact byteAt_field 3 rfl rfl
    · exact byteAt_field 4 rfl rfl
    · exact word32At_field 6 rfl rfl
    · exact word32At_field 7 rfl rfl
    · exact word32At_field 8 rfl rfl
    · exact word32At_field 9 rfl rfl
    · exact word32At_field 10 rfl rfl
    · exact word64At_field 11 rfl rfl rfl
    · exact word32At_field 13 rfl rfl
    · exact word32At_field 14 rfl rfl

def xdomainFields (route : UInt64) (sequence : UInt8) (type : UInt32) (size : UInt16) :
    List (List UInt8) :=
  [bytes32 (route >>> 32).toUInt32, bytes32 (route &&& 0xffffffff).toUInt32,
    bytes32 (lengthSn size sequence), wireUuid, bytes32 type]

def wireHeaderFields (op length flags : UInt16) (seq : UInt32) : List (List UInt8) :=
  [bytes32 wireMagic, bytes16 wireVersion, bytes16 op, bytes16 length, bytes16 flags, bytes32 seq]

def helloFields (hello : WireHello) : List (List UInt8) :=
  [bytes32 hello.capabilities, bytes32 hello.railId,
    bytes32 (hello.route &&& 0xffffffff).toUInt32, bytes32 (hello.route >>> 32).toUInt32,
    bytes32 hello.txHop, bytes32 hello.rxHop, bytes32 hello.transmitPath,
    bytes32 hello.txRingSize, bytes32 hello.rxRingSize, bytes32 hello.pathFlags]

def helloMsgFields (hello : WireHello) (op flags : UInt16) (seq : UInt32) (route : UInt64)
    (xdomainSequence : UInt8) : List (List UInt8) :=
  xdomainFields route xdomainSequence op.toUInt32 wireHelloMsgSize.toUInt16 ++
    wireHeaderFields op wireHelloMsgSize.toUInt16 flags seq ++ helloFields hello

section Filling

variable {fields : List (List UInt8)} {position : Nat} {rest buffer : List UInt8}

theorem filled_putXdomainHeader (room : Nat) (route : UInt64) (sequence : UInt8) (type : UInt32)
    (size : UInt16) (filled : Filled fields position (room + 32) rest buffer) :
    Filled (fields ++ xdomainFields route sequence type size) (position + 32) room rest
      (putXdomainHeader buffer position route sequence type size) := by
  have high := filled.patch (room + 28) 4 (bytes32 (route >>> 32).toUInt32) rfl
  have low := high.patch (room + 24) 4 (bytes32 (route &&& 0xffffffff).toUInt32) rfl
  have count := low.patch (room + 20) 4 (bytes32 (lengthSn size sequence)) rfl
  have uuid := count.patch (room + 4) 16 wireUuid rfl
  have last := uuid.patch room 4 (bytes32 type) rfl
  simp only [List.append_assoc] at last
  exact last

theorem filled_putWireHeader (room : Nat) (op length flags : UInt16) (seq : UInt32)
    (filled : Filled fields position (room + 16) rest buffer) :
    Filled (fields ++ wireHeaderFields op length flags seq) (position + 16) room rest
      (putWireHeader buffer position op length flags seq) := by
  have magic := filled.patch (room + 12) 4 (bytes32 wireMagic) rfl
  have version := magic.patch (room + 10) 2 (bytes16 wireVersion) rfl
  have inner := version.patch (room + 8) 2 (bytes16 op) rfl
  have sized := inner.patch (room + 6) 2 (bytes16 length) rfl
  have flagged := sized.patch (room + 4) 2 (bytes16 flags) rfl
  have last := flagged.patch room 4 (bytes32 seq) rfl
  simp only [List.append_assoc] at last
  exact last

theorem filled_putHello (room : Nat) (hello : WireHello)
    (filled : Filled fields position (room + 40) rest buffer) :
    Filled (fields ++ helloFields hello) (position + 40) room rest
      (putHello buffer position hello) := by
  have capabilities := filled.patch (room + 36) 4 (bytes32 hello.capabilities) rfl
  have railId := capabilities.patch (room + 32) 4 (bytes32 hello.railId) rfl
  have low := railId.patch (room + 28) 4 (bytes32 (hello.route &&& 0xffffffff).toUInt32) rfl
  have high := low.patch (room + 24) 4 (bytes32 (hello.route >>> 32).toUInt32) rfl
  have txHop := high.patch (room + 20) 4 (bytes32 hello.txHop) rfl
  have rxHop := txHop.patch (room + 16) 4 (bytes32 hello.rxHop) rfl
  have transmitPath := rxHop.patch (room + 12) 4 (bytes32 hello.transmitPath) rfl
  have txRingSize := transmitPath.patch (room + 8) 4 (bytes32 hello.txRingSize) rfl
  have rxRingSize := txRingSize.patch (room + 4) 4 (bytes32 hello.rxRingSize) rfl
  have last := rxRingSize.patch room 4 (bytes32 hello.pathFlags) rfl
  simp only [List.append_assoc] at last
  exact last

end Filling

end ThunderboltVerbs.Proto
