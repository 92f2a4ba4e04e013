import ThunderboltVerbs.Proto.Wire

/-!
# What the codecs accept and how they round-trip
-/

namespace ThunderboltVerbs.Proto
open Lib

/-! ## Data headers -/

theorem buildHeader_ok {buffer : List UInt8} {header : WireHeader} {written : Nat}
    {out : List UInt8} (built : buildHeader buffer header = .ok (written, out)) :
    dataHdrSize ≤ buffer.length ∧ header.opcodeOk = true ∧ header.lengthOk = true ∧
      written = dataHdrSize ∧
      out = (dataFields header).flatten ++ buffer.drop dataHdrSize := by
  unfold buildHeader at built
  split at built
  · cases built
  split at built
  · cases built
  split at built
  · cases built
  rename_i long opcode length
  obtain ⟨rfl, rfl⟩ := Prod.mk.inj (Except.ok.inj built)
  exact ⟨by omega, by simpa using opcode, by simpa using length, rfl,
    putDataHeader_fields buffer header⟩

theorem buildHeader_eq {buffer : List UInt8} {header : WireHeader}
    (long : dataHdrSize ≤ buffer.length) (opcode : header.opcodeOk = true)
    (length : header.lengthOk = true) :
    buildHeader buffer header =
      .ok (dataHdrSize, (dataFields header).flatten ++ buffer.drop dataHdrSize) := by
  rw [buildHeader, if_neg (by omega), if_neg (by simp [opcode]), if_neg (by simp [length]),
    putDataHeader_fields]

theorem parseHeader_ok_iff {buffer : List UInt8} {header : WireHeader} :
    parseHeader buffer = .ok header ↔
      dataHdrSize ≤ buffer.length ∧ word32At buffer 0 = dataMagic ∧
        word16At buffer 4 = dataVersion ∧ word16At buffer 6 = dataHdrSize.toUInt16 ∧
        (getDataHeader buffer).opcodeOk = true ∧ (getDataHeader buffer).lengthOk = true ∧
        header = getDataHeader buffer := by
  unfold parseHeader
  constructor
  · intro parsed
    split at parsed
    · cases parsed
    split at parsed
    · cases parsed
    split at parsed
    · cases parsed
    simp only at parsed
    split at parsed
    · cases parsed
    split at parsed
    · cases parsed
    rename_i long magic rest opcode length
    exact ⟨by omega, by simpa using magic, by simpa using (not_or.mp rest).1,
      by simpa using (not_or.mp rest).2, by simpa using opcode, by simpa using length,
      (Except.ok.inj parsed).symm⟩
  · rintro ⟨long, magic, version, size, opcode, length, rfl⟩
    rw [if_neg (by omega), if_neg (by simp [magic]), if_neg (by simp [version, size])]
    simp [opcode, length]

theorem length_dataFields (header : WireHeader) :
    (dataFields header).flatten.length = dataHdrSize := rfl

theorem parseHeader_fields {header : WireHeader} (rest : List UInt8)
    (opcode : header.opcodeOk = true) (length : header.lengthOk = true) :
    parseHeader ((dataFields header).flatten ++ rest) = .ok header := by
  apply parseHeader_ok_iff.mpr
  rw [getDataHeader_fields]
  refine ⟨?_, ?_, ?_, ?_, opcode, length, rfl⟩
  · rw [List.length_append, length_dataFields]
    exact Nat.le_add_right _ _
  · exact word32At_field 0 rfl rfl
  · exact word16At_field 1 rfl rfl
  · exact word16At_field 2 rfl rfl

def reservedBytes (buffer : List UInt8) : List UInt8 := slice buffer 10 2

theorem dataFields_parsed {buffer : List UInt8} {header : WireHeader}
    (parsed : parseHeader buffer = .ok header) (reserved : reservedBytes buffer = [0, 0]) :
    (dataFields header).flatten = buffer.take dataHdrSize := by
  obtain ⟨long, magic, version, size, -, -, rfl⟩ := parseHeader_ok_iff.mp parsed
  have bound : 48 ≤ buffer.length := long
  have fields : dataFields (getDataHeader buffer) =
      slices buffer 0 [4, 2, 2, 1, 1, 2, 4, 4, 4, 4, 4, 4, 4, 4, 4] := by
    simp only [dataFields, getDataHeader, slices, ← magic, ← version, ← size, word64At, word64_low,
      word64_high, Nat.zero_add, Nat.reduceAdd]
    rw [show List.replicate 2 (0 : UInt8) = slice buffer 10 2 from reserved.symm]
    simp (disch := omega) only [bytes32_word32At, bytes16_word16At, bytes8_byteAt]
  rw [fields, flatten_slices]
  rfl

/-! ## HELLO messages -/

theorem length_helloMsgFields (hello : WireHello) (op flags : UInt16) (seq : UInt32)
    (route : UInt64) (xdomainSequence : UInt8) :
    (helloMsgFields hello op flags seq route xdomainSequence).flatten.length = wireHelloMsgSize :=
  rfl

theorem putHello_fields (buffer : List UInt8) (hello : WireHello) (op flags : UInt16)
    (seq : UInt32) (route : UInt64) (xdomainSequence : UInt8) :
    putHello (putWireHeader (putXdomainHeader
      (patch buffer 0 (List.replicate wireHelloMsgSize 0)) 0 route xdomainSequence op.toUInt32
        wireHelloMsgSize.toUInt16) wireXdomainHdrSize op wireHelloMsgSize.toUInt16 flags seq)
      (wireXdomainHdrSize + wireHdrSize) hello =
      (helloMsgFields hello op flags seq route xdomainSequence).flatten ++
        buffer.drop wireHelloMsgSize := by
  have outer := filled_putXdomainHeader 56 route xdomainSequence op.toUInt32
    wireHelloMsgSize.toUInt16 (filled_zeros buffer 88)
  have inner := filled_putWireHeader 40 op wireHelloMsgSize.toUInt16 flags seq outer
  exact (filled_putHello 0 hello inner).content

theorem buildHello_ok {buffer out : List UInt8} {hello : WireHello} {op flags : UInt16}
    {seq : UInt32} {route : UInt64} {xdomainSequence : UInt8} {written : Nat}
    (built : buildHello buffer hello op flags seq route xdomainSequence = .ok (written, out)) :
    isWireOp op = true ∧ wireHelloMsgSize ≤ buffer.length ∧ written = wireHelloMsgSize ∧
      out = (helloMsgFields hello op flags seq route xdomainSequence).flatten ++
        buffer.drop wireHelloMsgSize := by
  unfold buildHello at built
  split at built
  · cases built
  split at built
  · cases built
  rename_i known long
  obtain ⟨rfl, rfl⟩ := Prod.mk.inj (Except.ok.inj built)
  exact ⟨by simpa using known, by omega, rfl, putHello_fields ..⟩

theorem buildHello_eq {buffer : List UInt8} {op : UInt16} (hello : WireHello) (flags : UInt16)
    (seq : UInt32) (route : UInt64) (xdomainSequence : UInt8) (known : isWireOp op = true)
    (long : wireHelloMsgSize ≤ buffer.length) :
    buildHello buffer hello op flags seq route xdomainSequence =
      .ok (wireHelloMsgSize, (helloMsgFields hello op flags seq route xdomainSequence).flatten ++
        buffer.drop wireHelloMsgSize) := by
  rw [buildHello, if_neg (by simp [known]), if_neg (by omega)]
  exact congrArg (fun out => Except.ok (wireHelloMsgSize, out))
    (putHello_fields buffer hello op flags seq route xdomainSequence)

structure HelloFraming where
  dwordCount : UInt32
  uuid : List UInt8
  outerOp : UInt32
  magic : UInt32
  version : UInt16
  innerOp : UInt16
  length : UInt16
  deriving DecidableEq

def helloFraming (buffer : List UInt8) : HelloFraming where
  dwordCount := word32At buffer 8 &&& 0x3f
  uuid := slice buffer 12 16
  outerOp := word32At buffer 28
  magic := word32At buffer 32
  version := word16At buffer 36
  innerOp := word16At buffer 38
  length := word16At buffer 40

def framingOf (op : UInt16) : HelloFraming where
  dwordCount := 19
  uuid := wireUuid
  outerOp := op.toUInt32
  magic := wireMagic
  version := wireVersion
  innerOp := op
  length := wireHelloMsgSize.toUInt16

def helloInfo (buffer : List UInt8) : WireInfo where
  op := word16At buffer 38
  flags := word16At buffer 42
  xdomainSequence := ((word32At buffer 8 >>> 27) &&& 0x3).toUInt8
  seq := word32At buffer 44
  route := word64 (word32At buffer 4) (word32At buffer 0) &&& 0x7fffffffffffffff

theorem isWireOp32_toUInt32 (op : UInt16) : isWireOp32 op.toUInt32 = isWireOp op := by
  simp only [isWireOp32, isWireOp, wireOpHello, wireOpHelloAck, wireOpReady, wireOpReadyAck]
  rw [Bool.eq_iff_iff]
  simp only [Bool.or_eq_true, beq_iff_eq, UInt16.toUInt32_inj]

theorem parseHello_ok_iff {buffer : List UInt8} {hello : WireHello} {info : WireInfo} :
    parseHello buffer = .ok (hello, info) ↔
      wireHelloMsgSize ≤ buffer.length ∧
        (∃ op, isWireOp op = true ∧ helloFraming buffer = framingOf op) ∧
        hello = getHello buffer 48 ∧ info = helloInfo buffer := by
  have route : (word32At buffer 0).toUInt64 <<< 32 ||| (word32At buffer 4).toUInt64 =
      word64 (word32At buffer 4) (word32At buffer 0) := UInt64.or_comm ..
  have top : ~~~((1 : UInt64) <<< 63) = 0x7fffffffffffffff := by decide
  unfold parseHello
  simp only [route, top]
  constructor
  · intro parsed
    split at parsed
    · cases parsed
    split at parsed
    · cases parsed
    split at parsed
    · cases parsed
    split at parsed
    · cases parsed
    split at parsed
    · cases parsed
    split at parsed
    · cases parsed
    split at parsed
    · cases parsed
    split at parsed
    · cases parsed
    split at parsed
    · cases parsed
    rename_i long count uuid outer magic version inner same length
    obtain ⟨rfl, rfl⟩ := Prod.mk.inj (Except.ok.inj parsed)
    have known : isWireOp (word16At buffer (wireXdomainHdrSize + 6)) = true := by
      simpa using inner
    refine ⟨by omega, ⟨word16At buffer 38, known, ?_⟩, rfl, rfl⟩
    have sized : word16At buffer 40 = wireHelloMsgSize.toUInt16 :=
      UInt16.toNat_inj.mp (not_not.mp (not_or.mp length).1)
    simp only [helloFraming, framingOf, HelloFraming.mk.injEq]
    exact ⟨not_not.mp count, not_not.mp uuid, (not_not.mp same).symm, not_not.mp magic,
      not_not.mp version, trivial, sized⟩
  · rintro ⟨long, ⟨op, known, framing⟩, rfl, rfl⟩
    simp only [helloFraming, framingOf, HelloFraming.mk.injEq] at framing
    obtain ⟨count, uuid, outer, magic, version, inner, length⟩ := framing
    have outerKnown : isWireOp32 (word32At buffer 28) = true := by
      rw [outer, isWireOp32_toUInt32, known]
    have innerKnown : isWireOp (word16At buffer (wireXdomainHdrSize + 6)) = true := by
      rw [show word16At buffer (wireXdomainHdrSize + 6) = op from inner, known]
    have same : (word16At buffer 38).toUInt32 = word32At buffer 28 := by
      rw [inner, outer]
    have sized : (word16At buffer (wireXdomainHdrSize + 8)).toNat = wireHelloMsgSize :=
      congrArg UInt16.toNat length
    refine (if_neg (by omega)).trans ?_
    refine (if_neg (not_not_intro count)).trans ?_
    refine (if_neg (not_not_intro uuid)).trans ?_
    refine (if_neg (by simp [outerKnown])).trans ?_
    refine (if_neg (not_not_intro magic)).trans ?_
    refine (if_neg (not_not_intro version)).trans ?_
    refine (if_neg (by simp [innerKnown])).trans ?_
    refine (if_neg (not_not_intro same)).trans ?_
    refine (if_neg (by rw [sized]; omega)).trans ?_
    rfl

/-! ### The word that packs the dword count and the sequence number -/

theorem lengthSn_toNat (xdomainSequence : UInt8) :
    (lengthSn wireHelloMsgSize.toUInt16 xdomainSequence).toNat =
      19 + xdomainSequence.toNat % 4 * 2 ^ 27 := by
  have sequence : (xdomainSequence.toUInt32 &&& 0x3).toNat = xdomainSequence.toNat % 4 := by
    rw [UInt32.toNat_and, UInt8.toNat_toUInt32]
    exact Nat.and_two_pow_sub_one_eq_mod _ 2
  have fits : (xdomainSequence.toNat % 4) <<< 27 % 2 ^ 32 = (xdomainSequence.toNat % 4) <<< 27 := by
    rw [Nat.shiftLeft_eq]
    omega
  have dwords : ((wireHelloMsgSize.toUInt16.toUInt32 - 12) / 4 : UInt32).toNat = 19 := by decide
  simp only [lengthSn, UInt32.toNat_or, UInt32.toNat_shiftLeft, sequence, dwords,
    UInt32.reduceToNat]
  rw [show 27 % 32 = 27 from rfl, fits, or_shiftLeft (by decide)]

theorem lengthSn_count (xdomainSequence : UInt8) :
    lengthSn wireHelloMsgSize.toUInt16 xdomainSequence &&& 0x3f = 19 := by
  apply UInt32.toNat_inj.mp
  rw [UInt32.toNat_and, lengthSn_toNat]
  refine (Nat.and_two_pow_sub_one_eq_mod _ 6).trans ?_
  change _ = 19
  omega

theorem lengthSn_sequence (xdomainSequence : UInt8) :
    ((lengthSn wireHelloMsgSize.toUInt16 xdomainSequence >>> 27) &&& 0x3).toUInt8 =
      xdomainSequence % 4 := by
  apply UInt8.toNat_inj.mp
  rw [UInt32.toNat_toUInt8, UInt32.toNat_and, UInt32.toNat_shiftRight, lengthSn_toNat,
    UInt8.toNat_mod, Nat.shiftRight_eq_div_pow]
  have masked := Nat.and_two_pow_sub_one_eq_mod
    ((19 + xdomainSequence.toNat % 4 * 2 ^ 27) / 2 ^ 27) 2
  change (((19 + xdomainSequence.toNat % 4 * 2 ^ 27) / 2 ^ 27) &&& (2 ^ 2 - 1)) % 2 ^ 8 =
    xdomainSequence.toNat % 4
  rw [masked]
  omega

def reservedBits (buffer : List UInt8) : UInt32 := word32At buffer 8 &&& 0xe7ffffc0

theorem and_shifted_eq_zero {n mask : Nat} (shift width : Nat) (clear : n &&& mask = 0)
    (covers : mask >>> shift &&& (2 ^ width - 1) = 2 ^ width - 1) : n >>> shift % 2 ^ width = 0 := by
  have shifted : n >>> shift &&& mask >>> shift = 0 := by
    rw [← Nat.shiftRight_and_distrib, clear, Nat.zero_shiftRight]
  rw [← Nat.and_two_pow_sub_one_eq_mod, ← covers, ← Nat.and_assoc, shifted, Nat.zero_and]

theorem lengthSn_unpacked {word : UInt32} (count : word &&& 0x3f = 19)
    (reserved : word &&& 0xe7ffffc0 = 0) :
    lengthSn wireHelloMsgSize.toUInt16 ((word >>> 27) &&& 0x3).toUInt8 = word := by
  have bound := word.toNat_lt
  have low : word.toNat % 2 ^ 6 = 19 := by
    rw [← Nat.and_two_pow_sub_one_eq_mod]
    exact congrArg UInt32.toNat count
  have clear : word.toNat &&& 0xe7ffffc0 = 0 := congrArg UInt32.toNat reserved
  have middle := and_shifted_eq_zero 6 21 clear (by decide)
  have high := and_shifted_eq_zero 29 3 clear (by decide)
  have sequence : ((word >>> 27) &&& 0x3).toUInt8.toNat = word.toNat / 2 ^ 27 % 4 := by
    rw [UInt32.toNat_toUInt8, UInt32.toNat_and, UInt32.toNat_shiftRight, Nat.shiftRight_eq_div_pow]
    change (word.toNat / 2 ^ 27 &&& (2 ^ 2 - 1)) % 2 ^ 8 = word.toNat / 2 ^ 27 % 4
    rw [Nat.and_two_pow_sub_one_eq_mod]
    omega
  apply UInt32.toNat_inj.mp
  rw [lengthSn_toNat, sequence]
  rw [Nat.shiftRight_eq_div_pow] at middle high
  omega

/-! ### Built messages -/

section Built

variable (hello : WireHello) (op flags : UInt16) (seq : UInt32) (route : UInt64)
  (xdomainSequence : UInt8) (rest : List UInt8)

theorem getHello_fields :
    getHello ((helloMsgFields hello op flags seq route xdomainSequence).flatten ++ rest) 48 =
      hello := by
  cases hello with
  | mk capabilities railId helloRoute txHop rxHop transmitPath txRingSize rxRingSize pathFlags =>
    simp only [getHello, WireHello.mk.injEq]
    refine ⟨?_, ?_, ?_, ?_, ?_, ?_, ?_, ?_, ?_⟩
    · exact word32At_field 11 rfl rfl
    · exact word32At_field 12 rfl rfl
    · exact word64At_field 13 rfl rfl rfl
    · exact word32At_field 15 rfl rfl
    · exact word32At_field 16 rfl rfl
    · exact word32At_field 17 rfl rfl
    · exact word32At_field 18 rfl rfl
    · exact word32At_field 19 rfl rfl
    · exact word32At_field 20 rfl rfl

theorem helloFraming_fields :
    helloFraming ((helloMsgFields hello op flags seq route xdomainSequence).flatten ++ rest) =
      framingOf op := by
  have count : word32At
      ((helloMsgFields hello op flags seq route xdomainSequence).flatten ++ rest) 8 =
      lengthSn wireHelloMsgSize.toUInt16 xdomainSequence := word32At_field 2 rfl rfl
  obtain ⟨after, uuid⟩ : ∃ after,
      ((helloMsgFields hello op flags seq route xdomainSequence).flatten ++ rest).drop 12 =
        wireUuid ++ after := drop_field 3 rest rfl rfl
  simp only [helloFraming, framingOf, HelloFraming.mk.injEq]
  refine ⟨?_, ?_, ?_, ?_, ?_, ?_, ?_⟩
  · rw [count, lengthSn_count]
  · rw [slice, uuid]
    exact List.take_left' rfl
  · exact word32At_field 4 rfl rfl
  · exact word32At_field 5 rfl rfl
  · exact word16At_field 6 rfl rfl
  · exact word16At_field 7 rfl rfl
  · exact word16At_field 8 rfl rfl

theorem helloInfo_fields :
    helloInfo ((helloMsgFields hello op flags seq route xdomainSequence).flatten ++ rest) =
      { op := op, flags := flags, xdomainSequence := xdomainSequence % 4, seq := seq
        route := route &&& 0x7fffffffffffffff } := by
  have count : word32At
      ((helloMsgFields hello op flags seq route xdomainSequence).flatten ++ rest) 8 =
      lengthSn wireHelloMsgSize.toUInt16 xdomainSequence := word32At_field 2 rfl rfl
  have high : word32At
      ((helloMsgFields hello op flags seq route xdomainSequence).flatten ++ rest) 0 =
      (route >>> 32).toUInt32 := word32At_field 0 rfl rfl
  have low : word32At
      ((helloMsgFields hello op flags seq route xdomainSequence).flatten ++ rest) 4 =
      (route &&& 0xffffffff).toUInt32 := word32At_field 1 rfl rfl
  simp only [helloInfo, WireInfo.mk.injEq]
  refine ⟨?_, ?_, ?_, ?_, ?_⟩
  · exact word16At_field 7 rfl rfl
  · exact word16At_field 9 rfl rfl
  · rw [count, lengthSn_sequence]
  · exact word32At_field 10 rfl rfl
  · rw [low, high, word64_halves]

theorem parseHello_fields (known : isWireOp op = true) :
    parseHello ((helloMsgFields hello op flags seq route xdomainSequence).flatten ++ rest) =
      .ok (hello, { op := op, flags := flags, xdomainSequence := xdomainSequence % 4, seq := seq
                    route := route &&& 0x7fffffffffffffff }) := by
  apply parseHello_ok_iff.mpr
  refine ⟨?_, ⟨op, known, helloFraming_fields ..⟩, (getHello_fields ..).symm,
    (helloInfo_fields ..).symm⟩
  rw [List.length_append, length_helloMsgFields]
  exact Nat.le_add_right _ _

end Built

/-! ### Rebuilt messages -/

def routeTopBit (buffer : List UInt8) : UInt32 := word32At buffer 0 &&& 0x80000000

theorem route_kept {low high : UInt32} (clear : high &&& 0x80000000 = 0) :
    word64 low high &&& 0x7fffffffffffffff = word64 low high := by
  have lowBound := low.toNat_lt
  have highBound := high.toNat_lt
  have cleared : high.toNat &&& 0x80000000 = 0 := congrArg UInt32.toNat clear
  have top := and_shifted_eq_zero 31 1 cleared (by decide)
  rw [Nat.shiftRight_eq_div_pow] at top
  apply UInt64.toNat_inj.mp
  rw [UInt64.toNat_and, word64_toNat]
  refine (Nat.and_two_pow_sub_one_eq_mod _ 63).trans ?_
  omega

theorem helloMsgFields_parsed {buffer : List UInt8} {hello : WireHello} {info : WireInfo}
    (parsed : parseHello buffer = .ok (hello, info)) (reserved : reservedBits buffer = 0)
    (top : routeTopBit buffer = 0) :
    isWireOp info.op = true ∧
      (helloMsgFields hello info.op info.flags info.seq info.route info.xdomainSequence).flatten =
        buffer.take wireHelloMsgSize := by
  obtain ⟨long, ⟨op, known, framing⟩, rfl, rfl⟩ := parseHello_ok_iff.mp parsed
  simp only [helloFraming, framingOf, HelloFraming.mk.injEq] at framing
  obtain ⟨count, uuid, outer, magic, version, inner, length⟩ := framing
  have bound : 88 ≤ buffer.length := long
  have packed := lengthSn_unpacked count reserved
  rw [← length] at packed
  have fields : helloMsgFields (getHello buffer 48) (helloInfo buffer).op (helloInfo buffer).flags
      (helloInfo buffer).seq (helloInfo buffer).route (helloInfo buffer).xdomainSequence =
      slices buffer 0 [4, 4, 4, 16, 4, 4, 2, 2, 2, 2, 4, 4, 4, 4, 4, 4, 4, 4, 4, 4, 4] := by
    simp only [helloMsgFields, xdomainFields, wireHeaderFields, helloFields, getHello, helloInfo,
      slices, ← length, packed, route_kept top, inner, ← outer, ← magic, ← version, word64At,
      word64_low, word64_high, Nat.zero_add, Nat.reduceAdd, List.cons_append, List.nil_append]
    rw [← uuid, ← inner]
    simp (disch := omega) only [bytes32_word32At, bytes16_word16At]
  refine ⟨by rw [helloInfo, inner, known], ?_⟩
  rw [fields, flatten_slices]
  rfl

/-! ## The contract of the codecs -/

structure CodecContract : Prop where
  hello_parsed : ∀ buffer hello op flags seq route xdomainSequence written out,
    buildHello buffer hello op flags seq route xdomainSequence = .ok (written, out) →
    ∀ rest, parseHello (out.take written ++ rest) =
      .ok (hello, { op := op, flags := flags, xdomainSequence := xdomainSequence % 4, seq := seq
                    route := route &&& 0x7fffffffffffffff })
  data_parsed : ∀ buffer header written out, buildHeader buffer header = .ok (written, out) →
    ∀ rest, parseHeader (out.take written ++ rest) = .ok header
  hello_accepted : ∀ buffer, (∃ parsed, parseHello buffer = .ok parsed) ↔
    wireHelloMsgSize ≤ buffer.length ∧
      ∃ target hello op flags seq route xdomainSequence written out,
        buildHello target hello op flags seq route xdomainSequence = .ok (written, out) ∧
          helloFraming buffer = helloFraming out
  data_accepted : ∀ buffer, (∃ header, parseHeader buffer = .ok header) ↔
    dataHdrSize ≤ buffer.length ∧ word32At buffer 0 = dataMagic ∧
      word16At buffer 4 = dataVersion ∧ word16At buffer 6 = dataHdrSize.toUInt16 ∧
      byteAt buffer 8 ≠ 0 ∧ byteAt buffer 8 ≤ dataOpMax ∧
      (word32At buffer 24).toNat ≤
        if hasFlag (byteAt buffer 9) flagRawStream then dataMaxMsgSize else dataMaxPayload
  hello_rebuilt : ∀ buffer hello info, parseHello buffer = .ok (hello, info) →
    reservedBits buffer = 0 → routeTopBit buffer = 0 →
    ∀ target : List UInt8, wireHelloMsgSize ≤ target.length →
      ∃ out, buildHello target hello info.op info.flags info.seq info.route info.xdomainSequence =
        .ok (wireHelloMsgSize, out) ∧ out.take wireHelloMsgSize = buffer.take wireHelloMsgSize
  data_rebuilt : ∀ buffer header, parseHeader buffer = .ok header → reservedBytes buffer = [0, 0] →
    ∀ target : List UInt8, dataHdrSize ≤ target.length →
      ∃ out, buildHeader target header = .ok (dataHdrSize, out) ∧
        out.take dataHdrSize = buffer.take dataHdrSize

theorem codecs_meet_contract : CodecContract where
  hello_parsed buffer hello op flags seq route xdomainSequence written out built rest := by
    obtain ⟨known, -, rfl, rfl⟩ := buildHello_ok built
    rw [List.take_left' (length_helloMsgFields ..), parseHello_fields _ _ _ _ _ _ _ known]
  data_parsed buffer header written out built rest := by
    obtain ⟨-, opcode, length, rfl, rfl⟩ := buildHeader_ok built
    rw [List.take_left' (length_dataFields header), parseHeader_fields rest opcode length]
  hello_accepted buffer := by
    constructor
    · rintro ⟨⟨hello, info⟩, parsed⟩
      obtain ⟨long, ⟨op, known, framing⟩, -, -⟩ := parseHello_ok_iff.mp parsed
      have built := buildHello_eq hello info.flags info.seq info.route info.xdomainSequence known long
      refine ⟨long, buffer, hello, op, info.flags, info.seq, info.route, info.xdomainSequence, _, _,
        built, ?_⟩
      rw [framing, helloFraming_fields]
    · rintro ⟨long, target, hello, op, flags, seq, route, xdomainSequence, written, out, built, same⟩
      obtain ⟨known, -, -, rfl⟩ := buildHello_ok built
      rw [helloFraming_fields] at same
      exact ⟨_, parseHello_ok_iff.mpr ⟨long, ⟨op, known, same⟩, rfl, rfl⟩⟩
  data_accepted buffer := by
    constructor
    · rintro ⟨header, parsed⟩
      obtain ⟨long, magic, version, size, opcode, length, -⟩ := parseHeader_ok_iff.mp parsed
      simp only [WireHeader.opcodeOk, getDataHeader, Bool.and_eq_true, bne_iff_ne] at opcode
      exact ⟨long, magic, version, size, opcode.1, of_decide_eq_true opcode.2,
        of_decide_eq_true length⟩
    · rintro ⟨long, magic, version, size, nonzero, known, length⟩
      refine ⟨_, parseHeader_ok_iff.mpr ⟨long, magic, version, size, ?_, decide_eq_true length, rfl⟩⟩
      simp only [WireHeader.opcodeOk, getDataHeader, Bool.and_eq_true, bne_iff_ne]
      exact ⟨nonzero, decide_eq_true known⟩
  hello_rebuilt buffer hello info parsed reserved top target long := by
    obtain ⟨known, fields⟩ := helloMsgFields_parsed parsed reserved top
    refine ⟨_, buildHello_eq hello info.flags info.seq info.route info.xdomainSequence known long, ?_⟩
    rw [List.take_left' (length_helloMsgFields ..), fields]
  data_rebuilt buffer header parsed reserved target long := by
    obtain ⟨-, -, -, -, opcode, length, same⟩ := parseHeader_ok_iff.mp parsed
    have fields := dataFields_parsed parsed reserved
    refine ⟨_, buildHeader_eq long (same ▸ opcode) (same ▸ length), ?_⟩
    rw [List.take_left' (length_dataFields header), fields]

def immediateWriteHeader : WireHeader where
  opcode := 4
  flags := flagLast ||| flagSolicited
  destQp := 11
  srcQp := 12
  psn := 13
  length := 64
  immData := 0x58494f01
  remoteAddr := 0x8877665544332211
  rkey := 14
  fragOffset := 4096

theorem codecs_meet_contract_immediateWrite :
    ∃ out, buildHeader (List.replicate dataHdrSize 0) immediateWriteHeader = .ok (dataHdrSize, out) ∧
      parseHeader (out.take dataHdrSize) = .ok immediateWriteHeader := by
  have built : buildHeader (List.replicate dataHdrSize 0) immediateWriteHeader = _ :=
    buildHeader_eq (by decide) (by decide) (by decide)
  refine ⟨_, built, ?_⟩
  have parsed := codecs_meet_contract.data_parsed _ _ _ _ built []
  rwa [List.append_nil] at parsed

end ThunderboltVerbs.Proto
