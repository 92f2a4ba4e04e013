import ThunderboltVerbs.Receive.Deliver
import ThunderboltVerbs.Verbs.Reap

/-!
# The handlers of incoming fragments, and the receive timeout
-/

namespace ThunderboltVerbs.Receive
open Proto Verbs

def rxFragmentShapeMax (totalLen maxPayload : Nat) (header : DataHeader) : Except Errno (Nat × Nat) :=
  fragmentShape totalLen maxPayload dataMaxFrags header.fragOffset header.length header.isLast

def rxFragmentShape (totalLen : Nat) (header : DataHeader) : Except Errno (Nat × Nat) :=
  rxFragmentShapeMax totalLen dataMaxPayload header

def rxWriteFragmentShape (totalLen : Nat) (header : DataHeader) : Except Errno (Nat × Nat) :=
  match rxFragmentShape totalLen header with
  | .ok shape => .ok shape
  | .error _ => rxFragmentShapeMax totalLen dataFrameSize header

def knownFlags (header : DataHeader) : Bool := header.flags &&& ~~~(flagLast ||| flagSolicited) = 0

/-! ## Buffering -/

/-- The fields that every fragment of a message repeats. A SEND has no remote address and no key. -/
def ReorderMsg.sameMessage (msg fresh : ReorderMsg) : Bool :=
  msg.kind = fresh.kind && msg.srcQp = fresh.srcQp && msg.totalLen = fresh.totalLen &&
    msg.withImm = fresh.withImm && msg.immData = fresh.immData && msg.remoteAddr = fresh.remoteAddr &&
    msg.rkey = fresh.rkey && msg.fragCount = fresh.fragCount

def ReorderMsg.fragmentMatches (msg : ReorderMsg) (offset : Nat) (payload : List UInt8) : Bool :=
  payload = [] || (msg.frags.find? fun frag => frag.offset = offset).any fun frag => frag.data = payload

def ReorderMsg.addFragment (msg : ReorderMsg) (idx offset : Nat) (payload : List UInt8) : ReorderMsg :=
  { msg with
    frags := if payload = [] then msg.frags else msg.frags ++ [{ offset, data := payload }]
    bufferedBytes := msg.bufferedBytes + payload.length
    fragSeen := idx :: msg.fragSeen
    fragsReceived := msg.fragsReceived + 1
    received := msg.received + payload.length
    complete := msg.complete || msg.fragsReceived + 1 = msg.fragCount }

namespace RxQp

def dropReorder (q : RxQp) (msg : ReorderMsg) : RxQp := q.reorderUnlink msg

def bufferStore (q : RxQp) (env : RxEnv) (frame : Frame) (msg : ReorderMsg) (idx : Nat) : RxQp :=
  let len := frame.header.length
  if len ≠ 0 ∧ (q.rxReorderBytes + len > reorderMaxBytes ∨ env.fragAlloc = false) then
    (q.dropReorder msg).sendErrorAck frame.header msg.psn
  else
    let stored := msg.addFragment idx frame.header.fragOffset frame.payload
    let q := { q.reorderReplace stored with rxReorderBytes := q.rxReorderBytes + len }
    if stored.complete then q.drain env else q

/-- The common body of `tbv_rx_buffer_fragment_locked` and `tbv_rx_buffer_write_fragment_locked`:
`fresh` is the message that a first fragment makes. -/
def bufferMessage (q : RxQp) (env : RxEnv) (frame : Frame) (shape : Except Errno (Nat × Nat))
    (fresh : ReorderMsg) : RxQp :=
  let header := frame.header
  if q.isDuplicate fresh.psn then q.reackDuplicate header.srcQp header.destQp fresh.psn
  else if psnDelta fresh.psn q.rxExpectedPsn ≥ reorderMaxMessages then q.sendErrorAck header fresh.psn
  else
    match shape with
    | .error _ => q.sendErrorAck header fresh.psn
    | .ok (idx, count) =>
        let fresh := { fresh with fragCount := count }
        match q.reorderFind fresh.psn with
        | none =>
            if q.rxReorderCount ≥ reorderMaxMessages then q.sendErrorAck header fresh.psn
            else if !env.msgAlloc then q.sendErrorAck header fresh.psn
            else (q.reorderLink fresh).bufferStore env frame fresh idx
        | some msg =>
            if !msg.sameMessage fresh then (q.dropReorder msg).sendErrorAck header fresh.psn
            else if msg.fragSeen.contains idx then
              if !msg.fragmentMatches header.fragOffset frame.payload then
                (q.dropReorder msg).sendErrorAck header fresh.psn
              else if msg.complete then q.drain env
              else q
            else q.bufferStore env frame msg idx

def bufferFragment (q : RxQp) (env : RxEnv) (frame : Frame) : RxQp :=
  let header := frame.header
  let withImm := header.opcode = .sendImm
  q.bufferMessage env frame (rxFragmentShape header.immData header)
    { kind := .send, firstJiffies := env.now, srcQp := header.srcQp, psn := header.psn % psnMod
      totalLen := header.immData, withImm := withImm, immData := if withImm then header.rkey else 0 }

/-- Its callers buffer no WRITE with immediate data. -/
def bufferWriteFragment (q : RxQp) (env : RxEnv) (frame : Frame) (totalLen : Nat) (withImm : Bool) :
    RxQp :=
  let header := frame.header
  q.bufferMessage env frame (rxWriteFragmentShape totalLen header)
    { kind := .write, firstJiffies := env.now, srcQp := header.srcQp, psn := header.psn % psnMod
      totalLen := totalLen, remoteAddr := header.remoteAddr, rkey := header.rkey, withImm := withImm
      immData := if withImm then header.immData else 0 }

def bufferReadReq (q : RxQp) (env : RxEnv) (header : DataHeader) : RxQp :=
  let psn := header.psn % psnMod
  if q.isDuplicate psn then q.note (.readRetry psn)
  else if psnDelta psn q.rxExpectedPsn ≥ reorderMaxMessages then q.sendReadStatus header psn .eInval
  else
    let fresh : ReorderMsg :=
      { kind := .readReq, firstJiffies := env.now, srcQp := header.srcQp, psn := psn
        totalLen := header.immData, remoteAddr := header.remoteAddr, rkey := header.rkey
        complete := true, fragCount := 1, fragsReceived := 1 }
    match q.reorderFind psn with
    | none =>
        if q.rxReorderCount ≥ reorderMaxMessages then q.sendReadStatus header psn .eInval
        else if !env.msgAlloc then q.sendReadStatus header psn .eNoMem
        else q.reorderLink fresh
    | some msg =>
        if msg.kind ≠ .readReq ∨ msg.srcQp ≠ header.srcQp ∨ msg.remoteAddr ≠ header.remoteAddr ∨
            msg.totalLen ≠ header.immData ∨ msg.rkey ≠ header.rkey then
          (q.dropReorder msg).sendReadStatus header psn .eInval
        else if msg.complete then q.drain env
        else q

/-! ## SEND -/

def finishSend (q : RxQp) (msg : RxMessage) : RxQp :=
  { q with rxMsg := none }.conclude msg.psn msg.srcQp msg.status
    (some (recvWc msg.wqe msg.status msg.delivered msg.srcQp
      (if msg.withImm then some msg.immData else none)))

def failActiveSend (q : RxQp) (status : WcStatus) : RxQp :=
  match q.rxMsg with
  | none => q
  | some msg => q.finishSend { msg with status }

end RxQp

def sendHeaderOk (header : DataHeader) : Bool :=
  let fragEnd := header.fragOffset + header.length
  header.remoteAddr = 0 && fragEnd ≤ header.immData && header.immData ≤ dataMaxMsgSize &&
    (header.isLast || header.length ≠ 0) && knownFlags header &&
    (header.opcode = .sendImm || header.rkey = 0) && header.isLast = decide (fragEnd = header.immData)

def RxMessage.sameSend (msg : RxMessage) (header : DataHeader) : Bool :=
  msg.srcQp = header.srcQp && msg.psn = header.psn % psnMod && msg.totalLen = header.immData &&
    msg.withImm = decide (header.opcode = .sendImm) &&
    msg.immData = if header.opcode = .sendImm then header.rkey else 0

def RxMessage.start (header : DataHeader) (wqe : RecvWqe) (now fragCount : Nat) : RxMessage :=
  { wqe, startedJiffies := now, srcQp := header.srcQp, psn := header.psn % psnMod
    totalLen := header.immData, withImm := header.opcode = .sendImm
    immData := if header.opcode = .sendImm then header.rkey else 0
    status := if header.immData > wqe.length then .locLenErr else .success
    fragCount := fragCount }

namespace RxQp

def copySend (q : RxQp) (env : RxEnv) (msg : RxMessage) (offset : Nat) (payload : List UInt8) :
    RxQp × RxMessage :=
  match q.copyToWqe env msg.wqe offset payload msg.delivered with
  | (q, none) => (q, { msg with status := .locProtErr, received := msg.received + payload.length })
  | (q, some delivered) => (q, { msg with delivered, received := msg.received + payload.length })

/-- The fragment of a striped message is recorded; the last one to come finishes the message. -/
def recordStriped (q : RxQp) (env : RxEnv) (msg : RxMessage) (idx : Nat) (frame : Frame) : RxQp :=
  let (q, msg) :=
    if msg.fragSeen.contains idx then (q, msg)
    else
      let (q, copied) := q.copySend env msg frame.header.fragOffset frame.payload
      (q, { copied with fragSeen := idx :: copied.fragSeen
                        fragsReceived := copied.fragsReceived + 1 })
  if msg.fragsReceived = msg.fragCount then (q.finishSend msg).drain env
  else { q with rxMsg := some msg }

def handleStripedSend (q : RxQp) (env : RxEnv) (frame : Frame) : RxQp :=
  let header := frame.header
  let psn := header.psn % psnMod
  match rxFragmentShape header.immData header with
  | .error _ => q.sendErrorAck header psn
  | .ok (idx, count) =>
      let delta := psnDelta psn q.rxExpectedPsn
      if delta < 0 then q.reackDuplicate header.srcQp header.destQp psn
      else if delta > 0 ∨ (q.rxMsg = none ∧ (q.reorderFind psn).isSome) then q.bufferFragment env frame
      else
        match q.rxMsg with
        | some msg =>
            if !(msg.sameSend header && msg.fragCount = count) then
              (q.failActiveSend .locProtErr).sendErrorAck header psn
            else q.recordStriped env msg idx frame
        | none =>
            match q.popRecv with
            | none => q.refuseRnr header
            | some (wqe, q) => q.recordStriped env (.start header wqe env.now count) idx frame

def recordPlain (q : RxQp) (env : RxEnv) (msg : RxMessage) (offset : Nat) (payload : List UInt8)
    (last : Bool) : RxQp :=
  let (q, msg) := q.copySend env msg offset payload
  if last then (q.finishSend msg).drain env else { q with rxMsg := some msg }

def handlePlainSend (q : RxQp) (env : RxEnv) (frame : Frame) : RxQp :=
  let header := frame.header
  let psn := header.psn % psnMod
  let offset := header.fragOffset
  match q.rxMsg with
  | some msg =>
      if msg.sameSend header && msg.received = offset then
        q.recordPlain env msg offset frame.payload header.isLast
      else if q.isDuplicate psn then q.reackDuplicate header.srcQp header.destQp psn
      else if psnDelta psn q.rxExpectedPsn > 0 then q.bufferFragment env frame
      else if msg.sameSend header && offset < msg.received then
        let duplicate := msg.received - offset
        if duplicate ≥ header.length then q
        else q.recordPlain env msg msg.received (frame.payload.drop duplicate) header.isLast
      else if msg.sameSend header && offset > msg.received then q
      else (q.failActiveSend .locProtErr).sendErrorAck header psn
  | none =>
      if (q.reorderFind psn).isSome ∨ psn ≠ q.rxExpectedPsn then q.bufferFragment env frame
      else if offset ≠ 0 then q.sendErrorAck header psn
      else
        match q.popRecv with
        | none => q.refuseRnr header
        | some (wqe, q) =>
            q.recordPlain env (.start header wqe env.now 0) offset frame.payload header.isLast

def handleSendFragment (q : RxQp) (env : RxEnv) (frame : Frame) : RxQp :=
  let header := frame.header
  let psn := header.psn % psnMod
  if !sendHeaderOk header then q.sendErrorAck header psn
  else if q.rnrSuppresses header then q
  else
    let q := q.clearRnr header.srcQp psn
    if q.striping then q.handleStripedSend env frame else q.handlePlainSend env frame

/-! ## WRITE -/

/-- `tbv_rx_finish_write_locked`. The acknowledgement goes out after the drain. -/
def finishWrite (q : RxQp) (env : RxEnv) (write : RxWrite) (status : WcStatus) : RxQp :=
  let wc :=
    if write.withImm then some (writeImmWc write.immWqe status write.srcQp write.immData) else none
  let (q, pushed) := { q with rxWrite := none }.cqPushOption write.psn wc
  if write.psn ≠ q.rxExpectedPsn then q.sendAck write.srcQp q.qpNum write.psn .error
  else
    ((q.consumePsn write.psn (ackStatus status pushed)).drain env).sendAck write.srcQp q.qpNum write.psn
      (ackStatus status pushed)

def failActiveWrite (q : RxQp) (env : RxEnv) (status : WcStatus) : RxQp :=
  match q.rxWrite with
  | none => q
  | some write => q.finishWrite env write status

end RxQp

def writeHeaderOk (header : DataHeader) : Bool :=
  let fragEnd := header.fragOffset + header.length
  knownFlags header && fragEnd ≤ dataMaxMsgSize &&
    (header.opcode = .rdmaWriteImm || (header.immData ≠ 0 && header.immData ≤ dataMaxMsgSize &&
      fragEnd ≤ header.immData && header.isLast = decide (fragEnd = header.immData))) &&
    (header.isLast || header.length ≠ 0)

def RxWrite.sameWrite (write : RxWrite) (header : DataHeader) : Bool :=
  write.srcQp = header.srcQp && write.psn = header.psn % psnMod &&
    write.withImm = decide (header.opcode = .rdmaWriteImm) && write.rkey = header.rkey &&
    write.immData = header.immData && write.remoteAddr = header.remoteAddr

def RxWrite.start (header : DataHeader) (immWqe : RecvWqe) (now : Nat) : RxWrite :=
  { immWqe, startedJiffies := now, srcQp := header.srcQp, psn := header.psn % psnMod
    remoteAddr := header.remoteAddr, rkey := header.rkey, immData := header.immData
    withImm := header.opcode = .rdmaWriteImm }

namespace RxQp

def recordWrite (q : RxQp) (env : RxEnv) (write : RxWrite) (offset : Nat) (payload : List UInt8)
    (last : Bool) : RxQp :=
  if payload = [] then
    if last then q.finishWrite env write .success else { q with rxWrite := some write }
  else
    match q.copyToRemote env write.rkey write.remoteAddr offset payload with
    | none => q.finishWrite env write .locProtErr
    | some q =>
        let write := { write with received := offset + payload.length }
        if last then q.finishWrite env write .success else { q with rxWrite := some write }

/-- A fragment that cannot be taken now is buffered, or ignored if it carries immediate data. -/
def deferWrite (q : RxQp) (env : RxEnv) (frame : Frame) : RxQp :=
  if frame.header.opcode = .rdmaWriteImm then q
  else q.bufferWriteFragment env frame frame.header.immData false

def handleActiveWrite (q : RxQp) (env : RxEnv) (frame : Frame) (write : RxWrite) : RxQp :=
  let header := frame.header
  let offset := header.fragOffset
  if !write.sameWrite header then
    if psnDelta (header.psn % psnMod) q.rxExpectedPsn > 0 then q.deferWrite env frame
    else q.failActiveWrite env .locProtErr
  else if offset < write.received then
    let duplicate := write.received - offset
    if duplicate ≥ header.length then q
    else q.recordWrite env write write.received (frame.payload.drop duplicate) header.isLast
  else if offset > write.received then q.deferWrite env frame
  else q.recordWrite env write offset frame.payload header.isLast

def handleIdleWrite (q : RxQp) (env : RxEnv) (frame : Frame) : RxQp :=
  let header := frame.header
  let psn := header.psn % psnMod
  let offset := header.fragOffset
  let withImm := header.opcode = .rdmaWriteImm
  if psn ≠ q.rxExpectedPsn then q.deferWrite env frame
  else if ¬withImm ∧ (q.reorderFind psn).isSome then q.deferWrite env frame
  else if offset ≠ 0 then
    if withImm then q.sendErrorAck header header.psn else q.deferWrite env frame
  else
    match if withImm then q.popRecv else some ({}, q) with
    | none => q.refuseRnr header
    | some (wqe, q) => q.recordWrite env (.start header wqe env.now) offset frame.payload header.isLast

def handleRdmaWriteFragment (q : RxQp) (env : RxEnv) (frame : Frame) : RxQp :=
  let header := frame.header
  let psn := header.psn % psnMod
  if !(writeHeaderOk header && q.remoteWrite) then q.sendErrorAck header header.psn
  else if q.rnrSuppresses header then q
  else
    let q := q.clearRnr header.srcQp psn
    if q.isDuplicate psn then q.reackDuplicate header.srcQp header.destQp psn
    else
      match q.rxWrite with
      | some write => q.handleActiveWrite env frame write
      | none => q.handleIdleWrite env frame

/-! ## READ -/

def handleRdmaReadReq (q : RxQp) (env : RxEnv) (header : DataHeader) : RxQp :=
  let psn := header.psn % psnMod
  let delta := psnDelta psn q.rxExpectedPsn
  if header.length ≠ 0 ∨ header.flags ≠ flagLast then q.sendReadStatus header header.psn .eInval
  else if delta ≠ 0 ∨ q.idle = false ∨ (q.reorderFind psn).isSome then q.bufferReadReq env header
  else ((q.skipPsn psn .ok).drain env).queueReadWork env header

/-! ## Dispatch, timeout and error -/

def handleFrame (q : RxQp) (env : RxEnv) (frame : Frame) : RxQp :=
  match frame.header.opcode with
  | .send | .sendImm => q.handleSendFragment env frame
  | .rdmaWrite | .rdmaWriteImm => q.handleRdmaWriteFragment env frame
  | .rdmaReadReq => q.handleRdmaReadReq env frame.header
  | _ => q

/-- One turn of the loop of `tbv_qp_timeout_reap_rx`, on an expired message. -/
def reapMsg (q : RxQp) (env : RxEnv) (msg : ReorderMsg) : RxQp :=
  let answer :=
    if msg.kind = .readReq then Effect.readStatus msg.srcQp q.qpNum msg.psn msg.totalLen .eTimedOut
    else .ack msg.srcQp q.qpNum msg.psn .error
  if msg.psn = q.rxExpectedPsn then
    (((q.dropReorder msg).skipPsn msg.psn .error).note answer).drain env
  else (q.dropReorder msg).note answer

def reapLoop (env : RxEnv) (timeout : Nat) : Nat → RxQp → RxQp
  | 0, q => q
  | turns + 1, q =>
      match q.rxReorder.find? fun msg => entryExpired msg.firstJiffies env.now timeout with
      | none => q
      | some msg => reapLoop env timeout turns (q.reapMsg env msg)

/-- The critical section of `tbv_qp_timeout_reap_rx`. -/
def timeoutReapRx (q : RxQp) (env : RxEnv) (timeout : Nat) : RxQp :=
  let q :=
    if q.rxMsg.any fun msg => entryExpired msg.startedJiffies env.now timeout then
      q.failActiveSend .generalErr
    else q
  let q :=
    if q.rxWrite.any fun write => entryExpired write.startedJiffies env.now timeout then
      q.failActiveWrite env .generalErr
    else q
  reapLoop env timeout q.rxReorder.length q

/-- The part of `tbv_qp_flush_error` under `rx_lock`. -/
def flushRx (q : RxQp) (env : RxEnv) : RxQp :=
  let q := (q.failActiveSend .wrFlushErr).failActiveWrite env .wrFlushErr
  { q with rxReorder := [], rxReorderCount := 0, rxReorderBytes := 0 }

end RxQp

end ThunderboltVerbs.Receive
