import ThunderboltVerbs.DataPath.Tx

/-!
# Credits and receive completions of a path (`kernel/path.c`)
-/

namespace ThunderboltVerbs.DataPath
open Proto

def withoutControlReserve (rxRingSize : Nat) : Nat :=
  if rxRingSize ≤ dataCreditControlReserve then rxRingSize / 2
  else rxRingSize - dataCreditControlReserve

def roundToBatch (credits : Nat) : Nat :=
  if credits > dataCreditBatch then credits - credits % dataCreditBatch else credits

def dataCreditWindow (rxRingSize : Nat) : Nat :=
  if rxRingSize = 0 then 0
  else
    let credits := roundToBatch (withoutControlReserve rxRingSize)
    if credits = 0 then 1 else credits

theorem dataCreditWindow_pos {rxRingSize : Nat} (positive : 0 < rxRingSize) :
    0 < dataCreditWindow rxRingSize := by
  simp only [dataCreditWindow]
  split
  · omega
  · split <;> omega

theorem dataCreditWindow_le (rxRingSize : Nat) : dataCreditWindow rxRingSize ≤ rxRingSize := by
  have reserved : withoutControlReserve rxRingSize ≤ rxRingSize := by
    unfold withoutControlReserve
    split <;> omega
  have rounded : roundToBatch (withoutControlReserve rxRingSize) ≤
      withoutControlReserve rxRingSize := by
    unfold roundToBatch
    split <;> omega
  simp only [dataCreditWindow]
  split
  · omega
  · split <;> omega

def consumesRxCredit : DataOp → Bool
  | .send | .sendImm | .rdmaWrite | .rdmaWriteImm | .rdmaReadReq | .rdmaReadResp | .mad => true
  | .sendAck | .recvCredit | .pathCredit | .rdmaReadAck => false

def validPathCredit (header : DataHeader) : Bool :=
  header.opcode = .pathCredit && header.immData ≠ 0 && header.flags = 0 && header.destQp = 0 &&
    header.srcQp = 0 && header.psn = 0 && header.length = 0 && header.remoteAddr = 0 &&
    header.rkey = 0

def saturatingAdd (pending credits : Nat) : Nat :=
  if credits > u32Max - pending then u32Max else pending + credits

namespace Path

def setRemoteRxCapacity (p : Path) (rxRingSize : Nat) : Path :=
  { p with
    txRemoteDataCreditMax := dataCreditWindow rxRingSize
    txRemoteDataCredits := dataCreditWindow rxRingSize
    rxDataCreditPending := 0 }

def addRemoteRxCredits (p : Path) (credits : Nat) : Path :=
  if credits = 0 ∨ p.txRemoteDataCreditMax = 0 then p
  else
    { p with
      txRemoteDataCredits :=
        if p.txRemoteDataCredits ≥ p.txRemoteDataCreditMax then p.txRemoteDataCreditMax
        else if credits > p.txRemoteDataCreditMax - p.txRemoteDataCredits then
          p.txRemoteDataCreditMax
        else p.txRemoteDataCredits + credits }

/-- The first critical section of `tbv_path_return_rx_data_credit`: the credits to send now. -/
def returnRxDataCredit (p : Path) (credits : Nat) : Path × Nat :=
  let threshold := creditReturnThreshold (dataCreditWindow p.cfg.rxRingSize)
  let pending := saturatingAdd p.rxDataCreditPending credits
  if pending ≥ threshold then ({ p with rxDataCreditPending := 0 }, pending)
  else ({ p with rxDataCreditPending := pending }, 0)

/-- Its second critical section, taken when the credit frame could not be queued. -/
def foldBackRxCredit (p : Path) (send : Nat) : Path :=
  { p with rxDataCreditPending := saturatingAdd p.rxDataCreditPending send }

def pathCreditFrame (credits : Nat) : WireFrame :=
  { len := dataHdrSize, header := some { opcode := .pathCredit, immData := credits } }

def sendRxCredit (p : Path) (credits : Nat) (alloc : Bool) : Except Errno Path :=
  p.enqueueControl (pathCreditFrame credits) none alloc

/-! ## Receive completion -/

def rxStartRaw (p : Path) (header : DataHeader) : Path :=
  { p with
    rxRaw := { pending := header.length ≠ 0, stream := header, done := 0, remaining := header.length } }

def rxDropRaw (p : Path) : Path :=
  { p with rxRaw := { p.rxRaw with pending := false, remaining := 0 } }

/-- `tbv_path_rx_raw_payload`: the new path and the native header handed to the verbs layer. -/
def rxRawPayload (p : Path) (len : Nat) : Path × Option DataHeader :=
  let raw := p.rxRaw
  if !raw.pending ∨ len = 0 ∨ len > raw.remaining then (p.rxDropRaw, none)
  else
    let stream := { raw.stream with length := (raw.done + raw.remaining) % 2 ^ 32, fragOffset := 0 }
    match rawPayloadHeader stream raw.done raw.remaining len with
    | .error _ => (p.rxDropRaw, none)
    | .ok header =>
        ({ p with
          rxRaw := { raw with
            pending := raw.pending && len ≠ raw.remaining
            done := (raw.done + len) % 2 ^ 32
            remaining := raw.remaining - len } }, some header)

structure RxOutcome where
  returnRxCredits : Nat := 0
  addRemoteCredits : Nat := 0
  delivered : Option DataHeader := none
  deriving DecidableEq, Repr

/-- `tbv_path_rx_complete` on a native path, up to the repost of the receive frame. -/
def rxComplete (p : Path) (frame : WireFrame) : Path × RxOutcome :=
  if frame.len > dataFrameSize then (p, {})
  else if p.rxRaw.pending then
    let result := p.rxRawPayload frame.len
    (result.1, { returnRxCredits := 1, delivered := result.2 })
  else
    match frame.header with
    | none => (p, {})
    | some header =>
        if header.opcode = .pathCredit then
          (p, { addRemoteCredits := if validPathCredit header then header.immData else 0 })
        else if header.isRawStream then
          if frame.len ≠ dataHdrSize ∨ header.length = 0 ∨
              header.flags &&& ~~~(flagLast ||| flagSolicited ||| flagRawStream) ≠ 0 then (p, {})
          else (p.rxStartRaw header, { returnRxCredits := 1 })
        else
          (p, { returnRxCredits := if consumesRxCredit header.opcode then 1 else 0
                delivered := some header })

end Path

end ThunderboltVerbs.DataPath
