import ThunderboltVerbs.Receive.Handlers
import ThunderboltVerbs.Verbs.Complete

/-!
# READ responses at the requester
-/

namespace ThunderboltVerbs.Verbs
open Proto Receive

/-! ## Addresses of a region -/

/-- What `tbv_umem_copy_to` returns for a length that is not 0. -/
def Mr.copyError (mr : Mr) (addr length : Nat) : Option Errno :=
  if mr.dmaMr then some .eOpNotSupp
  else if 2 ^ 64 ≤ addr + length then some .eInval
  else if 2 ^ 64 ≤ mr.start + mr.length then some .eInval
  else if addr < mr.start ∨ mr.start + mr.length < addr + length then some .eFault
  else none

def Mr.iovaToAddr (mr : Mr) (iova length : Nat) : Except Errno Nat :=
  if mr.dmaMr then .error .eOpNotSupp
  else if 2 ^ 64 ≤ iova + length then .error .eInval
  else if 2 ^ 64 ≤ mr.virtAddr + mr.length then .error .eInval
  else if iova < mr.virtAddr ∨ mr.virtAddr + mr.length < iova + length then .error .eFault
  else if 2 ^ 64 ≤ mr.start + (iova - mr.virtAddr) then .error .eInval
  else .ok (mr.start + (iova - mr.virtAddr))

/-! ## A response at the requester -/

structure SegmentCopy where
  mr : Mr
  addr : Nat
  data : List UInt8
  deriving DecidableEq, Repr

/-- The loop of `tbv_copy_to_read_segments` behind `skipped` bytes of earlier segments: the copies it
made, also before it failed. -/
def copyToSegments (offset : Nat) : Nat → List Segment → List UInt8 → List SegmentCopy × Option Errno
  | _, [], _ => ([], some .eFault)
  | skipped, seg :: rest, payload =>
      if skipped + seg.length ≤ offset then copyToSegments offset (skipped + seg.length) rest payload
      else
        let segOff := offset - skipped
        let chunk := min (seg.length - segOff) payload.length
        let addr := (seg.addr + segOff) % 2 ^ 64
        match seg.mr.copyError addr chunk with
        | some error => ([], some error)
        | none =>
            let copy : SegmentCopy := { mr := seg.mr, addr, data := payload.take chunk }
            if chunk = payload.length then ([copy], none)
            else
              let (copies, error) :=
                copyToSegments offset (skipped + seg.length) rest (payload.drop chunk)
              (copy :: copies, error)

namespace ReadCtx

def copyToReadSegments (read : ReadCtx) (offset : Nat) (payload : List UInt8) :
    List SegmentCopy × Option Errno :=
  if payload = [] then ([], none) else copyToSegments offset 0 read.segs payload

def storeFrag (read : ReadCtx) (offset : Nat) (payload : List UInt8) (alloc : Bool) :
    ReadCtx × Option Errno :=
  match read.respFrags.find? fun frag => frag.1 = offset with
  | some (_, data) => (read, if data = payload then none else some .eIo)
  | none =>
      let bytes := read.respBufferedBytes + payload.length
      if u32Max < bytes ∨ read.totalLen < bytes then (read, some .eNoSpc)
      else if !alloc then (read, some .eNoMem)
      else
        ({ read with
            respFrags := read.respFrags.takeWhile (fun frag => frag.1 ≤ offset) ++
              (offset, payload) :: read.respFrags.dropWhile fun frag => frag.1 ≤ offset
            respBufferedBytes := bytes }, none)

/-- `tbv_read_resp_drain_frags_locked`; every turn but the last takes a fragment off the list. -/
def drainFrags : Nat → ReadCtx → ReadCtx × List SegmentCopy × Option Errno
  | 0, read => (read, [], none)
  | turns + 1, read =>
      match read.respFrags.find? fun frag => frag.1 = read.received with
      | none => (read, [], none)
      | some (offset, data) =>
          match read.copyToReadSegments offset data with
          | (copies, some error) => (read, copies, some error)
          | (copies, none) =>
              let (read, more, error) := drainFrags turns
                { read with
                  received := offset + data.length
                  respBufferedBytes := read.respBufferedBytes - data.length
                  respFrags := read.respFrags.eraseP fun frag => frag.1 = offset }
              (read, copies ++ more, error)

def takeResponse (read : ReadCtx) (offset : Nat) (payload : List UInt8) :
    ReadCtx × List SegmentCopy × Option Errno :=
  match read.copyToReadSegments offset payload with
  | (copies, some error) => (read, copies, some error)
  | (copies, none) =>
      let (read, more, error) :=
        drainFrags (read.respFrags.length + 1) { read with received := offset + payload.length }
      (read, copies ++ more, error)

def responseError (read : ReadCtx) (header : DataHeader) : Option Errno :=
  if header.rkey ≠ 0 then some .eIo
  else if header.remoteAddr ≠ 0 ∨ header.immData ≠ read.totalLen ∨
      u32Max < header.fragOffset + header.length ∨ read.totalLen < header.fragOffset + header.length ∨
      knownFlags header = false then some .eInval
  else
    match rxFragmentShape read.totalLen header with
    | .error _ => some .eInval
    | .ok _ => none

end ReadCtx

structure ReadAnswer where
  ack : Option ReadAckStatus := none
  copies : List SegmentCopy := []
  completed : List (Nat × ReadCtx) := []
  deriving DecidableEq, Repr

namespace Qp

def completeRead (qp : Qp) (addr : Nat) (copies : List SegmentCopy) (error : Option Errno) :
    Qp × ReadAnswer :=
  let (qp, completed) := qp.completeReadOrdered addr error
  (qp, { ack := some (if error = none then .ok else .error), copies, completed })

def handleRdmaReadResp (qp : Qp) (header : DataHeader) (payload : List UInt8) (alloc : Bool) :
    Qp × ReadAnswer :=
  match qp.pendingReads.find? fun entry => entry.2.psn = header.psn with
  | none => (qp, { ack := some .ok })
  | some (addr, read) =>
      let own := fun entry : ReadEntry => entry.1 = addr
      let offset := header.fragOffset
      match read.responseError header with
      | some error => qp.completeRead addr [] (some error)
      | none =>
          if offset < read.received then (qp, {})
          else if offset ≠ read.received then
            match read.storeFrag offset payload alloc with
            | (_, some .eIo) => qp.completeRead addr [] (some .eIo)
            | (read, _) => (qp.updateRead own fun _ => read, { ack := some .retry })
          else
            match read.takeResponse offset payload with
            | (read, copies, some error) =>
                (qp.updateRead own fun _ => read).completeRead addr copies (some error)
            | (read, copies, none) =>
                let qp := qp.updateRead own fun _ => read
                if read.received ≠ read.totalLen then (qp, { copies })
                else qp.completeRead addr copies none

end Qp

end ThunderboltVerbs.Verbs
