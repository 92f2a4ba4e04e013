import ThunderboltVerbs.DataPath.Framing

/-!
# Sending a page stream (`kernel/path.c`)

`tbv_path_send_page_stream` asks its caller for one page after another and queues the header and all pages, or
nothing. The caller takes a reference for each page that it gives out; a callback returns it.
-/

namespace ThunderboltVerbs.DataPath
open Proto Lib

def kernelPageSize : Nat := 4096

/-- `TBV_PATH_SEND_DEFER` -/
def sendDefer : Nat := 2

/-- What the callback `next` stores when it returns 0. -/
structure PageChunk where
  page : Option Nat
  pageOff : Nat
  len : Nat
  done : Option Nat
  deriving DecidableEq, Repr

/-- How the calls that may fail turn out; those for a page by its number. -/
structure StreamAnswers where
  txRing : Bool
  dmaReady : Bool
  hdrBuffer : Bool
  hdrPacket : Bool
  mapsPage : Nat → Bool
  pagePacket : Nat → Bool

inductive StreamError
  | errno (error : Errno)
  | probeDefer
  deriving DecidableEq, Repr

/-- What a call of `tbv_path_send_page_stream` makes of the path and of its caller, and the callbacks that it
called. -/
structure PageSend (σ : Type) where
  result : Except StreamError Path
  caller : σ
  called : List (Nat × StreamError)

def maxRawPayload (op : DataOp) : Nat :=
  if op = .rdmaWrite ∨ op = .rdmaWriteImm then dataFrameSize else dataMaxPayload

def streamHeader (header : DataHeader) (totalLength : Nat) : DataHeader :=
  { header with length := totalLength, flags := header.flags ||| (flagLast ||| flagRawStream) }

def startPacket (header : DataHeader) (metaDone : Option Nat) : TxPacket where
  frame := { len := dataHdrSize, header := some header }
  done := metaDone
  ownerCtx := metaDone
  rawStreamStart := true

def pagePacket (read : PageChunk → Option DataHeader) (metaDone : Option Nat) (chunk : PageChunk) (last : Bool) :
    TxPacket where
  frame := { len := chunk.len, header := read chunk }
  done := chunk.done
  ownerCtx := if metaDone.isSome then metaDone else chunk.done
  zcopy := true
  rawStreamEnd := last

section Send

variable {σ : Type} (next : σ → Except Errno PageChunk × σ) (read : PageChunk → Option DataHeader)

def PageChunk.valid (chunk : PageChunk) (maxRaw left : Nat) : Bool :=
  chunk.page.isSome && chunk.len ≠ 0 && chunk.len ≤ maxRaw && chunk.len ≤ left && chunk.pageOff ≤ kernelPageSize &&
    chunk.len ≤ kernelPageSize - chunk.pageOff

/-- Why the loop stopped early: the error, and the callback that it called on the spot. -/
abbrev LoopFailure := Errno × Option Nat

/-- The loop over the pages, from `prepared` bytes on: the packets that it lists. -/
def pageLoop (answers : StreamAnswers) (metaDone : Option Nat) (maxRaw total : Nat) (prepared count : Nat) (s : σ) :
    List TxPacket × σ × Option LoopFailure :=
  if prepared < total then
    match next s with
    | (.error error, s) => ([], s, some (error, none))
    | (.ok chunk, s) =>
        if valid : chunk.valid maxRaw (total - prepared) then
          if !answers.mapsPage count then ([], s, some (.eIo, chunk.done))
          else if !answers.pagePacket count then ([], s, some (.eNoMem, chunk.done))
          else
            let packet := pagePacket read metaDone chunk (prepared + chunk.len = total)
            let rest := pageLoop answers metaDone maxRaw total (prepared + chunk.len) (count + 1) s
            (packet :: rest.1, rest.2)
        else ([], s, some (.eInval, chunk.done))
  else ([], s, none)
termination_by total - prepared
decreasing_by
  simp only [PageChunk.valid, Bool.and_eq_true, decide_eq_true_eq] at valid
  omega

/-- `tbv_path_release_packet_list`: the callbacks that it calls. -/
def releasePacketList (packets : List TxPacket) (status : StreamError) : List (Nat × StreamError) :=
  (packets.filterMap TxPacket.done).map fun ctx => (ctx, status)

def Path.sendPageStream (p : Path) (answers : StreamAnswers) (header : DataHeader) (total sendFlags : Nat)
    (metaDone : Option Nat) (s : σ) : PageSend σ :=
  let refuse (error : StreamError) : PageSend σ :=
    { result := .error error, caller := s, called := metaDone.toList.map fun ctx => (ctx, error) }
  let stream := streamHeader header total
  if total = 0 then refuse (.errno .eInval)
  else if sendFlags ≠ 0 ∧ sendFlags ≠ sendDefer then refuse (.errno .eInval)
  else if total > dataMaxMsgSize then refuse (.errno .eMsgSize)
  else if !answers.txRing then refuse (.errno .eNotConn)
  else if !answers.dmaReady then refuse .probeDefer
  else if !answers.hdrBuffer then refuse (.errno .eNoMem)
  else if !lengthAllowed stream then refuse (.errno .eMsgSize)
  else if !answers.hdrPacket then refuse (.errno .eNoMem)
  else
    let start := startPacket stream metaDone
    match pageLoop next read answers metaDone (maxRawPayload header.opcode) total 0 0 s with
    | (packets, s, some (error, done)) =>
        { result := .error (.errno error), caller := s
          called := done.toList.map (fun ctx => (ctx, .errno error)) ++
            releasePacketList (start :: packets) (.errno error) }
    | (packets, s, none) =>
        match p.enqueueDataList (start :: packets) (packets.length + 1) with
        | .error error =>
            { result := .error (.errno error), caller := s
              called := releasePacketList (start :: packets) (.errno error) }
        | .ok p => { result := .ok p, caller := s, called := [] }

/-! ## The loop -/

/-- `chunks` is what the calls of `next` gave out; a last call that failed gave nothing. -/
inductive Obtains : σ → List PageChunk → σ → Prop
  | done (s : σ) : Obtains s [] s
  | failed {s s' : σ} {error : Errno} (call : next s = (.error error, s')) : Obtains s [] s'
  | cons {s s' last : σ} {chunk : PageChunk} {chunks : List PageChunk} (call : next s = (.ok chunk, s'))
      (rest : Obtains s' chunks last) : Obtains s (chunk :: chunks) last

def pagePackets (metaDone : Option Nat) (total : Nat) : Nat → List PageChunk → List TxPacket
  | _, [] => []
  | prepared, chunk :: chunks =>
      pagePacket read metaDone chunk (prepared + chunk.len = total) ::
        pagePackets metaDone total (prepared + chunk.len) chunks

structure PageChunk.Fits (chunk : PageChunk) (maxRaw : Nat) : Prop where
  page : chunk.page.isSome = true
  positive : 0 < chunk.len
  short : chunk.len ≤ maxRaw
  inPage : chunk.pageOff + chunk.len ≤ kernelPageSize

/-- What the loop leaves: all pages of the message, or the callbacks of the pages that were given out, each in a
listed packet or called on the spot. -/
def LoopOutcome (metaDone : Option Nat) (maxRaw total prepared : Nat) (chunks : List PageChunk)
    (packets : List TxPacket) : Option LoopFailure → Prop
  | none =>
      packets = pagePackets read metaDone total prepared chunks ∧ prepared + (chunks.map PageChunk.len).sum = total ∧
        ∀ chunk ∈ chunks, chunk.Fits maxRaw
  | some (_, done) => chunks.filterMap PageChunk.done = packets.filterMap TxPacket.done ++ done.toList

theorem pageLoop_spec (answers : StreamAnswers) (metaDone : Option Nat) (maxRaw total prepared count : Nat) (s : σ)
    (bounded : prepared ≤ total) :
    ∃ chunks, Obtains next s chunks (pageLoop next read answers metaDone maxRaw total prepared count s).2.1 ∧
      LoopOutcome read metaDone maxRaw total prepared chunks
        (pageLoop next read answers metaDone maxRaw total prepared count s).1
        (pageLoop next read answers metaDone maxRaw total prepared count s).2.2 := by
  fun_induction pageLoop next read answers metaDone maxRaw total prepared count s with
  | case1 prepared count s unfinished error s' call => exact ⟨[], .failed call, rfl⟩
  | case2 prepared count s unfinished chunk s' call valid unmapped =>
      exact ⟨[chunk], .cons call (.done s'), by cases h : chunk.done <;> simp [LoopOutcome, h]⟩
  | case3 prepared count s unfinished chunk s' call valid mapped unallocated =>
      exact ⟨[chunk], .cons call (.done s'), by cases h : chunk.done <;> simp [LoopOutcome, h]⟩
  | case4 prepared count s unfinished chunk s' call valid mapped allocated packet rest ih =>
      simp only [PageChunk.valid, Bool.and_eq_true, decide_eq_true_eq, ne_eq] at valid
      obtain ⟨⟨⟨⟨⟨page, nonempty⟩, short⟩, fits⟩, begins⟩, ends⟩ := valid
      obtain ⟨chunks, obtained, outcome⟩ := ih (by omega)
      refine ⟨chunk :: chunks, .cons call obtained, ?_⟩
      generalize whole : pageLoop next read answers metaDone maxRaw total (prepared + chunk.len) (count + 1) s' = result
        at outcome obtained
      simp only [rest, whole]
      cases failure : result.2.2 with
      | none =>
          rw [failure] at outcome
          obtain ⟨packets, sum, fit⟩ := outcome
          refine ⟨by rw [packets]; rfl, by rw [List.map_cons, List.sum_cons, ← Nat.add_assoc]; exact sum, ?_⟩
          intro other member
          rcases List.mem_cons.mp member with rfl | member
          · exact ⟨page, by omega, short, by omega⟩
          · exact fit other member
      | some failed =>
          rw [failure] at outcome
          show (chunk :: chunks).filterMap PageChunk.done = (packet :: result.1).filterMap TxPacket.done ++ failed.2.toList
          have one : packet.done = chunk.done := rfl
          simp only [List.filterMap_cons, one]
          cases chunk.done with
          | none => exact outcome
          | some ctx => exact congrArg (ctx :: ·) outcome
  | case5 prepared count s unfinished chunk s' call invalid =>
      exact ⟨[chunk], .cons call (.done s'), by cases h : chunk.done <;> simp [LoopOutcome, h]⟩
  | case6 prepared count s finished =>
      exact ⟨[], .done s, rfl, by simp; omega, by simp⟩

/-- A caller that gives out a valid page as long as some are missing sees the loop through. -/
theorem pageLoop_succeeds (answers : StreamAnswers) (maps : ∀ count, answers.mapsPage count = true)
    (packets : ∀ count, answers.pagePacket count = true) (metaDone : Option Nat) (maxRaw total prepared count : Nat) (s : σ)
    (good : Nat → σ → Prop)
    (gives : ∀ prepared s, prepared < total → good prepared s →
      ∃ chunk s', next s = (.ok chunk, s') ∧ chunk.valid maxRaw (total - prepared) = true ∧ good (prepared + chunk.len) s')
    (starts : good prepared s) :
    (pageLoop next read answers metaDone maxRaw total prepared count s).2.2 = none := by
  fun_induction pageLoop next read answers metaDone maxRaw total prepared count s with
  | case1 prepared count s unfinished error s' call =>
      obtain ⟨chunk, other, given, -⟩ := gives prepared s unfinished starts
      rw [call] at given
      cases given
  | case2 prepared count s unfinished chunk s' call valid unmapped => simp [maps] at unmapped
  | case3 prepared count s unfinished chunk s' call valid mapped unallocated => simp [packets] at unallocated
  | case4 prepared count s unfinished chunk s' call valid mapped allocated packet rest ih =>
      obtain ⟨other, s'', given, -, later⟩ := gives prepared s unfinished starts
      rw [call] at given
      obtain ⟨rfl, rfl⟩ := Prod.mk.inj given |>.imp_left Except.ok.inj
      exact ih later
  | case5 prepared count s unfinished chunk s' call invalid =>
      obtain ⟨other, s'', given, valid, -⟩ := gives prepared s unfinished starts
      rw [call] at given
      obtain ⟨rfl, rfl⟩ := Prod.mk.inj given |>.imp_left Except.ok.inj
      exact absurd valid invalid
  | case6 prepared count s finished => rfl

theorem streamRest_pagePackets {metaDone : Option Nat} (owned : metaDone.isSome = true) {total prepared : Nat}
    {chunks : List PageChunk} (positive : ∀ chunk ∈ chunks, 0 < chunk.len) (nonempty : chunks ≠ [])
    (sum : prepared + (chunks.map PageChunk.len).sum = total) :
    streamRest metaDone (pagePackets read metaDone total prepared chunks) = true := by
  induction chunks generalizing prepared with
  | nil => exact absurd rfl nonempty
  | cons chunk chunks ih =>
      rw [List.map_cons, List.sum_cons] at sum
      have inside : (pagePacket read metaDone chunk (prepared + chunk.len = total)).inStream metaDone = true := by
        simp [TxPacket.inStream, pagePacket, owned]
      rw [pagePackets, streamRest, inside, Bool.true_and]
      by_cases last : prepared + chunk.len = total
      · have alone : chunks = [] := by
          cases chunks with
          | nil => rfl
          | cons other rest =>
              have more := positive other (List.mem_cons_of_mem _ List.mem_cons_self)
              rw [List.map_cons, List.sum_cons] at sum
              omega
        simp [pagePacket, last, alone, pagePackets]
      · have more : chunks ≠ [] := by
          rintro rfl
          simp at sum
          omega
        simp only [pagePacket, last, decide_false, Bool.false_eq_true, if_false]
        exact ih (fun other member => positive other (List.mem_cons_of_mem _ member)) more (by omega)

theorem done_pagePackets (metaDone : Option Nat) (total prepared : Nat) (chunks : List PageChunk) :
    (pagePackets read metaDone total prepared chunks).filterMap TxPacket.done = chunks.filterMap PageChunk.done := by
  induction chunks generalizing prepared with
  | nil => rfl
  | cons chunk chunks ih =>
      have one : (pagePacket read metaDone chunk (prepared + chunk.len = total)).done = chunk.done := rfl
      simp only [pagePackets, List.filterMap_cons, one, ih]

/-! ## All or nothing -/

/-- The stream of the pages `chunks` is queued in `p'`. -/
structure StreamQueued (p p' : Path) (header : DataHeader) (total : Nat) (metaDone : Option Nat)
    (chunks : List PageChunk) : Prop where
  queued : p' = p.spliceData
    (startPacket (streamHeader header total) metaDone :: pagePackets read metaDone total 0 chunks) (chunks.length + 1)
  room : p.txDataQueued + p.txDataReserved + (chunks.length + 1) ≤ p.txDataQueueLimit
  whole : (chunks.map PageChunk.len).sum = total
  bounded : 0 < total ∧ total ≤ dataMaxMsgSize
  fits : ∀ chunk ∈ chunks, chunk.Fits (maxRawPayload header.opcode)
  unit : metaDone.isSome = true →
    isUnit (startPacket (streamHeader header total) metaDone :: pagePackets read metaDone total 0 chunks) = true

theorem length_pagePackets (metaDone : Option Nat) (total prepared : Nat) (chunks : List PageChunk) :
    (pagePackets read metaDone total prepared chunks).length = chunks.length := by
  induction chunks generalizing prepared with
  | nil => rfl
  | cons chunk chunks ih => exact congrArg (· + 1) (ih (prepared + chunk.len))

theorem enqueueDataList_ok {p p' : Path} {packets : List TxPacket} {count : Nat} (positive : count ≠ 0)
    (queued : p.enqueueDataList packets count = .ok p') :
    p' = p.spliceData packets count ∧ p.txDataQueued + p.txDataReserved + count ≤ p.txDataQueueLimit := by
  unfold Path.enqueueDataList at queued
  rw [if_neg positive] at queued
  split at queued
  · cases queued
  split at queued
  · cases queued
  · rename_i room
    cases queued
    exact ⟨rfl, by omega⟩

def AllOrNothing (p : Path) (header : DataHeader) (total : Nat) (metaDone : Option Nat) (s : σ)
    (sent : PageSend σ) : Prop :=
  ∃ chunks, Obtains next s chunks sent.caller ∧
    match sent.result with
    | .ok p' => sent.called = [] ∧ StreamQueued read p p' header total metaDone chunks
    | .error error =>
        sent.called.Perm ((metaDone.toList ++ chunks.filterMap PageChunk.done).map fun ctx => (ctx, error))

theorem releasePacketList_pages (start : TxPacket) (packets : List TxPacket) (error : StreamError) :
    releasePacketList (start :: packets) error =
      (start.done.toList ++ packets.filterMap TxPacket.done).map fun ctx => (ctx, error) := by
  unfold releasePacketList
  cases done : start.done <;> simp [done]

/-- Either the whole stream is queued, with the bytes of its pages adding up to its length, and no callback was
called; or the path is as it was, and the callback of the stream and those of all pages that the caller gave out
were called, each once and with the error that is returned. -/
theorem page_stream_all_or_nothing (p : Path) (answers : StreamAnswers) (header : DataHeader) (total sendFlags : Nat)
    (metaDone : Option Nat) (s : σ) :
    AllOrNothing next read p header total metaDone s
      (p.sendPageStream next read answers header total sendFlags metaDone s) := by
  have refused : ∀ error, AllOrNothing next read p header total metaDone s
      { result := .error error, caller := s, called := metaDone.toList.map fun ctx => (ctx, error) } := by
    intro error
    exact ⟨[], .done s, by simp⟩
  unfold Path.sendPageStream
  extract_lets refuse stream start
  split
  · exact refused _
  rename_i positive
  split
  · exact refused _
  split
  · exact refused _
  rename_i short
  split
  · exact refused _
  split
  · exact refused _
  split
  · exact refused _
  split
  · exact refused _
  split
  · exact refused _
  obtain ⟨chunks, obtained, outcome⟩ :=
    pageLoop_spec next read answers metaDone (maxRawPayload header.opcode) total 0 0 s (Nat.zero_le _)
  generalize pageLoop next read answers metaDone (maxRawPayload header.opcode) total 0 0 s = looped at obtained outcome ⊢
  obtain ⟨packets, s', failure⟩ := looped
  cases failure with
  | some failed =>
      obtain ⟨error, done⟩ := failed
      refine ⟨chunks, obtained, ?_⟩
      have pages : chunks.filterMap PageChunk.done = packets.filterMap TxPacket.done ++ done.toList := outcome
      show (done.toList.map _ ++ releasePacketList (start :: packets) _).Perm _
      rw [releasePacketList_pages, pages, ← List.map_append]
      apply List.Perm.map
      show (done.toList ++ (metaDone.toList ++ _)).Perm (metaDone.toList ++ (_ ++ done.toList))
      rw [← List.append_assoc metaDone.toList]
      exact List.perm_append_comm
  | none =>
      obtain ⟨pages, sum, fits⟩ := outcome
      rw [Nat.zero_add] at sum
      simp only at pages obtained
      have nonempty : chunks ≠ [] := by
        rintro rfl
        simp at sum
        omega
      have long : packets.length = chunks.length := by
        rw [pages]
        exact length_pagePackets read metaDone total 0 chunks
      simp only
      cases queued : p.enqueueDataList (start :: packets) (packets.length + 1) with
      | error error =>
          refine ⟨chunks, obtained, ?_⟩
          show (releasePacketList (start :: packets) _).Perm _
          rw [releasePacketList_pages, pages, done_pagePackets]
          exact List.Perm.refl _
      | ok p' =>
          obtain ⟨same, room⟩ := enqueueDataList_ok (Nat.succ_ne_zero _) queued
          rw [long] at same room
          refine ⟨chunks, obtained, rfl, ?_⟩
          refine ⟨by rw [same, pages], room, sum, ⟨by omega, by omega⟩, fits, ?_⟩
          intro owned
          have rest := streamRest_pagePackets read owned (fun chunk member => (fits chunk member).positive) nonempty
            (show 0 + (chunks.map PageChunk.len).sum = total by omega)
          simp [isUnit, startPacket, owned, rest]

/-- No allocation and no mapping fails. -/
structure StreamAnswers.Grants (answers : StreamAnswers) : Prop where
  txRing : answers.txRing = true
  dmaReady : answers.dmaReady = true
  hdrBuffer : answers.hdrBuffer = true
  hdrPacket : answers.hdrPacket = true
  mapsPage : ∀ count, answers.mapsPage count = true
  pagePacket : ∀ count, answers.pagePacket count = true

theorem isRawStream_streamHeader (header : DataHeader) (total : Nat) : (streamHeader header total).isRawStream = true := by
  have kept : (header.flags ||| (flagLast ||| flagRawStream)) &&& flagRawStream ≠ 0 := by
    intro none
    have bit := congrArg (fun flags : UInt8 => flags.toBitVec.getLsbD 2) none
    simp [flagLast, flagRawStream] at bit
  simpa [DataHeader.isRawStream, hasFlag, streamHeader] using kept

theorem lengthAllowed_streamHeader (header : DataHeader) {total : Nat} (short : total ≤ dataMaxMsgSize) :
    lengthAllowed (streamHeader header total) = true := by
  simp only [lengthAllowed, isRawStream_streamHeader, if_true]
  exact decide_eq_true short

/-- When the caller can give out all pages, only the queue can still refuse the stream. -/
theorem sendPageStream_granted (p : Path) {answers : StreamAnswers} (grants : answers.Grants) (header : DataHeader)
    {total : Nat} (positive : total ≠ 0) (short : total ≤ dataMaxMsgSize) (metaDone : Option Nat) (s : σ)
    (good : Nat → σ → Prop)
    (gives : ∀ prepared s, prepared < total → good prepared s → ∃ chunk s', next s = (.ok chunk, s') ∧
      chunk.valid (maxRawPayload header.opcode) (total - prepared) = true ∧ good (prepared + chunk.len) s')
    (starts : good 0 s) :
    ∃ chunks, Obtains next s chunks (p.sendPageStream next read answers header total 0 metaDone s).caller ∧
      (chunks.map PageChunk.len).sum = total ∧
      (p.sendPageStream next read answers header total 0 metaDone s).result =
        (p.enqueueDataList (startPacket (streamHeader header total) metaDone ::
          pagePackets read metaDone total 0 chunks) (chunks.length + 1)).mapError .errno := by
  obtain ⟨chunks, obtained, outcome⟩ :=
    pageLoop_spec next read answers metaDone (maxRawPayload header.opcode) total 0 0 s (Nat.zero_le _)
  have through := pageLoop_succeeds next read answers grants.mapsPage grants.pagePacket metaDone
    (maxRawPayload header.opcode) total 0 0 s good gives starts
  have called : p.sendPageStream next read answers header total 0 metaDone s =
      match pageLoop next read answers metaDone (maxRawPayload header.opcode) total 0 0 s with
      | (packets, s, some (error, done)) =>
          { result := .error (.errno error), caller := s
            called := done.toList.map (fun ctx => (ctx, .errno error)) ++
              releasePacketList (startPacket (streamHeader header total) metaDone :: packets) (.errno error) }
      | (packets, s, none) =>
          match p.enqueueDataList (startPacket (streamHeader header total) metaDone :: packets) (packets.length + 1) with
          | .error error =>
              { result := .error (.errno error), caller := s
                called := releasePacketList (startPacket (streamHeader header total) metaDone :: packets) (.errno error) }
          | .ok p => { result := .ok p, caller := s, called := [] } := by
    unfold Path.sendPageStream
    simp [positive, Nat.not_lt.mpr short, grants.txRing, grants.dmaReady, grants.hdrBuffer, grants.hdrPacket,
      lengthAllowed_streamHeader header short]
  rw [called]
  generalize pageLoop next read answers metaDone (maxRawPayload header.opcode) total 0 0 s = looped
    at obtained outcome through ⊢
  obtain ⟨packets, s', failure⟩ := looped
  simp only at through
  subst through
  obtain ⟨pages, sum, -⟩ := outcome
  rw [Nat.zero_add] at sum
  simp only at pages obtained
  have long : packets.length = chunks.length := by
    rw [pages]
    exact length_pagePackets read metaDone total 0 chunks
  refine ⟨chunks, ?_, sum, ?_⟩
  all_goals
    simp only [← pages, ← long]
    cases p.enqueueDataList (startPacket (streamHeader header total) metaDone :: packets) (packets.length + 1) with
    | error error => first | exact obtained | rfl
    | ok p' => first | exact obtained | rfl

end Send

end ThunderboltVerbs.DataPath
