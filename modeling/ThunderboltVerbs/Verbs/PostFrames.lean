import ThunderboltVerbs.Verbs.Post

/-!
# Posting frames on the paths (`tbv_native_send_ctx_post_frames`)

`postFrames` says which frames a post queues. Here the same call runs on the paths it was given, with the
arrays it keeps for them: each lane has its path, its reservation, its frames and its prepared packets. A
release of packets returns the contexts whose `tbv_send_tx_done` it calls.
-/

namespace ThunderboltVerbs.DataPath
namespace Path

/-- The rounds of `tbv_path_schedule_tx` in one thread. `tb_ring_tx` fails on a stopped ring only. -/
def scheduleRounds (nativeTxMaxInflight : Nat) (ringRunning : Bool) : Nat → Path → Path × List Nat
  | 0, p => (p, [])
  | rounds + 1, p =>
      let taken := p.scheduleTake nativeTxMaxInflight
      match taken.scheduler with
      | .posting packet fromControlQueue charged oldRaw oldStart =>
          if ringRunning then
            scheduleRounds nativeTxMaxInflight ringRunning rounds (taken.posted packet)
          else
            ({ taken.postFailed packet fromControlQueue charged oldRaw oldStart .eShutdown with
                scheduler := .idle },
              packet.done.toList)
      | _ => (taken, [])

/-- A round takes a packet out of a queue or is the last one. -/
def kickTx (p : Path) (nativeTxMaxInflight : Nat) (ringRunning : Bool) : Path × List Nat :=
  match p.scheduler with
  | .idle =>
      scheduleRounds nativeTxMaxInflight ringRunning
        (p.txControlQueue.length + p.txDataQueue.length + 1) p.scheduleEnter
  | _ => (p, [])

end Path
end ThunderboltVerbs.DataPath

namespace ThunderboltVerbs.Verbs
open Proto DataPath

/-- A path the call may use, with the answers it gets there: `alloc` for the packet of each of its frames, and
`enqueue` when the path refuses the packets although they are reserved. -/
structure Lane where
  path : Path
  ringRunning : Bool
  alloc : Nat → Bool
  enqueue : Option Errno

structure PostLane extends Lane where
  reservation : Nat := 0
  frames : List DataHeader := []
  packets : List TxPacket := []

structure SendRefs where
  txPending : Nat
  refs : Nat
  deriving DecidableEq, Repr

/-- The context at `addr`, with the answers to the allocations and copies of its fragments. -/
structure FramePost where
  addr : Nat
  msg : SendMsg
  striped : Bool
  fragment : Nat → FragmentEnv
  nativeTxMaxInflight : Nat

structure FramesOutcome where
  result : Except Errno Nat
  paths : List Path
  refs : SendRefs
  called : List Nat

/-! ## Reservations -/

def FramePost.wanted (post : FramePost) (lanes : List Lane) : List PostLane :=
  lanes.zipIdx.map fun lane =>
    { toLane := lane.1
      reservation := (List.range (fragmentCount post.msg.totalLen)).countP fun i =>
        laneOf post.striped post.msg.psn lanes.length i = lane.2 }

/-- The reservation loop. Where it stops, the lanes after the refused one still have the reservations they
want, and none of them was made. -/
def reserveLanes : List PostLane → List PostLane × Option Errno
  | [] => ([], none)
  | lane :: rest =>
      match lane.path.reserveData lane.reservation with
      | .error error => ({ lane with reservation := 0 } :: rest, some error)
      | .ok path =>
          let reserved := reserveLanes rest
          ({ lane with path } :: reserved.1, reserved.2)

/-- `tbv_release_path_reservations` on one lane. -/
def PostLane.released (lane : PostLane) : Path := lane.path.releaseDataReservation lane.reservation

/-! ## Packets -/

def releasePacketList (packets : List TxPacket) : List Nat := packets.filterMap TxPacket.done

def releasePacketListSilent (packets : List TxPacket) : List Nat :=
  releasePacketList (packets.map fun packet => { packet with done := none })

/-- `tbv_path_prepare_owned_list`; `prepared` are the packets it has so far. -/
def prepareOwnedList (addr : Nat) (alloc : Nat → Bool) :
    List TxPacket → List DataHeader → Except Errno (List TxPacket) × List Nat
  | prepared, [] => (.ok prepared, [])
  | prepared, header :: rest =>
      let len := dataHdrSize + header.length
      if len > dataFrameSize then (.error .eInval, releasePacketListSilent prepared)
      else if !alloc prepared.length then (.error .eNoMem, releasePacketListSilent prepared)
      else
        prepareOwnedList addr alloc
          (prepared ++
            [{ frame := { len, header := some header }, done := some addr, ownerCtx := some addr }])
          rest

def FramePost.deal (post : FramePost) (headers : List DataHeader) (lanes : List PostLane) : List PostLane :=
  lanes.zipIdx.map fun lane =>
    { lane.1 with frames := headersOf post.striped post.msg lanes.length headers lane.2 }

def prepareLanes (addr : Nat) : List PostLane → List PostLane × Option Errno × List Nat
  | [] => ([], none, [])
  | lane :: rest =>
      match prepareOwnedList addr lane.alloc [] lane.frames with
      | (.error error, called) => ({ lane with frames := [] } :: rest, some error, called)
      | (.ok packets, called) =>
          let prepared := prepareLanes addr rest
          ({ lane with frames := [], packets } :: prepared.1, prepared.2.1, called ++ prepared.2.2)

/-! ## Queueing -/

structure EnqueueOutcome where
  lanes : List PostLane
  queued : Nat
  released : Nat
  error : Option Errno
  called : List Nat

def PostLane.enqueueReserved (lane : PostLane) : Except Errno Path :=
  match lane.enqueue with
  | some error => .error error
  | none => lane.path.enqueueReservedDataList lane.packets lane.packets.length

def PostLane.dropped (lane : PostLane) : PostLane :=
  { lane with path := lane.released, reservation := 0, packets := [] }

/-- The queueing loop with `queued` frames queued so far. A lane that fails takes the packets and the
reservations of the lanes after it along. -/
def enqueuePrepared : Nat → List PostLane → EnqueueOutcome
  | queued, [] => { lanes := [], queued, released := 0, error := none, called := [] }
  | queued, lane :: rest =>
      if lane.packets = [] then
        let outcome := enqueuePrepared queued rest
        { outcome with lanes := lane :: outcome.lanes }
      else
        match lane.enqueueReserved with
        | .ok path =>
            let outcome := enqueuePrepared (queued + lane.packets.length) rest
            { outcome with
              lanes := { lane with path, reservation := 0, packets := [] } :: outcome.lanes }
        | .error error =>
            { lanes := (lane :: rest).map PostLane.dropped
              queued
              released := ((lane :: rest).map fun lane => lane.packets.length).sum
              error := some error
              called := (lane :: rest).flatMap fun lane => releasePacketListSilent lane.packets }

/-! ## The call -/

/-- `err_release_paths`. Nothing was queued there, so that no path is kicked. -/
def errReleasePaths (error : Errno) (lanes : List PostLane) (refs : SendRefs) (called : List Nat) :
    FramesOutcome where
  result := .error error
  paths := lanes.map PostLane.released
  refs := refs
  called := called ++ lanes.flatMap fun lane => releasePacketListSilent lane.packets

def FramePost.kickPaths (post : FramePost) (lanes : List PostLane) : List (Path × List Nat) :=
  lanes.map fun lane => lane.path.kickTx post.nativeTxMaxInflight lane.ringRunning

def FramePost.send (post : FramePost) (lanes : List PostLane) (refs : SendRefs) : FramesOutcome :=
  let prepared := prepareLanes post.addr lanes
  match prepared.2.1 with
  | some error => errReleasePaths error prepared.1 refs prepared.2.2
  | none =>
      let total := (prepared.1.map fun lane => lane.packets.length).sum
      if total = 0 then errReleasePaths .eIo prepared.1 refs prepared.2.2
      else
        let outcome := enqueuePrepared 0 prepared.1
        let refs :=
          { txPending := refs.txPending + total - outcome.released
            refs := refs.refs + total - outcome.released }
        let called := prepared.2.2 ++ outcome.called
        match outcome.error, outcome.queued with
        | some error, 0 => errReleasePaths error outcome.lanes refs called
        | _, queued =>
            let kicked := post.kickPaths outcome.lanes
            { result := .ok queued
              paths := kicked.map Prod.fst
              refs
              called := called ++ kicked.flatMap Prod.snd }

/-- `tbv_native_send_ctx_post_frames` for a retryable context. `lanes` are the collected paths of a striped
message, or the one selected path. -/
def FramePost.run (post : FramePost) (lanes : List Lane) (refs : SendRefs) : FramesOutcome :=
  if lanes = [] then { result := .error .eNotConn, paths := [], refs, called := [] }
  else
    let reserved := reserveLanes (post.wanted lanes)
    match reserved.2 with
    | some error =>
        { result := .error error, paths := reserved.1.map PostLane.released, refs, called := [] }
    | none =>
        match buildFragments post.msg post.fragment (fragmentCount post.msg.totalLen) 0 with
        | .error error => errReleasePaths error reserved.1 refs []
        | .ok headers => post.send (post.deal headers reserved.1) refs

end ThunderboltVerbs.Verbs
