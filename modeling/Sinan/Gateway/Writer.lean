import Sinan.Gateway.Outbound
import Sinan.Lib.Threads
import Sinan.Protocol.Framing

/-!
# The queued writer

A connection has one writer task and any number of producers.  A producer puts a request, or a mark
that a sequence number is skipped, into a bounded channel; the task takes the requests in the order of
their sequence numbers and writes them to the transport.  The two share the phase of the writer, the
queue of bootstrap requests, the channel, a pool of permits and a notification.

Every access to something shared is one operation (`WriterOp`), so the operations of the calls and of
the task interleave in every order; what the source does between two accesses is part of the first.  An
`await` is an operation of its own: it is polled again, or the task is cancelled there.  A future of
`WriterState::closed` keeps the number of notifications it was created at and looks at the phase again
only when there has been another one.  What the transport, the clock and the encoder do is an input of
the step.

The log is newest first.
-/

namespace Sinan.Gateway

open Lib Protocol

def closedError : String := "transport writer is closed"

def droppedError : String := "transport writer dropped before reporting a write result"

def materializedTwiceError : String := "deferred outbound payload was materialized more than once"

inductive WriterPhase where
  | staging
  | started
  | closed
  deriving DecidableEq

/-- bytes, or an encoder that samples the time when it runs -/
inductive QueuedPayload where
  | ready (wireBytes : List UInt8)
  | deferred
  | materializing
  deriving DecidableEq

/-- `completion` numbers the channel that the producer waits on; `permit` says that the request holds
a permit of the pool -/
structure QueuedWrite where
  sequence : Nat
  payload : QueuedPayload
  skip : Bool
  permit : Bool
  completion : Nat
  deriving DecidableEq

inductive WriterEvent where
  | completed (completion : Nat) (outcome : SinkWriteOutcome)
  /-- the sequence number is accepted: a request is handed to the transport, a skip is left out -/
  | accepted (completion sequence : Nat) (skip : Bool)
  /-- a duplicate, stale, out-of-bound or overflowing sequence number -/
  | violated
  | gapTimedOut
  | closed
  /-- the transport took some bytes of the request -/
  | passed (completion : Nat)
  /-- the transport's write of the request returned success -/
  | wrote (completion : Nat)
  /-- the writer task was cancelled while it wrote the request -/
  | cancelled (completion : Nat)
  deriving DecidableEq

/-- what the calls and the task share, the fields of the `QueuedWriter` itself, and the log -/
structure WriterState where
  phase : WriterPhase
  bootstrap : List QueuedWrite
  notified : Nat
  channel : List QueuedWrite
  receiverClosed : Bool
  admission : Nat
  closed : Bool
  nextSequence : Nat
  /-- in the order of the sequence numbers -/
  reordered : List QueuedWrite
  gapStarted : Option Nat
  issued : Nat
  log : List WriterEvent
  deriving DecidableEq

structure WriterConfig where
  queueCapacity : Nat
  sequenceGapTimeout : Nat
  maxFrameBytes : Nat
  maxMessageBytes : Nat
  writeTimeout : Nat

def WriterState.new (config : WriterConfig) : WriterState where
  phase := .staging
  bootstrap := []
  notified := 0
  channel := []
  receiverClosed := false
  admission := config.queueCapacity
  closed := false
  nextSequence := 1
  reordered := []
  gapStarted := none
  issued := 0
  log := []

/-- a frame that is being written: the bytes the transport has not taken, and when the write times
out -/
structure Transfer where
  request : QueuedWrite
  rest : List UInt8
  deadline : Nat
  deriving DecidableEq

/-- what is still to do: first the operations of the calls, then those of the task.  A number at the
end is how many notifications there had been when the future that is polled was created. -/
inductive WriterOp where
  | enqueuePayload (sequence : Nat) (payload : QueuedPayload)
  | tryAcquire (completion sequence : Nat) (payload : QueuedPayload)
  | refuse (completion : Nat)
  | enqueueSkip (sequence : Nat)
  | tryAcquireSkip (sequence : Nat)
  | trySend (request : QueuedWrite)
  | stageBootstrap (payload : QueuedPayload)
  | start
  | close
  | notifyWaiters
  | complete (request : QueuedWrite) (outcome : SinkWriteOutcome)
  | release
  | spawned
  | next
  | startedOrClosed
  | pollStarted (created : Nat)
  | awaitStarted (created : Nat)
  | startGap
  | popBootstrapOrPhase
  | acceptExpected (request : QueuedWrite)
  | select
  | pollClosed (created : Nat)
  | pollGap (created : Nat)
  | recv (created : Nat)
  | awaitSelect (created : Nat)
  | failPending (error : String)
  | tryRecv (error : String)
  | materialize (request : QueuedWrite)
  | selectWrite (transfer : Transfer)
  | pollFence (transfer : Transfer) (created : Nat)
  | pollWrite (transfer : Transfer) (created : Nat)
  | pollTimeout (transfer : Transfer) (created : Nat)
  | awaitWrite (transfer : Transfer) (created : Nat)
  | shutdown
  | awaitShutdown (deadline : Nat)
  | dropWriter
  deriving DecidableEq

/-- what a step finds outside: the clock, the result of a deferred encoder, whether no sink is left,
how many bytes the transport takes and the error it then reports, whether its shutdown has returned -/
structure WriterInput where
  now : Nat := 0
  encoded : Except String (List UInt8) := .ok []
  noSink : Bool := false
  taken : Nat := 0
  failure : Option String := none
  shutDown : Bool := false

namespace WriterState

def isClosed (s : WriterState) : Bool := s.phase == .closed

def record (s : WriterState) (event : WriterEvent) : WriterState := { s with log := event :: s.log }

/-- a new completion channel, with the number `s.issued` -/
def issue (s : WriterState) : WriterState := { s with issued := s.issued + 1 }

end WriterState

/-- `BTreeMap::insert` of a key that is not there -/
def insertReordered (request : QueuedWrite) (reordered : List QueuedWrite) : List QueuedWrite :=
  (reordered.takeWhile fun r => r.sequence < request.sequence) ++
    request :: reordered.dropWhile fun r => r.sequence < request.sequence

/-- the end of the task after `next` returned nothing -/
def failed (error : String) : List WriterOp := [.failPending error, .shutdown]

/-- a request that breaks the order ends the connection -/
def violation (s : WriterState) (request : QueuedWrite) (error : String) :
    WriterState × List WriterOp :=
  (s.record .violated,
    .complete request (.definitelyNotWritten error) :: .close :: failed closedError)

def FrameEncodeError.text : FrameEncodeError → String
  | .wireProtocolViolation => "WIRE_PROTOCOL_VIOLATION: a Native TCP frame cannot be empty"
  | .frameTooLarge length max =>
    "WIRE_FRAME_TOO_LARGE: frame length " ++ length.repr ++ " exceeds configured maximum " ++ max.repr
  | .lengthOverflow =>
    "WIRE_FRAME_TOO_LARGE: payload length exceeds the unsigned 32-bit frame prefix"

/-- the encoder runs once; the payload left behind cannot be materialized again after a failure -/
def QueuedWrite.materializeWireBytes (request : QueuedWrite)
    (encoded : Except String (List UInt8)) : QueuedWrite × Except String (List UInt8) :=
  match request.payload with
  | .ready wireBytes => (request, .ok wireBytes)
  | .deferred => match encoded with
    | .ok wireBytes => ({ request with payload := .ready wireBytes }, .ok wireBytes)
    | .error error => ({ request with payload := .materializing }, .error error)
  | .materializing => (request, .error materializedTwiceError)

/-- the frame of a materialized message, within both limits -/
def frameOf (config : WriterConfig) (wireBytes : List UInt8) : Except String (List UInt8) :=
  if wireBytes.length > config.maxMessageBytes then
    .error ("Native TCP message exceeds configured maximum " ++ config.maxMessageBytes.repr)
  else match encodeNativeTcpFrame wireBytes config.maxFrameBytes with
    | .ok frame => .ok frame
    | .error error => .error (FrameEncodeError.text error)

/-- a poll of the transport's shutdown under the write timeout; the result is dropped -/
def pollShutdown (deadline : Nat) (input : WriterInput) : List WriterOp :=
  if input.shutDown ∨ deadline ≤ input.now then [.dropWriter] else [.awaitShutdown deadline]

/-! ## the operations -/

/-- one operation: the state after it and what it leaves to be done -/
def execute (config : WriterConfig) (op : WriterOp) (input : WriterInput) (s : WriterState) :
    WriterState × List WriterOp :=
  match op with
  -- the calls
  | .enqueuePayload sequence payload =>
    if s.isClosed then
      (s.issue.record (.completed s.issued (.definitelyNotWritten closedError)), [])
    else (s.issue, [.tryAcquire s.issued sequence payload])
  | .tryAcquire completion sequence payload =>
    if 0 < s.admission then
      ({ s with admission := s.admission - 1 },
        [.trySend { sequence, payload, skip := false, permit := true, completion }])
    else (s, [.close, .refuse completion])
  | .refuse completion =>
    (s.record (.completed completion (.backpressure (config.queueCapacity - s.admission))), [])
  | .enqueueSkip sequence => (s, if s.isClosed then [] else [.tryAcquireSkip sequence])
  | .tryAcquireSkip sequence =>
    if 0 < s.admission then
      ({ s.issue with admission := s.admission - 1 },
        [.trySend { sequence, payload := .ready [], skip := true, permit := true,
                    completion := s.issued }])
    else (s, [.close])
  | .trySend request =>
    if s.receiverClosed then
      -- a skip that is refused is dropped before the writer is closed
      (s, if request.skip then [.complete request (.definitelyNotWritten droppedError), .close]
        else [.close, .complete request (.definitelyNotWritten closedError)])
    else if s.channel.length ≥ config.queueCapacity then
      (s, [.complete request (if request.skip then .definitelyNotWritten droppedError
        else .backpressure config.queueCapacity), .close])
    else ({ s with channel := s.channel ++ [request] }, [])
  | .stageBootstrap payload =>
    let request : QueuedWrite :=
      { sequence := 1, payload, skip := false, permit := false, completion := s.issued }
    if s.phase = .staging then ({ s.issue with bootstrap := s.bootstrap ++ [request] }, [])
    else (s.issue, [.complete request (.definitelyNotWritten
      "bootstrap must be staged before the transport writer starts")])
  | .start =>
    if s.phase = .staging then ({ s with phase := .started }, [.notifyWaiters]) else (s, [])
  | .close =>
    if s.isClosed then (s, [])
    else ({ s with phase := .closed, bootstrap := [] }.record .closed,
      s.bootstrap.map (WriterOp.complete · (.definitelyNotWritten closedError)) ++
        [.notifyWaiters])
  | .notifyWaiters => ({ s with notified := s.notified + 1 }, [])
  | .complete request outcome =>
    (s.record (.completed request.completion outcome), if request.permit then [.release] else [])
  | .release => ({ s with admission := s.admission + 1 }, [])
  | .spawned => (s, [.next])
  -- `next`
  | .next => (s, if s.closed then [.shutdown] else [.startedOrClosed])
  | .startedOrClosed => (s, [.pollStarted s.notified])
  | .pollStarted created =>
    (s, match s.phase with
      | .staging => [.awaitStarted created]
      | .started => [.startGap]
      | .closed => failed closedError)
  | .awaitStarted created =>
    (s, if created < s.notified then [.startedOrClosed] else [.awaitStarted created])
  | .startGap =>
    (if s.reordered ≠ [] ∧ s.gapStarted = none then { s with gapStarted := some input.now } else s,
      [.popBootstrapOrPhase])
  | .popBootstrapOrPhase =>
    match s.bootstrap with
    | request :: bootstrap =>
      if s.isClosed then
        ({ s with bootstrap },
          [.failPending closedError, .complete request (.definitelyNotWritten droppedError),
            .shutdown])
      else ({ s with bootstrap }, [.acceptExpected request])
    | [] =>
      if s.isClosed then (s, failed closedError)
      else match s.reordered.find? (·.sequence == s.nextSequence) with
        | some request =>
          ({ s with reordered := s.reordered.eraseP (·.sequence == s.nextSequence) },
            [.acceptExpected request])
        | none => (s, [.select])
  | .acceptExpected request =>
    if request.sequence ≠ s.nextSequence then
      violation s request "bootstrap or outbound sequence does not match the writer high-water mark"
    else if s.nextSequence + 1 ≥ 2 ^ 64 then violation s request "outbound sequence overflow"
    else ({ s with nextSequence := s.nextSequence + 1, gapStarted := none }.record
        (.accepted request.completion request.sequence request.skip),
      if request.skip
        then [.complete request (.definitelyNotWritten droppedError), .startGap]
        else [.materialize request])
  | .select => (s, [.pollClosed s.notified])
  | .pollClosed created => (s, if s.isClosed then failed closedError else [.pollGap created])
  | .pollGap created =>
    if s.gapStarted.any fun started => started + config.sequenceGapTimeout ≤ input.now then
      (s.record .gapTimedOut, .close :: failed "outbound sequence gap timed out")
    else (s, [.recv created])
  | .recv created =>
    match s.channel with
    | [] => (s, if s.receiverClosed ∨ input.noSink then .close :: failed closedError
        else [.awaitSelect created])
    | request :: channel =>
      let s := { s with channel }
      if request.sequence = s.nextSequence then (s, [.acceptExpected request])
      else if request.sequence < s.nextSequence ∨
          (s.reordered.any fun r => r.sequence == request.sequence) ∨
          s.reordered.length ≥ config.queueCapacity then
        violation s request "outbound sequence is duplicated, stale, or exceeds the reorder bound"
      else ({ s with reordered := insertReordered request s.reordered }, [.startGap])
  | .awaitSelect created => (s, if created < s.notified then [.select] else [.pollGap created])
  -- `fail_pending`
  | .failPending error =>
    if s.closed then (s, [])
    else ({ s with closed := true, receiverClosed := true, reordered := [] },
      s.reordered.map (WriterOp.complete · (.definitelyNotWritten error)) ++ [.tryRecv error])
  | .tryRecv error =>
    match s.channel with
    | [] => (s, [])
    | request :: channel =>
      ({ s with channel }, [.complete request (.definitelyNotWritten error), .tryRecv error])
  -- the loop of the task
  | .materialize request =>
    let (request, wireBytes) := request.materializeWireBytes input.encoded
    match wireBytes >>= frameOf config with
    | .ok frame => (s, [.selectWrite { request, rest := frame, deadline := input.now + config.writeTimeout }])
    | .error error =>
      (s, .complete request (.definitelyNotWritten error) :: .close :: failed error)
  | .selectWrite transfer => (s, [.pollFence transfer s.notified])
  | .pollFence transfer created =>
    (s, if s.isClosed then
        [.complete transfer.request
          (.unconfirmed "transport was fenced during a Native TCP write"), .shutdown]
      else [.pollWrite transfer created])
  | .pollWrite transfer created =>
    -- `write_all`: it ends when no byte is left, or with the error of the transport
    let rest := transfer.rest.drop input.taken
    let s := if 0 < input.taken then s.record (.passed transfer.request.completion) else s
    if rest = [] then
      (s.record (.wrote transfer.request.completion), [.complete transfer.request .written, .next])
    else match input.failure with
      | some error =>
        (s, [.complete transfer.request (.unconfirmed ("Native TCP write failed: " ++ error)),
          .shutdown])
      | none => (s, [.pollTimeout { transfer with rest } created])
  | .pollTimeout transfer created =>
    (s, if transfer.deadline ≤ input.now then
        [.complete transfer.request (.unconfirmed "Native TCP write timed out"), .shutdown]
      else [.awaitWrite transfer created])
  | .awaitWrite transfer created =>
    (s, if created < s.notified then [.selectWrite transfer] else [.pollWrite transfer created])
  | .shutdown => (s, pollShutdown (input.now + config.writeTimeout) input)
  | .awaitShutdown deadline => (s, pollShutdown deadline input)
  | .dropWriter => (s, [.close, .failPending droppedError])

/-- The task is cancelled where it awaits: its request and then the writer are dropped.  Elsewhere
nothing happens. -/
def cancel (op : WriterOp) (s : WriterState) : WriterState × List WriterOp :=
  match op with
  | .spawned | .awaitStarted _ | .awaitSelect _ | .awaitShutdown _ => (s, [.dropWriter])
  | .awaitWrite transfer _ =>
    (s.record (.cancelled transfer.request.completion),
      [.complete transfer.request (.definitelyNotWritten droppedError), .dropWriter])
  | op => (s, [op])

inductive WriterTurn where
  | poll (input : WriterInput)
  | cancel

def turn (config : WriterConfig) (op : WriterOp) (t : WriterTurn) (s : WriterState) :
    WriterState × List WriterOp :=
  match t with
  | .poll input => execute config op input s
  | .cancel => cancel op s

/-! ## runs -/

/-- the calls of the producers; a call of `enqueue` has its bytes ready, one of `enqueue_deferred`
has an encoder -/
inductive WriterCall where
  | enqueuePayload (sequence : Nat) (payload : QueuedPayload)
  | enqueueSkip (sequence : Nat)
  | stageBootstrap (payload : QueuedPayload)
  | startWriter
  | close

def WriterCall.op : WriterCall → WriterOp
  | .enqueuePayload sequence payload => .enqueuePayload sequence payload
  | .enqueueSkip sequence => .enqueueSkip sequence
  | .stageBootstrap payload => .stageBootstrap payload
  | .startWriter => .start
  | .close => .close

abbrev WriterMove := Pool.Move WriterCall WriterTurn

abbrev WriterPool := Pool WriterState WriterOp

/-- the writer task before its first poll; it is the thread with the number zero -/
def WriterPool.new (config : WriterConfig) : WriterPool :=
  { shared := .new config, threads := [[.spawned]] }

def writerRun (config : WriterConfig) (moves : List WriterMove) : WriterPool :=
  Pool.run (turn config) WriterCall.op (WriterPool.new config) moves

end Sinan.Gateway
