import Sinan.Gateway.Outbound
import Sinan.Lib.Flagged
import Sinan.Lib.Threads

/-!
# The handle of a live session

A live session is written to through its handle.  The handle is fenced when the session ends, and a
write is admitted only before that; both are decided on one atomic word, which holds the fence in its top
bit and the number of permits that are out below it.

Every access to the word and every call of the sink is one operation (`HandleOp`), so writes, skips and
fences interleave in every order.  `compare_exchange_weak` may fail when the word is the expected one,
and the future of a write may be dropped where it awaits; both are inputs of the step.  The log is
newest first.
-/

namespace Sinan.Gateway

open Lib

variable {P : Type}

def fencedBit : BitVec 64 := 1#64 <<< (64 - 1)

def writerMask : BitVec 64 := fencedBit - 1#64

deriving instance DecidableEq for OutboundFrame

inductive HandleEvent (P : Type) where
  /-- the frame is of another session -/
  | mismatched (frame : OutboundFrame P)
  /-- a permit is given out for the frame -/
  | admitted (frame : OutboundFrame P)
  /-- no permit is given out for the frame -/
  | refused (frame : OutboundFrame P)
  /-- the sink is asked to write the frame -/
  | handed (frame : OutboundFrame P)
  /-- the permit of the frame is given back -/
  | released (frame : OutboundFrame P)
  | answered (frame : OutboundFrame P) (outcome : SinkWriteOutcome)
  | fenced
  /-- the sink is told to close -/
  | closed
  | skipped (sequence : Nat)
  deriving DecidableEq

structure HandleState (P : Type) where
  word : BitVec 64
  log : List (HandleEvent P)
  deriving DecidableEq

def HandleState.new : HandleState P := { word := 0#64, log := [] }

def HandleState.record (s : HandleState P) (event : HandleEvent P) : HandleState P :=
  { s with log := event :: s.log }

/-- what is still to do; `current` is the word as the loop of `acquire_write` saw it last -/
inductive HandleOp (P : Type) where
  | write (frame : OutboundFrame P)
  | load (frame : OutboundFrame P)
  | exchange (frame : OutboundFrame P) (current : BitVec 64)
  | sinkWrite (frame : OutboundFrame P)
  | awaitWrite (frame : OutboundFrame P)
  | dropPermit (frame : OutboundFrame P)
  | answer (frame : OutboundFrame P) (outcome : SinkWriteOutcome)
  | fence
  | sinkClose
  | skip (sequence : Nat)
  | sinkSkip (sequence : Nat)
  deriving DecidableEq

inductive HandleInput where
  /-- `spurious` lets the exchange fail; `outcome` is what the sink has to say by now -/
  | poll (spurious : Bool) (outcome : Option SinkWriteOutcome)
  /-- the future of the write is dropped -/
  | drop

def epochDiffers : SinkWriteOutcome :=
  .definitelyNotWritten "outbound frame session differs from live transport epoch"

def fencedBefore : SinkWriteOutcome :=
  .definitelyNotWritten "session transport was fenced before write admission"

def isFenced (word : BitVec 64) : Bool := word &&& fencedBit != 0#64

def pollHandle (sessionId : SessionId) (spurious : Bool) (outcome : Option SinkWriteOutcome)
    (op : HandleOp P) (s : HandleState P) : HandleState P × List (HandleOp P) :=
  match op with
  | .write frame =>
    if frame.sessionId ≠ sessionId then (s.record (.mismatched frame), [.answer frame epochDiffers])
    else (s, [.load frame])
  -- `acquire_write`
  | .load frame => (s, [.exchange frame s.word])
  | .exchange frame current =>
    if isFenced current ∨ current &&& writerMask = writerMask then
      (s.record (.refused frame), [.answer frame fencedBefore])
    else if s.word = current ∧ spurious = false then
      ({ s with word := current + 1#64 }.record (.admitted frame), [.sinkWrite frame])
    else (s, [.exchange frame s.word])
  | .sinkWrite frame => (s.record (.handed frame), [.awaitWrite frame])
  | .awaitWrite frame =>
    match outcome with
    | some outcome => (s, [.dropPermit frame, .answer frame outcome])
    | none => (s, [.awaitWrite frame])
  | .dropPermit frame => ({ s with word := s.word - 1#64 }.record (.released frame), [])
  | .answer frame outcome => (s.record (.answered frame outcome), [])
  | .fence =>
    if isFenced s.word then (s, [])
    else ({ s with word := s.word ||| fencedBit }.record .fenced, [.sinkClose])
  | .sinkClose => (s.record .closed, [])
  | .skip sequence => (s, if isFenced s.word then [] else [.sinkSkip sequence])
  | .sinkSkip sequence => (s.record (.skipped sequence), [])

/-- a write is dropped before its first poll, or where it awaits the sink: its permit goes back.
Elsewhere nothing happens. -/
def dropHandle (op : HandleOp P) (s : HandleState P) : HandleState P × List (HandleOp P) :=
  match op with
  | .write _ => (s, [])
  | .awaitWrite frame => (s, [.dropPermit frame])
  | op => (s, [op])

def handleTurn (sessionId : SessionId) (op : HandleOp P) (input : HandleInput)
    (s : HandleState P) : HandleState P × List (HandleOp P) :=
  match input with
  | .poll spurious outcome => pollHandle sessionId spurious outcome op s
  | .drop => dropHandle op s

inductive HandleCall (P : Type) where
  | write (frame : OutboundFrame P)
  | skip (sequence : Nat)
  | fence

def HandleCall.op : HandleCall P → HandleOp P
  | .write frame => .write frame
  | .skip sequence => .skip sequence
  | .fence => .fence

abbrev HandleMove (P : Type) := Pool.Move (HandleCall P) HandleInput

abbrev HandlePool (P : Type) := Pool (HandleState P) (HandleOp P)

def handleRun (sessionId : SessionId) (moves : List (HandleMove P)) : HandlePool P :=
  Pool.run (handleTurn sessionId) HandleCall.op { shared := .new, threads := [] } moves

/-! ## the word is what the log says -/

def HandleEvent.isAdmitted : HandleEvent P → Bool
  | .admitted _ => true
  | _ => false

def HandleEvent.isReleased : HandleEvent P → Bool
  | .released _ => true
  | _ => false

/-- the permits that are out -/
def permitsOut (log : List (HandleEvent P)) : Nat :=
  log.countP HandleEvent.isAdmitted - log.countP HandleEvent.isReleased

/-- the word that the log tells -/
def wordOf [DecidableEq P] (log : List (HandleEvent P)) : BitVec 64 :=
  flagged 63 (decide (.fenced ∈ log)) (permitsOut log)

theorem fencedBit_eq : fencedBit = flagBit 63 := by decide

theorem writerMask_eq : writerMask = flagBit 63 - 1#64 := by decide

/-- what an event does to the word -/
def HandleEvent.apply (word : BitVec 64) : HandleEvent P → BitVec 64
  | .admitted _ => word + 1#64
  | .released _ => word - 1#64
  | .fenced => word ||| fencedBit
  | _ => word

/-! ## what the operations hold -/

/-- the permits that are held -/
def HandleOp.holds : HandleOp P → Nat
  | .sinkWrite _ | .awaitWrite _ | .dropPermit _ => 1
  | _ => 0

/-- the sink is closed next -/
def HandleOp.closing : HandleOp P → Nat
  | .sinkClose => 1
  | _ => 0

def HandleOp.fencing : HandleOp P → Nat
  | .fence => 1
  | _ => 0

/-- the writes of `frame` that are admitted and not yet handed to the sink -/
def HandleOp.handing [DecidableEq P] (frame : OutboundFrame P) : HandleOp P → Nat
  | .sinkWrite f => if f = frame then 1 else 0
  | _ => 0

/-- The session of a frame is compared before a permit is asked for, and what the loop of
`acquire_write` compares with was the word at some time. -/
def HandleOp.Sound [DecidableEq P] (sessionId : SessionId) (log : List (HandleEvent P)) :
    HandleOp P → Prop
  | .load frame | .sinkWrite frame => frame.sessionId = sessionId
  | .exchange frame current => frame.sessionId = sessionId ∧ ∃ earlier, earlier <:+ log ∧
      permitsOut earlier < 2 ^ 63 ∧ current = wordOf earlier
  | _ => True

/-- An event fits the events before it.  A permit is given out before the fence only, to a frame of
the session, while there is room; a frame is handed over once for each of its permits; there is one fence, and the sink is closed
once, after it; a permit is refused after the fence, or where all of them are out. -/
def HandleEvent.Fits [DecidableEq P] (sessionId : SessionId) (older : List (HandleEvent P)) :
    HandleEvent P → Prop
  | .mismatched frame => frame.sessionId ≠ sessionId
  | .admitted frame => frame.sessionId = sessionId ∧ .fenced ∉ older ∧
      permitsOut older < 2 ^ 63 - 1
  | .refused frame => frame.sessionId = sessionId ∧ (.fenced ∈ older ∨
      ∃ earlier, earlier <:+ older ∧ permitsOut earlier = 2 ^ 63 - 1)
  | .handed frame => older.count (.handed frame) < older.count (.admitted frame)
  | .released _ => 0 < permitsOut older
  | .fenced => .fenced ∉ older
  | .closed => .fenced ∈ older ∧ .closed ∉ older
  | .answered _ _ | .skipped _ => True

end Sinan.Gateway
