import Mathlib.Algebra.Group.Nat.Defs
import Sinan.Lib.Check
import Sinan.Lib.Transducer

/-!
# Native TCP frames

A frame is a four-byte big-endian length and that many bytes of payload; the length is at least one
and at most the configured limit.  The decoder keeps the incomplete prefix or the incomplete payload
of the current frame in one buffer and remembers, once the prefix is complete, how long the payload
is to be.

`feed` is the loop of the source: a turn takes as many bytes as the current part of the frame still
needs.  Its two subtractions are checked (`FeedStop.underflow`) and the loop runs on a bound
(`FeedStop.unfinished`); `feed_trace` shows that neither stop is ever met and that the loop computes
what reading byte after byte does (`byteStep`).
-/

namespace Sinan.Protocol

open Sinan.Lib

/-! ## the encoder -/

/-- `u32::to_be_bytes` -/
def toBeBytes (n : Nat) : List UInt8 :=
  [UInt8.ofNat (n / 2 ^ 24), UInt8.ofNat (n / 2 ^ 16), UInt8.ofNat (n / 2 ^ 8), UInt8.ofNat n]

/-- `u32::from_be_bytes` -/
def fromBeBytes (bytes : List UInt8) : Nat := bytes.foldl (fun n b => n * 256 + b.toNat) 0

inductive FrameEncodeError where
  | wireProtocolViolation
  | frameTooLarge (length max : Nat)
  | lengthOverflow
  deriving DecidableEq, Repr

def encodeNativeTcpFrame (payload : List UInt8) (maxFrameBytes : Nat) :
    Except FrameEncodeError (List UInt8) := do
  reject (payload = []) .wireProtocolViolation
  reject (payload.length > maxFrameBytes) (.frameTooLarge payload.length maxFrameBytes)
  reject (payload.length ≥ 2 ^ 32) .lengthOverflow
  return toBeBytes payload.length ++ payload

/-! ## the decoder -/

inductive FrameDecodeError where
  | poisoned
  | wireProtocolViolation
  | frameTooLarge (length max : Nat)
  deriving DecidableEq, Repr

structure NativeTcpFrameDecoder where
  maxFrameBytes : Nat
  buffer : List UInt8
  expectedPayloadLen : Option Nat
  poisoned : Bool
  deriving DecidableEq, Repr

namespace NativeTcpFrameDecoder

def new (maxFrameBytes : Nat) : NativeTcpFrameDecoder :=
  { maxFrameBytes, buffer := [], expectedPayloadLen := none, poisoned := false }

/-- an incomplete prefix or payload is retained across reads -/
def hasPendingFrame (d : NativeTcpFrameDecoder) : Bool :=
  !d.buffer.isEmpty || d.expectedPayloadLen.isSome

end NativeTcpFrameDecoder

/-- what would stop the loop of `feed` for a reason that is not in its result type -/
inductive FeedStop where
  | underflow
  | unfinished
  deriving DecidableEq, Repr

/-- a subtraction of `usize` values -/
def usizeSub (a b : Nat) : Except FeedStop Nat :=
  if b ≤ a then .ok (a - b) else .error .underflow

/-- how one turn of the loop ends: it goes on with the rest of the input, or the call returns -/
inductive Turn where
  | more (d : NativeTcpFrameDecoder) (frame : Option (List UInt8)) (rest : List UInt8)
  | fatal (d : NativeTcpFrameDecoder) (e : FrameDecodeError)

def feedTurn (d : NativeTcpFrameDecoder) (input : List UInt8) : Except FeedStop Turn :=
  match d.expectedPayloadLen with
  | some expectedPayloadLen => do
    let needed ← usizeSub expectedPayloadLen d.buffer.length
    let take := min needed input.length
    let buffer := d.buffer ++ input.take take
    let rest := input.drop take
    if buffer.length = expectedPayloadLen then
      return .more { d with buffer := [], expectedPayloadLen := none } (some buffer) rest
    else
      return .more { d with buffer } none rest
  | none => do
    let needed ← usizeSub 4 d.buffer.length
    let take := min needed input.length
    let buffer := d.buffer ++ input.take take
    let rest := input.drop take
    if buffer.length < 4 then
      return .more { d with buffer } none rest
    else
      let length := fromBeBytes (buffer.take 4)
      if length = 0 then
        return .fatal { d with buffer, poisoned := true } .wireProtocolViolation
      else if length > d.maxFrameBytes then
        return .fatal { d with buffer, poisoned := true } (.frameTooLarge length d.maxFrameBytes)
      else
        return .more { d with buffer := [], expectedPayloadLen := some length } none rest

/-- `while !input.is_empty()`, with the frames collected so far -/
def feedLoop : Nat → NativeTcpFrameDecoder → List (List UInt8) → List UInt8 →
    Except FeedStop (NativeTcpFrameDecoder × Except FrameDecodeError (List (List UInt8)))
  | _, d, frames, [] => .ok (d, .ok frames)
  | 0, _, _, _ :: _ => .error .unfinished
  | fuel + 1, d, frames, b :: input => do
    match ← feedTurn d (b :: input) with
    | .fatal d' e => return (d', .error e)
    | .more d' frame rest => feedLoop fuel d' (frames ++ frame.toList) rest

/-- `NativeTcpFrameDecoder::feed`: the decoder after the call and what the call returns -/
def NativeTcpFrameDecoder.feed (d : NativeTcpFrameDecoder) (bytes : List UInt8) :
    Except FeedStop (NativeTcpFrameDecoder × Except FrameDecodeError (List (List UInt8))) :=
  if d.poisoned then .ok (d, .error .poisoned) else feedLoop bytes.length d [] bytes

/-- the chunks fed in order: the decoder afterwards and what each call returned -/
def feedAll (d : NativeTcpFrameDecoder) : List (List UInt8) →
    Except FeedStop (NativeTcpFrameDecoder × List (Except FrameDecodeError (List (List UInt8))))
  | [] => .ok (d, [])
  | chunk :: chunks => do
    let (d', result) ← d.feed chunk
    let (d'', results) ← feedAll d' chunks
    return (d'', result :: results)

/-- the frames that the calls hand over before the first of them that fails -/
def framesBeforeError : List (Except FrameDecodeError (List (List UInt8))) → List (List UInt8)
  | [] => []
  | .error _ :: _ => []
  | .ok frames :: results => frames ++ framesBeforeError results

/-! ## reading byte after byte -/

/-- what the loop does with a buffer that has just grown -/
def settle (d : NativeTcpFrameDecoder) (buffer : List UInt8) :
    Except (NativeTcpFrameDecoder × FrameDecodeError)
      (NativeTcpFrameDecoder × Option (List UInt8)) :=
  match d.expectedPayloadLen with
  | some n =>
    if buffer.length = n then .ok ({ d with buffer := [], expectedPayloadLen := none }, some buffer)
    else .ok ({ d with buffer }, none)
  | none =>
    if buffer.length < 4 then .ok ({ d with buffer }, none)
    else if fromBeBytes (buffer.take 4) = 0 then
      .error ({ d with buffer, poisoned := true }, .wireProtocolViolation)
    else if fromBeBytes (buffer.take 4) > d.maxFrameBytes then
      .error ({ d with buffer, poisoned := true },
        .frameTooLarge (fromBeBytes (buffer.take 4)) d.maxFrameBytes)
    else
      .ok ({ d with buffer := [], expectedPayloadLen := some (fromBeBytes (buffer.take 4)) }, none)

/-- the decoder reading one byte -/
def byteStep (d : NativeTcpFrameDecoder) (b : UInt8) :
    Except (NativeTcpFrameDecoder × FrameDecodeError)
      (NativeTcpFrameDecoder × Option (List UInt8)) :=
  settle d (d.buffer ++ [b])

/-- how long the buffer is to become: the prefix, or the payload it announced -/
def capacity (d : NativeTcpFrameDecoder) : Nat := d.expectedPayloadLen.getD 4

/-- the buffer is short of what it waits for, so every turn takes a byte and nothing underflows -/
structure Ready (d : NativeTcpFrameDecoder) : Prop where
  alive : d.poisoned = false
  short : d.buffer.length < capacity d

theorem ready_new (max : Nat) : Ready (NativeTcpFrameDecoder.new max) :=
  ⟨rfl, show 0 < 4 by omega⟩

variable {d d' : NativeTcpFrameDecoder}

theorem settle_short {buffer : List UInt8} (h : buffer.length < capacity d) :
    settle d buffer = .ok ({ d with buffer }, none) := by
  unfold settle
  unfold capacity at h
  cases hexp : d.expectedPayloadLen with
  | none =>
    rw [hexp] at h
    exact if_pos h
  | some n =>
    rw [hexp] at h
    have hne : buffer.length ≠ n := Nat.ne_of_lt h
    show (if buffer.length = n then _ else _) = _
    rw [if_neg hne]

theorem trace_fill {used : List UInt8} (hne : used ≠ [])
    (hfit : d.buffer.length + used.length ≤ capacity d) :
    trace byteStep d used = one (settle d (d.buffer ++ used)) := by
  induction used generalizing d with
  | nil => exact absurd rfl hne
  | cons b rest ih =>
    cases rest with
    | nil => exact trace_single byteStep d b
    | cons c rest =>
      have hshort : (d.buffer ++ [b]).length < capacity d := by
        simp only [List.length_append, List.length_cons, List.length_nil] at hfit ⊢
        omega
      have hstep : byteStep d b = .ok ({ d with buffer := d.buffer ++ [b] }, none) :=
        settle_short hshort
      rw [trace_cons_ok byteStep hstep]
      have hfit' : (d.buffer ++ [b]).length + (c :: rest).length ≤ capacity d := by
        simp only [List.length_append, List.length_cons, List.length_nil] at hfit ⊢
        omega
      have hrest := ih (d := { d with buffer := d.buffer ++ [b] }) (List.cons_ne_nil c rest) hfit'
      rw [hrest, List.append_assoc]
      rfl

theorem settle_ready {buffer : List UInt8} {out : Option (List UInt8)} (hd : Ready d)
    (hfit : buffer.length ≤ capacity d) (h : settle d buffer = .ok (d', out)) :
    Ready d' := by
  by_cases hshort : buffer.length < capacity d
  · rw [settle_short hshort] at h
    cases h
    exact ⟨hd.alive, hshort⟩
  · -- a full buffer: the frame is complete, or its length is known and positive
    unfold settle at h
    unfold capacity at hfit hshort
    cases hexp : d.expectedPayloadLen with
    | some n =>
      simp only [hexp, Option.getD_some] at hfit hshort h
      have hfull : buffer.length = n := by omega
      rw [if_pos hfull] at h
      cases h
      exact ⟨hd.alive, show 0 < 4 by omega⟩
    | none =>
      simp only [hexp, Option.getD_none] at hfit hshort h
      rw [if_neg hshort] at h
      by_cases hzero : fromBeBytes (buffer.take 4) = 0
      · rw [if_pos hzero] at h
        cases h
      rw [if_neg hzero] at h
      by_cases hlarge : fromBeBytes (buffer.take 4) > d.maxFrameBytes
      · rw [if_pos hlarge] at h
        cases h
      rw [if_neg hlarge] at h
      cases h
      exact ⟨hd.alive, Nat.pos_of_ne_zero hzero⟩

/-- the turn that follows from how the buffer settled -/
def turnOf (rest : List UInt8) : Except (NativeTcpFrameDecoder × FrameDecodeError)
    (NativeTcpFrameDecoder × Option (List UInt8)) → Turn
  | .error (d, e) => .fatal d e
  | .ok (d, frame) => .more d frame rest

theorem feedTurn_eq (h : d.buffer.length ≤ capacity d) (input : List UInt8) :
    feedTurn d input =
      .ok (turnOf (input.drop (min (capacity d - d.buffer.length) input.length))
        (settle d (d.buffer ++ input.take (min (capacity d - d.buffer.length) input.length)))) := by
  have hsub : usizeSub (capacity d) d.buffer.length = .ok (capacity d - d.buffer.length) :=
    if_pos h
  unfold feedTurn settle
  unfold capacity at hsub ⊢
  cases hexp : d.expectedPayloadLen with
  | some n =>
    simp only [hexp, Option.getD_some] at hsub ⊢
    rw [hsub]
    show (if _ then _ else _) = _
    split <;> rfl
  | none =>
    simp only [hexp, Option.getD_none] at hsub ⊢
    rw [hsub]
    show (if _ then _ else if _ then _ else if _ then _ else _) = _
    split_ifs <;> rfl

/-- a turn of the loop stops nowhere, and does with the bytes it takes what reading them one by one
does -/
theorem feedTurn_trace {input : List UInt8} (hd : Ready d) (hne : input ≠ []) :
    ∃ used rest, input = used ++ rest ∧ used ≠ [] ∧
      ((∃ d' e, feedTurn d input = .ok (.fatal d' e) ∧
          trace byteStep d used = ([], .error (d', e))) ∨
        ∃ d' frame, feedTurn d input = .ok (.more d' frame rest) ∧
          trace byteStep d used = (frame.toList, .ok d') ∧ Ready d') := by
  have hshort := hd.short
  have hpos : 0 < input.length := List.length_pos_iff.mpr hne
  have hturn := feedTurn_eq (Nat.le_of_lt hshort) input
  set k := min (capacity d - d.buffer.length) input.length with hk
  have hlen : (input.take k).length = k := by
    rw [List.length_take]
    omega
  have hused : input.take k ≠ [] := by
    intro hnil
    rw [hnil, List.length_nil] at hlen
    omega
  have hfit : (d.buffer ++ input.take k).length ≤ capacity d := by
    rw [List.length_append, hlen]
    omega
  have hfill := trace_fill (d := d) hused (by omega)
  refine ⟨input.take k, input.drop k, (List.take_append_drop k input).symm, hused, ?_⟩
  cases hsettle : settle d (d.buffer ++ input.take k) with
  | error p =>
    rw [hsettle] at hturn hfill
    exact .inl ⟨p.1, p.2, hturn, hfill⟩
  | ok p =>
    rw [hsettle] at hturn hfill
    exact .inr ⟨p.1, p.2, hturn, hfill, settle_ready hd hfit hsettle⟩

theorem feedLoop_trace {fuel : Nat} {frames : List (List UInt8)} {input : List UInt8} (hd : Ready d)
    (hfuel : input.length ≤ fuel) :
    feedLoop fuel d frames input =
      .ok (call (frames ++ (trace byteStep d input).1, (trace byteStep d input).2)) := by
  induction fuel generalizing d frames input with
  | zero =>
    have hnil : input = [] := List.length_eq_zero_iff.mp (by omega)
    subst hnil
    show Except.ok (d, Except.ok frames) = Except.ok (call (frames ++ [], Except.ok d))
    rw [List.append_nil]
    rfl
  | succ fuel ih =>
    cases input with
    | nil =>
      show Except.ok (d, Except.ok frames) = Except.ok (call (frames ++ [], Except.ok d))
      rw [List.append_nil]
      rfl
    | cons b input =>
      obtain ⟨used, rest, hsplit, hne, hcase⟩ := feedTurn_trace hd (List.cons_ne_nil b input)
      have hpos : 0 < used.length := List.length_pos_iff.mpr hne
      have hlen : (b :: input).length = used.length + rest.length := by
        rw [hsplit, List.length_append]
      rcases hcase with ⟨d', e, hturn, htrace⟩ | ⟨d', frame, hturn, htrace, hd'⟩
      · have hwhole := trace_append_error byteStep htrace rest
        rw [← hsplit] at hwhole
        rw [feedLoop, hturn, hwhole]
        rfl
      · have hwhole := trace_append byteStep htrace rest
        rw [← hsplit] at hwhole
        have hrest : feedLoop fuel d' (frames ++ frame.toList) rest = .ok (call
            ((frames ++ frame.toList) ++ (trace byteStep d' rest).1, (trace byteStep d' rest).2)) :=
          ih hd' (by omega)
        rw [hwhole, ← List.append_assoc, ← hrest, feedLoop, hturn]
        rfl

/-- `feed` on a decoder that waits for bytes: no subtraction underflows, the loop ends, and the call
hands over what reading the chunk byte after byte emits, or the failure it meets -/
theorem feed_trace (hd : Ready d) (bytes : List UInt8) :
    d.feed bytes = .ok (call (trace byteStep d bytes)) := by
  unfold NativeTcpFrameDecoder.feed
  rw [if_neg (by rw [hd.alive]; exact Bool.false_ne_true), feedLoop_trace hd (Nat.le_refl _)]
  rfl

theorem byteStep_ready {b : UInt8} {out : Option (List UInt8)} (hd : Ready d)
    (h : byteStep d b = .ok (d', out)) : Ready d' := by
  refine settle_ready hd ?_ h
  have hshort := hd.short
  rw [List.length_append, List.length_singleton]
  omega

theorem trace_ready {bytes : List UInt8} {out : List (List UInt8)} (hd : Ready d)
    (h : trace byteStep d bytes = (out, .ok d')) : Ready d' := by
  induction bytes generalizing d out with
  | nil =>
    cases h
    exact hd
  | cons b bytes ih =>
    rcases trace_cons_inv byteStep h with ⟨e, -, -, hr⟩ | ⟨d₁, o, out₁, hb, hrest, -⟩
    · cases hr
    · exact ih (byteStep_ready hd hb) hrest

end Sinan.Protocol
