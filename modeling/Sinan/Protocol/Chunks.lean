import Sinan.Protocol.Framing

/-!
# Frames in a stream that arrives in chunks

A stream of bytes is cut into chunks by the transport, and every chunk is one call of `feed`.  While
no length prefix is refused the cuts leave no mark: the calls together hand over the payloads in
order, and a truncated stream gives those of its complete frames (`stream_round_trip`).

A refused prefix ends the call it is met in, and the frames the same call had completed are lost with
it.  So what is delivered before the first error depends on the cuts exactly for the streams that
hold a complete frame in front of a refused prefix (`same_for_every_split_iff`).
-/

namespace Sinan.Protocol

open Sinan.Lib NativeTcpFrameDecoder

/-! ## the length prefix -/

variable {p payload frame : List UInt8}

theorem length_toBeBytes (n : Nat) : (toBeBytes n).length = 4 := rfl

theorem fromBeBytes_four (a b c d : UInt8) :
    fromBeBytes [a, b, c, d] =
      a.toNat * 2 ^ 24 + b.toNat * 2 ^ 16 + c.toNat * 2 ^ 8 + d.toNat := by
  simp only [fromBeBytes, List.foldl_cons, List.foldl_nil]
  omega

theorem fromBeBytes_toBeBytes {n : Nat} (h : n < 2 ^ 32) : fromBeBytes (toBeBytes n) = n := by
  unfold toBeBytes
  rw [fromBeBytes_four]
  simp only [UInt8.toNat_ofNat']
  omega

theorem toBeBytes_fromBeBytes (h : p.length = 4) :
    toBeBytes (fromBeBytes p) = p ∧ fromBeBytes p < 2 ^ 32 := by
  obtain ⟨a, b, c, d, rfl⟩ : ∃ a b c d, p = [a, b, c, d] := by
    match p, h with
    | [a, b, c, d], _ => exact ⟨a, b, c, d, rfl⟩
  have ha := a.toNat_lt
  have hb := b.toNat_lt
  have hc := c.toNat_lt
  have hd := d.toNat_lt
  rw [fromBeBytes_four]
  have hbyte : ∀ (x : UInt8) (n : Nat), n % 256 = x.toNat → UInt8.ofNat n = x := by
    intro x n hn
    apply UInt8.toNat_inj.mp
    rw [UInt8.toNat_ofNat']
    exact hn
  refine ⟨?_, by omega⟩
  unfold toBeBytes
  rw [hbyte a _ (by omega), hbyte b _ (by omega), hbyte c _ (by omega), hbyte d _ (by omega)]

theorem encode_ok {max : Nat} :
    encodeNativeTcpFrame payload max = .ok frame ↔
      payload ≠ [] ∧ payload.length ≤ max ∧ payload.length < 2 ^ 32 ∧
        frame = toBeBytes payload.length ++ payload := by
  simp only [encodeNativeTcpFrame, bind_ok, exists_unit, reject_ok, pure_ok, Nat.not_lt,
    Nat.not_le, ge_iff_le, gt_iff_lt, ne_eq, eq_comm (b := frame)]

/-! ## one frame -/

/-- a decoder that has read the prefix of a payload of length `n` and `part` of the payload -/
def awaiting (max n : Nat) (part : List UInt8) : NativeTcpFrameDecoder :=
  { maxFrameBytes := max, buffer := part, expectedPayloadLen := some n, poisoned := false }

variable {t : List UInt8} {max : Nat}

theorem trace_short_prefix {max : Nat} (h : t.length < 4) :
    trace byteStep (new max) t = ([], .ok { new max with buffer := t }) := by
  by_cases hne : t = []
  · subst hne
    rfl
  · have hfill := trace_fill (d := new max) hne (by show 0 + t.length ≤ 4; omega)
    have hsettle : settle (new max) ((new max).buffer ++ t) =
        .ok ({ new max with buffer := t }, none) := settle_short h
    rw [hfill, hsettle]
    rfl

theorem trace_head (max : Nat) (h : p.length = 4) :
    trace byteStep (new max) p =
      if fromBeBytes p = 0 then
        ([], .error ({ new max with buffer := p, poisoned := true }, .wireProtocolViolation))
      else if fromBeBytes p > max then
        ([], .error ({ new max with buffer := p, poisoned := true },
          .frameTooLarge (fromBeBytes p) max))
      else ([], .ok (awaiting max (fromBeBytes p) [])) := by
  have hne : p ≠ [] := by
    intro hnil
    rw [hnil, List.length_nil] at h
    omega
  have hfill := trace_fill (d := new max) hne (by show 0 + p.length ≤ 4; omega)
  have htake : p.take 4 = p := List.take_of_length_le (by omega)
  rw [hfill]
  show one (settle (new max) p) = _
  unfold settle
  show one (if p.length < 4 then _ else if fromBeBytes (p.take 4) = 0 then _
    else if fromBeBytes (p.take 4) > max then _ else _) = _
  rw [htake, if_neg (by omega)]
  split_ifs <;> rfl

theorem trace_payload {max n : Nat} (hn : 0 < n) (h : t.length ≤ n) :
    trace byteStep (awaiting max n []) t =
      if t.length = n then ([t], .ok (new max)) else ([], .ok (awaiting max n t)) := by
  by_cases hne : t = []
  · subst hne
    rw [if_neg (by rw [List.length_nil]; omega)]
    rfl
  · have hfill := trace_fill (d := awaiting max n []) hne (by show 0 + t.length ≤ n; omega)
    rw [hfill]
    show one (if t.length = n then _ else _) = _
    split_ifs <;> rfl

theorem trace_encoded_head (h : encodeNativeTcpFrame payload max = .ok frame) :
    trace byteStep (new max) (toBeBytes payload.length) =
      ([], .ok (awaiting max payload.length [])) := by
  obtain ⟨hne, hmax, hsmall, -⟩ := encode_ok.mp h
  have hpos : 0 < payload.length := List.length_pos_iff.mpr hne
  rw [trace_head max (length_toBeBytes _), fromBeBytes_toBeBytes hsmall, if_neg (by omega),
    if_neg (by omega)]

theorem trace_frame (h : encodeNativeTcpFrame payload max = .ok frame) :
    trace byteStep (new max) frame = ([payload], .ok (new max)) := by
  obtain ⟨hne, -, -, rfl⟩ := encode_ok.mp h
  have hpos : 0 < payload.length := List.length_pos_iff.mpr hne
  rw [trace_append byteStep (trace_encoded_head h), trace_payload hpos (Nat.le_refl _),
    if_pos rfl]
  rfl

theorem trace_part (h : encodeNativeTcpFrame payload max = .ok frame) (hpart : t <+: frame)
    (hless : t.length < frame.length) :
    ∃ d, trace byteStep (new max) t = ([], .ok d) ∧ (d.hasPendingFrame = true ↔ 0 < t.length) := by
  obtain ⟨hne, -, -, rfl⟩ := encode_ok.mp h
  have hpos : 0 < payload.length := List.length_pos_iff.mpr hne
  by_cases hfour : t.length < 4
  · refine ⟨_, trace_short_prefix hfour, ?_⟩
    cases t with
    | nil => exact ⟨fun hp => (nomatch hp), fun hp => absurd hp (by simp)⟩
    | cons b t => exact ⟨fun _ => Nat.succ_pos _, fun _ => rfl⟩
  · -- the prefix is complete, the payload is not
    obtain ⟨u, rfl⟩ : toBeBytes payload.length <+: t :=
      List.prefix_of_prefix_length_le (List.prefix_append _ _) hpart
        (by rw [length_toBeBytes]; omega)
    rw [List.length_append, List.length_append, length_toBeBytes] at hless
    have hshort : u.length < payload.length := by omega
    refine ⟨awaiting max payload.length u, ?_, fun _ => ?_, fun _ => ?_⟩
    · rw [trace_append byteStep (trace_encoded_head h),
        trace_payload hpos (Nat.le_of_lt hshort), if_neg (Nat.ne_of_lt hshort)]
      rfl
    · rw [List.length_append, length_toBeBytes]
      omega
    · show (_ || true) = true
      rw [Bool.or_true]

/-! ## whole streams -/

/-- the frames of the payloads, one after another -/
def Encoded (max : Nat) (payloads frames : List (List UInt8)) : Prop :=
  List.Forall₂ (fun payload frame => encodeNativeTcpFrame payload max = .ok frame) payloads frames

/-- how many of the frames are complete within the first `n` bytes of their stream -/
def completeIn : List (List UInt8) → Nat → Nat
  | [], _ => 0
  | frame :: frames, n =>
    if frame.length ≤ n then completeIn frames (n - frame.length) + 1 else 0

variable {payloads frames : List (List UInt8)}

theorem trace_frames (h : Encoded max payloads frames) :
    trace byteStep (new max) frames.flatten = (payloads, .ok (new max)) := by
  induction h with
  | nil => rfl
  | cons hframe _ ih =>
    rw [List.flatten_cons, trace_append byteStep (trace_frame hframe), ih]
    rfl

theorem trace_truncated (h : Encoded max payloads frames) {s : List UInt8}
    (hs : s <+: frames.flatten) :
    ∃ d, trace byteStep (new max) s = (payloads.take (completeIn frames s.length), .ok d) ∧
      (d.hasPendingFrame = true ↔
        (frames.take (completeIn frames s.length)).flatten.length < s.length) := by
  induction h generalizing s with
  | nil =>
    have hnil : s = [] := List.prefix_nil.mp hs
    subst hnil
    exact ⟨new max, rfl, fun hp => (nomatch hp), fun hp => absurd hp (by simp)⟩
  | @cons payload frame payloads frames hframe _ ih =>
    rw [List.flatten_cons] at hs
    by_cases hwhole : frame.length ≤ s.length
    · obtain ⟨u, rfl⟩ : frame <+: s :=
        List.prefix_of_prefix_length_le (List.prefix_append _ _) hs hwhole
      have hu : u <+: frames.flatten := (List.prefix_append_right_inj frame).mp hs
      obtain ⟨d, htrace, hpending⟩ := ih hu
      have hcount : completeIn (frame :: frames) (frame ++ u).length =
          completeIn frames u.length + 1 := by
        rw [completeIn, if_pos hwhole, List.length_append, Nat.add_sub_cancel_left]
      refine ⟨d, ?_, ?_⟩
      · rw [hcount, trace_append byteStep (trace_frame hframe), htrace]
        rfl
      · rw [hcount, hpending, List.take_succ_cons, List.flatten_cons, List.length_append,
          List.length_append]
        omega
    · have hcount : completeIn (frame :: frames) s.length = 0 := if_neg hwhole
      have hpart : s <+: frame :=
        List.prefix_of_prefix_length_le hs (List.prefix_append _ _) (by omega)
      obtain ⟨d, htrace, hpending⟩ := trace_part hframe hpart (by omega)
      rw [hcount]
      exact ⟨d, htrace, hpending⟩

variable {d : NativeTcpFrameDecoder} {chunks out : List (List UInt8)} {d' : NativeTcpFrameDecoder}

theorem feedAll_read (hd : Ready d) (h : trace byteStep d chunks.flatten = (out, .ok d')) :
    ∃ batches : List (List (List UInt8)),
      feedAll d chunks = .ok (d', batches.map .ok) ∧ batches.flatten = out := by
  induction chunks generalizing d out with
  | nil =>
    cases h
    exact ⟨[], rfl, rfl⟩
  | cons chunk chunks ih =>
    rw [List.flatten_cons] at h
    cases hchunk : trace byteStep d chunk with
    | mk out₁ r =>
      cases r with
      | error e => rw [trace_append_error byteStep hchunk] at h; cases h
      | ok d₁ =>
        rw [trace_append byteStep hchunk] at h
        cases hrest : trace byteStep d₁ chunks.flatten with
        | mk out₂ r₂ =>
          rw [hrest] at h
          cases h
          obtain ⟨batches, hfeed, hflat⟩ := ih (trace_ready hd hchunk) hrest
          refine ⟨out₁ :: batches, ?_, by rw [List.flatten_cons, hflat]⟩
          rw [feedAll, feed_trace hd, hchunk]
          show (feedAll d₁ chunks >>= _) = _
          rw [hfeed]
          rfl

theorem feedAll_poisoned (hd : d.poisoned = true) (chunks : List (List UInt8)) :
    feedAll d chunks = .ok (d, chunks.map fun _ => .error .poisoned) := by
  induction chunks with
  | nil => rfl
  | cons chunk chunks ih =>
    have hfeed : d.feed chunk = .ok (d, .error .poisoned) := if_pos hd
    rw [feedAll, hfeed]
    show (feedAll d chunks >>= _) = _
    rw [ih]
    rfl

theorem trace_error_poisons {e : FrameDecodeError} {bytes : List UInt8}
    (h : trace byteStep d bytes = (out, .error (d', e))) : d'.poisoned = true := by
  induction bytes generalizing d out with
  | nil => cases h
  | cons b bytes ih =>
    rcases trace_cons_inv byteStep h with ⟨p, hb, -, hr⟩ | ⟨d₁, o, out₁, -, hrest, -⟩
    · cases hr
      unfold byteStep settle at hb
      split at hb
      · split at hb <;> cases hb
      · split_ifs at hb <;> cases hb <;> rfl
    · exact ih hrest

theorem feedAll_fails {e : FrameDecodeError} (hd : Ready d)
    (h : trace byteStep d chunks.flatten = (out, .error (d', e))) :
    ∃ results, feedAll d chunks = .ok (d', results) ∧ framesBeforeError results <+: out := by
  induction chunks generalizing d out with
  | nil => cases h
  | cons chunk chunks ih =>
    rw [List.flatten_cons] at h
    cases hchunk : trace byteStep d chunk with
    | mk out₁ r =>
      cases r with
      | error p =>
        rw [trace_append_error byteStep hchunk] at h
        cases h
        have hrest := feedAll_poisoned (trace_error_poisons hchunk) chunks
        refine ⟨.error e :: chunks.map fun _ => .error .poisoned, ?_, List.nil_prefix⟩
        rw [feedAll, feed_trace hd, hchunk]
        show (feedAll d' chunks >>= _) = _
        rw [hrest]
        rfl
      | ok d₁ =>
        rw [trace_append byteStep hchunk] at h
        cases hrest : trace byteStep d₁ chunks.flatten with
        | mk out₂ r₂ =>
          rw [hrest] at h
          cases h
          obtain ⟨results, hfeed, hpart⟩ := ih (trace_ready hd hchunk) hrest
          refine ⟨.ok out₁ :: results, ?_, (List.prefix_append_right_inj out₁).mpr hpart⟩
          rw [feedAll, feed_trace hd, hchunk]
          show (feedAll d₁ chunks >>= _) = _
          rw [hfeed]
          rfl

theorem feedAll_total (max : Nat) (chunks : List (List UInt8)) :
    ∃ r, feedAll (new max) chunks = .ok r := by
  cases h : trace byteStep (new max) chunks.flatten with
  | mk out r =>
    cases r with
    | ok d =>
      obtain ⟨batches, hfeed, -⟩ := feedAll_read (ready_new max) h
      exact ⟨_, hfeed⟩
    | error p =>
      obtain ⟨results, hfeed, -⟩ := feedAll_fails (ready_new max) h
      exact ⟨_, hfeed⟩

/-- **Frames survive every chunking.**  The calls on a chunked stream of frames never fail and hand
over the payloads in order, with nothing pending at the end; those on a truncated stream hand over
the payloads of the complete frames, with something pending exactly when bytes of another frame were
read.  No call on any stream underflows. -/
theorem stream_round_trip (max : Nat) (payloads frames chunks : List (List UInt8))
    (hframes : Encoded max payloads frames) :
    (chunks.flatten = frames.flatten →
      ∃ (d : NativeTcpFrameDecoder) (batches : List (List (List UInt8))),
        feedAll (new max) chunks = .ok (d, batches.map .ok) ∧ batches.flatten = payloads ∧
        d.hasPendingFrame = false) ∧
    (chunks.flatten <+: frames.flatten →
      ∃ (d : NativeTcpFrameDecoder) (batches : List (List (List UInt8))),
        feedAll (new max) chunks = .ok (d, batches.map .ok) ∧
        batches.flatten = payloads.take (completeIn frames chunks.flatten.length) ∧
        (d.hasPendingFrame = true ↔
          (frames.take (completeIn frames chunks.flatten.length)).flatten.length <
            chunks.flatten.length)) ∧
    ∀ stream : List (List UInt8), ∃ r, feedAll (new max) stream = .ok r := by
  refine ⟨fun hall => ?_, fun hpart => ?_, feedAll_total max⟩
  · have htrace := trace_frames hframes
    rw [← hall] at htrace
    obtain ⟨batches, hfeed, hflat⟩ := feedAll_read (ready_new max) htrace
    exact ⟨new max, batches, hfeed, hflat, rfl⟩
  · obtain ⟨d, htrace, hpending⟩ := trace_truncated hframes hpart
    obtain ⟨batches, hfeed, hflat⟩ := feedAll_read (ready_new max) htrace
    exact ⟨d, batches, hfeed, hflat, hpending⟩

/-- two frames, cut inside the first prefix and inside the second payload -/
theorem stream_round_trip_two_frames :
    ∃ (d : NativeTcpFrameDecoder) (batches : List (List (List UInt8))),
      feedAll (new 8) [[0, 0], [0, 2, 7, 8, 0, 0, 0, 3, 1], [], [2, 3]] =
        .ok (d, batches.map .ok) ∧ batches.flatten = [[7, 8], [1, 2, 3]] ∧
      d.hasPendingFrame = false :=
  (stream_round_trip 8 [[7, 8], [1, 2, 3]] [[0, 0, 0, 2, 7, 8], [0, 0, 0, 3, 1, 2, 3]]
    [[0, 0], [0, 2, 7, 8, 0, 0, 0, 3, 1], [], [2, 3]]
    (.cons rfl (.cons rfl .nil))).1 rfl

/-! ## a refused prefix -/

theorem trace_shape (max : Nat) (s : List UInt8) :
    ∃ payloads frames tail, Encoded max payloads frames ∧ s = frames.flatten ++ tail ∧
      ((∃ d, trace byteStep (new max) s = (payloads, .ok d)) ∨
        ∃ p rest d e, tail = p ++ rest ∧ p.length = 4 ∧
          (fromBeBytes p = 0 ∨ fromBeBytes p > max) ∧
          trace byteStep (new max) s = (payloads, .error (d, e))) := by
  induction hn : s.length using Nat.strongRecOn generalizing s with
  | ind n ih =>
    by_cases hfour : s.length < 4
    · exact ⟨[], [], s, .nil, rfl, .inl ⟨_, trace_short_prefix hfour⟩⟩
    obtain ⟨p, rest, hp, rfl⟩ : ∃ p rest, p.length = 4 ∧ s = p ++ rest :=
      ⟨s.take 4, s.drop 4, by rw [List.length_take]; omega, (List.take_append_drop 4 s).symm⟩
    have hrefused := trace_head max hp
    by_cases hzero : fromBeBytes p = 0
    · rw [if_pos hzero] at hrefused
      exact ⟨[], [], p ++ rest, .nil, rfl, .inr ⟨p, rest, _, _, rfl, hp, .inl hzero,
        trace_append_error byteStep hrefused _⟩⟩
    rw [if_neg hzero] at hrefused
    by_cases hlarge : fromBeBytes p > max
    · rw [if_pos hlarge] at hrefused
      exact ⟨[], [], p ++ rest, .nil, rfl, .inr ⟨p, rest, _, _, rfl, hp, .inr hlarge,
        trace_append_error byteStep hrefused _⟩⟩
    rw [if_neg hlarge] at hrefused
    obtain ⟨hback, hsmall⟩ := toBeBytes_fromBeBytes hp
    have hpos := Nat.pos_of_ne_zero hzero
    by_cases hrest : rest.length < fromBeBytes p
    · -- the payload is incomplete
      refine ⟨[], [], p ++ rest, .nil, rfl, .inl ⟨awaiting max (fromBeBytes p) rest, ?_⟩⟩
      rw [trace_append byteStep hrefused, trace_payload hpos (Nat.le_of_lt hrest),
        if_neg (Nat.ne_of_lt hrest)]
      rfl
    · -- a complete frame; the rest of the stream is shorter
      obtain ⟨payload, u, hlen, rfl⟩ :
          ∃ payload u, payload.length = fromBeBytes p ∧ rest = payload ++ u :=
        ⟨rest.take (fromBeBytes p), rest.drop (fromBeBytes p),
          by rw [List.length_take]; omega, (List.take_append_drop _ rest).symm⟩
      have hencode : encodeNativeTcpFrame payload max = .ok (p ++ payload) := by
        refine encode_ok.mpr ⟨?_, by omega, by omega, by rw [hlen, hback]⟩
        intro hnil
        rw [hnil, List.length_nil] at hlen
        omega
      have hshorter : u.length < n := by
        rw [← hn, List.length_append, List.length_append, hp]
        omega
      obtain ⟨payloads, frames, tail, hframes, rfl, hcase⟩ := ih u.length hshorter u rfl
      refine ⟨payload :: payloads, (p ++ payload) :: frames, tail, .cons hencode hframes, ?_, ?_⟩
      · simp only [List.flatten_cons, List.append_assoc]
      · have hwhole := trace_append byteStep (trace_frame hencode) (frames.flatten ++ tail)
        rw [List.append_assoc] at hwhole
        rcases hcase with ⟨d, htrace⟩ | ⟨p', rest', d, e, htail, hp', hbad, htrace⟩
        · exact .inl ⟨d, by rw [hwhole, htrace]; rfl⟩
        · exact .inr ⟨p', rest', d, e, htail, hp', hbad, by rw [hwhole, htrace]; rfl⟩

/-- the frames that reach the caller of `feed` before its first error -/
def delivered (max : Nat) (chunks : List (List UInt8)) : List (List UInt8) :=
  match feedAll (new max) chunks with
  | .ok (_, results) => framesBeforeError results
  | .error _ => []

/-- the stream delivers the same frames however it is cut -/
def SameForEverySplit (max : Nat) (s : List UInt8) : Prop :=
  ∀ chunks chunks' : List (List UInt8), chunks.flatten = s → chunks'.flatten = s →
    delivered max chunks = delivered max chunks'

/-- one or more complete frames, then a length prefix that is zero or over the limit -/
def BadPrefixAfterFrame (max : Nat) (s : List UInt8) : Prop :=
  ∃ payloads frames p rest, payloads ≠ [] ∧ Encoded max payloads frames ∧ p.length = 4 ∧
    (fromBeBytes p = 0 ∨ fromBeBytes p > max) ∧ s = frames.flatten ++ (p ++ rest)

theorem framesBeforeError_ok (batches : List (List (List UInt8)))
    (results : List (Except FrameDecodeError (List (List UInt8)))) :
    framesBeforeError (batches.map .ok ++ results) =
      batches.flatten ++ framesBeforeError results := by
  induction batches with
  | nil => rfl
  | cons batch batches ih =>
    show batch ++ framesBeforeError (batches.map .ok ++ results) = _
    rw [ih, List.flatten_cons, List.append_assoc]

theorem delivered_read (h : trace byteStep (new max) chunks.flatten = (out, .ok d)) :
    delivered max chunks = out := by
  obtain ⟨batches, hfeed, hflat⟩ := feedAll_read (ready_new max) h
  have hframes := framesBeforeError_ok batches []
  rw [List.append_nil, hflat] at hframes
  simp only [delivered, hfeed, hframes, framesBeforeError, List.append_nil]

theorem delivered_fails {p : NativeTcpFrameDecoder × FrameDecodeError}
    (h : trace byteStep (new max) chunks.flatten = (out, .error p)) :
    delivered max chunks <+: out := by
  obtain ⟨results, hfeed, hpart⟩ := feedAll_fails (ready_new max) h
  simp only [delivered, hfeed]
  exact hpart

theorem trace_refused (hp : p.length = 4) (hbad : fromBeBytes p = 0 ∨ fromBeBytes p > max)
    (rest : List UInt8) :
    ∃ e, trace byteStep (new max) (p ++ rest) = ([], .error e) := by
  have hrefused := trace_head max hp
  by_cases hzero : fromBeBytes p = 0
  · rw [if_pos hzero] at hrefused
    exact ⟨_, trace_append_error byteStep hrefused _⟩
  · rw [if_neg hzero, if_pos (hbad.resolve_left hzero)] at hrefused
    exact ⟨_, trace_append_error byteStep hrefused _⟩

theorem delivered_coalesced {rest : List UInt8} (hframes : Encoded max payloads frames)
    (hp : p.length = 4) (hbad : fromBeBytes p = 0 ∨ fromBeBytes p > max) :
    delivered max [frames.flatten ++ (p ++ rest)] = [] := by
  obtain ⟨⟨d, e⟩, htail⟩ := trace_refused hp hbad rest
  have htrace := trace_append byteStep (trace_frames hframes) (p ++ rest)
  rw [htail] at htrace
  have hfeed : (new max).feed (frames.flatten ++ (p ++ rest)) = .ok (d, .error e) := by
    rw [feed_trace (ready_new max), htrace]
    rfl
  simp only [delivered, feedAll, hfeed]
  rfl

theorem delivered_apart {rest : List UInt8} (hframes : Encoded max payloads frames)
    (hp : p.length = 4) (hbad : fromBeBytes p = 0 ∨ fromBeBytes p > max) :
    delivered max [frames.flatten, p ++ rest] = payloads := by
  obtain ⟨⟨d, e⟩, htail⟩ := trace_refused hp hbad rest
  have hfirst : (new max).feed frames.flatten = .ok (new max, .ok payloads) := by
    rw [feed_trace (ready_new max), trace_frames hframes]
    rfl
  have hsecond : (new max).feed (p ++ rest) = .ok (d, .error e) := by
    rw [feed_trace (ready_new max), htail]
    rfl
  have hall : feedAll (new max) [frames.flatten, p ++ rest] =
      .ok (d, [.ok payloads, .error e]) := by
    rw [feedAll, hfirst]
    show (feedAll (new max) [p ++ rest] >>= _) = _
    rw [feedAll, hsecond]
    rfl
  simp only [delivered, hall, framesBeforeError, List.append_nil]

/-- **What is delivered depends on the cuts** exactly for the streams with a complete frame in front
of a refused prefix. -/
theorem same_for_every_split_iff (max : Nat) (s : List UInt8) :
    SameForEverySplit max s ↔ ¬ BadPrefixAfterFrame max s := by
  constructor
  · rintro hsame ⟨payloads, frames, p, rest, hne, hframes, hp, hbad, rfl⟩
    have hcuts := hsame [frames.flatten ++ (p ++ rest)] [frames.flatten, p ++ rest]
      (by simp) (by simp)
    rw [delivered_coalesced hframes hp hbad, delivered_apart hframes hp hbad] at hcuts
    exact hne hcuts.symm
  · intro hgood chunks chunks' hchunks hchunks'
    obtain ⟨payloads, frames, tail, hframes, hs, hcase⟩ := trace_shape max s
    rcases hcase with ⟨d, htrace⟩ | ⟨p, rest, d, e, htail, hp, hbad, htrace⟩
    · have hone := htrace
      rw [← hchunks] at hone
      rw [← hchunks'] at htrace
      rw [delivered_read hone, delivered_read htrace]
    · -- nothing is complete in front of the refused prefix, so nothing is delivered at all
      have hnone : payloads = [] := by
        by_contra hne
        exact hgood ⟨payloads, frames, p, rest, hne, hframes, hp, hbad, by rw [hs, htail]⟩
      subst hnone
      have hone := htrace
      rw [← hchunks] at hone
      rw [← hchunks'] at htrace
      rw [List.prefix_nil.mp (delivered_fails hone), List.prefix_nil.mp (delivered_fails htrace)]

/-- the frame `[7]` and a zero length: lost in one read, delivered in two -/
theorem coalesced_frame_lost :
    ¬ ∀ (max : Nat) (s : List UInt8), SameForEverySplit max s := by
  intro hall
  have hcuts := hall 8 [0, 0, 0, 1, 7, 0, 0, 0, 0] [[0, 0, 0, 1, 7, 0, 0, 0, 0]]
    [[0, 0, 0, 1, 7], [0, 0, 0, 0]] rfl rfl
  have hlost : delivered 8 [[0, 0, 0, 1, 7, 0, 0, 0, 0]] = [] := by decide
  have hkept : delivered 8 [[0, 0, 0, 1, 7], [0, 0, 0, 0]] = [[7]] := by decide
  rw [hlost, hkept] at hcuts
  exact absurd hcuts (List.cons_ne_nil _ _).symm

end Sinan.Protocol
