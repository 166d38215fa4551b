import Sinan.Inbound.Durability

/-!
# The order a session's messages are claimed in

The queue hands out the pending row of the least `(received_at, message_id)`.  A message of a session
that is admitted with a key above those of the session's waiting messages joins the end of their line;
the line then moves only at its head, so the session is served in the order of its sequence numbers.
A message that arrives in the same millisecond as one that still waits, with a smaller message id,
overtakes it.
-/

set_option linter.unusedSectionVars false

namespace Sinan.Inbound

open Lib Store

section
variable {P : Type} {codec : EnvelopeCodec P} {W : Type} [DecidableEq P]
variable {world : RecoveryWorld codec W} {call : InboundCall P W} {s : SessionId}
variable {a b : NewInboundAdmission P} {rest : List (NewInboundAdmission P)}

/-- what pending rows are ordered by -/
def queueKey (a : NewInboundAdmission P) : Int ×ₗ MessageId := toLex (a.receivedAt, a.messageId)

/-- the message is stored and has not been claimed -/
def Waits (t : InboundTables codec) (a : NewInboundAdmission P) : Prop :=
  ∃ row, t.admissions.get a.messageId = some row ∧ row.status = .pending ∧
    row.toNewInboundAdmission = a

/-! ## what a transaction does to the line -/

variable {t : InboundTables codec} {row changed : StoredInboundAdmission P}

theorem waits_of_pending (h : t.admissions.get row.messageId = some row)
    (hstatus : row.status = .pending) :
    Waits t row.toNewInboundAdmission :=
  ⟨row, h, hstatus, rfl⟩

theorem waits_insert {t' : InboundTables codec}
    (h : t.admissions.insert (pendingRow a) = some t'.admissions) :
    Waits t' b ↔ b = a ∨ Waits t b := by
  unfold Waits
  rw [Table.get_insert h, pendingRow_messageId]
  by_cases hm : a.messageId = b.messageId
  · rw [if_pos hm]
    constructor
    · rintro ⟨row, hrow, -, rfl⟩
      cases hrow
      exact .inl rfl
    · rintro (rfl | ⟨row, hrow, -⟩)
      · exact ⟨pendingRow b, rfl, rfl, rfl⟩
      · have hfresh := Table.insert_fresh h
        rw [pendingRow_messageId, hm, hrow] at hfresh
        cases hfresh
  · rw [if_neg hm]
    constructor
    · exact fun hrow => .inr hrow
    · rintro (rfl | hrow)
      · exact absurd rfl hm
      · exact hrow

theorem waits_rewritten {t' : InboundTables codec} (h : Rewritten t t' row changed)
    (hchanged : changed.status ≠ .pending) :
    Waits t' b ↔ Waits t b ∧ row.messageId ≠ b.messageId := by
  unfold Waits
  rw [h.get]
  by_cases hm : row.messageId = b.messageId
  · rw [if_pos hm]
    constructor
    · rintro ⟨x, hx, hstatus, -⟩
      cases hx
      exact absurd hstatus hchanged
    · exact fun hrow => absurd hm hrow.2
  · rw [if_neg hm]
    exact ⟨fun hrow => ⟨hrow, hm⟩, fun hrow => hrow.1⟩

theorem waits_apart (h : t.admissions.get row.messageId = some row)
    (hstatus : row.status = .processing) (hb : Waits t b) : row.messageId ≠ b.messageId := by
  obtain ⟨x, hx, hpending, -⟩ := hb
  intro hm
  rw [← hm, h] at hx
  cases hx
  rw [hstatus] at hpending
  cases hpending

/-! ## the line of a session -/

/-- the messages of the session that wait, in the order of their keys -/
structure Line (s : SessionId) (world : RecoveryWorld codec W)
    (rest : List (NewInboundAdmission P)) : Prop where
  grow : rest.Pairwise fun x y => queueKey x < queueKey y
  waits : ∀ a, a ∈ rest ↔ a.sessionId = s ∧ Waits world.tables a

/-- the session's message the call added -/
def joined (s : SessionId) (world : RecoveryWorld codec W) (call : InboundCall P W) :
    List (NewInboundAdmission P) :=
  (acceptedBy world call).toList.filter fun a => a.sessionId == s

/-- the session's message the call was the first to claim -/
def firstClaimed (s : SessionId) (world : RecoveryWorld codec W) (call : InboundCall P W) :
    List (NewInboundAdmission P) :=
  match call with
  | .claim _ =>
    ((claimedBy world call).toList.map fun row => row.toNewInboundAdmission).filter
      fun a => a.sessionId == s
  | _ => []

theorem filter_session (a : NewInboundAdmission P) :
    ([a].filter fun x => x.sessionId == s) = if a.sessionId = s then [a] else [] := by
  by_cases hs : a.sessionId = s
  · rw [if_pos hs, List.filter_cons, if_pos (beq_iff_eq.mpr hs), List.filter_nil]
  · rw [if_neg hs, List.filter_cons, if_neg (fun h => hs (beq_iff_eq.mp h)), List.filter_nil]

variable {world' : RecoveryWorld codec W}

theorem line_joined (hline : Line s world rest)
    (h : world.tables.admissions.insert (pendingRow a) = some world'.tables.admissions)
    (hkey : a.sessionId = s → ∀ x ∈ rest, queueKey x < queueKey a) :
    Line s world' (rest ++ if a.sessionId = s then [a] else []) := by
  by_cases hs : a.sessionId = s
  · rw [if_pos hs]
    refine ⟨?_, fun b => ?_⟩
    · rw [List.pairwise_append]
      refine ⟨hline.grow, List.pairwise_singleton _ _, fun x hx y hy => ?_⟩
      rw [List.mem_singleton.mp hy]
      exact hkey hs x hx
    · rw [List.mem_append, List.mem_singleton, hline.waits, waits_insert h]
      constructor
      · rintro (⟨hb, hwaits⟩ | rfl)
        · exact ⟨hb, .inr hwaits⟩
        · exact ⟨hs, .inl rfl⟩
      · rintro ⟨hb, rfl | hwaits⟩
        · exact .inr rfl
        · exact .inl ⟨hb, hwaits⟩
  · rw [if_neg hs, List.append_nil]
    refine ⟨hline.grow, fun b => ?_⟩
    rw [hline.waits, waits_insert h]
    constructor
    · exact fun hb => ⟨hb.1, .inr hb.2⟩
    · rintro ⟨hb, rfl | hwaits⟩
      · exact absurd hb hs
      · exact ⟨hb, hwaits⟩

theorem line_claim (hline : Line s world rest)
    (hfound : fetchNextInboundPending world.tables = some row)
    (h : Rewritten world.tables world'.tables row changed) (hchanged : changed.status ≠ .pending) :
    ∃ rest', rest = (if row.sessionId = s then [row.toNewInboundAdmission] else []) ++ rest' ∧
      Line s world' rest' := by
  by_cases hs : row.sessionId = s
  · have hrow : row.toNewInboundAdmission ∈ rest :=
      (hline.waits _).mpr ⟨hs, waits_of_pending h.found (pending_of_next hfound)⟩
    have hleast : ∀ x ∈ rest, queueKey row.toNewInboundAdmission ≤ queueKey x := by
      intro x hx
      obtain ⟨-, y, hy, hstatus, rfl⟩ := (hline.waits x).mp hx
      have hmem : y ∈ world.tables.admissions.rows.filter fun a => a.status == .pending :=
        List.mem_filter.mpr ⟨(Table.get_eq_some.mp hy).1, beq_iff_eq.mpr hstatus⟩
      have hle := sortBy_head_le hfound hmem
      exact hle
    obtain ⟨rest', rfl⟩ := head_of_least hline.grow hrow hleast
    refine ⟨rest', by rw [if_pos hs]; rfl, (List.pairwise_cons.mp hline.grow).2, fun b => ?_⟩
    have hapart := (List.pairwise_cons.mp hline.grow).1
    have hmem := hline.waits b
    rw [List.mem_cons] at hmem
    rw [waits_rewritten h hchanged, ← and_assoc, ← hmem]
    constructor
    · intro hb
      refine ⟨.inr hb, fun hm => ?_⟩
      -- the same message waits once only
      obtain ⟨-, x, hx, -, hxb⟩ := (hline.waits b).mp (List.mem_cons_of_mem _ hb)
      rw [← hm, h.found] at hx
      cases hx
      have hlt := hapart b hb
      rw [hxb] at hlt
      exact absurd hlt (lt_irrefl _)
    · rintro ⟨rfl | hb, hm⟩
      · exact absurd rfl hm
      · exact hb
  · refine ⟨rest, by rw [if_neg hs]; rfl, hline.grow, fun b => ?_⟩
    rw [hline.waits, waits_rewritten h hchanged]
    constructor
    · rintro ⟨hb, hwaits⟩
      refine ⟨hb, hwaits, fun hm => ?_⟩
      obtain ⟨x, hx, -, rfl⟩ := hwaits
      rw [← hm, h.found] at hx
      cases hx
      exact hs hb
    · rintro ⟨hb, hwaits, -⟩
      exact ⟨hb, hwaits⟩

theorem line_rewritten (hline : Line s world rest)
    (h : Rewritten world.tables world'.tables row changed) (hstatus : row.status = .processing)
    (hchanged : changed.status ≠ .pending) :
    Line s world' rest := by
  refine ⟨hline.grow, fun b => ?_⟩
  rw [hline.waits, waits_rewritten h hchanged]
  constructor
  · exact fun hb => ⟨hb.1, hb.2, waits_apart h.found hstatus hb.2⟩
  · exact fun hb => ⟨hb.1, hb.2.1⟩

theorem firstClaimed_none (h : claimedBy world call = none) : firstClaimed s world call = [] := by
  cases call with
  | claim claim => simp only [firstClaimed, h, Option.toList_none, List.map_nil, List.filter_nil]
  | _ => rfl

/-- one transaction: what joins goes to the end of the line, what is claimed first comes from its
head -/
theorem line_step (hline : Line s world rest)
    (hkey : ∀ a, acceptedBy world call = some a → a.sessionId = s →
      ∀ x ∈ rest, queueKey x < queueKey a) :
    ∃ rest', rest ++ joined s world call = firstClaimed s world call ++ rest' ∧
      Line s (inboundStep world call) rest' := by
  unfold joined
  cases inboundStep_effect world call with
  | still hclaimed hfinished haccepted hrows =>
    refine ⟨rest, ?_, hline.grow, fun b => ?_⟩
    · rw [firstClaimed_none hclaimed, haccepted]
      exact List.append_nil rest
    · rw [hline.waits]
      unfold Waits
      rw [hrows]
  | admitted a hclaimed hfinished haccepted hcall hinsert =>
    refine ⟨_, ?_, line_joined hline hinsert (hkey a haccepted)⟩
    rw [firstClaimed_none hclaimed, haccepted, Option.toList_some, filter_session]
    rfl
  | claimed workerId claimedAt lease row hclaimed hfinished haccepted hsource htaken =>
    have hchanged : (claimedRow row workerId claimedAt lease).status ≠ .pending := nofun
    rw [haccepted]
    cases hsource with
    | first hfound =>
      obtain ⟨rest', hrest, hline'⟩ := line_claim hline hfound htaken hchanged
      refine ⟨rest', ?_, hline'⟩
      simp only [firstClaimed, hclaimed, Option.toList_some, List.map_cons, List.map_nil,
        Option.toList_none, List.filter_nil, List.append_nil]
      rw [filter_session]
      exact hrest
    | again hfound =>
      exact ⟨rest, List.append_nil rest,
        line_rewritten hline htaken (processing_of_expired hfound) hchanged⟩
  | finished finish error row hclaimed hfinished haccepted hcall hdone =>
    have hchanged : (finishedRow row finish.finishedAt error).status ≠ .pending := by
      rcases finishedRow_final row finish.finishedAt error with h | h <;> rw [h] <;> exact nofun
    refine ⟨rest, ?_, line_rewritten hline hdone.rewritten hdone.status hchanged⟩
    rw [firstClaimed_none hclaimed, haccepted]
    exact List.append_nil rest

/-! ## whole runs -/

/-- a message is admitted on the session above the sequences and not before the times of those there -/
def InSequence (s : SessionId) (world : RecoveryWorld codec W) (call : InboundCall P W) : Prop :=
  ∀ a ∈ joined s world call, ∀ x ∈ world.tables.admissions.rows, x.sessionId = s →
    x.sequence < a.sequence ∧ x.receivedAt ≤ a.receivedAt

/-- no message of the session that still waits was received in the same millisecond as the new one
and has a greater id -/
def Untied (s : SessionId) (world : RecoveryWorld codec W) (call : InboundCall P W) : Prop :=
  ∀ a ∈ joined s world call, ∀ x ∈ world.tables.admissions.rows, x.sessionId = s →
    x.status = .pending → ¬ (x.receivedAt = a.receivedAt ∧ a.messageId < x.messageId)

instance (s : SessionId) (world : RecoveryWorld codec W) (call : InboundCall P W) :
    Decidable (InSequence s world call) :=
  inferInstanceAs (Decidable (∀ a ∈ joined s world call, _))

instance (s : SessionId) (world : RecoveryWorld codec W) (call : InboundCall P W) :
    Decidable (Untied s world call) :=
  inferInstanceAs (Decidable (∀ a ∈ joined s world call, _))

/-- the session's messages in the order they were admitted -/
def admittedLog (codec : EnvelopeCodec P) (business : W) (s : SessionId)
    (calls : List (InboundCall P W)) : List (NewInboundAdmission P) :=
  emitted inboundStep (joined s) (RecoveryWorld.initial codec business) calls

/-- the session's messages in the order `claim_next_inbound` claimed them first -/
def claimedLog (codec : EnvelopeCodec P) (business : W) (s : SessionId)
    (calls : List (InboundCall P W)) : List (NewInboundAdmission P) :=
  emitted inboundStep (firstClaimed s) (RecoveryWorld.initial codec business) calls

theorem accepted_fresh (h : acceptedBy world call = some a) :
    world.tables.admissions.get a.messageId = none := by
  cases inboundStep_effect world call with
  | still hclaimed hfinished haccepted =>
    rw [haccepted] at h
    cases h
  | admitted b hclaimed hfinished haccepted hcall hinsert =>
    rw [haccepted] at h
    cases h
    exact Table.insert_fresh hinsert
  | claimed workerId claimedAt lease row hclaimed hfinished haccepted =>
    rw [haccepted] at h
    cases h
  | finished finish error row hclaimed hfinished haccepted =>
    rw [haccepted] at h
    cases h

theorem mem_joined : a ∈ joined s world call ↔ acceptedBy world call = some a ∧ a.sessionId = s := by
  unfold joined
  rw [List.mem_filter, Option.mem_toList, beq_iff_eq]

theorem key_above (hline : Line s world rest) (hsequence : InSequence s world call)
    (huntied : Untied s world call) (ha : acceptedBy world call = some a) (hs : a.sessionId = s) :
    ∀ x ∈ rest, queueKey x < queueKey a := by
  intro x hx
  obtain ⟨hxs, row, hrow, hstatus, rfl⟩ := (hline.waits x).mp hx
  have hmem := (Table.get_eq_some.mp hrow).1
  have hjoined := mem_joined.mpr ⟨ha, hs⟩
  obtain ⟨-, htime⟩ := hsequence a hjoined row hmem hxs
  have hfree := huntied a hjoined row hmem hxs hstatus
  have hne : row.messageId ≠ a.messageId := by
    intro hm
    rw [hm, accepted_fresh ha] at hrow
    cases hrow
  show toLex (row.receivedAt, row.messageId) < toLex (a.receivedAt, a.messageId)
  rw [Prod.Lex.toLex_lt_toLex]
  rcases lt_or_eq_of_le htime with hlt | heq
  · exact .inl hlt
  · refine .inr ⟨heq, lt_of_le_of_ne (not_lt.mp fun hgt => hfree ⟨heq, hgt⟩) hne⟩

/-- what holds of the session in front of every call of a run -/
structure Served (s : SessionId) (world : RecoveryWorld codec W)
    (admitted claimed : List (NewInboundAdmission P)) : Prop where
  line : ∃ rest, admitted = claimed ++ rest ∧ Line s world rest
  ascending : admitted.Pairwise fun x y => x.sequence < y.sequence
  stored : ∀ a ∈ admitted, a.sessionId = s ∧
    ∃ row, world.rowOf a.messageId = some row ∧ row.toNewInboundAdmission = a

theorem served_step {admitted claimed : List (NewInboundAdmission P)}
    (h : Served s world admitted claimed) (hsequence : InSequence s world call)
    (huntied : Untied s world call) :
    Served s (inboundStep world call) (admitted ++ joined s world call)
      (claimed ++ firstClaimed s world call) where
  line := by
    obtain ⟨rest, rfl, hline⟩ := h.line
    obtain ⟨rest', hrest, hline'⟩ :=
      line_step hline fun a ha hs => key_above hline hsequence huntied ha hs
    exact ⟨rest', by rw [List.append_assoc, List.append_assoc, hrest], hline'⟩
  ascending := by
    have hsingle : (joined s world call).Pairwise fun x y => x.sequence < y.sequence := by
      unfold joined
      cases acceptedBy world call with
      | none => exact List.Pairwise.nil
      | some a => exact (List.pairwise_singleton _ a).filter _
    rw [List.pairwise_append]
    refine ⟨h.ascending, hsingle, fun x hx a ha => ?_⟩
    obtain ⟨hxs, row, hrow, rfl⟩ := h.stored x hx
    exact (hsequence a ha row (Table.get_eq_some.mp hrow).1 hxs).1
  stored a ha := by
    rcases List.mem_append.mp ha with hold | hnew
    · obtain ⟨hs, row, hrow, rfl⟩ := h.stored a hold
      obtain ⟨row', hrow', hidentity, -⟩ := row_step world call hrow
      exact ⟨hs, row', hrow', hidentity⟩
    · obtain ⟨haccepted, hs⟩ := mem_joined.mp hnew
      refine ⟨hs, pendingRow a, ?_, rfl⟩
      cases inboundStep_effect world call with
      | still hclaimed hfinished hother =>
        rw [hother] at haccepted
        cases haccepted
      | admitted b hclaimed hfinished hother hcall hinsert =>
        rw [hother] at haccepted
        cases haccepted
        unfold RecoveryWorld.rowOf
        rw [Table.get_insert hinsert, pendingRow_messageId, if_pos rfl]
      | claimed workerId claimedAt lease row hclaimed hfinished hother =>
        rw [hother] at haccepted
        cases haccepted
      | finished finish error row hclaimed hfinished hother =>
        rw [hother] at haccepted
        cases haccepted

theorem served_run {business : W} {calls : List (InboundCall P W)}
    (hsequence : always inboundStep (InSequence s) (RecoveryWorld.initial codec business) calls)
    (huntied : always inboundStep (Untied s) (RecoveryWorld.initial codec business) calls)
    (k : Nat) :
    Served s (inboundAt codec business calls k) (admittedLog codec business s (calls.take k))
      (claimedLog codec business s (calls.take k)) := by
  induction k with
  | zero =>
    refine ⟨⟨[], rfl, List.Pairwise.nil, fun a => ⟨fun h => (nomatch h), ?_⟩⟩, List.Pairwise.nil,
      fun a h => (nomatch h)⟩
    rintro ⟨-, row, hrow, -⟩
    cases hrow
  | succ k ih =>
    cases hk : calls[k]? with
    | none =>
      have hsame : inboundAt codec business calls (k + 1) = inboundAt codec business calls k :=
        before_past inboundStep _ hk
      unfold admittedLog claimedLog
      rw [hsame, emitted_take_past _ _ hk, emitted_take_past _ _ hk]
      exact ih
    | some call =>
      unfold admittedLog claimedLog
      rw [inboundAt_succ hk, emitted_take_succ _ _ hk, emitted_take_succ _ _ hk]
      exact served_step ih (always_at inboundStep hsequence hk) (always_at inboundStep huntied hk)

/-- messages that do not overtake one another are claimed first in the order of their sequences -/
theorem claimed_in_sequence (codec : EnvelopeCodec P) (business : W) (s : SessionId)
    (calls : List (InboundCall P W))
    (hsequence : always inboundStep (InSequence s) (RecoveryWorld.initial codec business) calls)
    (huntied : always inboundStep (Untied s) (RecoveryWorld.initial codec business) calls) :
    claimedLog codec business s calls <+: admittedLog codec business s calls ∧
    (claimedLog codec business s calls).Pairwise fun x y => x.sequence < y.sequence := by
  have hserved := served_run hsequence huntied calls.length
  rw [List.take_length] at hserved
  obtain ⟨rest, hline, -⟩ := hserved.line
  have hfront : claimedLog codec business s calls <+: admittedLog codec business s calls :=
    ⟨rest, hline.symm⟩
  exact ⟨hfront, hserved.ascending.sublist hfront.sublist⟩

end

/-! ## two messages in one millisecond -/

/-- two messages of one session, then one of another, then the claims of a worker -/
def pairCalls (first second : MessageId) : List (InboundCall (String × String × Nat) Nat) :=
  [.openSession "session", .openSession "other", .admitInbound (sampleAdmission first "session" 1 5),
    .admitInbound (sampleAdmission "between" "other" 1 5), .admitInbound (sampleAdmission second "session" 2 5),
    .claim ⟨"worker", 10, 20⟩, .claim ⟨"worker", 11, 20⟩, .claim ⟨"worker", 12, 20⟩]

theorem claimed_in_sequence_sample :
    claimedLog sampleCodec 0 "session" (pairCalls "a" "b") <+:
      admittedLog sampleCodec 0 "session" (pairCalls "a" "b") ∧
    (claimedLog sampleCodec 0 "session" (pairCalls "a" "b")).Pairwise
      fun x y => x.sequence < y.sequence :=
  claimed_in_sequence sampleCodec 0 "session" (pairCalls "a" "b") (by decide +kernel)
    (by decide +kernel)

/-- the second message has the smaller id and overtakes the first -/
theorem smaller_id_overtakes :
    always inboundStep (InSequence "session") (RecoveryWorld.initial sampleCodec 0)
      (pairCalls "b" "a") ∧
    (admittedLog sampleCodec 0 "session" (pairCalls "b" "a")).map (fun a => a.sequence) = [1, 2] ∧
    (claimedLog sampleCodec 0 "session" (pairCalls "b" "a")).map (fun a => a.sequence) = [2, 1] := by
  decide +kernel

end Sinan.Inbound
