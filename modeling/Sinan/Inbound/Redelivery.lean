import Sinan.Execution.Delivery
import Sinan.Inbound.Durability

/-!
# A message sent again on a later session

A connection takes messages under its own session id and a sequence of its own, and the durable port
admits each with the session's identity.  A message that comes again on another connection clashes
with its stored row under its message id and differs from it in the session id, so it is never
recognised as the message it is.
-/

namespace Sinan.Inbound

open Lib Store

/-! ## connections -/

structure AuthenticatedSessionContext where
  sessionId : SessionId
  clientId : ClientId
  accountId : AccountId
  terminalId : Option TerminalId
  deriving DecidableEq

structure ActiveConnection where
  context : AuthenticatedSessionContext
  lastInboundSequence : Nat
  /-- an error ends the connection -/
  closed : Bool
  deriving DecidableEq

inductive InboundAdmission where
  | accepted
  | duplicate
  | rejected (reason : ErrorCode)
  deriving DecidableEq

inductive ConnectionError where
  | fatalProtocol (reason : String)
  | inboundAdmission (error : StoreError)
  deriving DecidableEq

/-- how the bytes of a frame are read: the size bound, UTF-8 and `decode_wire_message`, the identity
members inside a payload, the canonical text and the length -/
structure WireReader (B P T : Type) where
  decode : B → Except String (WireMessage T)
  payloadFits : T → AuthenticatedSessionContext → Bool
  canonical : B → Except StoreError P
  length : B → Nat

def clientMaySend : ExecutionClientMessageType → Bool
  | .timeSyncRequest | .heartbeat | .transportAck | .marketTick | .marketBar | .symbolMetadata
  | .accountSnapshot | .positionSnapshot | .orderSnapshot | .commandReceived | .executionEvent
  | .reconciliationResult => true
  | _ => false

section
variable {B P T : Type} [DecidableEq P] (wire : WireReader B P T) {codec : EnvelopeCodec P} {W : Type}

def validateAuthenticatedIdentity (context : AuthenticatedSessionContext) (message : WireMessage T) :
    Bool :=
  message.sessionId == some context.sessionId &&
  message.clientId.all (fun clientId => clientId == context.clientId) &&
  wire.payloadFits message.payload context

/-- the record `DurableInboundMessagePort` hands to the store -/
def portAdmission (context : AuthenticatedSessionContext) (message : WireMessage T) (sequence : Nat)
    (envelope : P) (rawPayloadLength : Nat) (receivedAt : Int) : NewInboundAdmission P :=
  { messageId := message.messageId, sessionId := context.sessionId, clientId := context.clientId,
    accountId := context.accountId, terminalId := context.terminalId,
    messageType := message.messageType.asStr, schemaVersion := message.schemaVersion,
    sequence := sequence, correlationId := message.correlationId,
    causationId := message.causationId, envelope := envelope,
    rawPayloadLength := some rawPayloadLength, receivedAt := receivedAt, createdAt := receivedAt }

def DurableInboundAdmissionOutcome.answer : DurableInboundAdmissionOutcome P → InboundAdmission
  | .accepted _ => .accepted
  | .duplicate _ => .duplicate
  | .rejected rejection => .rejected rejection.reason

/-- the checks of `handle_message` up to the sequence -/
def checkMessage (conn : ActiveConnection) (bytes : B) :
    Except ConnectionError (WireMessage T × Nat) := do
  let message ← (wire.decode bytes).mapError .fatalProtocol
  reject (clientMaySend message.messageType = false) (.fatalProtocol "invalid message direction")
  reject (validateAuthenticatedIdentity wire conn.context message = false)
    (.fatalProtocol "session identity mismatch")
  let sequence ← need message.sequence (.fatalProtocol "missing inbound sequence")
  reject ((conn.lastInboundSequence = 0 ∧ sequence ≠ 1) ∨
      (conn.lastInboundSequence ≠ 0 ∧ sequence ≤ conn.lastInboundSequence))
    (.fatalProtocol "inbound sequence violation")
  return (message, sequence)

/-- `handle_message`: time synchronisation and heartbeats are answered here, every other message is
admitted durably -/
def handleMessage (tables : InboundTables codec) (conn : ActiveConnection) (bytes : B)
    (receivedAt : Int) :
    Except ConnectionError
      (Option InboundAdmission × ActiveConnection × InboundTables codec) := do
  let (message, sequence) ← checkMessage wire conn bytes
  let conn := { conn with lastInboundSequence := sequence }
  if message.messageType = .timeSyncRequest ∨ message.messageType = .heartbeat then
    return (none, conn, tables)
  else do
    let envelope ← (wire.canonical bytes).mapError .inboundAdmission
    let done ← (admitInbound tables (portAdmission conn.context message sequence envelope
      (wire.length bytes) receivedAt)).mapError .inboundAdmission
    return (some done.1.answer, conn, done.2)

/-! ## the gateway beside the workers -/

structure GatewayWorld (codec : EnvelopeCodec P) (W : Type) where
  recovery : RecoveryWorld codec W
  connections : List ActiveConnection

inductive GatewayCall (B P W : Type) where
  | connect (context : AuthenticatedSessionContext)
  /-- `acknowledged` says whether the acknowledgement could be queued -/
  | deliver (index : Nat) (bytes : B) (receivedAt : Int) (acknowledged : Bool)
  | work (call : InboundCall P W)

/-- what a delivery on the connection returns; a connection that is closed or was never opened
returns nothing -/
def delivered (world : GatewayWorld codec W) (index : Nat) (bytes : B) (receivedAt : Int) :
    Option (Except ConnectionError
      (Option InboundAdmission × ActiveConnection × InboundTables codec)) :=
  (world.connections[index]?).bind fun conn =>
    if conn.closed then none
    else some (handleMessage wire world.recovery.tables conn bytes receivedAt)

/-- a connection gets a new id, which no session row has, and a row under it -/
def connectSession (world : GatewayWorld codec W) (context : AuthenticatedSessionContext) :
    GatewayWorld codec W :=
  if context.sessionId ∈ world.recovery.tables.sessions then world
  else
    { recovery := inboundStep world.recovery (.openSession context.sessionId),
      connections := world.connections ++
        [{ context := context, lastInboundSequence := 0, closed := false }] }

def deliverMessage (world : GatewayWorld codec W) (index : Nat) (bytes : B) (receivedAt : Int)
    (acknowledged : Bool) : GatewayWorld codec W :=
  match delivered wire world index bytes receivedAt with
  | none => world
  | some (.error _) =>
    { world with connections := world.connections.modify index fun c => { c with closed := true } }
  | some (.ok (_, conn, tables)) =>
    -- what was admitted stays, and without the acknowledgement the connection ends
    { recovery := { world.recovery with tables := tables },
      connections := world.connections.set index { conn with closed := !acknowledged } }

def gatewayStep (world : GatewayWorld codec W) : GatewayCall B P W → GatewayWorld codec W
  | .connect context => connectSession world context
  | .deliver index bytes receivedAt acknowledged =>
    deliverMessage wire world index bytes receivedAt acknowledged
  | .work call => { world with recovery := inboundStep world.recovery call }

/-- the identities of the connections, in the order they were opened -/
def GatewayWorld.contexts (world : GatewayWorld codec W) : List AuthenticatedSessionContext :=
  world.connections.map fun c => c.context

variable (codec) in
def gatewayAt (business : W) (calls : List (GatewayCall B P W)) (k : Nat) : GatewayWorld codec W :=
  before (gatewayStep wire) ⟨.initial codec business, []⟩ calls k

/-- the answer the gateway acknowledges a delivery with -/
def deliveryAnswer (world : GatewayWorld codec W) (index : Nat) (bytes : B) (receivedAt : Int) :
    Option InboundAdmission :=
  match delivered wire world index bytes receivedAt with
  | some (.ok (answer, _, _)) => answer
  | _ => none

/-! ## what a delivery does -/

section
variable {wire} {world : GatewayWorld codec W} {index : Nat} {bytes : B} {receivedAt : Int}
variable {conn conn' : ActiveConnection} {tables' : InboundTables codec}
variable {answer : Option InboundAdmission}

/-- a delivery that ends well kept the context of its connection, and admitted its message under the
connection's identity if it admitted anything -/
theorem handleMessage_ok {tables : InboundTables codec}
    (h : handleMessage wire tables conn bytes receivedAt = .ok (answer, conn', tables')) :
    conn'.context = conn.context ∧ conn'.closed = conn.closed ∧
    ((answer = none ∧ tables' = tables) ∨
      ∃ (message : WireMessage T) (a : NewInboundAdmission P)
        (outcome : DurableInboundAdmissionOutcome P),
        wire.decode bytes = .ok message ∧ a.messageId = message.messageId ∧
        a.sessionId = conn.context.sessionId ∧ admitInbound tables a = .ok (outcome, tables') ∧
        answer = some outcome.answer) := by
  simp only [handleMessage, checkMessage, bind_ok, mapError_ok, exists_unit, reject_ok, need_ok,
    pure_ok, Prod.exists] at h
  obtain ⟨message, sequence, ⟨decoded, hdecode, -, -, next, -, -, hpair⟩, h⟩ := h
  cases hpair
  by_cases hlocal : message.messageType = .timeSyncRequest ∨ message.messageType = .heartbeat
  · rw [if_pos hlocal] at h
    cases h
    exact ⟨rfl, rfl, .inl ⟨rfl, rfl⟩⟩
  · rw [if_neg hlocal] at h
    simp only [bind_ok, mapError_ok, pure_ok, Prod.mk.injEq, Prod.exists] at h
    obtain ⟨envelope, -, outcome, written, hadmitted, rfl, rfl, rfl⟩ := h
    exact ⟨rfl, rfl, .inr ⟨message, _, outcome, hdecode, rfl, rfl, hadmitted, rfl⟩⟩

theorem delivered_ok
    (h : delivered wire world index bytes receivedAt = some (.ok (answer, conn', tables'))) :
    ∃ conn, world.connections[index]? = some conn ∧
      handleMessage wire world.recovery.tables conn bytes receivedAt =
        .ok (answer, conn', tables') := by
  unfold delivered at h
  obtain ⟨conn, hconn, h⟩ := Option.bind_eq_some_iff.mp h
  split at h
  · cases h
  · exact ⟨conn, hconn, Option.some.inj h⟩

theorem admit_tables {recovery : RecoveryWorld codec W} {a : NewInboundAdmission P}
    {outcome : DurableInboundAdmissionOutcome P}
    (h : admitInbound recovery.tables a = .ok (outcome, tables')) :
    inboundStep recovery (.admitInbound a) = { recovery with tables := tables' } := by
  simp only [inboundStep, inboundCall, h]
  rfl

/-! ## connections over a run -/

variable {conns : List ActiveConnection}

theorem contexts_set {old : ActiveConnection} (h : conns[index]? = some old)
    (hcontext : conn.context = old.context) :
    (conns.set index conn).map (fun c => c.context) = conns.map fun c => c.context := by
  rw [List.map_set]
  have hget : (conns.map fun c => c.context)[index]? = some conn.context := by
    rw [List.getElem?_map, h, hcontext]
    rfl
  obtain ⟨hlt, hval⟩ := List.getElem?_eq_some_iff.mp hget
  rw [← hval]
  exact List.set_getElem_self hlt

theorem contexts_modify :
    (conns.modify index fun c => { c with closed := true }).map (fun c => c.context) =
      conns.map fun c => c.context := by
  refine List.ext_getElem? fun j => ?_
  rw [List.getElem?_map, List.getElem?_map, List.getElem?_modify]
  cases conns[j]? with
  | none => rfl
  | some c => by_cases hj : index = j <;> simp only [Option.map_eq_map, Option.map_some, hj, if_true, if_false]

/-- a step opens at most one connection, under a session id no row had, and takes at most one
transaction of the store -/
structure GatewayEffect (world world' : GatewayWorld codec W) : Prop where
  contexts : world'.contexts = world.contexts ∨
    ∃ context : AuthenticatedSessionContext, context.sessionId ∉ world.recovery.tables.sessions ∧
      context.sessionId ∈ world'.recovery.tables.sessions ∧
      world'.contexts = world.contexts ++ [context]
  recovery : world'.recovery = world.recovery ∨
    ∃ call, world'.recovery = inboundStep world.recovery call

theorem connectSession_effect (world : GatewayWorld codec W) (context : AuthenticatedSessionContext) :
    GatewayEffect world (connectSession world context) := by
  unfold connectSession
  by_cases hknown : context.sessionId ∈ world.recovery.tables.sessions
  · rw [if_pos hknown]
    exact ⟨.inl rfl, .inl rfl⟩
  · rw [if_neg hknown]
    refine ⟨.inr ⟨context, hknown, List.mem_cons_self, ?_⟩,
      .inr ⟨.openSession context.sessionId, rfl⟩⟩
    exact List.map_append

theorem deliverMessage_effect (world : GatewayWorld codec W) (index : Nat) (bytes : B)
    (receivedAt : Int) (acknowledged : Bool) :
    GatewayEffect world (deliverMessage wire world index bytes receivedAt acknowledged) := by
  unfold deliverMessage
  cases h : delivered wire world index bytes receivedAt with
  | none => exact ⟨.inl rfl, .inl rfl⟩
  | some result =>
    cases result with
    | error e => exact ⟨.inl contexts_modify, .inl rfl⟩
    | ok done =>
      obtain ⟨conn, hconn, hhandled⟩ := delivered_ok h
      obtain ⟨hcontext, -, hrest⟩ := handleMessage_ok hhandled
      have hsame : ({ done.2.1 with closed := !acknowledged } : ActiveConnection).context =
          conn.context := hcontext
      refine ⟨.inl (contexts_set hconn hsame), ?_⟩
      rcases hrest with ⟨-, hsame⟩ | ⟨message, a, outcome, -, -, -, hadmitted, -⟩
      · exact .inl (by show { world.recovery with tables := done.2.2 } = _; rw [hsame])
      · exact .inr ⟨.admitInbound a, (admit_tables hadmitted).symm⟩

theorem gatewayStep_effect (world : GatewayWorld codec W) (call : GatewayCall B P W) :
    GatewayEffect world (gatewayStep wire world call) := by
  cases call with
  | connect context => exact connectSession_effect world context
  | deliver index bytes receivedAt acknowledged =>
    exact deliverMessage_effect world index bytes receivedAt acknowledged
  | work inner => exact ⟨.inl rfl, .inr ⟨inner, rfl⟩⟩

/-- every connection has a session row of its own -/
structure Seated (world : GatewayWorld codec W) : Prop where
  apart : (world.contexts.map fun c => c.sessionId).Nodup
  rows : ∀ context ∈ world.contexts, context.sessionId ∈ world.recovery.tables.sessions

variable {world' : GatewayWorld codec W} {business : W} {calls : List (GatewayCall B P W)}
  {i k : Nat}

theorem GatewayEffect.sessions (h : GatewayEffect world world') :
    world.recovery.tables.sessions ⊆ world'.recovery.tables.sessions := by
  rcases h.recovery with hsame | ⟨call, hstep⟩
  · exact hsame ▸ List.Subset.refl _
  · rw [hstep]
    exact sessions_step world.recovery call

theorem GatewayEffect.rowsStay (h : GatewayEffect world world') :
    RowsStay world.recovery world'.recovery := by
  rcases h.recovery with hsame | ⟨call, hstep⟩
  · rw [hsame]
    exact RowsStay.refl _
  · rw [hstep]
    exact fun m row hrow => row_step world.recovery call hrow

theorem GatewayEffect.grow (h : GatewayEffect world world') : world.contexts <+: world'.contexts := by
  rcases h.contexts with hsame | ⟨context, -, -, hnew⟩
  · exact hsame ▸ List.prefix_refl _
  · exact ⟨[context], hnew.symm⟩

theorem GatewayEffect.seated (h : GatewayEffect world world') (hseated : Seated world) :
    Seated world' := by
  have hgrow := h.sessions
  rcases h.contexts with hsame | ⟨context, hfresh, hrow, hnew⟩
  · refine ⟨?_, ?_⟩ <;> rw [hsame]
    · exact hseated.apart
    · exact fun context hcontext => hgrow (hseated.rows context hcontext)
  · refine ⟨?_, ?_⟩ <;> rw [hnew]
    · rw [List.map_append, List.nodup_append]
      refine ⟨hseated.apart, List.nodup_singleton _, fun x hx y hy => ?_⟩
      obtain ⟨old, hold, rfl⟩ := List.mem_map.mp hx
      rw [List.map_singleton, List.mem_singleton] at hy
      rintro rfl
      exact hfresh (hy ▸ hseated.rows old hold)
    · intro other hother
      rcases List.mem_append.mp hother with hold | hlast
      · exact hgrow (hseated.rows other hold)
      · rw [List.mem_singleton.mp hlast]
        exact hrow

theorem gateway_seated (wire : WireReader B P T) (business : W) (calls : List (GatewayCall B P W))
    (k : Nat) : Seated (gatewayAt wire codec business calls k) :=
  before_invariant (gatewayStep wire) _ calls ⟨List.nodup_nil, fun _ h => (nomatch h)⟩
    (fun world call h => (gatewayStep_effect world call).seated h) k

theorem gateway_rows (hik : i ≤ k) :
    RowsStay (gatewayAt wire codec business calls i).recovery
      (gatewayAt wire codec business calls k).recovery :=
  before_related (gatewayStep wire) (R := fun a b => RowsStay a.recovery b.recovery)
    (fun _ => RowsStay.refl _) RowsStay.trans _ calls hik
    fun _ call _ _ => (gatewayStep_effect _ call).rowsStay

theorem gateway_contexts (hik : i ≤ k) :
    (gatewayAt wire codec business calls i).contexts <+:
      (gatewayAt wire codec business calls k).contexts :=
  before_related (gatewayStep wire) (R := fun a b => a.contexts <+: b.contexts)
    (fun _ => List.prefix_refl _) List.IsPrefix.trans _ calls hik
    fun _ call _ _ => (gatewayStep_effect _ call).grow

theorem answered_admission {out : InboundAdmission} {message : WireMessage T}
    (hdecode : wire.decode bytes = .ok message)
    (h : deliveryAnswer wire world index bytes receivedAt = some out) :
    ∃ context a outcome tables', world.contexts[index]? = some context ∧
      a.messageId = message.messageId ∧ a.sessionId = context.sessionId ∧
      admitInbound world.recovery.tables a = .ok (outcome, tables') ∧
      out = DurableInboundAdmissionOutcome.answer (P := P) outcome ∧
      ∀ acknowledged, (gatewayStep wire world
        (.deliver index bytes receivedAt acknowledged)).recovery.tables = tables' := by
  unfold deliveryAnswer at h
  split at h
  · rename_i answer conn' tables' hdelivered
    subst h
    obtain ⟨conn, hconn, hhandled⟩ := delivered_ok hdelivered
    obtain ⟨-, -, ⟨hnone, -⟩ | ⟨m, a, outcome, hm, hid, hsession, hadmitted, hout⟩⟩ :=
      handleMessage_ok hhandled
    · cases hnone
    · rw [hdecode] at hm
      cases hm
      refine ⟨conn.context, a, outcome, tables', ?_, hid, hsession, hadmitted, Option.some.inj hout, ?_⟩
      · unfold GatewayWorld.contexts
        rw [List.getElem?_map, hconn]
        rfl
      · simp only [gatewayStep, deliverMessage, hdelivered, implies_true]
  · cases h

/-- a message accepted on one connection is refused on every other, whatever became of its row -/
theorem redelivery_rejected (wire : WireReader B P T) (codec : EnvelopeCodec P) (business : W)
    (calls : List (GatewayCall B P W)) {i k c₁ c₂ : Nat} {b₁ b₂ : B} {t₁ t₂ : Int}
    {m₁ m₂ : WireMessage T} {acknowledged : Bool}
    (hi : calls[i]? = some (.deliver c₁ b₁ t₁ acknowledged)) (hik : i < k) (hc : c₁ ≠ c₂)
    (hm₁ : wire.decode b₁ = .ok m₁) (hm₂ : wire.decode b₂ = .ok m₂)
    (hid : m₂.messageId = m₁.messageId)
    (haccepted : deliveryAnswer wire (gatewayAt wire codec business calls i) c₁ b₁ t₁ =
      some .accepted) :
    deliveryAnswer wire (gatewayAt wire codec business calls k) c₂ b₂ t₂ ≠ some .duplicate ∧
    ∀ answer, deliveryAnswer wire (gatewayAt wire codec business calls k) c₂ b₂ t₂ = some answer →
      answer = .rejected .duplicateIdempotencyConflict := by
  obtain ⟨context₁, a₁, outcome₁, tables₁, hcontext₁, ha₁, hs₁, hadmitted₁, hout₁, hnext⟩ :=
    answered_admission hm₁ haccepted
  -- the row of the first admission stands from then on
  have hstored : ∃ row, (gatewayAt wire codec business calls k).recovery.rowOf m₁.messageId =
      some row ∧ row.messageId = m₁.messageId ∧ row.sessionId = context₁.sessionId := by
    have hrow : (gatewayAt wire codec business calls (i + 1)).recovery.rowOf m₁.messageId =
        some (pendingRow a₁) := by
      have hstep : gatewayAt wire codec business calls (i + 1) =
          gatewayStep wire (gatewayAt wire codec business calls i)
            (.deliver c₁ b₁ t₁ acknowledged) :=
        before_succ (gatewayStep wire) _ hi
      unfold RecoveryWorld.rowOf
      rw [hstep, hnext]
      rcases admitInbound_ok hadmitted₁ with ⟨-, -, hinsert, -⟩ | ⟨_, _, _, rfl, _⟩ | ⟨_, rfl, _⟩
      · rw [Table.get_insert hinsert, pendingRow_messageId, if_pos ha₁]
      · cases hout₁
      · cases hout₁
    obtain ⟨row, hrow', hidentity, -⟩ := gateway_rows hik m₁.messageId _ hrow
    refine ⟨row, hrow', ?_, ?_⟩
    · rw [hidentity]
      exact ha₁
    · rw [hidentity]
      exact hs₁
  obtain ⟨row, hrow, hrowid, hrowsession⟩ := hstored
  have hanswer : ∀ answer,
      deliveryAnswer wire (gatewayAt wire codec business calls k) c₂ b₂ t₂ = some answer →
      answer = .rejected .duplicateIdempotencyConflict := by
    intro answer hanswer
    obtain ⟨context₂, a₂, outcome₂, tables₂, hcontext₂, ha₂, hs₂, hadmitted₂, rfl, -⟩ :=
      answered_admission hm₂ hanswer
    -- the two connections have session ids of their own
    have hapart : context₁.sessionId ≠ context₂.sessionId := by
      have hkept : (gatewayAt wire codec business calls k).contexts[c₁]? = some context₁ := by
        obtain ⟨rest, hrest⟩ : (gatewayAt wire codec business calls i).contexts <+:
          (gatewayAt wire codec business calls k).contexts := gateway_contexts (Nat.le_of_lt hik)
        rw [← hrest, List.getElem?_append_left (List.getElem?_eq_some_iff.mp hcontext₁).1]
        exact hcontext₁
      intro hsame
      have hseated : Seated (gatewayAt wire codec business calls k) :=
        gateway_seated wire business calls k
      refine hc ((List.getElem?_inj ?_ hseated.apart).mp ?_)
      · rw [List.length_map]
        exact (List.getElem?_eq_some_iff.mp hkept).1
      · rw [List.getElem?_map, List.getElem?_map, hkept, hcontext₂, Option.map_some,
          Option.map_some, hsame]
    rcases admitInbound_ok hadmitted₂ with ⟨hfree, -⟩ | ⟨stored, hget, hsame, -, -⟩ | ⟨r, rfl, hreason, -⟩
    · exact absurd (.inl (by rw [hrowid, ha₂, hid])) (hfree m₁.messageId row hrow)
    · simp only [sameInboundIdentity, Bool.and_eq_true, beq_iff_eq] at hsame
      obtain ⟨⟨⟨⟨⟨⟨⟨⟨⟨⟨hmessage, hsession⟩, -⟩, -⟩, -⟩, -⟩, -⟩, -⟩, -⟩, -⟩, -⟩ := hsame
      rw [hmessage, ha₂, hid] at hget
      have hrow' : some stored = some row := hget.symm.trans hrow
      cases hrow'
      rw [hrowsession, hs₂] at hsession
      exact absurd hsession hapart
    · show InboundAdmission.rejected r.reason = _
      rw [hreason]
  refine ⟨fun hduplicate => ?_, hanswer⟩
  cases hanswer _ hduplicate

end

end

/-! ## one event, sent on two sessions -/

def sampleReader : WireReader (String × String × Nat) (String × String × Nat) Unit where
  decode e := .ok
    { messageId := e.1, messageType := .executionEvent, schemaVersion := "ecp.v1.0",
      clientId := none, sessionId := some e.2.1, correlationId := none, causationId := none,
      sentAt := none, sequence := some e.2.2, payload := () }
  payloadFits _ _ := true
  canonical e := .ok e
  length _ := 64

def sampleContext (sessionId : SessionId) : AuthenticatedSessionContext :=
  { sessionId := sessionId, clientId := "client", accountId := "account", terminalId := none }

/-- the client misses the acknowledgement, connects again and repeats the event it had sent -/
def resendCalls : List (GatewayCall (String × String × Nat) (String × String × Nat) Nat) :=
  [.connect (sampleContext "first"), .deliver 0 ("event", "first", 1) 5 false,
    .connect (sampleContext "second"), .deliver 1 ("event", "second", 1) 9 true]

/-- the repeated event is answered Rejected -/
theorem resend_rejected :
    deliveryAnswer sampleReader (gatewayAt sampleReader sampleCodec 0 resendCalls 1) 0
      ("event", "first", 1) 5 = some .accepted ∧
    deliveryAnswer sampleReader (gatewayAt sampleReader sampleCodec 0 resendCalls 3) 1
      ("event", "second", 1) 9 = some (.rejected .duplicateIdempotencyConflict) := by
  decide +kernel

theorem redelivery_rejected_sample :
    deliveryAnswer sampleReader (gatewayAt sampleReader sampleCodec 0 resendCalls 3) 1
      ("event", "second", 1) 9 ≠ some .duplicate ∧
    ∀ answer, deliveryAnswer sampleReader (gatewayAt sampleReader sampleCodec 0 resendCalls 3) 1
      ("event", "second", 1) 9 = some answer → answer = .rejected .duplicateIdempotencyConflict :=
  redelivery_rejected (i := 1) (k := 3) sampleReader sampleCodec 0 resendCalls rfl (by decide)
    (by decide) rfl rfl rfl (by decide +kernel)

end Sinan.Inbound
