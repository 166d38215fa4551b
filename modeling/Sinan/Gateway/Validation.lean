import Sinan.Execution.Delivery
import Sinan.Lib.Check

/-!
# Requests at the gateway

The checks the gateway makes on a request before it binds a session to it: the draft carries no field
that the gateway owns, and the request names the account, the route, the command and the expiry of its
payload.  With them what `WireMessage` itself checks.
-/

namespace Sinan.Gateway

open Lib Execution

/-! ## text -/

/-- the digits of an unsigned integer of at most `max` -/
def parseDigits (max : Nat) (digits : List Char) : Option Nat :=
  if digits = [] ∨ digits.all Char.isDigit = false then none
  else
    let value := digits.foldl (fun n c => 10 * n + (c.toNat - '0'.toNat)) 0
    if value ≤ max then some value else none

/-- `str::parse` of an unsigned integer -/
def parseUnsigned (max : Nat) (text : String) : Option Nat :=
  match text.toList with
  | '+' :: digits => parseDigits max digits
  | digits => parseDigits max digits

/-- `str::strip_prefix` -/
def stripLabel (label text : String) : Option String :=
  if label.toList.isPrefixOf text.toList then
    some (String.ofList (text.toList.drop label.toList.length))
  else none

/-- what is left and right of the first `c`; `none` without one -/
def splitOnce (c : Char) : List Char → Option (List Char × List Char)
  | [] => none
  | x :: xs =>
    if x = c then some ([], xs) else (splitOnce c xs).map fun p => (x :: p.1, p.2)

/-! ## schema versions -/

structure SchemaVersion where
  major : Nat
  minor : Nat
  deriving DecidableEq

inductive SchemaVersionError where
  | invalidFormat (value : String)
  | majorMismatch (received supported : Nat)
  deriving DecidableEq

def u16Max : Nat := 65535

def supportedVersion : SchemaVersion := ⟨1, 0⟩

/-- `ecp.v<major>.<minor>` -/
def SchemaVersion.parse (value : String) : Except SchemaVersionError SchemaVersion := do
  let version ← need (stripLabel "ecp.v" value) (.invalidFormat value)
  let parts ← need (splitOnce '.' version.toList) (.invalidFormat value)
  reject (parts.1 = [] ∨ parts.2 = [] ∨ '.' ∈ parts.2) (.invalidFormat value)
  let major ← need (parseUnsigned u16Max (String.ofList parts.1)) (.invalidFormat value)
  let minor ← need (parseUnsigned u16Max (String.ofList parts.2)) (.invalidFormat value)
  return ⟨major, minor⟩

/-- whether the versions are compatible; how the minor versions compare is read by nobody -/
def SchemaVersion.compatibilityWith (received supported : SchemaVersion) :
    Except SchemaVersionError Unit :=
  reject (received.major ≠ supported.major) (.majorMismatch received.major supported.major)

/-- `message.schema().and_then(|version| version.compatibility_with(SUPPORTED_SCHEMA_VERSION))` -/
def schemaSupported (schemaVersion : String) : Except SchemaVersionError Unit := do
  let version ← SchemaVersion.parse schemaVersion
  version.compatibilityWith supportedVersion

/-! ## envelopes -/

inductive EnvelopeValidationError where
  | missingRequiredField (field : String)
  | emptyOptionalField (field : String)
  | invalidSequence
  | schema (error : SchemaVersionError)
  deriving DecidableEq

def SchemaVersionError.text : SchemaVersionError → String
  | .invalidFormat value => "invalid Execution Client Protocol schema version: " ++ value
  | .majorMismatch received supported =>
    "schema major mismatch: received " ++ received.repr ++ ", supported " ++ supported.repr

def EnvelopeValidationError.text : EnvelopeValidationError → String
  | .missingRequiredField field => "missing required envelope field: " ++ field
  | .emptyOptionalField field => "optional envelope field is present but empty: " ++ field
  | .invalidSequence => "wire sequence must start at one"
  | .schema error => error.text

def requiresSessionAndSequence : ExecutionClientMessageType → Bool
  | .sessionHello | .sessionRejected => false
  | _ => true

def requiresSentAt : ExecutionClientMessageType → Bool
  | .sessionHello | .timeSyncRequest => false
  | _ => true

section
variable {T F : Type} [DecidableEq F]

def validateWireMessage (message : WireMessage T) : Except EnvelopeValidationError Unit := do
  reject (blank message.messageId = true) (.missingRequiredField "message_id")
  each [("client_id", message.clientId), ("session_id", message.sessionId),
      ("correlation_id", message.correlationId), ("causation_id", message.causationId)]
    fun field => reject (blankOpt field.2 = true) (.emptyOptionalField field.1)
  reject (requiresSessionAndSequence message.messageType = true ∧ message.sessionId.isNone = true)
    (.missingRequiredField "session_id")
  reject (requiresSessionAndSequence message.messageType = true ∧ message.sequence.isNone = true)
    (.missingRequiredField "sequence")
  reject (requiresSentAt message.messageType = true ∧ message.sentAt.isNone = true)
    (.missingRequiredField "sent_at")
  reject (message.sequence = some 0) .invalidSequence
  match schemaSupported message.schemaVersion with
  | .ok _ => return ()
  | .error error => .error (.schema error)

/-! ## drafts -/

abbrev RequestCheck := Except DeliveryRejectionReason Unit

def mismatchIf (bad : Prop) [Decidable bad] (field : String) : RequestCheck :=
  reject bad (.identityMismatch field)

def validateDraftEnvelope (message : WireMessage T) (expectedType : ExecutionClientMessageType)
    (requestClientId : Option ClientId) : RequestCheck := do
  mismatchIf (blank message.messageId = true) "message_id"
  mismatchIf (message.messageType ≠ expectedType) "message_type"
  mismatchIf (message.sessionId.isSome = true) "session_id"
  mismatchIf (message.sequence.isSome = true) "sequence"
  mismatchIf (message.sentAt.isSome = true) "sent_at"
  mismatchIf (message.clientId ≠ requestClientId) "envelope.client_id"
  each [("correlation_id", message.correlationId), ("causation_id", message.causationId)]
    fun field => mismatchIf (blankOpt field.2 = true) field.1
  mismatchIf ((schemaSupported message.schemaVersion).isOk = false) "schema_version"

def validateCommandRequest (request : DeliveryRequest (ExecutionCommand F)) (serverNow : Int) :
    RequestCheck := do
  validateDraftEnvelope request.message .executionCommand request.clientId
  let command := request.message.payload
  mismatchIf (request.accountId ≠ command.accountId) "account_id"
  mismatchIf (request.clientId ≠ command.clientId) "client_id"
  mismatchIf (request.terminalId ≠ command.terminalId) "terminal_id"
  mismatchIf (request.commandId ≠ some command.commandId) "command_id"
  mismatchIf (request.expiresAt ≠ some command.expiresAt) "expires_at"
  reject (serverNow < 0 ∨ serverNow ≥ command.expiresAt) .expired

def validateReconciliationRequest (request : DeliveryRequest ReconciliationRequest) :
    RequestCheck := do
  validateDraftEnvelope request.message .reconciliationRequest request.clientId
  let reconciliation := request.message.payload
  mismatchIf (request.accountId ≠ reconciliation.accountId) "account_id"
  mismatchIf (request.clientId ≠ reconciliation.clientId) "client_id"
  mismatchIf (request.terminalId ≠ reconciliation.terminalId) "terminal_id"
  mismatchIf (request.commandId.isSome = true) "command_id"
  mismatchIf (request.expiresAt.isSome = true) "expires_at"

end

example : schemaSupported "ecp.v1.7" = .ok () ∧
    schemaSupported "ecp.v2.0" = .error (.majorMismatch 2 1) ∧
    schemaSupported "ecp.v1" = .error (.invalidFormat "ecp.v1") := by decide +kernel

end Sinan.Gateway
