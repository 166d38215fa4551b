import Sinan.Lib.Check
import Sinan.Lib.Hex
import Sinan.Types.Dto

/-!
# Command signing

A command is signed over a fixed list of fields, each percent-encoded, with every number written as a
fixed decimal.  A value that a fixed decimal of the symbol's precision would change is refused before
anything is signed.  The MAC itself is a parameter (`Mac`): 32 bytes for any key and message.
-/

namespace Sinan.Protocol

open Lib

def maxDecimalDigits : Nat := 18
def maxSafeScaledInteger : Int := 9007199254740991

/-- HMAC-SHA256: defined for keys of any length, with tags of 32 bytes -/
structure Mac where
  tag : List UInt8 → List UInt8 → List UInt8
  tag_length : ∀ key message, (tag key message).length = 32

inductive SigningError (F : Type) where
  | missingRequiredField (field : String)
  | nonFiniteNumber (field : String)
  | missingActionField (action : ExecutionAction) (field : String)
  | missingCommandTarget (action : ExecutionAction)
  | missingModification
  | lotsNotAlignedToVolumeStep (lots volumeStep : F)
  | scaledIntegerOverflow (field : String)
  | decimalPrecisionExceeded (field : String) (digits : Nat)
  | fixedDecimalChangesValue (field : String)
  | nonFiniteValue
  | precisionTooLarge (digits : Nat)
  | invalidVolumeStep
  | invalidHmacEncoding
  | hmacMismatch
  deriving DecidableEq

structure VolumeStepConstraint (F : Type) where
  value : F
  units : Int
  deriving DecidableEq

structure CommandSigningFormat (F : Type) where
  priceDigits : Nat
  volumeDigits : Nat
  volumeStep : Option (VolumeStepConstraint F)
  deriving DecidableEq

/-! ## percent encoding -/

def utf8Bytes (s : String) : List UInt8 := s.toList.flatMap String.utf8EncodeChar

/-- letters, digits and the four unreserved marks -/
def isUnreserved (b : UInt8) : Bool :=
  (48 ≤ b && b ≤ 57) || (65 ≤ b && b ≤ 90) || (97 ≤ b && b ≤ 122) ||
  b == 45 || b == 46 || b == 95 || b == 126

def upperHexDigit (n : Nat) : Char := Char.ofNat (if n < 10 then 48 + n else 55 + n)

def encodeByte (b : UInt8) : List Char :=
  if isUnreserved b then [Char.ofNat b.toNat]
  else ['%', upperHexDigit (b.toNat / 16), upperHexDigit (b.toNat % 16)]

def rfc3986Encode (value : String) : String :=
  String.ofList ((utf8Bytes value).flatMap encodeByte)

section
variable {F : Type} [F64 F]

abbrev SigningCheck (F : Type) := Except (SigningError F)

/-! ## fixed decimals -/

def validatePrecision (digits : Nat) : SigningCheck F Unit :=
  reject (digits > maxDecimalDigits) (.precisionTooLarge digits)

def decimalScale (digits : Nat) : SigningCheck F Int := do
  validatePrecision digits
  return 10 ^ digits

/-- the allowance for the rounding of `value * 10 ^ digits` -/
def scaledTolerance (scaled : F) : F :=
  F64.mul (F64.mul F64.epsilon (F64.max (F64.abs scaled) (F64.ofInt 1))) (F64.ofInt 8)

/-- the number of units of `10 ^ -digits` in `value` -/
def scaledInteger (value : F) (digits : Nat) (field : String) : SigningCheck F Int := do
  reject (F64.isFinite value = false) (.nonFiniteNumber field)
  let scale ← decimalScale digits
  let scaled := F64.mul value (F64.ofInt scale)
  reject (F64.isFinite scaled = false ∨
      F64.lt (F64.ofInt maxSafeScaledInteger) (F64.abs scaled))
    (.scaledIntegerOverflow field)
  let nearest := F64.round scaled
  reject (F64.lt (scaledTolerance scaled) (F64.abs (F64.sub scaled nearest)))
    (.decimalPrecisionExceeded field digits)
  return F64.toI64 nearest

def formatFixedDecimal (value : F) (digits : Nat) : SigningCheck F String := do
  reject (F64.isFinite value = false) .nonFiniteValue
  validatePrecision digits
  return F64.fixed value digits

/-- the loop of `volume_step_units` over the digits that are left -/
def volumeStepUnitsFrom (step : F) : List Nat → SigningCheck F (Nat × Int)
  | [] => .error .invalidVolumeStep
  | digits :: rest => match scaledInteger step digits "volume_step" with
    | .ok units => if units > 0 then .ok (digits, units) else .error .invalidVolumeStep
    | .error (.decimalPrecisionExceeded _ _) => volumeStepUnitsFrom step rest
    | .error e => .error e

/-- the least number of decimals of the volume step, and the step in units of it -/
def volumeStepUnits (step : F) : SigningCheck F (Nat × Int) := do
  reject (F64.isFinite step = false ∨ F64.le step F64.zero) .invalidVolumeStep
  volumeStepUnitsFrom step (List.range (maxDecimalDigits + 1))

/-- `CommandSigningFormat::from_symbol_metadata` -/
def CommandSigningFormat.fromSymbolMetadata (metadata : SymbolMetadataSnapshot F) :
    SigningCheck F (CommandSigningFormat F) := do
  validatePrecision metadata.digits
  let step ← volumeStepUnits metadata.volumeStep
  return { priceDigits := metadata.digits, volumeDigits := step.1,
           volumeStep := some { value := metadata.volumeStep, units := step.2 } }

/-! ## validation of a command -/

/-- the four numbers of a command -/
def commandNumbers (c : ExecutionCommand F) : List (String × Option F) :=
  [("lots", c.lots), ("price", c.price), ("sl", c.sl), ("tp", c.tp)]

def validateFiniteNumbers (c : ExecutionCommand F) : SigningCheck F Unit :=
  each (commandNumbers c) fun fv =>
    reject (fv.2.any fun value => !F64.isFinite value) (.nonFiniteNumber fv.1)

def requireActionField (action : ExecutionAction) (field : String) (present : Bool) :
    SigningCheck F Unit :=
  reject (present = false) (.missingActionField action field)

def needsPrice : Option OrderType → Bool
  | some .limit | some .stop | some .stopLimit => true
  | _ => false

def validateActionSpecificFields (c : ExecutionCommand F) : SigningCheck F Unit :=
  match c.action with
  | .buy | .sell => do
    requireActionField c.action "lots" c.lots.isSome
    requireActionField c.action "order_type" c.orderType.isSome
    if needsPrice c.orderType then
      requireActionField c.action "price" c.price.isSome
    else .ok ()
  | .modify => do
    reject (c.brokerOrderId.isNone ∧ c.positionTicket.isNone) (.missingCommandTarget c.action)
    reject (c.sl.isNone ∧ c.tp.isNone ∧ c.price.isNone ∧ c.expirationTime.isNone)
      .missingModification
  | .cancel => requireActionField c.action "broker_order_id" c.brokerOrderId.isSome
  | .close => .ok ()

def validateLotsAlignment (lots : Option F) (format : CommandSigningFormat F) :
    SigningCheck F Unit :=
  match lots, format.volumeStep with
  | some lots, some volumeStep => do
    let lotsUnits ← scaledInteger lots format.volumeDigits "lots"
    reject (lotsUnits % volumeStep.units ≠ 0)
      (.lotsNotAlignedToVolumeStep lots volumeStep.value)
  | _, _ => .ok ()

def validateFixedDecimalRoundTrip (value : F) (digits : Nat) (field : String) :
    SigningCheck F Unit := do
  let _ ← scaledInteger value digits field
  let formatted ← formatFixedDecimal value digits
  let roundTrip ← need (F64.parse formatted) (.fixedDecimalChangesValue field)
  reject (F64.sameBits roundTrip value = false) (.fixedDecimalChangesValue field)

def validateFixedDecimalOpt (value : Option F) (digits : Nat) (field : String) :
    SigningCheck F Unit :=
  match value with
  | some value => validateFixedDecimalRoundTrip value digits field
  | none => .ok ()

def validateFixedDecimalFields (c : ExecutionCommand F) (format : CommandSigningFormat F) :
    SigningCheck F Unit := do
  validateFixedDecimalOpt c.lots format.volumeDigits "lots"
  validateFixedDecimalOpt c.price format.priceDigits "price"
  validateFixedDecimalOpt c.sl format.priceDigits "sl"
  validateFixedDecimalOpt c.tp format.priceDigits "tp"

def validateExecutionCommand (c : ExecutionCommand F) (format : CommandSigningFormat F) :
    SigningCheck F Unit := do
  validatePrecision format.priceDigits
  validatePrecision format.volumeDigits
  validateFiniteNumbers c
  validateActionSpecificFields c
  validateLotsAlignment c.lots format
  validateFixedDecimalFields c format

/-! ## the signing string -/

/-- a field of the serialised command -/
inductive SigningValue (F : Type) where
  | absent
  | text (value : String)
  | integer (value : Int)
  | number (value : F)

def SigningValue.ofText : Option String → SigningValue F
  | some value => .text value
  | none => .absent

def SigningValue.ofInteger : Option Int → SigningValue F
  | some value => .integer value
  | none => .absent

def SigningValue.ofNumber : Option F → SigningValue F
  | some value => .number value
  | none => .absent

/-- the 25 signed fields in their order; the MAC of the command is not among them -/
def signingFields (c : ExecutionCommand F) : List (String × SigningValue F) :=
  [("command_id", .text c.commandId),
   ("plan_id", .ofText c.planId),
   ("leg_id", .ofText c.legId),
   ("strategy_id", .text c.strategyId),
   ("account_id", .text c.accountId),
   ("terminal_id", .ofText c.terminalId),
   ("client_id", .ofText c.clientId),
   ("symbol", .text c.symbol),
   ("broker_symbol", .ofText c.brokerSymbol),
   ("action", .text c.action.asStr),
   ("order_type", .ofText (c.orderType.map OrderType.asStr)),
   ("lots", .ofNumber c.lots),
   ("price", .ofNumber c.price),
   ("sl", .ofNumber c.sl),
   ("tp", .ofNumber c.tp),
   ("deviation_points", .ofInteger c.deviationPoints),
   ("magic", .integer c.magic),
   ("comment", .ofText c.comment),
   ("position_ticket", .ofText c.positionTicket),
   ("broker_order_id", .ofText c.brokerOrderId),
   ("filling_policy", .ofText (c.fillingPolicy.map FillingPolicy.asStr)),
   ("time_policy", .ofText (c.timePolicy.map TimePolicy.asStr)),
   ("expiration_time", .ofInteger c.expirationTime),
   ("expires_at", .integer c.expiresAt),
   ("idempotency_key", .text c.idempotencyKey)]

def optionalFields : List String :=
  ["plan_id", "leg_id", "terminal_id", "client_id", "broker_symbol", "order_type", "lots", "price",
   "sl", "tp", "deviation_points", "comment", "position_ticket", "broker_order_id",
   "filling_policy", "time_policy", "expiration_time"]

def signingFieldValue (format : CommandSigningFormat F) (field : String) :
    SigningValue F → SigningCheck F String
  | .absent => if field ∈ optionalFields then .ok "" else .error (.missingRequiredField field)
  | .text value => .ok value
  | .integer value => .ok (toString value)
  -- the numbers of a command are `lots` and the three prices
  | .number value => formatFixedDecimal value
      (if field = "lots" then format.volumeDigits else format.priceDigits)

/-- `key=value` of every field -/
def signingParts (format : CommandSigningFormat F) :
    List (String × SigningValue F) → SigningCheck F (List String)
  | [] => .ok []
  | (field, value) :: rest => do
    let text ← signingFieldValue format field value
    let parts ← signingParts format rest
    return (field ++ "=" ++ rfc3986Encode text) :: parts

def buildExecutionCommandSigningString (c : ExecutionCommand F) (format : CommandSigningFormat F) :
    SigningCheck F String := do
  validateExecutionCommand c format
  let parts ← signingParts format (signingFields c)
  return String.intercalate "&" parts

def signExecutionCommand (mac : Mac) (c : ExecutionCommand F) (secret : List UInt8)
    (format : CommandSigningFormat F) : SigningCheck F String := do
  let signingString ← buildExecutionCommandSigningString c format
  return encodeHex (mac.tag secret (utf8Bytes signingString))

def verifyExecutionCommandHmac (mac : Mac) (c : ExecutionCommand F) (secret : List UInt8)
    (format : CommandSigningFormat F) : SigningCheck F Unit := do
  let signingString ← buildExecutionCommandSigningString c format
  reject (c.hmac.toList.length ≠ 64 ∨ isLowerHex c.hmac = false) .invalidHmacEncoding
  let expected ← need (decodeHex c.hmac) .invalidHmacEncoding
  reject (mac.tag secret (utf8Bytes signingString) ≠ expected) .hmacMismatch

/-! ## a signed command verifies -/

theorem signingString_ignores_hmac (c : ExecutionCommand F) (hmac : String)
    (format : CommandSigningFormat F) :
    buildExecutionCommandSigningString { c with hmac := hmac } format
      = buildExecutionCommandSigningString c format := rfl

theorem verify_signed {mac : Mac} {c : ExecutionCommand F} {secret : List UInt8}
    {format : CommandSigningFormat F} {hmac : String}
    (h : signExecutionCommand mac c secret format = .ok hmac) :
    verifyExecutionCommandHmac mac { c with hmac := hmac } secret format = .ok () := by
  simp only [signExecutionCommand, bind_ok, pure_ok] at h
  obtain ⟨signingString, hstring, rfl⟩ := h
  simp only [verifyExecutionCommandHmac, signingString_ignores_hmac, bind_ok, exists_unit,
    reject_ok, need_ok, not_or, not_not]
  refine ⟨signingString, hstring, ⟨?_, ?_⟩, _, decodeHex_encodeHex _, rfl⟩
  · rw [encodeHex_length, mac.tag_length]
  · rw [encodeHex_lower]
    exact fun h => by cases h

end

end Sinan.Protocol
