import Sinan.Types.Number

/-!
# Identifiers and enumerations

Identifiers are strings with a type name.  An enumeration of the source is an inductive type; where
its wire text is read by a modelled function, `asStr` gives it.
-/

namespace Sinan

/-! ## identifiers -/

abbrev AccountId := String
abbrev BrokerDealId := String
abbrev BrokerOrderId := String
abbrev CausationId := String
abbrev ClientId := String
abbrev CommandId := String
abbrev CorrelationId := String
abbrev DecisionId := String
abbrev ExecutionId := String
abbrev IdempotencyKey := String
abbrev IntentId := String
abbrev LegId := String
abbrev MessageId := String
abbrev PlanId := String
abbrev PositionId := String
abbrev PositionTicket := String
abbrev RequestId := String
abbrev RiskId := String
abbrev SessionId := String
abbrev StrategyId := String
abbrev SymbolCode := String
abbrev TerminalId := String
abbrev TimeframeCode := String

/-- the stable leg identity of an intent without explicit legs -/
def singleLegId (intentId : IntentId) : LegId := "leg:" ++ intentId ++ ":0"

/-! ## trading -/

inductive TradeIntentAction where
  | buy
  | sell
  | close
  | hold
  deriving DecidableEq

def TradeIntentAction.asStr : TradeIntentAction → String
  | .buy => "BUY"
  | .sell => "SELL"
  | .close => "CLOSE"
  | .hold => "HOLD"

theorem TradeIntentAction.asStr_inj {a b : TradeIntentAction} (h : a.asStr = b.asStr) : a = b := by
  revert h
  cases a <;> cases b <;> decide

inductive TradeIntentLegAction where
  | buy
  | sell
  | close
  deriving DecidableEq

def TradeIntentLegAction.asStr : TradeIntentLegAction → String
  | .buy => "BUY"
  | .sell => "SELL"
  | .close => "CLOSE"

theorem TradeIntentLegAction.asStr_inj {a b : TradeIntentLegAction} (h : a.asStr = b.asStr) :
    a = b := by
  revert h
  cases a <;> cases b <;> decide

inductive AdjustedRiskLegAction where
  | buy
  | sell
  deriving DecidableEq

def AdjustedRiskLegAction.asStr : AdjustedRiskLegAction → String
  | .buy => "BUY"
  | .sell => "SELL"

theorem AdjustedRiskLegAction.asStr_inj {a b : AdjustedRiskLegAction} (h : a.asStr = b.asStr) :
    a = b := by
  revert h
  cases a <;> cases b <;> decide

inductive PositionSide where
  | buy
  | sell
  deriving DecidableEq

def PositionSide.asStr : PositionSide → String
  | .buy => "BUY"
  | .sell => "SELL"

theorem PositionSide.asStr_inj {a b : PositionSide} (h : a.asStr = b.asStr) : a = b := by
  revert h
  cases a <;> cases b <;> decide

inductive OrderType where
  | market
  | limit
  | stop
  | stopLimit
  deriving DecidableEq

def OrderType.asStr : OrderType → String
  | .market => "MARKET"
  | .limit => "LIMIT"
  | .stop => "STOP"
  | .stopLimit => "STOP_LIMIT"

theorem OrderType.asStr_inj {a b : OrderType} (h : a.asStr = b.asStr) : a = b := by
  revert h
  cases a <;> cases b <;> decide

theorem OrderType.asStr_ne_empty (a : OrderType) : a.asStr ≠ "" := by
  cases a <;> decide

inductive OrderSnapshotStatus where
  | placed
  | partiallyFilled
  | filled
  | cancelled
  | rejected
  | expired
  | unknown
  deriving DecidableEq

def OrderSnapshotStatus.asStr : OrderSnapshotStatus → String
  | .placed => "PLACED"
  | .partiallyFilled => "PARTIALLY_FILLED"
  | .filled => "FILLED"
  | .cancelled => "CANCELLED"
  | .rejected => "REJECTED"
  | .expired => "EXPIRED"
  | .unknown => "UNKNOWN"

theorem OrderSnapshotStatus.asStr_inj {a b : OrderSnapshotStatus} (h : a.asStr = b.asStr) :
    a = b := by
  revert h
  cases a <;> cases b <;> decide

inductive SymbolTradeMode where
  | full
  | longOnly
  | shortOnly
  | closeOnly
  | disabled
  deriving DecidableEq

def SymbolTradeMode.asStr : SymbolTradeMode → String
  | .full => "FULL"
  | .longOnly => "LONG_ONLY"
  | .shortOnly => "SHORT_ONLY"
  | .closeOnly => "CLOSE_ONLY"
  | .disabled => "DISABLED"

theorem SymbolTradeMode.asStr_inj {a b : SymbolTradeMode} (h : a.asStr = b.asStr) : a = b := by
  revert h
  cases a <;> cases b <;> decide

inductive ExecutionAction where
  | buy
  | sell
  | close
  | modify
  | cancel
  deriving DecidableEq

def ExecutionAction.asStr : ExecutionAction → String
  | .buy => "BUY"
  | .sell => "SELL"
  | .close => "CLOSE"
  | .modify => "MODIFY"
  | .cancel => "CANCEL"

theorem ExecutionAction.asStr_inj {a b : ExecutionAction} (h : a.asStr = b.asStr) : a = b := by
  revert h
  cases a <;> cases b <;> decide

inductive FillingPolicy where
  | fok
  | ioc
  | «return»
  deriving DecidableEq

def FillingPolicy.asStr : FillingPolicy → String
  | .fok => "FOK"
  | .ioc => "IOC"
  | .return => "RETURN"

theorem FillingPolicy.asStr_inj {a b : FillingPolicy} (h : a.asStr = b.asStr) : a = b := by
  revert h
  cases a <;> cases b <;> decide

theorem FillingPolicy.asStr_ne_empty (a : FillingPolicy) : a.asStr ≠ "" := by
  cases a <;> decide

inductive TimePolicy where
  | gtc
  | day
  | specified
  deriving DecidableEq

def TimePolicy.asStr : TimePolicy → String
  | .gtc => "GTC"
  | .day => "DAY"
  | .specified => "SPECIFIED"

theorem TimePolicy.asStr_inj {a b : TimePolicy} (h : a.asStr = b.asStr) : a = b := by
  revert h
  cases a <;> cases b <;> decide

theorem TimePolicy.asStr_ne_empty (a : TimePolicy) : a.asStr ≠ "" := by
  cases a <;> decide

/-! ## execution -/

inductive ExecutionEventStatus where
  | accepted
  | orderSent
  | rejected
  | filled
  | partiallyFilled
  | failed
  | expired
  | cancelled
  deriving DecidableEq

inductive ExecutionCommandStatus where
  | created
  | dispatched
  | deliveryUnconfirmed
  | deliveryFailed
  | reconciling
  | manualReconciliationRequired
  | commandReceived
  | accepted
  | rejected
  | orderSent
  | partiallyFilled
  | filled
  | failed
  | expired
  | cancelled
  deriving DecidableEq

def ExecutionCommandStatus.asStr : ExecutionCommandStatus → String
  | .created => "CREATED"
  | .dispatched => "DISPATCHED"
  | .deliveryUnconfirmed => "DELIVERY_UNCONFIRMED"
  | .deliveryFailed => "DELIVERY_FAILED"
  | .reconciling => "RECONCILING"
  | .manualReconciliationRequired => "MANUAL_RECONCILIATION_REQUIRED"
  | .commandReceived => "COMMAND_RECEIVED"
  | .accepted => "ACCEPTED"
  | .rejected => "REJECTED"
  | .orderSent => "ORDER_SENT"
  | .partiallyFilled => "PARTIALLY_FILLED"
  | .filled => "FILLED"
  | .failed => "FAILED"
  | .expired => "EXPIRED"
  | .cancelled => "CANCELLED"

theorem ExecutionCommandStatus.asStr_inj {a b : ExecutionCommandStatus} (h : a.asStr = b.asStr) :
    a = b := by
  revert h
  cases a <;> cases b <;> decide

inductive TradeIntentStatus where
  | accepted
  | riskBlocked
  | rejected
  | duplicate
  | expired
  | cancelled
  deriving DecidableEq

def TradeIntentStatus.asStr : TradeIntentStatus → String
  | .accepted => "ACCEPTED"
  | .riskBlocked => "RISK_BLOCKED"
  | .rejected => "REJECTED"
  | .duplicate => "DUPLICATE"
  | .expired => "EXPIRED"
  | .cancelled => "CANCELLED"

inductive ExecutionPlanMode where
  | sequential
  | simultaneous
  | bestEffortAtomic
  deriving DecidableEq

inductive ExecutionFailurePolicy where
  | cancelAll
  | partialFill
  | retry
  deriving DecidableEq

inductive RollbackMode where
  | closeFilled
  | none
  deriving DecidableEq

inductive ExecutionPlanStatus where
  | pending
  | reconciling
  | manualReconciliationRequired
  | partiallyDone
  | completed
  | failed
  | expired
  | cancelled
  deriving DecidableEq

/-- `PARTIAL` is `partiallyDone` here, as the source's word is a keyword -/
def ExecutionPlanStatus.asStr : ExecutionPlanStatus → String
  | .pending => "PENDING"
  | .reconciling => "RECONCILING"
  | .manualReconciliationRequired => "MANUAL_RECONCILIATION_REQUIRED"
  | .partiallyDone => "PARTIAL"
  | .completed => "COMPLETED"
  | .failed => "FAILED"
  | .expired => "EXPIRED"
  | .cancelled => "CANCELLED"

inductive ExecutionLegStatus where
  | pending
  | sent
  | deliveryUnconfirmed
  | reconciling
  | manualReconciliationRequired
  | commandReceived
  | accepted
  | rejected
  | orderSent
  | partiallyFilled
  | filled
  | failed
  | expired
  | cancelled
  deriving DecidableEq

/-! ## error codes -/

inductive ErrorCode where
  | accountSnapshotStale
  | symbolMetadataStale
  | orderSnapshotStale
  | tradeIntentExpired
  | tradeIntentTimeInvalid
  | duplicateTradeIntent
  | duplicateCommand
  | duplicateIdempotencyConflict
  | invalidHmac
  | authenticationFailed
  | sessionIdentityMismatch
  | commandExpired
  | commandDeliveryTimeout
  | commandDeliveryUnconfirmed
  | commandDeliveryFailed
  | commandDispatchBackpressure
  | commandInflightLimitReached
  | brokerRejected
  | brokerTimeout
  | insufficientMargin
  | invalidVolume
  | invalidPrice
  | invalidStops
  | tradeModeDisabled
  | reconciliationFailed
  | manualReconciliationRequired
  | schemaValidationFailed
  | badRequest
  | unauthorized
  | forbidden
  | notFound
  | methodNotAllowed
  | conflict
  | idempotencyKeyConflict
  | rateLimited
  | internalError
  | serviceUnavailable
  | marketSnapshotStale
  | riskInputInvalid
  | riskLimitExceeded
  | exposureLimitExceeded
  | positionLimitExceeded
  | riskReductionNotProvable
  | pendingExposureConflict
  | riskEngineCircuitBreakerTriggered
  | redisUnavailable
  | stateStoreUnavailable
  | clockSkewDetected
  | timeSyncUnhealthy
  | longTermAuditWriteFailed
  | secretRotationFailed
  | deadletterCreated
  | unknownType
  | schemaMajorMismatch
  | missingRequiredField
  | invalidFieldType
  | decodeFailed
  | wireFrameTooLarge
  | wireProtocolViolation
  deriving DecidableEq

def ErrorCode.asStr : ErrorCode → String
  | .accountSnapshotStale => "ACCOUNT_SNAPSHOT_STALE"
  | .symbolMetadataStale => "SYMBOL_METADATA_STALE"
  | .orderSnapshotStale => "ORDER_SNAPSHOT_STALE"
  | .tradeIntentExpired => "TRADE_INTENT_EXPIRED"
  | .tradeIntentTimeInvalid => "TRADE_INTENT_TIME_INVALID"
  | .duplicateTradeIntent => "DUPLICATE_TRADE_INTENT"
  | .duplicateCommand => "DUPLICATE_COMMAND"
  | .duplicateIdempotencyConflict => "DUPLICATE_IDEMPOTENCY_CONFLICT"
  | .invalidHmac => "INVALID_HMAC"
  | .authenticationFailed => "AUTHENTICATION_FAILED"
  | .sessionIdentityMismatch => "SESSION_IDENTITY_MISMATCH"
  | .commandExpired => "COMMAND_EXPIRED"
  | .commandDeliveryTimeout => "COMMAND_DELIVERY_TIMEOUT"
  | .commandDeliveryUnconfirmed => "COMMAND_DELIVERY_UNCONFIRMED"
  | .commandDeliveryFailed => "COMMAND_DELIVERY_FAILED"
  | .commandDispatchBackpressure => "COMMAND_DISPATCH_BACKPRESSURE"
  | .commandInflightLimitReached => "COMMAND_INFLIGHT_LIMIT_REACHED"
  | .brokerRejected => "BROKER_REJECTED"
  | .brokerTimeout => "BROKER_TIMEOUT"
  | .insufficientMargin => "INSUFFICIENT_MARGIN"
  | .invalidVolume => "INVALID_VOLUME"
  | .invalidPrice => "INVALID_PRICE"
  | .invalidStops => "INVALID_STOPS"
  | .tradeModeDisabled => "TRADE_MODE_DISABLED"
  | .reconciliationFailed => "RECONCILIATION_FAILED"
  | .manualReconciliationRequired => "MANUAL_RECONCILIATION_REQUIRED"
  | .schemaValidationFailed => "SCHEMA_VALIDATION_FAILED"
  | .badRequest => "BAD_REQUEST"
  | .unauthorized => "UNAUTHORIZED"
  | .forbidden => "FORBIDDEN"
  | .notFound => "NOT_FOUND"
  | .methodNotAllowed => "METHOD_NOT_ALLOWED"
  | .conflict => "CONFLICT"
  | .idempotencyKeyConflict => "IDEMPOTENCY_KEY_CONFLICT"
  | .rateLimited => "RATE_LIMITED"
  | .internalError => "INTERNAL_ERROR"
  | .serviceUnavailable => "SERVICE_UNAVAILABLE"
  | .marketSnapshotStale => "MARKET_SNAPSHOT_STALE"
  | .riskInputInvalid => "RISK_INPUT_INVALID"
  | .riskLimitExceeded => "RISK_LIMIT_EXCEEDED"
  | .exposureLimitExceeded => "EXPOSURE_LIMIT_EXCEEDED"
  | .positionLimitExceeded => "POSITION_LIMIT_EXCEEDED"
  | .riskReductionNotProvable => "RISK_REDUCTION_NOT_PROVABLE"
  | .pendingExposureConflict => "PENDING_EXPOSURE_CONFLICT"
  | .riskEngineCircuitBreakerTriggered => "RISK_ENGINE_CIRCUIT_BREAKER_TRIGGERED"
  | .redisUnavailable => "REDIS_UNAVAILABLE"
  | .stateStoreUnavailable => "STATE_STORE_UNAVAILABLE"
  | .clockSkewDetected => "CLOCK_SKEW_DETECTED"
  | .timeSyncUnhealthy => "TIME_SYNC_UNHEALTHY"
  | .longTermAuditWriteFailed => "LONG_TERM_AUDIT_WRITE_FAILED"
  | .secretRotationFailed => "SECRET_ROTATION_FAILED"
  | .deadletterCreated => "DEADLETTER_CREATED"
  | .unknownType => "UNKNOWN_TYPE"
  | .schemaMajorMismatch => "SCHEMA_MAJOR_MISMATCH"
  | .missingRequiredField => "MISSING_REQUIRED_FIELD"
  | .invalidFieldType => "INVALID_FIELD_TYPE"
  | .decodeFailed => "DECODE_FAILED"
  | .wireFrameTooLarge => "WIRE_FRAME_TOO_LARGE"
  | .wireProtocolViolation => "WIRE_PROTOCOL_VIOLATION"

/-- a broker or adapter error may be outside the centrally managed codes -/
inductive ErrorCodeOrString where
  | known (code : ErrorCode)
  | other (value : String)
  deriving DecidableEq

def ErrorCodeOrString.asStr : ErrorCodeOrString → String
  | .known code => code.asStr
  | .other value => value

end Sinan
