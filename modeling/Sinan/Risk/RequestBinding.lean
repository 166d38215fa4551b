import Sinan.Lib.JsonText
import Sinan.Risk.RequestHash

/-!
# The digest binds the request

Two requests with the same bytes are the same request, down to the bits of every number.  The tree of
a record determines every field but its numbers, and which of them are there; the walk determines the
numbers of a record whose tree is known, and where they end.
-/

namespace Sinan.Risk

open Lib Json

/-! ## parts -/

theorem hashF64_append {a b : UInt64} {u v : List UInt8} :
    hashF64 a ++ u = hashF64 b ++ v ↔ a = b ∧ u = v := by
  unfold hashF64
  rw [bigEndian_append_inj a.toNat_lt b.toNat_lt, UInt64.toNat_inj]

theorem hashOptionalF64_append {a b : Option UInt64} {u v : List UInt8} :
    hashOptionalF64 a ++ u = hashOptionalF64 b ++ v ↔ a = b ∧ u = v := by
  cases a with
  | none =>
    cases b with
    | none => simp only [hashOptionalF64, List.append_cancel_left_eq, true_and]
    | some b => simp [hashOptionalF64]
  | some a =>
    cases b with
    | none => simp [hashOptionalF64]
    | some b =>
      simp only [hashOptionalF64, List.cons_append, List.cons.injEq, true_and, hashF64_append,
        Option.some.injEq]

theorem string_map {a b : Option String} :
    a.map (.string : String → JsonValue) = b.map .string ↔ a = b :=
  (Option.map_injective fun _ _ => Json.string.inj).eq_iff

theorem int_eq {a b : Int} : int a = int b ↔ a = b :=
  ⟨fun h => JsonNumber.int.inj (Json.number.inj h), congrArg int⟩

theorem nat_eq {a b : Nat} : nat a = nat b ↔ a = b := int_eq.trans Int.ofNat_inj

theorem enum_eq {E : Type} {asStr : E → String} (hinj : ∀ {a b}, asStr a = asStr b → a = b) {a b : E} :
    asStr a = asStr b ↔ a = b :=
  ⟨hinj, congrArg asStr⟩

theorem enum_map {E : Type} {asStr : E → String} (hinj : ∀ {a b}, asStr a = asStr b → a = b)
    {a b : Option E} :
    a.map (fun t => (.string (asStr t) : JsonValue)) = b.map (fun t => .string (asStr t)) ↔ a = b :=
  (Option.map_injective fun _ _ h => hinj (Json.string.inj h)).eq_iff

theorem recommendation_inj {a b : AgentReviewRecommendation} (h : a.asStr = b.asStr) : a = b := by
  revert h
  cases a <;> cases b <;> decide

theorem int_map {a b : Option Int} : a.map int = b.map int ↔ a = b :=
  (Option.map_injective fun _ _ => int_eq.mp).eq_iff

/-! ## records -/

theorem decision_binds : Binds decisionJson decisionFloats := by
  intro x y u v hjson hfloats
  have hfields := record_inj hjson rfl (by simp only [List.map_cons, List.map_nil]; decide)
  simp only [decisionFloats, List.append_assoc, hashF64_append, hashOptionalF64_append] at hfloats
  simp only [List.cons.injEq, Prod.mk.injEq, true_and, Option.some.injEq, Json.string.injEq,
    int_eq, enum_eq TradeIntentAction.asStr_inj] at hfields
  cases x
  cases y
  simp_all

theorem intentLeg_binds : Binds intentLegJson intentLegFloats := by
  intro x y u v hjson hfloats
  have hfields := record_inj hjson rfl (by simp only [List.map_cons, List.map_nil]; decide)
  simp only [intentLegFloats, List.append_assoc, hashF64_append, hashOptionalF64_append] at hfloats
  simp only [List.cons.injEq, Prod.mk.injEq, true_and, Option.some.injEq, Json.string.injEq,
    enum_eq TradeIntentLegAction.asStr_inj] at hfields
  cases x
  cases y
  simp_all

theorem agentReview_binds : Binds agentReviewJson agentReviewFloats := by
  intro x y u v hjson hfloats
  have hfields := record_inj hjson rfl (by simp only [List.map_cons, List.map_nil]; decide)
  simp only [agentReviewFloats, hashF64_append] at hfloats
  simp only [List.cons.injEq, Prod.mk.injEq, true_and, Option.some.injEq, Json.string.injEq,
    enum_eq recommendation_inj] at hfields
  cases x
  cases y
  simp_all

theorem legs_map {a b : Option (List (TradeIntentLeg UInt64))} :
    (a.map fun legs => (.array (legs.map intentLegJson) : JsonValue)) =
        (b.map fun legs => .array (legs.map intentLegJson)) ↔
      a.map (List.map intentLegJson) = b.map (List.map intentLegJson) := by
  rcases a with _ | a <;> rcases b with _ | b
  · simp only [Option.map_none]
  · simp only [Option.map_none, Option.map_some, reduceCtorEq]
  · simp only [Option.map_none, Option.map_some, reduceCtorEq]
  · simp only [Option.map_some, Option.some.injEq, Json.array.injEq]

theorem intent_binds : Binds intentJson intentFloats := by
  intro x y u v hjson hfloats
  have hfields := record_inj hjson rfl (by simp only [List.map_cons, List.map_nil]; decide)
  simp only [intentFloats, List.append_assoc, hashF64_append, hashOptionalF64_append] at hfloats
  simp only [List.cons.injEq, Prod.mk.injEq, true_and, Option.some.injEq, Json.string.injEq,
    int_eq, enum_eq TradeIntentAction.asStr_inj, legs_map] at hfields
  obtain ⟨hconfidence, hrisk, hsl, htp, hwalk⟩ := hfloats
  have hlegs : x.proposedLegs.map (List.map intentLegJson) =
      y.proposedLegs.map (List.map intentLegJson) := by simp_all
  have hbind := intentLeg_binds.list.option x.proposedLegs y.proposedLegs u v hlegs hwalk
  cases x
  cases y
  simp_all

theorem account_binds : Binds accountJson accountFloats := by
  intro x y u v hjson hfloats
  have hfields := record_inj hjson rfl (by simp only [List.map_cons, List.map_nil]; decide)
  simp only [accountFloats, List.append_assoc, hashF64_append] at hfloats
  simp only [List.cons.injEq, Prod.mk.injEq, true_and, Option.some.injEq, Json.string.injEq,
    int_eq] at hfields
  cases x
  cases y
  simp_all

theorem position_binds : Binds positionJson positionFloats := by
  intro x y u v hjson hfloats
  have hfields := record_inj hjson rfl (by simp only [List.map_cons, List.map_nil]; decide)
  simp only [positionFloats, List.append_assoc, hashF64_append, hashOptionalF64_append] at hfloats
  simp only [List.cons.injEq, Prod.mk.injEq, true_and, Option.some.injEq, Json.string.injEq,
    int_eq, enum_eq PositionSide.asStr_inj] at hfields
  cases x
  cases y
  simp_all

theorem order_binds : Binds orderJson orderFloats := by
  intro x y u v hjson hfloats
  have hfields := record_inj hjson rfl (by simp only [List.map_cons, List.map_nil]; decide)
  simp only [orderFloats, List.append_assoc, hashF64_append, hashOptionalF64_append] at hfloats
  simp only [List.cons.injEq, Prod.mk.injEq, true_and, Option.some.injEq, Json.string.injEq,
    int_eq, int_map, string_map, enum_eq PositionSide.asStr_inj, enum_eq OrderType.asStr_inj,
    enum_eq OrderSnapshotStatus.asStr_inj] at hfields
  cases x
  cases y
  simp_all

theorem metadata_binds : Binds metadataJson metadataFloats := by
  intro x y u v hjson hfloats
  have hfields := record_inj hjson rfl (by simp only [List.map_cons, List.map_nil]; decide)
  simp only [metadataFloats, List.append_assoc, hashF64_append, hashOptionalF64_append] at hfloats
  simp only [List.cons.injEq, Prod.mk.injEq, true_and, Option.some.injEq, Json.string.injEq,
    int_eq, nat_eq, enum_eq SymbolTradeMode.asStr_inj] at hfields
  cases x
  cases y
  simp_all

theorem command_binds : Binds commandJson commandFloats := by
  intro x y u v hjson hfloats
  have hfields := record_inj hjson rfl (by simp only [List.map_cons, List.map_nil]; decide)
  simp only [commandFloats, List.append_assoc, hashOptionalF64_append] at hfloats
  simp only [List.cons.injEq, Prod.mk.injEq, true_and, Option.some.injEq, Json.string.injEq,
    int_eq, int_map, string_map, enum_eq ExecutionAction.asStr_inj, enum_map OrderType.asStr_inj,
    enum_map FillingPolicy.asStr_inj, enum_map TimePolicy.asStr_inj] at hfields
  cases x
  cases y
  simp_all

theorem policy_binds : Binds policyJson policyFloats := by
  intro x y u v hjson hfloats
  have hfields := record_inj hjson rfl (by simp only [List.map_cons, List.map_nil]; decide)
  simp only [policyFloats, List.append_assoc, hashF64_append] at hfloats
  simp only [List.cons.injEq, Prod.mk.injEq, true_and, Option.some.injEq, Json.string.injEq,
    Json.bool.injEq, int_eq, nat_eq] at hfields
  cases x
  cases y
  simp_all

theorem strategyPolicy_binds : Binds strategyPolicyJson strategyPolicyFloats := by
  intro x y u v hjson hfloats
  have hfields := record_inj hjson rfl (by simp only [List.map_cons, List.map_nil]; decide)
  simp only [strategyPolicyFloats, hashF64_append] at hfloats
  simp only [List.cons.injEq, Prod.mk.injEq, true_and, Option.some.injEq,
    Json.bool.injEq, nat_eq] at hfields
  cases x
  cases y
  simp_all

theorem candidate_binds : Binds candidateJson candidateFloats := by
  intro x y u v hjson hfloats
  have hfields := record_inj hjson rfl (by simp only [List.map_cons, List.map_nil]; decide)
  simp only [candidateFloats, List.append_assoc, hashF64_append] at hfloats
  simp only [List.cons.injEq, Prod.mk.injEq, true_and, Option.some.injEq, Json.string.injEq,
    enum_eq AdjustedRiskLegAction.asStr_inj] at hfields
  cases x
  cases y
  simp_all

theorem capacity_binds : Binds capacityJson capacityFloats := by
  intro x y u v hjson hfloats
  have hfields := record_inj hjson rfl (by simp only [List.map_cons, List.map_nil]; decide)
  simp only [capacityFloats, List.append_assoc, hashF64_append] at hfloats
  simp only [List.cons.injEq, Prod.mk.injEq, true_and, Option.some.injEq, Json.string.injEq,
    int_eq, nat_eq] at hfields
  cases x
  cases y
  simp_all

theorem market_binds : Binds marketJson marketFloats := by
  intro x y u v hjson hfloats
  have hfields := record_inj hjson rfl (by simp only [List.map_cons, List.map_nil]; decide)
  simp only [marketFloats, List.append_assoc, hashF64_append] at hfloats
  simp only [List.cons.injEq, Prod.mk.injEq, true_and, Option.some.injEq, Json.string.injEq,
    and_true] at hfields
  have hsnapshot := record_inj hfields.2 rfl (by simp only [List.map_cons, List.map_nil]; decide)
  simp only [List.cons.injEq, Prod.mk.injEq, true_and, Option.some.injEq, Json.string.injEq,
    int_eq, string_map] at hsnapshot
  obtain ⟨account, snapshot⟩ := x
  obtain ⟨account', snapshot'⟩ := y
  cases snapshot
  cases snapshot'
  simp_all

theorem commandState_inj {x y : ExecutionCommandState} (h : commandStateJson x = commandStateJson y) :
    x = y := by
  have hfields := record_inj h rfl (by simp only [List.map_cons, List.map_nil]; decide)
  simp only [List.cons.injEq, Prod.mk.injEq, true_and, Option.some.injEq, Json.string.injEq,
    int_eq, nat_eq, int_map, string_map, enum_eq ExecutionCommandStatus.asStr_inj] at hfields
  cases x
  cases y
  simp_all

theorem watermarks_inj {x y : RiskStateWatermarks} (h : watermarksJson x = watermarksJson y) :
    x = y := by
  have hfields := record_inj h rfl (by simp only [List.map_cons, List.map_nil]; decide)
  simp only [List.cons.injEq, Prod.mk.injEq, true_and, Option.some.injEq, int_eq] at hfields
  cases x
  cases y
  simp_all

/-! ## the request -/

theorem review_map {a b : Option (AgentReview UInt64)} :
    nullable (a.map agentReviewJson) = nullable (b.map agentReviewJson) ↔
      a.map agentReviewJson = b.map agentReviewJson := by
  have hnull : ∀ x, agentReviewJson x ≠ .null := fun x h => (nomatch h)
  rcases a with _ | a <;> rcases b with _ | b
  · simp only [Option.map_none]
  · simp only [nullable, Option.map_none, Option.map_some, Option.getD_none, Option.getD_some,
      Option.some.injEq, reduceCtorEq, iff_false]
    exact fun h => hnull b h.symm
  · simp only [nullable, Option.map_none, Option.map_some, Option.getD_none, Option.getD_some,
      Option.some.injEq, reduceCtorEq, iff_false]
    exact hnull a
  · simp only [nullable, Option.map_some, Option.getD_some, Option.some.injEq]

theorem request_binds : Binds requestJson hashRequestFloatBits := by
  intro x y u v hjson hfloats
  have hfields := record_inj hjson rfl (by simp only [List.map_cons, List.map_nil]; decide)
  simp only [List.cons.injEq, Prod.mk.injEq, true_and, Option.some.injEq, Json.string.injEq,
    Json.array.injEq, int_eq, review_map, and_true] at hfields
  obtain ⟨hrequest, hrisk, hevaluated, hdecision, hintent, hreview, haccount, hpositions, horders,
    hmetadata, hcommands, hstates, hpolicy, hstrategy, hmarkets, hcandidates, hmarks,
    hcapacity⟩ := hfields
  simp only [hashRequestFloatBits, List.append_assoc] at hfloats
  obtain ⟨hdecision, hfloats⟩ := decision_binds _ _ _ _ hdecision hfloats
  obtain ⟨hintent, hfloats⟩ := intent_binds _ _ _ _ hintent hfloats
  obtain ⟨hreview, hfloats⟩ := agentReview_binds.option _ _ _ _ hreview hfloats
  obtain ⟨haccount, hfloats⟩ := account_binds _ _ _ _ haccount hfloats
  obtain ⟨hpositions, hfloats⟩ := position_binds.list _ _ _ _ hpositions hfloats
  obtain ⟨horders, hfloats⟩ := order_binds.list _ _ _ _ horders hfloats
  obtain ⟨hmetadata, hfloats⟩ := metadata_binds.list _ _ _ _ hmetadata hfloats
  obtain ⟨hcommands, hfloats⟩ := command_binds.list _ _ _ _ hcommands hfloats
  obtain ⟨hpolicy, hfloats⟩ := policy_binds _ _ _ _ hpolicy hfloats
  obtain ⟨hstrategy, hfloats⟩ := strategyPolicy_binds _ _ _ _ hstrategy hfloats
  obtain ⟨hmarkets, hfloats⟩ := market_binds.list _ _ _ _ hmarkets hfloats
  obtain ⟨hcandidates, hfloats⟩ := candidate_binds.list _ _ _ _ hcandidates hfloats
  obtain ⟨hcapacity, hfloats⟩ := capacity_binds _ _ _ _ hcapacity hfloats
  have hstates := (List.map_injective_iff.mpr fun _ _ h => commandState_inj h) hstates
  have hmarks := watermarks_inj hmarks
  cases x
  cases y
  simp_all

/-! ## the digest -/

section
variable {toVec : JsonValue → Option ByteVec} {nonJson : RiskRequest UInt64 → ByteVec}
  {r s : RiskRequest UInt64}

theorem hashedBytes_split (h : hashedBytes toVec nonJson r = hashedBytes toVec nonJson s) :
    (requestBytes toVec nonJson r).bytes = (requestBytes toVec nonJson s).bytes ∧
      hashRequestFloatBits r = hashRequestFloatBits s := by
  simp only [hashedBytes, List.append_assoc, List.append_cancel_left_eq] at h
  have hr : (requestBytes toVec nonJson r).bytes.length < 256 ^ 8 := (requestBytes toVec nonJson r).short
  have hs : (requestBytes toVec nonJson s).bytes.length < 256 ^ 8 := (requestBytes toVec nonJson s).short
  obtain ⟨hlength, hrest⟩ := (bigEndian_append_inj hr hs).mp h
  exact List.append_inj hrest hlength

theorem hashedBytes_inj (hr : (toVec (requestJson r)).isSome) (hs : (toVec (requestJson s)).isSome)
    (hwrite : toVec (requestJson r) = toVec (requestJson s) → requestJson r = requestJson s)
    (h : hashedBytes toVec nonJson r = hashedBytes toVec nonJson s) : r = s := by
  obtain ⟨hbytes, hfloats⟩ := hashedBytes_split h
  obtain ⟨⟨b, hb⟩, hvec⟩ := Option.isSome_iff_exists.mp hr
  obtain ⟨⟨c, hc⟩, hvec'⟩ := Option.isSome_iff_exists.mp hs
  simp only [requestBytes, hvec, hvec', Option.getD_some] at hbytes
  have hjson : requestJson r = requestJson s := by
    apply hwrite
    rw [hvec, hvec']
    subst hbytes
    rfl
  have hwalk : hashRequestFloatBits r ++ [] = hashRequestFloatBits s ++ [] := by rw [hfloats]
  exact (request_binds r s [] [] hjson hwalk).1

theorem encodeHex_inj {a b : List UInt8} (h : encodeHex a = encodeHex b) : a = b := by
  have ha := decodeHex_encodeHex a
  rw [h, decodeHex_encodeHex] at ha
  exact (Option.some.inj ha).symm

/-- Requests that are digested from the same bytes are equal, and requests of one digest are equal
unless their bytes are a collision of the hash function. -/
theorem risk_request_hash_binds (toVec : JsonValue → Option ByteVec)
    (nonJson : RiskRequest UInt64 → ByteVec) (r s : RiskRequest UInt64)
    (hr : (toVec (requestJson r)).isSome) (hs : (toVec (requestJson s)).isSome)
    (hwrite : toVec (requestJson r) = toVec (requestJson s) → requestJson r = requestJson s) :
    (hashedBytes toVec nonJson r = hashedBytes toVec nonJson s → r = s) ∧
    ∀ sha256 : List UInt8 → List UInt8,
      riskRequestHash toVec nonJson sha256 r = riskRequestHash toVec nonJson sha256 s →
        r = s ∨ (hashedBytes toVec nonJson r ≠ hashedBytes toVec nonJson s ∧
          sha256 (hashedBytes toVec nonJson r) = sha256 (hashedBytes toVec nonJson s)) := by
  refine ⟨hashedBytes_inj hr hs hwrite, fun sha256 hhash => ?_⟩
  by_cases h : hashedBytes toVec nonJson r = hashedBytes toVec nonJson s
  · exact .inl (hashedBytes_inj hr hs hwrite h)
  · exact .inr ⟨h, encodeHex_inj hhash⟩

end

/-! ## a sample -/

def oneBits : UInt64 := 0x3FF0000000000000

/-- a position whose floating profit is a NaN with a payload -/
def nanPosition : PositionSnapshot UInt64 where
  accountId := "account-1"
  symbol := "XAUUSD"
  positionId := "position-1"
  side := .sell
  lots := oneBits
  openPrice := 0x409F400000000000
  sl := some 0x8000000000000000
  tp := none
  floatingPnl := 0x7FF8000000000001
  observedAt := 9900

def nanRequest : RiskRequest UInt64 where
  requestId := "request-1"
  riskId := "risk-1"
  evaluatedAt := 10000
  decision :=
    { decisionId := "decision-1", strategyId := "strategy-1", symbol := "XAUUSD", timeframe := "M15"
      action := .hold, confidence := oneBits, reason := "flat", proposedRiskPct := 0
      proposedSl := none, proposedTp := none, timestamp := 9000, signalExpiresAt := 60000 }
  intent :=
    { intentId := "intent-1", decisionId := "decision-1", strategyId := "strategy-1"
      correlationId := "correlation-1", idempotencyKey := "intent-key-1", accountId := "account-1"
      symbol := "XAUUSD", timeframe := "M15", action := .hold, confidence := oneBits
      reason := "flat", proposedRiskPct := 0, proposedSl := none, proposedTp := none
      proposedLegs := none, decisionTimestamp := 9000, signalExpiresAt := 60000
      requestedAt := 9500 }
  agentReview := none
  account :=
    { accountId := "account-1", balance := oneBits, equity := oneBits, margin := 0
      freeMargin := oneBits, currency := "USD", observedAt := 9900 }
  positions := [nanPosition]
  orders := []
  symbolMetadata := []
  pendingCommands := []
  pendingCommandStates := []
  policy :=
    { positionSizingVersion := "fixed-risk-at-stop.v1", maxRiskPerTradePct := oneBits
      maxDailyLossPct := oneBits, maxDrawdownPct := oneBits, maxSymbolExposurePct := oneBits
      maxTotalExposurePct := oneBits, maxMarginUsagePct := oneBits, requireStopLoss := true
      rejectExpiredSignal := true, maxApprovalTtlMs := 30000, maxSnapshotAgeMs := 30000
      maxOrderSnapshotAgeMs := 30000, maxMarketSnapshotAgeMs := 30000
      maxSymbolMetadataAgeMs := 30000, maxCapacityAgeMs := 30000, maxConcurrentPositions := 5
      requireValidSymbolMetadata := true, rejectTradeModeDisabled := true }
  strategyPolicy :=
    { maxRiskPerTradePct := oneBits, maxConcurrentLegs := 2, requireStopLoss := true
      signalExpiryBars := 3 }
  markets := []
  sizingCandidates := []
  stateWatermarks :=
    { positionsObservedAt := 9900, ordersObservedAt := 9900, pendingCommandsReconciledAt := 9900 }
  capacity :=
    { accountId := "account-1", strategyId := "strategy-1", observedAt := 9950
      dailyRealizedLossPct := 0, equityDrawdownPct := 0, remainingAccountRiskPct := oneBits
      remainingPortfolioRiskPct := oneBits, remainingStrategyLegs := 2 }

/-- The tree does not tell NaNs apart; the walk does. -/
example :
    positionJson { nanPosition with floatingPnl := 0x7FF8000000000002 } = positionJson nanPosition :=
  rfl

/-- the numbers of the sample, as they are written -/
def sampleNumberText : JsonNumber → List Char
  | .int value => (toString value).toList
  | .float 0x3FF0000000000000 => ['1', '.', '0']
  | .float 0x409F400000000000 => ['2', '0', '0', '0', '.', '0']
  | .float 0x8000000000000000 => ['-', '0', '.', '0']
  | .float _ => ['0', '.', '0']

/-- the compact text, in UTF-8, as far as a vector holds it -/
def sampleVec (value : JsonValue) : Option ByteVec :=
  some
    { bytes := ((text sampleNumberText value).flatMap String.utf8EncodeChar).take (2 ^ 64 - 1)
      short := Nat.lt_of_le_of_lt (List.length_take_le _ _) (by decide) }

/-- the same request with another payload in its NaN -/
def otherNanRequest : RiskRequest UInt64 :=
  { nanRequest with positions := [{ nanPosition with floatingPnl := 0x7FF8000000000002 }] }

/-- JSON writes both requests alike, and still they are digested from different bytes -/
theorem risk_request_hash_binds_nan :
    requestJson nanRequest = requestJson otherNanRequest ∧
      hashedBytes sampleVec (fun _ => ⟨[], by decide⟩) nanRequest ≠
        hashedBytes sampleVec (fun _ => ⟨[], by decide⟩) otherNanRequest := by
  have hjson : requestJson nanRequest = requestJson otherNanRequest := rfl
  refine ⟨hjson, fun hbytes => ?_⟩
  have hsame := (risk_request_hash_binds sampleVec (fun _ => ⟨[], by decide⟩) nanRequest
    otherNanRequest rfl rfl fun _ => hjson).1 hbytes
  have hpayload : (0x7FF8000000000001 : UInt64) = 0x7FF8000000000002 :=
    congrArg PositionSnapshot.floatingPnl (List.cons.inj (congrArg RiskRequest.positions hsame)).1
  exact absurd hpayload (by decide)

end Sinan.Risk
