import Sinan.Core.Approved
import Sinan.Execution.Bundle
import Sinan.Risk.Caps

/-!
# Priced commands

The approval bounds the loss of one lot from the worst entry price to the stop.  A command of a
pending order carries a price of its own, which the builder compares with that entry only from one
side; so what the command can lose is within the approval exactly if its price is nearer to that
entry than the stop is.
-/

namespace Sinan.Core

open Lib Breaker Risk Execution Protocol

/-! ## the loss from a price to a stop -/

/-- what one lot loses, in whole ticks, and its costs -/
def lossFrom (m : SymbolMetadataSnapshot ℚ) (cost price stop : ℚ) : ℚ :=
  ⌈|price - stop| / m.tickSize⌉ * m.tickValueLoss + max cost 0

/-- the stop is on the losing side of the price -/
def StopBehind (action : ExecutionAction) (price stop : ℚ) : Prop :=
  (action = .buy ∧ stop < price) ∨ (action = .sell ∧ price < stop)

/-- a price is not worse than another for a position of this kind -/
def NoWorsePrice (action : ExecutionAction) (price entry : ℚ) : Prop :=
  (action = .buy ∧ price ≤ entry) ∨ (action = .sell ∧ entry ≤ price)

variable {m : SymbolMetadataSnapshot ℚ} {entry : ℚ}

theorem lossFrom_mono (htick : 0 < m.tickSize) (hvalue : 0 < m.tickValueLoss) {price stop : ℚ}
    (cost : ℚ) (h : |price - stop| ≤ |entry - stop|) :
    lossFrom m cost price stop ≤ lossFrom m cost entry stop := by
  have hticks : ⌈|price - stop| / m.tickSize⌉ ≤ ⌈|entry - stop| / m.tickSize⌉ :=
    Int.ceil_mono (div_le_div_of_nonneg_right h htick.le)
  have hcast : (⌈|price - stop| / m.tickSize⌉ : ℚ) ≤ ⌈|entry - stop| / m.tickSize⌉ := by
    exact_mod_cast hticks
  have hmoney := mul_le_mul_of_nonneg_right hcast hvalue.le
  unfold lossFrom
  linarith only [hmoney]

theorem StopBehind.distance {action : ExecutionAction} {price stop : ℚ}
    (hstop : StopBehind action price stop) (hprice : NoWorsePrice action price entry) :
    |price - stop| ≤ |entry - stop| := by
  rcases hstop with ⟨rfl, hlt⟩ | ⟨rfl, hlt⟩
  · rcases hprice with ⟨-, hle⟩ | ⟨hsell, -⟩
    · rw [abs_of_pos (by linarith), abs_of_pos (by linarith)]
      linarith
    · cases hsell
  · rcases hprice with ⟨hbuy, -⟩ | ⟨-, hle⟩
    · cases hbuy
    · rw [abs_of_neg (by linarith), abs_of_neg (by linarith)]
      linarith

/-- a price that is not worse than the entry is before the stop exactly if it is nearer to the entry -/
theorem NoWorsePrice.before_iff {action : ExecutionAction} {price stop : ℚ}
    (hprice : NoWorsePrice action price entry) (hentry : StopBehind action entry stop) :
    StopBehind action price stop ↔ |entry - price| < |entry - stop| := by
  rcases hentry with ⟨rfl, hlt⟩ | ⟨rfl, hlt⟩
  · rcases hprice with ⟨-, hle⟩ | ⟨hsell, -⟩
    · rw [abs_of_nonneg (by linarith), abs_of_pos (by linarith)]
      constructor
      · rintro (⟨-, h⟩ | ⟨hsell, -⟩)
        · linarith
        · cases hsell
      · intro h
        exact .inl ⟨rfl, by linarith⟩
    · cases hsell
  · rcases hprice with ⟨hbuy, -⟩ | ⟨-, hle⟩
    · cases hbuy
    · rw [abs_of_nonpos (by linarith), abs_of_neg (by linarith)]
      constructor
      · rintro (⟨hbuy, -⟩ | ⟨-, h⟩)
        · cases hbuy
        · linarith
      · intro h
        exact .inr ⟨rfl, by linarith⟩

/-! ## what a prepared leg is bound to -/

/-- the loss that a leg is sized with is the one from its worst entry to its stop -/
structure SizedAtStop (request : RiskRequest ℚ) (c : PositionSizingCandidate ℚ)
    (m : SymbolMetadataSnapshot ℚ) (p : PreparedLeg ℚ) : Prop where
  candidate : c ∈ request.sizingCandidates
  provenance : p.provenance = c.provenance
  metadata : metadataOf request c.symbol = some m
  tickSize : 0 < m.tickSize
  tickValue : 0 < m.tickValueLoss
  entry : p.entry = c.worstEntryPrice
  stop : p.stop = c.stopLossPrice
  behind : StopBehind (AdjustedRiskLegAction.toExecution c.action) c.worstEntryPrice c.stopLossPrice
  loss : p.lossPerLot = lossFrom m c.estimatedCostPerLot c.worstEntryPrice c.stopLossPrice

theorem notionalPerLot_value {market : RiskMarketSnapshot ℚ} {price : Option ℚ} {n : ℚ}
    (h : notionalPerLot m market price = .ok n) (htick : 0 < m.tickSize) :
    0 < m.tickValueLoss := by
  simp only [notionalPerLot, bind_ok, exists_unit, pure_ok, reject_ok, not_le, checkedDiv_ok] at h
  obtain ⟨bid, -, ask, -, size, hsize, value, hvalue, ticks, ⟨-, rfl⟩, hpositive, -⟩ := h
  rw [decimal_exact hsize, decimal_exact hvalue] at hpositive
  have hnonneg : 0 ≤ max |bid| |ask| := (abs_nonneg bid).trans (le_max_left _ _)
  have hnotional : ∀ x : ℚ, 0 ≤ x → 0 < ⌈x / m.tickSize⌉ * m.tickValueLoss → 0 < m.tickValueLoss := by
    intro x hx hpos
    have hceil : (0 : ℚ) ≤ ⌈x / m.tickSize⌉ := by
      exact_mod_cast Int.ceil_nonneg (div_nonneg hx htick.le)
    exact pos_of_mul_pos_right hpos hceil
  refine hnotional _ ?_ hpositive
  cases price with
  | none => exact hnonneg
  | some additional => exact hnonneg.trans (le_max_left _ _)

theorem lossPerLotOf_exact {legId : LegId} {stop cost loss : ℚ}
    (h : lossPerLotOf legId m entry stop cost = .ok loss) :
    0 < m.tickSize ∧ loss = ⌈|entry - stop| / m.tickSize⌉ * m.tickValueLoss + cost := by
  simp only [lossPerLotOf, bind_ok, exists_unit, pure_ok, reject_ok, not_or, not_le,
    checkedDiv_ok] at h
  obtain ⟨_, -, size, hsize, value, hvalue, -, ticks, ⟨hzero, rfl⟩, ⟨hticks, -⟩, rfl⟩ := h
  rw [decimal_exact hsize] at hzero hticks ⊢
  rw [decimal_exact hvalue]
  refine ⟨?_, rfl⟩
  by_contra hnot
  have hquotient : |entry - stop| / m.tickSize ≤ 0 :=
    div_nonpos_of_nonneg_of_nonpos (abs_nonneg _) (not_lt.mp hnot)
  have hceil : ⌈|entry - stop| / m.tickSize⌉ ≤ 0 := Int.ceil_le.mpr (by exact_mod_cast hquotient)
  exact absurd hticks (not_lt.mpr hceil)

theorem directionValid_behind {action : AdjustedRiskLegAction} {stop bid ask : ℚ}
    (h : directionValid action entry stop bid ask = true) :
    StopBehind (AdjustedRiskLegAction.toExecution action) entry stop := by
  cases action with
  | buy => exact .inl ⟨rfl, (of_decide_eq_true h).1⟩
  | sell => exact .inr ⟨rfl, (of_decide_eq_true h).1⟩

theorem prepareLeg_sizedAtStop {request : RiskRequest ℚ} {e : ExpectedLeg ℚ} {p : PreparedLeg ℚ}
    (h : prepareLeg request e = .ok p) : ∃ c m, SizedAtStop request c m p := by
  simp only [prepareLeg, bind_ok, exists_unit, reject_ok, need_ok, pure_ok] at h
  obtain ⟨c, hcandidate, -, ratio, -, _, -, -, -, _, -, _, -, entry, hentry, stop, hstop, cost, hcost,
    -, m, hfound, _, -, -, _, -, _, -, hdirection, loss, hloss, notional, hnotional, _, -, _, -, _, -, _, -,
    _, -, rfl⟩ := h
  obtain ⟨htick, hloss⟩ := lossPerLotOf_exact hloss
  refine ⟨c, m, (find_key hcandidate).1, rfl, hfound, htick,
    notionalPerLot_value hnotional htick, decimal_exact hentry, decimal_exact hstop, ?_, ?_⟩
  · rw [decimal_exact hentry, decimal_exact hstop] at hdirection
    exact directionValid_behind (Bool.of_not_eq_false hdirection)
  · show loss = _
    rw [hloss, decimal_exact hentry, decimal_exact hstop, decimal_exact hcost]
    rfl

theorem sizedAs_loss {p : PreparedLeg ℚ} {a : AdjustedRiskLeg ℚ} (h : SizedAs p a) :
    a.lossPerLot = p.lossPerLot := by
  obtain ⟨scale, base, s, hs, ha⟩ := h
  simp only [sizeLeg, bind_ok, exists_unit, pure_ok, Prod.exists] at hs
  obtain ⟨_, -, _, _, -, -, -, _, -, -, rfl⟩ := hs
  simp only [adjustLeg, bind_ok, pure_ok] at ha
  obtain ⟨_, -, _, -, _, -, _, -, _, -, loss, hloss, rfl⟩ := ha
  exact requiredF64_exact hloss

/-! ## one command -/

/-- the command of a leg beside what was approved for it and what it was resolved with -/
structure PricedLeg (request : ExecutionBuildRequest ℚ) (command : ExecutionCommand ℚ)
    (approved : AdjustedRiskLeg ℚ) (c : PositionSizingCandidate ℚ) (m : SymbolMetadataSnapshot ℚ)
    (r : ResolvedLegExecution ℚ) : Prop where
  approved_mem : approved ∈ request.riskResult.adjustedLegs.getD []
  candidate : c ∈ request.riskRequest.sizingCandidates
  resolved : r ∈ request.resolvedLegs
  approvedId : command.legId = some approved.legId
  candidateId : c.legId = approved.legId
  resolvedId : r.legId = approved.legId
  metadata : metadataOf request.riskRequest command.symbol = some m
  tickSize : 0 < m.tickSize
  tickValue : 0 < m.tickValueLoss
  price : command.price = r.price
  stop : command.sl = some c.stopLossPrice
  behind : StopBehind command.action c.worstEntryPrice c.stopLossPrice
  entry : ∀ price, r.price = some price → NoWorsePrice command.action price c.worstEntryPrice
  loss : approved.lossPerLot = lossFrom m c.estimatedCostPerLot c.worstEntryPrice c.stopLossPrice

theorem validateOrderPrice_noWorse {intent : IntentLeg ℚ} {approved : AdjustedRiskLeg ℚ}
    {r : ResolvedLegExecution ℚ} (h : validateOrderPrice intent approved r = .ok ()) {price : ℚ}
    (hprice : r.price = some price) :
    NoWorsePrice (AdjustedRiskLegAction.toExecution approved.action) price
      approved.sizingEntryPrice := by
  have hbound : withinEntryBound approved price = true := by
    unfold validateOrderPrice at h
    split at h
    · rw [reject_ok, hprice] at h
      exact absurd rfl h
    · simp only [bind_ok, exists_unit, need_ok, reject_ok, Bool.not_eq_false] at h
      obtain ⟨p, hp, -, hbound⟩ := h
      rw [hprice] at hp
      cases hp
      exact hbound
  unfold withinEntryBound at hbound
  cases haction : approved.action with
  | buy =>
    rw [haction] at hbound
    exact .inl ⟨rfl, of_decide_eq_true hbound⟩
  | sell =>
    rw [haction] at hbound
    exact .inr ⟨rfl, of_decide_eq_true hbound⟩

section
variable {mac : Mac} {digest : RequestDigest ℚ} {request : ExecutionBuildRequest ℚ} {p : Prepared ℚ}
  {expected : List (ExpectedLeg ℚ)}

theorem sizedFrom_candidate {result : RiskResult ℚ} {riskRequest : RiskRequest ℚ}
    (h : SizedFrom riskRequest expected result) {a : AdjustedRiskLeg ℚ}
    (ha : a ∈ result.adjustedLegs.getD []) :
    ∃ c m q, SizedAtStop riskRequest c m q ∧ SizedAs q a := by
  obtain ⟨prepared, adjusted, hprepared, hadjusted, hlegs, -⟩ := h.legs
  rw [hlegs] at ha
  obtain ⟨q, hq, has⟩ := forall₂_mem_right hadjusted ha
  obtain ⟨e, -, he⟩ := forall₂_mem_right hprepared hq
  obtain ⟨c, m, hc⟩ := prepareLeg_sizedAtStop he
  exact ⟨c, m, q, hc, has⟩

theorem sources_priced {intent : IntentLeg ℚ} {built : BuiltLeg ℚ}
    (h : Sources mac request p intent built) (hjoined : Joined request p)
    (hsized : SizedFrom request.riskRequest expected request.riskResult) :
    ∃ approved c m r, PricedLeg request built.command approved c m r := by
  obtain ⟨leg, command, state⟩ := built
  obtain ⟨approved, r, metadata, format, hmac, happroved, hresolved, -, hbinding, -, -, rfl, rfl,
    -⟩ := h
  simp only [validateLegBinding, bind_ok, exists_unit, reject_ok, not_or, not_not, ne_eq]
    at hbinding
  obtain ⟨⟨hid, hsymbol, haction, hrid, -⟩, -, -, horder, -⟩ := hbinding
  have hmem : approved ∈ request.riskResult.adjustedLegs.getD [] := by
    rw [hjoined.adjusted]
    exact (find_key happroved).1
  obtain ⟨c, m, q, hc, has⟩ := sizedFrom_candidate hsized hmem
  obtain ⟨⟨haid, hasymbol, haaction⟩, haentry, hastop, -⟩ := sizedAs_exact has
  rw [hc.provenance] at haid hasymbol haaction
  have hresolvedMem : r ∈ request.resolvedLegs := by
    rw [← hjoined.resolved_eq]
    exact (find_key hresolved).1
  -- the leg's action is the approved one, and that is the candidate's
  have hside : intent.action = AdjustedRiskLegAction.toExecution c.action := by
    rw [← haction, haaction]
    rfl
  refine ⟨approved, c, m, r,
    { approved_mem := hmem
      candidate := hc.candidate
      resolved := hresolvedMem
      approvedId := congrArg some hid.symm
      candidateId := haid.symm
      resolvedId := hrid.trans hid.symm
      metadata := ?_
      tickSize := hc.tickSize
      tickValue := hc.tickValue
      price := rfl
      stop := congrArg some (hastop.trans hc.stop)
      behind := ?_
      entry := ?_
      loss := (sizedAs_loss has).trans hc.loss }⟩
  · show metadataOf request.riskRequest intent.symbol = some m
    rw [← hsymbol, hasymbol]
    exact hc.metadata
  · show StopBehind intent.action _ _
    rw [hside]
    exact hc.behind
  · intro price hprice
    have hbound := validateOrderPrice_noWorse horder hprice
    rw [haction, haentry, hc.entry] at hbound
    exact hbound

theorem resolved_has_command {built : List (BuiltLeg ℚ)} (hjoined : Joined request p)
    (hsources : List.Forall₂ (Sources mac request p) p.legs built) {r : ResolvedLegExecution ℚ}
    (hr : r ∈ request.resolvedLegs) : ∃ b ∈ built, b.command.legId = some r.legId := by
  have hdistinct : (IntentLeg.ids p.legs).Nodup := validateTopology_distinct hjoined.topology
  have hsubset : IntentLeg.ids p.legs ⊆ request.resolvedLegs.map ResolvedLegExecution.legId := by
    intro id hid
    obtain ⟨intent, hintent, rfl⟩ := List.mem_map.mp hid
    obtain ⟨b, -, hb⟩ := forall₂_mem_right hsources.flip hintent
    obtain ⟨_, found, _, _, _, -, hfound, -⟩ := hb
    rw [hjoined.resolved_eq] at hfound
    obtain ⟨hmem, hkey⟩ := find_key hfound
    exact List.mem_map.mpr ⟨found, hmem, hkey⟩
  -- there are as many resolved legs as intended ones, so the two sets of ids are the same
  have hlength : (request.resolvedLegs.map ResolvedLegExecution.legId).length
      ≤ (IntentLeg.ids p.legs).length := by
    have hcount := hjoined.resolved
    simp only [indexResolved, bind_ok, exists_unit, reject_ok, ne_eq, not_not] at hcount
    rw [List.length_map, IntentLeg.ids, List.length_map, hcount.1]
  have hperm := (List.subperm_of_subset hdistinct hsubset).perm_of_length_le hlength
  have hid : r.legId ∈ IntentLeg.ids p.legs := hperm.mem_iff.mpr (List.mem_map_of_mem hr)
  obtain ⟨intent, hintent, heq⟩ := List.mem_map.mp hid
  obtain ⟨b, hb, hsource⟩ := forall₂_mem_right hsources.flip hintent
  have hcommand := (Sources.bound hsource hjoined).legId.2
  rw [heq] at hcommand
  exact ⟨b, hb, hcommand⟩

/-! ## the bundle -/

/-- a command at a price risks no more than its leg was approved for -/
def WithinApproval (request : ExecutionBuildRequest ℚ) (command : ExecutionCommand ℚ)
    (price : ℚ) : Prop :=
  ∃ stop approved c m, command.sl = some stop ∧
    approved ∈ request.riskResult.adjustedLegs.getD [] ∧ command.legId = some approved.legId ∧
    c ∈ request.riskRequest.sizingCandidates ∧ c.legId = approved.legId ∧
    metadataOf request.riskRequest command.symbol = some m ∧
    StopBehind command.action price stop ∧
    lossFrom m c.estimatedCostPerLot price stop ≤ approved.lossPerLot

/-- each price that is asked for is nearer to the worst entry of its candidate than the stop is -/
def PricedBeforeStop (request : ExecutionBuildRequest ℚ) : Prop :=
  ∀ r ∈ request.resolvedLegs, ∀ price, r.price = some price →
    ∀ c ∈ request.riskRequest.sizingCandidates, c.legId = r.legId →
      |c.worstEntryPrice - price| < |c.worstEntryPrice - c.stopLossPrice|

theorem PricedLeg.within_iff {command : ExecutionCommand ℚ} {approved : AdjustedRiskLeg ℚ}
    {c : PositionSizingCandidate ℚ} {m : SymbolMetadataSnapshot ℚ} {r : ResolvedLegExecution ℚ}
    (h : PricedLeg request command approved c m r) {price : ℚ} (hprice : r.price = some price) :
    WithinApproval request command price ↔
      |c.worstEntryPrice - price| < |c.worstEntryPrice - c.stopLossPrice| := by
  have hentry := h.entry price hprice
  rw [← hentry.before_iff h.behind]
  constructor
  · rintro ⟨stop, _, _, _, hstop, -, -, -, -, -, hbehind, -⟩
    rw [h.stop] at hstop
    cases hstop
    exact hbehind
  · intro hbehind
    refine ⟨c.stopLossPrice, approved, c, m, h.stop, h.approved_mem, h.approvedId, h.candidate,
      h.candidateId, h.metadata, hbehind, ?_⟩
    rw [h.loss]
    exact lossFrom_mono h.tickSize h.tickValue _ (hbehind.distance hentry)

/-- The commands of a bundle risk no more than was approved exactly if every price that was asked for
is before the stop. -/
theorem priced_within_approval_iff {breaker : CircuitBreakerState} {bundle : ExecutionBundle ℚ}
    (hrisk : evaluate digest request.riskRequest breaker = .ok request.riskResult)
    (hbuilt : buildExecution mac digest request = .ok (.built bundle)) :
    (∀ command ∈ bundle.commands, ∀ price, command.price = some price →
      WithinApproval request command price) ↔ PricedBeforeStop request := by
  obtain ⟨p, hp, hassemble⟩ := buildExecution_built hbuilt
  have hjoined := prepare_ok.mp hp.prepared
  have happroved : request.riskResult.approved = true := by
    have hcommon := hp.common
    simp only [validateCommon, bind_ok, exists_unit, reject_ok, Bool.not_eq_false] at hcommon
    obtain ⟨-, -, -, -, -, -, happroved, -⟩ := hcommon
    exact happroved
  obtain ⟨hchecked, -, -, expected, hsized⟩ := evaluate_opened hrisk happroved hp.action
  simp only [assemble, bind_ok, exists_unit, pure_ok, collect_ok, liftPlan_ok] at hassemble
  obtain ⟨built, hloop, -, hbundle⟩ := hassemble
  cases hbundle
  have hsources : List.Forall₂ (Sources mac request p) p.legs built :=
    hloop.imp fun _ _ hleg => buildLeg_sources hleg
  have hleg : ∀ b ∈ built, ∃ approved c m r, PricedLeg request b.command approved c m r := by
    intro b hb
    obtain ⟨intent, -, hsource⟩ := forall₂_mem_right hsources hb
    exact sources_priced hsource hjoined hsized
  constructor
  · intro hwithin r hr price hprice c hc hid
    obtain ⟨b, hb, hcommand⟩ := resolved_has_command hjoined hsources hr
    obtain ⟨approved, c', m, r', hpriced⟩ := hleg b hb
    have happrovedId : approved.legId = r.legId :=
      Option.some.inj (hpriced.approvedId.symm.trans hcommand)
    have hsame : r' = r := by
      refine hjoined.resolved_apart (hjoined.resolved_eq ▸ hpriced.resolved)
        (hjoined.resolved_eq ▸ hr) ?_
      simp only [resolvedClash, hpriced.resolvedId.trans happrovedId, beq_self_eq_true,
        Bool.or_true]
    subst hsame
    have hcandidate : c' = c := by
      refine List.inj_on_of_nodup_map hchecked.candidateIds hpriced.candidate hc ?_
      rw [hpriced.candidateId, happrovedId, hid]
    subst hcandidate
    exact (hpriced.within_iff hprice).mp
      (hwithin b.command (List.mem_map_of_mem hb) price (hpriced.price.trans hprice))
  · intro hbefore command hcommand price hprice
    obtain ⟨b, hb, rfl⟩ := List.mem_map.mp hcommand
    obtain ⟨approved, c, m, r, hpriced⟩ := hleg b hb
    rw [hpriced.price] at hprice
    exact (hpriced.within_iff hprice).mpr (hbefore r hpriced.resolved price hprice c
      hpriced.candidate (hpriced.candidateId.trans hpriced.resolvedId.symm))

end

/-! ## limit orders -/

/-- the build of `pairRequest` with limit orders, gold at this price -/
def limitBuild (price : ℚ) : ExecutionBuildRequest ℚ :=
  { pairBuild with
    resolvedLegs :=
      [{ goldLeg with legId := "leg-gold", orderType := .limit, price := some price },
        { goldLeg with
          legId := "leg-silver", commandId := "command-2", idempotencyKey := "command-key-2"
          orderType := .limit, price := some (49 / 2) }] }

/-- the sides, prices and stops of the commands of an outcome -/
def quotes : ExecutionBuildOutcome ℚ → List (ExecutionAction × Option ℚ × Option ℚ)
  | .noOp => []
  | .built bundle => bundle.commands.map fun c => (c.action, c.price, c.sl)

theorem built_of_quotes {outcome : Build ℚ (ExecutionBuildOutcome ℚ)}
    {expected : List (ExecutionAction × Option ℚ × Option ℚ)} (hlegs : expected ≠ [])
    (h : outcome.toOption.map quotes = some expected) :
    ∃ bundle, outcome = .ok (.built bundle) ∧
      bundle.commands.map (fun c => (c.action, c.price, c.sl)) = expected := by
  cases outcome with
  | error halt => cases h
  | ok result =>
    cases result with
    | noOp => exact absurd (Option.some.inj h).symm hlegs
    | built bundle => exact ⟨bundle, rfl, Option.some.inj h⟩

theorem gold_limit_within :
    ∃ bundle, buildExecution goldMac goldDigest (limitBuild 1995) = .ok (.built bundle) ∧
      bundle.commands.map (fun c => (c.action, c.price, c.sl)) =
        [(.buy, some 1995, some 1990), (.sell, some (49 / 2), some 26)] ∧
      ∀ command ∈ bundle.commands, ∀ price, command.price = some price →
        WithinApproval (limitBuild 1995) command price := by
  have hrisk : evaluate goldDigest pairRequest CircuitBreakerState.new = .ok pairResult := by
    decide +kernel
  have hquoted : (buildExecution goldMac goldDigest (limitBuild 1995)).toOption.map quotes =
      some [(.buy, some 1995, some 1990), (.sell, some (49 / 2), some 26)] := by decide +kernel
  obtain ⟨bundle, hbuilt, hquotes⟩ := built_of_quotes (List.cons_ne_nil _ _) hquoted
  refine ⟨bundle, hbuilt, hquotes, (priced_within_approval_iff hrisk hbuilt).mpr ?_⟩
  intro r hr price hprice c hc hid
  rcases List.mem_pair.mp hr with rfl | rfl
  all_goals
    rcases List.mem_pair.mp hc with rfl | rfl
    all_goals cases hprice
  · norm_num
  · exact absurd hid (by decide)
  · exact absurd hid (by decide)
  · norm_num

/-- A limit order to buy at 1900 is built from an approval with the stop at 1990: it is behind its
stop, and a lot of it loses nine times what was approved. -/
theorem gold_limit_behind_stop :
    evaluate goldDigest (limitBuild 1900).riskRequest CircuitBreakerState.new
        = .ok (limitBuild 1900).riskResult ∧
      lossFrom goldMetadata 0 1900 1990 = 9000 ∧
      ∃ bundle, buildExecution goldMac goldDigest (limitBuild 1900) = .ok (.built bundle) ∧
        ∃ command ∈ bundle.commands, command.price = some 1900 ∧
          ¬ WithinApproval (limitBuild 1900) command 1900 := by
  have hquoted : (buildExecution goldMac goldDigest (limitBuild 1900)).toOption.map quotes =
      some [(.buy, some 1900, some 1990), (.sell, some (49 / 2), some 26)] := by decide +kernel
  obtain ⟨bundle, hbuilt, hquotes⟩ := built_of_quotes (List.cons_ne_nil _ _) hquoted
  have hmem : (.buy, some 1900, some 1990)
      ∈ bundle.commands.map fun c => (c.action, c.price, c.sl) := by
    rw [hquotes]
    exact List.mem_cons_self
  obtain ⟨command, hcommand, heq⟩ := List.mem_map.mp hmem
  simp only [Prod.mk.injEq] at heq
  obtain ⟨haction, hprice, hstop⟩ := heq
  refine ⟨by decide +kernel, by decide +kernel, bundle, hbuilt, command, hcommand, hprice, ?_⟩
  rintro ⟨stop, _, _, _, hsl, -, -, -, -, -, hbehind, -⟩
  rw [hstop] at hsl
  rw [haction, ← Option.some.inj hsl] at hbehind
  rcases hbehind with ⟨-, hlt⟩ | ⟨hsell, -⟩
  · norm_num at hlt
  · cases hsell

end Sinan.Core
