import Sinan.Lib.Scale
import Sinan.Risk.Sizing

/-!
# What the account already holds

Positions, active orders and active BUY/SELL commands as one list of holdings, read straight off the
request.  The maps and sums that the loops of the sizing accumulate are the sums over this list.
-/

namespace Sinan.Risk

open Lib

structure Holding where
  symbol : SymbolCode
  lots : ℚ
  notionalPerLot : ℚ
  marginPerLot : ℚ

def Holding.notional (x : Holding) : ℚ := x.lots * x.notionalPerLot
def Holding.margin (x : Holding) : ℚ := x.lots * x.marginPerLot

section
variable {F : Type} [F64 F]

/-- the decimal a number stands for -/
def num (x : F) : ℚ := (F64.toDecimal x).getD 0

def numOpt (x : Option F) : ℚ := (x.map num).getD 0

/-- the worst of the bid, the ask and a further price -/
def worstPrice (market : RiskMarketSnapshot F) (price : Option F) : ℚ :=
  let quoted := max |num market.snapshot.bid| |num market.snapshot.ask|
  match price with
  | some p => max quoted |num p|
  | none => quoted

/-- the notional of one lot of a symbol: whole ticks of the worst price, in money -/
def lotNotional (request : RiskRequest F) (symbol : SymbolCode) (price : Option F) : ℚ :=
  match metadataOf request symbol, marketOf request symbol with
  | some metadata, some market =>
    ⌈worstPrice market price / num metadata.tickSize⌉ * num metadata.tickValueLoss
  | _, _ => 0

def lotMargin (request : RiskRequest F) (symbol : SymbolCode) : ℚ :=
  ((metadataOf request symbol).map fun m => numOpt m.marginInitial).getD 0

def positionHolding (request : RiskRequest F) (p : PositionSnapshot F) : Holding where
  symbol := p.symbol
  lots := num p.lots
  notionalPerLot := lotNotional request p.symbol (some p.openPrice)
  marginPerLot := lotMargin request p.symbol

def orderHolding (request : RiskRequest F) (o : OrderSnapshot F) : Holding where
  symbol := o.symbol
  lots := num o.remainingLots
  notionalPerLot := lotNotional request o.symbol o.price
  marginPerLot := lotMargin request o.symbol

def commandHolding (request : RiskRequest F) (c : ExecutionCommand F) : Holding where
  symbol := c.symbol
  lots := numOpt c.lots
  notionalPerLot := lotNotional request c.symbol c.price
  marginPerLot := lotMargin request c.symbol

/-- active orders, and the given commands that open a position -/
def pendingOf (request : RiskRequest F) (commands : List (ExecutionCommand F)) : List Holding :=
  (request.orders.filter fun o => orderIsActive o.status).map (orderHolding request) ++
    (commands.filter fun c => c.action.isOpening).map (commandHolding request)

/-- active orders and active BUY/SELL commands -/
def pendingHoldings (request : RiskRequest F) : List Holding :=
  pendingOf request (request.pendingCommands.filter (commandMayExpose request))

def holdings (request : RiskRequest F) : List Holding :=
  request.positions.map (positionHolding request) ++ pendingHoldings request

/-- the notional held in one symbol -/
def heldNotional (request : RiskRequest F) (symbol : SymbolCode) : ℚ :=
  (((holdings request).filter fun x => x.symbol = symbol).map Holding.notional).sum

def totalNotional (request : RiskRequest F) : ℚ := ((holdings request).map Holding.notional).sum

def heldMargin (request : RiskRequest F) : ℚ :=
  ((pendingHoldings request).map Holding.margin).sum

/-! ## reading numbers -/

variable {name : String} {metadata : SymbolMetadataSnapshot F} {market : RiskMarketSnapshot F}
  {o : OrderSnapshot F}

theorem decimal_num {x : F} {d : ℚ} (h : decimal name x = .ok d) : d = num x := by
  simp only [decimal, bind_ok, exists_unit, need_ok] at h
  rw [num, h.2, Option.getD_some]

theorem decimalOpt_num {x : Option F} {d : Option ℚ} (h : decimalOpt name x = .ok d) :
    d = x.map num := by
  cases x with
  | none =>
    cases h
    rfl
  | some x =>
    simp only [decimalOpt, bind_ok, pure_ok] at h
    obtain ⟨d', hd, rfl⟩ := h
    rw [decimal_num hd]
    rfl

theorem positiveOptionalDecimal_num {x : Option F} {d : ℚ}
    (h : positiveOptionalDecimal name x = .ok d) : d = numOpt x := by
  simp only [positiveOptionalDecimal, bind_ok, exists_unit, need_ok, pure_ok] at h
  obtain ⟨present, rfl, d', hd, -, rfl⟩ := h
  exact decimal_num hd

theorem checkedDiv_ok {a b q : ℚ} : checkedDiv a b = .ok q ↔ b ≠ 0 ∧ q = a / b := by
  simp only [checkedDiv, bind_ok, exists_unit, reject_ok, pure_ok]
  exact and_congr_right fun _ => eq_comm

theorem notionalPerLot_num {price : Option F} {n : ℚ}
    (h : notionalPerLot metadata market (price.map num) = .ok n) :
    n = ⌈worstPrice market price / num metadata.tickSize⌉ * num metadata.tickValueLoss ∧ 0 < n := by
  simp only [notionalPerLot, bind_ok, exists_unit, pure_ok, reject_ok, not_le, checkedDiv_ok] at h
  obtain ⟨bid, hbid, ask, hask, size, hsize, value, hvalue, ticks, ⟨-, rfl⟩, hpos, rfl⟩ := h
  refine ⟨?_, hpos⟩
  rw [decimal_num hbid, decimal_num hask, decimal_num hsize, decimal_num hvalue]
  cases price with
  | none => rfl
  | some p => rfl

theorem validatePosition_num {p : PositionSnapshot F} {lots : ℚ}
    (h : validatePosition p = .ok lots) : lots = num p.lots := by
  simp only [validatePosition, bind_ok, exists_unit, pure_ok] at h
  obtain ⟨d, hd, -, -, -, -, -, -, -, -, -, rfl⟩ := h
  exact decimal_num hd

theorem validateOrder_num {lots : ℚ} (h : validateOrder o = .ok lots) :
    lots = num o.remainingLots ∧ 0 < lots := by
  simp only [validateOrder, bind_ok, exists_unit, pure_ok, reject_ok] at h
  obtain ⟨requested, -, filled, -, remaining, hremaining, hlots, -, -, -, -, -, rfl⟩ := h
  refine ⟨decimal_num hremaining, ?_⟩
  by_contra hle
  exact hlots (.inr (.inr (.inl (not_lt.mp hle))))

/-! ## existing exposure -/

theorem lotNotional_of {request : RiskRequest F} {symbol : SymbolCode} {price : Option F} {n : ℚ}
    (hmetadata : requiredMetadata request symbol = .ok metadata)
    (hmarket : requiredMarket request symbol = .ok market)
    (h : notionalPerLot metadata market (price.map num) = .ok n) :
    n = lotNotional request symbol price := by
  simp only [requiredMetadata, requiredMarket, need_ok] at hmetadata hmarket
  rw [lotNotional, hmetadata, hmarket]
  exact (notionalPerLot_num h).1

theorem exposePosition_ok {request : RiskRequest F} {e e' : Exposure} {p : PositionSnapshot F}
    (h : exposePosition request e p = .ok e') :
    e' = e.add p.symbol (positionHolding request p).notional := by
  simp only [exposePosition, bind_ok, pure_ok] at h
  obtain ⟨lots, hlots, metadata, hmetadata, market, hmarket, price, hprice, n, hn, rfl⟩ := h
  rw [decimal_num hprice] at hn
  have hnotional : n = lotNotional request p.symbol (some p.openPrice) :=
    lotNotional_of hmetadata hmarket hn
  rw [validatePosition_num hlots, hnotional]
  rfl

theorem exposeOrder_ok {request : RiskRequest F} {e e' : Exposure}
    (h : exposeOrder request e o = .ok e') :
    e' = if orderIsActive o.status then e.add o.symbol (orderHolding request o).notional else e := by
  unfold exposeOrder at h
  by_cases hactive : orderIsActive o.status = true
  · rw [if_neg (by rw [hactive]; exact Bool.noConfusion), bind_ok] at h
    obtain ⟨lots, hlots, h⟩ := h
    obtain ⟨hnum, hpos⟩ := validateOrder_num hlots
    rw [if_neg hpos.ne'] at h
    simp only [bind_ok, pure_ok] at h
    obtain ⟨metadata, hmetadata, market, hmarket, price, hprice, n, hn, rfl⟩ := h
    rw [decimalOpt_num hprice] at hn
    rw [if_pos hactive, hnum, lotNotional_of hmetadata hmarket hn]
    rfl
  · rw [if_pos (eq_false_of_ne_true hactive)] at h
    rw [if_neg hactive]
    exact (Except.ok.inj h).symm

theorem exposeCommand_ok {request : RiskRequest F} {e e' : Exposure} {c : ExecutionCommand F}
    (h : exposeCommand request e c = .ok e') :
    e' = if c.action.isOpening then e.add c.symbol (commandHolding request c).notional else e := by
  unfold exposeCommand at h
  by_cases hopening : c.action.isOpening = true
  · rw [if_neg (by rw [hopening]; exact Bool.noConfusion)] at h
    simp only [bind_ok, pure_ok] at h
    obtain ⟨lots, hlots, metadata, hmetadata, market, hmarket, price, hprice, n, hn, rfl⟩ := h
    rw [decimalOpt_num hprice] at hn
    rw [if_pos hopening, positiveOptionalDecimal_num hlots, lotNotional_of hmetadata hmarket hn]
    rfl
  · rw [if_pos (eq_false_of_ne_true hopening)] at h
    rw [if_neg hopening]
    exact (Except.ok.inj h).symm

theorem existingExposure_ok {request : RiskRequest F} {active : List (ExecutionCommand F)}
    {exposure : Exposure} (h : existingExposure request active = .ok exposure) :
    exposure = Amounts.addAll Holding.symbol Holding.notional Amounts.empty
      (request.positions.map (positionHolding request) ++ pendingOf request active) := by
  simp only [existingExposure, bind_ok] at h
  obtain ⟨positions, hpositions, orders, horders, hcommands⟩ := h
  have hfirst := foldlM_ok (P := fun _ => True)
    (fun _ _ _ hstep => ⟨exposePosition_ok hstep, trivial⟩) hpositions
  have hsecond := foldlM_ok (P := fun _ => True)
    (fun _ _ _ hstep => ⟨exposeOrder_ok hstep, trivial⟩) horders
  have hthird := foldlM_ok (P := fun _ => True)
    (fun _ _ _ hstep => ⟨exposeCommand_ok hstep, trivial⟩) hcommands
  rw [hthird.1, hsecond.1, hfirst.1]
  simp only [Amounts.addAll, pendingOf, List.foldl_append, List.foldl_map, List.foldl_filter]
  rfl

theorem orderMargin_ok {request : RiskRequest F} {total total' : ℚ}
    (h : orderMargin request total o = .ok total') :
    total' = if orderIsActive o.status then total + (orderHolding request o).margin else total := by
  unfold orderMargin at h
  by_cases hactive : orderIsActive o.status = true
  · rw [if_neg (by rw [hactive]; exact Bool.noConfusion)] at h
    simp only [bind_ok, pure_ok, requiredMetadata, need_ok] at h
    obtain ⟨lots, hlots, metadata, hmetadata, margin, hmargin, rfl⟩ := h
    rw [if_pos hactive, (validateOrder_num hlots).1, positiveOptionalDecimal_num hmargin]
    simp only [Holding.margin, orderHolding, lotMargin, hmetadata, Option.map_some, Option.getD_some]
  · rw [if_pos (eq_false_of_ne_true hactive)] at h
    rw [if_neg hactive]
    exact (Except.ok.inj h).symm

theorem commandMargin_ok {request : RiskRequest F} {total total' : ℚ} {c : ExecutionCommand F}
    (h : commandMargin request total c = .ok total') :
    total' =
      if c.action.isOpening then total + (commandHolding request c).margin else total := by
  unfold commandMargin at h
  by_cases hopening : c.action.isOpening = true
  · rw [if_neg (by rw [hopening]; exact Bool.noConfusion)] at h
    simp only [bind_ok, pure_ok, requiredMetadata, need_ok] at h
    obtain ⟨lots, hlots, metadata, hmetadata, margin, hmargin, rfl⟩ := h
    rw [if_pos hopening, positiveOptionalDecimal_num hlots, positiveOptionalDecimal_num hmargin]
    simp only [Holding.margin, commandHolding, lotMargin, hmetadata, Option.map_some,
      Option.getD_some]
  · rw [if_pos (eq_false_of_ne_true hopening)] at h
    rw [if_neg hopening]
    exact (Except.ok.inj h).symm

/-! ## active commands -/

theorem activeCommands_ok {request : RiskRequest F} {commands : List (ExecutionCommand F)}
    {active : List (ExecutionCommand F × ExecutionCommandState)}
    (hnodup : (request.pendingCommandStates.map ExecutionCommandState.commandId).Nodup)
    (h : activeCommands request commands = .ok active) :
    (active.map Prod.fst).filter (fun c => c.action.isOpening) =
      commands.filter (commandMayExpose request) := by
  induction commands generalizing active with
  | nil =>
    cases h
    rfl
  | cons c rest ih =>
    simp only [activeCommands, bind_ok, exists_unit, need_ok] at h
    obtain ⟨state, hfound, -, -, h⟩ := h
    -- its state decides alone whether the command may expose
    have hexpose : commandMayExpose request c =
        (c.action.isOpening && !commandStateIsTerminal state.status) := by
      obtain ⟨hmem, hkey⟩ := find_key hfound
      have hfilter : request.pendingCommandStates.filter (fun s => s.commandId == c.commandId) =
          [state] := filter_key_self hnodup hmem hkey
      rw [commandMayExpose, hfilter]
      simp
    by_cases hterminal : commandStateIsTerminal state.status = true
    · rw [if_pos hterminal] at h
      rw [List.filter_cons_of_neg (by simp [hexpose, hterminal])]
      exact ih h
    · rw [if_neg hterminal] at h
      simp only [bind_ok, exists_unit, pure_ok] at h
      obtain ⟨-, -, active', hactive, rfl⟩ := h
      have hkept : commandMayExpose request c = c.action.isOpening := by
        rw [hexpose, eq_false_of_ne_true hterminal, Bool.not_false, Bool.and_true]
      rw [List.map_cons, List.filter_cons, List.filter_cons, hkept, ih hactive]

theorem pendingOf_active {request : RiskRequest F}
    {active : List (ExecutionCommand F × ExecutionCommandState)}
    (h : activePendingCommands request = .ok active) :
    (pendingOf request (active.map Prod.fst)).Perm (pendingHoldings request) := by
  simp only [activePendingCommands, bind_ok, exists_unit, eachApart_key_ok] at h
  obtain ⟨-, ⟨hnodup, -⟩, -, h⟩ := h
  have hsame := activeCommands_ok hnodup h
  have hperm : ((active.map Prod.fst).filter fun c => c.action.isOpening).Perm
      ((request.pendingCommands.filter (commandMayExpose request)).filter
        fun c => c.action.isOpening) := by
    rw [hsame, List.filter_filter]
    have hboth : (fun c : ExecutionCommand F => c.action.isOpening && commandMayExpose request c) =
        commandMayExpose request := by
      funext c
      simp only [commandMayExpose, ← Bool.and_assoc, Bool.and_self]
    rw [hboth]
    exact (List.perm_insertionSort _ _).filter _
  exact (List.Perm.refl _).append (hperm.map _)

/-! ## totals -/

theorem foldl_margin (start : ℚ) (xs : List Holding) :
    xs.foldl (fun total x => total + x.margin) start = start + (xs.map Holding.margin).sum := by
  induction xs generalizing start with
  | nil => simp
  | cons x xs ih => rw [List.foldl_cons, ih, List.map_cons, List.sum_cons, add_assoc]

theorem pendingMargin_ok {request : RiskRequest F} {active : List (ExecutionCommand F)} {total : ℚ}
    (h : pendingMargin request active = .ok total) :
    total = ((pendingOf request active).map Holding.margin).sum := by
  simp only [pendingMargin, bind_ok] at h
  obtain ⟨orders, horders, hcommands⟩ := h
  have hfirst := foldlM_ok (P := fun _ => True)
    (fun _ _ _ hstep => ⟨orderMargin_ok hstep, trivial⟩) horders
  have hsecond := foldlM_ok (P := fun _ => True)
    (fun _ _ _ hstep => ⟨commandMargin_ok hstep, trivial⟩) hcommands
  have hfold := foldl_margin 0 (pendingOf request active)
  rw [zero_add] at hfold
  rw [hsecond.1, hfirst.1, ← hfold]
  simp only [pendingOf, List.foldl_append, List.foldl_map, List.foldl_filter]

section
variable {request : RiskRequest F} {active : List (ExecutionCommand F × ExecutionCommandState)}

theorem existingExposure_get {exposure : Exposure}
    (hactive : activePendingCommands request = .ok active)
    (h : existingExposure request (active.map Prod.fst) = .ok exposure) (symbol : SymbolCode) :
    exposure.get symbol = heldNotional request symbol := by
  have hperm := (List.Perm.refl (request.positions.map (positionHolding request))).append
    (pendingOf_active hactive)
  rw [existingExposure_ok h, Amounts.get_addAll]
  show 0 + _ = heldNotional request symbol
  rw [zero_add]
  exact ((hperm.filter _).map _).sum_eq

theorem existingExposure_total {exposure : Exposure}
    (hactive : activePendingCommands request = .ok active)
    (h : existingExposure request (active.map Prod.fst) = .ok exposure) :
    exposure.total = totalNotional request := by
  have hperm := (List.Perm.refl (request.positions.map (positionHolding request))).append
    (pendingOf_active hactive)
  rw [existingExposure_ok h, Amounts.total_addAll]
  show 0 + _ = totalNotional request
  rw [zero_add]
  exact (hperm.map _).sum_eq

theorem pendingMargin_held {total : ℚ} (hactive : activePendingCommands request = .ok active)
    (h : pendingMargin request (active.map Prod.fst) = .ok total) : total = heldMargin request := by
  rw [pendingMargin_ok h]
  exact ((pendingOf_active hactive).map _).sum_eq

end

end

end Sinan.Risk
