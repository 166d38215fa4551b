import Sinan.Risk.Eased
import Sinan.Risk.Found

/-!
# Hard risk is monotone

Holding less and asking for more never loses an approval and never shrinks a leg: the scale of an eased
request is under every cap that the scale of the request is under, and the lots are floors of it.  The
numbers are exact here, so that an approval that passed the sizing is a valid result.
-/

namespace Sinan.Risk

open Lib
open Breaker

section
variable {request : RiskRequest ℚ} {v : Shape}
  {active kept : List (ExecutionCommand ℚ × ExecutionCommandState)}

theorem decimal_rat (name : String) (q : ℚ) : decimal name q = .ok q := rfl

theorem requiredF64_rat (q : ℚ) : (requiredF64 q : Evaluation ℚ) = .ok q := rfl

/-! ## what is held -/

theorem lotNotional_eased (hsame : SameSnapshots request v) :
    lotNotional (request.reshape v) = lotNotional request := by
  funext symbol price
  unfold lotNotional
  rw [hsame.metadata, hsame.market]

theorem lotMargin_eased (hsame : SameSnapshots request v) :
    lotMargin (request.reshape v) = lotMargin request := by
  funext symbol
  unfold lotMargin
  rw [hsame.metadata]

theorem pendingHoldings_eased (htracked : Tracked request active) (heased : Eased request v)
    (hsame : SameSnapshots request v) :
    (pendingHoldings (request.reshape v)).Subperm (pendingHoldings request) := by
  have horder : orderHolding (request.reshape v) = orderHolding request := by
    funext o
    unfold orderHolding
    rw [lotNotional_eased hsame, lotMargin_eased hsame]
  have hcommand : commandHolding (request.reshape v) = commandHolding request := by
    funext c
    unfold commandHolding
    rw [lotNotional_eased hsame, lotMargin_eased hsame]
  have hexpose : v.pendingCommands.filter (commandMayExpose (request.reshape v))
      = v.pendingCommands.filter (commandMayExpose request) :=
    List.filter_congr fun c hc => htracked.filter_eased heased hc
  have horders := Subperm.map (heased.orders.filter fun o => orderIsActive o.status)
    (orderHolding request)
  have hcommands := Subperm.map ((heased.pendingCommands.filter (commandMayExpose request)).filter
    fun c => c.action.isOpening) (commandHolding request)
  unfold pendingHoldings pendingOf
  rw [horder, hcommand]
  show ((v.orders.filter _).map _ ++ ((v.pendingCommands.filter _).filter _).map _).Subperm _
  rw [hexpose]
  exact horders.append hcommands

theorem holdings_eased (htracked : Tracked request active) (heased : Eased request v)
    (hsame : SameSnapshots request v) :
    (holdings (request.reshape v)).Subperm (holdings request) := by
  have hposition : positionHolding (request.reshape v) = positionHolding request := by
    funext p
    unfold positionHolding
    rw [lotNotional_eased hsame, lotMargin_eased hsame]
  have hpositions := Subperm.map heased.positions (positionHolding request)
  unfold holdings
  rw [hposition]
  exact hpositions.append (pendingHoldings_eased htracked heased hsame)

variable {metadata : SymbolMetadataSnapshot ℚ} {e e' : Exposure} {total : ℚ}

theorem lotNotional_pos {symbol : SymbolCode} {price : Option ℚ} {market : RiskMarketSnapshot ℚ}
    {n : ℚ} (hmetadata : requiredMetadata request symbol = .ok metadata)
    (hmarket : requiredMarket request symbol = .ok market)
    (h : notionalPerLot metadata market (price.map num) = .ok n) :
    0 < lotNotional request symbol price := by
  rw [← lotNotional_of hmetadata hmarket h]
  exact (notionalPerLot_num h).2

theorem position_exposes {p : PositionSnapshot ℚ} (h : exposePosition request e p = .ok e') :
    0 < (positionHolding request p).notional := by
  simp only [exposePosition, bind_ok, pure_ok] at h
  obtain ⟨lots, hlots, metadata, hmetadata, market, hmarket, price, hprice, n, hn, -⟩ := h
  have hlotsPositive : 0 < num p.lots := by
    have hnum := validatePosition_num hlots
    simp only [validatePosition, bind_ok, exists_unit, reject_ok, pure_ok, not_or, not_le] at hlots
    obtain ⟨d, -, -, -, -, -, ⟨hpositive, -⟩, -, -, -, -, rfl⟩ := hlots
    rw [← hnum]
    exact hpositive
  rw [decimal_num hprice] at hn
  exact mul_pos hlotsPositive (@lotNotional_pos _ _ _ (some p.openPrice) _ _ hmetadata hmarket hn)

theorem order_exposes {o : OrderSnapshot ℚ} (hactive : orderIsActive o.status = true)
    (h : exposeOrder request e o = .ok e') : 0 < (orderHolding request o).notional := by
  unfold exposeOrder at h
  rw [if_neg (by rw [hactive]; exact Bool.noConfusion), bind_ok] at h
  obtain ⟨lots, hlots, h⟩ := h
  obtain ⟨hnum, hpos⟩ := validateOrder_num hlots
  rw [if_neg hpos.ne'] at h
  simp only [bind_ok, pure_ok] at h
  obtain ⟨metadata, hmetadata, market, hmarket, price, hprice, n, hn, -⟩ := h
  rw [decimalOpt_num hprice] at hn
  rw [hnum] at hpos
  exact mul_pos hpos (lotNotional_pos hmetadata hmarket hn)

theorem positiveOptionalDecimal_pos {name : String} {x : Option ℚ} {d : ℚ}
    (h : positiveOptionalDecimal name x = .ok d) : 0 < numOpt x := by
  rw [← positiveOptionalDecimal_num h]
  simp only [positiveOptionalDecimal, bind_ok, exists_unit, need_ok, reject_ok, pure_ok, not_le] at h
  obtain ⟨_, -, _, -, hpositive, rfl⟩ := h
  exact hpositive

theorem command_exposes {c : ExecutionCommand ℚ} (hopening : c.action.isOpening = true)
    (h : exposeCommand request e c = .ok e') : 0 < (commandHolding request c).notional := by
  unfold exposeCommand at h
  rw [if_neg (by rw [hopening]; exact Bool.noConfusion)] at h
  simp only [bind_ok, pure_ok] at h
  obtain ⟨lots, hlots, metadata, hmetadata, market, hmarket, price, hprice, n, hn, -⟩ := h
  rw [decimalOpt_num hprice] at hn
  exact mul_pos (positiveOptionalDecimal_pos hlots) (lotNotional_pos hmetadata hmarket hn)

theorem holdings_expose (htracked : Tracked request active)
    (h : existingExposure request (active.map Prod.fst) = .ok e) :
    ∀ x ∈ holdings request, 0 ≤ x.notional := by
  have hperm := pendingOf_active (activePendingCommands_iff.mpr htracked)
  simp only [existingExposure, bind_ok] at h
  obtain ⟨positions, hpositions, orders, horders, hcommands⟩ := h
  intro x hx
  rcases List.mem_append.mp hx with hx | hx
  · obtain ⟨p, hp, rfl⟩ := List.mem_map.mp hx
    obtain ⟨_, _, hstep⟩ := foldlM_each hpositions p hp
    exact (position_exposes hstep).le
  · rcases List.mem_append.mp (hperm.mem_iff.mpr hx) with hx | hx
    · obtain ⟨o, ho, rfl⟩ := List.mem_map.mp hx
      obtain ⟨hmem, hactive⟩ := List.mem_filter.mp ho
      obtain ⟨_, _, hstep⟩ := foldlM_each horders o hmem
      exact (order_exposes hactive hstep).le
    · obtain ⟨c, hc, rfl⟩ := List.mem_map.mp hx
      obtain ⟨hmem, hopening⟩ := List.mem_filter.mp hc
      obtain ⟨_, _, hstep⟩ := foldlM_each hcommands c hmem
      exact (command_exposes hopening hstep).le

theorem order_margin {total' : ℚ} {o : OrderSnapshot ℚ} (hactive : orderIsActive o.status = true)
    (h : orderMargin request total o = .ok total') : 0 < (orderHolding request o).margin := by
  unfold orderMargin at h
  rw [if_neg (by rw [hactive]; exact Bool.noConfusion)] at h
  simp only [bind_ok, pure_ok, requiredMetadata, need_ok] at h
  obtain ⟨lots, hlots, metadata, hmetadata, margin, hmargin, -⟩ := h
  obtain ⟨hnum, hpos⟩ := validateOrder_num hlots
  rw [hnum] at hpos
  have hlot : lotMargin request o.symbol = numOpt metadata.marginInitial := by
    unfold lotMargin
    rw [hmetadata]
    rfl
  refine mul_pos hpos ?_
  show 0 < lotMargin request o.symbol
  rw [hlot]
  exact positiveOptionalDecimal_pos hmargin

theorem command_margin {total' : ℚ} {c : ExecutionCommand ℚ} (hopening : c.action.isOpening = true)
    (h : commandMargin request total c = .ok total') : 0 < (commandHolding request c).margin := by
  unfold commandMargin at h
  rw [if_neg (by rw [hopening]; exact Bool.noConfusion)] at h
  simp only [bind_ok, pure_ok, requiredMetadata, need_ok] at h
  obtain ⟨lots, hlots, metadata, hmetadata, margin, hmargin, -⟩ := h
  have hlot : lotMargin request c.symbol = numOpt metadata.marginInitial := by
    unfold lotMargin
    rw [hmetadata]
    rfl
  refine mul_pos (positiveOptionalDecimal_pos hlots) ?_
  show 0 < lotMargin request c.symbol
  rw [hlot]
  exact positiveOptionalDecimal_pos hmargin

theorem pendingHoldings_margin (htracked : Tracked request active)
    (h : pendingMargin request (active.map Prod.fst) = .ok total) :
    ∀ x ∈ pendingHoldings request, 0 ≤ x.margin := by
  have hperm := pendingOf_active (activePendingCommands_iff.mpr htracked)
  simp only [pendingMargin, bind_ok] at h
  obtain ⟨orders, horders, hcommands⟩ := h
  intro x hx
  rcases List.mem_append.mp (hperm.mem_iff.mpr hx) with hx | hx
  · obtain ⟨o, ho, rfl⟩ := List.mem_map.mp hx
    obtain ⟨hmem, hactive⟩ := List.mem_filter.mp ho
    obtain ⟨_, _, hstep⟩ := foldlM_each horders o hmem
    exact (order_margin hactive hstep).le
  · obtain ⟨c, hc, rfl⟩ := List.mem_map.mp hx
    obtain ⟨hmem, hopening⟩ := List.mem_filter.mp hc
    obtain ⟨_, _, hstep⟩ := foldlM_each hcommands c hmem
    exact (command_margin hopening hstep).le

/-! ## limits -/

/-- an eased request has used up no more of any limit -/
structure UsedLess (request : RiskRequest ℚ) (v : Shape) : Prop where
  symbol : ∀ symbol, heldNotional (request.reshape v) symbol ≤ heldNotional request symbol
  total : totalNotional (request.reshape v) ≤ totalNotional request
  margin : heldMargin (request.reshape v) ≤ heldMargin request

theorem usedLess (htracked : Tracked request active) (heased : Eased request v)
    (hsame : SameSnapshots request v)
    (hexposure : existingExposure request (active.map Prod.fst) = .ok e)
    (hmargin : pendingMargin request (active.map Prod.fst) = .ok total) : UsedLess request v where
  symbol := by
    intro symbol
    refine sum_le_of_subperm ((holdings_eased htracked heased hsame).filter _) fun x hx => ?_
    exact holdings_expose htracked hexposure x (List.mem_of_mem_filter hx)
  total := sum_le_of_subperm (holdings_eased htracked heased hsame)
    (holdings_expose htracked hexposure)
  margin := sum_le_of_subperm (pendingHoldings_eased htracked heased hsame)
    (pendingHoldings_margin htracked hmargin)

theorem proposedRisk_le (heased : Eased request v) : request.intent.proposedRiskPct ≤ v.proposedRisk
    := by
  rcases heased.risk with ⟨-, hsame⟩ | ⟨hle, -⟩
  · exact hsame.ge
  · exact hle

theorem riskPct_le (heased : Eased request v) : riskPct request ≤ riskPct (request.reshape v) :=
  min_le_min_right _ (min_le_min_right _ (min_le_min_right _ (min_le_min_right _
    (proposedRisk_le heased))))

theorem ofBase_mono {base small large : ℚ} (hbase : 0 < base) (h : small ≤ large) :
    ofBase base small ≤ ofBase base large := by
  unfold ofBase
  gcongr

theorem Under.eased {K : Type} [Field K] [LinearOrder K] [IsStrictOrderedRing K]
    (heased : Eased request v) (hused : UsedLess request v) (hbase : 0 < riskBase request)
    {legs : List (PreparedLeg ℚ)} {t : K} (h : Under request legs t) :
    Under (request.reshape v) legs t where
  risk := h.risk.mono rfl le_rfl (ofBase_mono hbase (riskPct_le heased))
  volume := h.volume
  symbol := fun leg hleg => (h.symbol leg hleg).mono rfl (hused.symbol _) le_rfl
  total := h.total.mono rfl hused.total le_rfl
  freeMargin := h.freeMargin.mono rfl hused.margin le_rfl
  marginUsage := h.marginUsage.mono rfl (add_le_add_right hused.margin _) le_rfl

/-! ## the scale -/

variable {scale : Scale}

theorem existingExposure_eased (heased : Eased request v) (hsame : SameSnapshots request v)
    (hkept : kept.Subperm active) (h : existingExposure request (active.map Prod.fst) = .ok e) :
    ∃ e', existingExposure (request.reshape v) (kept.map Prod.fst) = .ok e' := by
  simp only [existingExposure, bind_ok] at h
  obtain ⟨_, hpositions, _, horders, hcommands⟩ := h
  have hmetadata : requiredMetadata (request.reshape v) = requiredMetadata request := by
    funext symbol
    unfold requiredMetadata
    rw [hsame.metadata]
  have hmarket : requiredMarket (request.reshape v) = requiredMarket request := by
    funext symbol
    unfold requiredMarket
    rw [hsame.market]
  obtain ⟨positions, hpositions'⟩ : ∃ r, v.positions.foldlM (exposePosition (request.reshape v))
      Amounts.empty = .ok r := by
    refine foldlM_total (fun p hp a => ?_) _
    obtain ⟨_, _, hstep⟩ := foldlM_each hpositions p (heased.positions.subset hp)
    simp only [exposePosition, hmetadata, hmarket, bind_ok, pure_ok] at hstep ⊢
    obtain ⟨lots, hlots, m, hm, k, hk, price, hprice, n, hn, -⟩ := hstep
    exact ⟨_, lots, hlots, m, hm, k, hk, price, hprice, n, hn, rfl⟩
  obtain ⟨orders, horders'⟩ : ∃ r, v.orders.foldlM (exposeOrder (request.reshape v)) positions
      = .ok r := by
    refine foldlM_total (fun o ho a => ?_) _
    obtain ⟨_, _, hstep⟩ := foldlM_each horders o (heased.orders.subset ho)
    unfold exposeOrder at hstep ⊢
    split at hstep
    case isTrue hactive => exact ⟨a, if_pos hactive⟩
    case isFalse hactive =>
      rw [if_neg hactive]
      simp only [hmetadata, hmarket, bind_ok] at hstep ⊢
      obtain ⟨lots, hlots, hstep⟩ := hstep
      split at hstep
      case isTrue hzero =>
        exact ⟨a, lots, hlots, if_pos hzero⟩
      case isFalse hzero =>
        simp only [bind_ok, pure_ok] at hstep
        obtain ⟨m, hm, k, hk, price, hprice, n, hn, -⟩ := hstep
        refine ⟨a.add o.symbol (lots * n), lots, hlots, (if_neg hzero).trans ?_⟩
        simp only [bind_ok, pure_ok]
        exact ⟨m, hm, k, hk, price, hprice, n, hn, rfl⟩
  obtain ⟨commands, hcommands'⟩ : ∃ r, (kept.map Prod.fst).foldlM
      (exposeCommand (request.reshape v)) orders = .ok r := by
    refine foldlM_total (fun c hc a => ?_) _
    obtain ⟨_, _, hstep⟩ := foldlM_each hcommands c ((Subperm.map hkept _).subset hc)
    unfold exposeCommand at hstep ⊢
    split at hstep
    case isTrue hopening => exact ⟨a, if_pos hopening⟩
    case isFalse hopening =>
      rw [if_neg hopening]
      simp only [hmetadata, hmarket, bind_ok, pure_ok] at hstep ⊢
      obtain ⟨lots, hlots, m, hm, k, hk, price, hprice, n, hn, -⟩ := hstep
      exact ⟨_, lots, hlots, m, hm, k, hk, price, hprice, n, hn, rfl⟩
  refine ⟨commands, ?_⟩
  simp only [existingExposure, bind_ok]
  exact ⟨positions, hpositions', orders, horders', hcommands'⟩

theorem pendingMargin_eased (heased : Eased request v) (hsame : SameSnapshots request v)
    (hkept : kept.Subperm active) (h : pendingMargin request (active.map Prod.fst) = .ok total) :
    ∃ total', pendingMargin (request.reshape v) (kept.map Prod.fst) = .ok total' := by
  simp only [pendingMargin, bind_ok] at h
  obtain ⟨_, horders, hcommands⟩ := h
  have hmetadata : requiredMetadata (request.reshape v) = requiredMetadata request := by
    funext symbol
    unfold requiredMetadata
    rw [hsame.metadata]
  obtain ⟨orders, horders'⟩ : ∃ r, v.orders.foldlM (orderMargin (request.reshape v)) 0 = .ok r := by
    refine foldlM_total (fun o ho a => ?_) _
    obtain ⟨_, _, hstep⟩ := foldlM_each horders o (heased.orders.subset ho)
    unfold orderMargin at hstep ⊢
    split at hstep
    case isTrue hactive => exact ⟨a, if_pos hactive⟩
    case isFalse hactive =>
      rw [if_neg hactive]
      simp only [hmetadata, bind_ok, pure_ok] at hstep ⊢
      obtain ⟨lots, hlots, m, hm, margin, hmargin, -⟩ := hstep
      exact ⟨_, lots, hlots, m, hm, margin, hmargin, rfl⟩
  obtain ⟨commands, hcommands'⟩ : ∃ r, (kept.map Prod.fst).foldlM
      (commandMargin (request.reshape v)) orders = .ok r := by
    refine foldlM_total (fun c hc a => ?_) _
    obtain ⟨_, _, hstep⟩ := foldlM_each hcommands c ((Subperm.map hkept _).subset hc)
    unfold commandMargin at hstep ⊢
    split at hstep
    case isTrue hopening => exact ⟨a, if_pos hopening⟩
    case isFalse hopening =>
      rw [if_neg hopening]
      simp only [hmetadata, bind_ok, pure_ok] at hstep ⊢
      obtain ⟨lots, hlots, m, hm, margin, hmargin, -⟩ := hstep
      exact ⟨_, lots, hlots, m, hm, margin, hmargin, rfl⟩
  refine ⟨commands, ?_⟩
  simp only [pendingMargin, bind_ok]
  exact ⟨orders, horders', hcommands'⟩

theorem riskScale_eased (heased : Eased request v) (hbase : 0 < riskBase request)
    {legs : List (PreparedLeg ℚ)} {budget : ℚ}
    (h : riskScale request legs (riskBase request) = .ok (budget, scale)) :
    ∃ budget' scale', riskScale (request.reshape v) legs (riskBase request)
      = .ok (budget', scale') ∧ budget ≤ budget' := by
  simp only [riskScale, approvedPct, decimal_rat, bind_ok, exists_unit, reject_ok, pure_ok,
    checkedDiv_ok, not_or, not_le, Except.ok.injEq, exists_eq_left', Prod.mk.injEq] at h ⊢
  obtain ⟨_, ⟨hpositive, rfl⟩, ⟨hloss, hbudget⟩, _, ⟨hzero, rfl⟩, rfl, rfl⟩ := h
  have hle : riskPct request ≤ riskPct (request.reshape v) := riskPct_le heased
  have hbudgets := ofBase_mono hbase hle
  exact ⟨_, _, ⟨_, ⟨hpositive.trans_le hle, rfl⟩, ⟨hloss, hbudget.trans_le hbudgets⟩, _,
    ⟨hzero, rfl⟩, rfl, rfl⟩, hbudgets⟩

theorem volumeScales_total {legs : List (PreparedLeg ℚ)} (h : Exposing legs) (scale : Scale) :
    ∃ scale', legs.foldlM volumeScale scale = .ok scale' := by
  refine foldlM_total (fun leg hleg a => ?_) scale
  simp only [volumeScale, bind_ok, pure_ok, checkedDiv_ok]
  exact ⟨_, _, ⟨(h leg hleg).1.ne', rfl⟩, rfl⟩

theorem exposureScale_total {existing existing' : Exposure} {symbolCap totalCap : ℚ}
    {legs : List (PreparedLeg ℚ)} {scale' : Scale}
    (h : exposureScale existing symbolCap totalCap legs scale = .ok scale')
    (hget : ∀ symbol, existing'.get symbol ≤ existing.get symbol)
    (htotal : existing'.total ≤ existing.total) (start : Scale) :
    ∃ lowered, exposureScale existing' symbolCap totalCap legs start = .ok lowered := by
  simp only [exposureScale, bind_ok, exists_unit, reject_ok, pure_ok, checkedDiv_ok, not_le] at h ⊢
  obtain ⟨_, hsymbols, havailable, _, ⟨hzero, rfl⟩, -⟩ := h
  obtain ⟨middle, hmiddle⟩ : ∃ r, (newExposureBySymbol legs).entries.foldlM
      (symbolScale existing' symbolCap) start = .ok r := by
    refine foldlM_total (fun entry hentry a => ?_) start
    obtain ⟨_, _, hstep⟩ := foldlM_each hsymbols entry hentry
    simp only [symbolScale, bind_ok, exists_unit, reject_ok, pure_ok, checkedDiv_ok, not_le]
      at hstep ⊢
    obtain ⟨hopen, _, ⟨hentry, rfl⟩, -⟩ := hstep
    exact ⟨_, hopen.trans_le (sub_le_sub_left (hget entry.1) _), _, ⟨hentry, rfl⟩, rfl⟩
  exact ⟨_, middle, hmiddle, havailable.trans_le (sub_le_sub_left htotal _), _, ⟨hzero, rfl⟩, rfl⟩

theorem marginScale_total {margins margins' : Margins} {legs : List (PreparedLeg ℚ)}
    {scale' : Scale} (h : marginScale margins legs scale = .ok scale')
    (hpending : margins'.pending ≤ margins.pending) (hfree : margins'.free = margins.free)
    (haccount : margins'.account = margins.account) (hcap : margins'.cap = margins.cap)
    (start : Scale) : ∃ lowered, marginScale margins' legs start = .ok lowered := by
  simp only [marginScale, bind_ok, exists_unit, reject_ok, pure_ok, checkedDiv_ok, not_or,
    not_le] at h ⊢
  obtain ⟨⟨hfreeOpen, husageOpen⟩, hcoefficient, _, ⟨hzero, rfl⟩, -⟩ := h
  rw [hfree, haccount, hcap]
  exact ⟨_, ⟨hfreeOpen.trans_le (sub_le_sub_left hpending _),
    husageOpen.trans_le (sub_le_sub_left hpending _)⟩, hcoefficient, _, ⟨hzero, rfl⟩, rfl⟩

theorem capScales_eased {legs : List (PreparedLeg ℚ)} {capped : Capped} (heased : Eased request v)
    (hsame : SameSnapshots request v) (htracked : Tracked request active)
    (htracked' : Tracked (request.reshape v) kept) (hkept : kept.Subperm active)
    (hexposing : Exposing legs) (hbase : 0 < riskBase request)
    (h : capScales request legs (active.map Prod.fst) (riskBase request) = .ok capped) :
    ∃ capped', capScales (request.reshape v) legs (kept.map Prod.fst) (riskBase request) = .ok capped' ∧
      capped.riskBudget ≤ capped'.riskBudget ∧ capped.scale.value ≤ capped'.scale.value := by
  obtain ⟨hlowered, hpositive⟩ := capScales_iff.mp h
  have hactive := activePendingCommands_iff.mpr htracked
  have hactive' := activePendingCommands_iff.mpr htracked'
  have hread := hlowered.read hactive
  obtain ⟨⟨first, second, third, hrisk, -, hexposure, hmargin⟩, hexisting, hsymbolLimit, htotalLimit,
    hmargins⟩ := id hlowered
  obtain ⟨pending, hpending, free, hfree, account, haccount, pct, hpct, hmarginsEq⟩ :
      ∃ pending, pendingMargin request (active.map Prod.fst) = .ok pending ∧ ∃ free, _ ∧ ∃ account, _ ∧
        ∃ pct, _ ∧ _ = capped.margins := by
    simp only [readMargins, bind_ok, pure_ok] at hmargins
    exact hmargins
  have hused := usedLess htracked heased hsame hexisting hpending
  -- every step of the eased scale is possible
  obtain ⟨budget', first', hrisk', hbudget⟩ := riskScale_eased heased hbase hrisk
  obtain ⟨second', hvolume'⟩ := volumeScales_total hexposing first'
  obtain ⟨existing', hexisting'⟩ := existingExposure_eased heased hsame hkept hexisting
  obtain ⟨pending', hpending'⟩ := pendingMargin_eased heased hsame hkept hpending
  have hget : ∀ symbol, existing'.get symbol ≤ capped.existing.get symbol := by
    intro symbol
    rw [existingExposure_get hactive' hexisting', hread.existing]
    exact hused.symbol symbol
  have htotal : existing'.total ≤ capped.existing.total := by
    rw [existingExposure_total hactive' hexisting', hread.existingTotal]
    exact hused.total
  obtain ⟨third', hexposure'⟩ := exposureScale_total hexposure hget htotal second'
  have hpendingLe : pending' ≤ capped.margins.pending := by
    rw [pendingMargin_held hactive' hpending', hread.pending]
    exact hused.margin
  obtain ⟨fourth', hmargin'⟩ := @marginScale_total _ _ { capped.margins with pending := pending' } _ _
    hmargin hpendingLe rfl rfl rfl third'
  have hlowered' : Lowered (request.reshape v) legs (kept.map Prod.fst)
      { riskBudget := budget', scale := fourth', existing := existing'
        symbolCap := capped.symbolCap, totalCap := capped.totalCap
        margins := { capped.margins with pending := pending' } } := by
    refine ⟨⟨first', second', third', hrisk', hvolume', hexposure', hmargin'⟩, hexisting', hsymbolLimit,
      htotalLimit, ?_⟩
    simp only [readMargins, bind_ok, pure_ok]
    rw [← hmarginsEq]
    exact ⟨pending', hpending', free, hfree, account, haccount, pct, hpct, rfl⟩
  -- and its limits leave it where the scale of the request was
  have hunder : Under request legs (capped.scale.value : ℝ) :=
    (hlowered.le_iff hexposing hactive _).mp le_rfl
  have hscale : (capped.scale.value : ℝ) ≤ (fourth'.value : ℝ) :=
    (hlowered'.le_iff hexposing hactive' _).mpr (hunder.eased heased hused hbase)
  have hscale' : capped.scale.value ≤ fourth'.value := by exact_mod_cast hscale
  exact ⟨_, capScales_iff.mpr ⟨hlowered', hpositive.trans_le hscale'⟩, hbudget, hscale'⟩

/-! ## lots -/

/-- the scaled ratio of a leg, floored to its step -/
def flooredLots (scale : ℚ) (leg : PreparedLeg ℚ) : ℚ :=
  ⌊scale * leg.ratio / leg.volumeStep⌋ * leg.volumeStep

/-- a leg at a scale -/
def sizedAt (scale : ℚ) (leg : PreparedLeg ℚ) : SizedLeg ℚ where
  leg := leg
  lots := flooredLots scale leg
  executableLots := flooredLots scale leg
  riskAmount := flooredLots scale leg * leg.lossPerLot

/-- a scale at which a leg has lots within its volume constraints -/
structure Sizable (scale : ℚ) (leg : PreparedLeg ℚ) : Prop where
  nonneg : 0 ≤ scale * leg.ratio
  step : 0 < leg.volumeStep
  positive : 0 < flooredLots scale leg
  least : leg.volumeMin ≤ flooredLots scale leg
  most : flooredLots scale leg ≤ leg.volumeMax

theorem floorToStep_multiple {k : Int} {step : ℚ} (hstep : 0 < step) (h : 0 < (k : ℚ) * step) :
    floorToStep ((k : ℚ) * step) step = .ok ((k : ℚ) * step) := by
  have hfloor : ⌊(k : ℚ) * step / step⌋ = k := by
    rw [mul_div_assoc, div_self hstep.ne', mul_one, Int.floor_intCast]
  simp only [floorToStep, bind_ok, exists_unit, reject_ok, pure_ok, checkedDiv_ok, not_or, not_lt,
    not_le]
  exact ⟨⟨h.le, hstep⟩, _, ⟨hstep.ne', rfl⟩, by rw [hfloor]⟩

theorem sizeLeg_iff {leg : PreparedLeg ℚ} {s : SizedLeg ℚ} :
    sizeLeg scale leg = .ok s ↔ Sizable scale.value leg ∧ s = sizedAt scale.value leg := by
  constructor
  · intro h
    simp only [sizeLeg, normalizeExecutableLots, requiredF64_rat, decimal_rat, bind_ok, exists_unit,
      reject_ok, pure_ok, Except.ok.injEq, exists_eq_left', not_or, not_lt, not_le, Prod.mk.injEq,
      Prod.exists] at h
    obtain ⟨floored, hfloor, _, _, ⟨⟨hpositive, -⟩, _, -, -, rfl, rfl⟩, hleast, hmost, _, -, -,
      rfl⟩ := h
    simp only [floorToStep, bind_ok, exists_unit, reject_ok, pure_ok, checkedDiv_ok, not_or, not_lt,
      not_le] at hfloor
    obtain ⟨⟨hnonneg, hstep⟩, _, ⟨-, rfl⟩, rfl⟩ := hfloor
    exact ⟨⟨hnonneg, hstep, hpositive, hleast, hmost⟩, rfl⟩
  · rintro ⟨h, rfl⟩
    have hfloor : floorToStep (scale.value * leg.ratio) leg.volumeStep
        = .ok (flooredLots scale.value leg) := by
      simp only [floorToStep, bind_ok, exists_unit, reject_ok, pure_ok, checkedDiv_ok, not_or, not_lt,
        not_le]
      exact ⟨⟨h.nonneg, h.step⟩, _, ⟨h.step.ne', rfl⟩, rfl⟩
    have hagain : floorToStep (flooredLots scale.value leg) leg.volumeStep
        = .ok (flooredLots scale.value leg) := floorToStep_multiple h.step h.positive
    simp only [sizeLeg, normalizeExecutableLots, requiredF64_rat, decimal_rat, bind_ok, exists_unit,
      reject_ok, pure_ok, Except.ok.injEq, exists_eq_left', not_or, not_lt, not_le, Prod.mk.injEq,
      Prod.exists]
    exact ⟨_, hfloor, _, _, ⟨⟨h.positive, le_rfl⟩, _, hagain, fun hne => hne rfl, rfl, rfl⟩, h.least,
      h.most, _, hagain, fun hne => hne rfl, rfl⟩

theorem collect_sizeLeg {legs : List (PreparedLeg ℚ)} {sized : List (SizedLeg ℚ)} :
    collect (sizeLeg scale) legs = .ok sized ↔
      (∀ leg ∈ legs, Sizable scale.value leg) ∧ sized = legs.map (sizedAt scale.value) := by
  simp only [collect_ok, sizeLeg_iff]
  induction legs generalizing sized with
  | nil =>
    rw [List.forall₂_nil_left_iff]
    exact ⟨fun h => ⟨fun _ hleg => absurd hleg List.not_mem_nil, h⟩, fun h => h.2⟩
  | cons leg legs ih =>
    rw [List.forall₂_cons_left_iff, List.forall_mem_cons, List.map_cons]
    simp only [ih]
    constructor
    · rintro ⟨_, _, ⟨hleg, rfl⟩, ⟨hrest, rfl⟩, rfl⟩
      exact ⟨⟨hleg, hrest⟩, rfl⟩
    · rintro ⟨⟨hleg, hrest⟩, rfl⟩
      exact ⟨_, _, ⟨hleg, rfl⟩, ⟨hrest, rfl⟩, rfl⟩

/-- an approved leg with its lots -/
def adjustedWith (base lots : ℚ) (leg : PreparedLeg ℚ) : AdjustedRiskLeg ℚ where
  legId := leg.provenance.legId
  symbol := leg.provenance.symbol
  action := leg.provenance.action
  lots := lots
  riskAmount := lots * leg.lossPerLot
  riskPct := lots * leg.lossPerLot / base * 100
  sizingEntryPrice := leg.entry
  approvedSl := leg.stop
  lossPerLot := leg.lossPerLot
  reason := some (.other "OK")

theorem collect_adjustLeg {base scale : ℚ} (hbase : base ≠ 0) (legs : List (PreparedLeg ℚ)) :
    collect (adjustLeg base) (legs.map (sizedAt scale))
      = .ok (legs.map fun leg => adjustedWith base (flooredLots scale leg) leg) := by
  rw [collect_ok, List.forall₂_map_left_iff, List.forall₂_map_right_iff, List.forall₂_same]
  intro leg _
  simp only [adjustLeg, requiredF64_rat, bind_ok, pure_ok, checkedDiv_ok, Except.ok.injEq,
    exists_eq_left']
  exact ⟨_, ⟨hbase, rfl⟩, rfl⟩

/-- the risk of the legs at a scale -/
def riskAt (scale : ℚ) (legs : List (PreparedLeg ℚ)) : ℚ :=
  (legs.map fun leg => flooredLots scale leg * leg.lossPerLot).sum

theorem actualRisk_sizedAt (scale : ℚ) (legs : List (PreparedLeg ℚ)) :
    actualRisk (legs.map (sizedAt scale)) = riskAt scale legs := by
  rw [actualRisk, List.map_map]
  rfl

/-- the approval of the legs at a scale -/
def approvalAt (request : RiskRequest ℚ) (legs : List (PreparedLeg ℚ)) (budget scale : ℚ)
    (ages : AuditAges) (validUntil : Int) : ActionableApproval ℚ where
  sizingVersion := request.policy.positionSizingVersion
  riskBase := riskBase request
  riskBudget := budget
  actualRiskPct := riskAt scale legs / riskBase request * 100
  candidates := legs.map PreparedLeg.provenance
  legs := legs.map fun leg => adjustedWith (riskBase request) (flooredLots scale leg) leg
  ages := ages
  validUntil := validUntil

/-- what the final checks compare is within its limits -/
def FinalChecked (capped : Capped) (legs : List (PreparedLeg ℚ)) : Prop :=
  validateFinal capped.riskBudget capped.symbolCap capped.totalCap capped.existing capped.margins
    (legs.map (sizedAt capped.scale.value)) = .ok ()

variable {ages : AuditAges} {validUntil : Int} {approval : ActionableApproval ℚ}

theorem sizeAndCap_iff {legs : List (PreparedLeg ℚ)} {commands : List (ExecutionCommand ℚ)}
    (hbase : 0 < riskBase request) :
    sizeAndCap request legs commands (riskBase request) ages validUntil = .ok approval ↔
      ∃ capped, capScales request legs commands (riskBase request) = .ok capped ∧
        (∀ leg ∈ legs, Sizable capped.scale.value leg) ∧ FinalChecked capped legs ∧
        approval = approvalAt request legs capped.riskBudget capped.scale.value ages validUntil := by
  have hprovenance : ∀ scale : ℚ, (legs.map (sizedAt scale)).map (fun s => s.leg.provenance)
      = legs.map PreparedLeg.provenance := by
    intro scale
    rw [List.map_map]
    rfl
  simp only [sizeAndCap, bind_ok, exists_unit, pure_ok, collect_sizeLeg]
  constructor
  · rintro ⟨capped, hcapped, _, ⟨hsizable, rfl⟩, hfinal, share, hshare, adjusted, hadjusted, rfl⟩
    obtain ⟨-, rfl⟩ := checkedDiv_ok.mp hshare
    rw [collect_adjustLeg hbase.ne'] at hadjusted
    cases hadjusted
    refine ⟨capped, hcapped, hsizable, hfinal, ?_⟩
    rw [actualRisk_sizedAt, hprovenance]
    rfl
  · rintro ⟨capped, hcapped, hsizable, hfinal, rfl⟩
    refine ⟨capped, hcapped, _, ⟨hsizable, rfl⟩, hfinal, _, checkedDiv_ok.mpr ⟨hbase.ne', rfl⟩, _,
      collect_adjustLeg hbase.ne' legs, ?_⟩
    rw [actualRisk_sizedAt, hprovenance]
    rfl

/-! ## the final checks -/

/-- a prepared leg takes something of every limit -/
structure Loading (leg : PreparedLeg ℚ) : Prop where
  ratio : 0 < leg.ratio
  loss : 0 < leg.lossPerLot
  notional : 0 < leg.notionalPerLot
  margin : 0 < leg.marginPerLot

theorem lossPerLotOf_pos {legId : LegId} {entry stop cost loss : ℚ}
    (h : lossPerLotOf legId metadata entry stop cost = .ok loss) :
    0 < loss := by
  simp only [lossPerLotOf, bind_ok, exists_unit, pure_ok, reject_ok, not_or, not_le] at h
  obtain ⟨_, -, _, -, _, -, -, _, -, ⟨-, hpositive⟩, rfl⟩ := h
  exact hpositive

theorem validateSymbolInput_margin {symbol : SymbolCode} {margin : ℚ}
    (h : validateSymbolInput request symbol = .ok ())
    (hmetadata : metadataOf request symbol = some metadata)
    (hmargin : metadata.marginInitial = some margin) : 0 < margin := by
  simp only [validateSymbolInput, bind_ok, exists_unit, need_ok] at h
  obtain ⟨found, hfound, _, -, -, -, hvalid, -⟩ := h
  rw [hmetadata] at hfound
  cases hfound
  simp only [validateSymbolMetadata, bind_ok, exists_unit, need_ok, reject_ok, not_le] at hvalid
  obtain ⟨_, -, _, -, _, -, _, -, _, -, _, -, _, -, -, present, hpresent, d, hd, hpositive⟩ := hvalid
  rw [hmargin] at hpresent
  cases hpresent
  cases hd
  exact hpositive

variable {prepared : List (PreparedLeg ℚ)}

theorem prepareLegs_loading (hprepared : prepareLegs request = .ok prepared)
    (hsymbols : validateSymbolInputs request (requiredSymbols request) = .ok ()) :
    ∀ leg ∈ prepared, Loading leg := by
  intro leg hleg
  obtain ⟨hratio, hnotional⟩ := prepareLegs_exposing hprepared leg hleg
  obtain ⟨-, -, expected, hexpected, -, hlegs⟩ := prepareLegs_ok hprepared
  obtain ⟨e, he, hprepare⟩ := forall₂_mem_right hlegs hleg
  have hrequired : e.symbol ∈ requiredSymbols request :=
    leg_required hexpected ((List.mem_insertionSort _).mp he)
  have hinput := each_ok.mp hsymbols e.symbol hrequired
  simp only [prepareLeg, bind_ok, exists_unit, reject_ok, need_ok, pure_ok, not_or, ne_eq,
    not_not] at hprepare
  obtain ⟨candidate, -, ⟨hsymbol, -⟩, _, -, _, -, -, -, _, -, _, -, _, -, _, -, _, -, -, metadata,
    hmetadata, _, -, -, _, -, _, -, -, loss, hloss, _, -, margin, hmargin, marginPerLot,
    hmarginPerLot, _, -, _, -, _, -, rfl⟩ := hprepare
  rw [hsymbol] at hmetadata
  refine ⟨hratio, lossPerLotOf_pos hloss, hnotional, ?_⟩
  show 0 < marginPerLot
  rw [decimal_num hmarginPerLot]
  exact validateSymbolInput_margin hinput hmetadata hmargin

section
variable {capped : Capped} {legs : List (PreparedLeg ℚ)}

theorem flooredLots_le {scale : ℚ} {leg : PreparedLeg ℚ} (h : 0 < leg.volumeStep) :
    flooredLots scale leg ≤ scale * leg.ratio :=
  sub_nonneg.mp (Int.sub_floor_div_mul_nonneg _ h)

theorem flooredLots_mono {scale scale' : ℚ} {leg : PreparedLeg ℚ} (hstep : 0 < leg.volumeStep)
    (hratio : 0 < leg.ratio) (h : scale ≤ scale') : flooredLots scale leg ≤ flooredLots scale' leg := by
  have hfloor : ⌊scale * leg.ratio / leg.volumeStep⌋ ≤ ⌊scale' * leg.ratio / leg.volumeStep⌋ := by
    apply Int.floor_mono
    gcongr
  have hcast : (⌊scale * leg.ratio / leg.volumeStep⌋ : ℚ) ≤ ⌊scale' * leg.ratio / leg.volumeStep⌋ := by
    exact_mod_cast hfloor
  exact mul_le_mul_of_nonneg_right hcast hstep.le

theorem holds_floored {c : Cap (PreparedLeg ℚ)} {scale : ℚ}
    (h : c.Holds (scaled PreparedLeg.ratio legs scale)) (hload : ∀ leg ∈ legs, 0 ≤ c.load leg)
    (hstep : ∀ leg ∈ legs, 0 < leg.volumeStep) :
    c.used + (legs.map fun leg => flooredLots scale leg * c.load leg).sum ≤ c.limit := by
  have hlower : c.Holds (legs.map fun leg => (leg, flooredLots scale leg)) :=
    Cap.Holds.lower h hload fun leg hleg => flooredLots_le (hstep leg hleg)
  have hsum := (Cap.holds_rat_iff c _).mp hlower
  rw [List.map_map] at hsum
  exact hsum

theorem finalChecked_of_under (hread : CapsRead request capped)
    (hunder : Under request legs capped.scale.value) (hloading : ∀ leg ∈ legs, Loading leg)
    (hstep : ∀ leg ∈ legs, 0 < leg.volumeStep)
    (hheld : ∀ symbol, (symbolCap request symbol).used ≤ (symbolCap request symbol).limit) :
    FinalChecked capped legs := by
  have hsizing : sizingOf (legs.map (sizedAt capped.scale.value))
      = legs.map fun leg => (leg, flooredLots capped.scale.value leg) := by
    rw [sizingOf, List.map_map]
    rfl
  have hsymbolLoad : ∀ symbol, ∀ leg ∈ legs, 0 ≤ (symbolCap request symbol).load leg := by
    intro symbol leg hleg
    show 0 ≤ if leg.provenance.symbol = symbol then leg.notionalPerLot else 0
    split
    · exact (hloading leg hleg).notional.le
    · exact le_rfl
  have hsymbol : ∀ symbol,
      (symbolCap request symbol).Holds (scaled PreparedLeg.ratio legs capped.scale.value) := by
    intro symbol
    by_cases hleg : ∃ leg ∈ legs, leg.provenance.symbol = symbol
    · obtain ⟨leg, hmem, rfl⟩ := hleg
      exact hunder.symbol leg hmem
    · exact Cap.holds_scaled_of_untouched _
        (fun leg hmem => if_neg fun heq => hleg ⟨leg, hmem, heq⟩) (hheld symbol) _
  have hrisk := holds_floored hunder.risk (fun leg hleg => (hloading leg hleg).loss.le) hstep
  have htotal := holds_floored hunder.total (fun leg hleg => (hloading leg hleg).notional.le) hstep
  have hfree := holds_floored hunder.freeMargin (fun leg hleg => (hloading leg hleg).margin.le)
    hstep
  have husage := holds_floored hunder.marginUsage (fun leg hleg => (hloading leg hleg).margin.le)
    hstep
  have hnew : newMargin (legs.map (sizedAt capped.scale.value))
      = (legs.map fun leg => flooredLots capped.scale.value leg * leg.marginPerLot).sum := by
    rw [newMargin, List.map_map]
    rfl
  simp only [FinalChecked, validateFinal, bind_ok, exists_unit, reject_ok, not_or, not_lt, not_exists,
    not_and]
  refine ⟨?_, ⟨?_, ?_⟩, ?_, ?_⟩
  · rw [actualRisk_sizedAt, hread.budget]
    have hzero : (riskCap request).used = 0 := rfl
    rw [hzero, zero_add] at hrisk
    exact hrisk
  · intro entry hentry
    rw [← Amounts.get_of_mem hentry, finalExposure_get hread, hsizing, List.map_map]
    have hcap := holds_floored (hsymbol entry.1) (hsymbolLoad entry.1) hstep
    rw [hread.symbolLimit]
    exact hcap
  · rw [finalExposure_total hread, hsizing, List.map_map, hread.totalLimit]
    exact htotal
  · rw [hread.pending, hnew, hread.free]
    exact hfree
  · rw [hread.pending, hnew, hread.account, hread.marginLimit, ← add_assoc]
    exact husage

theorem held_le_limit (hread : CapsRead request capped) (hbase : 0 < riskBase request)
    (hpct : 0 < num request.policy.maxSymbolExposurePct) (hloading : ∀ leg ∈ legs, Loading leg)
    (hsizable : ∀ leg ∈ legs, Sizable capped.scale.value leg) (hfinal : FinalChecked capped legs)
    (symbol : SymbolCode) :
    (symbolCap request symbol).used ≤ (symbolCap request symbol).limit := by
  have hsized : ∀ s ∈ legs.map (sizedAt capped.scale.value), SizedAt capped.scale.value s := by
    intro s hs
    obtain ⟨leg, hleg, rfl⟩ := List.mem_map.mp hs
    have h := hsizable leg hleg
    exact ⟨h.step, rfl, h.least, h.most, rfl, rfl⟩
  have hholds := (validateFinal_ok hread hbase hpct hsized hfinal).symbol symbol
  rw [Cap.holds_rat_iff] at hholds
  refine le_trans (le_add_of_nonneg_right (List.sum_nonneg fun y hy => ?_)) hholds
  obtain ⟨x, hx, rfl⟩ := List.mem_map.mp hy
  obtain ⟨s, hs, rfl⟩ := List.mem_map.mp hx
  obtain ⟨leg, hleg, rfl⟩ := List.mem_map.mp hs
  refine mul_nonneg (hsizable leg hleg).positive.le ?_
  show 0 ≤ if leg.provenance.symbol = symbol then leg.notionalPerLot else 0
  split
  · exact (hloading leg hleg).notional.le
  · exact le_rfl

end

/-! ## openings -/

/-- everything that the opening of a request has computed and checked -/
structure Opened (request : RiskRequest ℚ) (prepared : List (PreparedLeg ℚ))
    (active : List (ExecutionCommand ℚ × ExecutionCommandState)) (ages : AuditAges)
    (validUntil : Int) (capped : Capped) : Prop where
  control : validateControlTime request = .ok ()
  policy : validateFreshnessPolicy request = .ok ()
  index : indexSnapshots request (requiredSymbols request) = .ok ()
  fresh : validateFreshness request (requiredSymbols request) = .ok ages
  inputs : validatePolicyAndInputs request = .ok (riskBase request)
  symbols : validateSymbolInputs request (requiredSymbols request) = .ok ()
  prepares : prepareLegs request = .ok prepared
  lossCapacity : validateLossCapacity request = .ok ()
  tracked : Tracked request active
  pending : validatePendingExposure request prepared active = .ok ()
  concurrency : validateConcurrency request prepared active = .ok ()
  ends : approvalValidUntil request (requiredSymbols request) = .ok validUntil
  caps : capScales request prepared (active.map Prod.fst) (riskBase request) = .ok capped
  sizable : ∀ leg ∈ prepared, Sizable capped.scale.value leg
  final : FinalChecked capped prepared

theorem evaluateOpening_iff :
    evaluateOpening request = .ok approval ↔ ∃ prepared active ages validUntil capped,
      Opened request prepared active ages validUntil capped ∧
      approval = approvalAt request prepared capped.riskBudget capped.scale.value ages validUntil := by
  constructor
  · intro h
    simp only [evaluateOpening, bind_ok, exists_unit] at h
    obtain ⟨hcontrol, hpolicy, hindex, ages, hages, base, hbase, hsymbols, prepared, hprepared, hloss,
      active, hactive, hpending, hconcurrency, validUntil, huntil, hsizing⟩ := h
    obtain ⟨rfl, hpositive, -⟩ := validatePolicyAndInputs_ok hbase
    obtain ⟨capped, hcapped, hsizable, hfinal, rfl⟩ := (sizeAndCap_iff hpositive).mp hsizing
    exact ⟨prepared, active, ages, validUntil, capped, ⟨hcontrol, hpolicy, hindex, hages, hbase,
      hsymbols, hprepared, hloss, activePendingCommands_iff.mp hactive, hpending, hconcurrency, huntil,
      hcapped, hsizable, hfinal⟩, rfl⟩
  · rintro ⟨prepared, active, ages, validUntil, capped, h, rfl⟩
    obtain ⟨-, hpositive, -⟩ := validatePolicyAndInputs_ok h.inputs
    simp only [evaluateOpening, bind_ok, exists_unit]
    exact ⟨h.control, h.policy, h.index, ages, h.fresh, _, h.inputs, h.symbols, prepared, h.prepares,
      h.lossCapacity, active, activePendingCommands_iff.mpr h.tracked, h.pending, h.concurrency,
      validUntil, h.ends, (sizeAndCap_iff hpositive).mpr ⟨capped, h.caps, h.sizable, h.final, rfl⟩⟩

theorem Opened.unique {prepared' : List (PreparedLeg ℚ)} {ages' : AuditAges} {validUntil' : Int}
    {capped capped' : Capped} (h : Opened request prepared active ages validUntil capped)
    (h' : Opened request prepared' kept ages' validUntil' capped') :
    prepared' = prepared ∧ kept = active ∧ ages' = ages ∧ validUntil' = validUntil ∧
      capped' = capped := by
  obtain rfl : prepared' = prepared := Except.ok.inj (h'.prepares.symm.trans h.prepares)
  obtain rfl : kept = active := h'.tracked.active.trans h.tracked.active.symm
  exact ⟨rfl, rfl, Except.ok.inj (h'.fresh.symm.trans h.fresh),
    Except.ok.inj (h'.ends.symm.trans h.ends), Except.ok.inj (h'.caps.symm.trans h.caps)⟩

theorem Opened.eased {capped : Capped} (h : Opened request prepared active ages validUntil capped)
    (heased : Eased request v) : ∃ kept ages' validUntil' capped',
      Opened (request.reshape v) prepared kept ages' validUntil' capped' ∧ ages'.Within ages ∧
        validUntil ≤ validUntil' ∧ capped.riskBudget ≤ capped'.riskBudget ∧
        capped.scale.value ≤ capped'.scale.value := by
  obtain ⟨hmetadata, hmarkets, hdescribed⟩ := indexSnapshots_ok.mp h.index
  have hsame : SameSnapshots request v :=
    ⟨metadataOf_eased heased hmetadata, marketOf_eased heased hmarkets⟩
  have hrequired := requiredSymbols_eased h.tracked heased
  obtain ⟨kept, htracked', hkept⟩ := h.tracked.eased heased
  obtain ⟨ages', hfresh', hages⟩ := validateFreshness_eased heased hsame hrequired h.fresh
  obtain ⟨later, hends', hlater⟩ := approvalValidUntil_eased h.tracked heased hsame h.ends
  obtain ⟨-, hbase, hpct⟩ := validatePolicyAndInputs_ok h.inputs
  obtain ⟨capped', hcapped', hbudget, hscale⟩ := capScales_eased heased hsame h.tracked htracked' hkept
    (prepareLegs_exposing h.prepares) hbase h.caps
  have hindex' : indexSnapshots (request.reshape v) (requiredSymbols (request.reshape v)) = .ok () := by
    refine indexSnapshots_ok.mpr ⟨(heased.symbolMetadata.map _).nodup_iff.mp hmetadata,
      (heased.markets.map _).nodup_iff.mp hmarkets, fun symbol hsymbol => ?_⟩
    have hfound := hdescribed symbol (hrequired symbol hsymbol)
    unfold Described at hfound ⊢
    rw [hsame.metadata, hsame.market]
    exact hfound
  have hloading := prepareLegs_loading h.prepares h.symbols
  have hexposing := prepareLegs_exposing h.prepares
  have hactive := activePendingCommands_iff.mpr h.tracked
  have hactive' := activePendingCommands_iff.mpr htracked'
  have hlowered := (capScales_iff.mp h.caps).1
  have hlowered' := (capScales_iff.mp hcapped').1
  have hunder' : Under (request.reshape v) prepared capped'.scale.value :=
    (hlowered'.le_iff hexposing hactive' capped'.scale.value).mp (le_of_eq (Rat.cast_id _).symm)
  have hstep : ∀ leg ∈ prepared, 0 < leg.volumeStep := fun leg hleg => (h.sizable leg hleg).step
  -- the lots grow with the scale, and stay below the maximum because the scale does
  have hsizable' : ∀ leg ∈ prepared, Sizable capped'.scale.value leg := by
    intro leg hleg
    have hold := h.sizable leg hleg
    have hratio := (hloading leg hleg).ratio
    have hlots := flooredLots_mono hold.step hratio hscale
    have hmost := hunder'.volume leg hleg
    rw [Rat.cast_id, Rat.cast_id] at hmost
    exact ⟨hold.nonneg.trans (mul_le_mul_of_nonneg_right hscale hratio.le), hold.step,
      hold.positive.trans_le hlots, hold.least.trans hlots, (flooredLots_le hold.step).trans hmost⟩
  have hused : UsedLess request v := by
    have hmargins := hlowered.margins
    simp only [readMargins, bind_ok] at hmargins
    obtain ⟨pending, hpendingMargin, -⟩ := hmargins
    exact usedLess h.tracked heased hsame hlowered.existing hpendingMargin
  have hheld : ∀ symbol, (symbolCap (request.reshape v) symbol).used
      ≤ (symbolCap (request.reshape v) symbol).limit := fun symbol =>
    (hused.symbol symbol).trans (held_le_limit (hlowered.read hactive) hbase hpct hloading h.sizable
      h.final symbol)
  exact ⟨kept, ages', later, capped', ⟨h.control, h.policy, hindex', hfresh',
    validatePolicyAndInputs_eased heased h.inputs, validateSymbolInputs_eased hsame hrequired h.symbols,
    prepareLegs_eased heased hsame h.prepares, h.lossCapacity, htracked',
    validatePendingExposure_eased heased hsame hkept h.pending,
    validateConcurrency_eased heased hkept h.concurrency, hends', hcapped', hsizable',
    finalChecked_of_under (hlowered'.read hactive') hunder' hloading hstep hheld⟩, hages, hlater,
    hbudget, hscale⟩

end

end Sinan.Risk
