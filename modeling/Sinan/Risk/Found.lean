import Sinan.Risk.Holdings
import Sinan.Risk.Window

/-!
# Snapshots that are found

The symbols an evaluation needs are collected once, and it fails if one of them has no market or no
metadata.  Every later lookup is for one of these symbols, so none of the later errors for a missing
snapshot can occur: each consumer filters orders and commands as narrowly as the collection did.
-/

set_option linter.unusedSectionVars false

namespace Sinan.Risk

open Lib
open Breaker

/-- the texts of a lookup that finds no snapshot of this kind -/
def AbsenceText (kind snapshot message : String) : Prop :=
  message = kind ++ " missing" ∨ message = "candidate " ++ kind ++ " missing" ∨
    ∃ symbol, message = kind ++ " is missing for " ++ symbol ∨
      message = snapshot ++ " is missing for " ++ symbol

/-- the rejections of a lookup that finds no snapshot -/
def Missing (r : Rejection) : Prop :=
  match r.code with
  | .symbolMetadataStale => AbsenceText "metadata" "symbol metadata" r.message
  | .marketSnapshotStale => AbsenceText "market" "market snapshot" r.message
  | _ => False

/-- no lookup of the computation fails -/
def Finds {α : Type} (x : Evaluation α) : Prop := Refuses (fun r => ¬ Missing r) x

section
variable {F : Type} [F64 F]

/-! ## the filters -/

section
variable {request : RiskRequest F} {expected : List (ExpectedLeg F)}

theorem mem_required {symbol : SymbolCode} :
    symbol ∈ requiredSymbols request ↔
      symbol ∈ (match request.intent.proposedLegs with
        | some legs => legs.map TradeIntentLeg.symbol
        | none => [request.intent.symbol]) ∨
      symbol ∈ request.positions.map PositionSnapshot.symbol ∨
      symbol ∈ (request.orders.filter fun o => orderIsActive o.status).map OrderSnapshot.symbol ∨
      symbol ∈ (request.pendingCommands.filter (commandMayExpose request)).map
        ExecutionCommand.symbol := by
  rewrite [requiredSymbols, sortedSet, List.mem_insertionSort, List.mem_dedup, List.mem_append,
    List.mem_append, List.mem_append, or_assoc, or_assoc]
  exact Iff.rfl

theorem position_required {position : PositionSnapshot F} (h : position ∈ request.positions) :
    position.symbol ∈ requiredSymbols request :=
  mem_required.mpr (.inr (.inl (List.mem_map_of_mem h)))

theorem order_required {order : OrderSnapshot F} (h : order ∈ request.orders)
    (hactive : orderIsActive order.status = true) : order.symbol ∈ requiredSymbols request :=
  mem_required.mpr (.inr (.inr (.inl (List.mem_map_of_mem (List.mem_filter.mpr ⟨h, hactive⟩)))))

theorem expectLegs_symbols {legs : List (TradeIntentLeg F)} {seen : List LegId}
    (h : expectLegs seen legs = .ok expected) :
    expected.map ExpectedLeg.symbol = legs.map TradeIntentLeg.symbol := by
  induction legs generalizing seen expected with
  | nil =>
    cases h
    rfl
  | cons leg legs ih =>
    simp only [expectLegs, bind_ok, exists_unit, pure_ok] at h
    obtain ⟨-, action, -, rest, hrest, rfl⟩ := h
    rw [List.map_cons, List.map_cons, ih hrest]

theorem leg_required {leg : ExpectedLeg F} (h : expectedLegs request = .ok expected)
    (hleg : leg ∈ expected) :
    leg.symbol ∈ requiredSymbols request := by
  refine mem_required.mpr (.inl ?_)
  unfold expectedLegs at h
  cases hlegs : request.intent.proposedLegs with
  | some legs =>
    rw [hlegs] at h
    show leg.symbol ∈ legs.map TradeIntentLeg.symbol
    rw [← expectLegs_symbols h]
    exact List.mem_map_of_mem hleg
  | none =>
    rw [hlegs] at h
    cases haction : request.intent.action
    all_goals
      rw [haction] at h
      simp only [bind_ok, pure_ok] at h
      obtain ⟨action, -, rfl⟩ := h
      rw [List.mem_singleton.mp hleg]
      exact List.mem_singleton_self _

/-- A command that is found active is one whose state was not terminal when symbols were collected:
states are distinct, so the state that was found is the only one. -/
theorem command_required {active : List (ExecutionCommand F × ExecutionCommandState)}
    {entry : ExecutionCommand F × ExecutionCommandState}
    (h : activePendingCommands request = .ok active) (hentry : entry ∈ active)
    (hopening : entry.1.action.isOpening = true) : entry.1.symbol ∈ requiredSymbols request := by
  simp only [activePendingCommands, bind_ok, exists_unit, eachApart_key_ok] at h
  obtain ⟨-, ⟨hnodup, -⟩, -, h⟩ := h
  have hmem : entry.1 ∈ (active.map Prod.fst).filter fun c => c.action.isOpening :=
    List.mem_filter.mpr ⟨List.mem_map_of_mem hentry, hopening⟩
  rw [activeCommands_ok hnodup h, List.mem_filter, List.mem_insertionSort] at hmem
  exact mem_required.mpr (.inr (.inr (.inr (List.mem_map_of_mem (List.mem_filter.mpr hmem)))))

end

/-! ## numbers -/

theorem decimal_finds (name : String) (value : F) : Finds (decimal name value) :=
  Refuses.bind (Refuses.reject id) fun _ _ => Refuses.need fun _ => id

theorem Finds.decimal {α : Type} {name : String} {value : F} {f : ℚ → Evaluation α}
    (h : ∀ d, Finds (f d)) : Finds (Risk.decimal name value >>= f) :=
  Refuses.bind (decimal_finds name value) fun d _ => h d

theorem decimalOpt_finds (name : String) (value : Option F) : Finds (decimalOpt name value) := by
  cases value with
  | none => exact Refuses.ok none
  | some value => exact Refuses.bind (decimal_finds name value) fun d _ => Refuses.ok (some d)

theorem positiveOptionalDecimal_finds (name : String) (value : Option F) :
    Finds (positiveOptionalDecimal name value) := by
  refine Refuses.bind (Refuses.need fun _ => id) fun present _ => ?_
  refine Refuses.bind (decimal_finds name present) fun d _ => ?_
  exact Refuses.check id (Refuses.ok d)

theorem checkedDiv_finds (a b : ℚ) : Finds (checkedDiv a b) :=
  Refuses.check id (Refuses.ok _)

theorem validatePercentage_finds (name : String) (value : F) (positive : Bool) :
    Finds (validatePercentage name value positive) :=
  Refuses.bind (decimal_finds name value) fun _ _ => Refuses.reject id

theorem requiredF64_finds (value : ℚ) : Finds (requiredF64 value : Evaluation F) :=
  Refuses.need fun _ => id

theorem floorToStep_finds (value step : ℚ) : Finds (floorToStep value step) := by
  refine Refuses.check id ?_
  exact Refuses.bind (checkedDiv_finds value step) fun _ _ => Refuses.ok _

/-! ## ages -/

theorem ne_append {t p s : String} (h : p.toList.isPrefixOf t.toList = false) : t ≠ p ++ s := by
  rintro rfl
  rw [String.toList_append, List.isPrefixOf_iff_prefix.mpr (List.prefix_append _ _)] at h
  exact (nomatch h)

theorem checkedAge_finds (now observedAt maxAge : Int) {code : ErrorCode} {label : String}
    (hoverflow : ¬ Missing ⟨code, label ++ " age arithmetic overflowed"⟩)
    (hstale : ¬ Missing ⟨code, label ++ " is future-dated or stale"⟩) :
    Finds (checkedAge now observedAt maxAge code label) := by
  refine Refuses.bind (Refuses.need fun _ => hoverflow) fun age _ => ?_
  exact Refuses.check hstale (Refuses.ok age)

theorem not_absenceText {kind snapshot message : String}
    (hexact : message ≠ kind ++ " missing" ∧ message ≠ "candidate " ++ kind ++ " missing")
    (hkind : (kind ++ " is missing for ").toList.isPrefixOf message.toList = false)
    (hsnapshot : (snapshot ++ " is missing for ").toList.isPrefixOf message.toList = false) :
    ¬ AbsenceText kind snapshot message := by
  rintro (hm | hm | ⟨symbol, hm | hm⟩)
  · exact hexact.1 hm
  · exact hexact.2 hm
  · exact ne_append hkind hm
  · exact ne_append hsnapshot hm

theorem marketAge_finds (now observedAt maxAge : Int) :
    Finds (checkedAge now observedAt maxAge .marketSnapshotStale "market snapshot") :=
  checkedAge_finds now observedAt maxAge (not_absenceText (by decide) rfl rfl)
    (not_absenceText (by decide) rfl rfl)

theorem metadataAge_finds (now observedAt maxAge : Int) :
    Finds (checkedAge now observedAt maxAge .symbolMetadataStale "symbol metadata") :=
  checkedAge_finds now observedAt maxAge (not_absenceText (by decide) rfl rfl)
    (not_absenceText (by decide) rfl rfl)

theorem oldest_finds {α : Type} {age : α → Evaluation Int} (h : ∀ x, Finds (age x)) (start : Int)
    (xs : List α) : Finds (oldest age start xs) := by
  induction xs generalizing start with
  | nil => exact Refuses.ok start
  | cons x xs ih => exact Refuses.bind (h x) fun a _ => ih (max start a)

theorem snapshotAge_finds (request : RiskRequest F) : Finds (snapshotAge request) := by
  refine Refuses.bind (checkedAge_finds _ _ _ id id) fun account _ => ?_
  refine Refuses.bind (checkedAge_finds _ _ _ id id) fun positions _ => ?_
  refine Refuses.bind (checkedAge_finds _ _ _ id id) fun orders _ => ?_
  refine Refuses.bind (checkedAge_finds _ _ _ id id) fun commands _ => ?_
  refine Refuses.check id ?_
  refine Refuses.bind (oldest_finds (fun position => ?_) _ _) fun rows _ =>
    oldest_finds (fun order => ?_) _ _
  · exact Refuses.bind (Refuses.reject id) fun _ _ => checkedAge_finds _ _ _ id id
  · exact Refuses.bind (Refuses.reject id) fun _ _ => checkedAge_finds _ _ _ id id

/-! ## lookups -/

section
variable {request : RiskRequest F} {symbol : SymbolCode} {required : List SymbolCode}

theorem needMetadata_finds (h : Described request symbol) (e : Rejection) :
    Finds (need (metadataOf request symbol) e) := by
  obtain ⟨-, metadata, hmetadata⟩ := h
  rw [hmetadata]
  exact Refuses.ok metadata

theorem needMarket_finds (h : Described request symbol) (e : Rejection) :
    Finds (need (marketOf request symbol) e) := by
  obtain ⟨⟨market, hmarket⟩, -⟩ := h
  rw [hmarket]
  exact Refuses.ok market

theorem symbolAges_finds (h : ∀ symbol ∈ required, Described request symbol) (market metadata : Int) :
    Finds (symbolAges request market metadata required) := by
  induction required generalizing market metadata with
  | nil => exact Refuses.ok (market, metadata)
  | cons symbol rest ih =>
    have hsymbol := h symbol List.mem_cons_self
    refine Refuses.bind (needMarket_finds hsymbol _) fun found _ => ?_
    refine Refuses.bind (marketAge_finds _ _ _) fun _ _ => ?_
    refine Refuses.bind (needMetadata_finds hsymbol _) fun described _ => ?_
    refine Refuses.bind (metadataAge_finds _ _ _) fun _ _ => ?_
    exact ih (fun s hs => h s (List.mem_cons_of_mem symbol hs)) _ _

theorem validateFreshness_finds (h : ∀ symbol ∈ required, Described request symbol) :
    Finds (validateFreshness request required) := by
  refine Refuses.bind (snapshotAge_finds request) fun snapshot _ => ?_
  refine Refuses.bind (symbolAges_finds h 0 0) fun ages _ => ?_
  refine Refuses.bind (checkedAge_finds _ _ _ id id) fun capacity _ => ?_
  exact Refuses.check id (Refuses.ok _)

theorem validateSymbolMetadata_finds (symbol : SymbolCode) (metadata : SymbolMetadataSnapshot F) :
    Finds (validateSymbolMetadata symbol metadata) := by
  refine Finds.decimal fun _ => ?_
  refine Finds.decimal fun _ => ?_
  refine Finds.decimal fun _ => ?_
  refine Finds.decimal fun _ => ?_
  refine Finds.decimal fun _ => ?_
  refine Finds.decimal fun _ => ?_
  refine Finds.decimal fun _ => ?_
  refine Refuses.check id ?_
  refine Refuses.bind (Refuses.need fun _ => id) fun present _ => ?_
  exact Finds.decimal fun _ => Refuses.reject id

theorem validateSymbolInput_finds (h : Described request symbol) :
    Finds (validateSymbolInput request symbol) := by
  refine Refuses.bind (needMetadata_finds h _) fun metadata _ => ?_
  refine Refuses.bind (needMarket_finds h _) fun market _ => ?_
  refine Refuses.check id ?_
  refine Refuses.check id ?_
  refine Refuses.bind (validateSymbolMetadata_finds symbol metadata) fun _ _ => ?_
  refine Finds.decimal fun bid => ?_
  refine Finds.decimal fun ask => ?_
  exact Finds.decimal fun spread => Refuses.reject id

/-! ## legs -/

theorem expectLegs_finds (seen : List LegId) (legs : List (TradeIntentLeg F)) :
    Finds (expectLegs seen legs) := by
  induction legs generalizing seen with
  | nil => exact Refuses.ok []
  | cons leg legs ih =>
    refine Refuses.check id ?_
    refine Refuses.bind ?_ fun action _ => Refuses.bind (ih _) fun rest _ => Refuses.ok _
    unfold legAction
    split
    · exact Refuses.ok _
    · exact Refuses.ok _
    · exact Refuses.error id

theorem expectedLegs_finds (request : RiskRequest F) : Finds (expectedLegs request) := by
  unfold expectedLegs
  split
  · exact expectLegs_finds [] _
  · split
    · exact Refuses.ok _
    · exact Refuses.ok _
    · exact Refuses.error id

theorem lossPerLotOf_finds (legId : LegId) (metadata : SymbolMetadataSnapshot F)
    (entry stop cost : ℚ) : Finds (lossPerLotOf legId metadata entry stop cost) := by
  refine Finds.decimal fun point => ?_
  refine Finds.decimal fun tickSize => ?_
  refine Finds.decimal fun tickValue => ?_
  refine Refuses.check id ?_
  refine Refuses.bind (checkedDiv_finds _ _) fun lossTicks _ => ?_
  exact Refuses.check id (Refuses.ok _)

theorem notionalPerLot_finds (metadata : SymbolMetadataSnapshot F) (market : RiskMarketSnapshot F)
    (price : Option ℚ) : Finds (notionalPerLot metadata market price) := by
  refine Finds.decimal fun bid => ?_
  refine Finds.decimal fun ask => ?_
  refine Finds.decimal fun tickSize => ?_
  refine Finds.decimal fun tickValue => ?_
  refine Refuses.bind (checkedDiv_finds _ _) fun ticks _ => ?_
  exact Refuses.check id (Refuses.ok _)

theorem prepareLeg_finds {expected : ExpectedLeg F} (h : Described request expected.symbol) :
    Finds (prepareLeg request expected) := by
  refine Refuses.bind (Refuses.need fun _ => id) fun candidate _ => ?_
  refine Refuses.bind (Refuses.reject id) fun _ hidentity => ?_
  have hsymbol : candidate.symbol = expected.symbol := by
    have hsame := reject_ok.mp hidentity
    exact not_not.mp fun hne => hsame (.inl hne)
  have hdescribed : Described request candidate.symbol := hsymbol ▸ h
  refine Finds.decimal fun ratio => ?_
  refine Finds.decimal fun expectedRatio => ?_
  refine Refuses.check id ?_
  refine Refuses.check id ?_
  refine Refuses.bind (Refuses.need fun _ => id) fun proposedStop _ => ?_
  refine Finds.decimal fun expectedStop => ?_
  refine Finds.decimal fun entry => ?_
  refine Finds.decimal fun stop => ?_
  refine Finds.decimal fun cost => ?_
  refine Refuses.check id ?_
  refine Refuses.bind (needMetadata_finds hdescribed _) fun metadata _ => ?_
  refine Refuses.bind (needMarket_finds hdescribed _) fun market _ => ?_
  refine Refuses.check id ?_
  refine Finds.decimal fun bid => ?_
  refine Finds.decimal fun ask => ?_
  refine Refuses.check id ?_
  refine Refuses.bind (lossPerLotOf_finds _ _ _ _ _) fun lossPerLot _ => ?_
  refine Refuses.bind (notionalPerLot_finds _ _ _) fun notional _ => ?_
  refine Refuses.bind (Refuses.need fun _ => id) fun marginInitial _ => ?_
  refine Finds.decimal fun margin => ?_
  refine Finds.decimal fun volumeMin => ?_
  refine Finds.decimal fun volumeMax => ?_
  exact Finds.decimal fun volumeStep => Refuses.ok _

theorem prepareLegs_finds (h : ∀ symbol ∈ requiredSymbols request, Described request symbol) :
    Finds (prepareLegs request) := by
  refine Refuses.bind ?_ fun _ _ => ?_
  · exact Refuses.eachApart (fun _ => Refuses.reject id) (fun _ => id) fun _ => Refuses.ok ()
  refine Refuses.bind (expectedLegs_finds request) fun expected hexpected => ?_
  refine Refuses.bind (Refuses.reject id) fun _ _ => Refuses.collect fun leg hleg => ?_
  exact prepareLeg_finds (h _ (leg_required hexpected ((List.mem_insertionSort _).mp hleg)))

/-! ## pending exposure -/

theorem validateActiveCommand_finds (command : ExecutionCommand F) :
    Finds (validateActiveCommand command) := by
  refine Refuses.check id ?_
  have hopening : Finds (do
      let _ ← positiveOptionalDecimal "command.lots" command.lots
      let orderType ← need command.orderType
        (inputInvalid "active BUY/SELL order_type is required")
      let price ← decimalOpt "command.price" command.price
      reject (price.any (· ≤ 0) ∨ (orderType ≠ .market ∧ price.isNone))
        (inputInvalid "active pending-order price is missing or invalid")) := by
    refine Refuses.bind (positiveOptionalDecimal_finds _ _) fun _ _ => ?_
    refine Refuses.bind (Refuses.need fun _ => id) fun orderType _ => ?_
    exact Refuses.bind (decimalOpt_finds _ _) fun price _ => Refuses.reject id
  cases command.action with
  | buy => exact hopening
  | sell => exact hopening
  | close =>
    refine Refuses.check id ?_
    exact Refuses.bind (decimalOpt_finds _ _) fun lots _ => Refuses.reject id
  | modify => exact Refuses.check id (Refuses.reject id)
  | cancel => exact Refuses.reject id

theorem validateCommandStateTime_finds (request : RiskRequest F) (state : ExecutionCommandState) :
    Finds (validateCommandStateTime request state) := by
  refine Refuses.check id ?_
  exact Refuses.bind (Refuses.reject id) fun _ _ => Refuses.each fun _ _ => Refuses.reject id

theorem activeCommands_finds (request : RiskRequest F) (commands : List (ExecutionCommand F)) :
    Finds (activeCommands request commands) := by
  induction commands with
  | nil => exact Refuses.ok []
  | cons command rest ih =>
    refine Refuses.bind (Refuses.need fun _ => id) fun state _ => ?_
    refine Refuses.check id ?_
    refine Refuses.bind (validateCommandStateTime_finds request state) fun _ _ => ?_
    split
    · exact ih
    · refine Refuses.bind (validateActiveCommand_finds command) fun _ _ => ?_
      refine Refuses.check id ?_
      exact Refuses.bind ih fun active _ => Refuses.ok _

theorem activePendingCommands_finds (request : RiskRequest F) :
    Finds (activePendingCommands request) := by
  refine Refuses.bind ?_ fun _ _ => Refuses.bind ?_ fun _ _ => ?_
  · exact Refuses.eachApart (fun _ => Refuses.ok ()) (fun _ => id) fun _ => Refuses.ok ()
  · exact Refuses.eachApart (fun _ => Refuses.ok ()) (fun _ => id) fun _ => Refuses.ok ()
  · exact Refuses.bind (Refuses.reject id) fun _ _ => activeCommands_finds request _

end

/-! ## holdings -/

/-- every position, active order and opening command has its snapshots -/
structure Covered (request : RiskRequest F) (active : List (ExecutionCommand F)) : Prop where
  positions : ∀ position ∈ request.positions, Described request position.symbol
  orders : ∀ order ∈ request.orders, orderIsActive order.status = true →
    Described request order.symbol
  commands : ∀ command ∈ active, command.action.isOpening = true → Described request command.symbol

section
variable {request : RiskRequest F} {active : List (ExecutionCommand F)}
  {entries : List (ExecutionCommand F × ExecutionCommandState)}

theorem covered (h : ∀ symbol ∈ requiredSymbols request, Described request symbol)
    (hactive : activePendingCommands request = .ok entries) :
    Covered request (entries.map Prod.fst) where
  positions _ hmem := h _ (position_required hmem)
  orders _ hmem hopen := h _ (order_required hmem hopen)
  commands command hmem hopening := by
    obtain ⟨entry, hentry, rfl⟩ := List.mem_map.mp hmem
    exact h _ (command_required hactive hentry hopening)

theorem validateOrder_finds (order : OrderSnapshot F) : Finds (validateOrder order) := by
  refine Finds.decimal fun requested => ?_
  refine Finds.decimal fun filled => ?_
  refine Finds.decimal fun remaining => ?_
  refine Refuses.check id ?_
  refine Refuses.check id ?_
  refine Refuses.check id ?_
  refine Refuses.bind (decimalOpt_finds _ _) fun price _ => ?_
  exact Refuses.check id (Refuses.ok _)

theorem validatePosition_finds (position : PositionSnapshot F) : Finds (validatePosition position) := by
  refine Finds.decimal fun lots => ?_
  refine Finds.decimal fun openPrice => ?_
  refine Finds.decimal fun _ => ?_
  refine Refuses.check id ?_
  refine Refuses.bind (decimalOpt_finds _ _) fun _ _ => ?_
  exact Refuses.bind (decimalOpt_finds _ _) fun _ _ => Refuses.ok lots

theorem validatePendingExposure_finds {legs : List (PreparedLeg F)}
    (h : Covered request (entries.map Prod.fst)) :
    Finds (validatePendingExposure request legs entries) := by
  unfold validatePendingExposure
  split
  · exact Refuses.error id
  refine Refuses.bind (Refuses.each fun order horder => ?_) fun _ _ =>
    Refuses.each fun entry hentry => ?_
  · unfold validatePendingOrder
    split
    · exact Refuses.ok ()
    · rename_i hopen
      have hdescribed := h.orders order horder (eq_true_of_ne_false hopen)
      refine Refuses.check id ?_
      refine Refuses.bind (needMetadata_finds hdescribed _) fun metadata _ => ?_
      refine Refuses.check id ?_
      exact Refuses.bind (validateOrder_finds order) fun remaining _ => Refuses.reject id
  · unfold validatePendingCommand
    split
    · exact Refuses.ok ()
    · rename_i hopening
      have hdescribed := h.commands entry.1 (List.mem_map_of_mem hentry)
        (eq_true_of_ne_false hopening)
      refine Refuses.bind (needMetadata_finds hdescribed _) fun metadata _ => ?_
      exact Refuses.check id (Refuses.reject id)

theorem exposePosition_finds {position : PositionSnapshot F}
    (h : Described request position.symbol) (exposure : Exposure) :
    Finds (exposePosition request exposure position) := by
  refine Refuses.bind (validatePosition_finds position) fun lots _ => ?_
  refine Refuses.bind (needMetadata_finds h _) fun metadata _ => ?_
  refine Refuses.bind (needMarket_finds h _) fun market _ => ?_
  refine Finds.decimal fun openPrice => ?_
  exact Refuses.bind (notionalPerLot_finds _ _ _) fun perLot _ => Refuses.ok _

theorem exposeOrder_finds {order : OrderSnapshot F}
    (h : orderIsActive order.status = true → Described request order.symbol) (exposure : Exposure) :
    Finds (exposeOrder request exposure order) := by
  unfold exposeOrder
  split
  · exact Refuses.ok exposure
  · rename_i hopen
    have hdescribed := h (eq_true_of_ne_false hopen)
    refine Refuses.bind (validateOrder_finds order) fun lots _ => ?_
    split
    · exact Refuses.ok exposure
    · refine Refuses.bind (needMetadata_finds hdescribed _) fun metadata _ => ?_
      refine Refuses.bind (needMarket_finds hdescribed _) fun market _ => ?_
      refine Refuses.bind (decimalOpt_finds _ _) fun price _ => ?_
      exact Refuses.bind (notionalPerLot_finds _ _ _) fun perLot _ => Refuses.ok _

variable {command : ExecutionCommand F}

theorem exposeCommand_finds (h : command.action.isOpening = true → Described request command.symbol)
    (exposure : Exposure) :
    Finds (exposeCommand request exposure command) := by
  unfold exposeCommand
  split
  · exact Refuses.ok exposure
  · rename_i hopening
    have hdescribed := h (eq_true_of_ne_false hopening)
    refine Refuses.bind (positiveOptionalDecimal_finds _ _) fun lots _ => ?_
    refine Refuses.bind (needMetadata_finds hdescribed _) fun metadata _ => ?_
    refine Refuses.bind (needMarket_finds hdescribed _) fun market _ => ?_
    refine Refuses.bind (decimalOpt_finds _ _) fun price _ => ?_
    exact Refuses.bind (notionalPerLot_finds _ _ _) fun perLot _ => Refuses.ok _

theorem existingExposure_finds (h : Covered request active) :
    Finds (existingExposure request active) := by
  refine Refuses.bind ?_ fun positions _ => Refuses.bind ?_ fun orders _ => ?_
  · exact Refuses.foldlM fun position hmem b => exposePosition_finds (h.positions position hmem) b
  · exact Refuses.foldlM fun order hmem b => exposeOrder_finds (h.orders order hmem) b
  · exact Refuses.foldlM fun command hmem b => exposeCommand_finds (h.commands command hmem) b

theorem orderMargin_finds {order : OrderSnapshot F}
    (h : orderIsActive order.status = true → Described request order.symbol) (total : ℚ) :
    Finds (orderMargin request total order) := by
  unfold orderMargin
  split
  · exact Refuses.ok total
  · rename_i hopen
    refine Refuses.bind (validateOrder_finds order) fun lots _ => ?_
    refine Refuses.bind (needMetadata_finds (h (eq_true_of_ne_false hopen)) _) fun metadata _ => ?_
    exact Refuses.bind (positiveOptionalDecimal_finds _ _) fun margin _ => Refuses.ok _

theorem commandMargin_finds (h : command.action.isOpening = true → Described request command.symbol)
    (total : ℚ) :
    Finds (commandMargin request total command) := by
  unfold commandMargin
  split
  · exact Refuses.ok total
  · rename_i hopening
    refine Refuses.bind (positiveOptionalDecimal_finds _ _) fun lots _ => ?_
    refine Refuses.bind (needMetadata_finds (h (eq_true_of_ne_false hopening)) _) fun metadata _ => ?_
    exact Refuses.bind (positiveOptionalDecimal_finds _ _) fun margin _ => Refuses.ok _

theorem pendingMargin_finds (h : Covered request active) : Finds (pendingMargin request active) := by
  refine Refuses.bind ?_ fun orders _ => ?_
  · exact Refuses.foldlM fun order hmem b => orderMargin_finds (h.orders order hmem) b
  · exact Refuses.foldlM fun command hmem b => commandMargin_finds (h.commands command hmem) b

/-! ## sizing -/

theorem approvedPct_finds (request : RiskRequest F) : Finds (approvedPct request) := by
  refine Finds.decimal fun proposed => ?_
  refine Finds.decimal fun policy => ?_
  refine Finds.decimal fun strategy => ?_
  refine Finds.decimal fun account => ?_
  refine Finds.decimal fun portfolio => ?_
  exact Refuses.check id (Refuses.ok _)

theorem riskScale_finds (request : RiskRequest F) (legs : List (PreparedLeg F)) (riskBase : ℚ) :
    Finds (riskScale request legs riskBase) := by
  refine Refuses.bind (approvedPct_finds request) fun pct _ => ?_
  refine Refuses.check id ?_
  exact Refuses.bind (checkedDiv_finds _ _) fun scale _ => Refuses.ok _

theorem rejectionForLimiter_found (limiter : ScaleLimiter) :
    ¬ Missing (rejectionForLimiter limiter) := by
  cases limiter <;> exact id

theorem exposureScale_finds (existing : Exposure) (symbolCap totalCap : ℚ)
    (legs : List (PreparedLeg F)) (scale : Scale) :
    Finds (exposureScale existing symbolCap totalCap legs scale) := by
  refine Refuses.bind (Refuses.foldlM fun entry _ scale => ?_) fun scale _ => ?_
  · refine Refuses.check id ?_
    exact Refuses.bind (checkedDiv_finds _ _) fun maximum _ => Refuses.ok _
  · refine Refuses.check id ?_
    exact Refuses.bind (checkedDiv_finds _ _) fun maximum _ => Refuses.ok _

theorem readMargins_finds (h : Covered request active) (riskBase : ℚ) :
    Finds (readMargins request active riskBase) := by
  refine Refuses.bind (pendingMargin_finds h) fun pending _ => ?_
  refine Finds.decimal fun free => ?_
  refine Finds.decimal fun account => ?_
  exact Finds.decimal fun pct => Refuses.ok _

theorem marginScale_finds (margins : Margins) (legs : List (PreparedLeg F)) (scale : Scale) :
    Finds (marginScale margins legs scale) := by
  refine Refuses.check id ?_
  refine Refuses.check id ?_
  exact Refuses.bind (checkedDiv_finds _ _) fun maximum _ => Refuses.ok _

theorem capScales_finds (h : Covered request active) (legs : List (PreparedLeg F)) (riskBase : ℚ) :
    Finds (capScales request legs active riskBase) := by
  refine Refuses.bind (riskScale_finds _ _ _) fun budget _ => ?_
  refine Refuses.bind (Refuses.foldlM fun leg _ scale => ?_) fun scale _ => ?_
  · exact Refuses.bind (checkedDiv_finds _ _) fun maximum _ => Refuses.ok _
  refine Refuses.bind (existingExposure_finds h) fun existing _ => ?_
  refine Finds.decimal fun symbolPct => ?_
  refine Finds.decimal fun totalPct => ?_
  refine Refuses.bind (exposureScale_finds _ _ _ _ _) fun scale _ => ?_
  refine Refuses.bind (readMargins_finds h _) fun margins _ => ?_
  refine Refuses.bind (marginScale_finds _ _ _) fun scale _ => ?_
  exact Refuses.check (rejectionForLimiter_found _) (Refuses.ok _)

theorem sizeLeg_finds (scale : Scale) (leg : PreparedLeg F) : Finds (sizeLeg scale leg) := by
  refine Refuses.bind (floorToStep_finds _ _) fun floored _ => ?_
  refine Refuses.bind ?_ fun lots _ => ?_
  · refine Refuses.bind (requiredF64_finds _) fun executable _ => ?_
    refine Finds.decimal fun roundTrip => ?_
    refine Refuses.check id ?_
    refine Refuses.bind (floorToStep_finds _ _) fun floored _ => ?_
    exact Refuses.check id (Refuses.ok _)
  refine Refuses.check (rejectionForLimiter_found _) ?_
  refine Refuses.check id ?_
  refine Refuses.bind (floorToStep_finds _ _) fun again _ => ?_
  exact Refuses.check id (Refuses.ok _)

theorem adjustLeg_finds (riskBase : ℚ) (sized : SizedLeg F) : Finds (adjustLeg riskBase sized) := by
  refine Refuses.bind (checkedDiv_finds _ _) fun share _ => ?_
  refine Refuses.bind (requiredF64_finds _) fun riskAmount _ => ?_
  refine Refuses.bind (requiredF64_finds _) fun riskPct _ => ?_
  refine Refuses.bind (requiredF64_finds _) fun sizingEntryPrice _ => ?_
  refine Refuses.bind (requiredF64_finds _) fun approvedSl _ => ?_
  exact Refuses.bind (requiredF64_finds _) fun lossPerLot _ => Refuses.ok _

theorem sizeAndCap_finds (h : Covered request active) (legs : List (PreparedLeg F)) (riskBase : ℚ)
    (ages : AuditAges) (validUntil : Int) :
    Finds (sizeAndCap request legs active riskBase ages validUntil) := by
  refine Refuses.bind (capScales_finds h legs riskBase) fun capped _ => ?_
  refine Refuses.bind (Refuses.collect fun leg _ => sizeLeg_finds _ leg) fun sized _ => ?_
  refine Refuses.bind ?_ fun _ _ => ?_
  · refine Refuses.check id ?_
    exact Refuses.check id (Refuses.reject id)
  refine Refuses.bind (checkedDiv_finds _ _) fun share _ => ?_
  exact Refuses.bind (Refuses.collect fun leg _ => adjustLeg_finds riskBase leg) fun _ _ =>
    Refuses.ok _

end

/-! ## the checks that look nothing up -/

section
variable (request : RiskRequest F)

theorem validateRequestIdentity_finds : Finds (validateRequestIdentity request) := by
  refine Refuses.check id ?_
  refine Refuses.bind (Refuses.each fun _ _ => Refuses.reject id) fun _ _ => ?_
  refine Refuses.check id ?_
  refine Refuses.check id ?_
  refine Refuses.check id ?_
  refine Refuses.bind (Refuses.each fun _ _ => ?_) fun _ _ => ?_
  · exact Refuses.check id (Refuses.reject id)
  refine Refuses.bind (Refuses.each fun _ _ => ?_) fun _ _ => ?_
  · exact Refuses.check id (Refuses.reject id)
  refine Refuses.bind (Refuses.each fun _ _ => Refuses.reject id) fun _ _ => ?_
  refine Refuses.bind (Refuses.each fun _ _ => Refuses.reject id) fun _ _ => ?_
  refine Refuses.bind (Refuses.each fun _ _ => Refuses.reject id) fun _ _ => ?_
  exact Refuses.each fun _ _ => Refuses.reject id

theorem validateActionShape_finds : Finds (validateActionShape request) := by
  unfold validateActionShape
  split
  · exact Refuses.check id (Refuses.reject id)
  · exact Refuses.reject id
  · exact Refuses.reject id

theorem validateControlTime_finds : Finds (validateControlTime request) := by
  refine Refuses.check id ?_
  exact Refuses.check id (Refuses.reject id)

theorem holdValidUntil_finds : Finds (holdValidUntil request) := by
  refine Refuses.bind (Refuses.need fun _ => id) fun ttlBoundary _ => ?_
  exact Refuses.check id (Refuses.ok _)

theorem validatePolicySwitches_finds : Finds (validatePolicySwitches request) := by
  refine Refuses.check id ?_
  refine Refuses.check id ?_
  refine Refuses.check id ?_
  exact Refuses.check id (Refuses.reject id)

theorem validatePercentages_finds : Finds (validatePercentages request) := by
  refine Refuses.bind (Refuses.each fun _ _ => validatePercentage_finds _ _ _) fun _ _ => ?_
  refine Refuses.bind (validatePercentage_finds _ _ _) fun _ _ => ?_
  refine Refuses.bind (validatePercentage_finds _ _ _) fun _ _ => ?_
  refine Refuses.bind (validatePercentage_finds _ _ _) fun _ _ => ?_
  refine Refuses.bind (Refuses.each fun _ _ => ?_) fun _ _ => ?_
  · exact Finds.decimal fun _ => Refuses.reject id
  exact Refuses.bind (validatePercentage_finds _ _ _) fun _ _ => validatePercentage_finds _ _ _

theorem validatePolicyAndInputs_finds : Finds (validatePolicyAndInputs request) := by
  refine Refuses.bind (validatePolicySwitches_finds request) fun _ _ => ?_
  refine Refuses.bind (validatePercentages_finds request) fun _ _ => ?_
  refine Finds.decimal fun confidence => ?_
  refine Refuses.check id ?_
  refine Refuses.check id ?_
  refine Refuses.check id ?_
  refine Finds.decimal fun balance => ?_
  refine Finds.decimal fun equity => ?_
  refine Finds.decimal fun margin => ?_
  refine Finds.decimal fun freeMargin => ?_
  refine Refuses.check id ?_
  exact Refuses.check id (Refuses.ok _)

theorem validateLossCapacity_finds : Finds (validateLossCapacity request) := by
  refine Finds.decimal fun daily => ?_
  refine Finds.decimal fun drawdown => ?_
  refine Finds.decimal fun maxDaily => ?_
  refine Refuses.check id ?_
  refine Finds.decimal fun maxDrawdown => ?_
  exact Refuses.check id (Refuses.reject id)

theorem timeBoundary_finds (observedAt maxAge : Int) : Finds (timeBoundary observedAt maxAge) :=
  Refuses.need fun _ => id

theorem earliest_finds (start : Int) (observations : List (Int × Int)) :
    Finds (earliest start observations) := by
  induction observations generalizing start with
  | nil => exact Refuses.ok start
  | cons o rest ih => exact Refuses.bind (timeBoundary_finds o.1 o.2) fun boundary _ => ih _

variable {request}

theorem approvalValidUntil_finds {required : List SymbolCode}
    (h : ∀ symbol ∈ required, Described request symbol) :
    Finds (approvalValidUntil request required) := by
  refine Refuses.bind (timeBoundary_finds _ _) fun ttl _ => ?_
  refine Refuses.bind (earliest_finds _ _) fun observed _ => ?_
  refine Refuses.bind (Refuses.foldlM fun symbol hsymbol start => ?_) fun validUntil _ => ?_
  · refine Refuses.bind (needMarket_finds (h symbol hsymbol) _) fun market _ => ?_
    refine Refuses.bind (timeBoundary_finds _ _) fun _ _ => ?_
    refine Refuses.bind (needMetadata_finds (h symbol hsymbol) _) fun metadata _ => ?_
    exact Refuses.bind (timeBoundary_finds _ _) fun _ _ => Refuses.ok _
  · exact Refuses.check id (Refuses.ok validUntil)

/-! ## the evaluation -/

theorem evaluateOpening_finds
    (h : ∀ symbol ∈ requiredSymbols request, Described request symbol)
    (hindex : indexSnapshots request (requiredSymbols request) = .ok ()) :
    Finds (evaluateOpening request) := by
  refine Refuses.bind (validateControlTime_finds request) fun _ _ => ?_
  refine Refuses.bind (Refuses.each fun _ _ => Refuses.reject id) fun _ _ => ?_
  refine Refuses.bind (hindex ▸ Refuses.ok ()) fun _ _ => ?_
  refine Refuses.bind (validateFreshness_finds h) fun ages _ => ?_
  refine Refuses.bind (validatePolicyAndInputs_finds request) fun riskBase _ => ?_
  refine Refuses.bind (Refuses.each fun symbol hsymbol => ?_) fun _ _ => ?_
  · exact validateSymbolInput_finds (h symbol hsymbol)
  refine Refuses.bind (prepareLegs_finds h) fun prepared _ => ?_
  refine Refuses.bind (validateLossCapacity_finds request) fun _ _ => ?_
  refine Refuses.bind (activePendingCommands_finds request) fun active hactive => ?_
  refine Refuses.bind (validatePendingExposure_finds (covered h hactive)) fun _ _ => ?_
  refine Refuses.bind ?_ fun _ _ => ?_
  · exact Refuses.check id (Refuses.reject id)
  refine Refuses.bind (approvalValidUntil_finds h) fun validUntil _ => ?_
  exact sizeAndCap_finds (covered h hactive) prepared riskBase ages validUntil

theorem evaluateInner_finds (breaker : CircuitBreakerState)
    (h : ∀ symbol ∈ requiredSymbols request, Described request symbol)
    (hindex : indexSnapshots request (requiredSymbols request) = .ok ()) :
    Finds (evaluateInner request breaker) := by
  refine Refuses.bind (validateRequestIdentity_finds request) fun _ _ => ?_
  refine Refuses.bind (validateActionShape_finds request) fun _ _ => ?_
  split
  · refine Refuses.bind (validateControlTime_finds request) fun _ _ => ?_
    exact Refuses.bind (holdValidUntil_finds request) fun _ _ => Refuses.ok _
  · exact Refuses.error id
  · refine Refuses.check id ?_
    exact Refuses.bind (evaluateOpening_finds h hindex) fun _ _ => Refuses.ok _

/-- the symbols whose snapshots are looked up behind the index -/
inductive Consulted (request : RiskRequest F) : SymbolCode → Prop
  | required {symbol : SymbolCode} (h : symbol ∈ requiredSymbols request) : Consulted request symbol
  | leg {expected : List (ExpectedLeg F)} {leg : ExpectedLeg F}
      (h : expectedLegs request = .ok expected) (hleg : leg ∈ expected) : Consulted request leg.symbol
  | position {position : PositionSnapshot F} (h : position ∈ request.positions) :
      Consulted request position.symbol
  | order {order : OrderSnapshot F} (h : order ∈ request.orders)
      (hactive : orderIsActive order.status = true) : Consulted request order.symbol
  | command {active : List (ExecutionCommand F × ExecutionCommandState)}
      {entry : ExecutionCommand F × ExecutionCommandState}
      (h : activePendingCommands request = .ok active) (hentry : entry ∈ active)
      (hopening : entry.1.action.isOpening = true) : Consulted request entry.1.symbol

theorem Consulted.mem {symbol : SymbolCode} (h : Consulted request symbol) :
    symbol ∈ requiredSymbols request := by
  cases h with
  | required h => exact h
  | leg h hleg => exact leg_required h hleg
  | position h => exact position_required h
  | order h hactive => exact order_required h hactive
  | command h hentry hopening => exact command_required h hentry hopening

/-- Once the snapshots are indexed every lookup finds its symbol, and no rejection of the evaluation
is that of a missing snapshot. -/
theorem no_snapshot_missing_late
    (h : indexSnapshots request (requiredSymbols request) = .ok ()) :
    (∀ symbol, Consulted request symbol →
      (∃ metadata, requiredMetadata request symbol = .ok metadata) ∧
        ∃ market, requiredMarket request symbol = .ok market) ∧
    ∀ breaker rejection, evaluateInner request breaker = .error rejection → ¬ Missing rejection := by
  obtain ⟨-, -, hdescribed⟩ := indexSnapshots_ok.mp h
  refine ⟨fun symbol hconsulted => ?_, fun breaker => evaluateInner_finds breaker hdescribed h⟩
  obtain ⟨⟨market, hmarket⟩, metadata, hmetadata⟩ := hdescribed symbol hconsulted.mem
  exact ⟨⟨metadata, need_ok.mpr hmetadata⟩, market, need_ok.mpr hmarket⟩

end

end

/-! ## a sample -/

/-- gold is to be bought while silver is held -/
def goldBesideSilver : RiskRequest ℚ :=
  { goldRequest with
    positions :=
      [{ accountId := "account-1", symbol := "XAGUSD", positionId := "position-1", side := .buy
         lots := 1, openPrice := 25, sl := none, tp := none, floatingPnl := 0, observedAt := 9900 }]
    symbolMetadata := [goldMetadata, silverMetadata]
    markets := goldRequest.markets ++ [silverMarket] }

theorem no_snapshot_missing_late_silver :
    indexSnapshots goldBesideSilver (requiredSymbols goldBesideSilver) = .ok () ∧
      (∃ metadata, requiredMetadata goldBesideSilver "XAGUSD" = .ok metadata) ∧
      ∀ breaker rejection, evaluateInner goldBesideSilver breaker = .error rejection →
        ¬ Missing rejection :=
  have hindex : indexSnapshots goldBesideSilver (requiredSymbols goldBesideSilver) = .ok () := by
    decide +kernel
  have h := no_snapshot_missing_late hindex
  ⟨hindex, (h.1 "XAGUSD" (.required (by decide +kernel))).1, h.2⟩

end Sinan.Risk
