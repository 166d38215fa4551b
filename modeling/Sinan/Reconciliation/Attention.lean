import Sinan.Execution.Overtake
import Sinan.Reconciliation.Evaluation

/-!
# What a reconciliation leaves open

The commands that an evaluation names are those a declarative condition describes: an operator has
them already, nothing that the store holds settles them, or the client says so.  The lists of a request
arrive in any order; every one of them is a set with distinct keys, so the evaluation sorts it into
the one order it has.
-/

set_option linter.unusedSectionVars false

namespace Sinan.Reconciliation

open Lib Execution

section
variable {F : Type}

/-! ## what settles a command -/

/-- the command never left the store -/
def NeverSent (s : ExecutionCommandState) : Prop :=
  s.status = .created ∨ s.status = .deliveryFailed ∨
    ((s.status = .expired ∨ s.status = .cancelled) ∧ s.dispatchedAt = none)

/-- a receipt, a status before any delivery, or an execution event that says what the status says -/
def Settled (item : ReconciliationCommand F) (events : List (ExecutionEvent F)) : Prop :=
  item.state.commandReceivedAt.isSome = true ∨ NeverSent item.state ∨
    ∃ event ∈ events, event.commandId = item.commandId ∧
      eventStatus event.status = item.state.status

/-- a command in scope that the evaluation leaves open -/
def Open (item : ReconciliationCommand F) (events : List (ExecutionEvent F))
    (unresolved : List CommandId) : Prop :=
  item.state.status = .manualReconciliationRequired ∨ ¬ Settled item events ∨
    item.commandId ∈ unresolved

/-- no component of the route that both name differs -/
def OnRoute (context : ReconciliationRequestContext) (order : OrderSnapshot F) : Prop :=
  (∀ asked seen, context.request.terminalId = some asked → order.terminalId = some seen →
    asked = seen) ∧
  ∀ asked seen, context.request.clientId = some asked → order.clientId = some seen → asked = seen

/-- an id that an account-wide request hears of and the store does not know -/
def Unknown (context : ReconciliationRequestContext) (result : ReconciliationResult F)
    (commands : List (ReconciliationCommand F)) (commandId : CommandId) : Prop :=
  context.request.commandIds = none ∧ (∀ item ∈ commands, item.commandId ≠ commandId) ∧
    (commandId ∈ result.unresolvedCommandIds ∨
      ∃ order ∈ result.orders, order.commandId = some commandId ∧ OnRoute context order)

theorem eventSupportsStatus_iff {event : ExecutionEventStatus} {status : ExecutionCommandStatus} :
    eventSupportsStatus event status = true ↔ eventStatus event = status := by
  revert event status
  intro event status
  cases event <;> cases status <;> decide

variable {item : ReconciliationCommand F}

theorem hasAuthoritativeDeliveryEvidence_iff {events own : List (ExecutionEvent F)}
    (hown : ∀ event, event ∈ own ↔ event ∈ events ∧ event.commandId = item.commandId) :
    hasAuthoritativeDeliveryEvidence item own = true ↔ Settled item events := by
  have hsupported : (own.any fun event => eventSupportsStatus event.status item.state.status) = true ↔
      ∃ event ∈ events, event.commandId = item.commandId ∧
        eventStatus event.status = item.state.status := by
    simp only [List.any_eq_true, hown, eventSupportsStatus_iff, and_assoc]
  unfold hasAuthoritativeDeliveryEvidence Settled NeverSent
  rw [← hsupported]
  cases hreceived : item.state.commandReceivedAt with
  | some time => simp
  | none =>
    simp only [Option.isSome_none, Bool.false_eq_true, if_false, false_or]
    cases hstatus : item.state.status <;> simp [Option.isNone_iff_eq_none]

theorem routeComponentMayMatch_iff {requested observed : Option String} :
    routeComponentMayMatch requested observed = true ↔
      ∀ asked seen, requested = some asked → observed = some seen → asked = seen := by
  unfold routeComponentMayMatch
  cases requested with
  | none => simp
  | some asked =>
    cases observed with
    | none => simp
    | some seen => simp

theorem orderMayBelongToRequestRoute_iff {context : ReconciliationRequestContext}
    {order : OrderSnapshot F} :
    orderMayBelongToRequestRoute context order = true ↔ OnRoute context order := by
  unfold orderMayBelongToRequestRoute OnRoute
  rw [Bool.and_eq_true, routeComponentMayMatch_iff, routeComponentMayMatch_iff]

/-! ## the checks, read as conditions -/

variable {context : ReconciliationRequestContext} {commands indexed : List (ReconciliationCommand F)}
  {bound : Int}

theorem validateCommandScope_ok :
    validateCommandScope context commands bound = .ok indexed ↔
      validateRequestContext context = .ok () ∧ context.requestedAt ≤ bound ∧
      (commands.map ReconciliationCommand.commandId).Nodup ∧
      (∀ item ∈ commands, validateScopedCommand context bound item = .ok ()) ∧
      (∀ scopedIds, context.request.commandIds = some scopedIds →
        (sortBy ReconciliationCommand.commandId commands).map ReconciliationCommand.commandId
          = scopedIds) ∧
      indexed = sortBy ReconciliationCommand.commandId commands := by
  simp only [validateCommandScope, bind_ok, exists_unit, reject_ok, each_ok, pure_ok,
    eachApart_key_ok, Int.not_lt, Option.mem_toList, ne_eq, not_not, and_true, and_assoc,
    eq_comm (a := indexed)]

/-- what a scope that was accepted says of itself -/
structure InScope (context : ReconciliationRequestContext) (bound : Int)
    (commands indexed : List (ReconciliationCommand F)) : Prop where
  request : validateRequestContext context = .ok ()
  reached : context.requestedAt ≤ bound
  distinct : (commands.map ReconciliationCommand.commandId).Nodup
  valid : ∀ item ∈ commands, validateScopedCommand context bound item = .ok ()
  targeted : ∀ scopedIds, context.request.commandIds = some scopedIds →
    indexed.map ReconciliationCommand.commandId = scopedIds
  sorted : indexed = sortBy ReconciliationCommand.commandId commands

theorem validateCommandScope_iff :
    validateCommandScope context commands bound = .ok indexed ↔
      InScope context bound commands indexed := by
  rw [validateCommandScope_ok]
  constructor
  · rintro ⟨hrequest, hbound, hdistinct, hvalid, htargeted, rfl⟩
    exact ⟨hrequest, hbound, hdistinct, hvalid, htargeted, rfl⟩
  · rintro ⟨hrequest, hbound, hdistinct, hvalid, htargeted, rfl⟩
    exact ⟨hrequest, hbound, hdistinct, hvalid, htargeted, rfl⟩

theorem InScope.mem (h : InScope context bound commands indexed) :
    item ∈ indexed ↔ item ∈ commands := by
  rw [h.sorted, mem_sortBy]

theorem InScope.nodup (h : InScope context bound commands indexed) :
    (indexed.map ReconciliationCommand.commandId).Nodup := by
  rw [h.sorted]
  exact ((sortBy_perm _ commands).map _).nodup_iff.mpr h.distinct

theorem InScope.commandAt (h : InScope context bound commands indexed) (hitem : item ∈ commands) :
    commandAt indexed item.commandId = some item :=
  find_key_self h.nodup (h.mem.mpr hitem)

variable {commandId : CommandId} {commands' : List (ReconciliationCommand F)}

theorem InScope.commandAt_none (h : InScope context bound commands indexed) :
    (Reconciliation.commandAt indexed commandId).isNone = true ↔
      ∀ item ∈ commands, item.commandId ≠ commandId := by
  rw [Option.isNone_iff_eq_none]
  unfold Reconciliation.commandAt
  rw [List.find?_eq_none]
  simp only [h.mem, beq_iff_eq, ne_eq]

theorem InScope.perm (h : InScope context bound commands indexed) (hperm : commands.Perm commands') :
    InScope context bound commands' indexed where
  request := h.request
  reached := h.reached
  distinct := (hperm.map _).nodup_iff.mp h.distinct
  valid := fun item hitem => h.valid item (hperm.mem_iff.mpr hitem)
  targeted := h.targeted
  sorted := by rw [h.sorted, sortBy_congr hperm h.distinct]

variable [F64 F] {events : List (ExecutionEvent F)} {receivedAt : Int}
  {byCommand : CommandId → List (ExecutionEvent F)} {events' : List (ExecutionEvent F)}

theorem validateExecutionEvents_ok :
    validateExecutionEvents indexed events receivedAt = .ok byCommand ↔
      (events.map ExecutionEvent.executionId).Nodup ∧
      (∀ event ∈ events, blank event.executionId = false ∧
        validateScopedEvent indexed receivedAt event = .ok ()) ∧
      byCommand = fun commandId =>
        sortBy eventKey (events.filter fun event => event.commandId == commandId) := by
  simp only [validateExecutionEvents, bind_ok, exists_unit, reject_ok, pure_ok, eachApart_key_ok,
    Bool.not_eq_true, and_assoc, eq_comm (a := byCommand)]

theorem nodup_eventKey (h : (events.map ExecutionEvent.executionId).Nodup) (commandId : CommandId) :
    ((events.filter fun event => event.commandId == commandId).map eventKey).Nodup := by
  have hids : ((events.filter fun event => event.commandId == commandId).map
      ExecutionEvent.executionId).Nodup := (List.filter_sublist.map _).nodup h
  refine List.Nodup.of_map (fun key => (ofLex key).2) ?_
  rw [List.map_map]
  exact hids

theorem validateExecutionEvents_perm (hperm : events.Perm events')
    (h : validateExecutionEvents indexed events receivedAt = .ok byCommand) :
    validateExecutionEvents indexed events' receivedAt = .ok byCommand := by
  rw [validateExecutionEvents_ok] at h ⊢
  obtain ⟨hnodup, hvalid, rfl⟩ := h
  refine ⟨(hperm.map _).nodup_iff.mp hnodup, fun event hevent => hvalid event (hperm.mem_iff.mpr hevent),
    funext fun commandId => ?_⟩
  exact sortBy_congr (hperm.filter _) (nodup_eventKey hnodup commandId)

/-! ## the sets of a result -/

/-- the same result with its lists in another order -/
structure Reordered (result result' : ReconciliationResult F) : Prop where
  rest : result' = { result with
    positions := result'.positions, orders := result'.orders,
    symbolMetadata := result'.symbolMetadata,
    unresolvedCommandIds := result'.unresolvedCommandIds }
  positions : result.positions.Perm result'.positions
  orders : result.orders.Perm result'.orders
  symbolMetadata : result.symbolMetadata.Perm result'.symbolMetadata
  unresolved : result.unresolvedCommandIds.Perm result'.unresolvedCommandIds

variable {result result' : ReconciliationResult F}

theorem validateResult_perm (h : Reordered result result')
    (hvalid : validateResult context result receivedAt = .ok ()) :
    validateResult context result' receivedAt = .ok () := by
  rw [h.rest]
  simp only [validateResult, bind_ok, exists_unit, reject_ok, each_ok, not_exists, not_and] at hvalid ⊢
  obtain ⟨hrequest, hid, haccount, hterminal, hclient, htime, haccounts, hpositions, horders, hmetadata,
    hunresolved, hscope⟩ := hvalid
  refine ⟨hrequest, hid, haccount, hterminal, hclient, htime, haccounts, ?_, ?_, ?_, ?_, ?_⟩
  · exact (eachApart_perm h.positions).mp hpositions
  · exact (eachApart_perm h.orders).mp horders
  · exact (eachApart_perm h.symbolMetadata).mp hmetadata
  · exact (eachApart_perm h.unresolved).mp hunresolved
  · exact fun scopedIds hscoped commandId hmem =>
      hscope scopedIds hscoped commandId (h.unresolved.mem_iff.mpr hmem)

/-- the keys of the sets of a valid result -/
structure DistinctSets (result : ReconciliationResult F) : Prop where
  positions : (result.positions.map PositionSnapshot.positionId).Nodup
  orders : (result.orders.map OrderSnapshot.brokerOrderId).Nodup
  symbolMetadata : (result.symbolMetadata.map SymbolMetadataSnapshot.brokerSymbol).Nodup
  unresolved : result.unresolvedCommandIds.Nodup

theorem validateResult_distinct (h : validateResult context result receivedAt = .ok ()) :
    DistinctSets result := by
  simp only [validateResult, bind_ok, exists_unit] at h
  obtain ⟨-, -, -, -, -, -, -, hpositions, horders, hmetadata, hunresolved, -⟩ := h
  refine ⟨(eachApart_key_ok.mp hpositions).1, (eachApart_key_ok.mp horders).1,
    (eachApart_key_ok.mp hmetadata).1, ?_⟩
  have hkeys : (result.unresolvedCommandIds.map fun commandId => commandId).Nodup :=
    (eachApart_key_ok.mp hunresolved).1
  rw [List.map_id'] at hkeys
  exact hkeys

theorem canonicalizeResultSets_perm (h : Reordered result result') (hdistinct : DistinctSets result) :
    canonicalizeResultSets result' = canonicalizeResultSets result := by
  have hmetadata : (result.symbolMetadata.map fun metadata =>
      (toLex (metadata.brokerSymbol, metadata.symbol) : String ×ₗ SymbolCode)).Nodup := by
    refine List.Nodup.of_map (fun key => (ofLex key).1) ?_
    rw [List.map_map]
    exact hdistinct.symbolMetadata
  have hunresolved : (result.unresolvedCommandIds.map id).Nodup := by
    rw [List.map_id]
    exact hdistinct.unresolved
  rw [h.rest]
  unfold canonicalizeResultSets
  rw [sortBy_congr h.positions hdistinct.positions, sortBy_congr h.orders hdistinct.orders,
    sortBy_congr h.symbolMetadata hmetadata, sortBy_congr h.unresolved hunresolved]

theorem Reordered.symm (h : Reordered result result') : Reordered result' result where
  rest := by rw [h.rest]
  positions := h.positions.symm
  orders := h.orders.symm
  symbolMetadata := h.symbolMetadata.symm
  unresolved := h.unresolved.symm

variable {out : EvaluatedReconciliationResult F}

theorem evaluate_perm (hresult : Reordered result result') (hcommands : commands.Perm commands')
    (hevents : events.Perm events')
    (h : evaluateReconciliationResult context result commands events receivedAt = .ok out) :
    evaluateReconciliationResult context result' commands' events' receivedAt = .ok out := by
  simp only [evaluateReconciliationResult, bind_ok, exists_unit] at h ⊢
  obtain ⟨hvalid, indexed, hindexed, byCommand, hbyCommand, hout⟩ := h
  refine ⟨validateResult_perm hresult hvalid, indexed, ?_, byCommand,
    validateExecutionEvents_perm hevents hbyCommand, ?_⟩
  · rw [validateCommandScope_iff] at hindexed ⊢
    exact hindexed.perm hcommands
  · rw [canonicalizeResultSets_perm hresult (validateResult_distinct hvalid)]
    exact hout

/-! ## the commands that stay open -/

variable {orders : List (OrderSnapshot F)}

theorem inspectCommand_pending {observedAt : Int} {unresolved : Bool} :
    (inspectCommand item orders events observedAt unresolved).1 = true ↔
      item.state.status = .manualReconciliationRequired ∨
        hasAuthoritativeDeliveryEvidence item events = false ∨ unresolved = true := by
  unfold inspectCommand
  dsimp only
  split
  · rename_i hmanual
    exact ⟨fun _ => .inl hmanual, fun _ => rfl⟩
  · rename_i hmanual
    split
    · rename_i hsettled
      rw [hsettled]
      cases unresolved
      · simp [hmanual]
      · simp
    · rename_i hopen
      exact ⟨fun _ => .inr (.inl (Bool.eq_false_iff.mpr hopen)), fun _ => rfl⟩

theorem mem_ordersOf {order : OrderSnapshot F} :
    order ∈ ordersOf orders commandId ↔ order ∈ orders ∧ order.commandId = some commandId := by
  unfold ordersOf
  rw [mem_sortBy, List.mem_filter, beq_iff_eq]

theorem mem_observedUnknown (h : InScope context bound commands indexed) :
    commandId ∈ observedUnknown context indexed orders ↔
      (∀ item ∈ commands, item.commandId ≠ commandId) ∧
        ∃ order ∈ orders, order.commandId = some commandId ∧ OnRoute context order := by
  unfold observedUnknown orderCommandIds
  rw [List.mem_filter, Bool.and_eq_true, h.commandAt_none, mem_orderedSet, List.mem_filterMap,
    List.any_eq_true]
  simp only [mem_ordersOf, orderMayBelongToRequestRoute_iff, and_assoc]
  constructor
  · rintro ⟨-, hunknown, order, horder, hnamed, hroute⟩
    exact ⟨hunknown, order, horder, hnamed, hroute⟩
  · rintro ⟨hunknown, order, horder, hnamed, hroute⟩
    exact ⟨⟨order, horder, hnamed⟩, hunknown, order, horder, hnamed, hroute⟩

theorem mem_reportedUnknown (h : InScope context bound commands indexed)
    {unresolved : List CommandId} :
    commandId ∈ reportedUnknown indexed unresolved ↔
      (∀ item ∈ commands, item.commandId ≠ commandId) ∧ commandId ∈ unresolved := by
  unfold reportedUnknown
  rw [List.mem_filter, mem_orderedSet, h.commandAt_none, and_comm]

theorem inspectCommand_known {observedAt : Int} {unresolved : Bool}
    {finding : ReconciliationFinding}
    (h : finding ∈ (inspectCommand item orders events observedAt unresolved).2) :
    unknownFindingCommand finding = none := by
  have hobserved : ∀ finding ∈ inspectOrderObservations item.commandId item.command orders events
      observedAt, unknownFindingCommand finding = none := by
    intro finding hmem
    simp only [inspectOrderObservations, List.mem_append, List.mem_flatMap, List.mem_map] at hmem
    rcases hmem with hmem | ⟨order, -, ⟨field, -, rfl⟩ | hmem⟩
    · split at hmem
      · rw [List.mem_singleton.mp hmem]
        rfl
      · cases hmem
    · rfl
    · split at hmem
      · split at hmem
        · rw [List.mem_singleton.mp hmem]
          rfl
        · cases hmem
      · cases hmem
  have hreported : ∀ finding ∈ (if unresolved then
      [ReconciliationFinding.clientReportedUnresolved item.commandId] else []),
      unknownFindingCommand finding = none := by
    intro finding hmem
    split at hmem
    · rw [List.mem_singleton.mp hmem]
      rfl
    · cases hmem
  unfold inspectCommand at h
  dsimp only at h
  split at h
  · rcases List.mem_append.mp h with hmem | hmem
    · exact hobserved finding hmem
    · rcases List.mem_cons.mp hmem with rfl | hmem
      · rfl
      · exact hreported finding hmem
  · split at h
    · split at h
      · rcases List.mem_append.mp h with hmem | hmem
        · exact hobserved finding hmem
        · rw [List.mem_singleton.mp hmem]
          rfl
      · exact hobserved finding h
    · rcases List.mem_append.mp h with hmem | hmem
      · rcases List.mem_append.mp hmem with hmem | hmem
        · exact hobserved finding hmem
        · exact hreported finding hmem
      · rcases List.mem_cons.mp hmem with rfl | hmem
        · rfl
        · split at hmem
          · rw [List.mem_singleton.mp hmem]
            rfl
          · cases hmem

theorem mem_unknown (h : InScope context bound commands indexed) :
    (commandId ∈ (if context.request.commandIds.isNone then
        observedUnknown context indexed (canonicalizeResultSets result).orders else []) ∨
      commandId ∈ if context.request.commandIds.isNone then
        reportedUnknown indexed (canonicalizeResultSets result).unresolvedCommandIds else []) ↔
      Unknown context result commands commandId := by
  have horders : ∀ order, order ∈ (canonicalizeResultSets result).orders ↔ order ∈ result.orders :=
    fun order => mem_sortBy
  have hunresolved : commandId ∈ (canonicalizeResultSets result).unresolvedCommandIds ↔
      commandId ∈ result.unresolvedCommandIds := mem_sortBy
  unfold Unknown
  cases hscope : context.request.commandIds with
  | some scopedIds => simp
  | none =>
    simp only [Option.isNone_none, if_true, true_and]
    rw [mem_observedUnknown h, mem_reportedUnknown h, hunresolved]
    simp only [horders]
    constructor
    · rintro (⟨hunknown, horder⟩ | ⟨hunknown, hreported⟩)
      · exact ⟨hunknown, .inr horder⟩
      · exact ⟨hunknown, .inl hreported⟩
    · rintro ⟨hunknown, hreported | horder⟩
      · exact .inr ⟨hunknown, hreported⟩
      · exact .inl ⟨hunknown, horder⟩

theorem evaluate_ok
    (h : evaluateReconciliationResult context result commands events receivedAt = .ok out) :
    validateResult context result receivedAt = .ok () ∧
      ∃ indexed, InScope context receivedAt commands indexed ∧
        out.result = canonicalizeResultSets result ∧
        out.evaluation.requestId = result.requestId ∧
        out.evaluation.accountId = result.accountId ∧
        out.evaluation.observedAt = some result.observedAt ∧
        out.evaluation.disposition
          = (if out.evaluation.commandIds = [] then .completed else .pendingEvidence) ∧
        out.evaluation.commandIds.Pairwise (· < ·) ∧
        (∀ commandId, commandId ∈ out.evaluation.commandIds ↔
          (∃ item ∈ commands, item.commandId = commandId ∧
            Open item events result.unresolvedCommandIds) ∨
          Unknown context result commands commandId) ∧
        ∀ commandId, commandId ∈ out.evaluation.findings.filterMap unknownFindingCommand ↔
          Unknown context result commands commandId := by
  simp only [evaluateReconciliationResult, bind_ok, exists_unit, pure_ok] at h
  obtain ⟨hvalid, indexed, hindexed, byCommand, hbyCommand, rfl⟩ := h
  rw [validateCommandScope_iff] at hindexed
  obtain ⟨-, -, rfl⟩ := validateExecutionEvents_ok.mp hbyCommand
  refine ⟨hvalid, indexed, hindexed, rfl, rfl, rfl, rfl, ?_, orderedSet_strict _, fun commandId => ?_,
    fun commandId => ?_⟩
  · exact ite_not _ _ _
  · rw [mem_orderedSet, List.mem_append, List.mem_append, or_assoc, mem_unknown hindexed]
    refine or_congr_left ?_
    have hown : ∀ item : ReconciliationCommand F, ∀ event,
        event ∈ sortBy eventKey (events.filter fun event => event.commandId == item.commandId) ↔
          event ∈ events ∧ event.commandId = item.commandId := by
      intro item event
      rw [mem_sortBy, List.mem_filter, beq_iff_eq]
    have hunresolved : ∀ item : ReconciliationCommand F,
        (canonicalizeResultSets result).unresolvedCommandIds.contains item.commandId = true ↔
          item.commandId ∈ result.unresolvedCommandIds := by
      intro item
      rw [List.contains_iff_mem]
      exact mem_sortBy
    constructor
    · intro hmem
      obtain ⟨entry, hentry, rfl⟩ := List.mem_map.mp hmem
      obtain ⟨hinspected, hpending⟩ := List.mem_filter.mp hentry
      obtain ⟨item, hitem, rfl⟩ := List.mem_map.mp hinspected
      have hopen := inspectCommand_pending.mp hpending
      rw [← Bool.not_eq_true, hunresolved, hasAuthoritativeDeliveryEvidence_iff (hown item)] at hopen
      exact ⟨item, hindexed.mem.mp hitem, rfl, hopen⟩
    · rintro ⟨item, hitem, rfl, hopen⟩
      refine List.mem_map.mpr ⟨_, List.mem_filter.mpr
        ⟨List.mem_map.mpr ⟨item, hindexed.mem.mpr hitem, rfl⟩, inspectCommand_pending.mpr ?_⟩, rfl⟩
      rw [← Bool.not_eq_true, hunresolved, hasAuthoritativeDeliveryEvidence_iff (hown item)]
      exact hopen
  · rw [← mem_unknown hindexed]
    simp only [List.filterMap_append, List.mem_append, List.mem_filterMap, List.mem_flatMap,
      List.mem_map]
    constructor
    · rintro ((⟨finding, ⟨entry, ⟨item, -, rfl⟩, hmem⟩, hnamed⟩ | ⟨finding, ⟨k, hk, rfl⟩, hnamed⟩) |
        ⟨finding, ⟨k, hk, rfl⟩, hnamed⟩)
      · rw [inspectCommand_known hmem] at hnamed
        cases hnamed
      · cases hnamed
        exact .inl hk
      · cases hnamed
        exact .inr hk
    · rintro (hk | hk)
      · exact .inl (.inr ⟨_, ⟨commandId, hk, rfl⟩, rfl⟩)
      · exact .inr ⟨_, ⟨commandId, hk, rfl⟩, rfl⟩

/-- **What a reconciliation leaves open.**  The ids of a successful evaluation are, in strict order,
exactly those of the commands that are open and those that the store does not know; the evaluation is
complete when there are none, and the orders say nothing about a command in scope.  Whether it
succeeds, and with what, does not depend on the order of any of its lists. -/
theorem reconciliation_leaves_open (context : ReconciliationRequestContext)
    (result : ReconciliationResult F) (commands : List (ReconciliationCommand F))
    (events : List (ExecutionEvent F)) (receivedAt : Int) :
    (∀ out, evaluateReconciliationResult context result commands events receivedAt = .ok out →
      out.evaluation.commandIds.Pairwise (· < ·) ∧
      (∀ commandId, commandId ∈ out.evaluation.commandIds ↔
        (∃ item ∈ commands, item.commandId = commandId ∧
          Open item events result.unresolvedCommandIds) ∨
        Unknown context result commands commandId) ∧
      (out.evaluation.disposition = .completed ↔ out.evaluation.commandIds = []) ∧
      ∀ result' receivedAt' out', result'.unresolvedCommandIds = result.unresolvedCommandIds →
        evaluateReconciliationResult context result' commands events receivedAt' = .ok out' →
        ∀ item ∈ commands,
          (item.commandId ∈ out'.evaluation.commandIds ↔
            item.commandId ∈ out.evaluation.commandIds)) ∧
    ∀ result' commands' events' out, Reordered result result' → commands.Perm commands' →
      events.Perm events' →
      (evaluateReconciliationResult context result commands events receivedAt = .ok out ↔
        evaluateReconciliationResult context result' commands' events' receivedAt = .ok out) := by
  constructor
  · intro out h
    obtain ⟨-, indexed, -, -, -, -, -, hdisposition, hsorted, hids, -⟩ := evaluate_ok h
    refine ⟨hsorted, hids, ?_, fun result' receivedAt' out' hsame h' item hitem => ?_⟩
    · rw [hdisposition]
      split
      · rename_i hnil
        exact ⟨fun _ => hnil, fun _ => rfl⟩
      · rename_i hne
        exact ⟨fun hcompleted => (nomatch hcompleted), fun hnil => absurd hnil hne⟩
    · obtain ⟨-, indexed', -, -, -, -, -, -, -, hids', -⟩ := evaluate_ok h'
      have hknown : ∀ result, ¬ Unknown context result commands item.commandId :=
        fun _ hunknown => hunknown.2.1 item hitem rfl
      rw [hids', hids, hsame, or_iff_left (hknown result'), or_iff_left (hknown result)]
  · intro result' commands' events' out hresult hcommands hevents
    exact ⟨evaluate_perm hresult hcommands hevents,
      evaluate_perm hresult.symm hcommands.symm hevents.symm⟩

end

/-! ## a dispatched command without evidence, and an order of an unknown one -/

def sampleContext : ReconciliationRequestContext where
  request :=
    { requestId := "request"
      accountId := "account"
      terminalId := none
      clientId := none
      reason := .connectionRestored
      commandIds := none
      sinceServerTime := none }
  requestedAt := 30

def sampleOrder (brokerOrderId : BrokerOrderId) (commandId : CommandId) : OrderSnapshot ℚ where
  accountId := "account"
  terminalId := none
  clientId := none
  symbol := "EURUSD"
  brokerSymbol := none
  brokerOrderId := brokerOrderId
  positionTicket := none
  commandId := some commandId
  planId := none
  legId := none
  idempotencyKey := none
  side := .buy
  orderType := .market
  status := .filled
  requestedLots := 1
  filledLots := 1
  remainingLots := 0
  price := none
  sl := none
  tp := none
  createdAt := none
  updatedAt := none
  observedAt := 40

def sampleResult : ReconciliationResult ℚ where
  requestId := "request"
  accountId := "account"
  terminalId := none
  clientId := none
  observedAt := 40
  account := none
  positions := []
  orders := [sampleOrder "ticket-2" "stray", sampleOrder "ticket-1" "cmd"]
  symbolMetadata := []
  unresolvedCommandIds := []

def sampleCommands : List (ReconciliationCommand ℚ) := [⟨sampleCommand, sampleDispatched⟩]

/-- the filled order of the command does not settle it -/
theorem reconciliation_leaves_open_sample :
    ∃ out, evaluateReconciliationResult sampleContext sampleResult sampleCommands [] 50 = .ok out ∧
      out.evaluation.commandIds = ["cmd", "stray"] ∧
      (out.evaluation.disposition = .completed ↔ out.evaluation.commandIds = []) ∧
      evaluateReconciliationResult sampleContext
        { sampleResult with orders := sampleResult.orders.reverse } sampleCommands [] 50 = .ok out := by
  have hrun : (evaluateReconciliationResult sampleContext sampleResult sampleCommands [] 50).toOption.map
      (fun out => out.evaluation.commandIds) = some ["cmd", "stray"] := by decide +kernel
  obtain ⟨out, hout, hids⟩ := Option.map_eq_some_iff.mp hrun
  have hok := ok_of_toOption hout
  have hreordered : Reordered sampleResult
      { sampleResult with orders := sampleResult.orders.reverse } :=
    ⟨rfl, List.Perm.refl _, (List.reverse_perm _).symm, List.Perm.refl _, List.Perm.refl _⟩
  have hopen := reconciliation_leaves_open sampleContext sampleResult sampleCommands [] 50
  refine ⟨out, hok, hids, (hopen.1 out hok).2.2.1, ?_⟩
  exact (hopen.2 _ sampleCommands [] out hreordered (List.Perm.refl _) (List.Perm.refl _)).mp hok

end Sinan.Reconciliation
