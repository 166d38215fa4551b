import Sinan.Lib.Reorder
import Sinan.Risk.Maximal
import Sinan.Risk.Window

/-!
# Eased requests

A request is eased when it keeps a part of what the account holds, asks for no less risk, and lists the
rest in any order.  Every check of the evaluator that the request passed passes again, with the same
prepared legs and an approval that ends no earlier.
-/

namespace Sinan.Risk

open Lib
open Breaker

/-- what may differ between a request and an eased one: the proposed risk and the lists -/
structure Shape where
  decisionRisk : ℚ
  proposedRisk : ℚ
  legs : Option (List (TradeIntentLeg ℚ))
  positions : List (PositionSnapshot ℚ)
  orders : List (OrderSnapshot ℚ)
  symbolMetadata : List (SymbolMetadataSnapshot ℚ)
  pendingCommands : List (ExecutionCommand ℚ)
  pendingCommandStates : List ExecutionCommandState
  markets : List (RiskMarketSnapshot ℚ)
  sizingCandidates : List (PositionSizingCandidate ℚ)

def RiskRequest.shape (request : RiskRequest ℚ) : Shape where
  decisionRisk := request.decision.proposedRiskPct
  proposedRisk := request.intent.proposedRiskPct
  legs := request.intent.proposedLegs
  positions := request.positions
  orders := request.orders
  symbolMetadata := request.symbolMetadata
  pendingCommands := request.pendingCommands
  pendingCommandStates := request.pendingCommandStates
  markets := request.markets
  sizingCandidates := request.sizingCandidates

def RiskRequest.reshape (request : RiskRequest ℚ) (v : Shape) : RiskRequest ℚ :=
  { request with
    decision := { request.decision with proposedRiskPct := v.decisionRisk }
    intent := { request.intent with proposedRiskPct := v.proposedRisk, proposedLegs := v.legs }
    positions := v.positions
    orders := v.orders
    symbolMetadata := v.symbolMetadata
    pendingCommands := v.pendingCommands
    pendingCommandStates := v.pendingCommandStates
    markets := v.markets
    sizingCandidates := v.sizingCandidates }

/-- the proposed risk is kept, or it grows and is accepted again -/
def RiskEased (request : RiskRequest ℚ) (v : Shape) : Prop :=
  (v.decisionRisk = request.decision.proposedRiskPct ∧
    v.proposedRisk = request.intent.proposedRiskPct) ∨
  (request.intent.proposedRiskPct ≤ v.proposedRisk ∧ v.decisionRisk = v.proposedRisk ∧
    validatePercentage "proposed_risk_pct" v.proposedRisk true = .ok () ∧
    validateActionShape (request.reshape v) = .ok ())

/-- less is held, the commands on their way keep their states, and the rest is listed in any order -/
structure Eased (request : RiskRequest ℚ) (v : Shape) : Prop where
  risk : RiskEased request v
  legs : Option.Rel List.Perm request.intent.proposedLegs v.legs
  positions : v.positions.Subperm request.positions
  orders : v.orders.Subperm request.orders
  pendingCommands : v.pendingCommands.Subperm request.pendingCommands
  pendingCommandStates : v.pendingCommandStates.Subperm request.pendingCommandStates
  ownStates : ∀ command ∈ v.pendingCommands, ∀ state ∈ request.pendingCommandStates,
    state.commandId = command.commandId → state ∈ v.pendingCommandStates
  paired : request.pendingCommands.length = request.pendingCommandStates.length →
    v.pendingCommands.length = v.pendingCommandStates.length
  symbolMetadata : request.symbolMetadata.Perm v.symbolMetadata
  markets : request.markets.Perm v.markets
  sizingCandidates : request.sizingCandidates.Perm v.sizingCandidates

section
variable {request : RiskRequest ℚ} {v : Shape}

/-! ## identity and shape -/

theorem Nameable.eased (h : Nameable request) : Nameable (request.reshape v) :=
  ⟨h.riskId, h.requestId, h.intentId, h.accountId, h.decisionId, h.evaluatedAt⟩

theorem decisionMatches_eased (heased : Eased request v)
    (h : decisionMatches request.decision request.intent = true) :
    decisionMatches (request.reshape v).decision (request.reshape v).intent = true := by
  simp only [decisionMatches, Bool.and_eq_true] at h ⊢
  obtain ⟨⟨⟨⟨⟨hfirst, hrisk⟩, hsl⟩, htp⟩, htime⟩, hexpiry⟩ := h
  refine ⟨⟨⟨⟨⟨hfirst, ?_⟩, hsl⟩, htp⟩, htime⟩, hexpiry⟩
  show sameFloat v.decisionRisk v.proposedRisk = true
  rcases heased.risk with ⟨hdecision, hintent⟩ | ⟨-, hsame, -⟩
  · rw [hdecision, hintent]
    exact hrisk
  · rw [hsame]
    unfold sameFloat sameF64Bits F64.sameBits
    show (true && true && (if v.proposedRisk = v.proposedRisk then 0 else 256) == 0) = true
    rw [if_pos rfl]
    rfl

theorem validateRequestIdentity_eased (heased : Eased request v)
    (h : validateRequestIdentity request = .ok ()) :
    validateRequestIdentity (request.reshape v) = .ok () := by
  simp only [validateRequestIdentity, bind_ok, exists_unit, each_ok] at h ⊢
  obtain ⟨htime, hfields, hmatches, haccount, hcapacity, hpositions, horders, hmetadata, hmarkets,
    hcommands, hstates⟩ := h
  refine ⟨htime, hfields, ?_, haccount, hcapacity, ?_, ?_, ?_, ?_, ?_, ?_⟩
  · rw [reject_ok, Bool.not_eq_false] at hmatches ⊢
    exact decisionMatches_eased heased hmatches
  · exact fun x hx => hpositions x (heased.positions.subset hx)
  · exact fun x hx => horders x (heased.orders.subset hx)
  · exact fun x hx => hmetadata x (heased.symbolMetadata.mem_iff.mpr hx)
  · exact fun x hx => hmarkets x (heased.markets.mem_iff.mpr hx)
  · exact fun x hx => hcommands x (heased.pendingCommands.subset hx)
  · exact fun x hx => hstates x (heased.pendingCommandStates.subset hx)

theorem perm_isEmpty {α : Type} {xs ys : Option (List α)} (h : Option.Rel List.Perm xs ys) :
    (ys.getD []).isEmpty = (xs.getD []).isEmpty ∧ ys.isSome = xs.isSome := by
  cases h with
  | none => exact ⟨rfl, rfl⟩
  | some hperm => exact ⟨hperm.isEmpty_eq.symm, rfl⟩

theorem perm_cases {α : Type} {xs ys : Option (List α)} (h : Option.Rel List.Perm xs ys) :
    (xs = none ∧ ys = none) ∨ ∃ l l', xs = some l ∧ ys = some l' ∧ l.Perm l' := by
  cases h with
  | none => exact .inl ⟨rfl, rfl⟩
  | some hperm => exact .inr ⟨_, _, rfl, rfl, hperm⟩

theorem validateActionShape_eased (heased : Eased request v)
    (h : validateActionShape request = .ok ()) :
    validateActionShape (request.reshape v) = .ok () := by
  rcases heased.risk with ⟨-, hintent⟩ | ⟨-, -, -, hshape⟩
  · obtain ⟨hempty, hsome⟩ := perm_isEmpty heased.legs
    have hsame : validateActionShape (request.reshape v) = validateActionShape request := by
      simp only [validateActionShape, RiskRequest.reshape, hempty, hsome, hintent,
        heased.sizingCandidates.isEmpty_eq]
    rw [hsame]
    exact h
  · exact hshape

/-! ## snapshots -/

theorem metadataOf_eased (heased : Eased request v)
    (hnodup : (request.symbolMetadata.map SymbolMetadataSnapshot.symbol).Nodup) :
    metadataOf (request.reshape v) = metadataOf request :=
  funext fun symbol => find_key_perm heased.symbolMetadata hnodup symbol

theorem marketOf_eased (heased : Eased request v)
    (hnodup : (request.markets.map fun m => m.snapshot.symbol).Nodup) :
    marketOf (request.reshape v) = marketOf request :=
  funext fun symbol => @find_key_perm _ _ _ _ _ _ (fun m : RiskMarketSnapshot ℚ => m.snapshot.symbol)
    heased.markets hnodup symbol

/-- the snapshots of a symbol are found in an eased request as they are in the request -/
structure SameSnapshots (request : RiskRequest ℚ) (v : Shape) : Prop where
  metadata : metadataOf (request.reshape v) = metadataOf request
  market : marketOf (request.reshape v) = marketOf request

/-! ## commands on their way -/

def stateOf (request : RiskRequest ℚ) (command : ExecutionCommand ℚ) : Option ExecutionCommandState :=
  request.pendingCommandStates.find? fun s => s.commandId == command.commandId

/-- a pending command that passes, with its state -/
structure Ready (request : RiskRequest ℚ) (command : ExecutionCommand ℚ)
    (state : ExecutionCommandState) : Prop where
  found : stateOf request command = some state
  identity : ¬ (state.commandId ≠ command.commandId ∨ state.accountId ≠ command.accountId ∨
    state.planId ≠ command.planId ∨ state.legId ≠ command.legId)
  time : validateCommandStateTime request state = .ok ()
  open_ : commandStateIsTerminal state.status = true ∨
    (validateActiveCommand command = .ok () ∧ request.evaluatedAt < command.expiresAt)

/-- a command with its state, unless that is terminal -/
def openEntry (request : RiskRequest ℚ) (command : ExecutionCommand ℚ) :
    Option (ExecutionCommand ℚ × ExecutionCommandState) :=
  ((stateOf request command).filter fun state => !commandStateIsTerminal state.status).map fun state =>
    (command, state)

variable {command : ExecutionCommand ℚ} {state : ExecutionCommandState}

theorem openEntry_terminal (hfound : stateOf request command = some state)
    (hterminal : commandStateIsTerminal state.status = true) :
    openEntry request command = none := by
  rw [openEntry, hfound, Option.filter_some, hterminal]
  rfl

theorem openEntry_open (hfound : stateOf request command = some state)
    (hterminal : ¬ commandStateIsTerminal state.status = true) :
    openEntry request command = some (command, state) := by
  rw [openEntry, hfound, Option.filter_some, Bool.eq_false_of_not_eq_true hterminal]
  rfl

theorem activeCommands_iff {commands : List (ExecutionCommand ℚ)}
    {active : List (ExecutionCommand ℚ × ExecutionCommandState)} :
    activeCommands request commands = .ok active ↔
      (∀ command ∈ commands, ∃ state, Ready request command state) ∧
        active = commands.filterMap (openEntry request) := by
  induction commands generalizing active with
  | nil =>
    constructor
    · intro h
      cases h
      exact ⟨fun _ h => absurd h List.not_mem_nil, rfl⟩
    · rintro ⟨-, rfl⟩
      rfl
  | cons command commands ih =>
    rw [List.forall_mem_cons]
    constructor
    · intro h
      simp only [activeCommands, bind_ok, exists_unit, need_ok, reject_ok] at h
      obtain ⟨state, hfound, hidentity, htime, h⟩ := h
      split at h
      case isTrue hterminal =>
        obtain ⟨hready, hactive⟩ := ih.mp h
        refine ⟨⟨⟨state, hfound, hidentity, htime, .inl hterminal⟩, hready⟩, ?_⟩
        rw [List.filterMap_cons_none (openEntry_terminal hfound hterminal), hactive]
      case isFalse hterminal =>
        simp only [bind_ok, exists_unit, reject_ok, pure_ok, not_le] at h
        obtain ⟨hvalid, hexpires, rest, hrest, rfl⟩ := h
        obtain ⟨hready, rfl⟩ := ih.mp hrest
        refine ⟨⟨⟨state, hfound, hidentity, htime, .inr ⟨hvalid, hexpires⟩⟩, hready⟩, ?_⟩
        rw [List.filterMap_cons_some (openEntry_open hfound hterminal)]
    · rintro ⟨⟨⟨state, hfound, hidentity, htime, hopen⟩, hready⟩, rfl⟩
      simp only [activeCommands, bind_ok, exists_unit, need_ok, reject_ok]
      refine ⟨state, hfound, hidentity, htime, ?_⟩
      have hrest := ih.mpr ⟨hready, rfl⟩
      by_cases hterminal : commandStateIsTerminal state.status = true
      · rw [if_pos hterminal, hrest, List.filterMap_cons_none (openEntry_terminal hfound hterminal)]
      · rw [if_neg hterminal]
        obtain ⟨hvalid, hexpires⟩ := hopen.resolve_left hterminal
        simp only [bind_ok, exists_unit, reject_ok, pure_ok, not_le]
        refine ⟨hvalid, hexpires, _, hrest, ?_⟩
        rw [List.filterMap_cons_some (openEntry_open hfound hterminal)]

/-- what `active_pending_commands` has checked -/
structure Tracked (request : RiskRequest ℚ)
    (active : List (ExecutionCommand ℚ × ExecutionCommandState)) : Prop where
  commandIds : (request.pendingCommands.map ExecutionCommand.commandId).Nodup
  stateIds : (request.pendingCommandStates.map ExecutionCommandState.commandId).Nodup
  paired : request.pendingCommands.length = request.pendingCommandStates.length
  ready : ∀ command ∈ request.pendingCommands, ∃ state, Ready request command state
  active : active = (request.pendingCommands.insertionSort fun x y =>
    x.commandId ≤ y.commandId).filterMap (openEntry request)

theorem activePendingCommands_iff {active : List (ExecutionCommand ℚ × ExecutionCommandState)} :
    activePendingCommands request = .ok active ↔ Tracked request active := by
  simp only [activePendingCommands, bind_ok, exists_unit, eachApart_key_ok, reject_ok, ne_eq,
    not_not, activeCommands_iff, List.mem_insertionSort]
  constructor
  · rintro ⟨⟨hcommands, -⟩, ⟨hstates, -⟩, hlength, hready, hactive⟩
    exact ⟨hcommands, hstates, hlength, hready, hactive⟩
  · intro h
    exact ⟨⟨h.commandIds, fun _ _ => ⟨trivial, trivial⟩⟩, ⟨h.stateIds, fun _ _ => ⟨trivial, trivial⟩⟩,
      h.paired, h.ready, h.active⟩

section
variable {active : List (ExecutionCommand ℚ × ExecutionCommandState)}

theorem Tracked.stateOf_eased (h : Tracked request active) (heased : Eased request v)
    {command : ExecutionCommand ℚ} (hcommand : command ∈ v.pendingCommands) :
    stateOf (request.reshape v) command = stateOf request command := by
  obtain ⟨state, hready⟩ := h.ready command (heased.pendingCommands.subset hcommand)
  obtain ⟨hmem, hid⟩ := find_key hready.found
  have hkept : state ∈ v.pendingCommandStates := heased.ownStates command hcommand state hmem hid
  have hnodup : (v.pendingCommandStates.map ExecutionCommandState.commandId).Nodup :=
    Subperm.nodup (Subperm.map heased.pendingCommandStates _) h.stateIds
  have hself := find_key_self hnodup hkept
  rw [hid] at hself
  exact hself.trans hready.found.symm

theorem Tracked.filter_eased (h : Tracked request active) (heased : Eased request v)
    {command : ExecutionCommand ℚ} (hcommand : command ∈ v.pendingCommands) :
    commandMayExpose (request.reshape v) command = commandMayExpose request command := by
  obtain ⟨state, hready⟩ := h.ready command (heased.pendingCommands.subset hcommand)
  obtain ⟨hmem, hid⟩ := find_key hready.found
  have hkept : state ∈ v.pendingCommandStates := heased.ownStates command hcommand state hmem hid
  have hnodup : (v.pendingCommandStates.map ExecutionCommandState.commandId).Nodup :=
    Subperm.nodup (Subperm.map heased.pendingCommandStates _) h.stateIds
  unfold commandMayExpose
  rw [filter_key_self h.stateIds hmem hid]
  exact congrArg (fun states : List ExecutionCommandState => command.action.isOpening &&
    states.all fun s => !commandStateIsTerminal s.status) (filter_key_self hnodup hkept hid)

theorem Tracked.eased (h : Tracked request active) (heased : Eased request v) :
    ∃ kept, Tracked (request.reshape v) kept ∧ kept.Subperm active := by
  have hids : (v.pendingCommands.map ExecutionCommand.commandId).Nodup :=
    Subperm.nodup (Subperm.map heased.pendingCommands _) h.commandIds
  refine ⟨_, ⟨hids, Subperm.nodup (Subperm.map heased.pendingCommandStates _) h.stateIds,
    heased.paired h.paired, ?_, rfl⟩, ?_⟩
  · intro command hcommand
    obtain ⟨state, hready⟩ := h.ready command (heased.pendingCommands.subset hcommand)
    exact ⟨state, (h.stateOf_eased heased hcommand).trans hready.found, hready.identity, hready.time,
      hready.open_⟩
  · have hentries : ((request.reshape v).pendingCommands.insertionSort
          fun x y => x.commandId ≤ y.commandId).filterMap (openEntry (request.reshape v)) =
        (v.pendingCommands.insertionSort fun x y => x.commandId ≤ y.commandId).filterMap
          (openEntry request) := by
      refine List.filterMap_congr fun command hcommand => ?_
      have hmem : command ∈ v.pendingCommands := (List.mem_insertionSort _).mp hcommand
      rw [openEntry, openEntry, h.stateOf_eased heased hmem]
    rw [h.active, hentries]
    obtain ⟨zs, hperm, hsub⟩ := heased.pendingCommands
    have hfirst := (List.perm_insertionSort (fun x y : ExecutionCommand ℚ => x.commandId ≤ y.commandId)
      v.pendingCommands).trans hperm.symm
    have hlast := List.perm_insertionSort
      (fun x y : ExecutionCommand ℚ => x.commandId ≤ y.commandId) request.pendingCommands
    exact (hfirst.filterMap _).subperm.trans
      ((hsub.filterMap _).subperm.trans (hlast.filterMap _).symm.subperm)

end

/-! ## required symbols -/

theorem mem_sortedSet {x : String} {xs : List String} : x ∈ sortedSet xs ↔ x ∈ xs := by
  rw [sortedSet, List.mem_insertionSort, List.mem_dedup]

def intendedSymbols (symbol : SymbolCode) : Option (List (TradeIntentLeg ℚ)) → List SymbolCode
  | some legs => legs.map TradeIntentLeg.symbol
  | none => [symbol]

theorem intendedSymbols_perm {xs ys : Option (List (TradeIntentLeg ℚ))}
    (h : Option.Rel List.Perm xs ys) (symbol : SymbolCode) :
    (intendedSymbols symbol xs).Perm (intendedSymbols symbol ys) := by
  cases h with
  | none => exact List.Perm.refl _
  | some hperm => exact hperm.map _

theorem mem_requiredSymbols {symbol : SymbolCode} :
    symbol ∈ requiredSymbols request ↔
      ((symbol ∈ intendedSymbols request.intent.symbol request.intent.proposedLegs ∨
        symbol ∈ request.positions.map PositionSnapshot.symbol) ∨
        symbol ∈ (request.orders.filter fun o => orderIsActive o.status).map OrderSnapshot.symbol) ∨
        symbol ∈ (request.pendingCommands.filter (commandMayExpose request)).map
          ExecutionCommand.symbol := by
  rw [requiredSymbols, mem_sortedSet, List.mem_append, List.mem_append, List.mem_append]
  cases request.intent.proposedLegs with
  | none => exact Iff.rfl
  | some legs => exact Iff.rfl

theorem requiredSymbols_eased {active : List (ExecutionCommand ℚ × ExecutionCommandState)}
    (h : Tracked request active) (heased : Eased request v) :
    ∀ symbol ∈ requiredSymbols (request.reshape v), symbol ∈ requiredSymbols request := by
  intro symbol hsymbol
  rw [mem_requiredSymbols] at hsymbol ⊢
  rcases hsymbol with ((hintended | hposition) | horder) | hcommand
  · have hperm := intendedSymbols_perm heased.legs request.intent.symbol
    exact .inl (.inl (.inl (hperm.mem_iff.mpr hintended)))
  · exact .inl (.inl (.inr ((Subperm.map heased.positions _).subset hposition)))
  · exact .inl (.inr ((Subperm.map (heased.orders.filter _) _).subset horder))
  · obtain ⟨command, hfilter, rfl⟩ := List.mem_map.mp hcommand
    obtain ⟨hmem, hexpose⟩ := List.mem_filter.mp hfilter
    rw [h.filter_eased heased hmem] at hexpose
    exact .inr (List.mem_map_of_mem (List.mem_filter.mpr
      ⟨heased.pendingCommands.subset hmem, hexpose⟩))

/-! ## freshness -/

theorem checkedAge_nonneg {now observedAt maxAge age : Int} {code : ErrorCode} {label : String}
    (h : checkedAge now observedAt maxAge code label = .ok age) : 0 ≤ age := by
  simp only [checkedAge, bind_ok, exists_unit, need_ok, reject_ok, pure_ok, not_or, not_lt] at h
  obtain ⟨_, -, ⟨hnonneg, -⟩, rfl⟩ := h
  exact hnonneg

section
variable {α : Type} {age : α → Evaluation Int} {xs : List α} {start result : Int}

theorem oldest_bounds (h : oldest age start xs = .ok result) :
    start ≤ result ∧ ∀ x ∈ xs, ∃ a, age x = .ok a ∧ a ≤ result := by
  induction xs generalizing start with
  | nil =>
    cases h
    exact ⟨le_rfl, fun _ hx => absurd hx List.not_mem_nil⟩
  | cons x xs ih =>
    simp only [oldest, bind_ok] at h
    obtain ⟨a, ha, hrest⟩ := h
    obtain ⟨hstart, hages⟩ := ih hrest
    refine ⟨(le_max_left _ _).trans hstart, List.forall_mem_cons.mpr ⟨⟨a, ha, ?_⟩, hages⟩⟩
    exact (le_max_right _ _).trans hstart

theorem oldest_least {bound : Int} (hstart : start ≤ bound)
    (h : ∀ x ∈ xs, ∃ a, age x = .ok a ∧ a ≤ bound) :
    ∃ result, oldest age start xs = .ok result ∧ result ≤ bound := by
  induction xs generalizing start with
  | nil => exact ⟨start, rfl, hstart⟩
  | cons x xs ih =>
    obtain ⟨⟨a, ha, hle⟩, hrest⟩ := List.forall_mem_cons.mp h
    obtain ⟨result, hresult, hbound⟩ := ih (max_le hstart hle) hrest
    refine ⟨result, ?_, hbound⟩
    simp only [oldest, bind_ok]
    exact ⟨a, ha, hresult⟩

end

/-- each age is at most the other -/
structure AuditAges.Within (ages bound : AuditAges) : Prop where
  snapshot : ages.snapshot ≤ bound.snapshot
  market : ages.market ≤ bound.market
  metadata : ages.metadata ≤ bound.metadata
  capacity : ages.capacity ≤ bound.capacity

theorem snapshotAge_eased {age : Int} (heased : Eased request v) (h : snapshotAge request = .ok age) :
    ∃ age', snapshotAge (request.reshape v) = .ok age' ∧ age' ≤ age := by
  simp only [snapshotAge, bind_ok, exists_unit] at h
  obtain ⟨account, haccount, positions, hpositions, orders, horders, commands, hcommands, hordered,
    rows, hrows, hlast⟩ := h
  obtain ⟨hstart, hpositionAges⟩ := oldest_bounds hrows
  obtain ⟨hmiddle, horderAges⟩ := oldest_bounds hlast
  obtain ⟨rows', hrows', hle⟩ := oldest_least hstart fun p hp =>
    hpositionAges p (heased.positions.subset hp)
  obtain ⟨age', hage', hle'⟩ := oldest_least (hle.trans hmiddle) fun o ho =>
    horderAges o (heased.orders.subset ho)
  refine ⟨age', ?_, hle'⟩
  simp only [snapshotAge, bind_ok, exists_unit]
  exact ⟨account, haccount, positions, hpositions, orders, horders, commands, hcommands, hordered,
    rows', hrows', hage'⟩

theorem snapshotAge_nonneg {age : Int} (h : snapshotAge request = .ok age) : 0 ≤ age := by
  simp only [snapshotAge, bind_ok, exists_unit] at h
  obtain ⟨account, haccount, positions, -, orders, -, commands, -, -, rows, hrows, hlast⟩ := h
  calc 0 ≤ account := checkedAge_nonneg haccount
    _ ≤ max (max (max account positions) orders) commands := by
      rw [max_assoc, max_assoc]
      exact le_max_left _ _
    _ ≤ rows := (oldest_bounds hrows).1
    _ ≤ age := (oldest_bounds hlast).1

/-- the ages of the market and of the metadata of a symbol -/
def SymbolAged (request : RiskRequest ℚ) (symbol : SymbolCode) (market metadata : Int) : Prop :=
  (∃ found, marketOf request symbol = some found ∧
    checkedAge request.evaluatedAt found.snapshot.observedAt request.policy.maxMarketSnapshotAgeMs
      .marketSnapshotStale "market snapshot" = .ok market) ∧
  ∃ described, metadataOf request symbol = some described ∧
    checkedAge request.evaluatedAt described.observedAt request.policy.maxSymbolMetadataAgeMs
      .symbolMetadataStale "symbol metadata" = .ok metadata

theorem symbolAges_bounds {symbols : List SymbolCode} {market metadata : Int} {ages : Int × Int}
    (h : symbolAges request market metadata symbols = .ok ages) :
    market ≤ ages.1 ∧ metadata ≤ ages.2 ∧
      ∀ symbol ∈ symbols, ∃ a b, SymbolAged request symbol a b ∧ a ≤ ages.1 ∧ b ≤ ages.2 := by
  induction symbols generalizing market metadata with
  | nil =>
    cases h
    exact ⟨le_rfl, le_rfl, fun _ hx => absurd hx List.not_mem_nil⟩
  | cons symbol symbols ih =>
    simp only [symbolAges, bind_ok, need_ok] at h
    obtain ⟨found, hfound, a, ha, described, hdescribed, b, hb, hrest⟩ := h
    obtain ⟨hmarket, hmetadata, hages⟩ := ih hrest
    refine ⟨(le_max_left _ _).trans hmarket, (le_max_left _ _).trans hmetadata,
      List.forall_mem_cons.mpr ⟨⟨a, b, ⟨⟨found, hfound, ha⟩, described, hdescribed, hb⟩, ?_, ?_⟩,
        hages⟩⟩
    · exact (le_max_right _ _).trans hmarket
    · exact (le_max_right _ _).trans hmetadata

theorem symbolAges_least {symbols : List SymbolCode} {market metadata : Int} {bound : Int × Int}
    (hmarket : market ≤ bound.1) (hmetadata : metadata ≤ bound.2)
    (h : ∀ symbol ∈ symbols, ∃ a b, SymbolAged request symbol a b ∧ a ≤ bound.1 ∧ b ≤ bound.2) :
    ∃ ages, symbolAges request market metadata symbols = .ok ages ∧ ages.1 ≤ bound.1 ∧
      ages.2 ≤ bound.2 := by
  induction symbols generalizing market metadata with
  | nil => exact ⟨(market, metadata), rfl, hmarket, hmetadata⟩
  | cons symbol symbols ih =>
    obtain ⟨⟨a, b, ⟨⟨found, hfound, ha⟩, described, hdescribed, hb⟩, hale, hble⟩, hrest⟩ :=
      List.forall_mem_cons.mp h
    obtain ⟨ages, hages, hle⟩ := ih (max_le hmarket hale) (max_le hmetadata hble) hrest
    refine ⟨ages, ?_, hle⟩
    simp only [symbolAges, bind_ok, need_ok]
    exact ⟨found, hfound, a, ha, described, hdescribed, b, hb, hages⟩

variable {required : List SymbolCode}

theorem validateFreshness_eased {required' : List SymbolCode} {ages : AuditAges}
    (heased : Eased request v) (hsame : SameSnapshots request v)
    (hrequired : ∀ symbol ∈ required', symbol ∈ required)
    (h : validateFreshness request required = .ok ages) :
    ∃ ages', validateFreshness (request.reshape v) required' = .ok ages' ∧ ages'.Within ages := by
  simp only [validateFreshness, bind_ok, exists_unit, pure_ok, Prod.exists] at h
  obtain ⟨snapshot, hsnapshot, market, metadata, hsymbols, capacity, hcapacity, hordered, rfl⟩ := h
  obtain ⟨snapshot', hsnapshot', hle⟩ := snapshotAge_eased heased hsnapshot
  obtain ⟨hmarket, hmetadata, hages⟩ := symbolAges_bounds hsymbols
  have hages' : ∀ symbol ∈ required', ∃ a b, SymbolAged (request.reshape v) symbol a b ∧
      a ≤ market ∧ b ≤ metadata := by
    intro symbol hsymbol
    obtain ⟨a, b, haged, hbounds⟩ := hages symbol (hrequired symbol hsymbol)
    refine ⟨a, b, ?_, hbounds⟩
    unfold SymbolAged at haged ⊢
    rw [hsame.market, hsame.metadata]
    exact haged
  obtain ⟨⟨market', metadata'⟩, hsymbols', hmarket', hmetadata'⟩ :=
    symbolAges_least hmarket hmetadata hages'
  refine ⟨⟨snapshot', market', metadata', capacity⟩, ?_, hle, hmarket', hmetadata', le_rfl⟩
  simp only [validateFreshness, bind_ok, exists_unit, pure_ok, Prod.exists]
  exact ⟨snapshot', hsnapshot', market', metadata', hsymbols', capacity, hcapacity, hordered, rfl⟩

theorem validateFreshness_nonneg {ages : AuditAges}
    (h : validateFreshness request required = .ok ages) : ages.Nonneg := by
  simp only [validateFreshness, bind_ok, exists_unit, pure_ok, Prod.exists] at h
  obtain ⟨_, hsnapshot, _, _, hsymbols, _, hcapacity, -, rfl⟩ := h
  obtain ⟨hmarket, hmetadata, -⟩ := symbolAges_bounds hsymbols
  exact ⟨snapshotAge_nonneg hsnapshot, hmarket, hmetadata, checkedAge_nonneg hcapacity⟩

/-! ## the end of an approval -/

theorem observations_eased {active : List (ExecutionCommand ℚ × ExecutionCommandState)}
    (htracked : Tracked request active) (heased : Eased request v) (hsame : SameSnapshots request v) :
    ∀ o ∈ observations (request.reshape v), o ∈ observations request := by
  intro o ho
  rw [observations, List.mem_append] at ho ⊢
  rcases ho with ho | ho
  · left
    simp only [accountObservations, List.mem_append] at ho ⊢
    rcases ho with (ho | ho) | ho
    · exact .inl (.inl ho)
    · exact .inl (.inr ((Subperm.map heased.positions _).subset ho))
    · exact .inr ((Subperm.map heased.orders _).subset ho)
  · right
    obtain ⟨symbol, hsymbol, hobserved⟩ := List.mem_flatMap.mp ho
    refine List.mem_flatMap.mpr ⟨symbol, requiredSymbols_eased htracked heased symbol hsymbol, ?_⟩
    unfold symbolObservations at hobserved ⊢
    rw [hsame.market, hsame.metadata] at hobserved
    exact hobserved

theorem leastBoundary_anti {start : Int} {xs ys : List (Int × Int)} (h : ∀ o ∈ ys, o ∈ xs) :
    leastBoundary start xs ≤ leastBoundary start ys := by
  refine le_of_forall_lt fun t ht => ?_
  obtain ⟨hstart, hbounds⟩ := lt_leastBoundary.mp ht
  exact lt_leastBoundary.mpr ⟨hstart, fun o ho => hbounds o (h o ho)⟩

theorem approvalValidUntil_eased {active : List (ExecutionCommand ℚ × ExecutionCommandState)}
    (htracked : Tracked request active) (heased : Eased request v) (hsame : SameSnapshots request v)
    {validUntil : Int} (h : approvalValidUntil request (requiredSymbols request) = .ok validUntil) :
    ∃ later, approvalValidUntil (request.reshape v) (requiredSymbols (request.reshape v)) = .ok later ∧
      validUntil ≤ later := by
  obtain ⟨⟨hdescribed, hfit⟩, httl, rfl, hopen⟩ := approvalValidUntil_iff.mp h
  have hobserved := observations_eased htracked heased hsame
  have hle : min (leastBoundary request.intent.signalExpiresAt (observations request))
        (request.evaluatedAt + request.policy.maxApprovalTtlMs)
      ≤ min (leastBoundary request.intent.signalExpiresAt (observations (request.reshape v)))
        (request.evaluatedAt + request.policy.maxApprovalTtlMs) :=
    min_le_min_right _ (leastBoundary_anti hobserved)
  refine ⟨_, approvalValidUntil_iff.mpr ⟨⟨?_, fun o ho => hfit o (hobserved o ho)⟩, httl, rfl,
    hopen.trans_le hle⟩, hle⟩
  intro symbol hsymbol
  have hfound := hdescribed symbol (requiredSymbols_eased htracked heased symbol hsymbol)
  unfold Described at hfound ⊢
  rw [hsame.market, hsame.metadata]
  exact hfound

/-! ## legs -/

/-- what one proposed leg is expected to become -/
def expectLeg (leg : TradeIntentLeg ℚ) : Evaluation (ExpectedLeg ℚ) := do
  let action ← legAction leg
  return { legId := leg.legId, symbol := leg.symbol, action, ratio := leg.ratio
           stop := leg.proposedSl }

variable {legs : List (TradeIntentLeg ℚ)} {expected : List (ExpectedLeg ℚ)}
  {prepared : List (PreparedLeg ℚ)}

theorem expectLegs_iff {seen : List LegId} :
    expectLegs seen legs = .ok expected ↔ (legs.map TradeIntentLeg.legId).Nodup ∧
      (∀ leg ∈ legs, leg.legId ∉ seen) ∧
      List.Forall₂ (fun leg e => expectLeg leg = .ok e) legs expected := by
  induction legs generalizing seen expected with
  | nil =>
    constructor
    · intro h
      cases h
      exact ⟨List.nodup_nil, fun _ h => absurd h List.not_mem_nil, List.Forall₂.nil⟩
    · rintro ⟨-, -, hforall⟩
      cases hforall
      rfl
  | cons leg legs ih =>
    simp only [expectLegs, bind_ok, exists_unit, reject_ok, pure_ok, ih, List.map_cons,
      List.nodup_cons, List.forall_mem_cons, List.forall₂_cons_left_iff, expectLeg, List.mem_append,
      List.mem_singleton, not_or, List.mem_map, not_exists, not_and]
    constructor
    · rintro ⟨hfresh, action, haction, rest, ⟨hnodup, hunseen, hrest⟩, rfl⟩
      exact ⟨⟨fun other hother => (hunseen other hother).2, hnodup⟩,
        ⟨hfresh, fun other hother => (hunseen other hother).1⟩, _, rest, ⟨action, haction, rfl⟩, hrest,
        rfl⟩
    · rintro ⟨⟨hdistinct, hnodup⟩, ⟨hfresh, hunseen⟩, _, rest, ⟨action, haction, rfl⟩, hrest, rfl⟩
      exact ⟨hfresh, action, haction, rest,
        ⟨hnodup, fun other hother => ⟨hunseen other hother, hdistinct other hother⟩, hrest⟩, rfl⟩

theorem expectLeg_id {leg : TradeIntentLeg ℚ} {e : ExpectedLeg ℚ} (h : expectLeg leg = .ok e) :
    leg.legId = e.legId := by
  simp only [expectLeg, bind_ok, pure_ok] at h
  obtain ⟨_, -, rfl⟩ := h
  rfl

theorem expectLegs_perm {legs' : List (TradeIntentLeg ℚ)} (hperm : legs.Perm legs')
    (h : expectLegs [] legs = .ok expected) :
    ∃ expected', expectLegs [] legs' = .ok expected' ∧ expected.Perm expected' := by
  obtain ⟨hnodup, -, hforall⟩ := expectLegs_iff.mp h
  obtain ⟨expected', hforall', hperm'⟩ := List.perm_comp_forall₂ hperm.symm hforall
  refine ⟨expected', expectLegs_iff.mpr ⟨?_, fun _ _ => List.not_mem_nil, hforall'⟩, hperm'.symm⟩
  exact (hperm.map _).nodup_iff.mp hnodup

theorem expectLegs_nodup (h : expectLegs [] legs = .ok expected) :
    (expected.map ExpectedLeg.legId).Nodup := by
  obtain ⟨hnodup, -, hforall⟩ := expectLegs_iff.mp h
  have hids : legs.map TradeIntentLeg.legId = expected.map ExpectedLeg.legId := by
    rw [← List.forall₂_eq_eq_eq, List.forall₂_map_left_iff, List.forall₂_map_right_iff]
    exact hforall.imp fun _ _ he => expectLeg_id he
  rw [← hids]
  exact hnodup

theorem expectedLegs_nodup (h : expectedLegs request = .ok expected) :
    (expected.map ExpectedLeg.legId).Nodup := by
  unfold expectedLegs at h
  split at h
  case h_1 legs hlegs => exact expectLegs_nodup h
  case h_2 hlegs =>
    split at h
    case h_1 | h_2 =>
      cases h
      exact List.nodup_singleton _
    case h_3 => exact (nomatch h)

theorem expectedLegs_eased (heased : Eased request v) (h : expectedLegs request = .ok expected) :
    ∃ expected', expectedLegs (request.reshape v) = .ok expected' ∧ expected.Perm expected' := by
  rcases perm_cases heased.legs with ⟨hnone, hnone'⟩ | ⟨legs, legs', hlegs, hlegs', hperm⟩
  · have hsame : expectedLegs (request.reshape v) = expectedLegs request := by
      simp only [expectedLegs, RiskRequest.reshape, hnone, hnone']
    exact ⟨expected, hsame.trans h, List.Perm.refl _⟩
  · have hfirst : expectedLegs request = expectLegs [] legs := by
      simp only [expectedLegs, hlegs]
    have hsecond : expectedLegs (request.reshape v) = expectLegs [] legs' := by
      simp only [expectedLegs, RiskRequest.reshape, hlegs']
    rw [hfirst] at h
    obtain ⟨expected', hexpected', hperm'⟩ := expectLegs_perm hperm h
    exact ⟨expected', hsecond.trans hexpected', hperm'⟩

theorem prepareLeg_eased (heased : Eased request v) (hsame : SameSnapshots request v)
    (hnodup : (request.sizingCandidates.map PositionSizingCandidate.legId).Nodup)
    (e : ExpectedLeg ℚ) : prepareLeg (request.reshape v) e = prepareLeg request e := by
  have hfind : v.sizingCandidates.find? (fun c => c.legId == e.legId)
      = request.sizingCandidates.find? (fun c => c.legId == e.legId) :=
    find_key_perm heased.sizingCandidates hnodup e.legId
  have hnone : v.legs.isNone = request.intent.proposedLegs.isNone := by
    have hsome := (perm_isEmpty heased.legs).2
    rw [← Option.not_isSome, ← Option.not_isSome, hsome]
  unfold prepareLeg
  rw [hsame.metadata, hsame.market]
  show (need (v.sizingCandidates.find? _) _ >>= _) = _
  rw [hfind]
  simp only [RiskRequest.reshape, hnone]

theorem prepareLegs_eased (heased : Eased request v) (hsame : SameSnapshots request v)
    (h : prepareLegs request = .ok prepared) :
    prepareLegs (request.reshape v) = .ok prepared := by
  simp only [prepareLegs, bind_ok, exists_unit, eachApart_key_ok, reject_ok, collect_ok, ne_eq,
    not_not] at h ⊢
  obtain ⟨⟨hnodup, htext⟩, expected, hexpected, hlength, hprepared⟩ := h
  obtain ⟨expected', hexpected', hperm⟩ := expectedLegs_eased heased hexpected
  have hdistinct := expectedLegs_nodup hexpected
  refine ⟨⟨(heased.sizingCandidates.map _).nodup_iff.mp hnodup, fun c hc =>
    htext c (heased.sizingCandidates.mem_iff.mpr hc)⟩, expected', hexpected', ?_, ?_⟩
  · exact (hperm.length_eq.symm.trans hlength).trans heased.sizingCandidates.length_eq
  · rw [← insertionSort_key_perm hperm hdistinct]
    refine hprepared.imp fun e p hp => ?_
    rw [prepareLeg_eased heased hsame hnodup]
    exact hp

/-! ## policies, symbols and conflicts -/

theorem validatePolicyAndInputs_eased (heased : Eased request v) {base : ℚ}
    (h : validatePolicyAndInputs request = .ok base) :
    validatePolicyAndInputs (request.reshape v) = .ok base := by
  simp only [validatePolicyAndInputs, bind_ok, exists_unit] at h ⊢
  obtain ⟨hswitches, hpercentages, hrest⟩ := h
  refine ⟨hswitches, ?_, hrest⟩
  simp only [validatePercentages, bind_ok, exists_unit] at hpercentages ⊢
  obtain ⟨hpolicy, haccount, hportfolio, hproposed, hothers⟩ := hpercentages
  refine ⟨hpolicy, haccount, hportfolio, ?_, hothers⟩
  rcases heased.risk with ⟨-, hsame⟩ | ⟨-, -, hvalid, -⟩
  · show validatePercentage "proposed_risk_pct" v.proposedRisk true = .ok ()
    rw [hsame]
    exact hproposed
  · exact hvalid

theorem validateSymbolInputs_eased (hsame : SameSnapshots request v) {required' : List SymbolCode}
    (hrequired : ∀ symbol ∈ required', symbol ∈ required)
    (h : validateSymbolInputs request required = .ok ()) :
    validateSymbolInputs (request.reshape v) required' = .ok () := by
  rw [validateSymbolInputs, each_ok] at h ⊢
  intro symbol hsymbol
  have hinput := h symbol (hrequired symbol hsymbol)
  unfold validateSymbolInput at hinput ⊢
  rw [hsame.metadata, hsame.market]
  exact hinput

theorem find_modify_none {active : List (ExecutionCommand ℚ × ExecutionCommandState)} :
    active.find? (fun entry => decide (entry.1.action = .modify)) = none ↔
      ∀ entry ∈ active, entry.1.action ≠ .modify := by
  rw [List.find?_eq_none]
  exact forall₂_congr fun entry _ => by rw [decide_eq_true_eq]

theorem validatePendingExposure_ok {active : List (ExecutionCommand ℚ × ExecutionCommandState)} :
    validatePendingExposure request prepared active = .ok () ↔
      (∀ entry ∈ active, entry.1.action ≠ .modify) ∧
      (∀ order ∈ request.orders, validatePendingOrder request
        (prepared.map fun leg => leg.provenance.symbol) order = .ok ()) ∧
      ∀ entry ∈ active, validatePendingCommand request
        (prepared.map fun leg => leg.provenance.symbol) entry.1 = .ok () := by
  rw [← find_modify_none]
  unfold validatePendingExposure
  cases active.find? fun entry => decide (entry.1.action = .modify) with
  | some entry => exact ⟨fun h => (nomatch h), fun h => (nomatch h.1)⟩
  | none =>
    simp only [bind_ok, exists_unit, each_ok]
    exact ⟨fun h => ⟨trivial, h⟩, fun h => h.2⟩

theorem validatePendingExposure_eased
    {active kept : List (ExecutionCommand ℚ × ExecutionCommandState)} (heased : Eased request v)
    (hsame : SameSnapshots request v) (hkept : kept.Subperm active)
    (h : validatePendingExposure request prepared active = .ok ()) :
    validatePendingExposure (request.reshape v) prepared kept = .ok () := by
  rw [validatePendingExposure_ok] at h ⊢
  obtain ⟨hmodify, horders, hcommands⟩ := h
  refine ⟨fun entry he => hmodify entry (hkept.subset he), ?_, ?_⟩
  · intro order ho
    have horder := horders order (heased.orders.subset ho)
    unfold validatePendingOrder requiredMetadata at horder ⊢
    rw [hsame.metadata]
    exact horder
  · intro entry he
    have hcommand := hcommands entry (hkept.subset he)
    unfold validatePendingCommand requiredMetadata at hcommand ⊢
    rw [hsame.metadata]
    exact hcommand

theorem validateConcurrency_eased {active kept : List (ExecutionCommand ℚ × ExecutionCommandState)}
    (heased : Eased request v) (hkept : kept.Subperm active)
    (h : validateConcurrency request prepared active = .ok ()) :
    validateConcurrency (request.reshape v) prepared kept = .ok () := by
  simp only [validateConcurrency, bind_ok, exists_unit, reject_ok, not_lt] at h ⊢
  refine ⟨?_, h.2⟩
  have hpositions := heased.positions.length_le
  have horders := (heased.orders.filter fun order =>
    orderIsActive order.status && F64.positive order.remainingLots).length_le
  have hcommands := (hkept.filter fun entry => entry.1.action.isOpening).length_le
  calc v.positions.length + _ + _ + prepared.length
      ≤ request.positions.length + _ + _ + prepared.length := by
        gcongr
        exact horders
    _ ≤ request.policy.maxConcurrentPositions := h.1

end

end Sinan.Risk
