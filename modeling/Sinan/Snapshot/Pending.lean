import Sinan.Breaker.Contention
import Sinan.Snapshot.Sound

/-!
# The chosen intent and its inputs

The predicate that chooses an intent covers what its loaders require, up to two of their checks: the
predicate asks for some metadata of a symbol where the loader wants one row, and it does not look into
the lifecycle of a command state.  In every reachable store the chosen intent is loaded exactly if
these two checks pass.
-/

set_option linter.unusedSectionVars false

namespace Sinan.Snapshot

open Lib Store Projection
open Execution hiding ProjectionError

/-! ## what the predicate says -/

section
variable {P F D J : Type} [DecidableEq P] [DecidableEq F] [DecidableEq D] [DecidableEq J] [F64 F]

/-- the command of the account is in flight in this state -/
structure InFlight (t : WorkflowTables P F) (accountId : AccountId) (row : CommandRow F)
    (state : ExecutionCommandState) : Prop where
  stored : row ∈ t.commands.rows
  account : row.command.accountId = accountId
  found : t.states.get row.command.commandId = some state
  unfinished : Risk.commandStateIsTerminal state.status = false

/-- the symbols that the evaluation of the intent is about -/
inductive Required (t : RiskTables P F D J) (intent : TradeIntent F) : SymbolCode → Prop
  | intended {symbol : SymbolCode} (h : symbol ∈ intendedSymbols intent) : Required t intent symbol
  | position {row : MemberRow (PositionSnapshot F)}
      (h : row ∈ membersOf t.projected.projections.positions intent.accountId) :
      Required t intent row.payload.symbol
  | order {row : MemberRow (OrderSnapshot F)}
      (h : row ∈ membersOf t.projected.projections.orders intent.accountId)
      (active : Risk.orderIsActive row.payload.status = true) : Required t intent row.payload.symbol
  | command {row : CommandRow F} {state : ExecutionCommandState}
      (h : InFlight t.workflows intent.accountId row state)
      (opening : row.command.action.isOpening = true) : Required t intent row.command.symbol

/-- no required symbol has two broker symbols of the account -/
def MetadataApart (t : RiskTables P F D J) (intent : TradeIntent F) : Prop :=
  ∀ x ∈ t.projected.projections.symbols.rows, ∀ y ∈ t.projected.projections.symbols.rows,
    x.payload.accountId = intent.accountId → y.payload.accountId = intent.accountId →
    x.payload.symbol = y.payload.symbol → Required t intent x.payload.symbol →
    x.payload.brokerSymbol = y.payload.brokerSymbol

/-- the times of every state in flight lie in its lifecycle -/
def CommandsReadable (t : WorkflowTables P F) (accountId : AccountId) : Prop :=
  ∀ row state, InFlight t accountId row state →
    (0 ≤ state.createdAt ∧ state.createdAt ≤ state.updatedAt) ∧ InWindow state

/-- the rows that the predicate has found, and what it says of the others -/
structure Ready (t : RiskTables P F D J) (row : IntentRow F) where
  account : LatestRow (AccountSnapshot F)
  capacity : StoredRiskCapacitySnapshot F
  checkpoint : AccountReconciliationCheckpoint D
  reconciledAt : Int
  status : row.status = .accepted
  waiting : t.riskResultExists row.intent.intentId = false
  accountFound : t.projected.projections.accounts.get row.intent.accountId = some account
  capacityFound : t.capacities.latest.get (row.intent.accountId, row.intent.strategyId) = some capacity
  checkpointFound : t.projected.projections.checkpoints.get row.intent.accountId = some checkpoint
  reconciled : checkpoint.pendingCommandsReconciledAt = some reconciledAt
  settled : commandsSettled t.workflows row.intent.accountId reconciledAt = true
  positionsSettled : settledBehind PositionSnapshot.observedAt t.projected.projections.positions.latest
    row.intent.accountId checkpoint.positionsObservedAt = true
  ordersSettled : settledBehind OrderSnapshot.observedAt t.projected.projections.orders.latest
    row.intent.accountId checkpoint.ordersObservedAt = true
  covered : t.symbolsCovered row.intent = true

variable {t : RiskTables P F D J} {row : IntentRow F}

theorem ready_ok (h : t.ready row = true) : Nonempty (Ready t row) := by
  simp only [RiskTables.ready, RiskTables.accountReady, Bool.and_eq_true, decide_eq_true_eq,
    Bool.not_eq_true', Option.any_eq_true, Option.isSome_iff_exists] at h
  obtain ⟨⟨⟨⟨hstatus, hwaiting⟩, ⟨⟨account, haccount⟩, capacity, hcapacity⟩, checkpoint, hcheckpoint,
    ⟨⟨reconciledAt, hreconciled, hsettled⟩, hpositions⟩, horders⟩, -⟩, hcovered⟩ := h
  exact ⟨account, capacity, checkpoint, reconciledAt, hstatus, hwaiting, haccount, hcapacity,
    hcheckpoint, hreconciled, hsettled, hpositions, horders, hcovered⟩

theorem nextPending_ready {intentId : IntentId} (h : nextPendingRiskIntentId t = some intentId) :
    ∃ row, t.workflows.intents.get intentId = some row ∧ Nonempty (Ready t row) := by
  obtain ⟨row, hhead, rfl⟩ := Option.map_eq_some_iff.mp h
  obtain ⟨hmem, hready⟩ := List.mem_filter.mp (mem_sortBy.mp (List.mem_of_mem_head? hhead))
  exact ⟨row, Table.get_eq_some.mpr ⟨hmem, rfl⟩, ready_ok hready⟩

theorem covers_iff {accountId : AccountId} {symbol : SymbolCode} :
    t.covers accountId symbol = true ↔
      (∃ r ∈ t.projected.projections.symbols.rows,
        r.payload.accountId = accountId ∧ r.payload.symbol = symbol) ∧
      ∃ r ∈ t.markets.rows, r.payload.accountId = accountId ∧ r.payload.snapshot.symbol = symbol := by
  simp only [RiskTables.covers, Bool.and_eq_true, List.any_eq_true, beq_iff_eq]

theorem settledBehind_iff {S : Type} {key : S → AccountId × String} {observedAt : S → Int}
    {latest : LatestTable key} {accountId : AccountId} {watermark : Int} :
    settledBehind observedAt latest accountId watermark = true ↔
      ∀ r ∈ latest.rows, (key r.payload).1 = accountId → observedAt r.payload ≤ watermark := by
  simp only [settledBehind, Bool.not_eq_true', List.any_eq_false, Bool.and_eq_true, beq_iff_eq,
    decide_eq_true_eq, not_and, Int.not_lt, gt_iff_lt]

theorem commandsSettled_iff {t : WorkflowTables P F} {accountId : AccountId} {reconciledAt : Int} :
    commandsSettled t accountId reconciledAt = true ↔
      ∀ r ∈ t.commands.rows, r.command.accountId = accountId →
        ∃ state, t.states.get r.command.commandId = some state ∧ state.updatedAt ≤ reconciledAt := by
  simp only [commandsSettled, Bool.not_eq_true', List.any_eq_false, Bool.and_eq_true, beq_iff_eq,
    not_and]
  refine forall₂_congr fun r _ => forall_congr' fun _ => ?_
  cases t.states.get r.command.commandId with
  | none => simp only [Option.all_none, not_true_eq_false, reduceCtorEq, false_and, exists_false]
  | some state =>
    simp only [Option.all_some, decide_eq_true_eq, Int.not_lt, gt_iff_lt, Option.some.injEq,
      exists_eq_left']

/-! ## the commands in flight -/

section
variable {t : WorkflowTables P F} {accountId : AccountId} {row : CommandRow F}
  {state : ExecutionCommandState} {value : PendingCommandSnapshot F} {reconciledAt : Int}

theorem StatesOwned.identity (h : StatesOwned t) (hrow : row ∈ t.commands.rows)
    (hstate : t.states.get row.command.commandId = some state) :
    stateIdentity state = commandIdentity row := by
  obtain ⟨hmem, hid⟩ := Table.get_eq_some.mp hstate
  obtain ⟨owner, howner, hsame⟩ := h state hmem
  have hcommand : state.commandId = owner.command.commandId := congrArg Prod.fst hsame
  rw [List.inj_on_of_nodup_map t.commands.keyed hrow howner (hid.symm.trans hcommand)]
  exact hsame

theorem pendingCommand_ok (howned : StatesOwned t) (hrow : row ∈ t.commands.rows)
    (haccount : row.command.accountId = accountId)
    (hstate : t.states.get row.command.commandId = some state) :
    pendingCommand t accountId row.command.commandId = .ok value ↔
      ((0 ≤ state.createdAt ∧ state.createdAt ≤ state.updatedAt) ∧ InWindow state) ∧
        value = ⟨row, state⟩ := by
  have hidentity := howned.identity hrow hstate
  have hstateAccount : state.accountId = accountId :=
    (congrArg (fun i => i.2.1) hidentity).trans haccount
  have hget : t.commands.get row.command.commandId = some row :=
    Table.get_eq_some.mpr ⟨hrow, rfl⟩
  simp only [pendingCommand, bind_ok, exists_unit, need_ok, mapError_ok, pure_ok, hget, hstate,
    Option.some.injEq, exists_eq_left']
  constructor
  · rintro ⟨hvalid, -, rfl⟩
    exact ⟨(validatePersistedCommandState_iff.mp hvalid).2, rfl⟩
  · rintro ⟨hreadable, rfl⟩
    refine ⟨validatePersistedCommandState_iff.mpr ⟨hidentity, hreadable⟩, reject_ok.mpr ?_, rfl⟩
    rintro (hne | hne)
    · exact hne haccount
    · exact hne hstateAccount

theorem mem_accountCommands :
    row ∈ accountCommands t accountId ↔ row ∈ t.commands.rows ∧ row.command.accountId = accountId := by
  rw [accountCommands, mem_sortBy, List.mem_filter, beq_iff_eq]

theorem inFlight_iff : inFlight t.states row = true ↔
    ∃ state, t.states.get row.command.commandId = some state ∧
      Risk.commandStateIsTerminal state.status = false := by
  simp only [inFlight, Option.any_eq_true, Bool.not_eq_true']

theorem loadPendingCommands_ok (howned : StatesOwned t)
    (hsettled : commandsSettled t accountId reconciledAt = true) (intentId : IntentId)
    {values : List (PendingCommandSnapshot F)} :
    loadPendingCommands t intentId accountId reconciledAt = .ok values ↔
      List.Forall₂ (fun row value => pendingCommand t accountId row.command.commandId = .ok value)
        ((accountCommands t accountId).filter (inFlight t.states)) values := by
  have hsettled := commandsSettled_iff.mp hsettled
  have hstated : (accountCommands t accountId).find? (fun row =>
      (t.states.get row.command.commandId).isNone) = none := by
    refine List.find?_eq_none.mpr fun row hrow => ?_
    obtain ⟨hmem, haccount⟩ := mem_accountCommands.mp hrow
    obtain ⟨state, hstate, -⟩ := hsettled row hmem haccount
    rw [hstate]
    exact Bool.false_ne_true
  have hquiet : ¬ ∃ state ∈ t.states.rows, state.accountId = accountId ∧
      state.updatedAt > reconciledAt := by
    rintro ⟨state, hstate, haccount, hlater⟩
    obtain ⟨row, hrow, hsame⟩ := howned state hstate
    have hid : state.commandId = row.command.commandId := congrArg Prod.fst hsame
    have hrowAccount : state.accountId = row.command.accountId := congrArg (fun i => i.2.1) hsame
    obtain ⟨found, hfound, hle⟩ := hsettled row hrow (hrowAccount.symm.trans haccount)
    rw [← hid, Table.get_eq_some.mpr ⟨hstate, rfl⟩] at hfound
    cases hfound
    omega
  unfold loadPendingCommands
  simp only [hstated, Option.toList_none, bind_ok, exists_unit, collect_ok]
  constructor
  · rintro ⟨-, -, h⟩
    exact h
  · exact fun h => ⟨rfl, reject_ok.mpr hquiet, h⟩

theorem mem_pending (howned : StatesOwned t) {intentId : IntentId}
    (hsettled : commandsSettled t accountId reconciledAt = true)
    {values : List (PendingCommandSnapshot F)}
    (hload : loadPendingCommands t intentId accountId reconciledAt = .ok values) :
    value ∈ values ↔ InFlight t accountId value.command value.state := by
  have hall := (loadPendingCommands_ok howned hsettled intentId).mp hload
  constructor
  · intro hvalue
    obtain ⟨row, hrow, hread⟩ := forall₂_mem_right hall hvalue
    obtain ⟨hmem, hflight⟩ := List.mem_filter.mp hrow
    obtain ⟨hstored, haccount⟩ := mem_accountCommands.mp hmem
    obtain ⟨state, hstate, hunfinished⟩ := inFlight_iff.mp hflight
    obtain ⟨-, rfl⟩ := (pendingCommand_ok howned hstored haccount hstate).mp hread
    exact ⟨hstored, haccount, hstate, hunfinished⟩
  · intro h
    have hrow : value.command ∈ (accountCommands t accountId).filter (inFlight t.states) :=
      List.mem_filter.mpr ⟨mem_accountCommands.mpr ⟨h.stored, h.account⟩,
        inFlight_iff.mpr ⟨value.state, h.found, h.unfinished⟩⟩
    obtain ⟨read, hmem, hread⟩ := forall₂_mem_left hall hrow
    obtain ⟨-, rfl⟩ := (pendingCommand_ok howned h.stored h.account h.found).mp hread
    exact hmem

theorem loadPendingCommands_returns (howned : StatesOwned t)
    (hsettled : commandsSettled t accountId reconciledAt = true) (intentId : IntentId) :
    (∃ values, loadPendingCommands t intentId accountId reconciledAt = .ok values) ↔
      CommandsReadable t accountId := by
  constructor
  · rintro ⟨values, hload⟩ row state h
    have hall := (loadPendingCommands_ok howned hsettled intentId).mp hload
    have hrow : row ∈ (accountCommands t accountId).filter (inFlight t.states) :=
      List.mem_filter.mpr ⟨mem_accountCommands.mpr ⟨h.stored, h.account⟩,
        inFlight_iff.mpr ⟨state, h.found, h.unfinished⟩⟩
    obtain ⟨read, -, hread⟩ := forall₂_mem_left hall hrow
    exact ((pendingCommand_ok howned h.stored h.account h.found).mp hread).1
  · intro hreadable
    have hpending : ∀ row ∈ (accountCommands t accountId).filter (inFlight t.states),
        ∃ value, pendingCommand t accountId row.command.commandId = .ok value := by
      intro row hrow
      obtain ⟨hmem, hflight⟩ := List.mem_filter.mp hrow
      obtain ⟨hstored, haccount⟩ := mem_accountCommands.mp hmem
      obtain ⟨state, hstate, hunfinished⟩ := inFlight_iff.mp hflight
      exact ⟨_, (pendingCommand_ok howned hstored haccount hstate).mpr
        ⟨hreadable row state ⟨hstored, haccount, hstate, hunfinished⟩, rfl⟩⟩
    obtain ⟨values, hvalues⟩ := exists_forall₂ hpending
    exact ⟨values, (loadPendingCommands_ok howned hsettled intentId).mpr hvalues⟩

end

end

/-! ## the members of the full sets -/

section
variable {D S : Type} [DecidableEq D] {key : S → AccountId × String} {kind : SetKind D key}
  {tables : SetTables key} {checkpoint : AccountReconciliationCheckpoint D}

theorem mem_memberRows {accountId : AccountId} {row : MemberRow S} :
    row ∈ memberRows tables accountId ↔ row ∈ membersOf tables accountId := by
  rw [memberRows, mem_sortBy, membersOf]

theorem loadMembers_returns (h : validateMembership kind tables checkpoint = .ok ()) :
    loadMembers kind tables checkpoint =
      .ok ((memberRows tables checkpoint.accountId).map MemberRow.payload) := by
  simp only [validateMembership, bind_ok, exists_unit, each_ok] at h
  obtain ⟨hrows, -, -⟩ := h
  refine collect_ok.mpr (List.forall₂_map_right_iff.mpr (List.forall₂_same.mpr fun row hrow => ?_))
  have hrow := hrows row hrow
  simp only [validateMemberRow, bind_ok, exists_unit] at hrow
  have haliases := reject_ok.mp hrow.1
  refine bind_ok.mpr ⟨(), reject_ok.mpr ?_, rfl⟩
  rintro (hwatermark | haccount | hobserved)
  · exact haliases (.inl hwatermark)
  · exact haliases (.inr (.inr haccount))
  · refine haliases (.inr (.inl fun hsame => hobserved ?_))
    rw [hsame]
    exact not_not.mp fun hne => haliases (.inl hne)

theorem member_latest (hinj : Function.Injective kind.digest)
    (h : validateMembership kind tables checkpoint = .ok ())
    (hsettled : ∀ r ∈ tables.latest.rows, (key r.payload).1 = checkpoint.accountId →
      kind.observedAt r.payload ≤ kind.watermark checkpoint)
    {row : MemberRow S} (hrow : row ∈ membersOf tables checkpoint.accountId) :
    ∃ latest ∈ tables.latest.rows,
      latest.payload = row.payload ∧ (key row.payload).1 = checkpoint.accountId := by
  simp only [validateMembership, bind_ok, exists_unit, each_ok] at h
  have hvalid := h.1 row (mem_memberRows.mpr hrow)
  simp only [validateMemberRow, bind_ok, exists_unit] at hvalid
  obtain ⟨haliases, hagrees⟩ := hvalid
  have haliases := reject_ok.mp haliases
  have hagrees := Bool.not_eq_true _ ▸ reject_ok.mp hagrees
  rw [Option.all_eq_false] at hagrees
  obtain ⟨latest, hget, hlatest⟩ := hagrees
  obtain ⟨hmem, hkey⟩ := Table.get_eq_some.mp hget
  have hle := hsettled latest hmem (congrArg Prod.fst hkey)
  have hwatermark : row.setObservedAt = kind.watermark checkpoint :=
    not_not.mp fun hne => haliases (.inl hne)
  rw [decide_eq_false_iff_not, hwatermark, not_or, not_and_or, not_not, not_lt] at hlatest
  obtain ⟨hge, hdigest⟩ := hlatest
  have hsame := hinj (hdigest.resolve_left (not_not.mpr (le_antisymm hle hge)))
  refine ⟨latest, hmem, hsame, ?_⟩
  rw [← hsame, hkey]

end

/-! ## the required symbols -/

section
variable {S : Type} {symbolOf : S → SymbolCode} {required : List SymbolCode} {values : List S}

theorem loadRequired_returns (hvalues : values.Nodup) (entity missing : String)
    (intentId : IntentId) (accountId : AccountId) :
    (∃ found, loadRequired symbolOf entity missing intentId accountId required values = .ok found) ↔
      (∀ x ∈ values, ∀ y ∈ values, symbolOf x ∈ required → symbolOf x = symbolOf y → x = y) ∧
      ∀ symbol ∈ required, ∃ x ∈ values, symbolOf x = symbol := by
  have hfilter : ∀ x, x ∈ values.filter (fun value => required.contains (symbolOf value)) ↔
      x ∈ values ∧ symbolOf x ∈ required := by
    intro x
    rw [List.mem_filter, List.contains_iff_mem]
  have hapart : ((values.filter fun value => required.contains (symbolOf value)).map symbolOf).Nodup ↔
      ∀ x ∈ values, ∀ y ∈ values, symbolOf x ∈ required → symbolOf x = symbolOf y → x = y := by
    rw [List.nodup_map_iff_inj_on (hvalues.filter _)]
    constructor
    · intro h x hx y hy hsymbol hsame
      exact h x ((hfilter x).mpr ⟨hx, hsymbol⟩) y ((hfilter y).mpr ⟨hy, hsame ▸ hsymbol⟩) hsame
    · intro h x hx y hy hsame
      obtain ⟨hx, hsymbol⟩ := (hfilter x).mp hx
      exact h x hx y ((hfilter y).mp hy).1 hsymbol hsame
  have hcomplete : (¬ ∃ symbol ∈ required, symbol ∉
      (values.filter fun value => required.contains (symbolOf value)).map symbolOf) ↔
      ∀ symbol ∈ required, ∃ x ∈ values, symbolOf x = symbol := by
    simp only [not_exists, not_and, not_not]
    refine forall₂_congr fun symbol hsymbol => ?_
    rw [List.mem_map]
    constructor
    · rintro ⟨x, hx, rfl⟩
      exact ⟨x, ((hfilter x).mp hx).1, rfl⟩
    · rintro ⟨x, hx, rfl⟩
      exact ⟨x, (hfilter x).mpr ⟨hx, hsymbol⟩, rfl⟩
  unfold loadRequired
  rw [← hapart, ← hcomplete]
  simp only [bind_ok, exists_unit, eachApart_key_ok, pure_ok]
  constructor
  · rintro ⟨found, ⟨hnodup, -⟩, hall, -⟩
    exact ⟨hnodup, reject_ok.mp hall⟩
  · rintro ⟨hnodup, hall⟩
    exact ⟨_, ⟨hnodup, fun _ _ => ⟨trivial, trivial⟩⟩, reject_ok.mpr hall, rfl⟩

end

section
variable {P F D J : Type} [DecidableEq P] [DecidableEq F] [DecidableEq D] [DecidableEq J] [F64 F]
  {t : RiskTables P F D J} {intent : TradeIntent F}

theorem mem_requiredSymbols {commands : List (PendingCommandSnapshot F)}
    (hcommands : ∀ value, value ∈ commands ↔
      InFlight t.workflows intent.accountId value.command value.state) {symbol : SymbolCode} :
    symbol ∈ requiredSymbols intent
      ((memberRows t.projected.projections.positions intent.accountId).map MemberRow.payload)
      ((memberRows t.projected.projections.orders intent.accountId).map MemberRow.payload)
      commands ↔ Required t intent symbol := by
  rw [requiredSymbols, mem_orderedSet]
  simp only [List.mem_append, List.mem_map, List.mem_filter, Bool.and_eq_true, Bool.not_eq_true']
  constructor
  · rintro (((h | ⟨_, ⟨row, hrow, rfl⟩, rfl⟩) | ⟨_, ⟨⟨row, hrow, rfl⟩, hactive⟩, rfl⟩) |
      ⟨value, ⟨hvalue, hopening, -⟩, rfl⟩)
    · exact .intended h
    · exact .position (mem_memberRows.mp hrow)
    · exact .order (mem_memberRows.mp hrow) hactive
    · exact .command ((hcommands value).mp hvalue) hopening
  · rintro (h | h | ⟨h, hactive⟩ | ⟨h, hopening⟩)
    · exact .inl (.inl (.inl h))
    · exact .inl (.inl (.inr ⟨_, ⟨_, mem_memberRows.mpr h, rfl⟩, rfl⟩))
    · exact .inl (.inr ⟨_, ⟨⟨_, mem_memberRows.mpr h, rfl⟩, hactive⟩, rfl⟩)
    · exact .inr ⟨⟨_, _⟩, ⟨(hcommands _).mpr h, hopening, h.unfinished⟩, rfl⟩

theorem Ready.covers {digests : Digests F D} (hdist : digests.Distinct) {row : IntentRow F}
    (h : Ready t row)
    (hpositions : validateMembership (positionKind digests) t.projected.projections.positions
      h.checkpoint = .ok ())
    (horders : validateMembership (orderKind digests) t.projected.projections.orders
      h.checkpoint = .ok ())
    (haccount : h.checkpoint.accountId = row.intent.accountId) {symbol : SymbolCode}
    (hrequired : Required t row.intent symbol) : t.covers row.intent.accountId symbol = true := by
  have hcovered := h.covered
  simp only [RiskTables.symbolsCovered, Bool.and_eq_true, List.all_eq_true, Bool.or_eq_true,
    bne_iff_ne, Bool.not_eq_true'] at hcovered
  obtain ⟨⟨⟨hintended, hposition⟩, horder⟩, hcommand⟩ := hcovered
  have hpositionsSettled := settledBehind_iff.mp h.positionsSettled
  have hordersSettled := settledBehind_iff.mp h.ordersSettled
  rw [← haccount] at hpositionsSettled hordersSettled
  cases hrequired with
  | intended hin => exact hintended symbol hin
  | @position member hmember =>
    rw [← haccount] at hmember
    obtain ⟨latest, hlatest, hsame, howner⟩ :=
      member_latest hdist.positions.single hpositions hpositionsSettled hmember
    have howner : member.payload.accountId = row.intent.accountId := howner.trans haccount
    rcases hposition latest hlatest with hne | hcovers
    · rw [hsame] at hne
      exact absurd howner hne
    · rw [hsame] at hcovers
      exact hcovers
  | @order member hmember hactive =>
    rw [← haccount] at hmember
    obtain ⟨latest, hlatest, hsame, howner⟩ :=
      member_latest hdist.orders.single horders hordersSettled hmember
    have howner : member.payload.accountId = row.intent.accountId := howner.trans haccount
    rcases horder latest hlatest with (hne | hinactive) | hcovers
    · rw [hsame] at hne
      exact absurd howner hne
    · rw [hsame, hactive] at hinactive
      cases hinactive
    · rw [hsame] at hcovers
      exact hcovers
  | @command command state hflight hopening =>
    rcases hcommand command hflight.stored with ((hne | hclosing) | hfinished) | hcovers
    · exact absurd hflight.account hne
    · rw [hopening] at hclosing
      cases hclosing
    · rw [inFlight_iff.mpr ⟨state, hflight.found, hflight.unfinished⟩] at hfinished
      cases hfinished
    · exact hcovers

theorem payloads_keyed {K S : Type} {key : S → K} (table : LatestTable key) :
    ((table.rows.map LatestRow.payload).map key).Nodup := by
  rw [List.map_map]
  exact table.keyed

theorem loadRequiredMetadata_returns (intentId : IntentId) {required : List SymbolCode}
    (hcovers : ∀ symbol ∈ required, t.covers intent.accountId symbol = true)
    (hrequired : ∀ symbol, symbol ∈ required ↔ Required t intent symbol) :
    (∃ found, loadRequiredMetadata t intentId intent.accountId required = .ok found) ↔
      MetadataApart t intent := by
  have hkeyed := payloads_keyed t.projected.projections.symbols
  have hmem : ∀ x, x ∈ sortBy SymbolMetadataSnapshot.brokerSymbol
      ((t.projected.projections.symbols.rows.map LatestRow.payload).filter fun metadata =>
        metadata.accountId == intent.accountId) ↔
      (∃ r ∈ t.projected.projections.symbols.rows, r.payload = x) ∧ x.accountId = intent.accountId := by
    intro x
    rw [mem_sortBy, List.mem_filter, List.mem_map, beq_iff_eq]
  have hnodup := ((sortBy_perm SymbolMetadataSnapshot.brokerSymbol _).nodup_iff).mpr
    ((List.Nodup.of_map _ hkeyed).filter fun metadata => metadata.accountId == intent.accountId)
  rw [loadRequiredMetadata, loadRequired_returns hnodup]
  constructor
  · rintro ⟨hapart, -⟩ x hx y hy hxa hya hsame hsymbol
    exact congrArg SymbolMetadataSnapshot.brokerSymbol
      (hapart x.payload ((hmem _).mpr ⟨⟨x, hx, rfl⟩, hxa⟩) y.payload
        ((hmem _).mpr ⟨⟨y, hy, rfl⟩, hya⟩) ((hrequired _).mpr hsymbol) hsame)
  · intro hapart
    refine ⟨fun x hx y hy hsymbol hsame => ?_, fun symbol hsymbol => ?_⟩
    · obtain ⟨⟨r, hr, rfl⟩, hxa⟩ := (hmem x).mp hx
      obtain ⟨⟨q, hq, rfl⟩, hya⟩ := (hmem y).mp hy
      have hbroker := hapart r hr q hq hxa hya hsame ((hrequired _).mp hsymbol)
      exact List.inj_on_of_nodup_map hkeyed (List.mem_map_of_mem hr) (List.mem_map_of_mem hq)
        (Prod.ext (hxa.trans hya.symm) hbroker)
    · obtain ⟨⟨r, hr, haccount, hsame⟩, -⟩ := covers_iff.mp (hcovers symbol hsymbol)
      exact ⟨r.payload, (hmem _).mpr ⟨⟨r, hr, rfl⟩, haccount⟩, hsame⟩

theorem loadRequiredMarkets_returns (intentId : IntentId) {required : List SymbolCode}
    (hcovers : ∀ symbol ∈ required, t.covers intent.accountId symbol = true) :
    ∃ found, loadRequiredMarkets t intentId intent.accountId required = .ok found := by
  have hkeyed := payloads_keyed t.markets
  have hmem : ∀ x, x ∈ sortBy (fun market : AccountMarketSnapshot F => market.snapshot.symbol)
      ((t.markets.rows.map LatestRow.payload).filter fun market =>
        market.accountId == intent.accountId) ↔
      (∃ r ∈ t.markets.rows, r.payload = x) ∧ x.accountId = intent.accountId := by
    intro x
    rw [mem_sortBy, List.mem_filter, List.mem_map, beq_iff_eq]
  have hnodup := ((sortBy_perm (fun market : AccountMarketSnapshot F => market.snapshot.symbol)
    _).nodup_iff).mpr
    ((List.Nodup.of_map _ hkeyed).filter fun market => market.accountId == intent.accountId)
  refine (loadRequired_returns hnodup _ _ _ _).mpr ⟨fun x hx y hy _ hsame => ?_, fun symbol hsymbol => ?_⟩
  · obtain ⟨⟨r, hr, rfl⟩, hxa⟩ := (hmem x).mp hx
    obtain ⟨⟨q, hq, rfl⟩, hya⟩ := (hmem y).mp hy
    exact List.inj_on_of_nodup_map hkeyed (List.mem_map_of_mem hr) (List.mem_map_of_mem hq)
      (Prod.ext (hxa.trans hya.symm) hsame)
  · obtain ⟨-, r, hr, haccount, hsame⟩ := covers_iff.mp (hcovers symbol hsymbol)
    exact ⟨r.payload, (hmem _).mpr ⟨⟨r, hr, rfl⟩, haccount⟩, hsame⟩

/-! ## the chosen intent -/

theorem rejectPartialState_ok {S : Type} {key : S → AccountId × String} {kind : SetKind D key}
    {tables : SetTables key} {checkpoint : AccountReconciliationCheckpoint D} {intentId : IntentId}
    (hsettled : settledBehind kind.observedAt tables.latest checkpoint.accountId
      (kind.watermark checkpoint) = true) :
    rejectPartialState kind tables checkpoint intentId = .ok () := by
  refine reject_ok.mpr ?_
  rintro ⟨r, hr, haccount, hlater⟩
  exact absurd (settledBehind_iff.mp hsettled r hr haccount) (not_le.mpr hlater)

variable {E : Type} [DecidableEq E] {w : Writers P F D E J}

theorem Ready.load_iff (hdist : w.digests.Distinct) (hsound : Sound w t) {row : IntentRow F}
    (h : Ready t row) :
    (∃ snapshot, loadInputs w.digests w.breaker t row.toStoredTradeIntent = .ok snapshot) ↔
      MetadataApart t row.intent ∧ CommandsReadable t.workflows row.intent.accountId := by
  have hcheckpoint := hsound.projected.reached.projected.fetchCheckpoint
    (hsound.projected.recorded fun _ he => he) hsound.projected.coherent row.intent.accountId
  have haccount : h.checkpoint.accountId = row.intent.accountId := Table.key_of_get h.checkpointFound
  -- the reader of the checkpoint has compared the members with the latest rows
  have hmembers : validateMembership (positionKind w.digests) t.projected.projections.positions
        h.checkpoint = .ok () ∧
      validateMembership (orderKind w.digests) t.projected.projections.orders h.checkpoint =
        .ok () := by
    have hread := hcheckpoint
    rw [h.checkpointFound] at hread
    simp only [fetchCheckpoint, h.checkpointFound, bind_ok, exists_unit,
      validateCheckpointIntegrity] at hread
    obtain ⟨⟨-, source, -, -, -, hpositions, horders⟩, -⟩ := hread
    exact ⟨hpositions, horders⟩
  obtain ⟨hpositions, horders⟩ := hmembers
  have hcovers {symbol : SymbolCode} (hsymbol : Required t row.intent symbol) :=
    h.covers hdist hpositions horders haccount hsymbol
  obtain ⟨breaker, hbreaker⟩ := hsound.breakers.fetch
  have hcapacity := hsound.capacities.fetch row.intent.accountId row.intent.strategyId
  have hpartial : rejectPartialState (positionKind w.digests) t.projected.projections.positions
        h.checkpoint row.intent.intentId = .ok () ∧
      rejectPartialState (orderKind w.digests) t.projected.projections.orders h.checkpoint
        row.intent.intentId = .ok () := by
    have hpositionsSettled := h.positionsSettled
    have hordersSettled := h.ordersSettled
    rw [← haccount] at hpositionsSettled hordersSettled
    exact ⟨rejectPartialState_ok hpositionsSettled, rejectPartialState_ok hordersSettled⟩
  have hpositionsLoaded := loadMembers_returns hpositions
  have hordersLoaded := loadMembers_returns horders
  rw [haccount] at hpositionsLoaded hordersLoaded
  have hrequired {commands : List (PendingCommandSnapshot F)}
      (hload : loadPendingCommands t.workflows row.intent.intentId row.intent.accountId
        h.reconciledAt = .ok commands) (symbol : SymbolCode) :
      symbol ∈ requiredSymbols row.intent
        ((memberRows t.projected.projections.positions row.intent.accountId).map MemberRow.payload)
        ((memberRows t.projected.projections.orders row.intent.accountId).map MemberRow.payload)
        commands ↔ Required t row.intent symbol :=
    mem_requiredSymbols fun _ => mem_pending hsound.states h.settled hload
  simp only [loadInputs, bind_ok, exists_unit, need_ok, mapError_ok, pure_ok, h.accountFound,
    hcheckpoint, h.checkpointFound, h.reconciled, hpartial.1, hpartial.2, hpositionsLoaded,
    hordersLoaded, hbreaker, hcapacity, h.capacityFound, Option.map_some, Option.some.injEq,
    Except.ok.injEq, exists_eq_left', true_and]
  rw [← loadPendingCommands_returns hsound.states h.settled row.intent.intentId]
  constructor
  · rintro ⟨snapshot, commands, hload, metadata, hmetadata, -⟩
    refine ⟨(loadRequiredMetadata_returns row.intent.intentId (fun symbol hsymbol =>
      hcovers ((hrequired hload symbol).mp hsymbol)) (hrequired hload)).mp ⟨metadata, hmetadata⟩,
      commands, hload⟩
  · rintro ⟨hapart, commands, hload⟩
    have hall : ∀ symbol ∈ requiredSymbols row.intent _ _ commands,
        t.covers row.intent.accountId symbol = true := fun symbol hsymbol =>
      hcovers ((hrequired hload symbol).mp hsymbol)
    obtain ⟨metadata, hmetadata⟩ := (loadRequiredMetadata_returns row.intent.intentId hall
      (hrequired hload)).mpr hapart
    obtain ⟨markets, hmarkets⟩ := loadRequiredMarkets_returns row.intent.intentId hall
    exact ⟨_, commands, hload, metadata, hmetadata, markets, hmarkets, rfl⟩

/-- In every store that accepted calls lead to, the chosen intent is loaded exactly if no symbol it
requires has two broker symbols of its account and the times of the account's commands in flight lie
in their lifecycles. -/
theorem chosen_intent_loads_iff (hdist : w.digests.Distinct) {calls : List (RiskCall F J)}
    (hrun : riskRun w (.empty P F D J) calls = .ok t) {intentId : IntentId}
    (hnext : nextPendingRiskIntentId t = some intentId) :
    ∃ row, t.workflows.intents.get intentId = some row ∧
      ((∃ snapshot, loadTrustedRiskSnapshot w.digests w.breaker t intentId = .ok (some snapshot)) ↔
        MetadataApart t row.intent ∧ CommandsReadable t.workflows row.intent.accountId) := by
  have hsound : Sound w t := Sound.empty.run hdist hrun
  obtain ⟨row, hget, ⟨hready⟩⟩ := nextPending_ready hnext
  refine ⟨row, hget, ?_⟩
  have hwaits : ¬ (row.toStoredTradeIntent.status ≠ .accepted ∨ t.riskResultExists intentId = true) := by
    rintro (hstatus | hexists)
    · exact hstatus hready.status
    · rw [← Table.key_of_get hget, hready.waiting] at hexists
      cases hexists
  have hload : loadTrustedRiskSnapshot w.digests w.breaker t intentId =
      (loadInputs w.digests w.breaker t row.toStoredTradeIntent).map some := by
    unfold loadTrustedRiskSnapshot WorkflowTables.fetchTradeIntentById
    rw [hget]
    exact if_neg hwaits
  rw [hload, ← hready.load_iff hdist hsound]
  cases loadInputs w.digests w.breaker t row.toStoredTradeIntent with
  | error e =>
    constructor
    · rintro ⟨snapshot, h⟩
      cases h
    · rintro ⟨snapshot, h⟩
      cases h
  | ok snapshot => exact ⟨fun _ => ⟨snapshot, rfl⟩, fun _ => ⟨snapshot, rfl⟩⟩

end

/-! ## two broker symbols of one metal -/

/-- a complete result for all commands of the account -/
def waitingBundle : NewReconciliationResult ℚ where
  result := ⟨"run", "account", none, none, 20, some ⟨"account", 1000, 1000, 0, 1000, "USD", 20⟩, [],
    [], [], []⟩
  evaluation := ⟨"run", "account", some 20, .completed, [], []⟩
  completeness := ⟨true, true⟩
  eventMetadata := sampleMetadata "result" "reconciliation.result" "reconciliation" 20 21

def waitingIntent : TradeIntent ℚ := { Risk.goldIntent with accountId := "account" }

/-- gold under a broker symbol, as an event of that name -/
def goldUnder (brokerSymbol : String) : RiskCall ℚ Breaker.CircuitBreakerSnapshotV1 :=
  .projection (.ingest (sampleMetadata brokerSymbol "symbol.metadata" "symbol" 12 13) (.symbol
    { Risk.goldMetadata with accountId := "account", brokerSymbol := brokerSymbol, observedAt := 12 }))

/-- everything that an intent for gold waits for, with metadata under the given broker symbols -/
def waitingCalls (bundle : NewReconciliationResult ℚ) (brokerSymbols : List String) :
    List (RiskCall ℚ Breaker.CircuitBreakerSnapshotV1) :=
  .projection (.createRun sampleRun) :: brokerSymbols.map goldUnder ++
    [.projection (.commitResult bundle),
      .market ⟨"account", ⟨"XAUUSD", none, 2000, 2001, 1, 21⟩⟩ 22,
      .breaker ⟨none, Breaker.circuitBreakerSnapshotSchemaVersionV1, "CLOSED", 0, 5,
        Breaker.CircuitBreakerState.new.durableSnapshotV1⟩,
      .capacity ⟨⟨"account", "strategy-1", 20, 0, 0, 1, 1, 3⟩, 21⟩,
      .intent ⟨waitingIntent, .accepted, 9600⟩]

def plainWriters :
    Writers String ℚ (Document ℚ) (MarketSnapshot ℚ) Breaker.CircuitBreakerSnapshotV1 where
  digests := documentDigests ℚ
  market := id
  breaker := Breaker.plainCodec
  journal := goldJournalCodec

/-- the intent that is chosen after the calls, and how many positions, orders and commands in flight
its load finds -/
def waitingOutcome (calls : List (RiskCall ℚ Breaker.CircuitBreakerSnapshotV1)) :
    Option (Option IntentId × Except LoadError (Option (Nat × Nat × Nat))) :=
  (riskRun plainWriters (.empty _ _ _ _) calls).toOption.map fun t =>
    (nextPendingRiskIntentId t,
      (loadTrustedRiskSnapshot plainWriters.digests plainWriters.breaker t "intent-1").map
        fun found => found.map fun s => (s.positions.length, s.orders.length, s.pendingCommands.length))

theorem waitingOutcome_run {calls : List (RiskCall ℚ Breaker.CircuitBreakerSnapshotV1)}
    {next : Option IntentId} {loaded : Except LoadError (Option (Nat × Nat × Nat))}
    (h : waitingOutcome calls = some (next, loaded)) :
    ∃ t, riskRun plainWriters (.empty _ _ _ _) calls = .ok t ∧ nextPendingRiskIntentId t = next ∧
      (loadTrustedRiskSnapshot plainWriters.digests plainWriters.breaker t "intent-1").map
        (fun found => found.map fun s =>
          (s.positions.length, s.orders.length, s.pendingCommands.length)) = loaded := by
  obtain ⟨t, hrun, hresult⟩ := Option.map_eq_some_iff.mp h
  simp only [Prod.mk.injEq] at hresult
  exact ⟨t, ok_of_toOption hrun, hresult⟩

/-- the result with a position in gold and an order for it -/
def heldBundle : NewReconciliationResult ℚ :=
  { waitingBundle with
    result := { waitingBundle.result with
      positions :=
        [{ accountId := "account", symbol := "XAUUSD", positionId := "position-1", side := .buy
           lots := 1, openPrice := 1990, sl := none, tp := none, floatingPnl := 10
           observedAt := 20 }]
      orders :=
        [{ accountId := "account", terminalId := none, clientId := none, symbol := "XAUUSD"
           brokerSymbol := none, brokerOrderId := "order-1", positionTicket := none
           commandId := none, planId := none, legId := none, idempotencyKey := none, side := .sell
           orderType := .limit, status := .placed, requestedLots := 1, filledLots := 0
           remainingLots := 1, price := some 2100, sl := none, tp := none, createdAt := none
           updatedAt := none, observedAt := 20 }] } }

/-- an earlier intent of the account was approved, and a command of it is in flight -/
def earlierCalls : List (RiskCall ℚ Breaker.CircuitBreakerSnapshotV1) :=
  [.intent ⟨{ Risk.pairRequest.intent with
      intentId := "intent-0", accountId := "account", idempotencyKey := "intent-key-0" },
      .accepted, 9500⟩,
    .riskResult { Risk.pairResult with
      riskId := "risk-0", intentId := "intent-0", accountId := "account" },
    .command ⟨{ sampleCommand with
      accountId := "account", symbol := "XAUUSD", planId := none, legId := none }, "risk-0", 10⟩,
    .commandState
      { commandId := "cmd", accountId := "account", planId := none, legId := none, status := .created
        deliveryAttempts := 0, lastDeliveryError := none, createdAt := 10, dispatchedAt := none
        commandReceivedAt := none, reconcilingAt := none, completedAt := none, updatedAt := 10 }]

/-- under one broker symbol the chosen intent is loaded, so both conditions hold -/
theorem chosen_intent_loads_sample :
    ∃ t row snapshot,
      riskRun plainWriters (.empty _ _ _ _) (earlierCalls ++ waitingCalls heldBundle ["XAUUSD"]) =
        .ok t ∧
      nextPendingRiskIntentId t = some "intent-1" ∧
      loadTrustedRiskSnapshot plainWriters.digests plainWriters.breaker t "intent-1" =
        .ok (some snapshot) ∧
      (snapshot.positions.length, snapshot.orders.length, snapshot.pendingCommands.length)
        = (1, 1, 1) ∧
      t.workflows.intents.get "intent-1" = some row ∧ MetadataApart t row.intent ∧
      CommandsReadable t.workflows row.intent.accountId := by
  have houtcome : waitingOutcome (earlierCalls ++ waitingCalls heldBundle ["XAUUSD"]) =
      some (some "intent-1", .ok (some (1, 1, 1))) := by decide +kernel
  obtain ⟨t, hrun, hnext, hloaded⟩ := waitingOutcome_run houtcome
  obtain ⟨row, hget, hiff⟩ := chosen_intent_loads_iff documentDigests_distinct hrun hnext
  cases hload : loadTrustedRiskSnapshot plainWriters.digests plainWriters.breaker t "intent-1" with
  | error e =>
    rw [hload] at hloaded
    cases hloaded
  | ok found =>
    rw [hload] at hloaded
    obtain ⟨snapshot, rfl, hcounts⟩ := Option.map_eq_some_iff.mp (Except.ok.inj hloaded)
    exact ⟨t, row, snapshot, hrun, hnext, hload, hcounts, hget, hiff.mp ⟨snapshot, hload⟩⟩

/-- Under two broker symbols the intent is chosen, and its load is refused. -/
theorem chosen_intent_unloadable :
    ∃ t, riskRun plainWriters (.empty _ _ _ _)
        (waitingCalls waitingBundle ["XAUUSD", "XAUUSD.m"]) = .ok t ∧
      nextPendingRiskIntentId t = some "intent-1" ∧
      loadTrustedRiskSnapshot plainWriters.digests plainWriters.breaker t "intent-1" =
        .error (.store (identityConflict "risk_input.symbol_metadata" "account")) := by
  have houtcome : waitingOutcome (waitingCalls waitingBundle ["XAUUSD", "XAUUSD.m"]) = some
    (some "intent-1",
      .error (.store (identityConflict "risk_input.symbol_metadata" "account"))) := by
    decide +kernel
  obtain ⟨t, hrun, hnext, hloaded⟩ := waitingOutcome_run houtcome
  refine ⟨t, hrun, hnext, ?_⟩
  cases hload : loadTrustedRiskSnapshot plainWriters.digests plainWriters.breaker t "intent-1" with
  | ok found =>
    rw [hload] at hloaded
    cases hloaded
  | error e =>
    rw [hload] at hloaded
    exact congrArg Except.error (Except.error.inj hloaded)

end Sinan.Snapshot
