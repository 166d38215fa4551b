import Sinan.Risk.Approval
import Sinan.Risk.Returned

/-!
# The window of an approval

An approval ends at the earliest boundary of what it was observed on, so evaluating the same request
later inside its window finds every observation fresh still.  The expiry of a command on its way is no
boundary: such a command that is open when it expires is a conflict that ends the approval early.
-/

set_option linter.unusedSectionVars false

namespace Sinan.Risk

open Lib
open Breaker

section
variable {F : Type} [F64 F]

/-- the same request, evaluated at another time -/
def RiskRequest.at (request : RiskRequest F) (t : Int) : RiskRequest F :=
  { request with evaluatedAt := t }

/-! ## boundaries -/

/-- the observations of a symbol, with the ages they may reach -/
def symbolObservations (request : RiskRequest F) (symbol : SymbolCode) : List (Int × Int) :=
  ((marketOf request symbol).map fun market =>
    (market.snapshot.observedAt, request.policy.maxMarketSnapshotAgeMs)).toList ++
  ((metadataOf request symbol).map fun metadata =>
    (metadata.observedAt, request.policy.maxSymbolMetadataAgeMs)).toList

/-- the observations of the account and of the rows of its full sets -/
def accountObservations (request : RiskRequest F) : List (Int × Int) :=
  let policy := request.policy
  let marks := request.stateWatermarks
  [(request.account.observedAt, policy.maxSnapshotAgeMs),
    (marks.positionsObservedAt, policy.maxSnapshotAgeMs),
    (marks.ordersObservedAt, policy.maxOrderSnapshotAgeMs),
    (marks.pendingCommandsReconciledAt, policy.maxOrderSnapshotAgeMs),
    (request.capacity.observedAt, policy.maxCapacityAgeMs)] ++
  request.positions.map (fun position => (position.observedAt, policy.maxSnapshotAgeMs)) ++
  request.orders.map fun order => (order.observedAt, policy.maxOrderSnapshotAgeMs)

/-- everything an opening approval was observed on -/
def observations (request : RiskRequest F) : List (Int × Int) :=
  accountObservations request ++ (requiredSymbols request).flatMap (symbolObservations request)

/-- the least of a bound and the boundaries of a list of observations -/
def leastBoundary (start : Int) (observed : List (Int × Int)) : Int :=
  observed.foldl (fun u o => min u (o.1 + o.2)) start

/-- the earliest of the boundaries that do not depend on the time of the evaluation -/
def freshUntil (request : RiskRequest F) : Int :=
  match request.intent.action with
  | .hold => request.intent.signalExpiresAt
  | _ => leastBoundary request.intent.signalExpiresAt (observations request)

theorem leastBoundary_append (start : Int) (xs ys : List (Int × Int)) :
    leastBoundary start (xs ++ ys) = leastBoundary (leastBoundary start xs) ys :=
  List.foldl_append

theorem leastBoundary_min (a b : Int) (xs : List (Int × Int)) :
    leastBoundary (min a b) xs = min (leastBoundary a xs) b := by
  induction xs generalizing a with
  | nil => rfl
  | cons x xs ih =>
    show leastBoundary (min (min a b) _) xs = min (leastBoundary (min a _) xs) b
    rw [← ih, min_right_comm]

variable {start : Int} {xs : List (Int × Int)}

theorem lt_leastBoundary {t : Int} :
    t < leastBoundary start xs ↔ t < start ∧ ∀ o ∈ xs, t < o.1 + o.2 := by
  induction xs generalizing start with
  | nil => exact ⟨fun h => ⟨h, fun o ho => absurd ho List.not_mem_nil⟩, fun h => h.1⟩
  | cons x xs ih =>
    show t < leastBoundary (min start _) xs ↔ _
    rw [ih, lt_min_iff, List.forall_mem_cons, and_assoc]

/-- none of the boundaries overflows -/
def Fit (observed : List (Int × Int)) : Prop :=
  ∀ o ∈ observed, checkedAdd o.1 o.2 = some (o.1 + o.2)

theorem fit_append {ys : List (Int × Int)} : Fit (xs ++ ys) ↔ Fit xs ∧ Fit ys :=
  List.forall_mem_append

theorem timeBoundary_ok {observedAt maxAge boundary : Int} :
    timeBoundary observedAt maxAge = .ok boundary ↔
      checkedAdd observedAt maxAge = some (observedAt + maxAge) ∧
        boundary = observedAt + maxAge := by
  rw [timeBoundary, need_ok]
  constructor
  · intro h
    have hsum := checkedAdd_some h
    subst hsum
    exact ⟨h, rfl⟩
  · rintro ⟨h, rfl⟩
    exact h

variable {result : Int}

theorem earliest_ok :
    earliest start xs = .ok result ↔ Fit xs ∧ result = leastBoundary start xs := by
  induction xs generalizing start with
  | nil =>
    constructor
    · intro h
      cases h
      exact ⟨fun o ho => absurd ho List.not_mem_nil, rfl⟩
    · rintro ⟨-, rfl⟩
      rfl
  | cons x xs ih =>
    obtain ⟨observedAt, maxAge⟩ := x
    simp only [earliest, bind_ok, timeBoundary_ok, ih, Fit, List.forall_mem_cons]
    constructor
    · rintro ⟨_, ⟨hboundary, rfl⟩, hrest, rfl⟩
      exact ⟨⟨hboundary, hrest⟩, rfl⟩
    · rintro ⟨⟨hboundary, hrest⟩, rfl⟩
      exact ⟨_, ⟨hboundary, rfl⟩, hrest, rfl⟩

/-- the symbol has a market and metadata -/
def Described (request : RiskRequest F) (symbol : SymbolCode) : Prop :=
  (∃ market, marketOf request symbol = some market) ∧
    ∃ metadata, metadataOf request symbol = some metadata

theorem indexSnapshots_ok {request : RiskRequest F} {required : List SymbolCode} :
    indexSnapshots request required = .ok () ↔
      (request.symbolMetadata.map SymbolMetadataSnapshot.symbol).Nodup ∧
      (request.markets.map fun m => m.snapshot.symbol).Nodup ∧
      ∀ symbol ∈ required, Described request symbol := by
  have hdescribed : ∀ symbol, ((metadataOf request symbol).isNone = false ∧
      (marketOf request symbol).isNone = false) ↔ Described request symbol := by
    intro symbol
    rw [Described, Option.isNone_eq_false_iff, Option.isNone_eq_false_iff, Option.isSome_iff_exists,
      Option.isSome_iff_exists, and_comm]
  simp only [indexSnapshots, bind_ok, exists_unit, eachApart_key_ok, each_ok, reject_ok,
    Bool.not_eq_true, hdescribed]
  constructor
  · rintro ⟨⟨hmetadata, -⟩, ⟨hmarkets, -⟩, hrequired⟩
    exact ⟨hmetadata, hmarkets, hrequired⟩
  · rintro ⟨hmetadata, hmarkets, hrequired⟩
    exact ⟨⟨hmetadata, fun _ _ => ⟨trivial, trivial⟩⟩, ⟨hmarkets, fun _ _ => ⟨trivial, trivial⟩⟩,
      hrequired⟩

theorem symbolBoundary_ok {request : RiskRequest F} {symbol : SymbolCode} :
    symbolBoundary request start symbol = .ok result ↔
      Described request symbol ∧ Fit (symbolObservations request symbol) ∧
        result = leastBoundary start (symbolObservations request symbol) := by
  rw [← earliest_ok]
  constructor
  · intro h
    simp only [symbolBoundary, requiredMarket, requiredMetadata, bind_ok, need_ok, pure_ok] at h
    obtain ⟨market, hmarket, a, ha, metadata, hmetadata, b, hb, rfl⟩ := h
    refine ⟨⟨⟨market, hmarket⟩, metadata, hmetadata⟩, ?_⟩
    simp only [symbolObservations, hmarket, hmetadata, Option.map_some, Option.toList_some,
      List.singleton_append, earliest, bind_ok]
    exact ⟨a, ha, b, hb, rfl⟩
  · rintro ⟨⟨⟨market, hmarket⟩, metadata, hmetadata⟩, h⟩
    simp only [symbolObservations, hmarket, hmetadata, Option.map_some, Option.toList_some,
      List.singleton_append, earliest, bind_ok] at h
    obtain ⟨a, ha, b, hb, h⟩ := h
    simp only [symbolBoundary, requiredMarket, requiredMetadata, bind_ok, need_ok, pure_ok]
    exact ⟨market, hmarket, a, ha, metadata, hmetadata, b, hb, Except.ok.inj h⟩

theorem symbolBoundaries_ok {request : RiskRequest F} {symbols : List SymbolCode} :
    symbols.foldlM (symbolBoundary request) start = .ok result ↔
      (∀ symbol ∈ symbols, Described request symbol) ∧
        Fit (symbols.flatMap (symbolObservations request)) ∧
        result = leastBoundary start (symbols.flatMap (symbolObservations request)) := by
  induction symbols generalizing start with
  | nil =>
    constructor
    · intro h
      cases h
      exact ⟨fun _ h => absurd h List.not_mem_nil, fun _ h => absurd h List.not_mem_nil, rfl⟩
    · rintro ⟨-, -, rfl⟩
      rfl
  | cons symbol symbols ih =>
    rw [List.foldlM_cons, bind_ok, List.flatMap_cons, fit_append, leastBoundary_append,
      List.forall_mem_cons]
    constructor
    · rintro ⟨next, hnext, hrest⟩
      obtain ⟨hdescribed, hfit, rfl⟩ := symbolBoundary_ok.mp hnext
      obtain ⟨hothers, hfits, hresult⟩ := ih.mp hrest
      exact ⟨⟨hdescribed, hothers⟩, ⟨hfit, hfits⟩, hresult⟩
    · rintro ⟨⟨hdescribed, hothers⟩, ⟨hfit, hfits⟩, hresult⟩
      exact ⟨_, symbolBoundary_ok.mpr ⟨hdescribed, hfit, rfl⟩, ih.mpr ⟨hothers, hfits, hresult⟩⟩

/-- the observations are there and their boundaries are timestamps, whenever the evaluation is -/
def Observed (request : RiskRequest F) : Prop :=
  (∀ symbol ∈ requiredSymbols request, Described request symbol) ∧ Fit (observations request)

theorem approvalValidUntil_iff {request : RiskRequest F} {validUntil : Int} :
    approvalValidUntil request (requiredSymbols request) = .ok validUntil ↔
      Observed request ∧
      checkedAdd request.evaluatedAt request.policy.maxApprovalTtlMs
        = some (request.evaluatedAt + request.policy.maxApprovalTtlMs) ∧
      validUntil = min (leastBoundary request.intent.signalExpiresAt (observations request))
        (request.evaluatedAt + request.policy.maxApprovalTtlMs) ∧
      request.evaluatedAt < validUntil := by
  unfold Observed observations
  rw [fit_append, leastBoundary_append, ← leastBoundary_min, ← leastBoundary_min]
  constructor
  · intro h
    simp only [approvalValidUntil, bind_ok, exists_unit, reject_ok, pure_ok, not_le,
      timeBoundary_ok] at h
    obtain ⟨_, ⟨httl, rfl⟩, observed, hobserved, v, hv, hopen, rfl⟩ := h
    obtain ⟨hfit, rfl⟩ := earliest_ok.mp hobserved
    obtain ⟨hdescribed, hfits, rfl⟩ := symbolBoundaries_ok.mp hv
    exact ⟨⟨hdescribed, hfit, hfits⟩, httl, rfl, hopen⟩
  · rintro ⟨⟨hdescribed, hfit, hfits⟩, httl, rfl, hopen⟩
    simp only [approvalValidUntil, bind_ok, exists_unit, reject_ok, pure_ok, not_le,
      timeBoundary_ok]
    exact ⟨_, ⟨httl, rfl⟩, _, earliest_ok.mpr ⟨hfit, rfl⟩, _,
      symbolBoundaries_ok.mpr ⟨hdescribed, hfits, rfl⟩, hopen, rfl⟩

/-! ## later inside the window -/

/-- the limits are `i64` values -/
structure RiskPolicy.Fits (policy : RiskPolicy F) : Prop where
  snapshot : policy.maxSnapshotAgeMs ≤ i64Max
  order : policy.maxOrderSnapshotAgeMs ≤ i64Max
  market : policy.maxMarketSnapshotAgeMs ≤ i64Max
  metadata : policy.maxSymbolMetadataAgeMs ≤ i64Max
  capacity : policy.maxCapacityAgeMs ≤ i64Max

theorem checkedAge_later {now t observedAt maxAge age : Int} {code : ErrorCode} {label : String}
    (h : checkedAge now observedAt maxAge code label = .ok age) (hfrom : now ≤ t)
    (huntil : t < observedAt + maxAge) (hfits : maxAge ≤ i64Max) :
    ∃ later, checkedAge t observedAt maxAge code label = .ok later ∧ 0 ≤ later := by
  simp only [checkedAge, bind_ok, exists_unit, need_ok, reject_ok, pure_ok, not_or, not_lt] at h
  obtain ⟨_, hsub, ⟨hnonneg, -⟩, -⟩ := h
  have hage : observedAt ≤ now := by
    unfold checkedSub at hsub
    split at hsub
    · rw [← Option.some.inj hsub] at hnonneg
      omega
    · cases hsub
  refine ⟨t - observedAt, ?_, by omega⟩
  have hsome : checkedSub t observedAt = some (t - observedAt) := by
    unfold checkedSub i64Min
    unfold i64Max at hfits ⊢
    rw [if_pos (by omega)]
  simp only [checkedAge, bind_ok, exists_unit, need_ok, reject_ok, pure_ok, not_or, not_lt]
  exact ⟨_, hsome, ⟨by omega, by omega⟩, rfl⟩

theorem oldest_ok {α : Type} {age : α → Evaluation Int} {xs : List α}
    (h : ∀ x ∈ xs, ∃ a, age x = .ok a) (start : Int) :
    ∃ result, oldest age start xs = .ok result ∧ start ≤ result := by
  induction xs generalizing start with
  | nil => exact ⟨start, rfl, le_rfl⟩
  | cons x xs ih =>
    obtain ⟨a, ha⟩ := h x List.mem_cons_self
    obtain ⟨result, hresult, hle⟩ := ih (fun y hy => h y (List.mem_cons_of_mem _ hy)) (max start a)
    refine ⟨result, ?_, (le_max_left _ _).trans hle⟩
    simp only [oldest, bind_ok]
    exact ⟨a, ha, hresult⟩

theorem oldest_each {α : Type} {age : α → Evaluation Int} {xs : List α}
    (h : oldest age start xs = .ok result) : ∀ x ∈ xs, ∃ a, age x = .ok a := by
  induction xs generalizing start with
  | nil => exact fun x hx => absurd hx List.not_mem_nil
  | cons x xs ih =>
    simp only [oldest, bind_ok] at h
    obtain ⟨a, ha, hrest⟩ := h
    exact List.forall_mem_cons.mpr ⟨⟨a, ha⟩, ih hrest⟩

section
variable {request : RiskRequest F} {t : Int} {ages : AuditAges}

theorem snapshotAge_later {age : Int} (h : snapshotAge request = .ok age)
    (hfits : request.policy.Fits) (hfrom : request.evaluatedAt ≤ t)
    (hfresh : ∀ o ∈ accountObservations request, t < o.1 + o.2) :
    ∃ later, snapshotAge (request.at t) = .ok later ∧ 0 ≤ later := by
  simp only [snapshotAge, bind_ok, exists_unit, reject_ok] at h
  obtain ⟨_, haccount, _, hpositions, _, horders, _, hcommands, hordered, _, hrows, hlast⟩ := h
  simp only [accountObservations, List.forall_mem_append, List.forall_mem_cons, List.forall_mem_map,
    List.not_mem_nil, false_imp_iff, forall_const, and_true] at hfresh
  obtain ⟨⟨⟨hfaccount, hfpositions, hforders, hfcommands, -⟩, hfrows⟩, hforderRows⟩ := hfresh
  obtain ⟨account, haccount, hnonneg⟩ := checkedAge_later haccount hfrom hfaccount hfits.snapshot
  obtain ⟨positions, hpositions, -⟩ := checkedAge_later hpositions hfrom hfpositions hfits.snapshot
  obtain ⟨orders, horders, -⟩ := checkedAge_later horders hfrom hforders hfits.order
  obtain ⟨commands, hcommands, -⟩ := checkedAge_later hcommands hfrom hfcommands hfits.order
  have hpositionRows : ∀ p ∈ request.positions, ∃ a, positionAge (request.at t) p = .ok a := by
    intro p hp
    obtain ⟨a, ha⟩ := oldest_each hrows p hp
    simp only [positionAge, bind_ok, exists_unit] at ha
    obtain ⟨hmark, ha⟩ := ha
    obtain ⟨later, hlater, -⟩ := checkedAge_later ha hfrom (hfrows p hp) hfits.snapshot
    refine ⟨later, ?_⟩
    simp only [positionAge, bind_ok, exists_unit]
    exact ⟨hmark, hlater⟩
  have horderRows : ∀ o ∈ request.orders, ∃ a, orderAge (request.at t) o = .ok a := by
    intro o ho
    obtain ⟨a, ha⟩ := oldest_each hlast o ho
    simp only [orderAge, bind_ok, exists_unit] at ha
    obtain ⟨hmark, ha⟩ := ha
    obtain ⟨later, hlater, -⟩ := checkedAge_later ha hfrom (hforderRows o ho) hfits.order
    refine ⟨later, ?_⟩
    simp only [orderAge, bind_ok, exists_unit]
    exact ⟨hmark, hlater⟩
  obtain ⟨rows, hrows, hle⟩ := oldest_ok hpositionRows (max (max (max account positions) orders) commands)
  obtain ⟨result, hresult, hle'⟩ := oldest_ok horderRows rows
  refine ⟨result, ?_, ?_⟩
  · simp only [snapshotAge, bind_ok, exists_unit, reject_ok]
    exact ⟨account, haccount, positions, hpositions, orders, horders, commands, hcommands, hordered,
      rows, hrows, hresult⟩
  · calc 0 ≤ account := hnonneg
      _ ≤ max (max (max account positions) orders) commands := by
        rw [max_assoc, max_assoc]
        exact le_max_left _ _
      _ ≤ rows := hle
      _ ≤ result := hle'

theorem symbolAges_later {symbols : List SymbolCode} {market metadata market' metadata' : Int}
    {ages : Int × Int} (h : symbolAges request market metadata symbols = .ok ages)
    (hfits : request.policy.Fits) (hfrom : request.evaluatedAt ≤ t)
    (hfresh : ∀ o ∈ symbols.flatMap (symbolObservations request), t < o.1 + o.2) :
    ∃ later, symbolAges (request.at t) market' metadata' symbols = .ok later ∧
      market' ≤ later.1 ∧ metadata' ≤ later.2 := by
  induction symbols generalizing market metadata market' metadata' with
  | nil => exact ⟨(market', metadata'), rfl, le_rfl, le_rfl⟩
  | cons symbol symbols ih =>
    simp only [symbolAges, bind_ok, need_ok] at h
    obtain ⟨found, hfound, a, ha, described, hdescribed, b, hb, hrest⟩ := h
    rw [List.flatMap_cons, List.forall_mem_append] at hfresh
    obtain ⟨hsymbol, hothers⟩ := hfresh
    simp only [symbolObservations, hfound, hdescribed, Option.map_some, Option.toList_some,
      List.singleton_append, List.forall_mem_cons] at hsymbol
    obtain ⟨a', ha', -⟩ := checkedAge_later ha hfrom hsymbol.1 hfits.market
    obtain ⟨b', hb', -⟩ := checkedAge_later hb hfrom hsymbol.2.1 hfits.metadata
    obtain ⟨later, hlater, hmarket, hmetadata⟩ :=
      @ih _ _ (max market' a') (max metadata' b') hrest hothers
    refine ⟨later, ?_, (le_max_left _ _).trans hmarket, (le_max_left _ _).trans hmetadata⟩
    simp only [symbolAges, bind_ok, need_ok]
    exact ⟨found, hfound, a', ha', described, hdescribed, b', hb', hlater⟩

theorem validateFreshness_later (h : validateFreshness request (requiredSymbols request) = .ok ages)
    (hfits : request.policy.Fits) (hfrom : request.evaluatedAt ≤ t)
    (hfresh : ∀ o ∈ observations request, t < o.1 + o.2) :
    ∃ later : AuditAges, validateFreshness (request.at t) (requiredSymbols request) = .ok later ∧
      later.Nonneg := by
  simp only [validateFreshness, bind_ok, exists_unit, reject_ok, pure_ok, Prod.exists] at h
  obtain ⟨_, hsnapshot, _, _, hsymbols, _, hcapacity, hordered, -⟩ := h
  rw [observations, List.forall_mem_append] at hfresh
  obtain ⟨haccount, hsymbol⟩ := hfresh
  have hcapacityFresh : t < request.capacity.observedAt + request.policy.maxCapacityAgeMs :=
    haccount (request.capacity.observedAt, request.policy.maxCapacityAgeMs) (by
      simp only [accountObservations, List.mem_append, List.mem_cons, true_or, or_true])
  obtain ⟨snapshot, hsnapshot, hnonneg⟩ := snapshotAge_later hsnapshot hfits hfrom haccount
  obtain ⟨⟨market, metadata⟩, hsymbols, hmarket, hmetadata⟩ :=
    @symbolAges_later F _ request t _ _ _ 0 0 _ hsymbols hfits hfrom hsymbol
  obtain ⟨capacity, hcapacity, hcnonneg⟩ :=
    checkedAge_later hcapacity hfrom hcapacityFresh hfits.capacity
  refine ⟨⟨snapshot, market, metadata, capacity⟩, ?_, ⟨hnonneg, hmarket, hmetadata, hcnonneg⟩⟩
  simp only [validateFreshness, bind_ok, exists_unit, reject_ok, pure_ok, Prod.exists]
  exact ⟨snapshot, hsnapshot, market, metadata, hsymbols, capacity, hcapacity, hordered, rfl⟩

/-! ## commands on their way -/

/-- a command that is still open when it expires, at or before a time -/
def Overdue (request : RiskRequest F) (t : Int) (command : ExecutionCommand F) : Prop :=
  ∃ state, request.pendingCommandStates.find? (fun s => s.commandId == command.commandId)
    = some state ∧ commandStateIsTerminal state.status = false ∧ command.expiresAt ≤ t

variable {active : List (ExecutionCommand F × ExecutionCommandState)}
  {commands : List (ExecutionCommand F)}

theorem activeCommands_later (h : activeCommands request commands = .ok active)
    (hopen : ∀ command ∈ commands, ¬ Overdue request t command) :
    activeCommands (request.at t) commands = .ok active := by
  induction commands generalizing active with
  | nil => exact h
  | cons command commands ih =>
    obtain ⟨hcommand, hothers⟩ := List.forall_mem_cons.mp hopen
    simp only [activeCommands, bind_ok, exists_unit, need_ok] at h ⊢
    obtain ⟨state, hstate, hidentity, htime, h⟩ := h
    refine ⟨state, hstate, hidentity, htime, ?_⟩
    split at h
    case isTrue hterminal => exact (if_pos hterminal).trans (ih h hothers)
    case isFalse hterminal =>
      rw [if_neg hterminal]
      simp only [bind_ok, exists_unit, reject_ok, pure_ok, not_le] at h ⊢
      obtain ⟨hactive, -, rest, hrest, rfl⟩ := h
      refine ⟨hactive, ?_, rest, ih hrest hothers, rfl⟩
      exact not_le.mp fun hle => hcommand ⟨state, hstate, Bool.eq_false_of_not_eq_true hterminal, hle⟩

theorem activeCommands_overdue (h : activeCommands request commands = .ok active)
    (hoverdue : ∃ command ∈ commands, Overdue request t command) :
    ∃ message, activeCommands (request.at t) commands
      = .error ⟨.pendingExposureConflict, message⟩ := by
  induction commands generalizing active with
  | nil =>
    obtain ⟨_, hnone, -⟩ := hoverdue
    exact absurd hnone List.not_mem_nil
  | cons command commands ih =>
    simp only [activeCommands, bind_ok, exists_unit, need_ok] at h
    obtain ⟨state, hstate, hidentity, htime, h⟩ := h
    have hbefore : ∀ message, (if commandStateIsTerminal state.status = true
          then activeCommands (request.at t) commands
        else do
          validateActiveCommand command
          reject (command.expiresAt ≤ (request.at t).evaluatedAt)
            ⟨.pendingExposureConflict,
              "non-terminal command " ++ command.commandId ++ " is expired and unreconciled"⟩
          let active ← activeCommands (request.at t) commands
          return (command, state) :: active) = .error ⟨.pendingExposureConflict, message⟩ →
        activeCommands (request.at t) (command :: commands)
          = .error ⟨.pendingExposureConflict, message⟩ := fun message hlast =>
      bind_error.mpr (.inr ⟨state, need_ok.mpr hstate,
        bind_error.mpr (.inr ⟨(), hidentity, bind_error.mpr (.inr ⟨(), htime, hlast⟩)⟩)⟩)
    by_cases hterminal : commandStateIsTerminal state.status = true
    · -- a terminal command is no conflict, so a later one is
      have hrest : ∃ c ∈ commands, Overdue request t c := by
        obtain ⟨c, hc, hlate⟩ := hoverdue
        rcases List.mem_cons.mp hc with rfl | hc
        · obtain ⟨s, hs, hlive, -⟩ := hlate
          rw [hstate, Option.some.injEq] at hs
          subst hs
          exact Bool.noConfusion (hlive.symm.trans hterminal)
        · exact ⟨c, hc, hlate⟩
      rw [if_pos hterminal] at h
      obtain ⟨message, hmessage⟩ := ih h hrest
      exact ⟨message, hbefore message ((if_pos hterminal).trans hmessage)⟩
    · rw [if_neg hterminal] at h
      simp only [bind_ok, exists_unit] at h
      obtain ⟨hactive, -, rest, hrest, -⟩ := h
      by_cases hlate : command.expiresAt ≤ t
      · refine ⟨"non-terminal command " ++ command.commandId ++ " is expired and unreconciled",
          hbefore _ ((if_neg hterminal).trans ?_)⟩
        exact bind_error.mpr (.inr ⟨(), hactive, bind_error.mpr (.inl (if_pos hlate))⟩)
      · have hothers : ∃ c ∈ commands, Overdue request t c := by
          obtain ⟨c, hc, s, hs, hlive, hexpired⟩ := hoverdue
          rcases List.mem_cons.mp hc with rfl | hc
          · exact absurd hexpired hlate
          · exact ⟨c, hc, s, hs, hlive, hexpired⟩
        obtain ⟨message, hmessage⟩ := ih hrest hothers
        refine ⟨message, hbefore message ((if_neg hterminal).trans ?_)⟩
        exact bind_error.mpr (.inr ⟨(), hactive, bind_error.mpr (.inr ⟨(), if_neg hlate,
          bind_error.mpr (.inl hmessage)⟩)⟩)

/-- no command on its way is overdue -/
def InTime (request : RiskRequest F) (t : Int) : Prop :=
  ∀ command ∈ request.pendingCommands, ¬ Overdue request t command

theorem activePendingCommands_later (h : activePendingCommands request = .ok active)
    (hopen : InTime request t) :
    activePendingCommands (request.at t) = .ok active := by
  simp only [activePendingCommands, bind_ok, exists_unit] at h ⊢
  obtain ⟨hcommands, hstates, hlength, hactive⟩ := h
  refine ⟨hcommands, hstates, hlength, activeCommands_later hactive ?_⟩
  exact fun command hcommand => hopen command ((List.mem_insertionSort _).mp hcommand)

theorem activePendingCommands_overdue (h : activePendingCommands request = .ok active)
    (hoverdue : ¬ InTime request t) :
    ∃ message, activePendingCommands (request.at t) = .error ⟨.pendingExposureConflict, message⟩ := by
  simp only [activePendingCommands, bind_ok, exists_unit] at h
  obtain ⟨hcommands, hstates, hlength, hactive⟩ := h
  simp only [InTime, not_forall, not_not] at hoverdue
  obtain ⟨command, hcommand, hlate⟩ := hoverdue
  obtain ⟨message, hmessage⟩ := activeCommands_overdue hactive
    ⟨command, (List.mem_insertionSort _).mpr hcommand, hlate⟩
  refine ⟨message, ?_⟩
  exact bind_error.mpr (.inr ⟨(), hcommands, bind_error.mpr (.inr ⟨(), hstates,
    bind_error.mpr (.inr ⟨(), hlength, hmessage⟩)⟩)⟩)

/-! ## the evaluation -/

variable {validUntil : Int} {approval : ActionableApproval F}

theorem sizeAndCap_later {prepared : List (PreparedLeg F)} {active : List (ExecutionCommand F)}
    {base : ℚ} (h : sizeAndCap request prepared active base ages validUntil = .ok approval)
    (ages' : AuditAges) (validUntil' : Int) :
    sizeAndCap (request.at t) prepared active base ages' validUntil'
      = .ok { approval with ages := ages', validUntil := validUntil' } := by
  simp only [sizeAndCap, bind_ok, exists_unit, pure_ok] at h ⊢
  obtain ⟨capped, hcapped, sized, hsized, hfinal, share, hshare, adjusted, hadjusted, rfl⟩ := h
  exact ⟨capped, hcapped, sized, hsized, hfinal, share, hshare, adjusted, hadjusted, rfl⟩

theorem validateControlTime_later (h : validateControlTime request = .ok ())
    (hfrom : request.evaluatedAt ≤ t) (huntil : t < request.intent.signalExpiresAt) :
    validateControlTime (request.at t) = .ok () := by
  simp only [validateControlTime, bind_ok, exists_unit, reject_ok, not_or, not_lt, not_le] at h ⊢
  obtain ⟨httl, ⟨hdecision, hintent, hrequested, hordered, hbefore, hexpiry⟩, -⟩ := h
  exact ⟨httl, ⟨hdecision, hintent, hrequested, hordered, hbefore.trans hfrom, hexpiry⟩, huntil⟩

theorem validateControlTime_ttl (h : validateControlTime request = .ok ()) :
    0 < request.policy.maxApprovalTtlMs := by
  simp only [validateControlTime, bind_ok, exists_unit, reject_ok, not_le] at h
  exact h.1

/-- the longest an approval may last, counted from a time, is a timestamp -/
def TtlFits (request : RiskRequest F) (t : Int) : Prop :=
  checkedAdd t request.policy.maxApprovalTtlMs = some (t + request.policy.maxApprovalTtlMs)

theorem evaluateOpening_later (h : evaluateOpening request = .ok approval)
    (hfits : request.policy.Fits) (hfrom : request.evaluatedAt ≤ t)
    (huntil : t < approval.validUntil) (httl : TtlFits request t) :
    approval.validUntil = min (leastBoundary request.intent.signalExpiresAt (observations request))
        (request.evaluatedAt + request.policy.maxApprovalTtlMs) ∧
    (InTime request t → ∃ ages : AuditAges, ages.Nonneg ∧
      t < min (leastBoundary request.intent.signalExpiresAt (observations request))
        (t + request.policy.maxApprovalTtlMs) ∧
      evaluateOpening (request.at t) = .ok { approval with
        ages := ages
        validUntil := min (leastBoundary request.intent.signalExpiresAt (observations request))
          (t + request.policy.maxApprovalTtlMs) }) ∧
    (¬ InTime request t → ∃ message, evaluateOpening (request.at t)
      = .error ⟨.pendingExposureConflict, message⟩) := by
  simp only [evaluateOpening, bind_ok, exists_unit] at h
  obtain ⟨hcontrol, hpolicy, hindex, ages, hages, base, hbase, hsymbols, prepared, hprepared, hloss,
    active, hactive, hpending, hconcurrency, validUntil, hvalidUntil, hsizing⟩ := h
  have hend : approval.validUntil = validUntil := (sizeAndCap_ok hsizing).2.2
  rw [hend] at huntil ⊢
  obtain ⟨hobserved, -, heq, -⟩ := approvalValidUntil_iff.mp hvalidUntil
  have hboundary : t < leastBoundary request.intent.signalExpiresAt (observations request) := by
    rw [heq] at huntil
    exact huntil.trans_le (min_le_left _ _)
  obtain ⟨hsignal, hfresh⟩ := lt_leastBoundary.mp hboundary
  have hcontrol' := validateControlTime_later hcontrol hfrom hsignal
  obtain ⟨later, hlater, hnonneg⟩ := validateFreshness_later hages hfits hfrom hfresh
  refine ⟨heq, ?_, ?_⟩
  · intro hopen
    have hwindow : t < min (leastBoundary request.intent.signalExpiresAt (observations request))
        (t + request.policy.maxApprovalTtlMs) :=
      lt_min hboundary (lt_add_of_pos_right t (validateControlTime_ttl hcontrol))
    refine ⟨later, hnonneg, hwindow, ?_⟩
    simp only [evaluateOpening, bind_ok, exists_unit]
    exact ⟨hcontrol', hpolicy, hindex, later, hlater, base, hbase, hsymbols, prepared, hprepared,
      hloss, active, activePendingCommands_later hactive hopen, hpending, hconcurrency, _,
      approvalValidUntil_iff.mpr ⟨hobserved, httl, rfl, hwindow⟩, sizeAndCap_later hsizing later _⟩
  · intro hoverdue
    obtain ⟨message, hmessage⟩ := activePendingCommands_overdue hactive hoverdue
    refine ⟨message, ?_⟩
    -- everything before the commands passes again
    have hrest : ∀ {α : Type} {x : Evaluation α} {a : α} {f : α → Evaluation (ActionableApproval F)}
        {e : Rejection}, x = .ok a → f a = .error e → (x >>= f) = .error e :=
      fun hx hf => bind_error.mpr (.inr ⟨_, hx, hf⟩)
    unfold evaluateOpening
    refine hrest hcontrol' (hrest hpolicy (hrest hindex (hrest hlater (hrest hbase (hrest hsymbols
      (hrest hprepared (hrest hloss ?_)))))))
    exact bind_error.mpr (.inl hmessage)

theorem Nameable.later (h : Nameable request) (hfrom : request.evaluatedAt ≤ t) :
    Nameable (request.at t) :=
  ⟨h.riskId, h.requestId, h.intentId, h.accountId, h.decisionId, h.evaluatedAt.trans hfrom⟩

theorem evaluate_isNameable {digest : RequestDigest F} {breaker : CircuitBreakerState}
    {result : RiskResult F} (h : evaluate digest request breaker = .ok result) : Nameable request := by
  unfold evaluate at h
  rw [bind_ok, exists_unit] at h
  exact validateResultIdentity_ok.mp h.1

theorem validateRequestIdentity_later (h : validateRequestIdentity request = .ok ())
    (hfrom : request.evaluatedAt ≤ t) : validateRequestIdentity (request.at t) = .ok () := by
  simp only [validateRequestIdentity, bind_ok, exists_unit, reject_ok, not_lt] at h ⊢
  exact ⟨h.1.trans hfrom, h.2⟩

theorem holdValidUntil_iff :
    holdValidUntil request = .ok validUntil ↔ TtlFits request request.evaluatedAt ∧
      validUntil = min request.intent.signalExpiresAt
        (request.evaluatedAt + request.policy.maxApprovalTtlMs) ∧
      request.evaluatedAt < validUntil := by
  rw [min_comm]
  constructor
  · intro h
    simp only [holdValidUntil, bind_ok, exists_unit, need_ok, reject_ok, pure_ok, not_le] at h
    obtain ⟨ttl, httl, hopen, rfl⟩ := h
    have hsum := checkedAdd_some httl
    subst hsum
    exact ⟨httl, rfl, hopen⟩
  · rintro ⟨httl, rfl, hopen⟩
    simp only [holdValidUntil, bind_ok, exists_unit, need_ok, reject_ok, pure_ok, not_le]
    exact ⟨_, httl, hopen, rfl⟩

theorem actionableResult_later {digest : RequestDigest F}
    (h : (actionableResult request (digest.hash request) approval).validate = .ok ())
    (hnameable : Nameable (request.at t)) (hages : ages.Nonneg) (hopen : t < validUntil) :
    (actionableResult (request.at t) (digest.hash (request.at t))
      { approval with ages := ages, validUntil := validUntil }).validate = .ok () := by
  have hheader := @validateHeader_ok F _ (request.at t) digest
    (actionableResult (request.at t) (digest.hash (request.at t))
      { approval with ages := ages, validUntil := validUntil }) hnameable
    ⟨rfl, rfl, rfl, rfl, rfl, rfl, rfl⟩
    ⟨hages.snapshot, hages.metadata, hages.market, hages.capacity⟩ hopen.le
  unfold RiskResult.validate at h ⊢
  rw [bind_ok, exists_unit] at h ⊢
  refine ⟨hheader, ?_⟩
  obtain ⟨-, h⟩ := h
  simp only [actionableResult, Bool.true_eq_false, if_false, bind_ok, exists_unit] at h ⊢
  exact ⟨h.1, reject_ok.mpr hopen.ne', h.2.2⟩

theorem noOpResult_valid {digest : RequestDigest F} (hnameable : Nameable request)
    (hopen : request.evaluatedAt < validUntil) :
    (noOpResult request (digest.hash request) validUntil).validate = .ok () := by
  have hheader := @validateHeader_ok F _ request digest
    (noOpResult request (digest.hash request) validUntil) hnameable
    ⟨rfl, rfl, rfl, rfl, rfl, rfl, rfl⟩ ⟨le_rfl, le_rfl, le_rfl, le_rfl⟩ hopen.le
  unfold RiskResult.validate
  rw [bind_ok, exists_unit]
  refine ⟨hheader, ?_⟩
  simp only [noOpResult, Bool.true_eq_false, if_false, bind_ok, exists_unit]
  exact ⟨reject_ok.mpr fun h => h rfl, reject_ok.mpr hopen.ne', trivial⟩

end

/-- the checks before the action of a request is looked at -/
def Shaped (request : RiskRequest F) : Prop :=
  validateRequestIdentity request = .ok () ∧ validateActionShape request = .ok ()

theorem evaluateInner_shaped {request : RiskRequest F} {breaker : CircuitBreakerState}
    {approval : Approval F} (h : evaluateInner request breaker = .ok approval) : Shaped request := by
  simp only [evaluateInner, bind_ok, exists_unit] at h
  exact ⟨h.1, h.2.1⟩

theorem evaluateInner_hold {request : RiskRequest F} {breaker : CircuitBreakerState}
    (hshaped : Shaped request) (haction : request.intent.action = .hold) {approval : Approval F} :
    evaluateInner request breaker = .ok approval ↔ validateControlTime request = .ok () ∧
      ∃ validUntil, holdValidUntil request = .ok validUntil ∧ approval = .noOp validUntil := by
  simp only [evaluateInner, bind_ok, exists_unit, haction, pure_ok]
  constructor
  · rintro ⟨-, -, hcontrol, validUntil, hvalid, rfl⟩
    exact ⟨hcontrol, validUntil, hvalid, rfl⟩
  · rintro ⟨hcontrol, validUntil, hvalid, rfl⟩
    exact ⟨hshaped.1, hshaped.2, hcontrol, validUntil, hvalid, rfl⟩

theorem evaluateInner_opening {request : RiskRequest F} {breaker : CircuitBreakerState}
    (hshaped : Shaped request)
    (haction : request.intent.action = .buy ∨ request.intent.action = .sell)
    (hallowed : (breaker.authorize .riskIncreasingTradeIntent).allowed = true) :
    evaluateInner request breaker = (evaluateOpening request).map Approval.actionable := by
  unfold evaluateInner
  rw [hshaped.1, hshaped.2]
  rcases haction with haction | haction
  all_goals
    rw [haction, hallowed]
    show (evaluateOpening request >>= fun a => Except.ok (Approval.actionable a)) = _
    cases evaluateOpening request with
    | error e => rfl
    | ok a => rfl

theorem evaluateInner_noOp {request : RiskRequest F} {breaker : CircuitBreakerState}
    {validUntil : Int} (h : evaluateInner request breaker = .ok (.noOp validUntil)) :
    request.intent.action = .hold := by
  have hshaped := evaluateInner_shaped h
  cases haction : request.intent.action with
  | hold => rfl
  | close =>
    simp only [evaluateInner, bind_ok, exists_unit, haction] at h
    cases h.2.2
  | buy | sell =>
    simp only [evaluateInner, bind_ok, exists_unit, haction, pure_ok] at h
    obtain ⟨-, -, -, _, -, hnone⟩ := h
    cases hnone

/-- what a request is evaluated to at a later time of the window of an approval -/
structure Reevaluated (digest : RequestDigest F) (request : RiskRequest F)
    (breaker : CircuitBreakerState) (result : RiskResult F) (t : Int) (later : RiskResult F) :
    Prop where
  evaluates : evaluate digest (request.at t) breaker = .ok later
  approved : request.intent.action = .hold ∨ InTime request t →
    later.approved = true ∧ later.adjustedLegs = result.adjustedLegs ∧
      later.validUntil = min (freshUntil request) (t + request.policy.maxApprovalTtlMs)
  refused : ¬ (request.intent.action = .hold ∨ InTime request t) →
    later.approved = false ∧ later.reason = .known .pendingExposureConflict

section
variable {digest : RequestDigest F} {request : RiskRequest F} {breaker : CircuitBreakerState} {t : Int}

theorem hold_reevaluated {validUntil : Int} (hnameable : Nameable (request.at t))
    (hshaped : Shaped (request.at t)) (haction : request.intent.action = .hold)
    (hcontrol : validateControlTime request = .ok ())
    (hvalid : holdValidUntil request = .ok validUntil) (hfrom : request.evaluatedAt ≤ t)
    (huntil : t < validUntil) (httl : TtlFits request t) :
    validUntil = min (freshUntil request) (request.evaluatedAt + request.policy.maxApprovalTtlMs) ∧
      ∃ later, Reevaluated digest request breaker
        (noOpResult request (digest.hash request) validUntil) t later := by
  obtain ⟨-, rfl, -⟩ := holdValidUntil_iff.mp hvalid
  have hend : freshUntil request = request.intent.signalExpiresAt := by
    unfold freshUntil
    rw [haction]
  have hsignal : t < request.intent.signalExpiresAt := huntil.trans_le (min_le_left _ _)
  have hwindow : t < min request.intent.signalExpiresAt (t + request.policy.maxApprovalTtlMs) :=
    lt_min hsignal (lt_add_of_pos_right t (validateControlTime_ttl hcontrol))
  have hlater : evaluateInner (request.at t) breaker = .ok (.noOp
      (min request.intent.signalExpiresAt (t + request.policy.maxApprovalTtlMs))) :=
    (evaluateInner_hold hshaped haction).mpr ⟨validateControlTime_later hcontrol hfrom hsignal, _,
      holdValidUntil_iff.mpr ⟨httl, rfl, hwindow⟩, rfl⟩
  have hresult := @evaluate_valid F _ (request.at t) digest breaker hnameable (by
    rw [hlater]
    exact noOpResult_valid hnameable hwindow)
  rw [hlater] at hresult
  rw [hend]
  refine ⟨rfl, _, hresult, fun _ => ⟨rfl, rfl, ?_⟩, fun hnot => absurd (.inl haction) hnot⟩
  rw [hend]
  rfl

theorem opening_reevaluated {approval : ActionableApproval F} (hnameable : Nameable (request.at t))
    (hshaped : Shaped (request.at t))
    (haction : request.intent.action = .buy ∨ request.intent.action = .sell)
    (hallowed : (breaker.authorize .riskIncreasingTradeIntent).allowed = true)
    (hopening : evaluateOpening request = .ok approval)
    (hvalid : (actionableResult request (digest.hash request) approval).validate = .ok ())
    (hfits : request.policy.Fits) (hfrom : request.evaluatedAt ≤ t)
    (huntil : t < approval.validUntil) (httl : TtlFits request t) :
    approval.validUntil
        = min (freshUntil request) (request.evaluatedAt + request.policy.maxApprovalTtlMs) ∧
      ∃ later, Reevaluated digest request breaker
        (actionableResult request (digest.hash request) approval) t later := by
  have hend : freshUntil request
      = leastBoundary request.intent.signalExpiresAt (observations request) := by
    unfold freshUntil
    rcases haction with haction | haction
    all_goals rw [haction]
  have hhold : request.intent.action ≠ .hold := by
    rcases haction with haction | haction
    all_goals
      rw [haction]
      exact fun h => by cases h
  obtain ⟨heq, hopen, hoverdue⟩ := evaluateOpening_later hopening hfits hfrom huntil httl
  have hinner := evaluateInner_opening hshaped haction hallowed
  rw [hend]
  refine ⟨heq, ?_⟩
  by_cases htime : InTime request t
  · obtain ⟨ages, hages, hwindow, hlater⟩ := hopen htime
    rw [hlater] at hinner
    have hresult := @evaluate_valid F _ (request.at t) digest breaker hnameable (by
      rw [hinner]
      exact actionableResult_later hvalid hnameable hages hwindow)
    rw [hinner] at hresult
    refine ⟨_, hresult, fun _ => ⟨rfl, rfl, ?_⟩, fun hnot => absurd (.inr htime) hnot⟩
    rw [hend]
    rfl
  · obtain ⟨message, hlater⟩ := hoverdue htime
    rw [hlater] at hinner
    have hresult := @evaluate_valid F _ (request.at t) digest breaker hnameable (by
      rw [hinner]
      exact rejectedResult_valid digest hnameable (bestEffort_nonneg _) _)
    rw [hinner] at hresult
    exact ⟨_, hresult, fun h => absurd h (not_or.mpr ⟨hhold, htime⟩), fun _ => ⟨rfl, rfl⟩⟩

/-- Inside the window of an approval the same request is approved again, with the same legs and until
the same boundaries, unless a command on its way has expired. -/
theorem approval_reevaluated {result : RiskResult F}
    (h : evaluate digest request breaker = .ok result) (happroved : result.approved = true)
    (hfits : request.policy.Fits) (hfrom : request.evaluatedAt ≤ t)
    (huntil : t < result.validUntil) (httl : TtlFits request t) :
    result.validUntil
        = min (freshUntil request) (request.evaluatedAt + request.policy.maxApprovalTtlMs) ∧
      ∃ later, Reevaluated digest request breaker result t later := by
  have hnameable : Nameable (request.at t) := (evaluate_isNameable h).later hfrom
  obtain ⟨approval, hinner, rfl, hvalid⟩ := evaluate_approved h happroved
  have hshaped := evaluateInner_shaped hinner
  have hshaped' : Shaped (request.at t) :=
    ⟨validateRequestIdentity_later hshaped.1 hfrom, hshaped.2⟩
  cases approval with
  | noOp validUntil =>
    have haction := evaluateInner_noOp hinner
    obtain ⟨hcontrol, v, hv, heq⟩ := (evaluateInner_hold hshaped haction).mp hinner
    cases heq
    exact hold_reevaluated hnameable hshaped' haction hcontrol hv hfrom huntil httl
  | actionable approval =>
    obtain ⟨haction, hallowed, hopening⟩ := evaluateInner_actionable hinner
    exact opening_reevaluated hnameable hshaped' haction hallowed hopening hvalid hfits hfrom huntil
      httl

end

/-! ## gold, while a position is being closed -/

/-- the window of the approval for gold, in the middle -/
theorem gold_reevaluated :
    goldResult.validUntil = min (freshUntil goldRequest) 40000 ∧
      ∃ later, Reevaluated goldDigest goldRequest CircuitBreakerState.new goldResult 20000 later :=
  approval_reevaluated (by decide +kernel) rfl (by constructor <;> decide) (by decide) (by decide)
    rfl

/-- a command to close a position, open since 9000 -/
def closingCommand : ExecutionCommand ℚ where
  commandId := "command-9"
  planId := none
  legId := none
  strategyId := "strategy-1"
  accountId := "account-1"
  terminalId := none
  clientId := none
  symbol := "XAUUSD"
  brokerSymbol := some "XAUUSD"
  action := .close
  orderType := none
  lots := none
  price := none
  sl := none
  tp := none
  deviationPoints := none
  magic := 7
  comment := none
  positionTicket := some "ticket-1"
  brokerOrderId := none
  fillingPolicy := none
  timePolicy := none
  expirationTime := none
  expiresAt := 20000
  idempotencyKey := "command-key-9"
  hmac := "00"

def closingState : ExecutionCommandState where
  commandId := "command-9"
  accountId := "account-1"
  planId := none
  legId := none
  status := .dispatched
  deliveryAttempts := 1
  lastDeliveryError := none
  createdAt := 9000
  dispatchedAt := some 9100
  commandReceivedAt := none
  reconcilingAt := none
  completedAt := none
  updatedAt := 9100

def closingRequest : RiskRequest ℚ :=
  { goldRequest with
    pendingCommands := [closingCommand]
    pendingCommandStates := [closingState] }

/-- whether a request is approved and until when -/
def verdict (request : RiskRequest ℚ) : Option (Bool × Int) :=
  (evaluate goldDigest request CircuitBreakerState.new).toOption.map fun r =>
    (r.approved, r.validUntil)

/-- approved until 39900, and refused from 20000 on, when the command expires -/
theorem closing_ends_approval :
    verdict closingRequest = some (true, 39900) ∧ TtlFits closingRequest 20000 ∧
      verdict (closingRequest.at 20000) = some (false, 20000) := by
  refine ⟨by decide +kernel, rfl, by decide +kernel⟩

end

end Sinan.Risk
