import Sinan.Projection.Shown

/-!
# Projections: what the events say

`Projected` is the state of the projections that a list of events calls for: the observations of the
facts and of the results in the latest tables, the full sets of the results, and for each account the
checkpoint of its results.  Each event that is applied extends it.
-/

set_option linter.unusedSectionVars false

namespace Sinan.Projection

open Lib Store Reconciliation

variable {F D : Type} [DecidableEq F] [DecidableEq D] {digests : Digests F D}

/-! ## the results of an account -/

/-- results with their receive times -/
abbrev Results (F : Type) := Set (AppliedResult F × Int)

/-- the times that some results of the account give -/
def timesOf (results : Results F) (accountId : AccountId) (time : AppliedResult F × Int → Option Int) :
    Set Int :=
  {t | ∃ x ∈ results, x.1.result.accountId = accountId ∧ time x = some t}

theorem mem_timesOf_insert (results : Results F) {accountId : AccountId}
    (time : AppliedResult F × Int → Option Int) {x : AppliedResult F × Int} {t : Int}
    (howner : x.1.result.accountId = accountId) :
    t ∈ timesOf (insert x results) accountId time ↔
      t ∈ timesOf results accountId time ∨ time x = some t := by
  constructor
  · rintro ⟨y, rfl | hy, hyo, ht⟩
    · exact .inr ht
    · exact .inl ⟨y, hy, hyo, ht⟩
  · rintro (⟨y, hy, hyo, ht⟩ | ht)
    · exact ⟨y, Set.mem_insert_of_mem _ hy, hyo, ht⟩
    · exact ⟨x, Set.mem_insert _ _, howner, ht⟩

theorem timesOf_other (results : Results F) {accountId : AccountId}
    (time : AppliedResult F × Int → Option Int) {x : AppliedResult F × Int}
    (hother : x.1.result.accountId ≠ accountId) :
    timesOf (insert x results) accountId time = timesOf results accountId time := by
  ext t
  constructor
  · rintro ⟨y, rfl | hy, hyo, ht⟩
    · exact absurd hyo hother
    · exact ⟨y, hy, hyo, ht⟩
  · rintro ⟨y, hy, hyo, ht⟩
    exact ⟨y, Set.mem_insert_of_mem _ hy, hyo, ht⟩

/-- the result of the account that a checkpoint names: the first request id among the latest results -/
structure IsSource (digests : Digests F D) (results : Results F)
    (c : AccountReconciliationCheckpoint D) (x : AppliedResult F × Int) : Prop where
  mem : x ∈ results
  account : x.1.result.accountId = c.accountId
  requestId : x.1.result.requestId = c.sourceRequestId
  observedAt : x.1.result.observedAt = c.resultObservedAt
  positions : digests.positions x.1.result.positions = c.positionsSetHash
  orders : digests.orders x.1.result.orders = c.ordersSetHash

/-- the checkpoint that the results of the account call for -/
structure IsCheckpoint (digests : Digests F D) (results : Results F) (accountId : AccountId)
    (c : AccountReconciliationCheckpoint D) : Prop where
  account : c.accountId = accountId
  source : ∃ x, IsSource digests results c x
  top : ∀ y ∈ results, y.1.result.accountId = accountId → y.1.result.observedAt ≤ c.resultObservedAt
  first : ∀ y ∈ results, y.1.result.accountId = accountId →
    y.1.result.observedAt = c.resultObservedAt → c.sourceRequestId ≤ y.1.result.requestId
  positionsAt : c.positionsObservedAt = c.resultObservedAt
  ordersAt : c.ordersObservedAt = c.resultObservedAt
  accountRefreshed : IsLast (timesOf results accountId fun x => x.1.accountRefresh)
    c.accountRefreshedAt
  symbolsRefreshed : IsLast (timesOf results accountId fun x => x.1.symbolRefresh)
    c.symbolMetadataRefreshedAt
  pendingRefreshed : IsLast (timesOf results accountId fun x => x.1.pendingRefresh)
    c.pendingCommandsReconciledAt
  updated : IsGreatest (timesOf results accountId fun x => some x.2) c.updatedAt

/-- the checkpoint of the account, if it has results -/
def CheckpointShown (digests : Digests F D) (results : Results F) (accountId : AccountId) :
    Option (AccountReconciliationCheckpoint D) → Prop
  | none => ∀ x ∈ results, x.1.result.accountId ≠ accountId
  | some c => IsCheckpoint digests results accountId c

section
variable {results : Results F} {accountId : AccountId} {x : AppliedResult F × Int}
  {c : AccountReconciliationCheckpoint D} {checkpoint : Option (AccountReconciliationCheckpoint D)}

theorem IsCheckpoint.other (h : IsCheckpoint digests results accountId c)
    (hother : x.1.result.accountId ≠ accountId) :
    IsCheckpoint digests (insert x results) accountId c := by
  have htimes (time : AppliedResult F × Int → Option Int) := timesOf_other results time hother
  obtain ⟨y, hy⟩ := h.source
  refine ⟨h.account, ⟨y, ⟨Set.mem_insert_of_mem _ hy.mem, hy.account, hy.requestId, hy.observedAt,
    hy.positions, hy.orders⟩⟩, fun z hz howner => ?_, fun z hz howner => ?_, h.positionsAt,
    h.ordersAt, ?_, ?_, ?_, ?_⟩
  · rcases hz with rfl | hz
    · exact absurd howner hother
    · exact h.top z hz howner
  · rcases hz with rfl | hz
    · exact absurd howner hother
    · exact h.first z hz howner
  · rw [htimes]
    exact h.accountRefreshed
  · rw [htimes]
    exact h.symbolsRefreshed
  · rw [htimes]
    exact h.pendingRefreshed
  · rw [htimes]
    exact h.updated

theorem CheckpointShown.other (h : CheckpointShown digests results accountId checkpoint)
    (hother : x.1.result.accountId ≠ accountId) :
    CheckpointShown digests (insert x results) accountId checkpoint := by
  cases checkpoint with
  | none =>
    intro y hy
    rcases hy with rfl | hy
    · exact hother
    · exact h y hy
  | some c => exact IsCheckpoint.other h hother

theorem isLast_maxOptional {T U : Set Int} {a b : Option Int} (ha : IsLast T a)
    (hU : ∀ t, t ∈ U ↔ t ∈ T ∨ b = some t) : IsLast U (maxOptional a b) := by
  cases b with
  | none =>
    have hsame : U = T := Set.ext fun t => by
      rw [hU]
      exact or_iff_left fun h => (nomatch h)
    rw [hsame]
    cases a <;> exact ha
  | some s =>
    have hgrow : U = insert s T := Set.ext fun t => by
      rw [hU, Set.mem_insert_iff, Option.some.injEq]
      exact ⟨fun h => h.symm.imp_left Eq.symm, fun h => h.symm.imp_right Eq.symm⟩
    rw [hgrow]
    cases a with
    | none => exact ha.first
    | some t => exact ha.later

/-- results of one account and time have the same sets -/
def AlikeResults (results : Results F) : Prop :=
  ∀ x ∈ results, ∀ y ∈ results, x.1.result.accountId = y.1.result.accountId →
    x.1.result.observedAt = y.1.result.observedAt →
    x.1.result.positions = y.1.result.positions ∧ x.1.result.orders = y.1.result.orders

theorem isCheckpoint_first (hnone : ∀ y ∈ results, y.1.result.accountId ≠ x.1.result.accountId) :
    IsCheckpoint digests (insert x results) x.1.result.accountId
      (advancedCheckpoint digests x.1 x.2 none) := by
  have honly (y : AppliedResult F × Int) (hy : y ∈ insert x results)
      (howner : y.1.result.accountId = x.1.result.accountId) : y = x := by
    rcases hy with rfl | hy
    · rfl
    · exact absurd howner (hnone y hy)
  have hempty (time : AppliedResult F × Int → Option Int) :
      IsLast (timesOf results x.1.result.accountId time) none := by
    refine Set.eq_empty_iff_forall_notMem.mpr ?_
    rintro t ⟨y, hy, howner, -⟩
    exact hnone y hy howner
  have hlast (time : AppliedResult F × Int → Option Int) :
      IsLast (timesOf (insert x results) x.1.result.accountId time) (maxOptional none (time x)) :=
    isLast_maxOptional (hempty time) fun t =>
      mem_timesOf_insert results time rfl
  have hmax (t : Option Int) : maxOptional none t = t := by cases t <;> rfl
  refine ⟨rfl, ⟨x, ⟨Set.mem_insert _ _, rfl, rfl, rfl, rfl, rfl⟩⟩, fun y hy howner => ?_,
    fun y hy howner _ => ?_, rfl, rfl, ?_, ?_, ?_, ?_⟩
  · rw [honly y hy howner]
    exact le_rfl
  · rw [honly y hy howner]
    exact le_rfl
  · have h := hlast fun x => x.1.accountRefresh
    rw [hmax] at h
    exact h
  · have h := hlast fun x => x.1.symbolRefresh
    rw [hmax] at h
    exact h
  · have h := hlast fun x => x.1.pendingRefresh
    rw [hmax] at h
    exact h
  · exact hlast fun x => some x.2

theorem IsCheckpoint.advance_source (h : IsCheckpoint digests results x.1.result.accountId c)
    (halike : AlikeResults (insert x results)) :
    ∃ y, IsSource digests (insert x results) (advancedCheckpoint digests x.1 x.2 (some c)) y := by
  obtain ⟨y, hy⟩ := h.source
  rcases lt_trichotomy c.resultObservedAt x.1.result.observedAt with hlt | heq | hgt
  · refine ⟨x, ⟨Set.mem_insert _ _, h.account.symm, ?_, (max_eq_right hlt.le).symm, ?_, ?_⟩⟩
    · exact (if_pos (.inl hlt)).symm
    · exact (if_pos (h.positionsAt ▸ hlt)).symm
    · exact (if_pos (h.ordersAt ▸ hlt)).symm
  · have hpositions : ¬ c.positionsObservedAt < x.1.result.observedAt := by
      rw [h.positionsAt, heq]
      exact lt_irrefl _
    have horders : ¬ c.ordersObservedAt < x.1.result.observedAt := by
      rw [h.ordersAt, heq]
      exact lt_irrefl _
    by_cases hfirst : x.1.result.requestId < c.sourceRequestId
    · obtain ⟨hsameP, hsameO⟩ := halike x (Set.mem_insert _ _) y (Set.mem_insert_of_mem _ hy.mem)
        (h.account.symm.trans hy.account.symm) (heq.symm.trans hy.observedAt.symm)
      refine ⟨x, ⟨Set.mem_insert _ _, h.account.symm, ?_, ?_, ?_, ?_⟩⟩
      · exact (if_pos (.inr ⟨heq.symm, hfirst⟩)).symm
      · exact (max_eq_right heq.le).symm
      · refine Eq.trans ?_ (if_neg hpositions).symm
        rw [hsameP, hy.positions]
      · refine Eq.trans ?_ (if_neg horders).symm
        rw [hsameO, hy.orders]
    · refine ⟨y, ⟨Set.mem_insert_of_mem _ hy.mem, hy.account, ?_, ?_, ?_, ?_⟩⟩
      · refine hy.requestId.trans (if_neg ?_).symm
        rintro (hlt | ⟨-, hlt⟩)
        · exact absurd heq hlt.ne
        · exact hfirst hlt
      · exact hy.observedAt.trans (max_eq_left heq.ge).symm
      · exact hy.positions.trans (if_neg hpositions).symm
      · exact hy.orders.trans (if_neg horders).symm
  · refine ⟨y, ⟨Set.mem_insert_of_mem _ hy.mem, hy.account, ?_, ?_, ?_, ?_⟩⟩
    · refine hy.requestId.trans (if_neg ?_).symm
      rintro (hlt | ⟨heq, -⟩)
      · exact absurd hlt (not_lt.mpr hgt.le)
      · exact absurd heq hgt.ne
    · exact hy.observedAt.trans (max_eq_left hgt.le).symm
    · exact hy.positions.trans (if_neg (not_lt.mpr (h.positionsAt ▸ hgt.le))).symm
    · exact hy.orders.trans (if_neg (not_lt.mpr (h.ordersAt ▸ hgt.le))).symm

theorem IsCheckpoint.advance (h : IsCheckpoint digests results x.1.result.accountId c)
    (halike : AlikeResults (insert x results)) :
    IsCheckpoint digests (insert x results) x.1.result.accountId
      (advancedCheckpoint digests x.1 x.2 (some c)) := by
  have hmax : (advancedCheckpoint digests x.1 x.2 (some c)).resultObservedAt =
      max c.resultObservedAt x.1.result.observedAt := rfl
  have htimes (time : AppliedResult F × Int → Option Int) (t : Int) :=
    mem_timesOf_insert results time (t := t) (rfl : x.1.result.accountId = _)
  refine ⟨h.account, h.advance_source halike, fun y hy howner => ?_, fun y hy howner htime => ?_,
    ?_, ?_, isLast_maxOptional h.accountRefreshed (htimes _),
    isLast_maxOptional h.symbolsRefreshed (htimes _),
    isLast_maxOptional h.pendingRefreshed (htimes _), ?_⟩
  · rw [hmax]
    rcases hy with rfl | hy
    · exact le_max_right _ _
    · exact le_trans (h.top y hy howner) (le_max_left _ _)
  · rw [hmax] at htime
    show (if _ then _ else _) ≤ _
    split_ifs with hsource
    · rcases hy with rfl | hy
      · exact le_rfl
      · have hle := h.top y hy howner
        rcases hsource with hlt | ⟨heq, hlt⟩
        · rw [htime, max_eq_right hlt.le] at hle
          exact absurd hlt (not_lt.mpr hle)
        · rw [heq, max_self] at htime
          exact hlt.le.trans (h.first y hy howner htime)
    · rw [not_or, not_and, not_lt] at hsource
      rcases hy with rfl | hy
      · have heq : y.1.result.observedAt = c.resultObservedAt := by
          rw [max_eq_left hsource.1] at htime
          exact htime
        exact not_lt.mp (hsource.2 heq)
      · rw [max_eq_left hsource.1] at htime
        exact h.first y hy howner htime
  · show (if _ then _ else _) = max _ _
    rw [h.positionsAt]
    split_ifs with hlt
    · exact (max_eq_right hlt.le).symm
    · exact (max_eq_left (not_lt.mp hlt)).symm
  · show (if _ then _ else _) = max _ _
    rw [h.ordersAt]
    split_ifs with hlt
    · exact (max_eq_right hlt.le).symm
    · exact (max_eq_left (not_lt.mp hlt)).symm
  · exact isLast_maxOptional (a := some c.updatedAt) h.updated (htimes _)

theorem CheckpointShown.advance
    (h : CheckpointShown digests results x.1.result.accountId checkpoint)
    (halike : AlikeResults (insert x results)) :
    CheckpointShown digests (insert x results) x.1.result.accountId
      (some (advancedCheckpoint digests x.1 x.2 checkpoint)) := by
  cases checkpoint with
  | none => exact isCheckpoint_first h
  | some c => exact IsCheckpoint.advance h halike

theorem IsCheckpoint.unique {d : AccountReconciliationCheckpoint D}
    (hc : IsCheckpoint digests results accountId c) (hd : IsCheckpoint digests results accountId d)
    (halike : AlikeResults results) : c = d := by
  obtain ⟨x, hx⟩ := hc.source
  obtain ⟨y, hy⟩ := hd.source
  have hxo := hx.account.trans hc.account
  have hyo := hy.account.trans hd.account
  have hresult : c.resultObservedAt = d.resultObservedAt := by
    refine le_antisymm ?_ ?_
    · rw [← hx.observedAt]
      exact hd.top x hx.mem hxo
    · rw [← hy.observedAt]
      exact hc.top y hy.mem hyo
  have hat : x.1.result.observedAt = y.1.result.observedAt :=
    hx.observedAt.trans (hresult.trans hy.observedAt.symm)
  have hsource : c.sourceRequestId = d.sourceRequestId := by
    refine le_antisymm ?_ ?_
    · rw [← hy.requestId]
      exact hc.first y hy.mem hyo (hy.observedAt.trans hresult.symm)
    · rw [← hx.requestId]
      exact hd.first x hx.mem hxo (hx.observedAt.trans hresult)
  obtain ⟨hpositions, horders⟩ := halike x hx.mem y hy.mem (hxo.trans hyo.symm) hat
  have hpositionsHash : c.positionsSetHash = d.positionsSetHash := by
    rw [← hx.positions, ← hy.positions, hpositions]
  have hordersHash : c.ordersSetHash = d.ordersSetHash := by
    rw [← hx.orders, ← hy.orders, horders]
  have hpositionsAt := hc.positionsAt.trans (hresult.trans hd.positionsAt.symm)
  have hordersAt := hc.ordersAt.trans (hresult.trans hd.ordersAt.symm)
  have haccount := hc.account.trans hd.account.symm
  have hrefresh := hc.accountRefreshed.unique hd.accountRefreshed
  have hsymbols := hc.symbolsRefreshed.unique hd.symbolsRefreshed
  have hpending := hc.pendingRefreshed.unique hd.pendingRefreshed
  have hupdated := hc.updated.unique hd.updated
  cases c
  cases d
  subst haccount hsource hresult hrefresh hpositionsAt hpositionsHash hordersAt hordersHash hsymbols
    hpending hupdated
  rfl

end

/-! ## the events -/

/-- the account snapshots that a document brings -/
def EventPayload.accounts : EventPayload F → List (AccountSnapshot F)
  | .fact (.account snapshot) => [snapshot]
  | .result answer => answer.account.toList
  | _ => []

def EventPayload.symbols : EventPayload F → List (SymbolMetadataSnapshot F)
  | .fact (.symbol snapshot) => [snapshot]
  | .result answer => answer.symbolMetadata
  | _ => []

theorem EventPayload.mem_accounts {payload : EventPayload F} {s : AccountSnapshot F} :
    s ∈ payload.accounts ↔
      payload = .fact (.account s) ∨ ∃ r, payload = .result r ∧ s ∈ r.account.toList := by
  rcases payload with value | _ | _
  · cases value <;> simp [EventPayload.accounts, eq_comm]
  all_goals simp [EventPayload.accounts]

theorem EventPayload.mem_symbols {payload : EventPayload F} {s : SymbolMetadataSnapshot F} :
    s ∈ payload.symbols ↔
      payload = .fact (.symbol s) ∨ ∃ r, payload = .result r ∧ s ∈ r.symbolMetadata := by
  rcases payload with value | _ | _
  · cases value <;> simp [EventPayload.symbols, eq_comm]
  all_goals simp [EventPayload.symbols]

def accountObservations (events : List (StoredCoreEvent F)) : Set (AccountSnapshot F) :=
  {s | ∃ e ∈ events, s ∈ e.payload.accounts}

def symbolObservations (events : List (StoredCoreEvent F)) : Set (SymbolMetadataSnapshot F) :=
  {s | ∃ e ∈ events, s ∈ e.payload.symbols}

/-- the run that has the event's result, and what it was applied with -/
def AppliedBy (runs : ReconciliationRuns F) (event : StoredCoreEvent F) (r : AppliedResult F) : Prop :=
  ∃ row ∈ runs.rows, ∃ columns, row.result = some columns ∧
    columns.eventId = event.metadata.eventId ∧ event.payload = .result columns.result ∧
    r = ⟨row.request, columns.result, columns.evaluation, columns.completeness⟩

def appliedResults (runs : ReconciliationRuns F) (events : List (StoredCoreEvent F)) : Results F :=
  {x | ∃ e ∈ events, AppliedBy runs e x.1 ∧ x.2 = e.metadata.receivedAt}

abbrev positionSets (events : List (StoredCoreEvent F)) :
    Set (FullSet AccountId Int (PositionSnapshot F)) :=
  fullSets ReconciliationResult.positions (resultFacts events)

abbrev orderSets (events : List (StoredCoreEvent F)) :
    Set (FullSet AccountId Int (OrderSnapshot F)) :=
  fullSets ReconciliationResult.orders (resultFacts events)

/-- the positions, orders and full sets of all accounts do not contradict each other -/
structure CoherentEvents (digests : Digests F D) (events : List (StoredCoreEvent F)) : Prop where
  positions : CoherentSets (positionKind digests) (positionFacts events) (positionSets events)
  orders : CoherentSets (orderKind digests) (orderFacts events) (orderSets events)

/-- the state of the projections, but for the bars, after some events and their results -/
structure Projected (digests : Digests F D) (events : List (StoredCoreEvent F)) (results : Results F)
    (p : Projections F D) : Prop where
  accounts : Shows accountKey AccountSnapshot.observedAt (accountObservations events)
    (shown p.accounts)
  symbols : Shows symbolKey SymbolMetadataSnapshot.observedAt (symbolObservations events)
    (shown p.symbols)
  positions : SetShown (positionKind digests) (positionFacts events) (positionSets events)
    p.checkpoints.get p.positions
  orders : SetShown (orderKind digests) (orderFacts events) (orderSets events)
    p.checkpoints.get p.orders
  checkpoints : ∀ accountId, CheckpointShown digests results accountId (p.checkpoints.get accountId)

/-! ## one more event -/

section
variable {events : List (StoredCoreEvent F)} {metadata : CoreEventMetadata} {payload : EventPayload F}
  {S : Type}

theorem observations_append (give : EventPayload F → List S) (events : List (StoredCoreEvent F))
    (event : StoredCoreEvent F) :
    {s | ∃ e ∈ events ++ [event], s ∈ give e.payload} =
      {s | ∃ e ∈ events, s ∈ give e.payload} ∪ {s | s ∈ give event.payload} := by
  ext s
  constructor
  · rintro ⟨e, he, hs⟩
    rcases List.mem_append.mp he with he | he
    · exact .inl ⟨e, he, hs⟩
    · rw [List.mem_singleton.mp he] at hs
      exact .inr hs
  · rintro (⟨e, he, hs⟩ | hs)
    · exact ⟨e, List.mem_append_left _ he, hs⟩
    · exact ⟨event, List.mem_append_right _ (List.mem_singleton_self _), hs⟩

theorem documents_append (document : S → EventPayload F) (events : List (StoredCoreEvent F))
    (event : StoredCoreEvent F) :
    {s | ∃ e ∈ events ++ [event], e.payload = document s} =
      {s | ∃ e ∈ events, e.payload = document s} ∪ {s | event.payload = document s} := by
  ext s
  constructor
  · rintro ⟨e, he, hs⟩
    rcases List.mem_append.mp he with he | he
    · exact .inl ⟨e, he, hs⟩
    · rw [List.mem_singleton.mp he] at hs
      exact .inr hs
  · rintro (⟨e, he, hs⟩ | hs)
    · exact ⟨e, List.mem_append_left _ he, hs⟩
    · exact ⟨event, List.mem_append_right _ (List.mem_singleton_self _), hs⟩

theorem accountObservations_append (event : StoredCoreEvent F) :
    accountObservations (events ++ [event]) =
      accountObservations events ∪ {s | s ∈ event.payload.accounts} :=
  observations_append EventPayload.accounts events event

theorem symbolObservations_append (event : StoredCoreEvent F) :
    symbolObservations (events ++ [event]) =
      symbolObservations events ∪ {s | s ∈ event.payload.symbols} :=
  observations_append EventPayload.symbols events event

theorem positionFacts_append (event : StoredCoreEvent F) :
    positionFacts (events ++ [event]) =
      positionFacts events ∪ {s | event.payload = .fact (.position s)} :=
  documents_append (fun s => .fact (.position s)) events event

theorem orderFacts_append (event : StoredCoreEvent F) :
    orderFacts (events ++ [event]) = orderFacts events ∪ {s | event.payload = .fact (.order s)} :=
  documents_append (fun s => .fact (.order s)) events event

theorem resultFacts_append (event : StoredCoreEvent F) :
    resultFacts (events ++ [event]) = resultFacts events ∪ {r | event.payload = .result r} :=
  documents_append EventPayload.result events event

theorem fullSets_insert (setOf : ReconciliationResult F → List S)
    (results : Set (ReconciliationResult F)) (result : ReconciliationResult F) :
    fullSets setOf (insert result results) =
      insert (fullSetOf setOf result) (fullSets setOf results) := by
  ext w
  constructor
  · rintro ⟨r, rfl | hr, rfl⟩
    · exact Set.mem_insert _ _
    · exact Set.mem_insert_of_mem _ ⟨r, hr, rfl⟩
  · rintro (rfl | ⟨r, hr, rfl⟩)
    · exact ⟨result, Set.mem_insert _ _, rfl⟩
    · exact ⟨r, Set.mem_insert_of_mem _ hr, rfl⟩

theorem union_none {A B : Set S} (hnone : ∀ s, s ∉ B) : A ∪ B = A := by
  rw [Set.eq_empty_iff_forall_notMem.mpr hnone, Set.union_empty]

theorem union_one {A B : Set S} {x : S} (hone : ∀ s, s ∈ B ↔ s = x) : A ∪ B = insert x A := by
  have hB : B = {x} := Set.ext hone
  rw [hB, Set.union_comm, Set.insert_eq]

end

end Sinan.Projection
