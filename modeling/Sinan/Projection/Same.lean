import Sinan.Projection.Replayed

/-!
# Projections: one state for the same events

Projections that show the same events are the same, but for the times of their rows, so it does not
matter how they were reached.  Erasing an account leaves the projections of the other accounts' events.
-/

set_option linter.unusedSectionVars false

namespace Sinan.Projection

open Lib Store Reconciliation

variable {F D : Type} [DecidableEq F] [DecidableEq D] {digests : Digests F D}

/-! ## the same observations -/

/-- a document that none of the projections but the bars is about -/
def Aside (payload : EventPayload F) : Prop :=
  (∃ bar, payload = .fact (.marketBar bar)) ∨ ∃ request, payload = .request request

/-- two lists of events that say the same -/
structure SameObservations (runs : ReconciliationRuns F) (L M : List (StoredCoreEvent F)) : Prop where
  accounts : accountObservations L = accountObservations M
  symbols : symbolObservations L = symbolObservations M
  positions : positionFacts L = positionFacts M
  orders : orderFacts L = orderFacts M
  results : resultFacts L = resultFacts M
  applied : appliedResults runs L = appliedResults runs M

section
variable {runs : ReconciliationRuns F} {L M : List (StoredCoreEvent F)} {p : Projections F D}
  {payload : EventPayload F}

theorem Aside.accounts (h : Aside payload) : payload.accounts = [] := by
  rcases h with ⟨bar, rfl⟩ | ⟨request, rfl⟩ <;> rfl

theorem Aside.symbols (h : Aside payload) : payload.symbols = [] := by
  rcases h with ⟨bar, rfl⟩ | ⟨request, rfl⟩ <;> rfl

theorem Aside.not_position (h : Aside payload) (s : PositionSnapshot F) :
    payload ≠ .fact (.position s) := by
  rcases h with ⟨bar, rfl⟩ | ⟨request, rfl⟩ <;> rintro ⟨⟩

theorem Aside.not_order (h : Aside payload) (s : OrderSnapshot F) :
    payload ≠ .fact (.order s) := by
  rcases h with ⟨bar, rfl⟩ | ⟨request, rfl⟩ <;> rintro ⟨⟩

theorem Aside.not_result (h : Aside payload) (r : ReconciliationResult F) :
    payload ≠ .result r := by
  rcases h with ⟨bar, rfl⟩ | ⟨request, rfl⟩ <;> rintro ⟨⟩

theorem sameObservations (hsub : M ⊆ L) (hrest : ∀ e ∈ L, e ∉ M → Aside e.payload) :
    SameObservations runs L M := by
  have hin (e : StoredCoreEvent F) (he : e ∈ L) (hnot : ¬ Aside e.payload) : e ∈ M := by
    by_contra hout
    exact hnot (hrest e he hout)
  constructor
  · ext s
    constructor
    · rintro ⟨e, he, hs⟩
      refine ⟨e, hin e he fun h => ?_, hs⟩
      rw [h.accounts] at hs
      cases hs
    · rintro ⟨e, he, hs⟩
      exact ⟨e, hsub he, hs⟩
  · ext s
    constructor
    · rintro ⟨e, he, hs⟩
      refine ⟨e, hin e he fun h => ?_, hs⟩
      rw [h.symbols] at hs
      cases hs
    · rintro ⟨e, he, hs⟩
      exact ⟨e, hsub he, hs⟩
  · ext s
    constructor
    · rintro ⟨e, he, hs⟩
      exact ⟨e, hin e he fun h => h.not_position s hs, hs⟩
    · rintro ⟨e, he, hs⟩
      exact ⟨e, hsub he, hs⟩
  · ext s
    constructor
    · rintro ⟨e, he, hs⟩
      exact ⟨e, hin e he fun h => h.not_order s hs, hs⟩
    · rintro ⟨e, he, hs⟩
      exact ⟨e, hsub he, hs⟩
  · ext r
    constructor
    · rintro ⟨e, he, hr⟩
      exact ⟨e, hin e he fun h => h.not_result r hr, hr⟩
    · rintro ⟨e, he, hr⟩
      exact ⟨e, hsub he, hr⟩
  · ext x
    constructor
    · rintro ⟨e, he, happlied, hreceived⟩
      exact ⟨e, hin e he fun h => h.not_result _ happlied.result, happlied, hreceived⟩
    · rintro ⟨e, he, hx⟩
      exact ⟨e, hsub he, hx⟩

theorem Reached.congr (hsame : SameObservations runs L M) (h : Reached digests runs M p) :
    Reached digests runs L p := by
  obtain ⟨⟨haccounts, hsymbols, hpositions, horders, hcheckpoints⟩, hdecided⟩ := h
  rw [← hsame.accounts] at haccounts
  rw [← hsame.symbols] at hsymbols
  rw [positionSets, ← hsame.results, ← hsame.positions] at hpositions
  rw [orderSets, ← hsame.results, ← hsame.orders] at horders
  rw [← hsame.applied] at hcheckpoints
  refine ⟨⟨haccounts, hsymbols, hpositions, horders, hcheckpoints⟩, ⟨?_, ?_⟩⟩
  · rw [hsame.accounts]
    exact hdecided.accounts
  · rw [hsame.symbols]
    exact hdecided.symbols

end

/-! ## the same tables -/

/-- the tables that a rebuild writes, equal but for the times of their rows -/
structure SameProjections (p q : Projections F D) : Prop where
  accounts : shown p.accounts = shown q.accounts
  symbols : shown p.symbols = shown q.symbols
  positions : shown p.positions.latest = shown q.positions.latest
  positionMembers : p.positions.members.get = q.positions.members.get
  orders : shown p.orders.latest = shown q.orders.latest
  orderMembers : p.orders.members.get = q.orders.members.get
  checkpoints : p.checkpoints.get = q.checkpoints.get

section
variable {S : Type} {key : S → AccountId × String} {kind : SetKind D key} {facts : Set S}
  {sets : Set (FullSet AccountId Int S)} {tables tables' : SetTables key}
  {checkpoints : AccountId → Option (AccountReconciliationCheckpoint D)}

theorem LastSet.unique {accountId : AccountId} {rows rows' : List (MemberRow S)}
    {checkpoint : Option (AccountReconciliationCheckpoint D)} (hcoherent : CoherentSets kind facts sets)
    (h : LastSet kind sets accountId checkpoint rows)
    (h' : LastSet kind sets accountId checkpoint rows') : rows = rows' := by
  cases checkpoint with
  | none => exact h.1.trans h'.1.symm
  | some c =>
    obtain ⟨w, hw⟩ := h
    obtain ⟨w', hw'⟩ := h'
    have htime : w.time = w'.time :=
      le_antisymm (hw'.last w hw.mem hw.owner) (hw.last w' hw'.mem hw'.owner)
    have hmembers := hcoherent.alike w hw.mem w' hw'.mem (hw.owner.trans hw'.owner.symm) htime
    rw [hw.rows, hw'.rows, htime, hmembers]

theorem members_get_iff {k : AccountId × String} {row : MemberRow S} :
    tables.members.get k = some row ↔
      row ∈ membersOf tables k.1 ∧ (row.accountId, (key row.payload).2) = k := by
  rw [Table.get_eq_some, mem_membersOf]
  constructor
  · rintro ⟨hrow, rfl⟩
    exact ⟨⟨hrow, rfl⟩, rfl⟩
  · rintro ⟨⟨hrow, -⟩, hk⟩
    exact ⟨hrow, hk⟩

theorem SetShown.unique (hcoherent : CoherentSets kind facts sets)
    (h : SetShown kind facts sets checkpoints tables)
    (h' : SetShown kind facts sets checkpoints tables') :
    shown tables.latest = shown tables'.latest ∧ tables.members.get = tables'.members.get := by
  refine ⟨h.latest.unique (hcoherent.visible_unambiguous owner_of_key).decided h'.latest, ?_⟩
  funext k
  apply Option.ext
  intro row
  rw [members_get_iff, members_get_iff, LastSet.unique hcoherent (h.last k.1) (h'.last k.1)]

end

theorem CheckpointShown.unique {results : Results F} {accountId : AccountId}
    {a b : Option (AccountReconciliationCheckpoint D)} (halike : AlikeResults results)
    (ha : CheckpointShown digests results accountId a)
    (hb : CheckpointShown digests results accountId b) : a = b := by
  have hnone {c : AccountReconciliationCheckpoint D} (hc : IsCheckpoint digests results accountId c)
      (hempty : ∀ x ∈ results, x.1.result.accountId ≠ accountId) : False := by
    obtain ⟨x, hx⟩ := hc.source
    exact hempty x hx.mem (hx.account.trans hc.account)
  cases a with
  | none =>
    cases b with
    | none => rfl
    | some d => exact (hnone hb ha).elim
  | some c =>
    cases b with
    | none => exact (hnone ha hb).elim
    | some d => rw [IsCheckpoint.unique ha hb halike]

theorem Projected.unique {events : List (StoredCoreEvent F)} {results : Results F}
    {p q : Projections F D} (hp : Projected digests events results p)
    (hq : Projected digests events results q) (hcoherent : CoherentEvents digests events)
    (hdecided : DecidedEvents events) (halike : AlikeResults results) : SameProjections p q := by
  have hcheckpoints : p.checkpoints.get = q.checkpoints.get :=
    funext fun accountId => (hp.checkpoints accountId).unique halike (hq.checkpoints accountId)
  have hqPositions := hq.positions
  have hqOrders := hq.orders
  rw [← hcheckpoints] at hqPositions hqOrders
  obtain ⟨hpositions, hpositionMembers⟩ := SetShown.unique hcoherent.positions hp.positions hqPositions
  obtain ⟨horders, horderMembers⟩ := SetShown.unique hcoherent.orders hp.orders hqOrders
  exact ⟨hp.accounts.unique hdecided.accounts hq.accounts,
    hp.symbols.unique hdecided.symbols hq.symbols, hpositions, hpositionMembers, horders,
    horderMembers, hcheckpoints⟩

/-! ## an account erased -/

/-- the events of the other accounts -/
def otherEvents (events : List (StoredCoreEvent F)) (accountId : AccountId) :
    List (StoredCoreEvent F) :=
  events.filter fun e => !(e.metadata.accountId == some accountId)

/-- the events of the account -/
def accountEvents (events : List (StoredCoreEvent F)) (accountId : AccountId) :
    List (StoredCoreEvent F) :=
  events.filter fun e => e.metadata.accountId == some accountId

section
variable {events : List (StoredCoreEvent F)} {accountId : AccountId} {e : StoredCoreEvent F}

theorem mem_otherEvents : e ∈ otherEvents events accountId ↔
    e ∈ events ∧ e.metadata.accountId ≠ some accountId := by
  rw [otherEvents, List.mem_filter, Bool.not_eq_true', beq_eq_false_iff_ne]

theorem mem_accountEvents : e ∈ accountEvents events accountId ↔
    e ∈ events ∧ e.metadata.accountId = some accountId := by
  rw [accountEvents, List.mem_filter, beq_iff_eq]

/-- the account of every document is the one of its event -/
structure Owned (e : StoredCoreEvent F) : Prop where
  accounts : ∀ s ∈ e.payload.accounts, e.metadata.accountId = some s.accountId
  symbols : ∀ s ∈ e.payload.symbols, e.metadata.accountId = some s.accountId
  position : ∀ s, e.payload = .fact (.position s) → e.metadata.accountId = some s.accountId
  order : ∀ s, e.payload = .fact (.order s) → e.metadata.accountId = some s.accountId
  result : ∀ r, e.payload = .result r → e.metadata.accountId = some r.accountId

theorem RoutedEvent.owned (h : RoutedEvent e)
    (hordered : ∀ r, e.payload = .result r → OrderedResult r) : Owned e where
  accounts s hs := by
    rcases EventPayload.mem_accounts.mp hs with hfact | ⟨r, hresult, hs⟩
    · exact h.fact _ _ hfact rfl
    · rw [((hordered r hresult).account s (Option.mem_toList.mp hs)).1]
      exact h.result r hresult
  symbols s hs := by
    rcases EventPayload.mem_symbols.mp hs with hfact | ⟨r, hresult, hs⟩
    · exact h.fact _ _ hfact rfl
    · have howner : s.accountId = r.accountId := ((hordered r hresult).symbols.owned s hs).1
      rw [howner]
      exact h.result r hresult
  position s hs := h.fact _ _ hs rfl
  order s hs := h.fact _ _ hs rfl
  result r hr := h.result r hr

variable {S : Type}

theorem observations_other (give : StoredCoreEvent F → S → Prop) (accountOf : S → AccountId)
    (howned : ∀ e ∈ events, ∀ s, give e s → e.metadata.accountId = some (accountOf s)) :
    {s | ∃ e ∈ otherEvents events accountId, give e s} =
      {s | s ∈ {s | ∃ e ∈ events, give e s} ∧ accountOf s ≠ accountId} := by
  ext s
  constructor
  · rintro ⟨e, he, hs⟩
    obtain ⟨he, hother⟩ := mem_otherEvents.mp he
    refine ⟨⟨e, he, hs⟩, fun hsame => hother ?_⟩
    rw [howned e he s hs, hsame]
  · rintro ⟨⟨e, he, hs⟩, hother⟩
    refine ⟨e, mem_otherEvents.mpr ⟨he, fun hsame => hother ?_⟩, hs⟩
    rw [howned e he s hs] at hsame
    exact Option.some.inj hsame

theorem fullSets_other (setOf : ReconciliationResult F → List S) (A : Set (ReconciliationResult F))
    (accountId : AccountId) :
    fullSets setOf {r | r ∈ A ∧ r.accountId ≠ accountId} =
      {w | w ∈ fullSets setOf A ∧ w.owner ≠ accountId} := by
  ext w
  constructor
  · rintro ⟨r, ⟨hr, hother⟩, rfl⟩
    exact ⟨⟨r, hr, rfl⟩, hother⟩
  · rintro ⟨⟨r, hr, rfl⟩, hother⟩
    exact ⟨r, ⟨hr, hother⟩, rfl⟩

end

section
variable {S : Type} {key : S → AccountId × String} {kind : SetKind D key} {facts : Set S}
  {sets : Set (FullSet AccountId Int S)} {tables : SetTables key} {accountId : AccountId}
  {checkpoints : Keyed (AccountReconciliationCheckpoint.accountId (D := D))}

theorem checkpoints_erase (k : AccountId) :
    (checkpoints.erase fun row => row.accountId == accountId).get k =
      if k = accountId then none else checkpoints.get k := by
  rw [Table.get_erase]
  cases hget : checkpoints.get k with
  | none => rw [ite_self]; rfl
  | some c =>
    rw [Option.filter_some, Table.key_of_get hget]
    by_cases hk : k = accountId
    · rw [if_pos hk, hk, beq_self_eq_true]
      rfl
    · rw [if_neg hk, beq_eq_false_iff_ne.mpr hk]
      rfl

theorem SetShown.erase (h : SetShown kind facts sets checkpoints.get tables)
    (hcoherent : CoherentSets kind facts sets) :
    SetShown kind {s | s ∈ facts ∧ (key s).1 ≠ accountId} {w | w ∈ sets ∧ w.owner ≠ accountId}
      (checkpoints.erase fun row => row.accountId == accountId).get
      ⟨tables.latest.erase fun row => (key row.payload).1 == accountId,
        tables.members.erase fun row => row.accountId == accountId⟩ := by
  constructor
  · have hvisible : visibleSnapshots kind {s | s ∈ facts ∧ (key s).1 ≠ accountId}
        {w | w ∈ sets ∧ w.owner ≠ accountId} =
        {s ∈ visibleSnapshots kind facts sets | (key s).1 ≠ accountId} :=
      visible_restrict (fun owner => owner ≠ accountId) hcoherent.formed
    rw [hvisible]
    exact shows_eraseOwner kind.toLatestKind (fun k => k.1) h.latest accountId
  · intro other
    rw [checkpoints_erase]
    by_cases hother : other = accountId
    · rw [if_pos hother]
      subst hother
      refine ⟨?_, fun w hw => hw.2⟩
      refine List.filter_eq_nil_iff.mpr fun row hrow => ?_
      rw [(Table.mem_erase.mp hrow).2]
      exact Bool.noConfusion
    · rw [if_neg hother]
      have hrows : membersOf ⟨tables.latest.erase fun row => (key row.payload).1 == accountId,
          tables.members.erase fun row => row.accountId == accountId⟩ other =
          membersOf tables other := membersOf_erase hother
      rw [hrows]
      have hlast := h.last other
      cases hcheckpoint : checkpoints.get other with
      | none =>
        rw [hcheckpoint] at hlast
        exact ⟨hlast.1, fun w hw => hlast.2 w hw.1⟩
      | some c =>
        rw [hcheckpoint] at hlast
        obtain ⟨w, hw⟩ := hlast
        refine ⟨w, ⟨hw.mem, ?_⟩, hw.owner, fun v hv => hw.last v hv.1, hw.watermark, hw.hash,
          hw.rows⟩
        rw [hw.owner]
        exact hother

end

section
variable {table : EventTable F} {runs : ReconciliationRuns F} {events : List (StoredCoreEvent F)}
  {accountId : AccountId} {p : Projections F D}

theorem SoundEvents.owned (h : SoundEvents digests table runs) {e : StoredCoreEvent F}
    (he : e ∈ table.rows) : Owned e :=
  (h.routed e he).owned fun _ hr =>
    (h.recorded fun _ hx => hx).ordered ⟨e, he, hr⟩

theorem timesOf_restrict {results : Results F} {other : AccountId} (hother : other ≠ accountId)
    (time : AppliedResult F × Int → Option Int) :
    timesOf {x | x ∈ results ∧ x.1.result.accountId ≠ accountId} other time =
      timesOf results other time := by
  ext t
  constructor
  · rintro ⟨x, hx, howner, ht⟩
    exact ⟨x, hx.1, howner, ht⟩
  · rintro ⟨x, hx, howner, ht⟩
    exact ⟨x, ⟨hx, howner ▸ hother⟩, howner, ht⟩

theorem IsCheckpoint.restrict {results : Results F} {other : AccountId}
    {c : AccountReconciliationCheckpoint D} (h : IsCheckpoint digests results other c)
    (hother : other ≠ accountId) :
    IsCheckpoint digests {x | x ∈ results ∧ x.1.result.accountId ≠ accountId} other c := by
  obtain ⟨x, hx⟩ := h.source
  have hxo : x.1.result.accountId ≠ accountId := by
    rw [hx.account, h.account]
    exact hother
  refine ⟨h.account, ⟨x, ⟨⟨hx.mem, hxo⟩, hx.account, hx.requestId, hx.observedAt, hx.positions,
    hx.orders⟩⟩, fun y hy => h.top y hy.1, fun y hy => h.first y hy.1, h.positionsAt, h.ordersAt,
    ?_, ?_, ?_, ?_⟩
  · rw [timesOf_restrict hother]
    exact h.accountRefreshed
  · rw [timesOf_restrict hother]
    exact h.symbolsRefreshed
  · rw [timesOf_restrict hother]
    exact h.pendingRefreshed
  · rw [timesOf_restrict hother]
    exact h.updated

theorem Reached.erase (hsound : SoundEvents digests table runs)
    (h : Reached digests runs table.rows p) (accountId : AccountId) :
    Reached digests runs (otherEvents table.rows accountId) (eraseAccount p accountId) := by
  have howned (e : StoredCoreEvent F) (he : e ∈ table.rows) := hsound.owned he
  have haccounts : accountObservations (otherEvents table.rows accountId) =
      {s | s ∈ accountObservations table.rows ∧ s.accountId ≠ accountId} :=
    observations_other (fun e s => s ∈ e.payload.accounts) _ fun e he => (howned e he).accounts
  have hsymbols : symbolObservations (otherEvents table.rows accountId) =
      {s | s ∈ symbolObservations table.rows ∧ s.accountId ≠ accountId} :=
    observations_other (fun e s => s ∈ e.payload.symbols) _ fun e he => (howned e he).symbols
  have hpositions : positionFacts (otherEvents table.rows accountId) =
      {s | s ∈ positionFacts table.rows ∧ s.accountId ≠ accountId} :=
    observations_other (fun e s => e.payload = .fact (.position s)) _ fun e he => (howned e he).position
  have horders : orderFacts (otherEvents table.rows accountId) =
      {s | s ∈ orderFacts table.rows ∧ s.accountId ≠ accountId} :=
    observations_other (fun e s => e.payload = .fact (.order s)) _ fun e he => (howned e he).order
  have hresults : resultFacts (otherEvents table.rows accountId) =
      {r | r ∈ resultFacts table.rows ∧ r.accountId ≠ accountId} :=
    observations_other (fun e r => e.payload = .result r) _ fun e he => (howned e he).result
  have happlied : appliedResults runs (otherEvents table.rows accountId) =
      {x | x ∈ appliedResults runs table.rows ∧ x.1.result.accountId ≠ accountId} := by
    refine observations_other (fun e (x : AppliedResult F × Int) =>
      AppliedBy runs e x.1 ∧ x.2 = e.metadata.receivedAt) (fun x => x.1.result.accountId) ?_
    rintro e he x ⟨hx, -⟩
    exact (howned e he).result _ hx.result
  constructor
  · constructor
    · rw [haccounts]
      exact shows_eraseOwner (accountKind digests) (fun k => k) h.projected.accounts accountId
    · rw [hsymbols]
      exact shows_eraseOwner (symbolKind digests) (fun k => k.1) h.projected.symbols accountId
    · rw [hpositions, positionSets, hresults, fullSets_other]
      exact h.projected.positions.erase hsound.coherent.positions
    · rw [horders, orderSets, hresults, fullSets_other]
      exact h.projected.orders.erase hsound.coherent.orders
    · intro other
      rw [happlied]
      show CheckpointShown digests _ other ((p.checkpoints.erase _).get other)
      rw [checkpoints_erase]
      have hshown := h.projected.checkpoints other
      split_ifs with hother
      · subst hother
        exact fun x hx => hx.2
      · cases hcheckpoint : p.checkpoints.get other with
        | none =>
          rw [hcheckpoint] at hshown
          exact fun x hx => hshown x hx.1
        | some c =>
          rw [hcheckpoint] at hshown
          exact IsCheckpoint.restrict hshown hother
  · constructor
    · rw [haccounts]
      exact h.decided.accounts.restrict fun k => k ≠ accountId
    · rw [hsymbols]
      exact h.decided.symbols.restrict fun k => k.1 ≠ accountId

end

end Sinan.Projection
