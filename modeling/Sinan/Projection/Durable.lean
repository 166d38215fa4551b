import Mathlib.Data.List.Pairwise
import Sinan.Lib.Latest
import Sinan.Projection.Model

/-!
# Projections: the durable facts of an account agree

Before a position, an order or a result is applied, all durable facts of the account are compared:
equal observations are the same document, full sets of one time are the same set, and a single fact
observed at the time of a full set is a member of it.  `validateAccountDurable_ok` says that the check
passes exactly if the facts and the sets are `Coherent`.
-/

set_option linter.unusedSectionVars false

namespace Sinan.Projection

open Lib Store Reconciliation

/-! ## the check -/

structure SingleFact (D : Type) where
  observedAt : Int
  memberId : String
  payloadHash : D
  deriving DecidableEq

/-- `members` is a map, kept in the order of its keys -/
structure DurableFullSet (D : Type) where
  observedAt : Int
  payloadHash : D
  members : List (String × D)
  deriving DecidableEq

/-- what the loop has recorded of one kind -/
structure SetEvidence (D : Type) where
  facts : List (SingleFact D)
  sets : List (DurableFullSet D)
  deriving DecidableEq

structure DurableEvidence (D : Type) where
  positions : SetEvidence D
  orders : SetEvidence D
  deriving DecidableEq

/-- `serde_json::from_str` as the type that `event_type` names -/
def decodeEvent {F : Type} (event : StoredCoreEvent F) : ProjectionCheck (EventPayload F) := do
  reject (event.payload.eventType ≠ event.metadata.eventType)
    (corrupt "core_event" event.metadata.eventId "payload does not decode as its event_type")
  return event.payload

section
variable {D S : Type} [DecidableEq D] {key : S → AccountId × String}

def singleFact (kind : SetKind D key) (snapshot : S) : SingleFact D :=
  ⟨kind.observedAt snapshot, (key snapshot).2, kind.digest snapshot⟩

def durableSetMembers (kind : SetKind D key) (eventId : String) (accountId : AccountId)
    (observedAt : Int) (set : List S) : ProjectionCheck (List (String × D)) := do
  eachApart (fun x y => decide ((key x).2 = (key y).2))
    (fun snapshot => reject ((key snapshot).1 ≠ accountId ∨ kind.observedAt snapshot ≠ observedAt)
      (corrupt "core_event" eventId
        ("reconciliation " ++ kind.noun ++ " member does not match result account or observed_at")))
    (fun _ => corrupt "core_event" eventId
      ("reconciliation " ++ kind.noun ++ " full set contains duplicate keys"))
    (fun _ => .ok ()) [] set
  return sortBy Prod.fst (set.map fun snapshot => ((key snapshot).2, kind.digest snapshot))

def recordDurableSingleFact (kind : SetKind D key) (accountId : AccountId) (evidence : SetEvidence D)
    (snapshot : S) : ProjectionCheck (SetEvidence D) := do
  let fact := singleFact kind snapshot
  reject (∃ existing ∈ evidence.facts, existing.observedAt = fact.observedAt ∧
      existing.memberId = fact.memberId ∧ existing.payloadHash ≠ fact.payloadHash)
    (.observationConflict kind.entity (pairText (accountId, fact.memberId)) fact.observedAt)
  return { evidence with facts := evidence.facts ++ [fact] }

def recordDurableFullSet (kind : SetKind D key) (accountId : AccountId) (evidence : SetEvidence D)
    (set : DurableFullSet D) : ProjectionCheck (SetEvidence D) := do
  reject (∃ existing ∈ evidence.sets, existing.observedAt = set.observedAt ∧
      (existing.payloadHash ≠ set.payloadHash ∨ existing.members ≠ set.members))
    (.observationConflict ("reconciliation_" ++ kind.noun ++ "s") accountId set.observedAt)
  return { evidence with sets := evidence.sets ++ [set] }

def validateDurableFactsAgainstFullSets (kind : SetKind D key) (accountId : AccountId)
    (evidence : SetEvidence D) : ProjectionCheck Unit :=
  each (sortBy (fun fact => toLex (fact.observedAt, fact.memberId)) evidence.facts) fun fact =>
    match evidence.sets.find? fun set => set.observedAt == fact.observedAt with
    | none => .ok ()
    | some set =>
      reject (((set.members.find? fun m => m.1 == fact.memberId).map Prod.snd) ≠ some fact.payloadHash)
        (.observationConflict kind.entity (pairText (accountId, fact.memberId)) fact.observedAt)

end

section
variable {F D : Type} [DecidableEq D]

def ensureDurableEvidenceAccount (event : StoredCoreEvent F) (payloadAccountId : AccountId) :
    ProjectionCheck Unit :=
  reject (event.metadata.accountId ≠ some payloadAccountId)
    (corrupt "core_event" event.metadata.eventId
      "durable evidence payload account_id does not match event route")

def recordDurablePayload (digests : Digests F D) (accountId : AccountId)
    (evidence : DurableEvidence D) (event : StoredCoreEvent F) :
    EventPayload F → ProjectionCheck (DurableEvidence D)
  | .fact (.position snapshot) => do
    ensureDurableEvidenceAccount event snapshot.accountId
    let positions ←
      recordDurableSingleFact (positionKind digests) accountId evidence.positions snapshot
    return { evidence with positions := positions }
  | .fact (.order snapshot) => do
    ensureDurableEvidenceAccount event snapshot.accountId
    let orders ← recordDurableSingleFact (orderKind digests) accountId evidence.orders snapshot
    return { evidence with orders := orders }
  | .result result => do
    ensureDurableEvidenceAccount event result.accountId
    let positionMembers ← durableSetMembers (positionKind digests) event.metadata.eventId
      result.accountId result.observedAt result.positions
    let orderMembers ← durableSetMembers (orderKind digests) event.metadata.eventId
      result.accountId result.observedAt result.orders
    let positions ← recordDurableFullSet (positionKind digests) accountId evidence.positions
      ⟨result.observedAt, digests.positions result.positions, positionMembers⟩
    let orders ← recordDurableFullSet (orderKind digests) accountId evidence.orders
      ⟨result.observedAt, digests.orders result.orders, orderMembers⟩
    return ⟨positions, orders⟩
  | _ => return evidence

/-- one row of the loop -/
def recordDurableEvent (digests : Digests F D) (accountId : AccountId) (evidence : DurableEvidence D)
    (event : StoredCoreEvent F) : ProjectionCheck (DurableEvidence D) := do
  let payload ← decodeEvent event
  recordDurablePayload digests accountId evidence event payload

/-- the event types that the check reads -/
def setEventTypes : List String := ["position.snapshot", "order.snapshot", "reconciliation.result"]

/-- `validate_account_durable_snapshot_full_set_consistency` -/
def validateAccountDurable (digests : Digests F D) (events : EventTable F) (accountId : AccountId) :
    ProjectionCheck Unit := do
  let rows := sortBy (fun e : StoredCoreEvent F => e.metadata.eventId) (events.rows.filter fun e =>
    e.metadata.accountId == some accountId && setEventTypes.contains e.metadata.eventType)
  let evidence ← rows.foldlM (recordDurableEvent digests accountId) ⟨⟨[], []⟩, ⟨[], []⟩⟩
  validateDurableFactsAgainstFullSets (positionKind digests) accountId evidence.positions
  validateDurableFactsAgainstFullSets (orderKind digests) accountId evidence.orders

/-- `validate_all_durable_snapshot_full_set_consistency` -/
def validateAllDurable (digests : Digests F D) (events : EventTable F) : ProjectionCheck Unit :=
  each (orderedSet ((events.rows.filter fun e =>
      setEventTypes.contains e.metadata.eventType).filterMap fun e => e.metadata.accountId))
    (validateAccountDurable digests events)

end

/-! ## what has passed the check -/

section
variable {D S : Type} [DecidableEq D] {key : S → AccountId × String} {kind : SetKind D key}
  {accountId : AccountId} {observedAt : Int} {set : List S} {snapshot : S}
  {evidence evidence' : SetEvidence D}

/-- digests tell the documents of the kind apart -/
structure SetKind.Distinct (kind : SetKind D key) : Prop where
  single : Function.Injective kind.digest
  set : Function.Injective kind.setDigest

def durableFullSet (kind : SetKind D key) (observedAt : Int) (set : List S) : DurableFullSet D :=
  ⟨observedAt, kind.setDigest set,
    sortBy Prod.fst (set.map fun snapshot => ((key snapshot).2, kind.digest snapshot))⟩

/-- the members belong to the account and the time of the set, under different ids -/
structure FormedSet (kind : SetKind D key) (accountId : AccountId) (observedAt : Int)
    (set : List S) : Prop where
  ids : (set.map fun snapshot => (key snapshot).2).Nodup
  routed : ∀ snapshot ∈ set, (key snapshot).1 = accountId ∧ kind.observedAt snapshot = observedAt

theorem FormedSet.keys (h : FormedSet kind accountId observedAt set) : (set.map key).Nodup := by
  refine List.Nodup.of_map Prod.snd ?_
  rw [List.map_map]
  exact h.ids

theorem durableSetMembers_ok {eventId : String} {members : List (String × D)} :
    durableSetMembers kind eventId accountId observedAt set = .ok members ↔
      members = (durableFullSet kind observedAt set).members ∧
        FormedSet kind accountId observedAt set := by
  unfold durableSetMembers
  simp only [bind_ok, exists_unit, eachApart_key_ok, reject_ok, pure_ok, not_or, not_not, and_true]
  constructor
  · rintro ⟨⟨hids, hrouted⟩, rfl⟩
    exact ⟨rfl, hids, hrouted⟩
  · rintro ⟨rfl, hids, hrouted⟩
    exact ⟨⟨hids, hrouted⟩, rfl⟩

/-- an observation that was recorded before is the same document -/
def RepeatsFact (evidence : SetEvidence D) (fact : SingleFact D) : Prop :=
  ∀ existing ∈ evidence.facts, existing.observedAt = fact.observedAt →
    existing.memberId = fact.memberId → existing.payloadHash = fact.payloadHash

def RepeatsSet (evidence : SetEvidence D) (set : DurableFullSet D) : Prop :=
  ∀ existing ∈ evidence.sets, existing.observedAt = set.observedAt →
    existing.payloadHash = set.payloadHash ∧ existing.members = set.members

theorem recordDurableSingleFact_ok :
    recordDurableSingleFact kind accountId evidence snapshot = .ok evidence' ↔
      evidence' = { evidence with facts := evidence.facts ++ [singleFact kind snapshot] } ∧
        RepeatsFact evidence (singleFact kind snapshot) := by
  unfold recordDurableSingleFact RepeatsFact
  simp only [bind_ok, exists_unit, reject_ok, pure_ok, not_exists, not_and, not_not]
  exact ⟨fun h => ⟨h.2.symm, h.1⟩, fun h => ⟨h.2, h.1.symm⟩⟩

theorem recordDurableFullSet_ok {added : DurableFullSet D} :
    recordDurableFullSet kind accountId evidence added = .ok evidence' ↔
      evidence' = { evidence with sets := evidence.sets ++ [added] } ∧ RepeatsSet evidence added := by
  unfold recordDurableFullSet RepeatsSet
  simp only [bind_ok, exists_unit, reject_ok, pure_ok, not_exists, not_and, not_or, not_not]
  exact ⟨fun h => ⟨h.2.symm, h.1⟩, fun h => ⟨h.2, h.1.symm⟩⟩

end

/-! ## the loop over the events -/

def positionFact {F : Type} (event : StoredCoreEvent F) : Option (PositionSnapshot F) :=
  match event.payload with
  | .fact (.position snapshot) => some snapshot
  | _ => none

def orderFact {F : Type} (event : StoredCoreEvent F) : Option (OrderSnapshot F) :=
  match event.payload with
  | .fact (.order snapshot) => some snapshot
  | _ => none

def resultFact {F : Type} (event : StoredCoreEvent F) : Option (ReconciliationResult F) :=
  match event.payload with
  | .result result => some result
  | _ => none

section
variable {F D : Type} [DecidableEq D] {digests : Digests F D}

/-- what the loop has recorded after these events -/
def gathered (digests : Digests F D) (events : List (StoredCoreEvent F)) : DurableEvidence D where
  positions :=
    { facts := (events.filterMap positionFact).map (singleFact (positionKind digests))
      sets := (events.filterMap resultFact).map fun result =>
        durableFullSet (positionKind digests) result.observedAt result.positions }
  orders :=
    { facts := (events.filterMap orderFact).map (singleFact (orderKind digests))
      sets := (events.filterMap resultFact).map fun result =>
        durableFullSet (orderKind digests) result.observedAt result.orders }

/-- what the loop asks of an event by itself -/
structure SoundEvent (digests : Digests F D) (event : StoredCoreEvent F) : Prop where
  typed : event.payload.eventType = event.metadata.eventType
  position : ∀ snapshot, positionFact event = some snapshot →
    event.metadata.accountId = some snapshot.accountId
  order : ∀ snapshot, orderFact event = some snapshot →
    event.metadata.accountId = some snapshot.accountId
  result : ∀ result, resultFact event = some result →
    event.metadata.accountId = some result.accountId ∧
      FormedSet (positionKind digests) result.accountId result.observedAt result.positions ∧
      FormedSet (orderKind digests) result.accountId result.observedAt result.orders

def AgreeSingle {S : Type} {key : S → AccountId × String} (kind : SetKind D key) (x y : S) : Prop :=
  kind.observedAt x = kind.observedAt y → (key x).2 = (key y).2 → kind.digest x = kind.digest y

def AgreeSet {S : Type} {key : S → AccountId × String} (kind : SetKind D key) (t u : Int)
    (xs ys : List S) : Prop :=
  t = u → kind.setDigest xs = kind.setDigest ys ∧
    (durableFullSet kind t xs).members = (durableFullSet kind u ys).members

/-- what it asks of an event and one before it -/
structure AgreeEvents (digests : Digests F D) (x y : StoredCoreEvent F) : Prop where
  positions : ∀ s t, positionFact x = some s → positionFact y = some t →
    AgreeSingle (positionKind digests) s t
  orders : ∀ s t, orderFact x = some s → orderFact y = some t →
    AgreeSingle (orderKind digests) s t
  positionSets : ∀ r q, resultFact x = some r → resultFact y = some q →
    AgreeSet (positionKind digests) r.observedAt q.observedAt r.positions q.positions
  orderSets : ∀ r q, resultFact x = some r → resultFact y = some q →
    AgreeSet (orderKind digests) r.observedAt q.observedAt r.orders q.orders

theorem repeatsFact_iff {S : Type} {key : S → AccountId × String} {kind : SetKind D key}
    {factOf : StoredCoreEvent F → Option S} {seen : List (StoredCoreEvent F)}
    {sets : List (DurableFullSet D)} {snapshot : S} :
    RepeatsFact ⟨(seen.filterMap factOf).map (singleFact kind), sets⟩ (singleFact kind snapshot) ↔
      ∀ y ∈ seen, ∀ s, factOf y = some s → AgreeSingle kind s snapshot := by
  constructor
  · intro h y hy s hs htime hid
    exact h (singleFact kind s)
      (List.mem_map_of_mem (List.mem_filterMap.mpr ⟨y, hy, hs⟩)) htime hid
  · intro h fact hfact htime hid
    obtain ⟨s, hs, rfl⟩ := List.mem_map.mp hfact
    obtain ⟨y, hy, hys⟩ := List.mem_filterMap.mp hs
    exact h y hy s hys htime hid

theorem repeatsSet_iff {S : Type} {key : S → AccountId × String} {kind : SetKind D key}
    {setOf : ReconciliationResult F → List S} {seen : List (StoredCoreEvent F)}
    {facts : List (SingleFact D)} {result : ReconciliationResult F} :
    RepeatsSet ⟨facts, (seen.filterMap resultFact).map fun r =>
        durableFullSet kind r.observedAt (setOf r)⟩
        (durableFullSet kind result.observedAt (setOf result)) ↔
      ∀ y ∈ seen, ∀ r, resultFact y = some r →
        AgreeSet kind r.observedAt result.observedAt (setOf r) (setOf result) := by
  constructor
  · intro h y hy r hr htime
    exact h (durableFullSet kind r.observedAt (setOf r))
      (List.mem_map_of_mem (List.mem_filterMap.mpr ⟨y, hy, hr⟩)) htime
  · intro h set hset htime
    obtain ⟨r, hr, rfl⟩ := List.mem_map.mp hset
    obtain ⟨y, hy, hyr⟩ := List.mem_filterMap.mp hr
    exact h y hy r hyr htime

theorem ensureDurableEvidenceAccount_ok {event : StoredCoreEvent F} {accountId : AccountId} :
    ensureDurableEvidenceAccount event accountId = .ok () ↔
      event.metadata.accountId = some accountId := by
  rw [ensureDurableEvidenceAccount, reject_ok, not_not]

theorem decodeEvent_ok {event : StoredCoreEvent F} {payload : EventPayload F} :
    decodeEvent event = .ok payload ↔
      payload = event.payload ∧ event.payload.eventType = event.metadata.eventType := by
  unfold decodeEvent
  simp only [bind_ok, exists_unit, reject_ok, pure_ok, not_not]
  exact ⟨fun h => ⟨h.2.symm, h.1⟩, fun h => ⟨h.2, h.1.symm⟩⟩

section
variable {accountId : AccountId} {seen : List (StoredCoreEvent F)} {metadata : CoreEventMetadata}
  {payload : EventPayload F} {evidence : DurableEvidence D}

theorem recordDurableEvent_skip (hposition : positionFact ⟨metadata, payload⟩ = none)
    (horder : orderFact ⟨metadata, payload⟩ = none)
    (hresult : resultFact ⟨metadata, payload⟩ = none)
    (hrecord : recordDurablePayload digests accountId (gathered digests seen) ⟨metadata, payload⟩
      payload = .ok (gathered digests seen)) :
    recordDurableEvent digests accountId (gathered digests seen) ⟨metadata, payload⟩ =
        .ok evidence ↔
      evidence = gathered digests (seen ++ [⟨metadata, payload⟩]) ∧
        SoundEvent digests ⟨metadata, payload⟩ ∧
        ∀ y ∈ seen, AgreeEvents digests y ⟨metadata, payload⟩ := by
  have hgathered : gathered digests (seen ++ [⟨metadata, payload⟩]) = gathered digests seen := by
    simp only [gathered, List.filterMap_append, List.filterMap_cons, List.filterMap_nil, hposition,
      horder, hresult, List.append_nil]
  rw [hgathered]
  simp only [recordDurableEvent, bind_ok, decodeEvent_ok]
  constructor
  · rintro ⟨_, ⟨rfl, htyped⟩, h⟩
    rw [hrecord] at h
    cases h
    refine ⟨rfl, ⟨htyped, ?_, ?_, ?_⟩, fun y _ => ⟨?_, ?_, ?_, ?_⟩⟩
    · rw [hposition]; exact fun _ h => (by cases h)
    · rw [horder]; exact fun _ h => (by cases h)
    · rw [hresult]; exact fun _ h => (by cases h)
    · rw [hposition]; exact fun _ _ _ h => (by cases h)
    · rw [horder]; exact fun _ _ _ h => (by cases h)
    · rw [hresult]; exact fun _ _ _ h => (by cases h)
    · rw [hresult]; exact fun _ _ _ h => (by cases h)
  · rintro ⟨rfl, hsound, -⟩
    exact ⟨payload, ⟨rfl, hsound.typed⟩, hrecord⟩

theorem recordDurableEvent_position {snapshot : PositionSnapshot F} :
    recordDurableEvent digests accountId (gathered digests seen)
        ⟨metadata, .fact (.position snapshot)⟩ = .ok evidence ↔
      evidence = gathered digests (seen ++ [⟨metadata, .fact (.position snapshot)⟩]) ∧
        SoundEvent digests ⟨metadata, .fact (.position snapshot)⟩ ∧
        ∀ y ∈ seen, AgreeEvents digests y ⟨metadata, .fact (.position snapshot)⟩ := by
  have hgathered : gathered digests (seen ++ [⟨metadata, .fact (.position snapshot)⟩]) =
      { gathered digests seen with positions :=
        { (gathered digests seen).positions with
          facts := (gathered digests seen).positions.facts ++
            [singleFact (positionKind digests) snapshot] } } := by
    simp only [gathered, List.filterMap_append, List.map_append, positionFact, orderFact, resultFact,
      List.filterMap_cons, List.filterMap_nil, List.append_nil, List.map_cons, List.map_nil]
  rw [hgathered]
  simp only [recordDurableEvent, bind_ok, decodeEvent_ok]
  constructor
  · rintro ⟨_, ⟨rfl, htyped⟩, h⟩
    simp only [recordDurablePayload, bind_ok, exists_unit, ensureDurableEvidenceAccount_ok,
      recordDurableSingleFact_ok, pure_ok] at h
    obtain ⟨hrouted, _, ⟨rfl, hrepeats⟩, rfl⟩ := h
    refine ⟨rfl, ⟨htyped, fun s hs => ?_, fun _ h => (by cases h), fun _ h => (by cases h)⟩,
      fun y hy => ⟨fun s t hs ht => ?_, fun _ _ _ h => (by cases h), fun _ _ _ h => (by cases h),
        fun _ _ _ h => (by cases h)⟩⟩
    · cases hs
      exact hrouted
    · cases ht
      exact repeatsFact_iff.mp hrepeats y hy s hs
  · rintro ⟨rfl, hsound, hagree⟩
    refine ⟨_, ⟨rfl, hsound.typed⟩, ?_⟩
    simp only [recordDurablePayload, bind_ok, exists_unit, ensureDurableEvidenceAccount_ok,
      recordDurableSingleFact_ok, pure_ok]
    refine ⟨hsound.position snapshot rfl, _, ⟨rfl, ?_⟩, rfl⟩
    exact repeatsFact_iff.mpr fun y hy s hs => (hagree y hy).positions s snapshot hs rfl

theorem recordDurableEvent_order {snapshot : OrderSnapshot F} :
    recordDurableEvent digests accountId (gathered digests seen)
        ⟨metadata, .fact (.order snapshot)⟩ = .ok evidence ↔
      evidence = gathered digests (seen ++ [⟨metadata, .fact (.order snapshot)⟩]) ∧
        SoundEvent digests ⟨metadata, .fact (.order snapshot)⟩ ∧
        ∀ y ∈ seen, AgreeEvents digests y ⟨metadata, .fact (.order snapshot)⟩ := by
  have hgathered : gathered digests (seen ++ [⟨metadata, .fact (.order snapshot)⟩]) =
      { gathered digests seen with orders :=
        { (gathered digests seen).orders with
          facts := (gathered digests seen).orders.facts ++
            [singleFact (orderKind digests) snapshot] } } := by
    simp only [gathered, List.filterMap_append, List.map_append, positionFact, orderFact, resultFact,
      List.filterMap_cons, List.filterMap_nil, List.append_nil, List.map_cons, List.map_nil]
  rw [hgathered]
  simp only [recordDurableEvent, bind_ok, decodeEvent_ok]
  constructor
  · rintro ⟨_, ⟨rfl, htyped⟩, h⟩
    simp only [recordDurablePayload, bind_ok, exists_unit, ensureDurableEvidenceAccount_ok,
      recordDurableSingleFact_ok, pure_ok] at h
    obtain ⟨hrouted, _, ⟨rfl, hrepeats⟩, rfl⟩ := h
    refine ⟨rfl, ⟨htyped, fun _ h => (by cases h), fun s hs => ?_, fun _ h => (by cases h)⟩,
      fun y hy => ⟨fun _ _ _ h => (by cases h), fun s t hs ht => ?_, fun _ _ _ h => (by cases h),
        fun _ _ _ h => (by cases h)⟩⟩
    · cases hs
      exact hrouted
    · cases ht
      exact repeatsFact_iff.mp hrepeats y hy s hs
  · rintro ⟨rfl, hsound, hagree⟩
    refine ⟨_, ⟨rfl, hsound.typed⟩, ?_⟩
    simp only [recordDurablePayload, bind_ok, exists_unit, ensureDurableEvidenceAccount_ok,
      recordDurableSingleFact_ok, pure_ok]
    refine ⟨hsound.order snapshot rfl, _, ⟨rfl, ?_⟩, rfl⟩
    exact repeatsFact_iff.mpr fun y hy s hs => (hagree y hy).orders s snapshot hs rfl

theorem recordDurableEvent_result {result : ReconciliationResult F} :
    recordDurableEvent digests accountId (gathered digests seen) ⟨metadata, .result result⟩ =
        .ok evidence ↔
      evidence = gathered digests (seen ++ [⟨metadata, .result result⟩]) ∧
        SoundEvent digests ⟨metadata, .result result⟩ ∧
        ∀ y ∈ seen, AgreeEvents digests y ⟨metadata, .result result⟩ := by
  have hgathered : gathered digests (seen ++ [⟨metadata, .result result⟩]) =
      ⟨{ (gathered digests seen).positions with
          sets := (gathered digests seen).positions.sets ++
            [durableFullSet (positionKind digests) result.observedAt result.positions] },
        { (gathered digests seen).orders with
          sets := (gathered digests seen).orders.sets ++
            [durableFullSet (orderKind digests) result.observedAt result.orders] }⟩ := by
    simp only [gathered, List.filterMap_append, List.map_append, positionFact, orderFact, resultFact,
      List.filterMap_cons, List.filterMap_nil, List.append_nil, List.map_cons, List.map_nil]
  rw [hgathered]
  simp only [recordDurableEvent, bind_ok, decodeEvent_ok]
  constructor
  · rintro ⟨_, ⟨rfl, htyped⟩, h⟩
    simp only [recordDurablePayload, bind_ok, exists_unit, ensureDurableEvidenceAccount_ok,
      durableSetMembers_ok, recordDurableFullSet_ok, pure_ok] at h
    obtain ⟨hrouted, _, ⟨rfl, hpositions⟩, _, ⟨rfl, horders⟩, _, ⟨rfl, hsameP⟩, _, ⟨rfl, hsameO⟩,
      rfl⟩ := h
    refine ⟨rfl, ⟨htyped, fun _ h => (by cases h), fun _ h => (by cases h), fun r hr => ?_⟩,
      fun y hy => ⟨fun _ _ _ h => (by cases h), fun _ _ _ h => (by cases h), fun r q hr hq => ?_,
        fun r q hr hq => ?_⟩⟩
    · cases hr
      exact ⟨hrouted, hpositions, horders⟩
    · cases hq
      exact repeatsSet_iff.mp hsameP y hy r hr
    · cases hq
      exact repeatsSet_iff.mp hsameO y hy r hr
  · rintro ⟨rfl, hsound, hagree⟩
    obtain ⟨hrouted, hpositions, horders⟩ := hsound.result result rfl
    refine ⟨_, ⟨rfl, hsound.typed⟩, ?_⟩
    simp only [recordDurablePayload, bind_ok, exists_unit, ensureDurableEvidenceAccount_ok,
      durableSetMembers_ok, recordDurableFullSet_ok, pure_ok]
    refine ⟨hrouted, _, ⟨rfl, hpositions⟩, _, ⟨rfl, horders⟩, _, ⟨rfl, ?_⟩, _, ⟨rfl, ?_⟩, rfl⟩
    · exact repeatsSet_iff.mpr fun y hy r hr => (hagree y hy).positionSets r result hr rfl
    · exact repeatsSet_iff.mpr fun y hy r hr => (hagree y hy).orderSets r result hr rfl

theorem recordDurableEvent_ok {event : StoredCoreEvent F} :
    recordDurableEvent digests accountId (gathered digests seen) event = .ok evidence ↔
      evidence = gathered digests (seen ++ [event]) ∧ SoundEvent digests event ∧
        ∀ y ∈ seen, AgreeEvents digests y event := by
  obtain ⟨metadata, payload⟩ := event
  match payload with
  | .fact (.account _) => exact recordDurableEvent_skip rfl rfl rfl rfl
  | .fact (.symbol _) => exact recordDurableEvent_skip rfl rfl rfl rfl
  | .fact (.marketBar _) => exact recordDurableEvent_skip rfl rfl rfl rfl
  | .request _ => exact recordDurableEvent_skip rfl rfl rfl rfl
  | .fact (.position _) => exact recordDurableEvent_position
  | .fact (.order _) => exact recordDurableEvent_order
  | .result _ => exact recordDurableEvent_result

end

end

/-! ## the facts and sets of an account -/

section
variable {F D S : Type} [DecidableEq D] {key : S → AccountId × String} {kind : SetKind D key}
  {accountId : AccountId} {results : List (ReconciliationResult F)}

theorem members_find {observedAt : Int} {set : List S} {snapshot : S}
    (hids : (set.map fun snapshot => (key snapshot).2).Nodup) (hdigest : Function.Injective kind.digest) :
    (((durableFullSet kind observedAt set).members.find? fun m => m.1 == (key snapshot).2).map
        Prod.snd) = some (kind.digest snapshot) ↔ snapshot ∈ set := by
  have hmem (m : String × D) : m ∈ (durableFullSet kind observedAt set).members ↔
      ∃ s ∈ set, ((key s).2, kind.digest s) = m := by
    rw [durableFullSet, mem_sortBy, List.mem_map]
  have hkeys : ((durableFullSet kind observedAt set).members.map Prod.fst).Nodup := by
    refine ((sortBy_perm Prod.fst _).map Prod.fst).nodup_iff.mpr ?_
    rw [List.map_map]
    exact hids
  constructor
  · intro h
    obtain ⟨m, hm, hsnd⟩ := Option.map_eq_some_iff.mp h
    obtain ⟨s, hs, rfl⟩ := (hmem m).mp (find_key hm).1
    rw [← hdigest hsnd]
    exact hs
  · intro hs
    rw [find_key_self hkeys ((hmem _).mpr ⟨snapshot, hs, rfl⟩)]
    rfl

/-- Where the sets of one time are one set, the last check says that every fact observed at the time of
a set is a member of it. -/
theorem validateDurableFacts_ok {setOf : ReconciliationResult F → List S}
    (hdigest : Function.Injective kind.digest) {facts : List S}
    (hformed : ∀ r ∈ results, FormedSet kind r.accountId r.observedAt (setOf r))
    (halike : ∀ r ∈ results, ∀ q ∈ results, r.observedAt = q.observedAt → setOf r = setOf q) :
    validateDurableFactsAgainstFullSets kind accountId ⟨facts.map (singleFact kind),
        results.map fun r => durableFullSet kind r.observedAt (setOf r)⟩ = .ok () ↔
      ∀ s ∈ facts, ∀ r ∈ results, r.observedAt = kind.observedAt s → s ∈ setOf r := by
  unfold validateDurableFactsAgainstFullSets
  rw [each_ok]
  simp only [mem_sortBy, List.mem_map, forall_exists_index, and_imp, forall_apply_eq_imp_iff₂]
  refine forall₂_congr fun s hs => ?_
  split
  · rename_i hnone
    refine ⟨fun _ r hr htime => ?_, fun _ => rfl⟩
    have hout := List.find?_eq_none.mp hnone _ (List.mem_map_of_mem hr)
    exact absurd (beq_iff_eq.mpr htime) hout
  · rename_i set hfound
    obtain ⟨hin, htime⟩ := find_key hfound
    obtain ⟨r, hr, rfl⟩ := List.mem_map.mp hin
    rw [reject_ok, not_not]
    refine (members_find (hformed r hr).ids hdigest).trans ?_
    constructor
    · intro hs q hq hqtime
      rw [← halike r hr q hq (htime.trans hqtime.symm)]
      exact hs
    · intro hall
      exact hall r hr htime

/-- the set that a result brings for one kind -/
def fullSetOf (setOf : ReconciliationResult F → List S) (result : ReconciliationResult F) :
    FullSet AccountId Int S :=
  ⟨result.accountId, result.observedAt, setOf result⟩

/-- the full sets of some results -/
def fullSets (setOf : ReconciliationResult F → List S) (results : Set (ReconciliationResult F)) :
    Set (FullSet AccountId Int S) :=
  {w | ∃ r ∈ results, w = fullSetOf setOf r}

abbrev CoherentSets (kind : SetKind D key) (facts : Set S) (sets : Set (FullSet AccountId Int S)) :
    Prop :=
  Coherent key (fun s => (key s).1) kind.observedAt facts sets

theorem coherent_iff (setOf : ReconciliationResult F → List S) (hdist : kind.Distinct)
    {facts : List S} (hfacts : ∀ s ∈ facts, (key s).1 = accountId)
    (hresults : ∀ r ∈ results, r.accountId = accountId) :
    CoherentSets kind {s | s ∈ facts} (fullSets setOf {r | r ∈ results}) ↔
      (∀ r ∈ results, FormedSet kind r.accountId r.observedAt (setOf r)) ∧
      (∀ s ∈ facts, ∀ t ∈ facts, AgreeSingle kind s t) ∧
      (∀ r ∈ results, ∀ q ∈ results,
        AgreeSet kind r.observedAt q.observedAt (setOf r) (setOf q)) ∧
      validateDurableFactsAgainstFullSets kind accountId ⟨facts.map (singleFact kind),
        results.map fun r => durableFullSet kind r.observedAt (setOf r)⟩ = .ok () := by
  constructor
  · intro h
    have hformed : ∀ r ∈ results, FormedSet kind r.accountId r.observedAt (setOf r) := by
      intro r hr
      have hin : fullSetOf setOf r ∈ fullSets setOf {r | r ∈ results} := ⟨r, hr, rfl⟩
      refine ⟨?_, h.formed _ hin⟩
      refine List.Nodup.map_on (fun x hx y hy hid => ?_) (List.Nodup.of_map key (h.keyed _ hin))
      refine List.inj_on_of_nodup_map (h.keyed _ hin) hx hy (Prod.ext ?_ hid)
      rw [(h.formed _ hin x hx).1, (h.formed _ hin y hy).1]
    have halike : ∀ r ∈ results, ∀ q ∈ results, r.observedAt = q.observedAt → setOf r = setOf q := by
      intro r hr q hq htime
      refine h.alike (fullSetOf setOf r) ⟨r, hr, rfl⟩ (fullSetOf setOf q) ⟨q, hq, rfl⟩ ?_ htime
      exact (hresults r hr).trans (hresults q hq).symm
    refine ⟨hformed, fun s hs t ht htime hid => ?_, fun r hr q hq htime => ?_, ?_⟩
    · have hkey : key s = key t := Prod.ext ((hfacts s hs).trans (hfacts t ht).symm) hid
      rw [h.single s hs t ht hkey htime]
    · rw [htime, halike r hr q hq htime]
      exact ⟨rfl, rfl⟩
    · refine (validateDurableFacts_ok hdist.single hformed halike).mpr fun s hs r hr htime => ?_
      exact h.meets s hs _ ⟨r, hr, rfl⟩ ((hresults r hr).trans (hfacts s hs).symm) htime
  · rintro ⟨hformed, hsingle, hsets, hcheck⟩
    have halike : ∀ r ∈ results, ∀ q ∈ results, r.observedAt = q.observedAt → setOf r = setOf q :=
      fun r hr q hq htime => hdist.set (hsets r hr q hq htime).1
    have hmeets := (validateDurableFacts_ok hdist.single hformed halike).mp hcheck
    constructor
    · intro s hs t ht hkey htime
      exact hdist.single (hsingle s hs t ht htime (congrArg Prod.snd hkey))
    · rintro w ⟨r, hr, rfl⟩
      exact (hformed r hr).routed
    · rintro w ⟨r, hr, rfl⟩
      exact (hformed r hr).keys
    · rintro v ⟨r, hr, rfl⟩ w ⟨q, hq, rfl⟩ - htime
      exact halike r hr q hq htime
    · rintro s hs w ⟨r, hr, rfl⟩ - htime
      exact hmeets s hs r hr htime

end

/-! ## the whole check -/

section
variable {F D : Type} [DecidableEq D] {digests : Digests F D}

theorem AgreeEvents.refl (x : StoredCoreEvent F) : AgreeEvents digests x x := by
  refine ⟨fun s t hs ht _ _ => ?_, fun s t hs ht _ _ => ?_, fun r q hr hq _ => ?_,
    fun r q hr hq _ => ?_⟩
  · rw [hs] at ht
    cases ht
    rfl
  · rw [hs] at ht
    cases ht
    rfl
  · rw [hr] at hq
    cases hq
    exact ⟨rfl, rfl⟩
  · rw [hr] at hq
    cases hq
    exact ⟨rfl, rfl⟩

instance AgreeEvents.symm : Std.Symm (AgreeEvents digests) where
  symm x y h := by
    refine ⟨fun s t hs ht htime hid => ?_, fun s t hs ht htime hid => ?_,
      fun r q hr hq htime => ?_, fun r q hr hq htime => ?_⟩
    · exact (h.positions t s ht hs htime.symm hid.symm).symm
    · exact (h.orders t s ht hs htime.symm hid.symm).symm
    · exact (h.positionSets q r hq hr htime.symm).imp Eq.symm Eq.symm
    · exact (h.orderSets q r hq hr htime.symm).imp Eq.symm Eq.symm

variable {events : List (StoredCoreEvent F)}

theorem pairwise_agree_iff :
    events.Pairwise (AgreeEvents digests) ↔ ∀ x ∈ events, ∀ y ∈ events, AgreeEvents digests x y :=
  ⟨fun h _ hx _ hy => h.forall_of_forall (fun z _ => AgreeEvents.refl z) hx hy,
    List.pairwise_of_forall_mem_list⟩

/-- the event carries its type, and the account that its payload names -/
structure RoutedEvent (event : StoredCoreEvent F) : Prop where
  typed : event.payload.eventType = event.metadata.eventType
  fact : ∀ value accountId, event.payload = .fact value → value.accountId = some accountId →
    event.metadata.accountId = some accountId
  bar : ∀ value, event.payload = .fact value → ∃ accountId, event.metadata.accountId = some accountId
  result : ∀ result, event.payload = .result result →
    event.metadata.accountId = some result.accountId

def positionFacts (events : List (StoredCoreEvent F)) : Set (PositionSnapshot F) :=
  {s | ∃ e ∈ events, e.payload = .fact (.position s)}

def orderFacts (events : List (StoredCoreEvent F)) : Set (OrderSnapshot F) :=
  {s | ∃ e ∈ events, e.payload = .fact (.order s)}

def resultFacts (events : List (StoredCoreEvent F)) : Set (ReconciliationResult F) :=
  {r | ∃ e ∈ events, e.payload = .result r}

variable {event : StoredCoreEvent F}

theorem positionFact_eq {snapshot : PositionSnapshot F} :
    positionFact event = some snapshot ↔ event.payload = .fact (.position snapshot) := by
  unfold positionFact
  split
  · rename_i s h
    rw [h]
    exact ⟨fun h => by cases h; rfl, fun h => by cases h; rfl⟩
  · rename_i h
    exact ⟨fun h' => (by cases h'), fun h' => absurd h' (h snapshot)⟩

theorem orderFact_eq {snapshot : OrderSnapshot F} :
    orderFact event = some snapshot ↔ event.payload = .fact (.order snapshot) := by
  unfold orderFact
  split
  · rename_i s h
    rw [h]
    exact ⟨fun h => by cases h; rfl, fun h => by cases h; rfl⟩
  · rename_i h
    exact ⟨fun h' => (by cases h'), fun h' => absurd h' (h snapshot)⟩

theorem resultFact_eq {result : ReconciliationResult F} :
    resultFact event = some result ↔ event.payload = .result result := by
  unfold resultFact
  split
  · rename_i r h
    rw [h]
    exact ⟨fun h => by cases h; rfl, fun h => by cases h; rfl⟩
  · rename_i h
    exact ⟨fun h' => (by cases h'), fun h' => absurd h' (h result)⟩

/-- the facts and sets of the account's positions and orders do not contradict each other -/
structure AccountCoherent (digests : Digests F D) (events : List (StoredCoreEvent F))
    (accountId : AccountId) : Prop where
  positions : CoherentSets (positionKind digests)
    {s | s ∈ positionFacts events ∧ s.accountId = accountId}
    (fullSets ReconciliationResult.positions
      {r | r ∈ resultFacts events ∧ r.accountId = accountId})
  orders : CoherentSets (orderKind digests) {s | s ∈ orderFacts events ∧ s.accountId = accountId}
    (fullSets ReconciliationResult.orders {r | r ∈ resultFacts events ∧ r.accountId = accountId})

/-- the rows that the check of the account reads -/
def accountRows (events : List (StoredCoreEvent F)) (accountId : AccountId) :
    List (StoredCoreEvent F) :=
  sortBy (fun e : StoredCoreEvent F => e.metadata.eventId) (events.filter fun e =>
    e.metadata.accountId == some accountId && setEventTypes.contains e.metadata.eventType)

theorem mem_accountRows {accountId : AccountId} :
    event ∈ accountRows events accountId ↔ event ∈ events ∧
      event.metadata.accountId = some accountId ∧ event.metadata.eventType ∈ setEventTypes := by
  rw [accountRows, mem_sortBy, List.mem_filter, Bool.and_eq_true, beq_iff_eq, List.contains_iff_mem]

theorem validateAccountDurable_rows {events : EventTable F} {accountId : AccountId} :
    validateAccountDurable digests events accountId = .ok () ↔
      (∀ e ∈ accountRows events.rows accountId, SoundEvent digests e) ∧
      (∀ x ∈ accountRows events.rows accountId, ∀ y ∈ accountRows events.rows accountId,
        AgreeEvents digests x y) ∧
      validateDurableFactsAgainstFullSets (positionKind digests) accountId
        (gathered digests (accountRows events.rows accountId)).positions = .ok () ∧
      validateDurableFactsAgainstFullSets (orderKind digests) accountId
        (gathered digests (accountRows events.rows accountId)).orders = .ok () := by
  have hloop (evidence : DurableEvidence D) :
      (accountRows events.rows accountId).foldlM (recordDurableEvent digests accountId)
          ⟨⟨[], []⟩, ⟨[], []⟩⟩ = .ok evidence ↔
        evidence = gathered digests (accountRows events.rows accountId) ∧
          (∀ e ∈ accountRows events.rows accountId, SoundEvent digests e) ∧
          (accountRows events.rows accountId).Pairwise (AgreeEvents digests) := by
    have h : (accountRows events.rows accountId).foldlM (recordDurableEvent digests accountId)
        (gathered digests []) = .ok evidence ↔ _ :=
      foldlM_gather (gathered digests) (SoundEvent digests) (AgreeEvents digests)
        fun seen x b => recordDurableEvent_ok
    simp only [List.nil_append, List.not_mem_nil, false_imp_iff, implies_true, true_and] at h
    exact h
  unfold validateAccountDurable
  simp only [bind_ok, exists_unit]
  constructor
  · rintro ⟨evidence, h, hpositions, horders⟩
    obtain ⟨rfl, hsound, hagree⟩ := (hloop evidence).mp h
    exact ⟨hsound, pairwise_agree_iff.mp hagree, hpositions, horders⟩
  · rintro ⟨hsound, hagree, hpositions, horders⟩
    exact ⟨_, (hloop _).mpr ⟨rfl, hsound, pairwise_agree_iff.mpr hagree⟩, hpositions, horders⟩

/-- the digests tell the documents of each kind apart -/
structure Digests.Distinct (digests : Digests F D) : Prop where
  account : Function.Injective digests.account
  symbol : Function.Injective digests.symbol
  bar : Function.Injective digests.bar
  positions : (positionKind digests).Distinct
  orders : (orderKind digests).Distinct

theorem mem_scoped {S : Type} {factOf : StoredCoreEvent F → Option S} (accountOf : S → AccountId)
    {accountId : AccountId} {s : S}
    (hown : ∀ e ∈ events, ∀ s, factOf e = some s →
      e.metadata.accountId = some (accountOf s) ∧ e.metadata.eventType ∈ setEventTypes) :
    s ∈ (accountRows events accountId).filterMap factOf ↔
      (∃ e ∈ events, factOf e = some s) ∧ accountOf s = accountId := by
  simp only [List.mem_filterMap, mem_accountRows]
  constructor
  · rintro ⟨e, ⟨he, hat, -⟩, hs⟩
    exact ⟨⟨e, he, hs⟩, Option.some.inj ((hown e he s hs).1.symm.trans hat)⟩
  · rintro ⟨⟨e, he, hs⟩, rfl⟩
    exact ⟨e, ⟨he, hown e he s hs⟩, hs⟩

/-- the facts and results of the account, as the loop has them -/
structure ScopedFacts (events : List (StoredCoreEvent F)) (accountId : AccountId) : Prop where
  positions : ∀ s, s ∈ (accountRows events accountId).filterMap positionFact ↔
    s ∈ positionFacts events ∧ s.accountId = accountId
  orders : ∀ s, s ∈ (accountRows events accountId).filterMap orderFact ↔
    s ∈ orderFacts events ∧ s.accountId = accountId
  results : ∀ r, r ∈ (accountRows events accountId).filterMap resultFact ↔
    r ∈ resultFacts events ∧ r.accountId = accountId

theorem scopedFacts (accountId : AccountId) (hrouted : ∀ e ∈ events, RoutedEvent e) :
    ScopedFacts events accountId := by
  refine ⟨fun s => ?_, fun s => ?_, fun r => ?_⟩
  · refine (mem_scoped PositionSnapshot.accountId fun e he s hs => ?_).trans ?_
    · rw [positionFact_eq] at hs
      refine ⟨(hrouted e he).fact _ s.accountId hs rfl, ?_⟩
      rw [← (hrouted e he).typed, hs]
      exact List.mem_cons_self
    · simp only [positionFact_eq]
      exact Iff.rfl
  · refine (mem_scoped OrderSnapshot.accountId fun e he s hs => ?_).trans ?_
    · rw [orderFact_eq] at hs
      refine ⟨(hrouted e he).fact _ s.accountId hs rfl, ?_⟩
      rw [← (hrouted e he).typed, hs]
      exact List.mem_cons_of_mem _ List.mem_cons_self
    · simp only [orderFact_eq]
      exact Iff.rfl
  · refine (mem_scoped ReconciliationResult.accountId fun e he r hr => ?_).trans ?_
    · rw [resultFact_eq] at hr
      refine ⟨(hrouted e he).result r hr, ?_⟩
      rw [← (hrouted e he).typed, hr]
      exact List.mem_cons_of_mem _ (List.mem_cons_of_mem _ List.mem_cons_self)
    · simp only [resultFact_eq]
      exact Iff.rfl

/-- Where the events carry their types and accounts, the check passes exactly if the facts and the
full sets of the account do not contradict each other. -/
theorem validateAccountDurable_ok (hdist : digests.Distinct) {events : EventTable F}
    {accountId : AccountId} (hrouted : ∀ e ∈ events.rows, RoutedEvent e) :
    validateAccountDurable digests events accountId = .ok () ↔
      AccountCoherent digests events.rows accountId := by
  have hscoped := scopedFacts accountId hrouted
  have hresults : ∀ r ∈ (accountRows events.rows accountId).filterMap resultFact,
      r.accountId = accountId := fun r hr => ((hscoped.results r).mp hr).2
  have hpositions := coherent_iff ReconciliationResult.positions hdist.positions
    (fun s hs => ((hscoped.positions s).mp hs).2) hresults
  have horders := coherent_iff ReconciliationResult.orders hdist.orders
    (fun s hs => ((hscoped.orders s).mp hs).2) hresults
  have hpositionSet : {s | s ∈ (accountRows events.rows accountId).filterMap positionFact} =
      {s | s ∈ positionFacts events.rows ∧ s.accountId = accountId} := Set.ext hscoped.positions
  have horderSet : {s | s ∈ (accountRows events.rows accountId).filterMap orderFact} =
      {s | s ∈ orderFacts events.rows ∧ s.accountId = accountId} := Set.ext hscoped.orders
  have hresultSet : {r | r ∈ (accountRows events.rows accountId).filterMap resultFact} =
      {r | r ∈ resultFacts events.rows ∧ r.accountId = accountId} := Set.ext hscoped.results
  rw [hpositionSet, hresultSet] at hpositions
  rw [horderSet, hresultSet] at horders
  rw [validateAccountDurable_rows]
  constructor
  · rintro ⟨hsound, hagree, hpositionsMeet, hordersMeet⟩
    have hformed : ∀ r ∈ (accountRows events.rows accountId).filterMap resultFact,
        FormedSet (positionKind digests) r.accountId r.observedAt r.positions ∧
          FormedSet (orderKind digests) r.accountId r.observedAt r.orders := by
      intro r hr
      obtain ⟨e, he, her⟩ := List.mem_filterMap.mp hr
      exact ((hsound e he).result r her).2
    refine ⟨hpositions.mpr ⟨fun r hr => (hformed r hr).1, fun s hs t ht => ?_, fun r hr q hq => ?_,
      hpositionsMeet⟩, horders.mpr ⟨fun r hr => (hformed r hr).2, fun s hs t ht => ?_,
      fun r hr q hq => ?_, hordersMeet⟩⟩
    · obtain ⟨x, hx, hxs⟩ := List.mem_filterMap.mp hs
      obtain ⟨y, hy, hyt⟩ := List.mem_filterMap.mp ht
      exact (hagree x hx y hy).positions s t hxs hyt
    · obtain ⟨x, hx, hxr⟩ := List.mem_filterMap.mp hr
      obtain ⟨y, hy, hyq⟩ := List.mem_filterMap.mp hq
      exact (hagree x hx y hy).positionSets r q hxr hyq
    · obtain ⟨x, hx, hxs⟩ := List.mem_filterMap.mp hs
      obtain ⟨y, hy, hyt⟩ := List.mem_filterMap.mp ht
      exact (hagree x hx y hy).orders s t hxs hyt
    · obtain ⟨x, hx, hxr⟩ := List.mem_filterMap.mp hr
      obtain ⟨y, hy, hyq⟩ := List.mem_filterMap.mp hq
      exact (hagree x hx y hy).orderSets r q hxr hyq
  · rintro ⟨hp, ho⟩
    obtain ⟨hformedP, hsingleP, hsetsP, hmeetP⟩ := hpositions.mp hp
    obtain ⟨hformedO, hsingleO, hsetsO, hmeetO⟩ := horders.mp ho
    refine ⟨fun e he => ?_, fun x hx y hy => ⟨fun s t hs ht => ?_, fun s t hs ht => ?_,
      fun r q hr hq => ?_, fun r q hr hq => ?_⟩, hmeetP, hmeetO⟩
    · have hevent := hrouted e (mem_accountRows.mp he).1
      refine ⟨hevent.typed, fun s hs => ?_, fun s hs => ?_, fun r hr => ?_⟩
      · exact hevent.fact _ _ (positionFact_eq.mp hs) rfl
      · exact hevent.fact _ _ (orderFact_eq.mp hs) rfl
      · have hin := List.mem_filterMap.mpr ⟨e, he, hr⟩
        exact ⟨hevent.result r (resultFact_eq.mp hr), hformedP r hin, hformedO r hin⟩
    · exact hsingleP s (List.mem_filterMap.mpr ⟨x, hx, hs⟩) t (List.mem_filterMap.mpr ⟨y, hy, ht⟩)
    · exact hsingleO s (List.mem_filterMap.mpr ⟨x, hx, hs⟩) t (List.mem_filterMap.mpr ⟨y, hy, ht⟩)
    · exact hsetsP r (List.mem_filterMap.mpr ⟨x, hx, hr⟩) q (List.mem_filterMap.mpr ⟨y, hy, hq⟩)
    · exact hsetsO r (List.mem_filterMap.mpr ⟨x, hx, hr⟩) q (List.mem_filterMap.mpr ⟨y, hy, hq⟩)

end

end Sinan.Projection
