import Mathlib.Data.List.Pairwise
import Sinan.Execution.Totality

/-!
# What a built bundle contains

Each leg, command and state of a bundle is tied to its intended leg, to the approved leg of the same
id and to the metadata of its symbol (`Bound`); the bundle as a whole keeps the order of the intended
legs and repeats no identity (`FaithfulBundle`).
-/

set_option linter.unusedSectionVars false

namespace Sinan.Execution

open Lib Protocol Risk

section
variable {F : Type} [F64 F]

/-- the common expiry of the commands -/
def commandExpiry (request : ExecutionBuildRequest F) : Int :=
  min (min request.riskRequest.intent.signalExpiresAt request.riskResult.validUntil)
    (request.nowMs + request.policy.maxCommandTtlMs)

/-- the command executes the intended leg as it was approved -/
structure Bound (mac : Mac) (request : ExecutionBuildRequest F) (intent : IntentLeg F)
    (built : BuiltLeg F) : Prop where
  legId : built.leg.definition.legId = intent.legId ∧ built.command.legId = some intent.legId
  planId : built.command.planId = some request.planId
  approval : ∃ approved ∈ request.riskResult.adjustedLegs.getD [],
    approved.legId = intent.legId ∧ approved.symbol = intent.symbol ∧
    AdjustedRiskLegAction.toExecution approved.action = intent.action ∧
    built.leg.definition.lots = some approved.lots ∧ built.command.lots = some approved.lots ∧
    built.leg.definition.sl = some approved.approvedSl ∧
    built.command.sl = some approved.approvedSl
  intended : built.leg.definition.ratio = intent.ratio ∧ built.leg.definition.tp = intent.tp ∧
    built.command.tp = intent.tp
  symbol : built.leg.definition.symbol = intent.symbol ∧ built.command.symbol = intent.symbol
  action : built.leg.definition.action = intent.action ∧ built.command.action = intent.action
  expiry : built.command.expiresAt = commandExpiry request
  signed : ∃ metadata ∈ request.riskRequest.symbolMetadata, metadata.symbol = intent.symbol ∧
    ∃ format, CommandSigningFormat.fromSymbolMetadata metadata = .ok format ∧
      verifyExecutionCommandHmac mac built.command request.signingSecret format = .ok ()
  initial : initialCommandState built.command request.nowMs = .ok built.state

/-- a bundle against the request it was built from -/
structure FaithfulBundle (mac : Mac) (digest : RequestDigest F)
    (request : ExecutionBuildRequest F) (bundle : ExecutionBundle F) : Prop where
  rows : ∃ (legs : List (IntentLeg F)) (built : List (BuiltLeg F)),
    intentLegs request.riskRequest = .ok legs ∧
    bundle.plan.legs = built.map BuiltLeg.leg ∧
    bundle.commands = built.map BuiltLeg.command ∧
    bundle.commandStates = built.map BuiltLeg.state ∧
    List.Forall₂ (Bound mac request) legs built
  legIds : (legIds bundle.plan.legs).Nodup
  approvedIds : ((request.riskResult.adjustedLegs.getD []).map AdjustedRiskLeg.legId).Nodup
  commandIds : (bundle.commands.map ExecutionCommand.commandId).Nodup
  idempotencyKeys : (bundle.commands.map ExecutionCommand.idempotencyKey).Nodup
  window : request.nowMs < commandExpiry request
  plan : bundle.plan.validate = .ok ()
  approval : request.riskResult.evaluatedAt ≤ request.nowMs ∧
    request.nowMs < request.riskResult.validUntil
  hash : digest.hash request.riskRequest = request.riskResult.riskRequestHash

/-! ## one leg -/

/-- where a built leg comes from -/
def Sources (mac : Mac) (request : ExecutionBuildRequest F) (p : Prepared F)
    (intent : IntentLeg F) (built : BuiltLeg F) : Prop :=
  ∃ approved resolved metadata format hmac,
    p.adjusted.find? (fun leg => leg.legId == intent.legId) = some approved ∧
    p.resolved.find? (fun leg => leg.legId == intent.legId) = some resolved ∧
    p.metadata.lookup intent.legId = some metadata ∧
    validateLegBinding intent approved resolved metadata = .ok () ∧
    CommandSigningFormat.fromSymbolMetadata metadata = .ok format ∧
    signExecutionCommand mac (unsignedCommand request p.expiresAt intent approved resolved metadata)
      request.signingSecret format = .ok hmac ∧
    built.leg = executionLeg intent approved resolved ∧
    built.command =
      { unsignedCommand request p.expiresAt intent approved resolved metadata with hmac := hmac } ∧
    initialCommandState built.command request.nowMs = .ok built.state

theorem liftSigning_ok {α : Type} {r : SigningCheck F α} {a : α} :
    liftSigning r = .ok a ↔ r = .ok a := by
  cases r with
  | error e => exact ⟨fun h => (by cases h), fun h => (by cases h)⟩
  | ok b => exact ⟨fun h => by cases h; rfl, fun h => by cases h; rfl⟩

theorem liftState_ok {α : Type} {r : CommandCheck α} {a : α} :
    liftState (F := F) r = .ok a ↔ r = .ok a := by
  cases r with
  | error e => exact ⟨fun h => (by cases h), fun h => (by cases h)⟩
  | ok b => exact ⟨fun h => by cases h; rfl, fun h => by cases h; rfl⟩

theorem liftPlan_ok {r : PlanCheck} : liftPlan (F := F) r = .ok () ↔ r = .ok () := by
  cases r with
  | error e => exact ⟨fun h => (by cases h), fun h => (by cases h)⟩
  | ok b => exact ⟨fun _ => rfl, fun _ => rfl⟩

variable {intent : IntentLeg F}

theorem buildLeg_sources {mac : Mac} {request : ExecutionBuildRequest F} {p : Prepared F}
    {built : BuiltLeg F} (h : buildLeg mac request p intent = .ok built) :
    Sources mac request p intent built := by
  simp only [buildLeg, bind_ok, exists_unit, need_ok, pure_ok, liftSigning_ok, liftState_ok] at h
  obtain ⟨approved, happroved, resolved, hresolved, metadata, hmetadata, hbinding, format, hformat,
    hmac, hsigned, state, hstate, rfl⟩ := h
  exact ⟨approved, resolved, metadata, format, hmac, happroved, hresolved, hmetadata, hbinding,
    hformat, hsigned, rfl, rfl, hstate⟩

theorem indexMetadataLegs_entry {accountId : AccountId}
    {metadata : List (SymbolMetadataSnapshot F)} {legs : List (IntentLeg F)}
    {map : List (LegId × SymbolMetadataSnapshot F)}
    (h : indexMetadataLegs accountId metadata legs = .ok map) :
    ∀ entry ∈ map, entry.2 ∈ metadata := by
  induction legs generalizing map with
  | nil =>
    cases h
    exact fun entry hentry => absurd hentry List.not_mem_nil
  | cons leg legs ih =>
    simp only [indexMetadataLegs, bind_ok, exists_unit, need_ok, reject_ok, pure_ok] at h
    obtain ⟨found, hfound, -, others, hothers, rfl⟩ := h
    intro entry hentry
    rcases List.mem_append.mp hentry with hentry | hentry
    · exact ih hothers entry hentry
    · rw [List.mem_singleton.mp hentry]
      exact (find_key hfound).1

theorem lookup_mem {β : Type} {k : LegId} {b : β} {xs : List (LegId × β)}
    (h : xs.lookup k = some b) : (k, b) ∈ xs := by
  induction xs with
  | nil => cases h
  | cons x xs ih =>
    rw [List.lookup_cons] at h
    by_cases hk : k = x.1
    · subst hk
      rw [beq_self_eq_true] at h
      cases h
      exact List.mem_cons_self
    · rw [beq_false_of_ne hk] at h
      exact List.mem_cons_of_mem x (ih h)

theorem Joined.metadata_mem {request : ExecutionBuildRequest F} {p : Prepared F}
    (h : Joined request p) {id : LegId} {m : SymbolMetadataSnapshot F}
    (hm : p.metadata.lookup id = some m) : m ∈ request.riskRequest.symbolMetadata := by
  have hmetadata := h.metadata
  simp only [indexMetadata, bind_ok, exists_unit] at hmetadata
  exact indexMetadataLegs_entry hmetadata.2 (id, m) (lookup_mem hm)

theorem Joined.expiresAt_eq {request : ExecutionBuildRequest F} {p : Prepared F}
    (h : Joined request p) : p.expiresAt = commandExpiry request := by
  obtain ⟨ttl, httl, hexpiry⟩ := h.expiry
  rw [hexpiry, checkedAdd_some httl]
  rfl

theorem Sources.bound {mac : Mac} {request : ExecutionBuildRequest F} {p : Prepared F}
    {built : BuiltLeg F} (h : Sources mac request p intent built) (hjoined : Joined request p) :
    Bound mac request intent built := by
  obtain ⟨leg, command, state⟩ := built
  obtain ⟨approved, resolved, metadata, format, hmac, happroved, hresolved, hmetadata, hbinding,
    hformat, hsigned, rfl, rfl, hstate⟩ := h
  simp only [validateLegBinding, bind_ok, exists_unit, reject_ok, not_or, not_not, ne_eq]
    at hbinding
  obtain ⟨⟨hid, hsymbol, haction, -, hmsymbol⟩, -⟩ := hbinding
  have hmem : approved ∈ request.riskResult.adjustedLegs.getD [] := by
    rw [hjoined.adjusted]
    exact (find_key happroved).1
  exact
    { legId := ⟨rfl, rfl⟩
      planId := rfl
      approval := ⟨approved, hmem, hid, hsymbol, haction, rfl, rfl, rfl, rfl⟩
      intended := ⟨rfl, rfl, rfl⟩
      symbol := ⟨rfl, rfl⟩
      action := ⟨rfl, rfl⟩
      expiry := hjoined.expiresAt_eq
      signed := ⟨metadata, hjoined.metadata_mem hmetadata, hmsymbol, format, hformat,
        verify_signed hsigned⟩
      initial := hstate }

/-! ## identities across the legs -/

theorem Joined.resolved_apart {request : ExecutionBuildRequest F} {p : Prepared F}
    (h : Joined request p) {x y : ResolvedLegExecution F} (hx : x ∈ p.resolved)
    (hy : y ∈ p.resolved) (hclash : resolvedClash x y = true) : x = y := by
  have hresolved := h.resolved
  simp only [indexResolved, bind_ok, exists_unit, pure_ok, eachApart_ok] at hresolved
  obtain ⟨-, ⟨hpairwise, -⟩, heq⟩ := hresolved
  rw [heq] at hpairwise
  have hsymm : Std.Symm fun y x : ResolvedLegExecution F => resolvedClash y x = false := by
    refine ⟨fun a b hab => ?_⟩
    simp only [resolvedClash, Bool.or_eq_false_iff, beq_eq_false_iff_ne, ne_eq] at hab ⊢
    exact ⟨⟨fun e => hab.1.1 e.symm, fun e => hab.1.2 e.symm⟩, fun e => hab.2 e.symm⟩
  by_contra hne
  have hfalse := hpairwise.forall hx hy hne
  rw [hclash] at hfalse
  exact Bool.noConfusion hfalse

theorem Sources.resolved {mac : Mac} {request : ExecutionBuildRequest F} {p : Prepared F}
    {built : BuiltLeg F} (h : Sources mac request p intent built) :
    ∃ r ∈ p.resolved, r.legId = built.leg.definition.legId ∧
      r.commandId = built.command.commandId ∧
      r.idempotencyKey = built.command.idempotencyKey := by
  obtain ⟨leg, command, state⟩ := built
  obtain ⟨approved, resolved, metadata, format, hmac, -, hresolved, -, -, -, -, rfl, rfl, -⟩ := h
  obtain ⟨hmem, hkey⟩ := find_key hresolved
  exact ⟨resolved, hmem, hkey, rfl, rfl⟩

section
variable {mac : Mac} {request : ExecutionBuildRequest F} {p : Prepared F}
  {built : List (BuiltLeg F)}

theorem sources_legIds (h : List.Forall₂ (Sources mac request p) legs built) :
    legIds (built.map BuiltLeg.leg) = IntentLeg.ids legs := by
  induction h with
  | nil => rfl
  | cons hleg _ ih =>
    obtain ⟨_, _, _, _, _, -, -, -, -, -, -, hbuilt, -, -⟩ := hleg
    show _ :: legIds _ = _ :: IntentLeg.ids _
    rw [ih, hbuilt]
    rfl

theorem sources_distinct (hjoined : Joined request p) (key : BuiltLeg F → String)
    (field : ResolvedLegExecution F → String)
    (hsource : ∀ b ∈ built, ∃ r ∈ p.resolved, r.legId = b.leg.definition.legId ∧ field r = key b)
    (hclash : ∀ x y : ResolvedLegExecution F, field x = field y → resolvedClash x y = true)
    (hids : (legIds (built.map BuiltLeg.leg)).Nodup) : (built.map key).Nodup := by
  have hlegs : (built.map fun b => b.leg.definition.legId).Nodup := by
    unfold legIds at hids
    rw [List.map_map] at hids
    exact hids
  rw [List.Nodup, List.pairwise_map] at hlegs ⊢
  refine hlegs.imp_of_mem ?_
  intro a b ha hb hne hkey
  obtain ⟨x, hx, hxid, hxkey⟩ := hsource a ha
  obtain ⟨y, hy, hyid, hykey⟩ := hsource b hb
  have hsame : x = y := hjoined.resolved_apart hx hy (hclash x y (by rw [hxkey, hykey, hkey]))
  exact hne (by rw [← hxid, ← hyid, hsame])

end

/-! ## the bundle -/

theorem validateTopology_distinct {mode : ExecutionPlanMode} {legs : List (IntentLeg F)}
    {resolved : List (ResolvedLegExecution F)} (h : validateTopology mode legs resolved = .ok ()) :
    (IntentLeg.ids legs).Nodup := by
  simp only [validateTopology, bind_ok, exists_unit, reject_ok, not_not] at h
  exact h.1

theorem buildExecution_built {mac : Mac} {digest : RequestDigest F}
    {request : ExecutionBuildRequest F} {bundle : ExecutionBundle F}
    (h : buildExecution mac digest request = .ok (.built bundle)) :
    ∃ p, Reaches digest request p ∧ assemble mac request p = .ok (.built bundle) := by
  unfold buildExecution at h
  rw [bind_ok, exists_unit] at h
  obtain ⟨hcommon, h⟩ := h
  cases haction : request.riskRequest.intent.action with
  | hold =>
    rw [haction] at h
    simp only [bind_ok, pure_ok, exists_unit, reduceCtorEq, and_false] at h
  | close =>
    rw [haction] at h
    cases h
  | buy =>
    rw [haction] at h
    obtain ⟨p, hp, hassemble⟩ := bind_ok.mp h
    exact ⟨p, ⟨hcommon, .inl haction, hp⟩, hassemble⟩
  | sell =>
    rw [haction] at h
    obtain ⟨p, hp, hassemble⟩ := bind_ok.mp h
    exact ⟨p, ⟨hcommon, .inr haction, hp⟩, hassemble⟩

theorem validateCommon_window {digest : RequestDigest F} {request : ExecutionBuildRequest F}
    (h : validateCommon digest request = .ok ()) :
    (request.riskResult.evaluatedAt ≤ request.nowMs ∧
      request.nowMs < request.riskResult.validUntil) ∧
      digest.hash request.riskRequest = request.riskResult.riskRequestHash := by
  simp only [validateCommon, bind_ok, exists_unit, reject_ok, not_or, not_not, ne_eq] at h
  obtain ⟨-, -, -, -, -, -, -, -, hhash, hfrom, huntil⟩ := h
  exact ⟨⟨Int.not_lt.mp hfrom, Int.not_le.mp huntil⟩, hhash⟩

/-- Every bundle that `build_execution` returns is faithful to its request. -/
theorem built_bundle_faithful {mac : Mac} {digest : RequestDigest F}
    {request : ExecutionBuildRequest F} {bundle : ExecutionBundle F}
    (h : buildExecution mac digest request = .ok (.built bundle)) :
    FaithfulBundle mac digest request bundle := by
  obtain ⟨p, hp, hassemble⟩ := buildExecution_built h
  have hjoined := prepare_ok.mp hp.prepared
  simp only [assemble, bind_ok, exists_unit, pure_ok, collect_ok, liftPlan_ok] at hassemble
  obtain ⟨built, hloop, hplan, hbundle⟩ := hassemble
  cases hbundle
  have hsources : List.Forall₂ (Sources mac request p) p.legs built :=
    hloop.imp fun _ _ hleg => buildLeg_sources hleg
  have hids : (legIds (built.map BuiltLeg.leg)).Nodup := by
    rw [sources_legIds hsources]
    exact validateTopology_distinct hjoined.topology
  have hresolved : ∀ b ∈ built, ∃ r ∈ p.resolved, r.legId = b.leg.definition.legId ∧
      r.commandId = b.command.commandId ∧ r.idempotencyKey = b.command.idempotencyKey := by
    intro b hb
    obtain ⟨intent, -, hsource⟩ := forall₂_mem_right hsources hb
    exact hsource.resolved
  obtain ⟨hwindow, hhash⟩ := validateCommon_window hp.common
  refine ⟨⟨p.legs, built, hjoined.legs, rfl, rfl, rfl, ?_⟩, hids, ?_, ?_, ?_, ?_, hplan, hwindow,
    hhash⟩
  · exact hsources.imp fun _ _ hsource => hsource.bound hjoined
  · rw [hjoined.adjusted]
    exact hjoined.adjustedDistinct
  · rw [List.map_map]
    refine sources_distinct hjoined _ ResolvedLegExecution.commandId ?_ ?_ hids
    · intro b hb
      obtain ⟨r, hr, hid, hcommand, -⟩ := hresolved b hb
      exact ⟨r, hr, hid, hcommand⟩
    · intro x y hxy
      simp only [resolvedClash, hxy, beq_self_eq_true, Bool.true_or]
  · rw [List.map_map]
    refine sources_distinct hjoined _ ResolvedLegExecution.idempotencyKey ?_ ?_ hids
    · intro b hb
      obtain ⟨r, hr, hid, -, hkey⟩ := hresolved b hb
      exact ⟨r, hr, hid, hkey⟩
    · intro x y hxy
      simp only [resolvedClash, hxy, beq_self_eq_true, Bool.true_or, Bool.or_true]
  · rw [← hjoined.expiresAt_eq]
    exact hjoined.window

end

/-- number of the commands of an outcome -/
def ExecutionBuildOutcome.commandCount {F : Type} : ExecutionBuildOutcome F → Nat
  | .noOp => 0
  | .built bundle => bundle.commands.length

/-- the build of `pairRequest` -/
def pairBuild : ExecutionBuildRequest ℚ :=
  { goldBuild with
    riskRequest := pairRequest
    riskResult := pairResult
    resolvedLegs :=
      [{ goldLeg with legId := "leg-gold" },
        { goldLeg with
          legId := "leg-silver", commandId := "command-2", idempotencyKey := "command-key-2" }] }

/-- the MACs of its two commands, told apart by the digit of `command_id=command-1` -/
def pairMac : Mac where
  tag := fun _ message =>
    if message[19]? = some 49 then
      [161, 174, 116, 234, 114, 201, 238, 168, 77, 14, 3, 212, 208, 95, 224, 254,
       104, 156, 193, 33, 71, 67, 35, 82, 252, 166, 230, 210, 166, 10, 209, 207]
    else
      [100, 95, 165, 251, 52, 89, 246, 232, 80, 184, 147, 151, 209, 34, 178, 210,
       183, 89, 104, 64, 109, 182, 238, 73, 155, 71, 189, 12, 15, 218, 99, 141]
  tag_length := fun _ message => by split <;> rfl

theorem gold_bundle_faithful :
    ∃ bundle, buildExecution pairMac goldDigest pairBuild = .ok (.built bundle) ∧
      bundle.commands.length = 2 ∧ FaithfulBundle pairMac goldDigest pairBuild bundle := by
  have hcount : (buildExecution pairMac goldDigest pairBuild).toOption.map
      ExecutionBuildOutcome.commandCount = some 2 := by decide +kernel
  cases hresult : buildExecution pairMac goldDigest pairBuild with
  | error halt =>
    rw [hresult] at hcount
    cases hcount
  | ok outcome =>
    rw [hresult] at hcount
    cases outcome with
    | noOp => cases hcount
    | built bundle => exact ⟨bundle, rfl, Option.some.inj hcount, built_bundle_faithful hresult⟩

end Sinan.Execution
