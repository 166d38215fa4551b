import Sinan.Execution.Joins

/-!
# Dependencies

The check of the legs of a plan and the check of the resolved legs of a build accept the same
dependencies: those that name other legs, each once, and never lead back to their leg.  The degree maps
of both are hash maps; their order plays no part.
-/

set_option linter.unusedSectionVars false

namespace Sinan.Execution

open Lib

/-- a dependency of a leg -/
def DependencyOf (deps : List (LegId × List LegId)) (d id : LegId) : Prop :=
  ∃ leg ∈ deps, leg.1 = id ∧ d ∈ leg.2

/-- every dependency is another leg, no leg lists one twice, and none leads back to its leg -/
structure SoundDependencies (ids : List LegId) (deps : List (LegId × List LegId)) : Prop where
  known : ∀ leg ∈ deps, ∀ d ∈ leg.2, d ≠ leg.1 ∧ d ∈ ids
  once : ∀ leg ∈ deps, leg.2.Nodup
  acyclic : ∀ id, ¬ Relation.TransGen (DependencyOf deps) id id

/-- one edge from each dependency to its leg -/
def edgesOf (deps : List (LegId × List LegId)) : List (LegId × LegId) :=
  deps.flatMap fun leg => leg.2.map fun d => (d, leg.1)

section
variable {ids order : List LegId} {deps deps' : List (LegId × List LegId)}

theorem precedes_edgesOf : Precedes (edgesOf deps) = DependencyOf deps := by
  funext d id
  rw [eq_iff_iff, Precedes, edgesOf, List.mem_flatMap]
  constructor
  · rintro ⟨leg, hleg, hedge⟩
    obtain ⟨_, hd, heq⟩ := List.mem_map.mp hedge
    cases heq
    exact ⟨leg, hleg, rfl, hd⟩
  · rintro ⟨leg, hleg, rfl, hd⟩
    exact ⟨leg, hleg, List.mem_map_of_mem hd⟩

theorem edgesOf_closed (hlegs : ∀ leg ∈ deps, leg.1 ∈ ids)
    (hknown : ∀ leg ∈ deps, dependenciesWellFormed ids leg.1 leg.2) :
    ∀ e ∈ edgesOf deps, e.1 ∈ ids ∧ e.2 ∈ ids := by
  intro e he
  obtain ⟨leg, hleg, hedge⟩ := List.mem_flatMap.mp he
  obtain ⟨d, hd, rfl⟩ := List.mem_map.mp hedge
  exact ⟨((hknown leg hleg).2 d hd).2, hlegs leg hleg⟩

theorem sound_iff (hids : ids.Nodup) (hlegs : ∀ leg ∈ deps, leg.1 ∈ ids) :
    (∀ leg ∈ deps, dependenciesWellFormed ids leg.1 leg.2) ∧
        kahn ids (edgesOf deps) = .ok ids.length ↔ SoundDependencies ids deps := by
  constructor
  · rintro ⟨hknown, hcount⟩
    have hacyclic := (kahn_all_iff hids (edgesOf_closed hlegs hknown)).mp hcount
    rw [Acyclic, precedes_edgesOf] at hacyclic
    exact ⟨fun leg hleg => (hknown leg hleg).2, fun leg hleg => (hknown leg hleg).1, hacyclic⟩
  · intro h
    have hknown : ∀ leg ∈ deps, dependenciesWellFormed ids leg.1 leg.2 := fun leg hleg =>
      ⟨h.once leg hleg, h.known leg hleg⟩
    refine ⟨hknown, (kahn_all_iff hids (edgesOf_closed hlegs hknown)).mpr ?_⟩
    rw [Acyclic, precedes_edgesOf]
    exact h.acyclic

theorem SoundDependencies.of_mem (h : SoundDependencies order deps) (hids : ∀ id, id ∈ order ↔ id ∈ ids)
    (hdeps : ∀ leg, leg ∈ deps' ↔ leg ∈ deps) : SoundDependencies ids deps' := by
  have hsame : DependencyOf deps' = DependencyOf deps := by
    funext d id
    unfold DependencyOf
    simp only [hdeps]
  refine ⟨fun leg hleg d hd => ?_, fun leg hleg => h.once leg ((hdeps leg).mp hleg), ?_⟩
  · obtain ⟨hne, hknown⟩ := h.known leg ((hdeps leg).mp hleg) d hd
    exact ⟨hne, (hids d).mp hknown⟩
  · rw [hsame]
    exact h.acyclic

end

section
variable {F : Type}

def planDependencies (legs : List (ExecutionLeg F)) : List (LegId × List LegId) :=
  legs.map fun leg => (leg.definition.legId, leg.definition.dependency)

def resolvedDependencies (resolved : List (ResolvedLegExecution F)) : List (LegId × List LegId) :=
  resolved.map fun leg => (leg.legId, leg.dependency)

theorem dependencyEdges_eq (legs : List (ExecutionLeg F)) :
    dependencyEdges legs = edgesOf (planDependencies legs) := by
  rw [edgesOf, planDependencies, List.flatMap_map]
  rfl

theorem resolvedEdges_eq (resolved : List (ResolvedLegExecution F)) :
    resolvedEdges resolved = edgesOf (resolvedDependencies resolved) := by
  rw [edgesOf, resolvedDependencies, List.flatMap_map]
  rfl

variable {legs : List (ExecutionLeg F)}

theorem planDependencies_ids :
    ∀ leg ∈ planDependencies legs, leg.1 ∈ legIds legs := by
  intro leg hleg
  obtain ⟨l, hl, rfl⟩ := List.mem_map.mp hleg
  exact List.mem_map_of_mem hl

theorem validateExecutionDependencies_iff {order : List LegId} (hids : (legIds legs).Nodup)
    (horder : order.Perm (legIds legs)) :
    validateExecutionDependencies legs order = .ok () ↔
      SoundDependencies (legIds legs) (planDependencies legs) := by
  have hlegs : ∀ leg ∈ planDependencies legs, leg.1 ∈ order := fun leg hleg =>
    horder.mem_iff.mpr (planDependencies_ids leg hleg)
  have hsound := sound_iff (horder.nodup_iff.mpr hids) hlegs
  have hmem : ∀ id, id ∈ order ↔ id ∈ legIds legs := fun id => horder.mem_iff
  have hboth : SoundDependencies order (planDependencies legs) ↔
      SoundDependencies (legIds legs) (planDependencies legs) :=
    ⟨fun h => h.of_mem hmem fun _ => Iff.rfl, fun h => h.of_mem (fun id => (hmem id).symm) fun _ => Iff.rfl⟩
  rw [← hboth, ← hsound]
  simp only [validateExecutionDependencies, bind_ok, exists_unit, each_ok, reject_ok, not_not,
    ne_eq, dependencyEdges_eq, planDependencies, List.forall_mem_map]

variable [F64 F] {resolved : List (ResolvedLegExecution F)}

theorem topologyNodes_self {ids : List LegId} (h : ∀ leg ∈ resolved, leg.legId ∈ ids) :
    topologyNodes ids resolved = ids := by
  unfold topologyNodes
  rw [List.filter_eq_nil_iff.mpr, List.append_nil]
  intro id hid
  obtain ⟨e, he, rfl⟩ := List.mem_map.mp (List.mem_dedup.mp hid)
  obtain ⟨leg, hleg, hedge⟩ := List.mem_flatMap.mp he
  obtain ⟨d, -, rfl⟩ := List.mem_map.mp hedge
  exact fun hnew => of_decide_eq_true hnew (h leg hleg)

theorem validateTopology_iff {mode : ExecutionPlanMode} {legs : List (IntentLeg F)}
    (hresolved : ∀ leg ∈ resolved, leg.legId ∈ IntentLeg.ids legs) :
    validateTopology mode legs resolved = .ok () ↔ (IntentLeg.ids legs).Nodup ∧
      (mode = .simultaneous → ∀ leg ∈ resolved, leg.dependency = []) ∧
      SoundDependencies (IntentLeg.ids legs) (resolvedDependencies resolved) := by
  have hlegs : ∀ leg ∈ resolvedDependencies resolved, leg.1 ∈ IntentLeg.ids legs := by
    intro leg hleg
    obtain ⟨r, hr, rfl⟩ := List.mem_map.mp hleg
    exact hresolved r hr
  have hempty : (¬ (mode = .simultaneous ∧ (resolved.any fun leg => !leg.dependency.isEmpty) = true)) ↔
      (mode = .simultaneous → ∀ leg ∈ resolved, leg.dependency = []) := by
    simp only [not_and, Bool.not_eq_true, List.any_eq_false, Bool.not_eq_true', Bool.not_eq_false,
      List.isEmpty_iff]
  have hwellFormed : (∀ leg ∈ resolved,
      dependenciesWellFormed (IntentLeg.ids legs) leg.legId leg.dependency) ↔
      ∀ leg ∈ resolvedDependencies resolved,
        dependenciesWellFormed (IntentLeg.ids legs) leg.1 leg.2 := by
    rw [resolvedDependencies, List.forall_mem_map]
  simp only [validateTopology, bind_ok, exists_unit, reject_ok, each_ok, not_not,
    topologyNodes_self hresolved, resolvedEdges_eq, hempty]
  refine and_congr_right fun hids => and_congr_right fun _ => ?_
  rw [← sound_iff hids hlegs, hwellFormed]
  refine and_congr_right fun _ => ?_
  -- the count is compared with the number of the intended legs
  cases kahn (IntentLeg.ids legs) (edgesOf (resolvedDependencies resolved)) with
  | error stop => exact ⟨fun h => (by cases h), fun h => (by cases h)⟩
  | ok visited =>
    rw [reject_ok, ne_eq, not_not, Except.ok.injEq]

/-- the count ends without a stop in any order of the nodes, and the same if every source is one -/
def OrderFree (nodes : List LegId) (edges : List (LegId × LegId)) : Prop :=
  ∀ order, order.Perm nodes → ∃ visited, kahn order edges = .ok visited ∧
    ((∀ e ∈ edges, e.1 ∈ nodes) → kahn nodes edges = .ok visited)

theorem orderFree_of_closed {nodes : List LegId} {edges : List (LegId × LegId)} (hnodes : nodes.Nodup)
    (hclosed : ∀ e ∈ edges, e.2 ∈ nodes) : OrderFree nodes edges := by
  intro order horder
  obtain ⟨done, hkahn, -⟩ := kahn_ok (horder.nodup_iff.mpr hnodes) fun e he =>
    horder.mem_iff.mpr (hclosed e he)
  refine ⟨done.length, hkahn, fun hsources => ?_⟩
  rw [← kahn_perm horder hnodes fun e he => ⟨hsources e he, hclosed e he⟩]
  exact hkahn

/-- The check of a plan accepts exactly the sound dependencies, that of a build with the same ids the
same ones, and in neither does the order of a degree map matter or a degree fall below zero. -/
theorem dependency_checks :
    (∀ (legs : List (ExecutionLeg F)) (order : List LegId), (legIds legs).Nodup →
      order.Perm (legIds legs) →
      (validateExecutionDependencies legs order = .ok () ↔
        SoundDependencies (legIds legs) (planDependencies legs)) ∧
      OrderFree (legIds legs) (dependencyEdges legs)) ∧
    (∀ (mode : ExecutionPlanMode) (legs : List (IntentLeg F))
      (resolved : List (ResolvedLegExecution F)), (IntentLeg.ids legs).Nodup →
      (∀ id, id ∈ resolved.map ResolvedLegExecution.legId ↔ id ∈ IntentLeg.ids legs) →
      (validateTopology mode legs resolved = .ok () ↔
        (mode = .simultaneous → ∀ leg ∈ resolved, leg.dependency = []) ∧
          SoundDependencies (IntentLeg.ids legs) (resolvedDependencies resolved)) ∧
      OrderFree (topologyNodes (IntentLeg.ids legs) resolved) (resolvedEdges resolved)) ∧
    (∀ (mode : ExecutionPlanMode) (legs : List (ExecutionLeg F)) (intended : List (IntentLeg F))
      (resolved : List (ResolvedLegExecution F)), (legIds legs).Nodup →
      legIds legs = IntentLeg.ids intended →
      (∀ leg, leg ∈ planDependencies legs ↔ leg ∈ resolvedDependencies resolved) →
      (validateTopology mode intended resolved = .ok () ↔
        (mode = .simultaneous → ∀ leg ∈ resolved, leg.dependency = []) ∧
          validateExecutionDependencies legs (legIds legs) = .ok ())) := by
  refine ⟨fun legs order hids horder => ⟨validateExecutionDependencies_iff hids horder, ?_⟩,
    fun mode legs resolved hids hresolved => ⟨?_, ?_⟩,
    fun mode legs intended resolved hids hintended hsame => ?_⟩
  · refine orderFree_of_closed hids fun e he => ?_
    obtain ⟨leg, hleg, hedge⟩ := List.mem_flatMap.mp he
    obtain ⟨d, -, rfl⟩ := List.mem_map.mp hedge
    exact List.mem_map_of_mem hleg
  · rw [validateTopology_iff fun leg hleg => (hresolved leg.legId).mp (List.mem_map_of_mem hleg)]
    exact and_iff_right hids
  · exact orderFree_of_closed (topologyNodes_nodup hids resolved) (topologyNodes_closed _ resolved)
  · have hamong : ∀ leg ∈ resolved, leg.legId ∈ IntentLeg.ids intended := by
      intro leg hleg
      rw [← hintended]
      exact planDependencies_ids _ ((hsame _).mpr (List.mem_map_of_mem hleg))
    rw [validateTopology_iff hamong, validateExecutionDependencies_iff hids (List.Perm.refl _),
      ← hintended]
    have hsound : SoundDependencies (legIds legs) (resolvedDependencies resolved) ↔
        SoundDependencies (legIds legs) (planDependencies legs) :=
      ⟨fun h => h.of_mem (fun _ => Iff.rfl) hsame,
        fun h => h.of_mem (fun _ => Iff.rfl) fun leg => (hsame leg).symm⟩
    rw [hsound]
    exact and_iff_right hids

end

/-- a leg of a plan with its dependencies -/
def chainLeg (legId : LegId) (dependency : List LegId) : ExecutionLeg ℚ where
  definition :=
    { legId, symbol := "XAGUSD", action := .buy, lots := some 1, sl := none, tp := none, ratio := 1
      dependency }
  state := ⟨.pending⟩

def chainIntent (legId : LegId) : IntentLeg ℚ := ⟨legId, "XAGUSD", .buy, 1, none⟩

def chainResolved (legId : LegId) (dependency : List LegId) : ResolvedLegExecution ℚ where
  legId := legId
  dependency := dependency
  commandId := "command:" ++ legId
  idempotencyKey := "key:" ++ legId
  terminalId := none
  clientId := none
  orderType := .market
  price := none
  deviationPoints := none
  magic := 7
  comment := none
  fillingPolicy := none
  timePolicy := none
  expirationTime := none

/-- a chain of two legs, listed in either order, and a cycle of two -/
theorem chain_checked :
    SoundDependencies ["leg-1", "leg-2"] [("leg-1", []), ("leg-2", ["leg-1"])] ∧
    ¬ SoundDependencies ["leg-1", "leg-2"] [("leg-1", ["leg-2"]), ("leg-2", ["leg-1"])] ∧
    validateTopology .sequential [chainIntent "leg-1", chainIntent "leg-2"]
      [chainResolved "leg-2" ["leg-1"], chainResolved "leg-1" []] = .ok () := by
  obtain ⟨hplan, hbuild, hsame⟩ := @dependency_checks ℚ _
  refine ⟨?_, ?_, ?_⟩
  · exact (hplan [chainLeg "leg-1" [], chainLeg "leg-2" ["leg-1"]] ["leg-2", "leg-1"] (by decide)
      (by decide)).1.mp (by decide)
  · intro h
    have hcheck := (hbuild .sequential [chainIntent "leg-1", chainIntent "leg-2"]
      [chainResolved "leg-1" ["leg-2"], chainResolved "leg-2" ["leg-1"]] (by decide)
      fun _ => Iff.rfl).1.mpr ⟨fun h => (by cases h), h⟩
    exact absurd hcheck (by decide +kernel)
  · refine (hsame .sequential [chainLeg "leg-1" [], chainLeg "leg-2" ["leg-1"]] _ _ (by decide) rfl
      fun leg => ?_).mpr ⟨fun h => (by cases h), by decide⟩
    exact (List.Perm.swap _ _ []).mem_iff

end Sinan.Execution
