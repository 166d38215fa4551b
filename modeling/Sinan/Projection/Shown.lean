import Sinan.Projection.Rebuild

/-!
# Projections: what the tables show

The purpose of the tables, without the order of the writes: a latest table shows the latest of the
observations it was given, the full sets end what came before them, and a checkpoint names the last
result of its account.  `applyLatest`, `applyMember` and `applyFullSet` keep this, for every observation
that contradicts none of those before it.
-/

set_option linter.unusedSectionVars false

namespace Sinan.Projection

open Lib Store Reconciliation

/-! ## one table -/

section
variable {D K S : Type} [DecidableEq D] [DecidableEq K] {key : S → K} {kind : LatestKind D key}
  {entity text : String} {decision : ApplyDecision}

theorem classifyLatest_newer {t u : Int} {hash hash' : D} (h : t < u) :
    classifyLatest entity text u hash (some (t, hash')) = .ok .applied := if_pos h

theorem classifyLatest_older {t u : Int} {hash hash' : D} (h : u < t) :
    classifyLatest entity text u hash (some (t, hash')) = .ok .ignoredOlder := by
  simp only [classifyLatest, if_neg (not_lt.mpr h.le), if_pos h]

theorem classifyLatest_same {t : Int} {hash : D} :
    classifyLatest entity text t hash (some (t, hash)) = .ok .unchanged := by
  simp only [classifyLatest, if_neg (lt_irrefl t), if_true]

theorem classifyLatest_past {t u : Int} {hash hash' : D} (h : u ≤ t)
    (hclassify : classifyLatest entity text u hash (some (t, hash')) = .ok decision) :
    decision ≠ .applied ∧ (t = u → hash = hash') := by
  simp only [classifyLatest, if_neg (not_lt.mpr h)] at hclassify
  split_ifs at hclassify with hlt hsame
  · cases hclassify
    exact ⟨by decide, fun heq => absurd heq hlt.ne'⟩
  · cases hclassify
    exact ⟨by decide, fun _ => hsame⟩

/-- the snapshots of a latest table, by key -/
def shown (table : LatestTable key) (k : K) : Option S := (table.get k).map LatestRow.payload

variable {table : LatestTable key} {snapshot : S} {updatedAt : Int} {A : Set S}

theorem shown_replace (k : K) :
    shown (table.replace ⟨snapshot, updatedAt⟩) k =
      if key snapshot = k then some snapshot else shown table k := by
  unfold shown
  rw [Table.get_replace]
  split <;> rfl

theorem shown_erase {p : LatestRow S → Bool} {q : S → Bool} (hp : ∀ row, p row = q row.payload)
    (k : K) :
    shown (table.erase p) k = (shown table k).filter fun s => !q s := by
  unfold shown
  rw [Table.get_erase]
  cases table.get k with
  | none => rfl
  | some row =>
    rw [Option.map_some, Option.filter_some, Option.filter_some, hp]
    cases q row.payload <;> rfl

variable (kind) in
theorem shows_eraseOwner (ownerOf : K → AccountId) (h : Shows key kind.observedAt A (shown table))
    (accountId : AccountId) :
    Shows key kind.observedAt {s ∈ A | ownerOf (key s) ≠ accountId}
      (shown (table.erase fun row => ownerOf (key row.payload) == accountId)) := by
  have herase (k : K) : shown (table.erase fun row => ownerOf (key row.payload) == accountId) k =
      (shown table k).filter fun s => !(ownerOf (key s) == accountId) :=
    shown_erase (q := fun s => ownerOf (key s) == accountId) (fun _ => rfl) k
  refine h.restrict (fun k => ownerOf k ≠ accountId) (fun k hk => ?_) fun k hk => ?_
  · rw [herase]
    cases hshown : shown table k with
    | none => rfl
    | some s =>
      rw [Option.filter_some, (h.sound hshown).2, beq_eq_false_iff_ne.mpr hk]
      rfl
  · rw [herase]
    cases hshown : shown table k with
    | none => rfl
    | some s =>
      rw [Option.filter_some, (h.sound hshown).2, beq_iff_eq.mpr (not_not.mp hk)]
      rfl

variable {table' : LatestTable key}

theorem applyLatest_ok :
    applyLatest kind table snapshot updatedAt = .ok (table', decision) ↔
      classifyLatest kind.entity (kind.keyText snapshot) (kind.observedAt snapshot)
        (kind.digest snapshot) ((shown table (key snapshot)).map fun s =>
          (kind.observedAt s, kind.digest s)) = .ok decision ∧
      table' = if decision = .applied then table.replace ⟨snapshot, updatedAt⟩ else table := by
  have hshown : (table.get (key snapshot)).map (fun row =>
      (kind.observedAt row.payload, kind.digest row.payload)) =
      (shown table (key snapshot)).map fun s => (kind.observedAt s, kind.digest s) := by
    unfold shown
    rw [Option.map_map]
    rfl
  unfold applyLatest
  rw [hshown]
  simp only [bind_ok, pure_ok, Prod.mk.injEq]
  constructor
  · rintro ⟨d, hd, rfl, rfl⟩
    exact ⟨hd, rfl⟩
  · rintro ⟨hd, rfl⟩
    exact ⟨decision, hd, rfl, rfl⟩

theorem applyLatest_keeps (h : Shows key kind.observedAt A (shown table))
    (happly : applyLatest kind table snapshot updatedAt = .ok (table', decision)) :
    Shows key kind.observedAt (insert snapshot A) (shown table') := by
  obtain ⟨hclassify, rfl⟩ := applyLatest_ok.mp happly
  have hreplaced (hnew : ∀ y, shown table (key snapshot) = some y →
      kind.observedAt y < kind.observedAt snapshot) :
      Shows key kind.observedAt (insert snapshot A)
        (shown (table.replace ⟨snapshot, updatedAt⟩)) := by
    refine h.newer hnew ?_ fun k hk => ?_
    · rw [shown_replace, if_pos rfl]
    · rw [shown_replace, if_neg (Ne.symm hk)]
  cases hat : shown table (key snapshot) with
  | none =>
    rw [hat] at hclassify
    cases hclassify
    rw [if_pos rfl]
    exact hreplaced fun y hy => by rw [hat] at hy; cases hy
  | some y =>
    rw [hat, Option.map_some] at hclassify
    rcases lt_or_ge (kind.observedAt y) (kind.observedAt snapshot) with hlt | hge
    · rw [classifyLatest_newer hlt] at hclassify
      cases hclassify
      rw [if_pos rfl]
      refine hreplaced fun z hz => ?_
      rw [hat] at hz
      cases hz
      exact hlt
    · rw [if_neg (classifyLatest_past hge hclassify).1]
      exact h.seen hat hge

variable (kind) in
theorem applyLatest_succeeds (h : Shows key kind.observedAt A (shown table))
    (hfree : Uncontested key kind.observedAt A snapshot) (updatedAt : Int) :
    ∃ table' decision, applyLatest kind table snapshot updatedAt = .ok (table', decision) := by
  obtain ⟨decision, hclassify⟩ : ∃ decision, classifyLatest kind.entity (kind.keyText snapshot)
      (kind.observedAt snapshot) (kind.digest snapshot) ((shown table (key snapshot)).map fun s =>
        (kind.observedAt s, kind.digest s)) = .ok decision := by
    cases hat : shown table (key snapshot) with
    | none => exact ⟨_, rfl⟩
    | some y =>
      rw [Option.map_some]
      obtain ⟨hyA, hkey⟩ := h.sound hat
      rcases lt_trichotomy (kind.observedAt y) (kind.observedAt snapshot) with hlt | heq | hgt
      · exact ⟨_, classifyLatest_newer hlt⟩
      · rcases hfree with ⟨z, hz, hzkey, hlt⟩ | hone
        · obtain ⟨w, hw, hle⟩ := h.top hz
          rw [hzkey, hat] at hw
          cases hw
          exact absurd (lt_of_lt_of_le hlt hle) (not_lt.mpr heq.le)
        · rw [hone y hyA hkey heq]
          exact ⟨_, classifyLatest_same⟩
      · exact ⟨_, classifyLatest_older hgt⟩
  exact ⟨_, decision, applyLatest_ok.mpr ⟨hclassify, rfl⟩⟩

variable (kind) in
theorem applyLatest_uncontested (hinj : Function.Injective kind.digest)
    (h : Shows key kind.observedAt A (shown table)) (hpast : Decided key kind.observedAt A)
    (happly : applyLatest kind table snapshot updatedAt = .ok (table', decision)) :
    Uncontested key kind.observedAt A snapshot := by
  obtain ⟨hclassify, -⟩ := applyLatest_ok.mp happly
  by_cases hlater : ∃ z ∈ A, key z = key snapshot ∧ kind.observedAt snapshot < kind.observedAt z
  · exact .inl hlater
  · refine .inr fun y hy hkey htime => ?_
    obtain ⟨z, hz, hle⟩ := h.top hy
    rw [hkey] at hz
    obtain ⟨hzA, hzkey⟩ := h.sound hz
    have hsame : kind.observedAt z = kind.observedAt snapshot := by
      refine le_antisymm (not_lt.mp fun hlt => hlater ⟨z, hzA, hzkey, hlt⟩) ?_
      rw [← htime]
      exact hle
    have hzs : z = snapshot := by
      rw [hz, Option.map_some, hsame] at hclassify
      exact (hinj ((classifyLatest_past le_rfl hclassify).2 rfl)).symm
    rcases hpast y hy with ⟨w, hw, hwkey, hlt⟩ | hone
    · rw [htime] at hlt
      exact absurd ⟨w, hw, hwkey.trans hkey, hlt⟩ hlater
    · rw [← hzs]
      exact (hone z hzA (hzkey.trans hkey.symm) (hsame.trans htime.symm)).symm

theorem applyLatest_shows (h : Shows key kind.observedAt A (shown table))
    (hfree : Uncontested key kind.observedAt A snapshot) (updatedAt : Int) :
    ∃ table' decision, applyLatest kind table snapshot updatedAt = .ok (table', decision) ∧
      Shows key kind.observedAt (insert snapshot A) (shown table') := by
  obtain ⟨table', decision, happly⟩ := applyLatest_succeeds kind h hfree updatedAt
  exact ⟨table', decision, happly, applyLatest_keeps h happly⟩

/-- the snapshots of one document enter one after the other -/
def enterLatest (kind : LatestKind D key) (table : LatestTable key) (snapshots : List S)
    (updatedAt : Int) : ProjectionCheck (LatestTable key) :=
  snapshots.foldlM (fun table snapshot => do
    let (table, _) ← applyLatest kind table snapshot updatedAt
    return table) table

variable {snapshots : List S}

theorem enterLatest_cons : enterLatest kind table (snapshot :: snapshots) updatedAt = .ok table' ↔
      ∃ next decision, applyLatest kind table snapshot updatedAt = .ok (next, decision) ∧
        enterLatest kind next snapshots updatedAt = .ok table' := by
  unfold enterLatest
  rw [List.foldlM_cons]
  simp only [bind_ok, pure_ok, Prod.exists]
  constructor
  · rintro ⟨next, ⟨next', decision, happly, rfl⟩, hrest⟩
    exact ⟨_, decision, happly, hrest⟩
  · rintro ⟨next, decision, happly, hrest⟩
    exact ⟨next, ⟨next, decision, happly, rfl⟩, hrest⟩

theorem enterLatest_keeps (h : Shows key kind.observedAt A (shown table))
    (henter : enterLatest kind table snapshots updatedAt = .ok table') :
    Shows key kind.observedAt (A ∪ {s | s ∈ snapshots}) (shown table') := by
  induction snapshots generalizing A table with
  | nil =>
    cases henter
    simp only [List.not_mem_nil, Set.ofPred_false, Set.union_empty]
    exact h
  | cons snapshot snapshots ih =>
    obtain ⟨next, decision, happly, hrest⟩ := enterLatest_cons.mp henter
    rw [union_cons]
    exact ih (applyLatest_keeps h happly) hrest

variable (kind) in
theorem enterLatest_succeeds (h : Shows key kind.observedAt A (shown table))
    (hkeys : (snapshots.map key).Nodup)
    (hfree : ∀ s ∈ snapshots, Uncontested key kind.observedAt A s) (updatedAt : Int) :
    ∃ table', enterLatest kind table snapshots updatedAt = .ok table' := by
  induction snapshots generalizing A table with
  | nil => exact ⟨table, rfl⟩
  | cons snapshot snapshots ih =>
    obtain ⟨hfresh, hrest⟩ := List.nodup_cons.mp hkeys
    obtain ⟨next, decision, happly, hshows⟩ :=
      applyLatest_shows h (hfree snapshot List.mem_cons_self) updatedAt
    obtain ⟨table', henter⟩ := ih hshows hrest fun s hs => by
      refine (uncontested_insert fun hkey => ?_).mpr (hfree s (List.mem_cons_of_mem _ hs))
      exact hfresh (hkey ▸ List.mem_map_of_mem hs)
    exact ⟨table', enterLatest_cons.mpr ⟨next, decision, happly, henter⟩⟩

variable (kind) in
theorem enterLatest_uncontested (hinj : Function.Injective kind.digest)
    (h : Shows key kind.observedAt A (shown table)) (hpast : Decided key kind.observedAt A)
    (hkeys : (snapshots.map key).Nodup)
    (henter : enterLatest kind table snapshots updatedAt = .ok table') :
    (∀ s ∈ snapshots, Uncontested key kind.observedAt A s) ∧
      Decided key kind.observedAt (A ∪ {s | s ∈ snapshots}) := by
  induction snapshots generalizing A table with
  | nil =>
    refine ⟨fun s hs => absurd hs List.not_mem_nil, ?_⟩
    simp only [List.not_mem_nil, Set.ofPred_false, Set.union_empty]
    exact hpast
  | cons snapshot snapshots ih =>
    obtain ⟨hfresh, hrest⟩ := List.nodup_cons.mp hkeys
    obtain ⟨next, decision, happly, hentered⟩ := enterLatest_cons.mp henter
    have hfirst := applyLatest_uncontested kind hinj h hpast happly
    obtain ⟨hothers, hdecided⟩ :=
      ih (applyLatest_keeps h happly) (hpast.insert hfirst) hrest hentered
    rw [union_cons]
    refine ⟨fun s hs => ?_, hdecided⟩
    rcases List.mem_cons.mp hs with rfl | hs
    · exact hfirst
    · refine (uncontested_insert fun hkey => ?_).mp (hothers s hs)
      exact hfresh (hkey ▸ List.mem_map_of_mem hs)

end

/-! ## the tables of a full set -/

section
variable {D S : Type} [DecidableEq D] {key : S → AccountId × String} {kind : SetKind D key}

/-- the last full set of an account, its checkpoint and its member rows -/
structure IsLastSet (kind : SetKind D key) (sets : Set (FullSet AccountId Int S))
    (accountId : AccountId) (watermark : Int) (setHash : D) (rows : List (MemberRow S))
    (w : FullSet AccountId Int S) : Prop where
  mem : w ∈ sets
  owner : w.owner = accountId
  last : ∀ v ∈ sets, v.owner = accountId → v.time ≤ w.time
  watermark : watermark = w.time
  hash : setHash = kind.setDigest w.members
  rows : rows = w.members.map (MemberRow.mk accountId w.time)

/-- the checkpoint and the member rows of an account are those of its last full set -/
def LastSet (kind : SetKind D key) (sets : Set (FullSet AccountId Int S)) (accountId : AccountId)
    (checkpoint : Option (AccountReconciliationCheckpoint D)) (rows : List (MemberRow S)) : Prop :=
  match checkpoint with
  | none => rows = [] ∧ ∀ w ∈ sets, w.owner ≠ accountId
  | some c => ∃ w, IsLastSet kind sets accountId (kind.watermark c) (kind.setHash c) rows w

/-- the member rows of an account -/
def membersOf (tables : SetTables key) (accountId : AccountId) : List (MemberRow S) :=
  tables.members.rows.filter fun row => row.accountId == accountId

abbrev visibleSnapshots (kind : SetKind D key) (facts : Set S)
    (sets : Set (FullSet AccountId Int S)) : Set S :=
  visible (fun s => (key s).1) kind.observedAt facts sets

/-- the tables show what remains of the facts and the full sets -/
structure SetShown (kind : SetKind D key) (facts : Set S) (sets : Set (FullSet AccountId Int S))
    (checkpoints : AccountId → Option (AccountReconciliationCheckpoint D)) (tables : SetTables key) :
    Prop where
  latest : Shows key kind.observedAt (visibleSnapshots kind facts sets) (shown tables.latest)
  last : ∀ accountId, LastSet kind sets accountId (checkpoints accountId) (membersOf tables accountId)

variable {facts : Set S} {sets : Set (FullSet AccountId Int S)} {tables : SetTables key}
  {checkpoints : AccountId → Option (AccountReconciliationCheckpoint D)} {watermark : Int}
  {snapshot : S}

theorem owner_of_key (x y : S) (h : key x = key y) : (key x).1 = (key y).1 := congrArg Prod.fst h

theorem mem_membersOf {accountId : AccountId} {row : MemberRow S} :
    row ∈ membersOf tables accountId ↔ row ∈ tables.members.rows ∧ row.accountId = accountId := by
  rw [membersOf, List.mem_filter, beq_iff_eq]

theorem IsLastSet.member {accountId : AccountId} {setHash : D} {w : FullSet AccountId Int S}
    (h : IsLastSet kind sets accountId watermark setHash (membersOf tables accountId) w) {s : S}
    (hs : s ∈ w.members) (howner : (key s).1 = accountId) :
    tables.members.get (key s) = some ⟨accountId, w.time, s⟩ := by
  have hrow : (⟨accountId, w.time, s⟩ : MemberRow S) ∈ membersOf tables accountId := by
    rw [h.rows]
    exact List.mem_map_of_mem hs
  refine Table.get_eq_some.mpr ⟨(mem_membersOf.mp hrow).1, ?_⟩
  exact Prod.ext howner.symm rfl

theorem applyMember_through {checkpoint : Option (AccountReconciliationCheckpoint D)}
    {updatedAt : Int} {latest : LatestTable key} {decision : ApplyDecision}
    (hahead : classifyFullSetMember kind tables.members snapshot (checkpoint.map kind.watermark) =
      .ok none)
    (happly : applyLatest kind.toLatestKind tables.latest snapshot updatedAt =
      .ok (latest, decision)) :
    applyMember kind checkpoint tables snapshot updatedAt =
      .ok ({ tables with latest := latest }, decision) := by
  unfold applyMember
  rw [hahead]
  show (applyLatest kind.toLatestKind tables.latest snapshot updatedAt >>= _) = _
  rw [happly]
  rfl

theorem applyMember_stopped {checkpoint : Option (AccountReconciliationCheckpoint D)}
    {updatedAt : Int} {decision : ApplyDecision}
    (hbehind : classifyFullSetMember kind tables.members snapshot (checkpoint.map kind.watermark) =
      .ok (some decision)) :
    applyMember kind checkpoint tables snapshot updatedAt = .ok (tables, decision) := by
  unfold applyMember
  rw [hbehind]
  rfl

variable {members : MemberTable key}

theorem classifyFullSetMember_older (h : kind.observedAt snapshot < watermark) :
    classifyFullSetMember kind members snapshot (some watermark) = .ok (some .ignoredOlder) :=
  if_pos h

theorem classifyFullSetMember_newer (h : watermark < kind.observedAt snapshot) :
    classifyFullSetMember kind members snapshot (some watermark) = .ok none := by
  simp only [classifyFullSetMember, if_neg (not_lt.mpr h.le), if_pos h]

theorem classifyFullSetMember_member
    (h : members.get (key snapshot) =
      some ⟨(key snapshot).1, kind.observedAt snapshot, snapshot⟩) :
    classifyFullSetMember kind members snapshot (some (kind.observedAt snapshot)) =
      .ok (some .unchanged) := by
  simp only [classifyFullSetMember, if_neg (lt_irrefl (kind.observedAt snapshot)), h,
    Option.filter_some, beq_self_eq_true, if_true]

/-- A fact that contradicts nothing is accepted, and shown unless a set of its account is later. -/
theorem SetShown.fact (h : SetShown kind facts sets checkpoints tables)
    (hcoherent : CoherentSets kind (insert snapshot facts) sets) (updatedAt : Int) :
    ∃ tables' decision, applyMember kind (checkpoints (key snapshot).1) tables snapshot updatedAt =
        .ok (tables', decision) ∧
      SetShown kind (insert snapshot facts) sets checkpoints tables' := by
  have hone : Unambiguous key kind.observedAt (visibleSnapshots kind (insert snapshot facts) sets) :=
    hcoherent.visible_unambiguous owner_of_key
  have hahead (hclassify : classifyFullSetMember kind tables.members snapshot
        ((checkpoints (key snapshot).1).map kind.watermark) = .ok none)
      (hlater : ∀ w ∈ sets, w.owner = (key snapshot).1 → w.time < kind.observedAt snapshot) :
      ∃ tables' decision, applyMember kind (checkpoints (key snapshot).1) tables snapshot updatedAt =
          .ok (tables', decision) ∧
        SetShown kind (insert snapshot facts) sets checkpoints tables' := by
    have hvisible : visibleSnapshots kind (insert snapshot facts) sets =
        insert snapshot (visibleSnapshots kind facts sets) := visible_fact_new hlater
    rw [hvisible] at hone
    obtain ⟨latest, decision, happly, hshows⟩ :=
      applyLatest_shows h.latest hone.uncontested updatedAt
    refine ⟨_, decision, applyMember_through hclassify happly, ?_, h.last⟩
    rw [hvisible]
    exact hshows
  have hbehind (decision : ApplyDecision) (hclassify : classifyFullSetMember kind tables.members
        snapshot ((checkpoints (key snapshot).1).map kind.watermark) = .ok (some decision))
      {w : FullSet AccountId Int S} (hw : w ∈ sets) (howner : w.owner = (key snapshot).1)
      (hle : kind.observedAt snapshot ≤ w.time) :
      ∃ tables' decision, applyMember kind (checkpoints (key snapshot).1) tables snapshot updatedAt =
          .ok (tables', decision) ∧
        SetShown kind (insert snapshot facts) sets checkpoints tables' := by
    refine ⟨tables, decision, applyMember_stopped hclassify, ?_, h.last⟩
    have hvisible : visibleSnapshots kind (insert snapshot facts) sets =
        visibleSnapshots kind facts sets := visible_fact_past hw howner hle
    rw [hvisible]
    exact h.latest
  have hlast := h.last (key snapshot).1
  cases hcheckpoint : checkpoints (key snapshot).1 with
  | none =>
    rw [hcheckpoint] at hlast hahead
    refine hahead rfl fun w hw howner => absurd howner (hlast.2 w hw)
  | some c =>
    rw [hcheckpoint] at hlast hahead hbehind
    obtain ⟨w, hw⟩ := hlast
    have hmark := hw.watermark
    rw [Option.map_some, hmark] at hahead hbehind
    rcases lt_trichotomy (kind.observedAt snapshot) w.time with hlt | heq | hgt
    · exact hbehind .ignoredOlder (classifyFullSetMember_older hlt) hw.mem hw.owner hlt.le
    · have hmember := hcoherent.meets snapshot (Set.mem_insert _ _) w hw.mem hw.owner heq.symm
      have hget := hw.member hmember rfl
      rw [← heq] at hget hbehind
      exact hbehind .unchanged (classifyFullSetMember_member hget) hw.mem hw.owner heq.le
    · refine hahead (classifyFullSetMember_newer hgt) fun v hv howner => ?_
      exact lt_of_le_of_lt (hw.last v hv howner) hgt

/-! ## a full set -/

section
variable {accountId : AccountId} {observedAt : Int} {set : List S}

theorem compareFullSet_newer {entity text : String} {t u : Int} {hash hash' : D} (h : t < u) :
    compareFullSet entity text u hash (some (t, hash')) = .ok .applied := if_pos h

theorem compareFullSet_older {entity text : String} {t u : Int} {hash hash' : D} (h : u < t) :
    compareFullSet entity text u hash (some (t, hash')) = .ok .ignoredOlder := by
  simp only [compareFullSet, if_neg (not_lt.mpr h.le), if_pos h]

theorem compareFullSet_same {entity text : String} {t : Int} {hash : D} :
    compareFullSet entity text t hash (some (t, hash)) = .ok .unchanged := by
  simp only [compareFullSet, if_neg (lt_irrefl t), if_true]

/-- the watermark and the digest after a full set -/
def advancedSet (kind : SetKind D key) (checkpoint : Option (AccountReconciliationCheckpoint D))
    (observedAt : Int) (set : List S) : Int × D :=
  match checkpoint with
  | none => (observedAt, kind.setDigest set)
  | some c =>
    if kind.watermark c < observedAt then (observedAt, kind.setDigest set)
    else (kind.watermark c, kind.setHash c)

variable {checkpoint : Option (AccountReconciliationCheckpoint D)}

theorem enterMembers_ok {tables tables' : SetTables key} {snapshots : List S} {updatedAt : Int}
    (hahead : ∀ s ∈ snapshots, classifyFullSetMember kind tables.members s
      (checkpoint.map kind.watermark) = .ok none) :
    snapshots.foldlM (fun tables snapshot => do
        let (tables, _) ← applyMember kind checkpoint tables snapshot updatedAt
        return tables) tables = .ok tables' ↔
      ∃ latest, enterLatest kind.toLatestKind tables.latest snapshots updatedAt = .ok latest ∧
        tables' = { tables with latest := latest } := by
  induction snapshots generalizing tables with
  | nil =>
    constructor
    · intro h
      cases h
      exact ⟨_, rfl, rfl⟩
    · rintro ⟨latest, h, rfl⟩
      cases h
      rfl
  | cons snapshot snapshots ih =>
    have hfirst := hahead snapshot List.mem_cons_self
    have hrest (latest : LatestTable key) := @ih { tables with latest := latest }
      fun s hs => hahead s (List.mem_cons_of_mem _ hs)
    rw [List.foldlM_cons]
    constructor
    · intro h
      obtain ⟨next, hnext, h⟩ := bind_ok.mp h
      obtain ⟨⟨next', decision⟩, happly, hnext⟩ := bind_ok.mp hnext
      unfold applyMember at happly
      rw [hfirst] at happly
      obtain ⟨_, hahead', happly⟩ := bind_ok.mp happly
      cases hahead'
      obtain ⟨⟨latest, decision'⟩, happly, hlatest⟩ := bind_ok.mp happly
      cases pure_ok.mp hlatest
      cases pure_ok.mp hnext
      obtain ⟨latest', henter, rfl⟩ := (hrest latest).mp h
      exact ⟨latest', enterLatest_cons.mpr ⟨latest, decision, happly, henter⟩, rfl⟩
    · rintro ⟨latest', henter, rfl⟩
      obtain ⟨latest, decision, happly, henter⟩ := enterLatest_cons.mp henter
      refine bind_ok.mpr ⟨{ tables with latest := latest }, ?_, (hrest latest).mpr ⟨latest', henter, rfl⟩⟩
      exact bind_ok.mpr ⟨_, applyMember_through hfirst happly, rfl⟩

theorem ahead_of_last
    (hcoherent : CoherentSets kind facts (insert ⟨accountId, observedAt, set⟩ sets))
    (hmark : ∀ c ∈ checkpoint, kind.watermark c < observedAt) (members : MemberTable key) :
    ∀ s ∈ set, classifyFullSetMember kind members s (checkpoint.map kind.watermark) = .ok none := by
  intro s hs
  have hat : kind.observedAt s = observedAt := (hcoherent.formed _ (Set.mem_insert _ _) s hs).2
  cases checkpoint with
  | none => rfl
  | some c =>
    refine classifyFullSetMember_newer ?_
    rw [hat]
    exact hmark c rfl

theorem SetShown.enter (h : SetShown kind facts sets checkpoints tables)
    (hcoherent : CoherentSets kind facts (insert ⟨accountId, observedAt, set⟩ sets))
    (hnew : ∀ w ∈ sets, w.owner = accountId → w.time < observedAt)
    (hmark : ∀ c ∈ checkpoint, kind.watermark c < observedAt) (updatedAt : Int) :
    ∃ latest, set.foldlM (fun tables snapshot => do
        let (tables, _) ← applyMember kind checkpoint tables snapshot updatedAt
        return tables) tables = .ok { tables with latest := latest } ∧
      enterLatest kind.toLatestKind tables.latest set updatedAt = .ok latest ∧
      Shows key kind.observedAt (visibleSnapshots kind facts sets ∪ {s | s ∈ set}) (shown latest) := by
  have hone : Unambiguous key kind.observedAt
      (visibleSnapshots kind facts sets ∪ {s | s ∈ set}) :=
    hcoherent.union_unambiguous owner_of_key hnew
  obtain ⟨latest, henter⟩ := enterLatest_succeeds kind.toLatestKind h.latest
    (hcoherent.keyed _ (Set.mem_insert _ _))
    (fun s hs => (hone.mono (Set.insert_subset (Set.mem_union_right _ hs)
      Set.subset_union_left)).uncontested) updatedAt
  exact ⟨latest, (enterMembers_ok (ahead_of_last hcoherent hmark tables.members)).mpr
    ⟨latest, henter, rfl⟩, henter, enterLatest_keeps h.latest henter⟩

theorem insertMembers {members : MemberTable key} (observedAt : Int)
    (hfree : ∀ row ∈ members.rows, row.accountId ≠ accountId)
    (hids : (set.map fun s => (key s).2).Nodup) :
    ∃ members', set.foldlM (fun (members : MemberTable key) snapshot =>
        need (members.insert ⟨accountId, observedAt, snapshot⟩)
          (ProjectionError.store .database)) members = .ok members' ∧
      members'.rows = members.rows ++ set.map (MemberRow.mk accountId observedAt) := by
  refine foldlM_builds (fun seen (members' : MemberTable key) =>
    members'.rows = members.rows ++ seen.map (MemberRow.mk accountId observedAt)) ?_ ?_
  · rw [List.map_nil, List.append_nil]
  · intro seen snapshot rest members' hsplit hrows
    have hkey : members'.get (accountId, (key snapshot).2) = none := by
      cases hget : members'.get (accountId, (key snapshot).2) with
      | none => rfl
      | some row =>
        obtain ⟨hrow, hsame⟩ := Table.get_eq_some.mp hget
        rw [hrows] at hrow
        rcases List.mem_append.mp hrow with hold | hseen
        · exact absurd (congrArg Prod.fst hsame) (hfree row hold)
        · obtain ⟨s, hs, rfl⟩ := List.mem_map.mp hseen
          have hid : (key s).2 = (key snapshot).2 := (Prod.ext_iff.mp hsame).2
          rw [hsplit, List.map_append, List.map_cons, List.nodup_append] at hids
          exact absurd hid (hids.2.2 _ (List.mem_map_of_mem hs) _ List.mem_cons_self)
    obtain ⟨inserted, hinsert⟩ : ∃ inserted,
        members'.insert ⟨accountId, observedAt, snapshot⟩ = some inserted :=
      Table.insert_free hkey fun _ h => (nomatch h)
    refine ⟨inserted, ?_, ?_⟩
    · show need (members'.insert ⟨accountId, observedAt, snapshot⟩) _ = _
      rw [hinsert]
      rfl
    · rw [Table.ofRows_rows hinsert, hrows, List.map_append, List.append_assoc]
      rfl

theorem LastSet.other {w : FullSet AccountId Int S} {other : AccountId} {rows : List (MemberRow S)}
    (h : LastSet kind sets other checkpoint rows) (hother : w.owner ≠ other) :
    LastSet kind (insert w sets) other checkpoint rows := by
  cases checkpoint with
  | none =>
    refine ⟨h.1, fun v hv => ?_⟩
    rcases hv with rfl | hv
    · exact hother
    · exact h.2 v hv
  | some c =>
    obtain ⟨v, hv⟩ := h
    refine ⟨v, Set.mem_insert_of_mem _ hv.mem, hv.owner, fun u hu howner => ?_, hv.watermark,
      hv.hash, hv.rows⟩
    rcases hu with rfl | hu
    · exact absurd howner hother
    · exact hv.last u hu howner

theorem membersOf_erase {members : MemberTable key} {other : AccountId} (hother : other ≠ accountId) :
    ((members.erase fun row => row.accountId == accountId).rows.filter fun row =>
      row.accountId == other) = members.rows.filter fun row => row.accountId == other := by
  show (members.rows.filter fun row => !(row.accountId == accountId)).filter _ = _
  rw [List.filter_filter]
  refine List.filter_congr fun row _ => ?_
  cases hat : row.accountId == other with
  | false => rfl
  | true =>
    rw [eq_of_beq hat, beq_eq_false_iff_ne.mpr hother]
    rfl

/-- what the account's checkpoint says of its full set once the set was applied -/
structure Advances (kind : SetKind D key)
    (checkpoints checkpoints' : AccountId → Option (AccountReconciliationCheckpoint D))
    (accountId : AccountId) (observedAt : Int) (set : List S) : Prop where
  others : ∀ other, other ≠ accountId → checkpoints' other = checkpoints other
  own : ∃ c, checkpoints' accountId = some c ∧
    (kind.watermark c, kind.setHash c) = advancedSet kind (checkpoints accountId) observedAt set

/-- what a full set does to the latest table: nothing, or its members enter and the account's other
rows until then leave -/
def LatestAfter (kind : SetKind D key) (sets : Set (FullSet AccountId Int S)) (accountId : AccountId)
    (observedAt : Int) (set : List S) (updatedAt : Int) (tables tables' : SetTables key) : Prop :=
  tables' = tables ∨ ((∀ w ∈ sets, w.owner = accountId → w.time < observedAt) ∧ ∃ entered,
    enterLatest kind.toLatestKind tables.latest set updatedAt = .ok entered ∧
      tables'.latest = entered.erase (tombstoned kind accountId observedAt set))

theorem SetShown.replace (h : SetShown kind facts sets checkpoints tables)
    (hcoherent : CoherentSets kind facts (insert ⟨accountId, observedAt, set⟩ sets))
    (hnew : ∀ w ∈ sets, w.owner = accountId → w.time < observedAt)
    (hmark : ∀ c ∈ checkpoints accountId, kind.watermark c < observedAt) (updatedAt : Int) :
    ∃ tables', replaceFullSet kind (checkpoints accountId) tables accountId observedAt set updatedAt =
        .ok tables' ∧
      LatestAfter kind sets accountId observedAt set updatedAt tables tables' ∧
      ∀ checkpoints', Advances kind checkpoints checkpoints' accountId observedAt set →
        SetShown kind facts (insert ⟨accountId, observedAt, set⟩ sets) checkpoints' tables' := by
  have hw : (⟨accountId, observedAt, set⟩ : FullSet AccountId Int S) ∈
      insert ⟨accountId, observedAt, set⟩ sets := Set.mem_insert _ _
  have hold : CoherentSets kind facts sets :=
    hcoherent.mono Set.Subset.rfl (Set.subset_insert _ sets)
  obtain ⟨entered, henter, hentered, hshows⟩ := h.enter hcoherent hnew hmark updatedAt
  have hfree : ∀ row ∈ (tables.members.erase fun row => row.accountId == accountId).rows,
      row.accountId ≠ accountId := fun row hrow => ne_of_beq_false (Table.mem_erase.mp hrow).2
  have hids : (set.map fun s => (key s).2).Nodup := by
    refine List.Nodup.of_map (fun id => (accountId, id)) ?_
    rw [List.map_map]
    have hkeys := hcoherent.keyed _ hw
    refine (List.map_congr_left fun s hs => ?_) ▸ hkeys
    exact Prod.ext (hcoherent.formed _ hw s hs).1 rfl
  obtain ⟨members, hinsert, hrows⟩ := insertMembers observedAt hfree hids
  refine ⟨⟨entered.erase (tombstoned kind accountId observedAt set), members⟩, ?_,
    .inr ⟨hnew, entered, hentered, rfl⟩, fun checkpoints' hadvances => ⟨?_, fun other => ?_⟩⟩
  · unfold replaceFullSet
    rw [henter]
    show (set.foldlM (fun (members : MemberTable key) snapshot =>
      need (members.insert ⟨accountId, observedAt, snapshot⟩)
        (ProjectionError.store .database)) _ >>= fun _ => _) = _
    rw [hinsert]
    rfl
  · have hvisible : visibleSnapshots kind facts (insert ⟨accountId, observedAt, set⟩ sets) =
        {x ∈ visibleSnapshots kind facts sets ∪ {s | s ∈ set} |
          (key x).1 = accountId → observedAt < kind.observedAt x} ∪ {s | s ∈ set} := by
      have hset : visibleSnapshots kind facts (insert ⟨accountId, observedAt, set⟩ sets) =
          {x ∈ visibleSnapshots kind facts sets |
            (key x).1 = accountId → observedAt < kind.observedAt x} ∪ {s | s ∈ set} :=
        visible_set_new hnew hold.formed
      rw [hset]
      ext x
      simp only [Set.mem_union, Set.mem_ofPred_eq]
      tauto
    rw [hvisible]
    refine hshows.settle ⟨accountId, observedAt, set⟩
      (fun x => tombstoned kind accountId observedAt set ⟨x, 0⟩)
      (hcoherent.union_unambiguous owner_of_key hnew) owner_of_key (fun x hx => ?_) (fun x => ?_)
      (shown_erase fun row => rfl)
    · exact ⟨Set.mem_union_right _ hx, hcoherent.formed _ hw x hx⟩
    · rw [tombstoned, decide_eq_true_iff]
      refine and_congr_right fun howner => and_congr_right fun _ => not_congr ?_
      rw [List.mem_map, List.mem_map]
      refine exists_congr fun y => and_congr_right fun hy => ?_
      have hyo := (hcoherent.formed _ hw y hy).1
      exact ⟨fun hid => Prod.ext (hyo.trans howner.symm) hid, fun hkey => congrArg Prod.snd hkey⟩
  · by_cases hother : other = accountId
    · subst hother
      obtain ⟨c, hc, hadvanced⟩ := hadvances.own
      have hlater : advancedSet kind (checkpoints other) observedAt set =
          (observedAt, kind.setDigest set) := by
        unfold advancedSet
        cases hcheckpoint : checkpoints other with
        | none => rfl
        | some c => exact if_pos (hmark c hcheckpoint)
      rw [hlater] at hadvanced
      rw [hc]
      refine ⟨⟨other, observedAt, set⟩, hw, rfl, fun v hv howner => ?_,
        (Prod.ext_iff.mp hadvanced).1, (Prod.ext_iff.mp hadvanced).2, ?_⟩
      · rcases hv with rfl | hv
        · exact le_rfl
        · exact (hnew v hv howner).le
      · show members.rows.filter _ = _
        rw [hrows, List.filter_append, List.filter_eq_nil_iff.mpr fun row hrow => ?_,
          List.nil_append, List.filter_eq_self]
        · intro row hrow
          obtain ⟨s, _, rfl⟩ := List.mem_map.mp hrow
          exact beq_self_eq_true other
        · rw [beq_iff_eq]
          exact hfree row hrow
    · rw [hadvances.others other hother]
      have hlast := h.last other
      have hsame : membersOf ⟨entered.erase (tombstoned kind accountId observedAt set),
          members⟩ other = membersOf tables other := by
        show members.rows.filter _ = tables.members.rows.filter _
        rw [hrows, List.filter_append, membersOf_erase hother]
        refine (congrArg _ (List.filter_eq_nil_iff.mpr fun row hrow => ?_)).trans (List.append_nil _)
        obtain ⟨s, _, rfl⟩ := List.mem_map.mp hrow
        rw [beq_iff_eq]
        exact Ne.symm hother
      rw [hsame]
      exact hlast.other (Ne.symm hother)

theorem SetShown.fullSet (h : SetShown kind facts sets checkpoints tables)
    (hcoherent : CoherentSets kind facts (insert ⟨accountId, observedAt, set⟩ sets))
    (updatedAt : Int) :
    ∃ tables', applyFullSet kind (checkpoints accountId) tables accountId observedAt set updatedAt =
        .ok tables' ∧
      LatestAfter kind sets accountId observedAt set updatedAt tables tables' ∧
      ∀ checkpoints', Advances kind checkpoints checkpoints' accountId observedAt set →
        SetShown kind facts (insert ⟨accountId, observedAt, set⟩ sets) checkpoints' tables' := by
  have hreplaced (hcompare : compareFullSet ("reconciliation_" ++ kind.noun ++ "s") accountId
        observedAt (kind.setDigest set)
        ((checkpoints accountId).map fun c => (kind.watermark c, kind.setHash c)) = .ok .applied)
      (hnew : ∀ w ∈ sets, w.owner = accountId → w.time < observedAt)
      (hmark : ∀ c ∈ checkpoints accountId, kind.watermark c < observedAt) :
      ∃ tables', applyFullSet kind (checkpoints accountId) tables accountId observedAt set updatedAt =
          .ok tables' ∧
        LatestAfter kind sets accountId observedAt set updatedAt tables tables' ∧
        ∀ checkpoints', Advances kind checkpoints checkpoints' accountId observedAt set →
          SetShown kind facts (insert ⟨accountId, observedAt, set⟩ sets) checkpoints' tables' := by
    obtain ⟨tables', hreplace, hshown⟩ := h.replace hcoherent hnew hmark updatedAt
    refine ⟨tables', ?_, hshown⟩
    unfold applyFullSet
    rw [hcompare]
    exact hreplace
  have hlast := h.last accountId
  cases hcheckpoint : checkpoints accountId with
  | none =>
    rw [hcheckpoint] at hlast hreplaced
    exact hreplaced rfl (fun w hw howner => absurd howner (hlast.2 w hw)) fun c hc => (nomatch hc)
  | some c =>
    rw [hcheckpoint] at hlast hreplaced
    obtain ⟨w, hw⟩ := hlast
    rw [Option.map_some] at hreplaced
    rcases lt_or_ge (kind.watermark c) observedAt with hlt | hge
    · refine hreplaced (compareFullSet_newer hlt) (fun v hv howner => ?_) fun c' hc' => ?_
      · exact lt_of_le_of_lt (hw.last v hv howner) (hw.watermark ▸ hlt)
      · cases hc'
        exact hlt
    · have hsame : observedAt = w.time → set = w.members := fun heq =>
        hcoherent.alike _ (Set.mem_insert _ _) w (Set.mem_insert_of_mem _ hw.mem) hw.owner.symm heq
      obtain ⟨decision, hcompare, hdecision⟩ : ∃ decision,
          compareFullSet ("reconciliation_" ++ kind.noun ++ "s") accountId observedAt
            (kind.setDigest set) (some (kind.watermark c, kind.setHash c)) = .ok decision ∧
          decision ≠ .applied := by
        rcases lt_or_eq_of_le hge with hlt | heq
        · exact ⟨_, compareFullSet_older hlt, by decide⟩
        · rw [hw.hash, ← hsame (heq.trans hw.watermark), ← heq]
          exact ⟨_, compareFullSet_same, by decide⟩
      refine ⟨tables, ?_, .inl rfl, fun checkpoints' hadvances => ⟨?_, fun other => ?_⟩⟩
      · unfold applyFullSet
        rw [Option.map_some, hcompare]
        exact if_neg hdecision
      · have hvisible : visibleSnapshots kind facts (insert ⟨accountId, observedAt, set⟩ sets) =
            visibleSnapshots kind facts sets :=
          visible_set_past hw.mem hw.owner (hw.watermark ▸ hge) hsame
        rw [hvisible]
        exact h.latest
      · by_cases hother : other = accountId
        · subst hother
          obtain ⟨c', hc', hadvanced⟩ := hadvances.own
          have hkept : advancedSet kind (checkpoints other) observedAt set =
              (kind.watermark c, kind.setHash c) := by
            rw [hcheckpoint]
            exact if_neg (not_lt.mpr hge)
          rw [hkept, Prod.mk.injEq] at hadvanced
          rw [hc']
          refine ⟨w, Set.mem_insert_of_mem _ hw.mem, hw.owner, fun v hv howner => ?_,
            hadvanced.1.trans hw.watermark, hadvanced.2.trans hw.hash, hw.rows⟩
          rcases hv with rfl | hv
          · exact hw.watermark ▸ hge
          · exact hw.last v hv howner
        · rw [hadvances.others other hother]
          exact (h.last other).other (Ne.symm hother)

end

end

end Sinan.Projection
