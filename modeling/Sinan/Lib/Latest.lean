import Mathlib.Data.List.Nodup
import Mathlib.Order.Bounds.Basic

/-!
# Latest observations

Observations have a key and a time.  A lookup `Shows` a set of observations if it finds, for every
key, the latest one; where the set is `Unambiguous` there is one such lookup, whatever the order the
observations came in.

An owner's observations may also arrive as a `FullSet`, which says what there is at its time and so
ends everything the owner had before.  `visible` is what remains to be shown.
-/

set_option linter.unusedSectionVars false

namespace Sinan.Lib

/-! ## single observations -/

section
variable {α κ τ : Type} [LinearOrder τ] (key : α → κ) (time : α → τ)

/-- a key has one observation at a time -/
def Unambiguous (A : Set α) : Prop := ∀ x ∈ A, ∀ y ∈ A, key x = key y → time x = time y → x = y

/-- no other observation of the key and time of `x`, unless a later one of the key is there as well -/
def Uncontested (A : Set α) (x : α) : Prop :=
  (∃ z ∈ A, key z = key x ∧ time x < time z) ∨
    ∀ y ∈ A, key y = key x → time y = time x → y = x

/-- an observation may contradict another one only if a later one makes both of them past -/
def Decided (A : Set α) : Prop := ∀ x ∈ A, Uncontested key time A x

structure Shows (A : Set α) (look : κ → Option α) : Prop where
  sound : ∀ {k x}, look k = some x → x ∈ A ∧ key x = k
  top : ∀ {x}, x ∈ A → ∃ y, look (key x) = some y ∧ time x ≤ time y

variable {key time} {A B : Set α} {look look' : κ → Option α}

theorem Unambiguous.mono (h : Unambiguous key time B) (hsub : A ⊆ B) : Unambiguous key time A :=
  fun x hx y hy => h x (hsub hx) y (hsub hy)

theorem Unambiguous.decided (h : Unambiguous key time A) : Decided key time A :=
  fun x hx => .inr fun y hy hkey htime => h y hy x hx hkey htime

variable {x : α}

theorem Unambiguous.uncontested (h : Unambiguous key time (insert x A)) :
    Uncontested key time A x :=
  .inr fun y hy hkey htime =>
    h y (Set.mem_insert_of_mem _ hy) x (Set.mem_insert _ _) hkey htime

theorem Decided.empty : Decided key time (∅ : Set α) := fun _ h => absurd h (Set.notMem_empty _)

theorem Decided.insert (h : Decided key time A) (hx : Uncontested key time A x) :
    Decided key time (insert x A) := by
  intro y hy
  rcases hy with rfl | hy
  · rcases hx with ⟨z, hz, hkey, hlt⟩ | hone
    · exact .inl ⟨z, Set.mem_insert_of_mem _ hz, hkey, hlt⟩
    · refine .inr fun z hz hkey htime => ?_
      rcases hz with rfl | hz
      · rfl
      · exact hone z hz hkey htime
  · rcases h y hy with ⟨z, hz, hkey, hlt⟩ | hone
    · exact .inl ⟨z, Set.mem_insert_of_mem _ hz, hkey, hlt⟩
    · by_cases hsame : key x = key y ∧ time x = time y
      · rcases hx with ⟨z, hz, hkey, hlt⟩ | honex
        · exact .inl ⟨z, Set.mem_insert_of_mem _ hz, hkey.trans hsame.1, hsame.2 ▸ hlt⟩
        · refine .inr fun z hz hkey htime => ?_
          rw [honex y hy hsame.1.symm hsame.2.symm]
          rcases hz with rfl | hz
          · rfl
          · exact honex z hz (hkey.trans hsame.1.symm) (htime.trans hsame.2.symm)
      · refine .inr fun z hz hkey htime => ?_
        rcases hz with rfl | hz
        · exact absurd ⟨hkey, htime⟩ hsame
        · exact hone z hz hkey htime

theorem uncontested_insert {y : α} (hkey : key y ≠ key x) :
    Uncontested key time (insert y A) x ↔ Uncontested key time A x := by
  constructor
  · rintro (⟨z, hz, hzx, hlt⟩ | hone)
    · rcases hz with rfl | hz
      · exact absurd hzx hkey
      · exact .inl ⟨z, hz, hzx, hlt⟩
    · exact .inr fun z hz => hone z (Set.mem_insert_of_mem _ hz)
  · rintro (⟨z, hz, hzx, hlt⟩ | hone)
    · exact .inl ⟨z, Set.mem_insert_of_mem _ hz, hzx, hlt⟩
    · refine .inr fun z hz hzx htime => ?_
      rcases hz with rfl | hz
      · exact absurd hzx hkey
      · exact hone z hz hzx htime

theorem uncontested_union (hother : ∀ y ∈ A, key y ≠ key x) :
    Uncontested key time (A ∪ B) x ↔ Uncontested key time B x := by
  constructor
  · rintro (⟨z, hz | hz, hkey, hlt⟩ | hone)
    · exact absurd hkey (hother z hz)
    · exact .inl ⟨z, hz, hkey, hlt⟩
    · exact .inr fun y hy => hone y (.inr hy)
  · rintro (⟨z, hz, hkey, hlt⟩ | hone)
    · exact .inl ⟨z, .inr hz, hkey, hlt⟩
    · refine .inr fun y hy hkey htime => ?_
      rcases hy with hy | hy
      · exact absurd hkey (hother y hy)
      · exact hone y hy hkey htime

theorem Decided.restrict (h : Decided key time A) (p : κ → Prop) :
    Decided key time {x ∈ A | p (key x)} := by
  rintro x ⟨hx, hp⟩
  rcases h x hx with ⟨z, hz, hkey, hlt⟩ | hone
  · refine .inl ⟨z, ⟨hz, ?_⟩, hkey, hlt⟩
    rw [hkey]
    exact hp
  · exact .inr fun y hy => hone y hy.1

theorem union_cons (A : Set α) (x : α) (xs : List α) :
    A ∪ {y | y ∈ x :: xs} = insert x A ∪ {y | y ∈ xs} := by
  ext y
  simp only [List.mem_cons, Set.mem_union, Set.mem_ofPred_eq, Set.mem_insert_iff]
  tauto

theorem Decided.union {xs : List α} (h : Decided key time A) (hkeys : (xs.map key).Nodup)
    (hxs : ∀ x ∈ xs, Uncontested key time A x) : Decided key time (A ∪ {x | x ∈ xs}) := by
  induction xs generalizing A with
  | nil =>
    simp only [List.not_mem_nil, Set.ofPred_false, Set.union_empty]
    exact h
  | cons x xs ih =>
    obtain ⟨hfresh, hrest⟩ := List.nodup_cons.mp hkeys
    rw [union_cons]
    refine ih (h.insert (hxs x List.mem_cons_self)) hrest fun y hy => ?_
    refine (uncontested_insert fun hkey => ?_).mpr (hxs y (List.mem_cons_of_mem _ hy))
    exact hfresh (hkey ▸ List.mem_map_of_mem hy)

theorem Shows.empty : Shows key time (∅ : Set α) fun _ => none :=
  ⟨fun h => (nomatch h), fun h => absurd h (Set.notMem_empty _)⟩

theorem Shows.agree (hpast : Decided key time A) (h : Shows key time A look)
    (h' : Shows key time A look') {k : κ} (hx : look k = some x) : look' k = some x := by
  obtain ⟨hxA, rfl⟩ := h.sound hx
  obtain ⟨y, hy, hle⟩ := h'.top hxA
  obtain ⟨hyA, hkey⟩ := h'.sound hy
  obtain ⟨z, hz, hle'⟩ := h.top hyA
  rw [hkey, hx] at hz
  cases hz
  rcases hpast x hxA with ⟨w, hwA, hwkey, hlt⟩ | hone
  · obtain ⟨v, hv, hlast⟩ := h.top hwA
    rw [hwkey, hx] at hv
    cases hv
    exact absurd hlast (not_le.mpr hlt)
  · rw [hy, hone y hyA hkey (le_antisymm hle' hle)]

theorem Shows.unique (hpast : Decided key time A) (h : Shows key time A look)
    (h' : Shows key time A look') : look = look' := by
  funext k
  apply Option.ext
  intro x
  exact ⟨h.agree hpast h', h'.agree hpast h⟩

theorem Shows.newer (h : Shows key time A look)
    (hnew : ∀ y, look (key x) = some y → time y < time x) (hat : look' (key x) = some x)
    (helse : ∀ k, k ≠ key x → look' k = look k) :
    Shows key time (insert x A) look' := by
  constructor
  · intro k y hy
    by_cases hk : k = key x
    · subst hk
      rw [hat] at hy
      cases hy
      exact ⟨Set.mem_insert _ _, rfl⟩
    · rw [helse k hk] at hy
      exact ⟨Set.mem_insert_of_mem _ (h.sound hy).1, (h.sound hy).2⟩
  · intro y hy
    by_cases hk : key y = key x
    · rw [hk]
      refine ⟨x, hat, ?_⟩
      rcases hy with rfl | hy
      · exact le_rfl
      · obtain ⟨z, hz, hle⟩ := h.top hy
        rw [hk] at hz
        exact le_trans hle (hnew z hz).le
    · rw [helse _ hk]
      rcases hy with rfl | hy
      · exact absurd rfl hk
      · exact h.top hy

theorem Shows.seen (h : Shows key time A look) {y : α} (hy : look (key x) = some y)
    (hle : time x ≤ time y) : Shows key time (insert x A) look := by
  constructor
  · intro k z hz
    exact ⟨Set.mem_insert_of_mem _ (h.sound hz).1, (h.sound hz).2⟩
  · intro z hz
    rcases hz with rfl | hz
    · exact ⟨y, hy, hle⟩
    · exact h.top hz

theorem Shows.restrict (h : Shows key time A look) (p : κ → Prop)
    (hin : ∀ k, p k → look' k = look k) (hout : ∀ k, ¬ p k → look' k = none) :
    Shows key time {x ∈ A | p (key x)} look' := by
  constructor
  · intro k x hx
    by_cases hk : p k
    · rw [hin k hk] at hx
      obtain ⟨hxA, rfl⟩ := h.sound hx
      exact ⟨⟨hxA, hk⟩, rfl⟩
    · rw [hout k hk] at hx
      cases hx
  · rintro x ⟨hxA, hk⟩
    rw [hin _ hk]
    exact h.top hxA

end

/-! ## full sets -/

structure FullSet (ω τ α : Type) where
  owner : ω
  time : τ
  members : List α

section
variable {α κ τ ω : Type} [LinearOrder τ] (key : α → κ) (owner : α → ω) (time : α → τ)

/-- what remains of the facts and the sets: the facts after their owner's last set, and that set -/
def visible (facts : Set α) (sets : Set (FullSet ω τ α)) : Set α :=
  {x | x ∈ facts ∧ ∀ w ∈ sets, w.owner = owner x → w.time < time x} ∪
    {x | ∃ w ∈ sets, x ∈ w.members ∧ ∀ v ∈ sets, v.owner = w.owner → v.time ≤ w.time}

/-- facts and sets that do not contradict each other -/
structure Coherent (facts : Set α) (sets : Set (FullSet ω τ α)) : Prop where
  single : Unambiguous key time facts
  formed : ∀ w ∈ sets, ∀ x ∈ w.members, owner x = w.owner ∧ time x = w.time
  keyed : ∀ w ∈ sets, (w.members.map key).Nodup
  alike : ∀ v ∈ sets, ∀ w ∈ sets, v.owner = w.owner → v.time = w.time → v.members = w.members
  meets : ∀ x ∈ facts, ∀ w ∈ sets, w.owner = owner x → w.time = time x → x ∈ w.members

variable {key owner time} {facts facts' : Set α} {sets sets' : Set (FullSet ω τ α)}

theorem Coherent.empty : Coherent key owner time (∅ : Set α) (∅ : Set (FullSet ω τ α)) where
  single _ hx := absurd hx (Set.notMem_empty _)
  formed _ hw := absurd hw (Set.notMem_empty _)
  keyed _ hw := absurd hw (Set.notMem_empty _)
  alike _ hv := absurd hv (Set.notMem_empty _)
  meets _ hx := absurd hx (Set.notMem_empty _)

theorem Coherent.mono (h : Coherent key owner time facts' sets') (hfacts : facts ⊆ facts')
    (hsets : sets ⊆ sets') : Coherent key owner time facts sets where
  single := h.single.mono hfacts
  formed w hw := h.formed w (hsets hw)
  keyed w hw := h.keyed w (hsets hw)
  alike v hv w hw := h.alike v (hsets hv) w (hsets hw)
  meets x hx w hw := h.meets x (hfacts hx) w (hsets hw)

theorem mem_visible_fact {x : α} (hx : x ∈ facts)
    (hlater : ∀ w ∈ sets, w.owner = owner x → w.time < time x) : x ∈ visible owner time facts sets :=
  .inl ⟨hx, hlater⟩

variable {w : FullSet ω τ α}

theorem mem_visible_member {x : α} (hw : w ∈ sets) (hx : x ∈ w.members)
    (hlast : ∀ v ∈ sets, v.owner = w.owner → v.time ≤ w.time) : x ∈ visible owner time facts sets :=
  .inr ⟨w, hw, hx, hlast⟩

theorem Coherent.visible_unambiguous (h : Coherent key owner time facts sets)
    (howner : ∀ x y, key x = key y → owner x = owner y) :
    Unambiguous key time (visible owner time facts sets) := by
  rintro x (⟨hx, hxlater⟩ | ⟨v, hv, hxv, hvlast⟩) y (⟨hy, hylater⟩ | ⟨w, hw, hyw, hwlast⟩) hkey htime
  · exact h.single x hx y hy hkey htime
  · obtain ⟨howns, hat⟩ := h.formed w hw y hyw
    have hlt := hxlater w hw (howns.symm.trans (howner x y hkey).symm)
    rw [htime, hat] at hlt
    exact absurd hlt (lt_irrefl _)
  · obtain ⟨howns, hat⟩ := h.formed v hv x hxv
    have hlt := hylater v hv (howns.symm.trans (howner x y hkey))
    rw [← htime, hat] at hlt
    exact absurd hlt (lt_irrefl _)
  · have hsame : v.owner = w.owner := by
      rw [← (h.formed v hv x hxv).1, ← (h.formed w hw y hyw).1]
      exact howner x y hkey
    have hat : v.time = w.time := by
      rw [← (h.formed v hv x hxv).2, ← (h.formed w hw y hyw).2]
      exact htime
    have hmembers := h.alike v hv w hw hsame hat
    rw [hmembers] at hxv
    exact List.inj_on_of_nodup_map (h.keyed w hw) hxv hyw hkey

theorem visible_fact_past {x : α} (hw : w ∈ sets) (howner : w.owner = owner x)
    (hle : time x ≤ w.time) :
    visible owner time (insert x facts) sets = visible owner time facts sets := by
  ext y
  constructor
  · rintro (⟨rfl | hy, hlater⟩ | hmember)
    · exact absurd (hlater w hw howner) (not_lt.mpr hle)
    · exact .inl ⟨hy, hlater⟩
    · exact .inr hmember
  · rintro (⟨hy, hlater⟩ | hmember)
    · exact .inl ⟨Set.mem_insert_of_mem _ hy, hlater⟩
    · exact .inr hmember

theorem visible_fact_new {x : α} (hlater : ∀ w ∈ sets, w.owner = owner x → w.time < time x) :
    visible owner time (insert x facts) sets = insert x (visible owner time facts sets) := by
  ext y
  constructor
  · rintro (⟨rfl | hy, hy'⟩ | hmember)
    · exact Set.mem_insert _ _
    · exact Set.mem_insert_of_mem _ (.inl ⟨hy, hy'⟩)
    · exact Set.mem_insert_of_mem _ (.inr hmember)
  · rintro (rfl | ⟨hy, hy'⟩ | hmember)
    · exact .inl ⟨Set.mem_insert _ _, hlater⟩
    · exact .inl ⟨Set.mem_insert_of_mem _ hy, hy'⟩
    · exact .inr hmember

theorem visible_set_past {v : FullSet ω τ α} (hv : v ∈ sets) (howner : v.owner = w.owner)
    (hle : w.time ≤ v.time) (hsame : w.time = v.time → w.members = v.members) :
    visible owner time facts (insert w sets) = visible owner time facts sets := by
  ext x
  constructor
  · rintro (⟨hx, hlater⟩ | ⟨u, rfl | hu, hxu, hlast⟩)
    · exact .inl ⟨hx, fun u hu => hlater u (Set.mem_insert_of_mem _ hu)⟩
    · have hat : u.time = v.time :=
        le_antisymm hle (hlast v (Set.mem_insert_of_mem _ hv) howner)
      rw [hsame hat] at hxu
      refine .inr ⟨v, hv, hxu, fun u' hu' howns => ?_⟩
      have hlast' := hlast u' (Set.mem_insert_of_mem _ hu') (howns.trans howner)
      rw [hat] at hlast'
      exact hlast'
    · exact .inr ⟨u, hu, hxu, fun u' hu' => hlast u' (Set.mem_insert_of_mem _ hu')⟩
  · rintro (⟨hx, hlater⟩ | ⟨u, hu, hxu, hlast⟩)
    · refine .inl ⟨hx, fun u hu howns => ?_⟩
      rcases hu with rfl | hu
      · exact lt_of_le_of_lt hle (hlater v hv (howner.trans howns))
      · exact hlater u hu howns
    · refine .inr ⟨u, Set.mem_insert_of_mem _ hu, hxu, fun u' hu' howns => ?_⟩
      rcases hu' with rfl | hu'
      · exact le_trans hle (hlast v hv (howner.trans howns))
      · exact hlast u' hu' howns

theorem visible_set_new (hnew : ∀ v ∈ sets, v.owner = w.owner → v.time < w.time)
    (hformed : ∀ v ∈ sets, ∀ x ∈ v.members, owner x = v.owner ∧ time x = v.time) :
    visible owner time facts (insert w sets) =
      {x ∈ visible owner time facts sets | owner x = w.owner → w.time < time x} ∪
        {x | x ∈ w.members} := by
  ext x
  constructor
  · rintro (⟨hx, hlater⟩ | ⟨u, rfl | hu, hxu, hlast⟩)
    · refine .inl ⟨.inl ⟨hx, fun v hv => hlater v (Set.mem_insert_of_mem _ hv)⟩, fun howns => ?_⟩
      exact hlater w (Set.mem_insert _ _) howns.symm
    · exact .inr hxu
    · have hother : u.owner ≠ w.owner := fun howns =>
        absurd (hlast w (Set.mem_insert _ _) howns.symm) (not_le.mpr (hnew u hu howns))
      refine .inl ⟨.inr ⟨u, hu, hxu, fun v hv => hlast v (Set.mem_insert_of_mem _ hv)⟩, ?_⟩
      intro howns
      exact absurd ((hformed u hu x hxu).1.symm.trans howns) hother
  · rintro (⟨⟨hx, hlater⟩ | ⟨u, hu, hxu, hlast⟩, hpast⟩ | hx)
    · refine .inl ⟨hx, fun v hv howns => ?_⟩
      rcases hv with rfl | hv
      · exact hpast howns.symm
      · exact hlater v hv howns
    · obtain ⟨howns, hat⟩ := hformed u hu x hxu
      have hother : u.owner ≠ w.owner := fun hsame => by
        have hlt := hpast (howns.trans hsame)
        rw [hat] at hlt
        exact absurd hlt (not_lt.mpr (hnew u hu hsame).le)
      refine .inr ⟨u, Set.mem_insert_of_mem _ hu, hxu, fun v hv hvu => ?_⟩
      rcases hv with rfl | hv
      · exact absurd hvu.symm hother
      · exact hlast v hv hvu
    · refine .inr ⟨w, Set.mem_insert _ _, hx, fun v hv howns => ?_⟩
      rcases hv with rfl | hv
      · exact le_rfl
      · exact (hnew v hv howns).le

theorem Coherent.of_owners (howner : ∀ x y, key x = key y → owner x = owner y)
    (h : ∀ o, Coherent key owner time {x | x ∈ facts ∧ owner x = o} {w | w ∈ sets ∧ w.owner = o}) :
    Coherent key owner time facts sets where
  single x hx y hy hkey htime :=
    (h (owner x)).single x ⟨hx, rfl⟩ y ⟨hy, (howner x y hkey).symm⟩ hkey htime
  formed w hw := (h w.owner).formed w ⟨hw, rfl⟩
  keyed w hw := (h w.owner).keyed w ⟨hw, rfl⟩
  alike v hv w hw howns htime := (h w.owner).alike v ⟨hv, howns⟩ w ⟨hw, rfl⟩ howns htime
  meets x hx w hw howns htime := (h (owner x)).meets x ⟨hx, rfl⟩ w ⟨hw, howns⟩ howns htime

theorem visible_restrict (p : ω → Prop)
    (hformed : ∀ w ∈ sets, ∀ x ∈ w.members, owner x = w.owner ∧ time x = w.time) :
    visible owner time {x | x ∈ facts ∧ p (owner x)} {w | w ∈ sets ∧ p w.owner} =
      {x ∈ visible owner time facts sets | p (owner x)} := by
  ext x
  constructor
  · rintro (⟨⟨hx, hp⟩, hlater⟩ | ⟨w, ⟨hw, hp⟩, hxw, hlast⟩)
    · refine ⟨.inl ⟨hx, fun w hw howns => hlater w ⟨hw, ?_⟩ howns⟩, hp⟩
      rw [howns]
      exact hp
    · refine ⟨.inr ⟨w, hw, hxw, fun v hv howns => hlast v ⟨hv, ?_⟩ howns⟩, ?_⟩
      · rw [howns]
        exact hp
      · show p (owner x)
        rw [(hformed w hw x hxw).1]
        exact hp
  · rintro ⟨⟨hx, hlater⟩ | ⟨w, hw, hxw, hlast⟩, hp⟩
    · exact .inl ⟨⟨hx, hp⟩, fun w hw => hlater w hw.1⟩
    · refine .inr ⟨w, ⟨hw, ?_⟩, hxw, fun v hv => hlast v hv.1⟩
      rw [← (hformed w hw x hxw).1]
      exact hp

theorem Coherent.union_unambiguous (h : Coherent key owner time facts (insert w sets))
    (howner : ∀ x y, key x = key y → owner x = owner y)
    (hnew : ∀ v ∈ sets, v.owner = w.owner → v.time < w.time) :
    Unambiguous key time (visible owner time facts sets ∪ {x | x ∈ w.members}) := by
  have hw : w ∈ insert w sets := Set.mem_insert _ _
  have hold : Coherent key owner time facts sets :=
    h.mono Set.Subset.rfl (Set.subset_insert w sets)
  have hcross : ∀ x ∈ visible owner time facts sets, ∀ y ∈ w.members, key x = key y →
      time x = time y → x = y := by
    intro x hx y hy hkey htime
    obtain ⟨hyo, hyt⟩ := h.formed w hw y hy
    have hxo : owner x = w.owner := (howner x y hkey).trans hyo
    rcases hx with ⟨hx, hlater⟩ | ⟨v, hv, hxv, hlast⟩
    · have hxw := h.meets x hx w hw hxo.symm (hyt.symm.trans htime.symm)
      exact List.inj_on_of_nodup_map (h.keyed w hw) hxw hy hkey
    · obtain ⟨hvo, hvt⟩ := hold.formed v hv x hxv
      have hlt := hnew v hv (hvo.symm.trans hxo)
      rw [← hvt, htime, hyt] at hlt
      exact absurd hlt (lt_irrefl _)
  rintro x (hx | hx) y (hy | hy) hkey htime
  · exact hold.visible_unambiguous howner x hx y hy hkey htime
  · exact hcross x hx y hy hkey htime
  · exact (hcross y hy x hx hkey.symm htime.symm).symm
  · exact List.inj_on_of_nodup_map (h.keyed w hw) hx hy hkey

/-- Once the members of a later set are shown, erasing what its owner had until then and the set does
not have leaves what the set and the later facts show. -/
theorem Shows.settle {A : Set α} {look look' : κ → Option α} (h : Shows key time A look)
    (w : FullSet ω τ α) (gone : α → Bool) (hone : Unambiguous key time A)
    (howner : ∀ x y, key x = key y → owner x = owner y)
    (hmembers : ∀ x ∈ w.members, x ∈ A ∧ owner x = w.owner ∧ time x = w.time)
    (hgone : ∀ x, gone x = true ↔ owner x = w.owner ∧ time x ≤ w.time ∧ key x ∉ w.members.map key)
    (hlook : ∀ k, look' k = (look k).filter fun x => !gone x) :
    Shows key time ({x ∈ A | owner x = w.owner → w.time < time x} ∪ {x | x ∈ w.members}) look' := by
  constructor
  · intro k x hx
    rw [hlook, Option.filter_eq_some_iff] at hx
    obtain ⟨hx, hkept⟩ := hx
    obtain ⟨hxA, hk⟩ := h.sound hx
    refine ⟨?_, hk⟩
    by_cases hin : key x ∈ w.members.map key
    · obtain ⟨m, hm, hkm⟩ := List.mem_map.mp hin
      obtain ⟨hmA, hmo, hmt⟩ := hmembers m hm
      obtain ⟨y, hy, hle⟩ := h.top hmA
      rw [hkm, hk, hx] at hy
      cases hy
      rcases lt_or_eq_of_le hle with hlt | heq
      · rw [hmt] at hlt
        exact .inl ⟨hxA, fun _ => hlt⟩
      · rw [← hone m hmA x hxA hkm heq]
        exact .inr hm
    · refine .inl ⟨hxA, fun howns => ?_⟩
      by_contra hle
      rw [(hgone x).mpr ⟨howns, not_lt.mp hle, hin⟩] at hkept
      cases hkept
  · have hshown : ∀ {x}, x ∈ A → (key x ∈ w.members.map key ∨ owner x ≠ w.owner ∨ w.time < time x) →
        ∃ y, look' (key x) = some y ∧ time x ≤ time y := by
      intro x hxA hwhy
      obtain ⟨y, hy, hle⟩ := h.top hxA
      obtain ⟨_, hkey⟩ := h.sound hy
      refine ⟨y, ?_, hle⟩
      rw [hlook, hy, Option.filter_eq_some_iff]
      refine ⟨rfl, ?_⟩
      cases hg : gone y with
      | false => rfl
      | true =>
        obtain ⟨hyo, hyt, hyk⟩ := (hgone y).mp hg
        rw [hkey] at hyk
        rw [howner y x hkey] at hyo
        rcases hwhy with hin | hne | hlt
        · exact absurd hin hyk
        · exact absurd hyo hne
        · exact absurd (lt_of_lt_of_le hlt (le_trans hle hyt)) (lt_irrefl _)
    rintro x (⟨hxA, hpast⟩ | hx)
    · by_cases howns : owner x = w.owner
      · exact hshown hxA (.inr (.inr (hpast howns)))
      · exact hshown hxA (.inr (.inl howns))
    · exact hshown (hmembers x hx).1 (.inl (List.mem_map_of_mem hx))

end

/-! ## the last of some times -/

section
variable {τ : Type} [LinearOrder τ]

/-- the greatest of the times, if there is one at all -/
def IsLast (T : Set τ) : Option τ → Prop
  | none => T = ∅
  | some t => IsGreatest T t

theorem IsLast.unique {T : Set τ} {a b : Option τ} (ha : IsLast T a) (hb : IsLast T b) : a = b := by
  cases a with
  | none =>
    cases b with
    | none => rfl
    | some t =>
      have hmem : t ∈ T := hb.1
      rw [show T = ∅ from ha] at hmem
      exact absurd hmem (Set.notMem_empty t)
  | some s =>
    cases b with
    | none =>
      have hmem : s ∈ T := ha.1
      rw [show T = ∅ from hb] at hmem
      exact absurd hmem (Set.notMem_empty s)
    | some t => rw [IsGreatest.unique ha hb]

theorem IsLast.later {T : Set τ} {s t : τ} (h : IsLast T (some s)) :
    IsLast (insert t T) (some (max s t)) := by
  rw [max_comm]
  exact IsGreatest.insert t h

theorem IsLast.first {T : Set τ} {t : τ} (h : IsLast T none) : IsLast (insert t T) (some t) := by
  have hempty : T = ∅ := h
  rw [hempty]
  refine ⟨Set.mem_insert _ _, fun s hs => ?_⟩
  rcases hs with rfl | hs
  · exact le_rfl
  · exact absurd hs (Set.notMem_empty s)

end

end Sinan.Lib
