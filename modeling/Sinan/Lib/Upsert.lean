import Sinan.Lib.Table

/-!
# Tables that are written over

A table without a second index takes every row: `replace` is `INSERT … ON CONFLICT DO UPDATE`, and
`erase` is `DELETE … WHERE`.  The lemmas say what a lookup finds afterwards.
-/

set_option linter.unusedSectionVars false

namespace Sinan.Lib

/-- a table with a primary key only -/
abbrev Keyed {ρ κ : Type} (key : ρ → κ) := Table key (fun _ : ρ => (none : Option Unit))

namespace Table

variable {ρ κ υ : Type} {key : ρ → κ} {index : ρ → Option υ}

def erase (t : Table key index) (p : ρ → Bool) : Table key index :=
  ⟨t.rows.filter fun r => !p r,
    t.keyed.sublist (List.filter_sublist.map key),
    t.indexed.sublist (List.filter_sublist.filterMap index)⟩

variable [DecidableEq κ]

theorem replaced_keys (t : Table key index) (r : ρ) :
    (((t.rows.filter fun x => !decide (key x = key r)) ++ [r]).map key).Nodup := by
  rw [List.map_append, List.nodup_append]
  refine ⟨t.keyed.sublist (List.filter_sublist.map key), List.nodup_singleton _, ?_⟩
  intro k hk k' hk' hsame
  obtain ⟨x, hx, rfl⟩ := List.mem_map.mp hk
  rw [List.map_singleton, List.mem_singleton] at hk'
  have hother := (List.mem_filter.mp hx).2
  rw [decide_eq_true (hsame.trans hk')] at hother
  cases hother

/-- the row takes the place of the one of its key -/
def replace (t : Keyed key) (r : ρ) : Keyed key :=
  ⟨(t.rows.filter fun x => !decide (key x = key r)) ++ [r], replaced_keys t r, by
    rw [List.filterMap_none]
    exact List.nodup_nil⟩

section
variable [DecidableEq υ] {t : Table key index} {x y : ρ} {p : ρ → Bool}

theorem mem_erase : y ∈ (t.erase p).rows ↔ y ∈ t.rows ∧ p y = false := by
  show y ∈ t.rows.filter (fun r => !p r) ↔ _
  rw [List.mem_filter, Bool.not_eq_true']

theorem get_erase (t : Table key index) (p : ρ → Bool) (k : κ) :
    (t.erase p).get k = (t.get k).filter fun r => !p r := by
  apply Option.ext
  intro y
  rw [get_eq_some, mem_erase, Option.filter_eq_some_iff, get_eq_some, Bool.not_eq_true']
  constructor
  · rintro ⟨⟨hy, hp⟩, hk⟩
    exact ⟨⟨hy, hk⟩, hp⟩
  · rintro ⟨⟨hy, hk⟩, hp⟩
    exact ⟨⟨hy, hp⟩, hk⟩

end

section
variable {t : Keyed key} {r y : ρ}

theorem mem_replace : y ∈ (t.replace r).rows ↔ (y ∈ t.rows ∧ key y ≠ key r) ∨ y = r := by
  show y ∈ (t.rows.filter fun x => !decide (key x = key r)) ++ [r] ↔ _
  rw [List.mem_append, List.mem_filter, List.mem_singleton, Bool.not_eq_true',
    decide_eq_false_iff_not]

theorem get_replace (t : Keyed key) (r : ρ) (k : κ) :
    (t.replace r).get k = if key r = k then some r else t.get k := by
  apply Option.ext
  intro y
  rw [get_eq_some, mem_replace]
  by_cases hk : key r = k
  · rw [if_pos hk]
    constructor
    · rintro ⟨⟨_, hne⟩ | rfl, hyk⟩
      · exact absurd (hyk.trans hk.symm) hne
      · rfl
    · intro hy
      cases hy
      exact ⟨.inr rfl, hk⟩
  · rw [if_neg hk, get_eq_some]
    constructor
    · rintro ⟨⟨hy, _⟩ | rfl, hyk⟩
      · exact ⟨hy, hyk⟩
      · exact absurd hyk hk
    · rintro ⟨hy, hyk⟩
      exact ⟨.inl ⟨hy, fun hsame => hk (hsame.symm.trans hyk)⟩, hyk⟩

end

end Table

end Sinan.Lib
