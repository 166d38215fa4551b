import Mathlib.Data.List.Dedup
import Mathlib.Data.List.Sort
import Sinan.Lib.Check

/-!
# Lists in the order of a key

`sortBy key` is the stable sort by a key and `orderedSet` the elements of an ordered set.  A list
whose keys are distinct has one sorted form, whatever order its elements arrived in; so a program that
sorts first depends on the elements only.
-/

namespace Sinan.Lib

variable {α κ : Type} [LinearOrder κ] {key : α → κ} {xs ys : List α}

def sortBy (key : α → κ) (xs : List α) : List α := xs.insertionSort fun x y => key x ≤ key y

theorem sortBy_perm (key : α → κ) (xs : List α) : (sortBy key xs).Perm xs :=
  List.perm_insertionSort _ xs

@[simp] theorem mem_sortBy {x : α} : x ∈ sortBy key xs ↔ x ∈ xs := (sortBy_perm key xs).mem_iff

theorem sortBy_pairwise (key : α → κ) (xs : List α) :
    (sortBy key xs).Pairwise fun x y => key x ≤ key y := by
  have : Std.Total fun x y : α => key x ≤ key y := ⟨fun x y => le_total (key x) (key y)⟩
  have : IsTrans α fun x y => key x ≤ key y := ⟨fun _ _ _ => le_trans⟩
  exact List.pairwise_insertionSort _ xs

theorem eq_of_key_sorted (hperm : xs.Perm ys) (hnodup : (xs.map key).Nodup)
    (hx : xs.Pairwise fun x y => key x ≤ key y) (hy : ys.Pairwise fun x y => key x ≤ key y) :
    xs = ys :=
  List.Perm.eq_of_pairwise (fun _ _ ha hb hab hba =>
    List.inj_on_of_nodup_map hnodup ha (hperm.mem_iff.mpr hb) (le_antisymm hab hba)) hx hy hperm

theorem sortBy_congr (hperm : xs.Perm ys) (hnodup : (xs.map key).Nodup) :
    sortBy key xs = sortBy key ys :=
  eq_of_key_sorted (((sortBy_perm key xs).trans hperm).trans (sortBy_perm key ys).symm)
    (((sortBy_perm key xs).map key).nodup_iff.mpr hnodup) (sortBy_pairwise key xs)
    (sortBy_pairwise key ys)

theorem map_sortBy (key : α → κ) (xs : List α) :
    (sortBy key xs).map key = (xs.map key).insertionSort (· ≤ ·) :=
  List.map_insertionSort _ _ key xs fun _ _ _ _ => Iff.rfl

theorem sortBy_map {β : Type} {key' : β → κ} {f : α → β} (h : ∀ x, key' (f x) = key x) (xs : List α) :
    (sortBy key xs).map f = sortBy key' (xs.map f) :=
  List.map_insertionSort _ _ f xs fun x _ y _ => by rw [h x, h y]

theorem sortBy_strict (hnodup : (xs.map key).Nodup) :
    ((sortBy key xs).map key).Pairwise (· < ·) := by
  have hkeys : ((sortBy key xs).map key).Nodup := ((sortBy_perm key xs).map key).nodup_iff.mpr hnodup
  have hle : ((sortBy key xs).map key).Pairwise (· ≤ ·) :=
    List.pairwise_map.mpr (sortBy_pairwise key xs)
  exact hle.imp₂ (fun _ _ hab hne => lt_of_le_of_ne hab hne) hkeys

theorem sortBy_head_le {x y : α} (h : (sortBy key xs).head? = some x) (hy : y ∈ xs) :
    key x ≤ key y := by
  have hsorted := sortBy_pairwise key xs
  have hmem : y ∈ sortBy key xs := mem_sortBy.mpr hy
  cases hlist : sortBy key xs with
  | nil =>
    rw [hlist] at hmem
    cases hmem
  | cons z zs =>
    rw [hlist] at h hsorted hmem
    cases h
    rcases List.mem_cons.mp hmem with rfl | hrest
    · exact le_refl _
    · exact (List.pairwise_cons.mp hsorted).1 y hrest

theorem head_of_least {x : α} (hgrow : xs.Pairwise fun x y => key x < key y) (hx : x ∈ xs)
    (hleast : ∀ y ∈ xs, key x ≤ key y) : ∃ rest, xs = x :: rest := by
  cases xs with
  | nil => cases hx
  | cons z zs =>
    rcases List.mem_cons.mp hx with rfl | hrest
    · exact ⟨zs, rfl⟩
    · have hlt := (List.pairwise_cons.mp hgrow).1 x hrest
      exact absurd (lt_of_lt_of_le hlt (hleast z List.mem_cons_self)) (lt_irrefl _)

/-- the elements of an ordered set, in its order -/
def orderedSet (ks : List κ) : List κ := ks.dedup.insertionSort (· ≤ ·)

@[simp] theorem mem_orderedSet {k : κ} {ks : List κ} : k ∈ orderedSet ks ↔ k ∈ ks := by
  unfold orderedSet
  rw [List.mem_insertionSort, List.mem_dedup]

theorem orderedSet_strict (ks : List κ) : (orderedSet ks).Pairwise (· < ·) := by
  have hnodup : (ks.dedup.map fun k => k).Nodup := by
    rw [List.map_id']
    exact ks.nodup_dedup
  have hstrict := sortBy_strict hnodup
  rwa [List.map_id'] at hstrict

theorem orderedSet_congr {ks ls : List κ} (h : ∀ k, k ∈ ks ↔ k ∈ ls) :
    orderedSet ks = orderedSet ls := by
  refine List.Perm.eq_of_pairwise (fun _ _ _ _ hab hba => absurd (hab.trans hba) (lt_irrefl _))
    (orderedSet_strict ks) (orderedSet_strict ls) ?_
  refine (List.perm_ext_iff_of_nodup ?_ ?_).mpr fun k => ?_
  · exact (orderedSet_strict ks).imp fun hab => ne_of_lt hab
  · exact (orderedSet_strict ls).imp fun hab => ne_of_lt hab
  · rw [mem_orderedSet, mem_orderedSet, h k]

/-! ## checks on sets -/

section
variable {ε β : Type} [DecidableEq β] {f : α → β} {first : α → Except ε Unit} {dup : α → ε}
  {then_ : α → Except ε Unit}

theorem eachApart_perm (hperm : xs.Perm ys) :
    eachApart (fun y x => decide (f y = f x)) first dup then_ [] xs = .ok () ↔
      eachApart (fun y x => decide (f y = f x)) first dup then_ [] ys = .ok () := by
  rw [eachApart_key_ok, eachApart_key_ok, (hperm.map f).nodup_iff]
  simp only [hperm.mem_iff]

end

end Sinan.Lib
