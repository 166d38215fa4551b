import Mathlib.Data.List.Infix
import Mathlib.Order.Lattice

/-!
# Lists along which a key grows

A log is kept in the order of its sequence numbers.  Such a list is cut by a bound on the key into
what lies at or below it and what lies above, and a condition that never holds again once it has
failed cuts off a prefix.
-/

namespace Sinan.Lib

variable {α κ : Type} [LinearOrder κ] {key : α → κ} {xs ys : List α}

/-- the key grows along the list -/
def Ascending (key : α → κ) (xs : List α) : Prop := xs.Pairwise fun x y => key x < key y

theorem Ascending.sublist (h : Ascending key ys) (hs : xs.Sublist ys) : Ascending key xs :=
  List.Pairwise.sublist hs h

theorem Ascending.snoc {x : α} (h : Ascending key xs) (hx : ∀ y ∈ xs, key y < key x) :
    Ascending key (xs ++ [x]) := by
  refine List.pairwise_append.mpr ⟨h, List.pairwise_singleton _ _, fun y hy z hz => ?_⟩
  rw [List.mem_singleton.mp hz]
  exact hx y hy

theorem Ascending.split (h : Ascending key xs) (b : κ) (q : α → Bool) :
    xs.filter q = xs.filter (fun x => q x && decide (key x ≤ b))
      ++ xs.filter (fun x => q x && decide (b < key x)) := by
  induction xs with
  | nil => rfl
  | cons x xs ih =>
    obtain ⟨hhead, htail⟩ := List.pairwise_cons.mp h
    simp only [List.filter_cons]
    by_cases hx : key x ≤ b
    · have hnot : ¬ b < key x := not_lt.mpr hx
      rw [decide_eq_true hx, decide_eq_false hnot, Bool.and_true, Bool.and_false, ih htail]
      cases q x <;> rfl
    · -- everything after an element above the bound is above it too
      have hlt : b < key x := not_le.mp hx
      have hempty : xs.filter (fun y => q y && decide (key y ≤ b)) = [] := by
        apply List.filter_eq_nil_iff.mpr
        intro y hy
        have hgt : ¬ key y ≤ b := not_le.mpr (lt_trans hlt (hhead y hy))
        rw [decide_eq_false hgt, Bool.and_false]
        exact Bool.false_ne_true
      have hall : xs.filter (fun y => q y && decide (b < key y)) = xs.filter q := by
        apply List.filter_congr
        intro y hy
        rw [decide_eq_true (lt_trans hlt (hhead y hy)), Bool.and_true]
      rw [decide_eq_false hx, decide_eq_true hlt, Bool.and_true, Bool.and_false, hempty, hall]
      rfl

theorem Ascending.mem_prefix (h : Ascending key ys) (hp : xs <+: ys) {x y : α} (hx : x ∈ xs)
    (hy : y ∈ ys) (hlt : key y < key x) : y ∈ xs := by
  obtain ⟨zs, rfl⟩ := hp
  rcases List.mem_append.mp hy with hy | hy
  · exact hy
  · exact absurd hlt (lt_asymm ((List.pairwise_append.mp h).2.2 x hx y hy))

theorem Ascending.mem_suffix (h : Ascending key ys) (hs : xs <:+ ys) {x y : α} (hx : x ∈ xs)
    (hy : y ∈ ys) (hlt : key x < key y) : y ∈ xs := by
  obtain ⟨zs, rfl⟩ := hs
  rcases List.mem_append.mp hy with hy | hy
  · exact absurd hlt (lt_asymm ((List.pairwise_append.mp h).2.2 y hy x hx))
  · exact hy

/-- deleting what satisfies `q` leaves a suffix, when nothing in front of a deleted element stays -/
theorem filter_suffix {q : α → Bool} (h : xs.Pairwise fun x y => q y = true → q x = true) :
    xs.filter (fun x => !q x) <:+ xs := by
  induction xs with
  | nil => exact List.suffix_refl []
  | cons x xs ih =>
    obtain ⟨hhead, htail⟩ := List.pairwise_cons.mp h
    simp only [List.filter_cons]
    cases hx : q x with
    | true => exact (ih htail).trans (List.suffix_cons x xs)
    | false =>
      have hall : xs.filter (fun y => !q y) = xs := by
        apply List.filter_eq_self.mpr
        intro y hy
        cases hq : q y with
        | true => rw [hhead y hy hq] at hx; exact (nomatch hx)
        | false => rfl
      rw [Bool.not_false, if_pos rfl, hall]

end Sinan.Lib
