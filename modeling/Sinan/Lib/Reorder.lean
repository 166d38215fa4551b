import Mathlib.Algebra.Order.BigOperators.Group.List
import Mathlib.Data.List.Perm.Subperm
import Mathlib.Data.List.Sort
import Sinan.Lib.Check

/-!
# Lists up to order

What a check that reads a list by key, by its sums or one element at a time finds in a permutation
of the list, or in a part of it.
-/

namespace Sinan.Lib

variable {α β ε κ : Type}

/-! ## loops -/

variable {xs : List α}

theorem foldlM_each {f : β → α → Except ε β} {b r : β} (h : xs.foldlM f b = .ok r) :
    ∀ x ∈ xs, ∃ a a', f a x = .ok a' := by
  induction xs generalizing b with
  | nil => exact fun x hx => absurd hx List.not_mem_nil
  | cons x xs ih =>
    rw [List.foldlM_cons, bind_ok] at h
    obtain ⟨next, hnext, hrest⟩ := h
    exact List.forall_mem_cons.mpr ⟨⟨b, next, hnext⟩, ih hrest⟩

theorem foldlM_total {f : β → α → Except ε β} (h : ∀ x ∈ xs, ∀ a, ∃ a', f a x = .ok a') (b : β) :
    ∃ r, xs.foldlM f b = .ok r := by
  induction xs generalizing b with
  | nil => exact ⟨b, rfl⟩
  | cons x xs ih =>
    obtain ⟨next, hnext⟩ := h x List.mem_cons_self b
    obtain ⟨r, hr⟩ := ih (fun y hy => h y (List.mem_cons_of_mem x hy)) next
    refine ⟨r, ?_⟩
    rw [List.foldlM_cons, bind_ok]
    exact ⟨next, hnext, hr⟩

/-! ## lookups by key -/

variable {ys : List α}

theorem find_key_perm [BEq κ] [LawfulBEq κ] {key : α → κ} (h : xs.Perm ys)
    (hnodup : (xs.map key).Nodup) (k : κ) :
    ys.find? (fun x => key x == k) = xs.find? (fun x => key x == k) := by
  have hnodup' : (ys.map key).Nodup := (h.map key).nodup_iff.mp hnodup
  cases hx : xs.find? (fun x => key x == k) with
  | some a =>
    obtain ⟨hmem, rfl⟩ := find_key hx
    exact find_key_self hnodup' (h.mem_iff.mp hmem)
  | none =>
    rw [List.find?_eq_none] at hx ⊢
    exact fun y hy => hx y (h.mem_iff.mpr hy)

theorem insertionSort_key_perm [LinearOrder κ] {key : α → κ} (h : xs.Perm ys)
    (hnodup : (xs.map key).Nodup) :
    xs.insertionSort (fun x y => key x ≤ key y) = ys.insertionSort (fun x y => key x ≤ key y) := by
  have htotal : Std.Total fun x y : α => key x ≤ key y := ⟨fun x y => le_total (key x) (key y)⟩
  have htrans : IsTrans α fun x y : α => key x ≤ key y := ⟨fun _ _ _ hxy hyz => hxy.trans hyz⟩
  refine List.Perm.eq_of_pairwise ?_ (List.pairwise_insertionSort _ xs)
    (List.pairwise_insertionSort _ ys)
    ((List.perm_insertionSort _ xs).trans (h.trans (List.perm_insertionSort _ ys).symm))
  intro a b ha hb hab hba
  have ha' : a ∈ xs := (List.mem_insertionSort _).mp ha
  have hb' : b ∈ xs := h.mem_iff.mpr ((List.mem_insertionSort _).mp hb)
  exact List.inj_on_of_nodup_map hnodup ha' hb' (le_antisymm hab hba)

/-! ## parts -/

theorem Subperm.map (h : xs.Subperm ys) (f : α → β) :
    (xs.map f).Subperm (ys.map f) := by
  obtain ⟨zs, hperm, hsub⟩ := h
  exact ⟨zs.map f, hperm.map f, hsub.map f⟩

theorem Subperm.nodup (h : xs.Subperm ys) (hnodup : ys.Nodup) : xs.Nodup := by
  obtain ⟨zs, hperm, hsub⟩ := h
  exact hperm.nodup_iff.mp (hnodup.sublist hsub)

theorem sum_le_of_subperm {M : Type} [AddCommMonoid M] [Preorder M] [AddLeftMono M] {f : α → M}
    (h : xs.Subperm ys) (hnonneg : ∀ y ∈ ys, 0 ≤ f y) : (xs.map f).sum ≤ (ys.map f).sum := by
  obtain ⟨zs, hperm, hsub⟩ := h
  rw [← (hperm.map f).sum_eq]
  refine (hsub.map f).sum_le_sum fun a ha => ?_
  obtain ⟨y, hy, rfl⟩ := List.mem_map.mp ha
  exact hnonneg y hy

end Sinan.Lib
