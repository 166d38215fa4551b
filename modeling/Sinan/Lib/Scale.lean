import Mathlib.Algebra.BigOperators.Ring.List
import Mathlib.Algebra.Order.BigOperators.Group.List
import Mathlib.Data.Rat.Cast.Order
import Mathlib.Tactic.Ring

/-!
# Linear caps on a sizing

Items are sized by numbers of an ordered field.  A cap allows a limit, of which some is used already
and of which each item takes a rational load for every unit of its size.  When all sizes grow with
one scale, a cap with a positive coefficient is a bound on that scale: the least of such bounds is
the largest scale under all of them.
-/

namespace Sinan.Lib

structure Cap (ι : Type) where
  used : ℚ
  load : ι → ℚ
  limit : ℚ

/-- every item at the same scale of its ratio -/
def scaled {ι K : Type} [Field K] (ratio : ι → ℚ) (items : List ι) (t : K) : List (ι × K) :=
  items.map fun i => (i, t * ratio i)

namespace Cap

variable {ι K : Type} [Field K] [LinearOrder K] [IsStrictOrderedRing K]

/-- what a sizing takes of the cap -/
def amount (c : Cap ι) (sizing : List (ι × K)) : K :=
  (sizing.map fun x => x.2 * (c.load x.1 : K)).sum

def Holds (c : Cap ι) (sizing : List (ι × K)) : Prop :=
  (c.used : K) + c.amount sizing ≤ (c.limit : K)

/-- what one unit of scale takes -/
def coefficient (c : Cap ι) (ratio : ι → ℚ) (items : List ι) : ℚ :=
  (items.map fun i => ratio i * c.load i).sum

theorem holds_rat_iff (c : Cap ι) (sizing : List (ι × ℚ)) :
    c.Holds sizing ↔ c.used + (sizing.map fun x => x.2 * c.load x.1).sum ≤ c.limit := by
  simp only [Holds, amount, Rat.cast_id]

theorem amount_scaled (c : Cap ι) (ratio : ι → ℚ) (items : List ι) (t : K) :
    c.amount (scaled ratio items t) = t * (c.coefficient ratio items : K) := by
  induction items with
  | nil => simp [scaled, amount, coefficient]
  | cons i items ih =>
    simp only [scaled, amount, coefficient, List.map_cons, List.sum_cons] at ih ⊢
    rw [ih]
    push_cast
    ring

theorem holds_scaled_iff (c : Cap ι) {ratio : ι → ℚ} {items : List ι}
    (h : 0 < c.coefficient ratio items) (t : K) :
    c.Holds (scaled ratio items t) ↔
      t ≤ (((c.limit - c.used) / c.coefficient ratio items : ℚ) : K) := by
  have hpos : (0 : K) < (c.coefficient ratio items : K) := by exact_mod_cast h
  rw [Holds, amount_scaled]
  push_cast
  rw [le_div_iff₀ hpos, le_sub_iff_add_le, add_comm]

theorem holds_scaled_of_untouched (c : Cap ι) {ratio : ι → ℚ} {items : List ι}
    (h : ∀ i ∈ items, c.load i = 0) (hused : c.used ≤ c.limit) (t : K) :
    c.Holds (scaled ratio items t) := by
  have hzero : c.coefficient ratio items = 0 := by
    refine List.sum_eq_zero fun x hx => ?_
    obtain ⟨i, hi, rfl⟩ := List.mem_map.mp hx
    rw [h i hi, mul_zero]
  rw [Holds, amount_scaled, hzero, Rat.cast_zero, mul_zero, add_zero]
  exact_mod_cast hused

theorem Holds.mono {c c' : Cap ι} {sizing : List (ι × K)} (h : c.Holds sizing)
    (hload : c'.load = c.load) (hused : c'.used ≤ c.used) (hlimit : c.limit ≤ c'.limit) :
    c'.Holds sizing := by
  have hused' : (c'.used : K) ≤ (c.used : K) := by exact_mod_cast hused
  have hlimit' : (c.limit : K) ≤ (c'.limit : K) := by exact_mod_cast hlimit
  have hamount : c'.amount sizing = c.amount sizing := by
    unfold amount
    rw [hload]
  unfold Holds at h ⊢
  rw [hamount]
  calc (c'.used : K) + c.amount sizing ≤ (c.used : K) + c.amount sizing := by gcongr
    _ ≤ (c.limit : K) := h
    _ ≤ (c'.limit : K) := hlimit'

theorem Holds.lower {κ : Type} {c : Cap ι} {xs : List κ} {item : κ → ι} {small large : κ → K}
    (h : c.Holds (xs.map fun x => (item x, large x))) (hload : ∀ x ∈ xs, 0 ≤ c.load (item x))
    (hle : ∀ x ∈ xs, small x ≤ large x) : c.Holds (xs.map fun x => (item x, small x)) := by
  have hamount : c.amount (xs.map fun x => (item x, small x))
      ≤ c.amount (xs.map fun x => (item x, large x)) := by
    unfold amount
    rw [List.map_map, List.map_map]
    refine List.sum_le_sum fun x hx => ?_
    have hnonneg : (0 : K) ≤ (c.load (item x) : K) := by exact_mod_cast hload x hx
    exact mul_le_mul_of_nonneg_right (hle x hx) hnonneg
  exact (add_le_add_right hamount _).trans h

end Cap

end Sinan.Lib
