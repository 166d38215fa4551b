import Mathlib.Logic.ExistsUnique
import Sinan.Lib.Run

/-!
# Runs that append to a log

`log` reads a log off the state of a machine whose steps leave it alone or append one entry.  Then
the log in front of any step is a prefix of every later one, and each entry was written by exactly
one step.
-/

namespace Sinan.Lib

variable {σ ι α : Type} {step : σ → ι → σ}

/-- the log is left alone or gets one more entry -/
def Appends (xs ys : List α) : Prop := ys = xs ∨ ∃ x, ys = xs ++ [x]

theorem Appends.initial {xs ys : List α} (h : Appends xs ys) : xs <+: ys := by
  rcases h with rfl | ⟨x, rfl⟩
  · exact List.prefix_refl _
  · exact List.prefix_append _ _

theorem Appends.length_le {xs ys : List α} (h : Appends xs ys) : ys.length ≤ xs.length + 1 := by
  rcases h with rfl | ⟨x, rfl⟩
  · exact Nat.le_succ _
  · exact Nat.le_of_eq List.length_append

theorem Appends.entry {xs ys : List α} (h : Appends xs ys) {n : Nat} {x : α}
    (hx : xs[n]? = some x) : ys[n]? = some x := by
  rcases h with rfl | ⟨y, rfl⟩
  · exact hx
  · obtain ⟨hn, -⟩ := List.getElem?_eq_some_iff.mp hx
    rw [List.getElem?_append_left hn, hx]

variable (log : σ → List α)

theorem log_initial (h : ∀ s x, Appends (log s) (log (step s x))) (s : σ) (xs : List ι) {i k : Nat}
    (hik : i ≤ k) : log (before step s xs i) <+: log (before step s xs k) :=
  before_related step (R := fun a b => log a <+: log b) (fun _ => List.prefix_refl _)
    (fun hab hbc => hab.trans hbc) s xs hik fun _ _ _ _ => (h _ _).initial

theorem appends_before (h : ∀ s x, Appends (log s) (log (step s x))) (s : σ) (xs : List ι) (k : Nat) :
    Appends (log (before step s xs k)) (log (before step s xs (k + 1))) := by
  cases hx : xs[k]? with
  | none => exact .inl (by rw [before_past step s hx])
  | some x => rw [before_succ step s hx]; exact h _ x

/-- the step between `j` and `j + 1` wrote the `n`-th entry of `entries` -/
structure Wrote (step : σ → ι → σ) (log : σ → List α) (s : σ) (xs : List ι) (entries : List α)
    (n j : Nat) : Prop where
  earlier : log (before step s xs j) = entries.take n
  later : log (before step s xs (j + 1)) = entries.take (n + 1)

theorem exists_wrote (h : ∀ s x, Appends (log s) (log (step s x))) {s : σ} (h0 : log s = [])
    (xs : List ι) {k n : Nat} (hn : n < (log (before step s xs k)).length) :
    ∃ j, j < k ∧ Wrote step log s xs (log (before step s xs k)) n j := by
  induction k with
  | zero =>
    rw [before_zero, h0] at hn
    exact absurd hn (Nat.not_lt_zero n)
  | succ k ih =>
    have happ := appends_before log h s xs k
    rcases Nat.lt_or_ge n (log (before step s xs k)).length with hold | hnew
    · obtain ⟨j, hj, hw⟩ := ih hold
      obtain ⟨rest, hrest⟩ := happ.initial
      refine ⟨j, Nat.lt_succ_of_lt hj, ?_, ?_⟩
      · rw [hw.earlier, ← hrest, List.take_append_of_le_length (Nat.le_of_lt hold)]
      · rw [hw.later, ← hrest, List.take_append_of_le_length hold]
    · have hle := happ.length_le
      have heq : n = (log (before step s xs k)).length := by omega
      obtain ⟨rest, hrest⟩ := happ.initial
      refine ⟨k, Nat.lt_succ_self k, ?_, ?_⟩
      · rw [heq, ← hrest, List.take_left]
      · rw [List.take_of_length_le]
        omega

theorem exists_unique_grown (h : ∀ s x, Appends (log s) (log (step s x))) {s : σ} (h0 : log s = [])
    (xs : List ι) {k n : Nat} (hn : n < (log (before step s xs k)).length) :
    ∃! j, j < k ∧ (log (before step s xs j)).length = n ∧
      (log (before step s xs (j + 1))).length = n + 1 := by
  obtain ⟨j, hj, hw⟩ := exists_wrote log h h0 xs hn
  refine ⟨j, ⟨hj, ?_, ?_⟩, ?_⟩
  · rw [hw.earlier, List.length_take]
    omega
  · rw [hw.later, List.length_take]
    omega
  · rintro i ⟨-, hi, hi'⟩
    have hj1 : (log (before step s xs j)).length = n := by
      rw [hw.earlier, List.length_take]
      omega
    have hj2 : (log (before step s xs (j + 1))).length = n + 1 := by
      rw [hw.later, List.length_take]
      omega
    rcases Nat.lt_trichotomy i j with hlt | heq | hlt
    · have := (log_initial log h s xs (Nat.succ_le_of_lt hlt)).length_le
      rw [hj1, Nat.succ_eq_add_one, hi'] at this
      omega
    · exact heq
    · have := (log_initial log h s xs (Nat.succ_le_of_lt hlt)).length_le
      rw [hi, Nat.succ_eq_add_one, hj2] at this
      omega

end Sinan.Lib
