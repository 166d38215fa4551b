/-!
# Runs of a state machine

A run is a start state and a list of inputs.  `before step s xs k` is the state in front of the
`k`-th input, so a property of "every state of the run" is a property of `before … k` for every
`k`, and the `k`-th call is `xs[k]?` taken in that state.
-/

namespace Sinan.Lib

variable {σ ι : Type} (step : σ → ι → σ)

/-- the state in front of the `k`-th input; past the end, the last state of the run -/
def before (s : σ) (xs : List ι) (k : Nat) : σ := (xs.take k).foldl step s

theorem before_zero (s : σ) (xs : List ι) : before step s xs 0 = s := rfl

variable {xs : List ι} {k : Nat}

theorem before_succ {x : ι} (s : σ) (h : xs[k]? = some x) :
    before step s xs (k + 1) = step (before step s xs k) x := by
  unfold before
  rw [List.take_add_one, h, List.foldl_append]
  rfl

theorem before_past (s : σ) (h : xs[k]? = none) :
    before step s xs (k + 1) = before step s xs k := by
  unfold before
  rw [List.take_add_one, h, Option.toList_none, List.append_nil]

theorem before_invariant {P : σ → Prop} (s : σ) (xs : List ι) (h0 : P s)
    (hstep : ∀ s x, P s → P (step s x)) (k : Nat) : P (before step s xs k) := by
  induction k with
  | zero => exact h0
  | succ k ih =>
    cases h : xs[k]? with
    | none => rw [before_past step s h]; exact ih
    | some x => rw [before_succ step s h]; exact hstep _ x ih

theorem before_related {R : σ → σ → Prop} (hrefl : ∀ s, R s s)
    (htrans : ∀ {a b c}, R a b → R b c → R a c) (s : σ) (xs : List ι) {i : Nat} (hik : i ≤ k)
    (hstep : ∀ j x, j < k → xs[j]? = some x →
      R (before step s xs j) (step (before step s xs j) x)) :
    R (before step s xs i) (before step s xs k) := by
  induction k with
  | zero => rw [Nat.le_zero.mp hik]; exact hrefl _
  | succ k ih =>
    rcases Nat.lt_or_eq_of_le hik with hlt | rfl
    · have hik' := Nat.le_of_lt_succ hlt
      refine htrans (ih hik' fun j x hj hx => hstep j x (Nat.lt_succ_of_lt hj) hx) ?_
      cases h : xs[k]? with
      | none => rw [before_past step s h]; exact hrefl _
      | some x => rw [before_succ step s h]; exact hstep k x (Nat.lt_succ_self k) h
    · exact hrefl _

/-- how many inputs of the run satisfy `p` in the state they are taken in -/
def countAlong (p : σ → ι → Bool) (s : σ) : List ι → Nat
  | [] => 0
  | x :: xs => (if p s x then 1 else 0) + countAlong p (step s x) xs

variable {p : σ → ι → Bool}

/-- inputs that raise a measure which no input lowers are at most as many as the measure allows -/
theorem countAlong_le {P : σ → Prop} (m : σ → Nat) (bound : Nat) (hkeep : ∀ s x, P s → P (step s x))
    (hle : ∀ s x, P s → m s ≤ m (step s x)) (hlt : ∀ s x, P s → p s x = true → m s < m (step s x))
    (hbound : ∀ s, m s ≤ bound) (s : σ) (xs : List ι) (hs : P s) :
    m s + countAlong step p s xs ≤ bound := by
  induction xs generalizing s with
  | nil => exact hbound s
  | cons x xs ih =>
    have hrest := ih (step s x) (hkeep s x hs)
    show m s + ((if p s x then 1 else 0) + countAlong step p (step s x) xs) ≤ bound
    by_cases hp : p s x = true
    · rw [if_pos hp]
      have := hlt s x hs hp
      omega
    · rw [if_neg hp]
      have := hle s x hs
      omega

theorem countAlong_append (s : σ) (xs ys : List ι) :
    countAlong step p s (xs ++ ys) =
      countAlong step p s xs + countAlong step p (xs.foldl step s) ys := by
  induction xs generalizing s with
  | nil => exact (Nat.zero_add _).symm
  | cons x xs ih =>
    show (if p s x then 1 else 0) + countAlong step p (step s x) (xs ++ ys) = _
    rw [ih, ← Nat.add_assoc]
    rfl

theorem countAlong_eq_zero (s : σ) (h : ∀ x ∈ xs, ∀ s, p s x = false) :
    countAlong step p s xs = 0 := by
  induction xs generalizing s with
  | nil => rfl
  | cons x xs ih =>
    show (if p s x then 1 else 0) + countAlong step p (step s x) xs = 0
    rw [h x (List.mem_cons_self ..) s, ih (step s x) fun y hy => h y (List.mem_cons_of_mem _ hy)]
    rfl

theorem countAlong_take_succ {x : ι} (s : σ) (h : xs[k]? = some x) :
    countAlong step p s (xs.take (k + 1)) =
      countAlong step p s (xs.take k) + if p (before step s xs k) x then 1 else 0 := by
  rw [List.take_add_one, h, countAlong_append]
  rfl

/-! ## a condition on every input -/

/-- every input of the run satisfies `p` in the state it is taken in -/
def always (p : σ → ι → Prop) (s : σ) : List ι → Prop
  | [] => True
  | x :: xs => p s x ∧ always p (step s x) xs

instance always.decidable (p : σ → ι → Prop) [∀ s x, Decidable (p s x)] :
    (s : σ) → (xs : List ι) → Decidable (always step p s xs)
  | _, [] => isTrue trivial
  | s, x :: xs => @instDecidableAnd _ _ _ (always.decidable p (step s x) xs)

theorem always_at {p : σ → ι → Prop} {s : σ} (h : always step p s xs) {x : ι} (hk : xs[k]? = some x) :
    p (before step s xs k) x := by
  induction xs generalizing s k with
  | nil => cases hk
  | cons y xs ih =>
    cases k with
    | zero =>
      cases hk
      exact h.1
    | succ k => exact ih h.2 hk

/-! ## what a run hands out -/

variable {γ : Type}

/-- what the inputs of the run hand out, in order, each in the state it is taken in -/
def emitted (out : σ → ι → List γ) (s : σ) : List ι → List γ
  | [] => []
  | x :: xs => out s x ++ emitted out (step s x) xs

variable {out : σ → ι → List γ}

theorem emitted_append (s : σ) (xs ys : List ι) :
    emitted step out s (xs ++ ys) =
      emitted step out s xs ++ emitted step out (xs.foldl step s) ys := by
  induction xs generalizing s with
  | nil => rfl
  | cons x xs ih =>
    show out s x ++ emitted step out (step s x) (xs ++ ys) = _
    rw [ih, ← List.append_assoc]
    rfl

theorem emitted_take_succ {x : ι} (s : σ) (h : xs[k]? = some x) :
    emitted step out s (xs.take (k + 1)) =
      emitted step out s (xs.take k) ++ out (before step s xs k) x := by
  rw [List.take_add_one, h, emitted_append]
  show _ ++ (out _ x ++ []) = _
  rw [List.append_nil]
  rfl

theorem emitted_take_past (s : σ) (h : xs[k]? = none) :
    emitted step out s (xs.take (k + 1)) = emitted step out s (xs.take k) := by
  rw [List.take_add_one, h, Option.toList_none, List.append_nil]

end Sinan.Lib
