import Mathlib.Data.List.Basic

/-!
# Machines that read a stream

A machine reads one symbol at a time; each symbol moves it, may make it emit something, or ends it.
`trace step s xs` is what it emits on `xs` and where it stands afterwards.  A stream that arrives in
pieces is read as its concatenation (`trace_append`): the pieces leave no mark.

`call` is the other way to look at a piece: a function that hands back what was emitted only when
the whole piece was read, and the failure alone when it was not.
-/

namespace Sinan.Lib

variable {σ α β ε : Type} (step : σ → α → Except ε (σ × Option β))

/-- what is emitted on `xs`, and the state reached or the failure met -/
def trace (s : σ) : List α → List β × Except ε σ
  | [] => ([], .ok s)
  | x :: xs =>
    match step s x with
    | .error e => ([], .error e)
    | .ok (s', out) => (out.toList ++ (trace s' xs).1, (trace s' xs).2)

variable {s : σ} {xs : List α}

theorem trace_cons_ok {s' : σ} {x : α} {out : Option β} (h : step s x = .ok (s', out)) :
    trace step s (x :: xs) = (out.toList ++ (trace step s' xs).1, (trace step s' xs).2) := by
  simp only [trace, h]

theorem trace_cons_error {x : α} {e : ε} (h : step s x = .error e) :
    trace step s (x :: xs) = ([], .error e) := by
  simp only [trace, h]

/-- the answer to one symbol, as the trace of that symbol alone -/
def one : Except ε (σ × Option β) → List β × Except ε σ
  | .error e => ([], .error e)
  | .ok (s, out) => (out.toList, .ok s)

theorem trace_single (s : σ) (x : α) : trace step s [x] = one (step s x) := by
  cases hx : step s x with
  | error e => exact trace_cons_error step hx
  | ok p =>
    rw [trace_cons_ok step hx]
    exact Prod.ext (List.append_nil _) rfl

variable {out : List β}

theorem trace_cons_inv {x : α} {r : Except ε σ} (h : trace step s (x :: xs) = (out, r)) :
    (∃ e, step s x = .error e ∧ out = [] ∧ r = .error e) ∨
    ∃ s₁ o out₁, step s x = .ok (s₁, o) ∧ trace step s₁ xs = (out₁, r) ∧
      out = o.toList ++ out₁ := by
  cases hx : step s x with
  | error e =>
    rw [trace_cons_error step hx] at h
    cases h
    exact .inl ⟨e, rfl, rfl, rfl⟩
  | ok p =>
    obtain ⟨s₁, o⟩ := p
    rw [trace_cons_ok step hx] at h
    cases h
    exact .inr ⟨s₁, o, (trace step s₁ xs).1, rfl, rfl, rfl⟩

theorem trace_append {s' : σ} (h : trace step s xs = (out, .ok s')) (ys : List α) :
    trace step s (xs ++ ys) = (out ++ (trace step s' ys).1, (trace step s' ys).2) := by
  induction xs generalizing s out with
  | nil =>
    cases h
    rfl
  | cons x xs ih =>
    rcases trace_cons_inv step h with ⟨e, -, -, hr⟩ | ⟨s₁, o, out₁, hx, hrest, rfl⟩
    · cases hr
    · rw [List.cons_append, trace_cons_ok step hx, ih hrest, List.append_assoc]

theorem trace_append_error {e : ε} (h : trace step s xs = (out, .error e)) (ys : List α) :
    trace step s (xs ++ ys) = (out, .error e) := by
  induction xs generalizing s out with
  | nil => cases h
  | cons x xs ih =>
    rcases trace_cons_inv step h with ⟨e', hx, rfl, hr⟩ | ⟨s₁, o, out₁, hx, hrest, rfl⟩
    · cases hr
      exact trace_cons_error step hx
    · rw [List.cons_append, trace_cons_ok step hx, ih hrest]

/-- a piece handed over as one call: its output when it was read to the end, else only the failure -/
def call {τ : Type} : List β × Except (σ × τ) σ → σ × Except τ (List β)
  | (out, .ok s) => (s, .ok out)
  | (_, .error (s, e)) => (s, .error e)

end Sinan.Lib
