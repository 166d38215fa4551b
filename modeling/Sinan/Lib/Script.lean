import Sinan.Lib.Check

/-!
# Scripts of fallible statements

A script runs statements on a state one after the other.  An error stops it, and what the statements
before it have written stays, unless a savepoint around them puts the state back.
-/

namespace Sinan.Lib

variable {σ ε α β γ : Type}

/-- a result, and the state that is left either way -/
def Script (σ ε α : Type) := σ → Except ε α × σ

namespace Script

def andThen (x : Script σ ε α) (f : α → Script σ ε β) : Script σ ε β := fun s =>
  match x s with
  | (.ok a, s') => f a s'
  | (.error e, s') => (.error e, s')

instance : Monad (Script σ ε) where
  pure a := fun s => (.ok a, s)
  bind := andThen

/-- a statement that only reads -/
def query (f : σ → Except ε α) : Script σ ε α := fun s => (f s, s)

/-- a statement that writes, or refuses and writes nothing -/
def write (f : σ → Except ε (α × σ)) : Script σ ε α := fun s =>
  match f s with
  | .ok (a, s') => (.ok a, s')
  | .error e => (.error e, s)

/-- `SAVEPOINT`, and on an error `ROLLBACK TO` it -/
def savepoint (x : Script σ ε α) : Script σ ε α := fun s =>
  match x s with
  | (.ok a, s') => (.ok a, s')
  | (.error e, _) => (.error e, s)

/-- the errors of a layer, in the words of the layer above it -/
def mapError {δ : Type} (f : ε → δ) (x : Script σ ε α) : Script σ δ α := fun s =>
  ((x s).1.mapError f, (x s).2)

/-- run a statement for every element and ask whether any of them said yes -/
def anyOf (f : γ → Script σ ε Bool) : List γ → Script σ ε Bool
  | [] => pure false
  | x :: xs => do
    let first ← f x
    let rest ← anyOf f xs
    pure (first || rest)

def forEach (f : γ → Script σ ε Unit) : List γ → Script σ ε Unit
  | [] => pure ()
  | x :: xs => do
    f x
    forEach f xs

variable {x : Script σ ε α} {f : α → Script σ ε β} {s s' : σ} {a : α} {b : β}

theorem pure_run {a a' : α} : (pure a : Script σ ε α) s = (.ok a', s') ↔ a = a' ∧ s = s' := by
  constructor
  · intro h
    cases h
    exact ⟨rfl, rfl⟩
  · rintro ⟨rfl, rfl⟩
    rfl

theorem bind_run : (x >>= f) s = (.ok b, s') ↔ ∃ a t, x s = (.ok a, t) ∧ f a t = (.ok b, s') := by
  show andThen x f s = _ ↔ _
  unfold andThen
  rcases x s with ⟨e | a, t⟩
  · constructor
    · intro h
      cases h
    · rintro ⟨_, _, h, -⟩
      cases h
  · constructor
    · intro h
      exact ⟨a, t, rfl, h⟩
    · rintro ⟨_, _, h, h'⟩
      cases h
      exact h'

theorem bind_success {t : σ} (h : x s = (.ok a, t)) : (x >>= f) s = f a t := by
  show andThen x f s = _
  unfold andThen
  rw [h]

theorem bind_error {e : ε} {t : σ} (h : x s = (.error e, t)) : (x >>= f) s = (.error e, t) := by
  show andThen x f s = _
  unfold andThen
  rw [h]

theorem query_success {g : σ → Except ε α} (h : g s = .ok a) : (query g >>= f) s = f a s :=
  bind_success (congrArg (·, s) h)

theorem query_failure {g : σ → Except ε α} {e : ε} (h : g s = .error e) :
    (query g >>= f) s = (.error e, s) := bind_error (congrArg (·, s) h)

theorem query_run {f : σ → Except ε α} : query f s = (.ok a, s') ↔ f s = .ok a ∧ s' = s := by
  constructor
  · intro h
    exact ⟨congrArg Prod.fst h, (congrArg Prod.snd h).symm⟩
  · rintro ⟨h, rfl⟩
    exact congrArg (·, s') h

theorem write_run {f : σ → Except ε (α × σ)} :
    write f s = (.ok a, s') ↔ f s = .ok (a, s') := by
  unfold write
  cases f s with
  | error e =>
    constructor
    · intro h
      cases h
    · intro h
      cases h
  | ok p =>
    constructor
    · intro h
      cases h
      rfl
    · intro h
      cases h
      rfl

theorem savepoint_run : savepoint x s = (.ok a, s') ↔ x s = (.ok a, s') := by
  unfold savepoint
  rcases x s with ⟨e | a', t⟩
  · constructor
    · intro h
      cases h
    · intro h
      cases h
  · exact Iff.rfl

theorem savepoint_error {e : ε} (h : savepoint x s = (.error e, s')) : s' = s := by
  unfold savepoint at h
  revert h
  rcases x s with ⟨e' | a', t⟩
  · intro h
    cases h
    rfl
  · intro h
    cases h

theorem mapError_run {δ : Type} {g : ε → δ} :
    mapError g x s = (.ok a, s') ↔ x s = (.ok a, s') := by
  unfold mapError
  rcases x s with ⟨e | a', t⟩
  · constructor
    · intro h
      cases h
    · intro h
      cases h
  · constructor
    · intro h
      cases h
      rfl
    · intro h
      cases h
      rfl

theorem anyOf_cons {f : γ → Script σ ε Bool} {x : γ} {xs : List γ} {any : Bool} :
    anyOf f (x :: xs) s = (.ok any, s') ↔
      ∃ first t rest, f x s = (.ok first, t) ∧ anyOf f xs t = (.ok rest, s') ∧
        (first || rest) = any := by
  show (f x >>= fun first => anyOf f xs >>= fun rest => pure (first || rest)) s = _ ↔ _
  simp only [bind_run, pure_run]
  constructor
  · rintro ⟨first, t, hfirst, rest, _, hrest, rfl, rfl⟩
    exact ⟨first, t, rest, hfirst, hrest, rfl⟩
  · rintro ⟨first, t, rest, hfirst, hrest, rfl⟩
    exact ⟨first, t, hfirst, rest, s', hrest, rfl, rfl⟩

theorem anyOf_idle {f : γ → Script σ ε Bool} {xs : List γ} (h : ∀ x ∈ xs, f x s = (.ok false, s)) :
    anyOf f xs s = (.ok false, s) := by
  induction xs with
  | nil => rfl
  | cons x xs ih =>
    have hrest := ih fun y hy => h y (List.mem_cons_of_mem x hy)
    exact anyOf_cons.mpr ⟨false, s, false, h x (List.mem_cons_self ..), hrest, rfl⟩

theorem forEach_builds {f : γ → Script σ ε Unit} (Inv : List γ → σ → Prop) (xs : List γ) {s : σ}
    (h0 : Inv [] s) (hstep : ∀ seen x rest u, xs = seen ++ x :: rest → Inv seen u →
      ∃ v, f x u = (.ok (), v) ∧ Inv (seen ++ [x]) v) :
    ∃ t, forEach f xs s = (.ok (), t) ∧ Inv xs t := by
  suffices h : ∀ (rest seen : List γ) (u : σ), xs = seen ++ rest → Inv seen u →
      ∃ t, forEach f rest u = (.ok (), t) ∧ Inv xs t from h xs [] s rfl h0
  intro rest
  induction rest with
  | nil =>
    intro seen u hxs hseen
    rw [List.append_nil] at hxs
    exact ⟨u, rfl, hxs ▸ hseen⟩
  | cons x rest ih =>
    intro seen u hxs hseen
    obtain ⟨v, hv, hseen'⟩ := hstep seen x rest u hxs hseen
    obtain ⟨t, ht, hinv⟩ := ih (seen ++ [x]) v (hxs.trans (List.append_cons ..)) hseen'
    exact ⟨t, (bind_success hv).trans ht, hinv⟩

theorem anyOf_builds {f : γ → Script σ ε Bool} (Inv : List γ → σ → Prop) (xs : List γ) {s : σ}
    (h0 : Inv [] s) (hstep : ∀ seen x rest u, xs = seen ++ x :: rest → Inv seen u →
      ∃ any v, f x u = (.ok any, v) ∧ Inv (seen ++ [x]) v) :
    ∃ any t, anyOf f xs s = (.ok any, t) ∧ Inv xs t := by
  suffices h : ∀ (rest seen : List γ) (u : σ), xs = seen ++ rest → Inv seen u →
      ∃ any t, anyOf f rest u = (.ok any, t) ∧ Inv xs t from h xs [] s rfl h0
  intro rest
  induction rest with
  | nil =>
    intro seen u hxs hseen
    rw [List.append_nil] at hxs
    exact ⟨false, u, rfl, hxs ▸ hseen⟩
  | cons x rest ih =>
    intro seen u hxs hseen
    obtain ⟨first, v, hv, hseen'⟩ := hstep seen x rest u hxs hseen
    obtain ⟨any, t, ht, hinv⟩ := ih (seen ++ [x]) v (hxs.trans (List.append_cons ..)) hseen'
    exact ⟨first || any, t, anyOf_cons.mpr ⟨first, v, any, hv, ht, rfl⟩, hinv⟩

/-! ## what a script keeps -/

/-- a successful run leads to a related state -/
def Keeps (R : σ → σ → Prop) (x : Script σ ε α) : Prop := ∀ s a s', x s = (.ok a, s') → R s s'

section
variable {R : σ → σ → Prop}

theorem Keeps.pure (hrefl : ∀ s, R s s) (a : α) : Keeps R (pure a : Script σ ε α) := by
  intro s a' s' h
  obtain ⟨-, rfl⟩ := pure_run.mp h
  exact hrefl s

theorem Keeps.query (hrefl : ∀ s, R s s) (f : σ → Except ε α) : Keeps R (query f) := by
  intro s a s' h
  obtain ⟨-, rfl⟩ := query_run.mp h
  exact hrefl s'

theorem Keeps.write {f : σ → Except ε (α × σ)} (h : ∀ s a s', f s = .ok (a, s') → R s s') :
    Keeps R (write f) := fun s a s' hrun => h s a s' (write_run.mp hrun)

theorem Keeps.bind (htrans : ∀ {a b c}, R a b → R b c → R a c) (hx : Keeps R x)
    (hf : ∀ a, Keeps R (f a)) : Keeps R (x >>= f) := by
  intro s b s' h
  obtain ⟨a, t, hfirst, hrest⟩ := bind_run.mp h
  exact htrans (hx s a t hfirst) (hf a t b s' hrest)

theorem Keeps.anyOf (hrefl : ∀ s, R s s) (htrans : ∀ {a b c}, R a b → R b c → R a c)
    {f : γ → Script σ ε Bool} (hf : ∀ x, Keeps R (f x)) (xs : List γ) : Keeps R (anyOf f xs) := by
  induction xs with
  | nil => exact Keeps.pure hrefl false
  | cons x xs ih =>
    exact Keeps.bind htrans (hf x) fun _ => Keeps.bind htrans ih fun _ => Keeps.pure hrefl _

theorem Keeps.forEach (hrefl : ∀ s, R s s) (htrans : ∀ {a b c}, R a b → R b c → R a c)
    {f : γ → Script σ ε Unit} (hf : ∀ x, Keeps R (f x)) (xs : List γ) : Keeps R (forEach f xs) := by
  induction xs with
  | nil => exact Keeps.pure hrefl ()
  | cons x xs ih => exact Keeps.bind htrans (hf x) fun _ => ih

theorem anyOf_each (hrefl : ∀ s, R s s) (htrans : ∀ {a b c}, R a b → R b c → R a c)
    {f : γ → Script σ ε Bool} (hf : ∀ x, Keeps R (f x)) {xs : List γ} {any : Bool}
    (h : anyOf f xs s = (.ok any, s')) :
    ∀ x ∈ xs, ∃ u b v, f x u = (.ok b, v) ∧ R s u ∧ R v s' := by
  induction xs generalizing s any with
  | nil => exact fun x hx => absurd hx List.not_mem_nil
  | cons x xs ih =>
    obtain ⟨first, t, rest, hfirst, hrest, -⟩ := anyOf_cons.mp h
    intro y hy
    rcases List.mem_cons.mp hy with rfl | hy
    · exact ⟨s, first, t, hfirst, hrefl s, Keeps.anyOf hrefl htrans hf xs t rest s' hrest⟩
    · obtain ⟨u, b, v, hrun, hsu, hvs⟩ := ih hrest y hy
      exact ⟨u, b, v, hrun, htrans (hf x s first t hfirst) hsu, hvs⟩

theorem forEach_each (hrefl : ∀ s, R s s) (htrans : ∀ {a b c}, R a b → R b c → R a c)
    {f : γ → Script σ ε Unit} (hf : ∀ x, Keeps R (f x)) {xs : List γ}
    (h : forEach f xs s = (.ok (), s')) : ∀ x ∈ xs, ∃ u v, f x u = (.ok (), v) ∧ R s u := by
  induction xs generalizing s with
  | nil => exact fun x hx => absurd hx List.not_mem_nil
  | cons x xs ih =>
    obtain ⟨_, t, hfirst, hrest⟩ := bind_run.mp h
    intro y hy
    rcases List.mem_cons.mp hy with rfl | hy
    · exact ⟨s, t, hfirst, hrefl s⟩
    · obtain ⟨u, v, hrun, htu⟩ := ih hrest y hy
      exact ⟨u, v, hrun, htrans (hf x s _ t hfirst) htu⟩

end

end Script

end Sinan.Lib
