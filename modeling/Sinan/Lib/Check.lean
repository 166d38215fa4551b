import Mathlib.Data.List.Nodup

/-!
# Validators in `Except`

A validator is a sequence of guards, each of which may refuse.  `reject c e` is the guard
`if c { return Err(e) }`, `need o e` is `o.ok_or(e)?`, `each xs f` is a loop whose body may
return early, `collect f xs` one that keeps its results.  The lemmas read the success of such a
sequence as a conjunction; together they are the simp set that opens a validator.
-/

namespace Sinan.Lib

variable {ε α β : Type}

/-- refuse with `e` when `c` holds -/
def reject (c : Prop) [Decidable c] (e : ε) : Except ε Unit := if c then .error e else .ok ()

/-- the value of an option, or the error `e` -/
def need (o : Option α) (e : ε) : Except ε α :=
  match o with
  | some a => .ok a
  | none => .error e

/-- run a check on every element, stopping at the first refusal -/
def each (xs : List α) (f : α → Except ε Unit) : Except ε Unit :=
  match xs with
  | [] => .ok ()
  | x :: xs => do
    f x
    each xs f

variable {x : Except ε α} {b : β}

@[simp] theorem bind_ok {f : α → Except ε β} :
    (x >>= f) = .ok b ↔ ∃ a, x = .ok a ∧ f a = .ok b := by
  cases x with
  | error e => exact ⟨fun h => (nomatch h), fun ⟨_, h, _⟩ => (nomatch h)⟩
  | ok a => exact ⟨fun h => ⟨a, rfl, h⟩, fun ⟨a', h, h'⟩ => by cases h; exact h'⟩

theorem bind_error {f : α → Except ε β} {e : ε} :
    (x >>= f) = .error e ↔ x = .error e ∨ ∃ a, x = .ok a ∧ f a = .error e := by
  cases x with
  | error e' =>
    exact ⟨fun h => .inl (by cases h; rfl), fun h => by
      rcases h with h | ⟨_, h, -⟩
      · cases h; rfl
      · cases h⟩
  | ok a =>
    exact ⟨fun h => .inr ⟨a, rfl, h⟩, fun h => by
      rcases h with h | ⟨_, h, h'⟩
      · cases h
      · cases h; exact h'⟩

variable {a : α} {xs : List α}

@[simp] theorem pure_ok {b : α} : (pure a : Except ε α) = .ok b ↔ a = b :=
  ⟨fun h => Except.ok.inj h, fun h => by rw [h]; rfl⟩

@[simp] theorem exists_unit {p : Unit → Prop} : (∃ u, p u) ↔ p () :=
  ⟨fun ⟨⟨⟩, h⟩ => h, fun h => ⟨(), h⟩⟩

@[simp] theorem reject_ok {c : Prop} [Decidable c] {e : ε} {u : Unit} :
    reject c e = .ok u ↔ ¬ c := by
  unfold reject
  by_cases h : c
  · rw [if_pos h]; exact ⟨fun h' => (nomatch h'), fun h' => absurd h h'⟩
  · rw [if_neg h]; exact ⟨fun _ => h, fun _ => rfl⟩

@[simp] theorem need_ok {o : Option α} {e : ε} : need o e = .ok a ↔ o = some a := by
  cases o with
  | none => exact ⟨fun h => (nomatch h), fun h => (nomatch h)⟩
  | some a' =>
    exact ⟨fun h => by cases h; rfl, fun h => by cases h; rfl⟩

@[simp] theorem mapError_ok {δ : Type} {f : ε → δ} :
    x.mapError f = .ok a ↔ x = .ok a := by
  cases x with
  | error e => exact ⟨fun h => (nomatch h), fun h => (nomatch h)⟩
  | ok b => exact ⟨fun h => by cases h; rfl, fun h => by cases h; rfl⟩

@[simp] theorem each_ok {f : α → Except ε Unit} {u : Unit} :
    each xs f = .ok u ↔ ∀ x ∈ xs, f x = .ok () := by
  induction xs with
  | nil => exact ⟨fun _ x h => (nomatch h), fun _ => rfl⟩
  | cons x xs ih =>
    show (f x >>= fun _ => each xs f) = .ok u ↔ _
    rw [bind_ok, exists_unit, ih]
    simp only [List.mem_cons, forall_eq_or_imp]

/-- run a check on every element and refuse, between `first` and `then_`, an element that clashes
with one seen before: the loop around a `HashSet::insert` -/
def eachApart (clash : α → α → Bool) (first : α → Except ε Unit) (dup : α → ε)
    (then_ : α → Except ε Unit) (seen : List α) : List α → Except ε Unit
  | [] => .ok ()
  | x :: xs => do
    first x
    reject (seen.any fun y => clash y x) (dup x)
    then_ x
    eachApart clash first dup then_ (seen ++ [x]) xs

theorem eachApart_ok {clash : α → α → Bool} {first : α → Except ε Unit} {dup : α → ε}
    {then_ : α → Except ε Unit} {seen : List α} :
    eachApart clash first dup then_ seen xs = .ok () ↔
      xs.Pairwise (fun y x => clash y x = false) ∧
      (∀ y ∈ seen, ∀ x ∈ xs, clash y x = false) ∧
      ∀ x ∈ xs, first x = .ok () ∧ then_ x = .ok () := by
  induction xs generalizing seen with
  | nil =>
    exact ⟨fun _ => ⟨List.Pairwise.nil, fun _ _ _ h => absurd h List.not_mem_nil,
      fun _ h => absurd h List.not_mem_nil⟩, fun _ => rfl⟩
  | cons x xs ih =>
    unfold eachApart
    simp only [bind_ok, exists_unit, reject_ok, ih, List.pairwise_cons, List.mem_cons,
      forall_eq_or_imp, List.mem_append, List.not_mem_nil, or_false, List.any_eq_true, not_exists,
      not_and, Bool.not_eq_true]
    constructor
    · rintro ⟨hfirst, hnew, hthen, hpair, hseen, hrest⟩
      refine ⟨⟨fun y hy => hseen x (.inr rfl) y hy, hpair⟩, fun y hy => ⟨hnew y hy, ?_⟩,
        ⟨hfirst, hthen⟩, hrest⟩
      exact fun z hz => hseen y (.inl hy) z hz
    · rintro ⟨⟨hx, hpair⟩, hseen, ⟨hfirst, hthen⟩, hrest⟩
      refine ⟨hfirst, fun y hy => (hseen y hy).1, hthen, hpair, ?_, hrest⟩
      rintro y (hy | rfl) z hz
      · exact (hseen y hy).2 z hz
      · exact hx z hz

variable {κ : Type} {key : α → κ}

theorem pairwise_key [DecidableEq κ] :
    xs.Pairwise (fun y x => decide (key y = key x) = false) ↔ (xs.map key).Nodup := by
  rw [List.Nodup, List.pairwise_map]
  simp only [decide_eq_false_iff_not, ne_eq]

theorem eachApart_key_ok [DecidableEq κ] {first : α → Except ε Unit} {dup : α → ε}
    {then_ : α → Except ε Unit} :
    eachApart (fun y x => decide (key y = key x)) first dup then_ [] xs = .ok () ↔
      (xs.map key).Nodup ∧ ∀ x ∈ xs, first x = .ok () ∧ then_ x = .ok () := by
  rw [eachApart_ok, pairwise_key]
  constructor
  · rintro ⟨h, -, hrest⟩
    exact ⟨h, hrest⟩
  · rintro ⟨h, hrest⟩
    exact ⟨h, fun y hy => absurd hy List.not_mem_nil, hrest⟩

/-- the results of a fallible function on every element, in order; the loop around a `push` -/
def collect (f : α → Except ε β) : List α → Except ε (List β)
  | [] => .ok []
  | x :: xs => do
    let y ← f x
    let ys ← collect f xs
    return y :: ys

variable {ys : List β}

theorem collect_ok {f : α → Except ε β} :
    collect f xs = .ok ys ↔ List.Forall₂ (fun x y => f x = .ok y) xs ys := by
  induction xs generalizing ys with
  | nil =>
    rw [List.forall₂_nil_left_iff]
    exact ⟨fun h => by cases h; rfl, fun h => by rw [h]; rfl⟩
  | cons x xs ih =>
    rw [List.forall₂_cons_left_iff]
    simp only [collect, bind_ok, pure_ok, ih]
    constructor
    · rintro ⟨y, hy, ys', hys, rfl⟩
      exact ⟨y, ys', hy, hys, rfl⟩
    · rintro ⟨y, ys', hy, hys, rfl⟩
      exact ⟨y, hy, ys', hys, rfl⟩

/-- `collect` into a map: a result that clashes with one already there is refused -/
def collectApart (clash : β → β → Bool) (f : α → Except ε β) (dup : β → ε) (seen : List β) :
    List α → Except ε (List β)
  | [] => .ok seen
  | x :: xs => do
    let y ← f x
    reject (seen.any fun z => clash z y) (dup y)
    collectApart clash f dup (seen ++ [y]) xs

variable {clash : β → β → Bool} {dup : β → ε} {seen : List β} {f : β → α → Except ε β}
  {R : α → β → Prop}

theorem collectApart_ok {f : α → Except ε β} (h : collectApart clash f dup seen xs = .ok ys) :
    ∃ zs, ys = seen ++ zs ∧ List.Forall₂ (fun x y => f x = .ok y) xs zs := by
  induction xs generalizing seen with
  | nil =>
    cases h
    exact ⟨[], (List.append_nil _).symm, List.Forall₂.nil⟩
  | cons x xs ih =>
    simp only [collectApart, bind_ok, exists_unit, reject_ok] at h
    obtain ⟨y, hy, -, hrest⟩ := h
    obtain ⟨zs, rfl, hzs⟩ := ih hrest
    exact ⟨y :: zs, by rw [List.append_assoc]; rfl, List.Forall₂.cons hy hzs⟩

theorem collectApart_returns {f : α → Except ε β} (h : List.Forall₂ (fun x y => f x = .ok y) xs ys)
    (hapart : (seen ++ ys).Pairwise fun z y => clash z y = false) :
    collectApart clash f dup seen xs = .ok (seen ++ ys) := by
  induction h generalizing seen with
  | nil => exact congrArg Except.ok (List.append_nil seen).symm
  | cons hxy _ ih =>
    simp only [collectApart, bind_ok, exists_unit, reject_ok]
    refine ⟨_, hxy, ?_, ?_⟩
    · rw [Bool.not_eq_true, List.any_eq_false]
      intro z hz
      rw [Bool.not_eq_true]
      exact (List.pairwise_append.mp hapart).2.2 z hz _ List.mem_cons_self
    · rw [List.append_cons] at hapart
      exact (ih hapart).trans (congrArg Except.ok (List.append_cons ..).symm)

theorem collectApart_map {f : α → Except ε β} {g : α → α} {k : β → β}
    (hclash : ∀ z y, clash (k z) (k y) = clash z y)
    (hf : ∀ x ∈ xs, ∀ y, f x = .ok y → f (g x) = .ok (k y))
    (h : collectApart clash f dup seen xs = .ok ys) :
    collectApart clash f dup (seen.map k) (xs.map g) = .ok (ys.map k) := by
  induction xs generalizing seen with
  | nil =>
    cases h
    rfl
  | cons x xs ih =>
    simp only [collectApart, bind_ok, exists_unit, reject_ok] at h
    obtain ⟨y, hy, hnew, hrest⟩ := h
    simp only [List.map_cons, collectApart, bind_ok, exists_unit, reject_ok]
    refine ⟨k y, hf x List.mem_cons_self y hy, ?_, ?_⟩
    · rw [List.any_map]
      have hsame : (fun z => clash z (k y)) ∘ k = fun z => clash z y := funext fun z => hclash z y
      rw [hsame]
      exact hnew
    · have hseen : seen.map k ++ [k y] = (seen ++ [y]).map k := by rw [List.map_append]; rfl
      rw [hseen]
      exact ih (fun x' hx' => hf x' (List.mem_cons_of_mem x hx')) hrest

theorem foldlM_ok {g : β → α → β} {P : α → Prop}
    (hstep : ∀ b x b', f b x = .ok b' → b' = g b x ∧ P x) {r : β} (h : xs.foldlM f b = .ok r) :
    r = xs.foldl g b ∧ ∀ x ∈ xs, P x := by
  induction xs generalizing b with
  | nil =>
    cases h
    exact ⟨rfl, fun _ hx => absurd hx List.not_mem_nil⟩
  | cons x xs ih =>
    rw [List.foldlM_cons, bind_ok] at h
    obtain ⟨b', hb, hrest⟩ := h
    obtain ⟨rfl, hx⟩ := hstep b x b' hb
    obtain ⟨hr, hxs⟩ := ih hrest
    refine ⟨hr, fun y hy => ?_⟩
    rcases List.mem_cons.mp hy with rfl | hy
    · exact hx
    · exact hxs y hy

theorem foldlM_related {R : β → β → Prop} (hrefl : ∀ b, R b b)
    (htrans : ∀ {a b c}, R a b → R b c → R a c) (hstep : ∀ b x b', f b x = .ok b' → R b b') {r : β}
    (h : xs.foldlM f b = .ok r) : R b r := by
  induction xs generalizing b with
  | nil =>
    cases h
    exact hrefl _
  | cons x xs ih =>
    rw [List.foldlM_cons, bind_ok] at h
    obtain ⟨b', hb, hrest⟩ := h
    exact htrans (hstep b x b' hb) (ih hrest)

/-- a loop whose every step is related by a preorder `R`, where each element is still ready when its
turn comes: a step readies nothing but may only use up its own element -/
theorem foldlM_chain {R : β → β → Prop} {Ready : β → α → Prop} (hrefl : ∀ b, R b b)
    (htrans : ∀ {a b c}, R a b → R b c → R a c)
    (hstep : ∀ b x b', Ready b x → f b x = .ok b' →
      R b b' ∧ ∀ y, y ≠ x → Ready b y → Ready b' y) (hnodup : xs.Nodup) {r : β}
    (hready : ∀ x ∈ xs, Ready b x) (h : xs.foldlM f b = .ok r) : R b r := by
  induction xs generalizing b with
  | nil =>
    cases h
    exact hrefl _
  | cons x xs ih =>
    rw [List.foldlM_cons, bind_ok] at h
    obtain ⟨b', hb, hrest⟩ := h
    obtain ⟨hnot, hnodup'⟩ := List.nodup_cons.mp hnodup
    obtain ⟨hR, hkeep⟩ := hstep b x b' (hready x List.mem_cons_self) hb
    refine htrans hR (ih hnodup' (fun y hy => ?_) hrest)
    have hne : y ≠ x := fun heq => hnot (heq ▸ hy)
    exact hkeep y hne (hready y (List.mem_cons_of_mem x hy))

/-- a loop whose elements are all still ready when their turn comes returns when each of them does -/
theorem foldlM_returns (Ready : β → α → Prop) (Good : α → Prop)
    (hgood : ∀ b x, Ready b x → ((∃ b', f b x = .ok b') ↔ Good x))
    (hkeep : ∀ b x b', Ready b x → f b x = .ok b' → ∀ y, y ≠ x → Ready b y → Ready b' y)
    (hnodup : xs.Nodup) (hready : ∀ x ∈ xs, Ready b x) :
    (∃ r, xs.foldlM f b = .ok r) ↔ ∀ x ∈ xs, Good x := by
  induction xs generalizing b with
  | nil => exact ⟨fun _ x hx => absurd hx List.not_mem_nil, fun _ => ⟨b, rfl⟩⟩
  | cons x xs ih =>
    obtain ⟨hnot, hnodup'⟩ := List.nodup_cons.mp hnodup
    have hx := hready x List.mem_cons_self
    have hrest : ∀ b', f b x = .ok b' → ((∃ r, xs.foldlM f b' = .ok r) ↔ ∀ y ∈ xs, Good y) := by
      intro b' hb'
      refine ih hnodup' fun y hy => ?_
      have hne : y ≠ x := fun heq => hnot (heq ▸ hy)
      exact hkeep b x b' hx hb' y hne (hready y (List.mem_cons_of_mem x hy))
    constructor
    · rintro ⟨r, hr⟩ y hy
      rw [List.foldlM_cons, bind_ok] at hr
      obtain ⟨b', hb', hr⟩ := hr
      rcases List.mem_cons.mp hy with rfl | hy
      · exact (hgood b y hx).mp ⟨b', hb'⟩
      · exact (hrest b' hb').mp ⟨r, hr⟩ y hy
    · intro hall
      obtain ⟨b', hb'⟩ := (hgood b x hx).mpr (hall x List.mem_cons_self)
      obtain ⟨r, hr⟩ := (hrest b' hb').mpr fun y hy => hall y (List.mem_cons_of_mem x hy)
      exact ⟨r, by rw [List.foldlM_cons, bind_ok]; exact ⟨b', hb', hr⟩⟩

theorem foldlM_gather (gather : List α → β) (P : α → Prop) (R : α → α → Prop)
    (hstep : ∀ seen x b, f (gather seen) x = .ok b ↔
      b = gather (seen ++ [x]) ∧ P x ∧ ∀ y ∈ seen, R y x) {seen : List α} :
    xs.foldlM f (gather seen) = .ok b ↔ b = gather (seen ++ xs) ∧ (∀ x ∈ xs, P x) ∧
      (∀ y ∈ seen, ∀ x ∈ xs, R y x) ∧ xs.Pairwise R := by
  induction xs generalizing seen with
  | nil =>
    rw [List.append_nil]
    constructor
    · intro h
      cases h
      exact ⟨rfl, fun x hx => absurd hx List.not_mem_nil,
        fun y _ x hx => absurd hx List.not_mem_nil, List.Pairwise.nil⟩
    · rintro ⟨rfl, -, -, -⟩
      rfl
  | cons x xs ih =>
    rw [List.foldlM_cons, bind_ok, List.pairwise_cons, List.append_cons]
    constructor
    · rintro ⟨b', hb', hrest⟩
      obtain ⟨rfl, hx, hseen⟩ := (hstep seen x b').mp hb'
      obtain ⟨hb, hxs, hall, hpair⟩ := ih.mp hrest
      refine ⟨hb, fun z hz => ?_, fun y hy z hz => ?_, fun z hz => ?_, hpair⟩
      · rcases List.mem_cons.mp hz with rfl | hz
        · exact hx
        · exact hxs z hz
      · rcases List.mem_cons.mp hz with rfl | hz
        · exact hseen y hy
        · exact hall y (List.mem_append_left _ hy) z hz
      · exact hall x (List.mem_append_right _ List.mem_cons_self) z hz
    · rintro ⟨hb, hxs, hall, hnew, hpair⟩
      refine ⟨gather (seen ++ [x]), (hstep seen x _).mpr ⟨rfl, hxs x List.mem_cons_self,
        fun y hy => hall y hy x List.mem_cons_self⟩, ih.mpr ⟨hb, fun z hz =>
        hxs z (List.mem_cons_of_mem x hz), fun y hy z hz => ?_, hpair⟩⟩
      rcases List.mem_append.mp hy with hy | hy
      · exact hall y hy z (List.mem_cons_of_mem x hz)
      · rw [List.mem_singleton.mp hy]
        exact hnew z hz

theorem foldlM_builds (Inv : List α → β → Prop) (h0 : Inv [] b)
    (hstep : ∀ seen x rest b, xs = seen ++ x :: rest → Inv seen b →
      ∃ b', f b x = .ok b' ∧ Inv (seen ++ [x]) b') :
    ∃ r, xs.foldlM f b = .ok r ∧ Inv xs r := by
  suffices h : ∀ (rest seen : List α) (b : β), xs = seen ++ rest → Inv seen b →
      ∃ r, rest.foldlM f b = .ok r ∧ Inv xs r from h xs [] b rfl h0
  intro rest
  induction rest with
  | nil =>
    intro seen b hxs hseen
    rw [List.append_nil] at hxs
    exact ⟨b, rfl, hxs ▸ hseen⟩
  | cons x rest ih =>
    intro seen b hxs hseen
    obtain ⟨b', hb', hseen'⟩ := hstep seen x rest b hxs hseen
    have hxs' : xs = (seen ++ [x]) ++ rest := by rw [hxs, List.append_assoc]; rfl
    obtain ⟨r, hr, hinv⟩ := ih (seen ++ [x]) b' hxs' hseen'
    exact ⟨r, by rw [List.foldlM_cons, bind_ok]; exact ⟨b', hb', hr⟩, hinv⟩

/-- A loop runs exactly as far as each of its elements is ready at what came before it; `Inv` holds of
the elements so far and the state. -/
theorem foldlM_ready (Inv : List α → β → Prop) (Ready : List α → α → Prop) {base : List α}
    (hstep : ∀ seen x rest b, base ++ xs = seen ++ x :: rest → x ∈ xs → Inv seen b →
      ((∃ b', f b x = .ok b') ↔ Ready seen x) ∧ ∀ b', f b x = .ok b' → Inv (seen ++ [x]) b')
    (h : Inv base b) :
    ((∃ b', xs.foldlM f b = .ok b') ↔
        ∀ seen x rest, xs = seen ++ x :: rest → Ready (base ++ seen) x) ∧
      ∀ b', xs.foldlM f b = .ok b' → Inv (base ++ xs) b' := by
  induction xs generalizing base b with
  | nil =>
    refine ⟨⟨fun _ seen x rest hsplit => ?_, fun _ => ⟨b, rfl⟩⟩, fun b' hb' => ?_⟩
    · exact absurd hsplit.symm (List.append_ne_nil_of_right_ne_nil seen (List.cons_ne_nil x rest))
    · cases hb'
      rw [List.append_nil]
      exact h
  | cons x xs ih =>
    obtain ⟨hready, hkeeps⟩ := hstep base x xs b rfl List.mem_cons_self h
    have hrest (b₁ : β) (hfirst : f b x = .ok b₁) := @ih b₁ (base ++ [x])
      (fun seen y rest b' hsplit hy =>
        hstep seen y rest b' (by rw [List.append_cons]; exact hsplit) (List.mem_cons_of_mem _ hy))
      (hkeeps b₁ hfirst)
    have hcons : (∀ seen y rest, x :: xs = seen ++ y :: rest → Ready (base ++ seen) y) ↔
        Ready base x ∧ ∀ seen y rest, xs = seen ++ y :: rest → Ready (base ++ [x] ++ seen) y := by
      constructor
      · intro hall
        refine ⟨?_, fun seen y rest hsplit => ?_⟩
        · have hfirst := hall [] x xs rfl
          rw [List.append_nil] at hfirst
          exact hfirst
        · rw [List.append_assoc]
          exact hall (x :: seen) y rest (by rw [hsplit]; rfl)
      · rintro ⟨hfirst, hlater⟩ seen y rest hsplit
        cases seen with
        | nil =>
          obtain ⟨rfl, -⟩ := List.cons.inj hsplit
          rw [List.append_nil]
          exact hfirst
        | cons z seen =>
          obtain ⟨rfl, hxs⟩ := List.cons.inj hsplit
          have hy := hlater seen y rest hxs
          rw [List.append_assoc] at hy
          exact hy
    rw [hcons, List.foldlM_cons]
    refine ⟨⟨?_, ?_⟩, fun b' hb' => ?_⟩
    · rintro ⟨b', hb'⟩
      obtain ⟨b₁, hfirst, hb'⟩ := bind_ok.mp hb'
      exact ⟨hready.mp ⟨b₁, hfirst⟩, (hrest b₁ hfirst).1.mp ⟨b', hb'⟩⟩
    · rintro ⟨hfirst, hlater⟩
      obtain ⟨b₁, hb₁⟩ := hready.mpr hfirst
      obtain ⟨b', hb'⟩ := (hrest b₁ hb₁).1.mpr hlater
      exact ⟨b', bind_ok.mpr ⟨b₁, hb₁, hb'⟩⟩
    · obtain ⟨b₁, hfirst, hb'⟩ := bind_ok.mp hb'
      rw [List.append_cons]
      exact (hrest b₁ hfirst).2 b' hb'

theorem collect_self {f : α → Except ε α} (hf : ∀ x y, f x = .ok y → y = x) {ys : List α}
    (h : collect f xs = .ok ys) : ys = xs := by
  have hall := collect_ok.mp h
  clear h
  induction hall with
  | nil => rfl
  | cons hxy _ ih => rw [hf _ _ hxy, ih]

theorem forall₂_mem_right (h : List.Forall₂ R xs ys) {y : β} (hy : y ∈ ys) : ∃ x ∈ xs, R x y := by
  induction h with
  | nil => exact absurd hy List.not_mem_nil
  | cons hxy _ ih =>
    rcases List.mem_cons.mp hy with rfl | hy
    · exact ⟨_, List.mem_cons_self, hxy⟩
    · obtain ⟨x, hx, hR⟩ := ih hy
      exact ⟨x, List.mem_cons_of_mem _ hx, hR⟩

theorem forall₂_mem_left (h : List.Forall₂ R xs ys) {x : α} (hx : x ∈ xs) : ∃ y ∈ ys, R x y :=
  forall₂_mem_right h.flip hx

theorem forall₂_through {S : α → γ → Prop} {T : β → γ → Prop} (hT : ∀ x y z, R x y → S x z → T y z)
    {zs : List γ} (hR : List.Forall₂ R xs ys) (hS : List.Forall₂ S xs zs) :
    List.Forall₂ T ys zs := by
  induction hR generalizing zs with
  | nil =>
    cases hS
    exact List.Forall₂.nil
  | cons hxy _ ih =>
    cases hS with
    | cons hxz hrest => exact List.Forall₂.cons (hT _ _ _ hxy hxz) (ih hrest)

theorem exists_forall₂ (h : ∀ x ∈ xs, ∃ y, R x y) :
    ∃ ys, List.Forall₂ R xs ys := by
  induction xs with
  | nil => exact ⟨[], List.Forall₂.nil⟩
  | cons x xs ih =>
    obtain ⟨y, hy⟩ := h x List.mem_cons_self
    obtain ⟨ys, hys⟩ := ih fun x' hx' => h x' (List.mem_cons_of_mem x hx')
    exact ⟨y :: ys, List.Forall₂.cons hy hys⟩

theorem ok_of_toOption {x : Except ε β} (h : x.toOption = some b) :
    x = .ok b := by
  cases x with
  | ok b' =>
    cases h
    rfl
  | error e => cases h

/-! ## lookups by key -/

theorem find_key [BEq κ] [LawfulBEq κ] {k : κ} (h : xs.find? (fun x => key x == k) = some a) :
    a ∈ xs ∧ key a = k := by
  have hkey := List.find?_some h
  exact ⟨List.mem_of_find?_eq_some h, eq_of_beq hkey⟩

theorem exists_find_key [BEq κ] [LawfulBEq κ] {k : κ} (h : k ∈ xs.map key) :
    ∃ a, xs.find? (fun x => key x == k) = some a := by
  obtain ⟨a, ha, hkey⟩ := List.mem_map.mp h
  refine Option.isSome_iff_exists.mp (List.find?_isSome.mpr ⟨a, ha, ?_⟩)
  rw [hkey]
  exact beq_self_eq_true k

theorem find_key_within [BEq κ] [LawfulBEq κ] {all : List α} (hnodup : (all.map key).Nodup)
    (hxs : xs ⊆ all) (ha : a ∈ xs) :
    xs.find? (fun x => key x == key a) = some a := by
  have hmem : key a ∈ xs.map key := List.mem_map_of_mem ha
  obtain ⟨b, hb⟩ := exists_find_key hmem
  obtain ⟨hmem, hkey⟩ := find_key hb
  rw [hb, List.inj_on_of_nodup_map hnodup (hxs hmem) (hxs ha) hkey]

theorem find_key_self [BEq κ] [LawfulBEq κ] (hnodup : (xs.map key).Nodup) (ha : a ∈ xs) :
    xs.find? (fun x => key x == key a) = some a :=
  find_key_within hnodup (List.Subset.refl xs) ha

theorem filter_key_self [BEq κ] [LawfulBEq κ] {k : κ} (hnodup : (xs.map key).Nodup) (ha : a ∈ xs)
    (hk : key a = k) :
    xs.filter (fun x => key x == k) = [a] := by
  subst hk
  have hsub : ∀ x ∈ xs.filter (fun x => key x == key a), x = a := by
    intro x hx
    obtain ⟨hmem, hkey⟩ := List.mem_filter.mp hx
    exact List.inj_on_of_nodup_map hnodup hmem ha (eq_of_beq hkey)
  have hmem : a ∈ xs.filter (fun x => key x == key a) :=
    List.mem_filter.mpr ⟨ha, beq_self_eq_true _⟩
  have hsingle := List.eq_replicate_of_mem hsub
  have hfiltered : (xs.filter fun x => key x == key a).Nodup :=
    (List.Nodup.of_map key hnodup).filter _
  rw [hsingle] at hfiltered hmem ⊢
  have hone := List.nodup_replicate.mp hfiltered
  have hpos : 0 < (xs.filter fun x => key x == key a).length :=
    List.length_pos_of_ne_nil fun hnil => by
      rw [hnil] at hmem
      exact absurd hmem List.not_mem_nil
  rw [show (xs.filter fun x => key x == key a).length = 1 by omega]
  rfl

/-! ## what a refusal can be -/

/-- every error of the check satisfies `P` -/
def Refuses (P : ε → Prop) (x : Except ε α) : Prop := ∀ e, x = .error e → P e

section
variable {P : ε → Prop}

theorem Refuses.ok (a : α) : Refuses P (.ok a : Except ε α) := fun _ h => (nomatch h)

theorem Refuses.error {e : ε} (h : P e) : Refuses P (.error e : Except ε α) :=
  fun _ h' => by cases h'; exact h

theorem Refuses.bind {x : Except ε α} {f : α → Except ε β} (hx : Refuses P x)
    (hf : ∀ a, x = .ok a → Refuses P (f a)) : Refuses P (x >>= f) := by
  cases x with
  | error e => exact fun e' h => hx e' (by cases h; rfl)
  | ok a => exact hf a rfl

theorem Refuses.reject {c : Prop} [Decidable c] {e : ε} (h : P e) : Refuses P (reject c e) := by
  unfold Lib.reject
  split
  · exact Refuses.error h
  · exact Refuses.ok ()

theorem Refuses.check {c : Prop} [Decidable c] {e : ε} {f : Unit → Except ε β} (h : P e)
    (hf : Refuses P (f ())) : Refuses P (Lib.reject c e >>= f) :=
  Refuses.bind (Refuses.reject h) fun _ _ => hf

theorem Refuses.need {o : Option α} {e : ε} (h : o = none → P e) : Refuses P (need o e) := by
  cases o with
  | none => exact Refuses.error (h rfl)
  | some a => exact Refuses.ok a

theorem Refuses.each {xs : List α} {f : α → Except ε Unit} (h : ∀ x ∈ xs, Refuses P (f x)) :
    Refuses P (each xs f) := by
  induction xs with
  | nil => exact Refuses.ok ()
  | cons x xs ih =>
    refine Refuses.bind (h x List.mem_cons_self) fun _ _ => ih fun y hy => ?_
    exact h y (List.mem_cons_of_mem x hy)

theorem Refuses.collect {f : α → Except ε β} {xs : List α} (h : ∀ x ∈ xs, Refuses P (f x)) :
    Refuses P (collect f xs) := by
  induction xs with
  | nil => exact Refuses.ok []
  | cons x xs ih =>
    refine Refuses.bind (h x List.mem_cons_self) fun y _ => ?_
    refine Refuses.bind (ih fun z hz => h z (List.mem_cons_of_mem x hz)) fun ys _ => ?_
    exact Refuses.ok (y :: ys)

theorem Refuses.foldlM {f : β → α → Except ε β} {xs : List α} {b : β}
    (h : ∀ x ∈ xs, ∀ b, Refuses P (f b x)) : Refuses P (xs.foldlM f b) := by
  induction xs generalizing b with
  | nil => exact Refuses.ok b
  | cons x xs ih =>
    rw [List.foldlM_cons]
    refine Refuses.bind (h x List.mem_cons_self b) fun b' _ => ih fun y hy => ?_
    exact h y (List.mem_cons_of_mem x hy)

theorem Refuses.eachApart {clash : α → α → Bool} {first : α → Except ε Unit} {dup : α → ε}
    {then_ : α → Except ε Unit} {seen xs : List α} (hfirst : ∀ x, Refuses P (first x))
    (hdup : ∀ x, P (dup x)) (hthen : ∀ x, Refuses P (then_ x)) :
    Refuses P (eachApart clash first dup then_ seen xs) := by
  induction xs generalizing seen with
  | nil => exact Refuses.ok ()
  | cons x xs ih =>
    refine Refuses.bind (hfirst x) fun _ _ => ?_
    refine Refuses.check (hdup x) ?_
    exact Refuses.bind (hthen x) fun _ _ => ih

end

end Sinan.Lib
