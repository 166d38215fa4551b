import Sinan.Lib.Check

/-!
# Tables with a primary key and a unique index

A table is a list of rows with distinct keys; a second, partial index is distinct where it is
defined.  A statement that would break either is refused (`ofRows`), so a table never holds two rows
of one key.  Rows are looked up by key (`get`) or by index (`seek`); the lemmas say what the two
lookups find after an `insert` or a `put`.
-/

set_option linter.unusedSectionVars false

namespace Sinan.Lib

structure Table {ρ κ υ : Type} (key : ρ → κ) (index : ρ → Option υ) where
  rows : List ρ
  keyed : (rows.map key).Nodup
  indexed : (rows.filterMap index).Nodup
  deriving DecidableEq

namespace Table

variable {ρ κ υ : Type} {key : ρ → κ} {index : ρ → Option υ}

def empty : Table key index := ⟨[], List.nodup_nil, List.nodup_nil⟩

variable {rows : List ρ} {u : υ}

theorem indexed_inj (h : (rows.filterMap index).Nodup) {x y : ρ} (hx : x ∈ rows) (hy : y ∈ rows)
    (hxu : index x = some u) (hyu : index y = some u) : x = y := by
  induction rows with
  | nil => exact absurd hx List.not_mem_nil
  | cons z rows ih =>
    have hlater : ∀ w ∈ rows, index w = some u → index z ≠ some u := by
      intro w hw hwu hzu
      rw [List.filterMap_cons_some hzu] at h
      exact (List.nodup_cons.mp h).1 (List.mem_filterMap.mpr ⟨w, hw, hwu⟩)
    have htail : (rows.filterMap index).Nodup := by
      cases hz : index z with
      | none =>
        rw [List.filterMap_cons_none hz] at h
        exact h
      | some v =>
        rw [List.filterMap_cons_some hz] at h
        exact (List.nodup_cons.mp h).2
    rcases List.mem_cons.mp hx with rfl | hx' <;> rcases List.mem_cons.mp hy with rfl | hy'
    · rfl
    · exact absurd hxu (hlater y hy' hyu)
    · exact absurd hyu (hlater x hx' hxu)
    · exact ih htail hx' hy'

variable [DecidableEq κ] [DecidableEq υ]

/-- the table of these rows, if they keep both constraints -/
def ofRows (rows : List ρ) : Option (Table key index) :=
  if h : (rows.map key).Nodup ∧ (rows.filterMap index).Nodup then some ⟨rows, h.1, h.2⟩ else none

def get (t : Table key index) (k : κ) : Option ρ := t.rows.find? fun r => decide (key r = k)

def seek (t : Table key index) (u : υ) : Option ρ := t.rows.find? fun r => decide (index r = some u)

def insert (t : Table key index) (r : ρ) : Option (Table key index) := ofRows (t.rows ++ [r])

/-- the row of the same key is replaced -/
def put (t : Table key index) (r : ρ) : Option (Table key index) :=
  ofRows (t.rows.map fun x => if key x = key r then r else x)

variable {t t' : Table key index} {r x y : ρ} {k : κ}

theorem ofRows_rows (h : ofRows rows = some t) : t.rows = rows := by
  unfold ofRows at h
  split at h
  · cases h
    rfl
  · cases h

theorem get_eq_some : t.get k = some r ↔ r ∈ t.rows ∧ key r = k := by
  constructor
  · intro h
    have hkey := List.find?_some h
    exact ⟨List.mem_of_find?_eq_some h, of_decide_eq_true hkey⟩
  · rintro ⟨hmem, hkey⟩
    have hsome : (t.get k).isSome := List.find?_isSome.mpr ⟨r, hmem, decide_eq_true hkey⟩
    obtain ⟨x, hx⟩ := Option.isSome_iff_exists.mp hsome
    have hxkey := List.find?_some hx
    have hxmem := List.mem_of_find?_eq_some hx
    rw [hx, List.inj_on_of_nodup_map t.keyed hxmem hmem ((of_decide_eq_true hxkey).trans hkey.symm)]

theorem key_of_get (h : t.get k = some r) : key r = k := (get_eq_some.mp h).2

theorem get_self (h : t.get k = some r) : t.get (key r) = some r := by
  rw [key_of_get h]
  exact h

theorem seek_eq_some : t.seek u = some r ↔ r ∈ t.rows ∧ index r = some u := by
  constructor
  · intro h
    have hindex := List.find?_some h
    exact ⟨List.mem_of_find?_eq_some h, of_decide_eq_true hindex⟩
  · rintro ⟨hmem, hindex⟩
    have hsome : (t.seek u).isSome := List.find?_isSome.mpr ⟨r, hmem, decide_eq_true hindex⟩
    obtain ⟨x, hx⟩ := Option.isSome_iff_exists.mp hsome
    have hxindex := List.find?_some hx
    have hxmem := List.mem_of_find?_eq_some hx
    rw [hx, indexed_inj t.indexed hxmem hmem (of_decide_eq_true hxindex) hindex]

theorem index_of_seek (h : t.seek u = some r) : index r = some u := (seek_eq_some.mp h).2

theorem get_of_seek (h : t.seek u = some r) : t.get (key r) = some r :=
  get_eq_some.mpr ⟨(seek_eq_some.mp h).1, rfl⟩

theorem seek_of_get (h : t.get k = some r) (hu : index r = some u) :
    t.seek u = some r :=
  seek_eq_some.mpr ⟨(get_eq_some.mp h).1, hu⟩

/-! ## a new row -/

theorem insert_fresh (h : t.insert r = some t') : t.get (key r) = none := by
  have hrows := ofRows_rows h
  have hnodup := t'.keyed
  rw [hrows, List.map_append, List.map_singleton] at hnodup
  cases hget : t.get (key r) with
  | none => rfl
  | some x =>
    obtain ⟨hmem, hkey⟩ := get_eq_some.mp hget
    have hx : key x ∈ t.rows.map key := List.mem_map_of_mem hmem
    rw [hkey] at hx
    have hapart := (List.nodup_append.mp hnodup).2.2 (key r) hx (key r) (List.mem_singleton.mpr rfl)
    exact absurd rfl hapart

theorem insert_extends (h : t.insert r = some t') : t.rows <+: t'.rows :=
  ⟨[r], (ofRows_rows h).symm⟩

theorem get_of_subset (h : t.rows ⊆ t'.rows) (hx : t.get k = some x) :
    t'.get k = some x := by
  obtain ⟨hmem, hkey⟩ := get_eq_some.mp hx
  exact get_eq_some.mpr ⟨h hmem, hkey⟩

theorem insert_taken (hx : t.get (key r) = some x) : t.insert r = none := by
  cases h : t.insert r with
  | none => rfl
  | some t' =>
    rw [insert_fresh h] at hx
    cases hx

theorem conflicts_self {p : ρ → Bool} (hx : x ∈ t.rows) (hu : index x = some u)
    (hp : ∀ y, p y = true ↔ key y = key x ∨ index y = some u) : t.rows.filter p = [x] := by
  have hkey : ∀ y ∈ t.rows, p y = decide (key y = key x) := by
    intro y hy
    rw [Bool.eq_iff_iff, hp y, decide_eq_true_eq]
    constructor
    · rintro (hsame | hsame)
      · exact hsame
      · rw [indexed_inj t.indexed hy hx hsame hu]
    · exact .inl
  rw [List.filter_congr hkey]
  exact filter_key_self t.keyed hx rfl

theorem get_insert (h : t.insert r = some t') (k : κ) :
    t'.get k = if key r = k then some r else t.get k := by
  have hrows := ofRows_rows h
  apply Option.ext
  intro y
  rw [get_eq_some, hrows, List.mem_append, List.mem_singleton]
  by_cases hk : key r = k
  · rw [if_pos hk]
    have hfresh := insert_fresh h
    constructor
    · rintro ⟨hy | rfl, hyk⟩
      · have hgot : t.get (key r) = some y := get_eq_some.mpr ⟨hy, hyk.trans hk.symm⟩
        rw [hfresh] at hgot
        cases hgot
      · rfl
    · intro hy
      cases hy
      exact ⟨.inr rfl, hk⟩
  · rw [if_neg hk, get_eq_some]
    constructor
    · rintro ⟨hy | rfl, hyk⟩
      · exact ⟨hy, hyk⟩
      · exact absurd hyk hk
    · rintro ⟨hy, hyk⟩
      exact ⟨.inl hy, hyk⟩

theorem get_insert_of_some (h : t.insert r = some t') (hx : t.get k = some x) :
    t'.get k = some x := get_of_subset (insert_extends h).subset hx

theorem seek_insert (h : t.insert r = some t') (u : υ) :
    t'.seek u = if index r = some u then some r else t.seek u := by
  have hrows := ofRows_rows h
  have hmem : r ∈ t'.rows := by
    rw [hrows]
    exact List.mem_append_right _ (List.mem_singleton.mpr rfl)
  by_cases hu : index r = some u
  · rw [if_pos hu]
    exact seek_eq_some.mpr ⟨hmem, hu⟩
  · rw [if_neg hu]
    apply Option.ext
    intro y
    rw [seek_eq_some, seek_eq_some, hrows, List.mem_append, List.mem_singleton]
    constructor
    · rintro ⟨hy | rfl, hyu⟩
      · exact ⟨hy, hyu⟩
      · exact absurd hyu hu
    · rintro ⟨hy, hyu⟩
      exact ⟨.inl hy, hyu⟩

theorem seek_insert_of_some (h : t.insert r = some t') (hx : t.seek u = some x) :
    t'.seek u = some x := by
  have hrows := ofRows_rows h
  obtain ⟨hmem, hindex⟩ := seek_eq_some.mp hx
  refine seek_eq_some.mpr ⟨?_, hindex⟩
  rw [hrows]
  exact List.mem_append_left _ hmem

theorem extend (rs : List ρ) (hkey : ∀ r ∈ rs, t.get (key r) = none) (hkeys : (rs.map key).Nodup)
    (hindex : ∀ r ∈ rs, ∀ u, index r = some u → t.seek u = none)
    (hindexes : (rs.filterMap index).Nodup) : ∃ t' : Table key index, t'.rows = t.rows ++ rs := by
  refine ⟨⟨t.rows ++ rs, ?_, ?_⟩, rfl⟩
  · rw [List.map_append, List.nodup_append]
    refine ⟨t.keyed, hkeys, fun k hk k' hk' hsame => ?_⟩
    obtain ⟨x, hx, rfl⟩ := List.mem_map.mp hk
    obtain ⟨r, hr, rfl⟩ := List.mem_map.mp hk'
    have hget : t.get (key r) = some x := get_eq_some.mpr ⟨hx, hsame⟩
    rw [hkey r hr] at hget
    cases hget
  · rw [List.filterMap_append, List.nodup_append]
    refine ⟨t.indexed, hindexes, fun u hu u' hu' hsame => ?_⟩
    obtain ⟨x, hx, hxu⟩ := List.mem_filterMap.mp hu
    obtain ⟨r, hr, hru⟩ := List.mem_filterMap.mp hu'
    have hseek : t.seek u' = some x := seek_eq_some.mpr ⟨hx, hxu.trans (congrArg some hsame)⟩
    rw [hindex r hr u' hru] at hseek
    cases hseek

theorem insert_prefix (h : t.rows ++ [r] <+: t'.rows) :
    ∃ next, t.insert r = some next ∧ next.rows = t.rows ++ [r] := by
  have hkeys := t'.keyed.sublist (h.sublist.map key)
  have hindexes := t'.indexed.sublist (h.sublist.filterMap index)
  exact ⟨⟨_, hkeys, hindexes⟩, dif_pos ⟨hkeys, hindexes⟩, rfl⟩

theorem insert_next {γ : Type} {all : Table key index} {base : List ρ} {row : γ → ρ}
    {xs seen rest : List γ} {x : γ} (hall : all.rows = base ++ xs.map row)
    (hsplit : xs = seen ++ x :: rest) (ht : t.rows = base ++ seen.map row) :
    ∃ next, t.insert (row x) = some next ∧ next.rows = base ++ (seen ++ [x]).map row := by
  have hprefix : t.rows ++ [row x] <+: all.rows := by
    refine ⟨rest.map row, ?_⟩
    rw [hall, ht, hsplit, List.map_append, List.map_cons, List.append_assoc, List.append_assoc]
    rfl
  obtain ⟨next, hinsert, hnext⟩ := insert_prefix hprefix
  refine ⟨next, hinsert, ?_⟩
  rw [hnext, ht, List.map_append, List.append_assoc]
  rfl

theorem insert_free (hkey : t.get (key r) = none) (hindex : ∀ u, index r = some u → t.seek u = none) :
    ∃ t', t.insert r = some t' := by
  have hone : ([r].filterMap index).Nodup := by
    cases h : index r with
    | none => simp only [List.filterMap_cons, h, List.filterMap_nil, List.nodup_nil]
    | some u => simp only [List.filterMap_cons, h, List.filterMap_nil, List.nodup_singleton]
  obtain ⟨t', ht'⟩ := extend [r] (fun x hx => List.mem_singleton.mp hx ▸ hkey)
    (List.nodup_singleton _) (fun x hx => List.mem_singleton.mp hx ▸ hindex) hone
  have hprefix : t.rows ++ [r] <+: t'.rows := ⟨[], by rw [List.append_nil, ht']⟩
  obtain ⟨next, hnext, -⟩ := insert_prefix hprefix
  exact ⟨next, hnext⟩

/-! ## a changed row -/

theorem mem_put (h : t.put r = some t') (hx : t.get (key r) = some x) :
    y ∈ t'.rows ↔ y = r ∨ (y ∈ t.rows ∧ key y ≠ key r) := by
  have hrows := ofRows_rows h
  obtain ⟨hmem, hkey⟩ := get_eq_some.mp hx
  rw [hrows, List.mem_map]
  constructor
  · rintro ⟨z, hz, hzy⟩
    by_cases hk : key z = key r
    · rw [if_pos hk] at hzy
      exact .inl hzy.symm
    · rw [if_neg hk] at hzy
      subst hzy
      exact .inr ⟨hz, hk⟩
  · rintro (rfl | ⟨hy, hk⟩)
    · exact ⟨x, hmem, by rw [if_pos hkey]⟩
    · exact ⟨y, hy, by rw [if_neg hk]⟩

theorem get_put (h : t.put r = some t') (hx : t.get (key r) = some x) (k : κ) :
    t'.get k = if key r = k then some r else t.get k := by
  by_cases hk : key r = k
  · rw [if_pos hk]
    exact get_eq_some.mpr ⟨(mem_put h hx).mpr (.inl rfl), hk⟩
  · rw [if_neg hk]
    apply Option.ext
    intro y
    rw [get_eq_some, get_eq_some, mem_put h hx]
    constructor
    · rintro ⟨rfl | ⟨hy, -⟩, hyk⟩
      · exact absurd hyk hk
      · exact ⟨hy, hyk⟩
    · rintro ⟨hy, hyk⟩
      exact ⟨.inr ⟨hy, fun heq => hk (heq.symm.trans hyk)⟩, hyk⟩

theorem get_put_self (h : t.put r = some t') (hx : t.get (key r) = some x) :
    t'.get (key r) = some r := by
  rw [get_put h hx, if_pos rfl]

theorem filterMap_thinned {f g : ρ → Option υ} (h : ∀ y ∈ rows, ∀ u, f y = some u → g y = some u) :
    (rows.filterMap f).Sublist (rows.filterMap g) := by
  induction rows with
  | nil => exact List.Sublist.refl _
  | cons y rows ih =>
    have hrest := ih fun z hz => h z (List.mem_cons_of_mem _ hz)
    cases hf : f y with
    | none =>
      rw [List.filterMap_cons_none hf]
      cases hg : g y with
      | none =>
        rw [List.filterMap_cons_none hg]
        exact hrest
      | some v =>
        rw [List.filterMap_cons_some hg]
        exact hrest.cons v
    | some u =>
      rw [List.filterMap_cons_some hf,
        List.filterMap_cons_some (h y List.mem_cons_self u hf)]
      exact hrest.cons_cons u

theorem put_within (hx : t.get (key r) = some x)
    (hindex : ∀ u, index r = some u → index x = some u) : ∃ t', t.put r = some t' := by
  have hkeys : ((t.rows.map fun y => if key y = key r then r else y).map key) = t.rows.map key := by
    rw [List.map_map]
    refine List.map_congr_left fun y _ => ?_
    show key (if key y = key r then r else y) = key y
    split_ifs with hk
    · exact hk.symm
    · rfl
  have hindexes : ((t.rows.map fun y => if key y = key r then r else y).filterMap index).Sublist
      (t.rows.filterMap index) := by
    rw [List.filterMap_map]
    refine filterMap_thinned fun y hy u hu => ?_
    have hu : index (if key y = key r then r else y) = some u := hu
    split_ifs at hu with hk
    · obtain ⟨hmem, hxkey⟩ := get_eq_some.mp hx
      rw [List.inj_on_of_nodup_map t.keyed hy hmem (hk.trans hxkey.symm)]
      exact hindex u hu
    · exact hu
  exact ⟨⟨_, hkeys ▸ t.keyed, t.indexed.sublist hindexes⟩,
    dif_pos ⟨hkeys ▸ t.keyed, t.indexed.sublist hindexes⟩⟩

theorem put_kept (hx : t.get (key r) = some x) (hindex : index r = index x) :
    ∃ t', t.put r = some t' :=
  put_within hx fun _ hu => hindex ▸ hu

theorem seek_put (h : t.put r = some t') (hx : t.get (key r) = some x) (hindex : index r = index x)
    (u : υ) : t'.seek u = if index r = some u then some r else t.seek u := by
  by_cases hu : index r = some u
  · rw [if_pos hu]
    exact seek_eq_some.mpr ⟨(mem_put h hx).mpr (.inl rfl), hu⟩
  · rw [if_neg hu]
    apply Option.ext
    intro y
    rw [seek_eq_some, seek_eq_some, mem_put h hx]
    constructor
    · rintro ⟨rfl | ⟨hy, -⟩, hyu⟩
      · exact absurd hyu hu
      · exact ⟨hy, hyu⟩
    · rintro ⟨hy, hyu⟩
      refine ⟨.inr ⟨hy, fun hkey => ?_⟩, hyu⟩
      obtain ⟨hmem, hxkey⟩ := get_eq_some.mp hx
      have hyx : y = x := List.inj_on_of_nodup_map t.keyed hy hmem (hkey.trans hxkey.symm)
      rw [hindex, ← hyx] at hu
      exact hu hyu

end Table

end Sinan.Lib
