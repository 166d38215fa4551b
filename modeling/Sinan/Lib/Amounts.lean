import Mathlib.Algebra.BigOperators.Group.List.Basic
import Mathlib.Data.List.Nodup
import Mathlib.Order.Lattice

/-!
# Amounts by key

A map from keys to amounts into which amounts are added one at a time, read back in the order of the
keys.  What it holds for a key is the sum of everything added there, and its total is the sum of
everything added.
-/

namespace Sinan.Lib

section
variable {κ M : Type} [LinearOrder κ] [AddCommMonoid M]

/-- add to the entry of a key, or put a new entry in its place -/
def addEntry (k : κ) (a : M) : List (κ × M) → List (κ × M)
  | [] => [(k, a)]
  | (key, held) :: rest =>
    if k = key then (key, held + a) :: rest
    else if k < key then (k, a) :: (key, held) :: rest
    else (key, held) :: addEntry k a rest

theorem addEntry_keys (k : κ) (a : M) (entries : List (κ × M)) (key : κ) :
    key ∈ (addEntry k a entries).map Prod.fst ↔ key = k ∨ key ∈ entries.map Prod.fst := by
  induction entries with
  | nil => simp [addEntry]
  | cons entry rest ih =>
    obtain ⟨head, held⟩ := entry
    unfold addEntry
    by_cases hk : k = head
    · subst hk
      rw [if_pos rfl]
      simp
    · rw [if_neg hk]
      by_cases hlt : k < head
      · rw [if_pos hlt]
        simp
      · rw [if_neg hlt]
        simp only [List.map_cons, List.mem_cons, ih]
        tauto

theorem addEntry_sorted (k : κ) (a : M) {entries : List (κ × M)}
    (h : (entries.map Prod.fst).Pairwise (· < ·)) :
    ((addEntry k a entries).map Prod.fst).Pairwise (· < ·) := by
  induction entries with
  | nil => exact List.pairwise_singleton _ _
  | cons entry rest ih =>
    obtain ⟨head, held⟩ := entry
    rw [List.map_cons, List.pairwise_cons] at h
    obtain ⟨hhead, hrest⟩ := h
    unfold addEntry
    by_cases hk : k = head
    · rw [if_pos hk, List.map_cons, List.pairwise_cons]
      exact ⟨hhead, hrest⟩
    · rw [if_neg hk]
      by_cases hlt : k < head
      · rw [if_pos hlt]
        simp only [List.map_cons, List.pairwise_cons, List.mem_cons, forall_eq_or_imp]
        exact ⟨⟨hlt, fun key hkey => hlt.trans (hhead key hkey)⟩, hhead, hrest⟩
      · rw [if_neg hlt, List.map_cons, List.pairwise_cons]
        refine ⟨fun key hkey => ?_, ih hrest⟩
        rcases (addEntry_keys k a rest key).mp hkey with rfl | hkey
        · exact lt_of_le_of_ne (not_lt.mp hlt) (Ne.symm hk)
        · exact hhead key hkey

theorem sum_map_filter {α : Type} (p : α → Prop) [DecidablePred p] (f : α → M) (xs : List α) :
    ((xs.filter fun x => p x).map f).sum = (xs.map fun x => if p x then f x else 0).sum := by
  induction xs with
  | nil => rfl
  | cons x xs ih =>
    by_cases h : p x
    · simp [h, ih]
    · simp [h, ih]

/-- amounts in the strict order of their keys -/
structure Amounts (κ M : Type) [LinearOrder κ] where
  entries : List (κ × M)
  sorted : (entries.map Prod.fst).Pairwise (· < ·)

namespace Amounts

def empty : Amounts κ M := ⟨[], List.Pairwise.nil⟩

def add (m : Amounts κ M) (k : κ) (a : M) : Amounts κ M :=
  ⟨addEntry k a m.entries, addEntry_sorted k a m.sorted⟩

/-- the amount of a key, zero where there is no entry -/
def get (m : Amounts κ M) (k : κ) : M :=
  ((m.entries.find? fun entry => entry.1 = k).map Prod.snd).getD 0

def total (m : Amounts κ M) : M := (m.entries.map Prod.snd).sum

/-- add the amount of every element under its key -/
def addAll {α : Type} (key : α → κ) (amount : α → M) (m : Amounts κ M) (xs : List α) :
    Amounts κ M :=
  xs.foldl (fun held x => held.add (key x) (amount x)) m

/-! ## what is held -/

/-- the sum of the entries of a key: at most one of them is there -/
def held (entries : List (κ × M)) (k : κ) : M :=
  ((entries.filter fun entry => entry.1 = k).map Prod.snd).sum

theorem held_addEntry (k : κ) (a : M) (entries : List (κ × M)) (key : κ) :
    held (addEntry k a entries) key = held entries key + if key = k then a else 0 := by
  induction entries with
  | nil =>
    by_cases h : key = k
    · subst h
      simp [addEntry, held]
    · simp [addEntry, held, h, Ne.symm h]
  | cons entry rest ih =>
    obtain ⟨head, amount⟩ := entry
    unfold addEntry
    by_cases hk : k = head
    · subst hk
      rw [if_pos rfl]
      by_cases h : key = k
      · subst h
        simp [held, add_right_comm]
      · simp [held, h, Ne.symm h]
    · rw [if_neg hk]
      by_cases hlt : k < head
      · rw [if_pos hlt]
        by_cases h : key = k
        · subst h
          simp only [held, List.filter_cons, decide_true, if_true, List.map_cons, List.sum_cons]
          rw [add_comm]
        · simp [held, h, Ne.symm h]
      · rw [if_neg hlt]
        by_cases h : head = key
        · subst h
          have ih' := ih
          simp only [held] at ih' ⊢
          simp [ih', Ne.symm hk]
        · have ih' := ih
          simp only [held] at ih' ⊢
          simp [ih', h]

theorem find_eq_held {entries : List (κ × M)} (h : (entries.map Prod.fst).Pairwise (· < ·))
    (k : κ) : ((entries.find? fun entry => entry.1 = k).map Prod.snd).getD 0 = held entries k := by
  induction entries with
  | nil => rfl
  | cons entry rest ih =>
    obtain ⟨head, amount⟩ := entry
    rw [List.map_cons, List.pairwise_cons] at h
    obtain ⟨hhead, hrest⟩ := h
    by_cases hk : head = k
    · subst hk
      have hnone : rest.filter (fun entry => decide (entry.1 = head)) = [] := by
        rw [List.filter_eq_nil_iff]
        intro entry hentry hsame
        have hlt := hhead entry.1 (List.mem_map_of_mem hentry)
        rw [of_decide_eq_true hsame] at hlt
        exact lt_irrefl _ hlt
      simp [held, hnone]
    · have ih' := ih hrest
      simp only [held] at ih' ⊢
      simp [hk, ih']

theorem get_add (m : Amounts κ M) (k key : κ) (a : M) :
    (m.add k a).get key = m.get key + if key = k then a else 0 := by
  rw [get, get, find_eq_held (m.add k a).sorted, find_eq_held m.sorted]
  exact held_addEntry k a m.entries key

theorem sum_addEntry (k : κ) (a : M) (entries : List (κ × M)) :
    ((addEntry k a entries).map Prod.snd).sum = (entries.map Prod.snd).sum + a := by
  induction entries with
  | nil => simp [addEntry]
  | cons entry rest ih =>
    obtain ⟨head, amount⟩ := entry
    unfold addEntry
    by_cases hk : k = head
    · simp [hk, add_right_comm]
    · by_cases hlt : k < head
      · simp only [if_neg hk, if_pos hlt, List.map_cons, List.sum_cons]
        rw [add_comm]
      · simp only [if_neg hk, if_neg hlt, List.map_cons, List.sum_cons, ih, add_assoc]

theorem total_add (m : Amounts κ M) (k : κ) (a : M) : (m.add k a).total = m.total + a :=
  sum_addEntry k a m.entries

theorem get_of_mem {m : Amounts κ M} {entry : κ × M} (h : entry ∈ m.entries) :
    m.get entry.1 = entry.2 := by
  have hnodup : (m.entries.map Prod.fst).Nodup := m.sorted.imp fun hlt => ne_of_lt hlt
  have hfound : m.entries.find? (fun e => decide (e.1 = entry.1)) = some entry := by
    obtain ⟨found, hfound⟩ : ∃ found, m.entries.find? (fun e => decide (e.1 = entry.1)) =
        some found := by
      refine Option.isSome_iff_exists.mp (List.find?_isSome.mpr ⟨entry, h, ?_⟩)
      exact decide_eq_true rfl
    have hpred := List.find?_some hfound
    have hkey : found.1 = entry.1 := of_decide_eq_true hpred
    rw [hfound, List.inj_on_of_nodup_map hnodup (List.mem_of_find?_eq_some hfound) h hkey]
  rw [get, hfound]
  rfl

theorem mem_keys_add (m : Amounts κ M) (k key : κ) (a : M) :
    key ∈ (m.add k a).entries.map Prod.fst ↔ key = k ∨ key ∈ m.entries.map Prod.fst :=
  addEntry_keys k a m.entries key

theorem get_of_not_mem {m : Amounts κ M} {k : κ} (h : k ∉ m.entries.map Prod.fst) :
    m.get k = 0 := by
  have hnone : m.entries.find? (fun entry => decide (entry.1 = k)) = none := by
    rw [List.find?_eq_none]
    intro entry hentry hsame
    exact h (List.mem_map.mpr ⟨entry, hentry, of_decide_eq_true hsame⟩)
  rw [get, hnone]
  rfl

/-! ## adding a list -/

section
variable {α : Type} {key : α → κ} {amount : α → M}

theorem get_addAll (m : Amounts κ M) (xs : List α) (k : κ) :
    (addAll key amount m xs).get k =
      m.get k + ((xs.filter fun x => key x = k).map amount).sum := by
  induction xs generalizing m with
  | nil => simp [addAll]
  | cons x xs ih =>
    show (addAll key amount (m.add (key x) (amount x)) xs).get k = _
    rw [ih, get_add, add_assoc]
    by_cases h : key x = k
    · simp [h]
    · simp [h, Ne.symm h]

theorem total_addAll (m : Amounts κ M) (xs : List α) :
    (addAll key amount m xs).total = m.total + (xs.map amount).sum := by
  induction xs generalizing m with
  | nil => simp [addAll]
  | cons x xs ih =>
    show (addAll key amount (m.add (key x) (amount x)) xs).total = _
    rw [ih, total_add, add_assoc, List.map_cons, List.sum_cons]

theorem mem_keys_addAll (m : Amounts κ M) (xs : List α) (k : κ) :
    k ∈ (addAll key amount m xs).entries.map Prod.fst ↔
      k ∈ m.entries.map Prod.fst ∨ k ∈ xs.map key := by
  induction xs generalizing m with
  | nil => simp [addAll]
  | cons x xs ih =>
    show k ∈ (addAll key amount (m.add (key x) (amount x)) xs).entries.map Prod.fst ↔ _
    rw [ih, mem_keys_add, List.map_cons, List.mem_cons]
    tauto

end

end Amounts

end

end Sinan.Lib
