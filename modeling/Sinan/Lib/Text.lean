import Mathlib.Data.List.Basic

/-!
# Texts of numbers

The decimal text of a number determines it and is never empty; a number at the end of a text, behind
a letter, is found again.
-/

namespace Sinan.Lib

theorem split_first_inj {α : Type} {a : α} {x y u v : List α} (hx : a ∉ x) (hy : a ∉ y)
    (h : x ++ a :: u = y ++ a :: v) : x = y ∧ u = v := by
  induction x generalizing y with
  | nil =>
    cases y with
    | nil => exact ⟨rfl, (List.cons.inj h).2⟩
    | cons c y => exact absurd ((List.cons.inj h).1 ▸ List.mem_cons_self) hy
  | cons c x ih =>
    cases y with
    | nil => exact absurd ((List.cons.inj h).1 ▸ List.mem_cons_self) hx
    | cons d y =>
      obtain ⟨hcd, hrest⟩ := List.cons.inj h
      obtain ⟨hxy, huv⟩ := ih (fun h => hx (List.mem_cons_of_mem c h))
        (fun h => hy (List.mem_cons_of_mem d h)) hrest
      exact ⟨by rw [hcd, hxy], huv⟩

theorem split_last_inj {α : Type} {a : α} {x y u v : List α} (hx : a ∉ x) (hy : a ∉ y)
    (h : u ++ a :: x = v ++ a :: y) : u = v ∧ x = y := by
  have hreverse := congrArg List.reverse h
  simp only [List.reverse_append, List.reverse_cons, List.append_assoc, List.singleton_append]
    at hreverse
  obtain ⟨hxy, huv⟩ := split_first_inj (fun hmem => hx (List.mem_reverse.mp hmem))
    (fun hmem => hy (List.mem_reverse.mp hmem)) hreverse
  exact ⟨List.reverse_injective huv, List.reverse_injective hxy⟩

/-- Two joins are the same list if the parts are, or if the letter occurs once more and the list is
split at another of its occurrences. -/
theorem join_eq_iff {α : Type} {a : α} {x y u v : List α} :
    x ++ a :: u = y ++ a :: v ↔
      (x = y ∧ u = v) ∨ (∃ w, y = x ++ a :: w ∧ u = w ++ a :: v) ∨
        ∃ w, x = y ++ a :: w ∧ v = w ++ a :: u := by
  rw [List.append_eq_append_iff]
  constructor
  · rintro (⟨w, hy, hu⟩ | ⟨w, hx, hv⟩)
    · cases w with
      | nil => exact .inl ⟨(hy.trans (List.append_nil x)).symm, (List.cons.inj hu).2⟩
      | cons c w =>
        obtain ⟨hac, hrest⟩ := List.cons.inj hu
        exact .inr (.inl ⟨w, hac ▸ hy, hrest⟩)
    · cases w with
      | nil => exact .inl ⟨hx.trans (List.append_nil y), (List.cons.inj hv).2.symm⟩
      | cons c w =>
        obtain ⟨hac, hrest⟩ := List.cons.inj hv
        exact .inr (.inr ⟨w, hac ▸ hx, hrest⟩)
  · rintro (⟨rfl, rfl⟩ | ⟨w, rfl, rfl⟩ | ⟨w, rfl, rfl⟩)
    · exact .inl ⟨[], (List.append_nil x).symm, rfl⟩
    · exact .inl ⟨a :: w, rfl, rfl⟩
    · exact .inr ⟨a :: w, rfl, rfl⟩

theorem natText_inj {m n : Nat} (h : m.repr = n.repr) : m = n := by
  have hlist := congrArg String.toList h
  rw [Nat.toList_repr, Nat.toList_repr] at hlist
  rw [← Nat.ofDigitChars_ten_toDigits (n := m), hlist, Nat.ofDigitChars_ten_toDigits]

theorem isDigit_of_mem_natText {n : Nat} {c : Char} (h : c ∈ n.repr.toList) :
    c.isDigit = true := by
  rw [Nat.toList_repr] at h
  exact Nat.isDigit_of_mem_toDigits (by omega) (by omega) h

theorem natText_head (n : Nat) : ∃ c cs, n.repr.toList = c :: cs ∧ c.isDigit = true := by
  cases hlist : n.repr.toList with
  | nil =>
    have hempty : n.repr = "" := String.toList_inj.mp hlist
    exact absurd hempty Nat.repr_ne_empty
  | cons c cs => exact ⟨c, cs, rfl, isDigit_of_mem_natText (hlist ▸ List.mem_cons_self)⟩

theorem minus_notMem_natText {n : Nat} : '-' ∉ n.repr.toList := by
  intro hmem
  exact absurd (isDigit_of_mem_natText hmem) (by decide)

theorem toList_minus_append (s : String) : ("-" ++ s).toList = '-' :: s.toList := by
  rw [String.toList_append]
  rfl

theorem intText_inj {a b : Int} (h : toString a = toString b) : a = b := by
  rw [Int.toString_eq_repr, Int.toString_eq_repr, Int.repr_eq_if, Int.repr_eq_if] at h
  split at h <;> split at h
  · have := natText_inj h
    omega
  · have hlist := congrArg String.toList h
    rw [toList_minus_append] at hlist
    exact absurd (hlist ▸ List.mem_cons_self) minus_notMem_natText
  · have hlist := congrArg String.toList h
    rw [toList_minus_append] at hlist
    exact absurd (hlist ▸ List.mem_cons_self) minus_notMem_natText
  · have := natText_inj ((String.append_right_inj "-").mp h)
    omega

theorem intText_ne_empty (a : Int) : toString a ≠ "" := by
  rw [Int.toString_eq_repr, Int.repr_eq_if]
  split
  · exact Nat.repr_ne_empty
  · intro h
    have hlist := congrArg String.toList h
    rw [toList_minus_append] at hlist
    exact List.cons_ne_nil _ _ hlist

end Sinan.Lib
