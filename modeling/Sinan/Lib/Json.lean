import Sinan.Lib.Sorted
import Sinan.Lib.Text
import Mathlib.Data.List.Perm.Basic
import Mathlib.Data.String.Basic

/-!
# JSON values

A value is a tree of arrays and objects over numbers of any kind.  The entries of an object stand in
an order.  `Distinct` says that no object has two entries of one key, `Ordered` that the keys of every
object grow, and `Same` that two values are equal up to the order of entries at every depth.
-/

namespace Sinan.Lib

inductive Json (N : Type) where
  | null
  | bool (value : Bool)
  | number (value : N)
  | string (value : String)
  | array (items : List (Json N))
  | object (entries : List (String × Json N))

theorem map_eq_map_iff_zip {α β γ : Type} {f : α → γ} {g : β → γ} {xs : List α} {ys : List β} :
    xs.map f = ys.map g ↔
      xs.length = ys.length ∧ ∀ x y, (x, y) ∈ xs.zip ys → f x = g y := by
  rw [← List.forall₂_eq_eq_eq, List.forall₂_map_left_iff, List.forall₂_map_right_iff,
    List.forall₂_iff_zip]

namespace Json

variable {N : Type}

/-! ## recursion -/

variable {entries : List (String × Json N)}

theorem sizeOf_item {items : List (Json N)} {x : Json N} (h : x ∈ items) :
    sizeOf x < sizeOf (Json.array items) := by
  have hlt := List.sizeOf_lt_of_mem h
  rw [Json.array.sizeOf_spec]
  omega

theorem sizeOf_entry {e : String × Json N} (h : e ∈ entries) :
    sizeOf e.2 < sizeOf (Json.object entries) := by
  have hlt := List.sizeOf_lt_of_mem h
  have hpair : sizeOf e = 1 + sizeOf e.1 + sizeOf e.2 := rfl
  rw [Json.object.sizeOf_spec]
  omega

@[elab_as_elim, induction_eliminator]
theorem parts_induction {motive : Json N → Prop} (null : motive .null)
    (bool : ∀ b, motive (.bool b)) (number : ∀ n, motive (.number n))
    (string : ∀ s, motive (.string s))
    (array : ∀ items, (∀ x ∈ items, motive x) → motive (.array items))
    (object : ∀ entries, (∀ e ∈ entries, motive e.2) → motive (.object entries)) :
    ∀ v, motive v
  | .null => null
  | .bool b => bool b
  | .number n => number n
  | .string s => string s
  | .array items => array items fun x _ => parts_induction null bool number string array object x
  | .object entries =>
    object entries fun e _ => parts_induction null bool number string array object e.2
  termination_by v => sizeOf v
  decreasing_by
  · exact sizeOf_item ‹_›
  · exact sizeOf_entry ‹_›

/-! ## keys -/

def keys (entries : List (String × Json N)) : List String := entries.map Prod.fst

/-- no object has two entries of one key -/
inductive Distinct : Json N → Prop
  | null : Distinct .null
  | bool (b : Bool) : Distinct (.bool b)
  | number (n : N) : Distinct (.number n)
  | string (s : String) : Distinct (.string s)
  | array {items : List (Json N)} (parts : ∀ x ∈ items, Distinct x) : Distinct (.array items)
  | object {entries : List (String × Json N)} (nodup : (keys entries).Nodup)
      (parts : ∀ e ∈ entries, Distinct e.2) : Distinct (.object entries)

/-- the keys of every object grow -/
inductive Ordered : Json N → Prop
  | null : Ordered .null
  | bool (b : Bool) : Ordered (.bool b)
  | number (n : N) : Ordered (.number n)
  | string (s : String) : Ordered (.string s)
  | array {items : List (Json N)} (parts : ∀ x ∈ items, Ordered x) : Ordered (.array items)
  | object {entries : List (String × Json N)} (grow : (keys entries).Pairwise (· < ·))
      (parts : ∀ e ∈ entries, Ordered e.2) : Ordered (.object entries)

/-- Equal up to the order of entries at every depth: some arrangement of the entries of the one has
the keys and the same values as some arrangement of the entries of the other. -/
inductive Same : Json N → Json N → Prop
  | null : Same .null .null
  | bool (b : Bool) : Same (.bool b) (.bool b)
  | number (n : N) : Same (.number n) (.number n)
  | string (s : String) : Same (.string s) (.string s)
  | array {xs ys : List (Json N)} (length : xs.length = ys.length)
      (parts : ∀ x y, (x, y) ∈ xs.zip ys → Same x y) : Same (.array xs) (.array ys)
  | object {es fs es' fs' : List (String × Json N)} (left : es'.Perm es) (right : fs'.Perm fs)
      (names : keys es' = keys fs')
      (parts : ∀ e f, (e, f) ∈ es'.zip fs' → Same e.2 f.2) : Same (.object es) (.object fs)

@[simp] theorem distinct_array {items : List (Json N)} :
    Distinct (.array items) ↔ ∀ x ∈ items, Distinct x :=
  ⟨fun | .array parts => parts, .array⟩

@[simp] theorem distinct_object :
    Distinct (.object entries) ↔ (keys entries).Nodup ∧ ∀ e ∈ entries, Distinct e.2 :=
  ⟨fun | .object nodup parts => ⟨nodup, parts⟩, fun h => .object h.1 h.2⟩

/-! ## records -/

/-- the entries of the fields that have a value -/
def present : List (String × Option (Json N)) → List (String × Json N)
  | [] => []
  | (_, none) :: fields => present fields
  | (name, some value) :: fields => (name, value) :: present fields

/-- the object of a record; a field without a value is left out -/
def record (fields : List (String × Option (Json N))) : Json N := .object (present fields)

theorem mem_names_of_present {fields : List (String × Option (Json N))} {e : String × Json N}
    (h : e ∈ present fields) : e.1 ∈ fields.map Prod.fst := by
  induction fields with
  | nil => cases h
  | cons field fields ih =>
    obtain ⟨name, _ | value⟩ := field
    · exact List.mem_cons_of_mem _ (ih h)
    · rcases List.mem_cons.mp h with rfl | h
      · exact List.mem_cons_self
      · exact List.mem_cons_of_mem _ (ih h)

theorem record_inj {fields fields' : List (String × Option (Json N))}
    (h : record fields = record fields') (hnames : fields.map Prod.fst = fields'.map Prod.fst)
    (hdistinct : (fields.map Prod.fst).Nodup) : fields = fields' := by
  replace h := Json.object.inj h
  induction fields generalizing fields' with
  | nil => exact (List.map_eq_nil_iff.mp hnames.symm).symm
  | cons field fields ih =>
    cases fields' with
    | nil => cases hnames
    | cons field' fields' =>
      obtain ⟨name, value⟩ := field
      obtain ⟨name', value'⟩ := field'
      obtain ⟨rfl, hrest⟩ := List.cons.inj hnames
      obtain ⟨hfresh, hnodup⟩ := List.nodup_cons.mp hdistinct
      -- a field that is left out on one side only would leave its name among the later ones
      rcases value with _ | v <;> rcases value' with _ | w
      · rw [ih hrest hnodup h]
      · have hmem : (name, w) ∈ present fields := by
          rw [show present fields = (name, w) :: present fields' from h]
          exact List.mem_cons_self
        exact absurd (mem_names_of_present hmem) hfresh
      · have hmem : (name, v) ∈ present fields' := by
          rw [← show (name, v) :: present fields = present fields' from h]
          exact List.mem_cons_self
        exact absurd (hrest ▸ mem_names_of_present hmem) hfresh
      · obtain ⟨hhead, htail⟩ := List.cons.inj h
        rw [ih hrest hnodup htail, (Prod.mk.inj hhead).2]

end Json

end Sinan.Lib
