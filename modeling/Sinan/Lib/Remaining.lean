import Mathlib.Data.List.MinMax
import Sinan.Lib.Latest

/-!
# What remains of facts and full sets

Facts and full sets as lists.  The last set of an owner is taken first; of each key there remains the
newest fact after it, or else its member.  A lookup that shows what is visible of the facts and the
sets is `remaining`, whatever the order of the lists (`Shows.remaining`).
-/

set_option linter.unusedSectionVars false

namespace Sinan.Lib

section
variable {α κ τ ω : Type} [LinearOrder τ] [DecidableEq κ] [DecidableEq ω]

/-- the set of the owner that is later than all others -/
def lastSet (sets : List (FullSet ω τ α)) (o : ω) : Option (FullSet ω τ α) :=
  (sets.filter fun w => w.owner = o).argmax FullSet.time

/-- the member of a key in the owner's last set -/
def lastMember (key : α → κ) (ownerOf : κ → ω) (sets : List (FullSet ω τ α)) (k : κ) : Option α :=
  (lastSet sets (ownerOf k)).bind fun w => w.members.find? fun x => key x = k

/-- the newest fact of the key after the owner's last set, else the member of that set -/
def remaining (key : α → κ) (ownerOf : κ → ω) (time : α → τ) (facts : List α)
    (sets : List (FullSet ω τ α)) (k : κ) : Option α :=
  match (facts.filter fun x =>
      key x = k ∧ ∀ w ∈ lastSet sets (ownerOf k), w.time < time x).argmax time with
  | some x => some x
  | none => lastMember key ownerOf sets k

variable {key : α → κ} {ownerOf : κ → ω} {time : α → τ} {facts : List α}
  {sets : List (FullSet ω τ α)} {look : κ → Option α} {o : ω} {k : κ} {w : FullSet ω τ α}

theorem lastSet_some (h : lastSet sets o = some w) :
    w ∈ sets ∧ w.owner = o ∧ ∀ v ∈ sets, v.owner = o → v.time ≤ w.time := by
  obtain ⟨hmem, howner⟩ := List.mem_filter.mp (List.argmax_mem h)
  refine ⟨hmem, of_decide_eq_true howner, fun v hv hvo => ?_⟩
  exact List.le_of_mem_argmax (List.mem_filter.mpr ⟨hv, decide_eq_true hvo⟩) h

theorem lastSet_none : lastSet sets o = none ↔ ∀ w ∈ sets, w.owner ≠ o := by
  rw [lastSet, List.argmax_eq_none, List.filter_eq_nil_iff]
  exact forall₂_congr fun w _ => not_congr decide_eq_true_iff

theorem later_iff {t : τ} : (∀ w ∈ lastSet sets o, w.time < t) ↔
    ∀ w ∈ sets, w.owner = o → w.time < t := by
  constructor
  · intro h w hw howner
    cases hlast : lastSet sets o with
    | none => exact absurd howner (lastSet_none.mp hlast w hw)
    | some v => exact lt_of_le_of_lt ((lastSet_some hlast).2.2 w hw howner) (h v hlast)
  · intro h w hw
    obtain ⟨hmem, howner, -⟩ := lastSet_some hw
    exact h w hmem howner

theorem member_of_last (hcoherent : Coherent key (fun x => ownerOf (key x)) time {x | x ∈ facts}
      {w | w ∈ sets}) {v : FullSet ω τ α} {x : α} (hv : v ∈ sets) (hx : x ∈ v.members)
    (hlast : ∀ u ∈ sets, u.owner = v.owner → u.time ≤ v.time) :
    ∃ w, lastSet sets (ownerOf (key x)) = some w ∧ x ∈ w.members := by
  obtain ⟨howner, -⟩ := hcoherent.formed v hv x hx
  cases hw : lastSet sets (ownerOf (key x)) with
  | none => exact absurd howner.symm (lastSet_none.mp hw v hv)
  | some w =>
    obtain ⟨hmem, hwo, htop⟩ := lastSet_some hw
    have hsame : w.owner = v.owner := hwo.trans howner
    have htime : v.time = w.time := le_antisymm (htop v hv howner.symm) (hlast w hmem hsame)
    exact ⟨w, rfl, hcoherent.alike v hv w hmem hsame.symm htime ▸ hx⟩

theorem Shows.remaining (hcoherent : Coherent key (fun x => ownerOf (key x)) time {x | x ∈ facts}
      {w | w ∈ sets})
    (h : Shows key time (visible (fun x => ownerOf (key x)) time {x | x ∈ facts} {w | w ∈ sets}) look)
    (k : κ) : look k = Lib.remaining key ownerOf time facts sets k := by
  unfold Lib.remaining
  cases hnewest : (facts.filter fun x =>
      key x = k ∧ ∀ w ∈ lastSet sets (ownerOf k), w.time < time x).argmax time with
  | some x =>
    obtain ⟨hmem, hcond⟩ := List.mem_filter.mp (List.argmax_mem hnewest)
    obtain ⟨rfl, hafter⟩ := of_decide_eq_true hcond
    obtain ⟨y, hy, hle⟩ := h.top (.inl ⟨hmem, later_iff.mp hafter⟩)
    obtain ⟨hvisible, hkey⟩ := h.sound hy
    rw [hy]
    rcases hvisible with ⟨hfact, hlater⟩ | ⟨v, hv, hmember, hlast⟩
    · have hcandidate : y ∈ facts.filter fun z =>
          key z = key x ∧ ∀ w ∈ lastSet sets (ownerOf (key x)), w.time < time z :=
        List.mem_filter.mpr ⟨hfact, decide_eq_true ⟨hkey, hkey ▸ later_iff.mpr hlater⟩⟩
      have htime := le_antisymm hle (List.le_of_mem_argmax hcandidate hnewest)
      exact congrArg some (hcoherent.single y hfact x hmem hkey htime.symm)
    · -- a member of the last set is older than the fact
      obtain ⟨w, hw, hin⟩ := member_of_last hcoherent hv hmember hlast
      obtain ⟨-, hyt⟩ := hcoherent.formed w (lastSet_some hw).1 y hin
      rw [hkey] at hw
      have hlt := hafter w hw
      rw [← hyt] at hlt
      exact absurd hle (not_le.mpr hlt)
  | none =>
    have hno : ∀ x ∈ facts, key x = k → ¬ ∀ w ∈ sets, w.owner = ownerOf k → w.time < time x := by
      intro x hx hkey hlater
      have hcandidate := List.filter_eq_nil_iff.mp (List.argmax_eq_none.mp hnewest) x hx
      exact hcandidate (decide_eq_true ⟨hkey, later_iff.mpr hlater⟩)
    show look k = (lastSet sets (ownerOf k)).bind fun w => w.members.find? fun x => key x = k
    have hsound {y : α} (hy : look k = some y) :
        ∃ w, lastSet sets (ownerOf k) = some w ∧ y ∈ w.members ∧ key y = k := by
      obtain ⟨⟨hfact, hlater⟩ | ⟨v, hv, hmember, hlast⟩, rfl⟩ := h.sound hy
      · exact absurd hlater (hno y hfact rfl)
      · obtain ⟨w, hw, hin⟩ := member_of_last hcoherent hv hmember hlast
        exact ⟨w, hw, hin, rfl⟩
    cases hlast : lastSet sets (ownerOf k) with
    | none =>
      cases hlook : look k with
      | none => rfl
      | some y =>
        obtain ⟨w, hw, -⟩ := hsound hlook
        rw [hlast] at hw
        cases hw
    | some w =>
      obtain ⟨hw, howner, htop⟩ := lastSet_some hlast
      show look k = w.members.find? fun x => key x = k
      cases hfind : w.members.find? fun x => key x = k with
      | none =>
        cases hlook : look k with
        | none => rfl
        | some y =>
          obtain ⟨v, hv, hin, hkey⟩ := hsound hlook
          rw [hlast] at hv
          cases hv
          exact absurd (decide_eq_true hkey) (List.find?_eq_none.mp hfind y hin)
      | some z =>
        have hz := List.mem_of_find?_eq_some hfind
        have htrue := List.find?_some hfind
        have hkey : key z = k := of_decide_eq_true htrue
        subst hkey
        obtain ⟨y, hy, -⟩ := h.top (x := z) (.inr ⟨w, hw, hz, fun v hv hvo => htop v hv
          (hvo.trans howner)⟩)
        obtain ⟨v, hv, hin, hkey⟩ := hsound hy
        rw [hlast] at hv
        cases hv
        rw [hy]
        exact congrArg some (List.inj_on_of_nodup_map (hcoherent.keyed w hw) hin hz hkey)

end

end Sinan.Lib
