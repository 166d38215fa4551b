import Mathlib.Data.Finset.Card
import Sinan.Lib.Check

/-!
# Counting the nodes a topological sort reaches

Kahn's algorithm on a finite graph, kept to what a validator asks of it: how many nodes leave the
queue.  The degree map is partial, as a hash map is, and a lookup of an absent key or a decrement of
zero stops the run with `Stop`; `kahn_ok` shows that neither happens when every edge ends in a node,
and `kahn_all_iff` that exactly the acyclic graphs are visited completely.  The nodes are listed in
some order, as the keys of a hash map are, and `kahn_perm` shows that the count does not depend on it.
-/

set_option linter.unusedSectionVars false

namespace Sinan.Lib

/-- ways in which the loop could go wrong -/
inductive Stop where
  | absent
  | underflow
  | fuel
  deriving DecidableEq

section
variable {α : Type} [DecidableEq α]

/-- the nodes an edge leads to from `a`, in the order of the edges -/
def targets (edges : List (α × α)) (a : α) : List α :=
  (edges.filter fun e => e.1 = a).map Prod.snd

/-- number of edges into `a` -/
def into (edges : List (α × α)) (a : α) : Nat := edges.countP fun e => e.2 = a

/-- the degree map at the start -/
def degrees (nodes : List α) (edges : List (α × α)) (a : α) : Option Nat :=
  if a ∈ nodes then some (into edges a) else none

/-- lower the degree of every target, and queue those that reach zero -/
def release (degree : α → Option Nat) (queue : List α) :
    List α → Except Stop ((α → Option Nat) × List α)
  | [] => .ok (degree, queue)
  | t :: ts => match degree t with
    | none => .error .absent
    | some 0 => .error .underflow
    | some (n + 1) =>
      release (Function.update degree t (some n)) (if n = 0 then queue ++ [t] else queue) ts

/-- the loop over the queue; the count of the popped nodes is the result -/
def drain (edges : List (α × α)) :
    Nat → (α → Option Nat) → List α → Nat → Except Stop Nat
  | _, _, [], visited => .ok visited
  | 0, _, _ :: _, _ => .error .fuel
  | fuel + 1, degree, a :: queue, visited => do
    let next ← release degree queue (targets edges a)
    drain edges fuel next.1 next.2 (visited + 1)

/-- number of nodes visited by a topological sort -/
def kahn (nodes : List α) (edges : List (α × α)) : Except Stop Nat :=
  drain edges nodes.length (degrees nodes edges) (nodes.filter fun a => into edges a = 0) 0

/-! ## the invariant -/

/-- `left` are the edges not yet followed and `done` the nodes ever queued: the degree of a node counts
its edges in `left`, and the queued nodes are those without any -/
structure Sorted (nodes : List α) (left : List (α × α)) (degree : α → Option Nat)
    (done : List α) : Prop where
  closed : ∀ e ∈ left, e.2 ∈ nodes
  degree : ∀ a ∈ nodes, degree a = some (into left a)
  nodup : done.Nodup
  done : ∀ a, a ∈ done ↔ a ∈ nodes ∧ into left a = 0

theorem into_cons (e : α × α) (left : List (α × α)) (a : α) :
    into (e :: left) a = into left a + if e.2 = a then 1 else 0 := by
  unfold into
  rw [List.countP_cons]
  congr 1
  by_cases h : e.2 = a <;> simp [h]

theorem into_append (l₁ l₂ : List (α × α)) (a : α) : into (l₁ ++ l₂) a = into l₁ a + into l₂ a := by
  unfold into
  rw [List.countP_append]

variable {nodes popped queue : List α} {degree : α → Option Nat}

theorem release_sorted {source : α} (ts : List α) {left : List (α × α)}
    (h : Sorted nodes (ts.map (fun t => (source, t)) ++ left) degree (popped ++ queue)) :
    ∃ next, release degree queue ts = .ok next ∧ Sorted nodes left next.1 (popped ++ next.2) := by
  induction ts generalizing degree queue with
  | nil => exact ⟨(degree, queue), rfl, h⟩
  | cons t ts ih =>
    have hleft : (t :: ts).map (fun t => (source, t)) ++ left
        = (source, t) :: (ts.map (fun t => (source, t)) ++ left) := rfl
    rw [hleft] at h
    have ht : t ∈ nodes := h.closed (source, t) List.mem_cons_self
    have hdeg := h.degree t ht
    rw [into_cons, if_pos rfl] at hdeg
    unfold release
    rw [hdeg]
    -- the remaining degree decides whether the target joins the queue
    apply ih
    refine ⟨fun e he => h.closed e (List.mem_cons_of_mem _ he), ?_, ?_, ?_⟩
    · intro a ha
      by_cases hat : a = t
      · subst hat
        rw [Function.update_self]
      · rw [Function.update_of_ne hat, h.degree a ha, into_cons, if_neg (fun h' => hat h'.symm)]
        rfl
    · split
      case isTrue hzero =>
        rw [← List.append_assoc, List.nodup_append]
        refine ⟨h.nodup, List.nodup_singleton t, ?_⟩
        rintro a ha b hb rfl
        have hfresh := ((h.done a).mp ha).2
        rw [List.mem_singleton.mp hb, into_cons, if_pos rfl] at hfresh
        omega
      case isFalse => exact h.nodup
    · intro a
      have hold := h.done a
      rw [into_cons] at hold
      by_cases hat : t = a
      · subst hat
        rw [if_pos rfl] at hold
        split
        case isTrue hzero =>
          rw [← List.append_assoc, List.mem_append, hold]
          constructor
          · exact fun _ => ⟨ht, hzero⟩
          · exact fun _ => .inr (List.mem_singleton.mpr rfl)
        case isFalse hpos =>
          rw [hold]
          constructor
          · rintro ⟨-, h'⟩; omega
          · rintro ⟨-, h'⟩; exact absurd h' hpos
      · rw [if_neg hat, Nat.add_zero] at hold
        split
        case isTrue =>
          rw [← List.append_assoc, List.mem_append, hold]
          constructor
          · rintro (h' | h')
            · exact h'
            · exact absurd (List.mem_singleton.mp h').symm hat
          · exact fun h' => .inl h'
        case isFalse => exact hold

theorem into_split (edges : List (α × α)) (a b : α) :
    into ((targets edges a).map (fun t => (a, t)) ++ edges.filter (fun e => e.1 ≠ a)) b
      = into edges b := by
  induction edges with
  | nil => rfl
  | cons e es ih =>
    rw [into_append] at ih ⊢
    by_cases h : e.1 = a
    · have ht : targets (e :: es) a = e.2 :: targets es a := by
        unfold targets
        rw [List.filter_cons_of_pos (by simpa using h)]
        rfl
      have hf : (e :: es).filter (fun e => e.1 ≠ a) = es.filter (fun e => e.1 ≠ a) :=
        List.filter_cons_of_neg (by simpa using h)
      rw [ht, hf, List.map_cons, into_cons, into_cons e es]
      show into _ b + (if e.2 = b then 1 else 0) + _ = _
      omega
    · have ht : targets (e :: es) a = targets es a := by
        unfold targets
        rw [List.filter_cons_of_neg (by simpa using h)]
      have hf : (e :: es).filter (fun e => e.1 ≠ a) = e :: es.filter (fun e => e.1 ≠ a) :=
        List.filter_cons_of_pos (by simpa using h)
      rw [ht, hf, into_cons, into_cons e es]
      omega

/-- the edges whose source has not been popped -/
def unfollowed (edges : List (α × α)) (popped : List α) : List (α × α) :=
  edges.filter fun e => e.1 ∉ popped

theorem unfollowed_pop (edges : List (α × α)) (popped : List α) (a : α) :
    (unfollowed edges popped).filter (fun e => e.1 ≠ a) = unfollowed edges (popped ++ [a]) := by
  unfold unfollowed
  rw [List.filter_filter]
  apply List.filter_congr
  intro e _
  simp only [List.mem_append, List.mem_singleton, not_or, Bool.decide_and, ne_eq]
  exact Bool.and_comm _ _

variable {edges : List (α × α)} {a : α}

theorem targets_unfollowed (h : a ∉ popped) :
    targets (unfollowed edges popped) a = targets edges a := by
  unfold targets unfollowed
  rw [List.filter_filter]
  congr 1
  apply List.filter_congr
  intro e _
  by_cases he : e.1 = a
  · simp [he, h]
  · simp [he]

theorem Sorted.pop (h : Sorted nodes (unfollowed edges popped) degree (popped ++ a :: queue)) :
    Sorted nodes ((targets edges a).map (fun t => (a, t)) ++ unfollowed edges (popped ++ [a]))
      degree ((popped ++ [a]) ++ queue) := by
  have hfresh : a ∉ popped := by
    have hn := List.nodup_append.mp h.nodup
    intro ha
    exact hn.2.2 a ha a List.mem_cons_self rfl
  have hinto : ∀ b, into ((targets edges a).map (fun t => (a, t)) ++
      unfollowed edges (popped ++ [a])) b = into (unfollowed edges popped) b := by
    intro b
    rw [← targets_unfollowed hfresh, ← unfollowed_pop]
    exact into_split _ a b
  have hdone : (popped ++ [a]) ++ queue = popped ++ a :: queue := by
    rw [List.append_assoc]
    rfl
  rw [hdone]
  refine ⟨?_, fun b hb => by rw [hinto]; exact h.degree b hb, h.nodup,
    fun b => by rw [hinto]; exact h.done b⟩
  intro e he
  rcases List.mem_append.mp he with he | he
  · obtain ⟨t, ht, rfl⟩ := List.mem_map.mp he
    rw [← targets_unfollowed hfresh] at ht
    obtain ⟨e', he', rfl⟩ := List.mem_map.mp ht
    exact h.closed e' (List.mem_filter.mp he').1
  · rw [← unfollowed_pop] at he
    exact h.closed e (List.mem_filter.mp he).1

/-- each node of a list comes after the sources of its edges, the nodes `seen` being before the list -/
def Ordered (edges : List (α × α)) (seen : List α) : List α → Prop
  | [] => True
  | a :: rest => (∀ e ∈ edges, e.2 = a → e.1 ∈ seen) ∧ Ordered edges (seen ++ [a]) rest

theorem Ordered.concat {seen : List α} (h : Ordered edges seen popped)
    (ha : ∀ e ∈ edges, e.2 = a → e.1 ∈ seen ++ popped) :
    Ordered edges seen (popped ++ [a]) := by
  induction popped generalizing seen with
  | nil =>
    rw [List.append_nil] at ha
    exact ⟨ha, trivial⟩
  | cons b popped ih =>
    obtain ⟨hb, hrest⟩ := h
    refine ⟨hb, ih hrest ?_⟩
    rw [List.append_assoc]
    exact ha

theorem Sorted.sources (h : Sorted nodes (unfollowed edges popped) degree (popped ++ a :: queue)) :
    ∀ e ∈ edges, e.2 = a → e.1 ∈ popped := by
  intro e he hea
  have hnone := ((h.done a).mp (List.mem_append_right _ List.mem_cons_self)).2
  rw [into, List.countP_eq_zero] at hnone
  by_contra hfresh
  exact hnone e (List.mem_filter.mpr ⟨he, decide_eq_true hfresh⟩) (decide_eq_true hea)

/-- The loop returns the number of the nodes that were queued: those that no edge from an unqueued
node reaches.  They were popped in the order of the edges. -/
theorem drain_ok (fuel : Nat) (h : Sorted nodes (unfollowed edges popped) degree (popped ++ queue))
    (hordered : Ordered edges [] popped) (hfuel : nodes.length ≤ popped.length + fuel) :
    ∃ done, drain edges fuel degree queue popped.length = .ok done.length ∧ done.Nodup ∧
      (∀ a, a ∈ done ↔ a ∈ nodes ∧ into (unfollowed edges done) a = 0) ∧ Ordered edges [] done := by
  induction fuel generalizing degree popped queue with
  | zero =>
    cases queue with
    | nil =>
      rw [List.append_nil] at h
      exact ⟨popped, rfl, h.nodup, h.done, hordered⟩
    | cons a queue =>
      -- more queued nodes than there are nodes
      have hsub : popped ++ a :: queue ⊆ nodes := fun b hb => ((h.done b).mp hb).1
      have hlen := (List.subperm_of_subset h.nodup hsub).length_le
      rw [List.length_append, List.length_cons] at hlen
      omega
  | succ fuel ih =>
    cases queue with
    | nil =>
      rw [List.append_nil] at h
      exact ⟨popped, rfl, h.nodup, h.done, hordered⟩
    | cons a queue =>
      obtain ⟨next, hrelease, hnext⟩ := release_sorted (targets edges a) h.pop
      have hlen : (popped ++ [a]).length = popped.length + 1 := by
        rw [List.length_append]
        rfl
      obtain ⟨done, hdrain, hdone⟩ := ih hnext (hordered.concat h.sources) (by omega)
      refine ⟨done, ?_, hdone⟩
      unfold drain
      rw [hrelease]
      show drain edges fuel next.1 next.2 (popped.length + 1) = _
      rw [← hlen]
      exact hdrain

theorem kahn_ok (hnodes : nodes.Nodup) (hclosed : ∀ e ∈ edges, e.2 ∈ nodes) :
    ∃ done, kahn nodes edges = .ok done.length ∧ done.Nodup ∧
      (∀ a, a ∈ done ↔ a ∈ nodes ∧ into (unfollowed edges done) a = 0) ∧ Ordered edges [] done := by
  have hall : unfollowed edges [] = edges := by
    unfold unfollowed
    exact List.filter_eq_self.mpr fun e _ => by simp
  have hstart : Sorted nodes (unfollowed edges []) (degrees nodes edges)
      ([] ++ nodes.filter fun a => into edges a = 0) := by
    rw [hall, List.nil_append]
    refine ⟨hclosed, fun a ha => if_pos ha, hnodes.filter _, fun a => ?_⟩
    rw [List.mem_filter, decide_eq_true_eq]
  exact drain_ok nodes.length hstart trivial (by rw [List.length_nil]; omega)

theorem kahn_acyclic (hnodes : nodes.Nodup) (hclosed : ∀ e ∈ edges, e.1 ∈ nodes ∧ e.2 ∈ nodes)
    (rank : α → Nat) (hrank : ∀ e ∈ edges, rank e.1 < rank e.2) :
    kahn nodes edges = .ok nodes.length := by
  obtain ⟨done, hkahn, hdone, hmem, -⟩ := kahn_ok hnodes fun e he => (hclosed e he).2
  have hall : ∀ n a, rank a = n → a ∈ nodes → a ∈ done := by
    intro n
    induction n using Nat.strongRecOn with
    | ind n ih =>
      intro a han ha
      refine (hmem a).mpr ⟨ha, ?_⟩
      rw [into, List.countP_eq_zero]
      intro e he heq
      obtain ⟨hedge, hleft⟩ := List.mem_filter.mp he
      have hea : e.2 = a := of_decide_eq_true heq
      have hlt := hrank e hedge
      rw [hea] at hlt
      exact of_decide_eq_true hleft (ih (rank e.1) (by omega) e.1 rfl (hclosed e hedge).1)
  have hle := (List.subperm_of_subset hdone fun a ha => ((hmem a).mp ha).1).length_le
  have hge := (List.subperm_of_subset hnodes fun a ha => hall _ a rfl ha).length_le
  rw [hkahn, Nat.le_antisymm hle hge]

/-! ## acyclic graphs -/

def Precedes (edges : List (α × α)) (a b : α) : Prop := (a, b) ∈ edges

/-- no node comes before itself -/
def Acyclic (edges : List (α × α)) : Prop := ∀ a, ¬ Relation.TransGen (Precedes edges) a a

theorem Ordered.acc {seen done : List α} (h : Ordered edges seen done)
    (hseen : ∀ a ∈ seen, Acc (Precedes edges) a) : ∀ a ∈ done, Acc (Precedes edges) a := by
  induction done generalizing seen with
  | nil => exact fun _ h => absurd h List.not_mem_nil
  | cons a done ih =>
    obtain ⟨hsources, hrest⟩ := h
    have ha : Acc (Precedes edges) a :=
      Acc.intro a fun b hb => hseen b (hsources (b, a) hb rfl)
    refine List.forall_mem_cons.mpr ⟨ha, ih hrest fun b hb => ?_⟩
    rcases List.mem_append.mp hb with hb | hb
    · exact hseen b hb
    · rw [List.mem_singleton.mp hb]
      exact ha

theorem kahn_counts (hnodes : nodes.Nodup) (hclosed : ∀ e ∈ edges, e.1 ∈ nodes ∧ e.2 ∈ nodes) :
    ∃ done : List α, kahn nodes edges = .ok done.length ∧ done.Nodup ∧
      ∀ a, a ∈ done ↔ a ∈ nodes ∧ Acc (Precedes edges) a := by
  obtain ⟨done, hkahn, hdone, hmem, hordered⟩ := kahn_ok hnodes fun e he => (hclosed e he).2
  have hacc := hordered.acc fun _ h => absurd h List.not_mem_nil
  refine ⟨done, hkahn, hdone, fun a => ⟨fun ha => ⟨((hmem a).mp ha).1, hacc a ha⟩, ?_⟩⟩
  rintro ⟨ha, hendless⟩
  induction hendless with
  | intro a _ ih =>
    refine (hmem a).mpr ⟨ha, ?_⟩
    rw [into, List.countP_eq_zero]
    intro e he heq
    obtain ⟨hedge, hleft⟩ := List.mem_filter.mp he
    have hea : e.2 = a := of_decide_eq_true heq
    subst hea
    exact of_decide_eq_true hleft (ih e.1 hedge (hclosed e hedge).1)

theorem kahn_perm {nodes' : List α} (hperm : nodes'.Perm nodes) (hnodes : nodes.Nodup)
    (hclosed : ∀ e ∈ edges, e.1 ∈ nodes ∧ e.2 ∈ nodes) :
    kahn nodes' edges = kahn nodes edges := by
  obtain ⟨done, hkahn, hdone, hmem⟩ := kahn_counts hnodes hclosed
  obtain ⟨done', hkahn', hdone', hmem'⟩ := kahn_counts (hperm.nodup_iff.mpr hnodes) fun e he =>
    ⟨hperm.mem_iff.mpr (hclosed e he).1, hperm.mem_iff.mpr (hclosed e he).2⟩
  have hsame : done'.Perm done := by
    refine (List.perm_ext_iff_of_nodup hdone' hdone).mpr fun a => ?_
    rw [hmem, hmem', hperm.mem_iff]
  rw [hkahn, hkahn', hsame.length_eq]

theorem acc_irrefl {r : α → α → Prop} (h : Acc r a) : ¬ Relation.TransGen r a a := by
  have htrans : Acc (Relation.TransGen r) a := h.transGen
  induction htrans with
  | intro a _ ih => exact fun hcycle => ih a hcycle h hcycle

open Classical in
theorem acyclic_rank (h : Acyclic edges) (hclosed : ∀ e ∈ edges, e.1 ∈ nodes) :
    ∃ rank : α → Nat, ∀ e ∈ edges, rank e.1 < rank e.2 := by
  refine ⟨fun a => (nodes.toFinset.filter fun c => Relation.TransGen (Precedes edges) c a).card, ?_⟩
  intro e he
  have hedge : Precedes edges e.1 e.2 := he
  apply Finset.card_lt_card
  rw [Finset.ssubset_iff_of_subset]
  · refine ⟨e.1, Finset.mem_filter.mpr ⟨List.mem_toFinset.mpr (hclosed e he), .single hedge⟩, ?_⟩
    exact fun hmem => h e.1 (Finset.mem_filter.mp hmem).2
  · intro c hc
    obtain ⟨hnode, hbefore⟩ := Finset.mem_filter.mp hc
    exact Finset.mem_filter.mpr ⟨hnode, hbefore.tail hedge⟩

theorem kahn_all_iff (hnodes : nodes.Nodup) (hclosed : ∀ e ∈ edges, e.1 ∈ nodes ∧ e.2 ∈ nodes) :
    kahn nodes edges = .ok nodes.length ↔ Acyclic edges := by
  constructor
  · intro h a hcycle
    obtain ⟨done, hkahn, hdone, hmem⟩ := kahn_counts hnodes hclosed
    rw [hkahn] at h
    have hsub : done.Subperm nodes := List.subperm_of_subset hdone fun b hb => ((hmem b).mp hb).1
    have hall := hsub.perm_of_length_le (Except.ok.inj h).ge
    have hnode : a ∈ nodes := by
      obtain ⟨b, -, hlast⟩ := Relation.TransGen.tail'_iff.mp hcycle
      exact (hclosed (b, a) hlast).2
    exact acc_irrefl ((hmem a).mp (hall.mem_iff.mpr hnode)).2 hcycle
  · intro h
    obtain ⟨rank, hrank⟩ := acyclic_rank h fun e he => (hclosed e he).1
    exact kahn_acyclic hnodes hclosed rank hrank

end

end Sinan.Lib
