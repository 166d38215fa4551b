import Mathlib.Algebra.GroupWithZero.Nat
import Mathlib.Algebra.Order.BigOperators.Group.List
import Mathlib.Algebra.Order.Group.Nat

/-!
# Threads that interleave

Several threads run on one shared state.  A thread is the stack of operations it has still to run.  A
step runs the top operation of one thread on the shared state, in one piece, and puts what the
operation asks for in its place; a thread whose stack is empty has returned.

What a development counts about the threads is a sum over their stacks (`total`), so a step changes
it by the operation that is taken off and by the ones that are put on (`Turned.total`); what it says
about every operation that is still to run (`Running`) has to be checked for the ones put on.
-/

namespace Sinan.Lib

variable {σ Op Input : Type}

structure Pool (σ Op : Type) where
  shared : σ
  threads : List (List Op)

/-! ## sums over stacks -/

def weight (m : Op → Nat) (stack : List Op) : Nat := (stack.map m).sum

@[simp] theorem weight_nil (m : Op → Nat) : weight m [] = 0 := rfl

@[simp] theorem weight_cons (m : Op → Nat) (op : Op) (stack : List Op) :
    weight m (op :: stack) = m op + weight m stack := rfl

@[simp] theorem weight_append (m : Op → Nat) (stack stack' : List Op) :
    weight m (stack ++ stack') = weight m stack + weight m stack' := by
  unfold weight
  rw [List.map_append, List.sum_append]

@[simp] theorem weight_map {α : Type} (m : Op → Nat) (f : α → Op) (l : List α) :
    weight m (l.map f) = weight (fun a => m (f a)) l := by
  unfold weight
  rw [List.map_map]
  rfl

@[simp] theorem weight_const (n : Nat) (stack : List Op) :
    weight (fun _ => n) stack = n * stack.length := by
  induction stack with
  | nil => rfl
  | cons op stack ih => rw [weight_cons, ih, List.length_cons, Nat.mul_succ, Nat.add_comm]

theorem weight_eraseP {m : Op → Nat} {q : Op → Bool} {stack : List Op} {op : Op}
    (h : stack.find? q = some op) : weight m (stack.eraseP q) + m op = weight m stack := by
  induction stack with
  | nil => cases h
  | cons x stack ih =>
    by_cases hq : q x = true
    · rw [List.find?_cons_of_pos hq] at h
      cases h
      rw [List.eraseP_cons_of_pos hq, weight_cons, Nat.add_comm]
    · rw [List.find?_cons_of_neg hq] at h
      rw [List.eraseP_cons_of_neg hq, weight_cons, weight_cons]
      have hrest := ih h
      omega

theorem weight_takeWhile (m : Op → Nat) (q : Op → Bool) (op : Op) (stack : List Op) :
    weight m (stack.takeWhile q ++ op :: stack.dropWhile q) = weight m stack + m op := by
  have hsplit := congrArg (weight m) (List.takeWhile_append_dropWhile (p := q) (l := stack))
  rw [weight_append] at hsplit
  rw [weight_append, weight_cons]
  omega

/-! ## logs, newest first -/

/-- every entry of the log fits the ones before it -/
def Along {Entry : Type} (fits : List Entry → Entry → Prop) : List Entry → Prop
  | [] => True
  | entry :: older => fits older entry ∧ Along fits older

theorem Along.at {Entry : Type} {fits : List Entry → Entry → Prop} {newer older : List Entry}
    {entry : Entry} (h : Along fits (newer ++ entry :: older)) : fits older entry := by
  induction newer with
  | nil => exact h.1
  | cons _ newer ih => exact ih h.2

namespace Pool

/-- how much of `m` the threads have still to run -/
def total (m : Op → Nat) (p : Pool σ Op) : Nat := (p.threads.map (weight m)).sum

/-- a thread has `op` still to run -/
def Running (p : Pool σ Op) (op : Op) : Prop := ∃ stack ∈ p.threads, op ∈ stack

/-- every thread has returned -/
def Quiet (p : Pool σ Op) : Prop := ∀ stack ∈ p.threads, stack = []

def spawn (p : Pool σ Op) (stack : List Op) : Pool σ Op := { p with threads := p.threads ++ [stack] }

variable (exec : Op → Input → σ → σ × List Op)

/-- thread `i` runs its top operation; a thread that has returned does nothing -/
def step (p : Pool σ Op) (i : Nat) (input : Input) : Pool σ Op :=
  match p.threads[i]? with
  | some (op :: rest) =>
    { shared := (exec op input p.shared).1
      threads := p.threads.set i ((exec op input p.shared).2 ++ rest) }
  | _ => p

variable {exec}

/-- a turn of one thread: its top operation has been run on the shared state -/
structure Turned (exec : Op → Input → σ → σ × List Op) (input : Input) (op : Op) (p p' : Pool σ Op) :
    Prop where
  shared : p'.shared = (exec op input p.shared).1
  threads : ∃ i rest, p.threads[i]? = some (op :: rest) ∧
    p'.threads = p.threads.set i ((exec op input p.shared).2 ++ rest)

theorem step_turned (exec : Op → Input → σ → σ × List Op) (p : Pool σ Op) (i : Nat) (input : Input) :
    p.step exec i input = p ∨ ∃ op, Turned exec input op p (p.step exec i input) := by
  unfold step
  split
  case h_1 op rest htop => exact .inr ⟨op, rfl, i, rest, htop, rfl⟩
  case h_2 => exact .inl rfl

theorem le_weight {m : Op → Nat} {stack : List Op} {op : Op} (h : op ∈ stack) :
    m op ≤ weight m stack := List.le_sum_of_mem (List.mem_map_of_mem h)

theorem le_total {m : Op → Nat} {p : Pool σ Op} {op : Op} (h : p.Running op) :
    m op ≤ p.total m := by
  obtain ⟨stack, hstack, hop⟩ := h
  exact (le_weight hop).trans (List.le_sum_of_mem (List.mem_map_of_mem hstack))

section
variable {p p' : Pool σ Op} {op op' : Op} {input : Input} {m : Op → Nat}

theorem Turned.running (h : Turned exec input op p p') : p.Running op := by
  obtain ⟨i, rest, htop, -⟩ := h.threads
  exact ⟨_, List.mem_of_getElem? htop, List.mem_cons_self⟩

theorem Turned.ran (h : Turned exec input op p p') (hrunning : p'.Running op') :
    op' ∈ (exec op input p.shared).2 ∨ p.Running op' := by
  obtain ⟨i, rest, htop, hset⟩ := h.threads
  obtain ⟨stack, hstack, hop⟩ := hrunning
  rw [hset] at hstack
  rcases List.mem_or_eq_of_mem_set hstack with hold | rfl
  · exact .inr ⟨stack, hold, hop⟩
  · rcases List.mem_append.mp hop with hnew | hrest
    · exact .inl hnew
    · exact .inr ⟨_, List.mem_of_getElem? htop, List.mem_cons_of_mem _ hrest⟩

theorem Turned.total (h : Turned exec input op p p') (m : Op → Nat) :
    p'.total m + m op = p.total m + weight m (exec op input p.shared).2 := by
  obtain ⟨i, rest, htop, hset⟩ := h.threads
  unfold Pool.total
  rw [hset]
  clear hset
  generalize p.threads = threads at htop
  induction threads generalizing i with
  | nil => cases htop
  | cons stack threads ih =>
    cases i with
    | zero =>
      obtain rfl : stack = op :: rest := Option.some.inj htop
      simp only [List.set_cons_zero, List.map_cons, List.sum_cons, weight_append, weight_cons]
      omega
    | succ i =>
      have hrest := ih i htop
      simp only [List.set_cons_succ, List.map_cons, List.sum_cons]
      omega

/-- a weight that some operation carries is still carried, unless what it stood for has happened -/
theorem Turned.carried (h : Turned exec input op p p') {P Q : Prop}
    (hstep : m op ≤ weight m (exec op input p.shared).2 ∨ Q) (hkept : P → Q)
    (hbefore : P ∨ 1 ≤ p.total m) : Q ∨ 1 ≤ p'.total m := by
  rcases hbefore with hp | hcarried
  · exact .inl (hkept hp)
  · rcases hstep with hle | hq
    · have htotal := h.total m
      exact .inr (by omega)
    · exact .inl hq

theorem running_spawn (h : (p.spawn [op]).Running op') : op' = op ∨ p.Running op' := by
  obtain ⟨stack, hstack, hop⟩ := h
  rcases List.mem_append.mp hstack with hold | hnew
  · exact .inr ⟨stack, hold, hop⟩
  · rw [List.mem_singleton.mp hnew] at hop
    exact .inl (List.mem_singleton.mp hop)

theorem total_spawn (m : Op → Nat) (p : Pool σ Op) (op : Op) :
    (p.spawn [op]).total m = p.total m + m op := by
  unfold Pool.total spawn
  dsimp only
  rw [List.map_append, List.sum_append, List.map_singleton, List.sum_singleton, weight_cons,
    weight_nil, Nat.add_zero]

theorem total_spawn_zero (h : m op = 0) : (p.spawn [op]).total m = p.total m := by
  rw [total_spawn, h, Nat.add_zero]

theorem le_total_spawn (m : Op → Nat) (p : Pool σ Op) (op : Op) : p.total m ≤ (p.spawn [op]).total m :=
  Nat.le.intro (total_spawn m p op).symm

theorem total_quiet (h : p.Quiet) : p.total m = 0 := by
  refine List.sum_eq_zero fun n hn => ?_
  obtain ⟨stack, hstack, rfl⟩ := List.mem_map.mp hn
  rw [h stack hstack, weight_nil]

theorem total_le {m' : Op → Nat} (hle : ∀ op, m op ≤ m' op) (p : Pool σ Op) :
    p.total m ≤ p.total m' :=
  List.sum_le_sum fun _ _ => List.sum_le_sum fun op _ => hle op

end

/-! ## runs -/

variable {Call : Type}

/-- a call begins, or a thread takes a step -/
inductive Move (Call Input : Type) where
  | call (call : Call)
  | turn (thread : Nat) (input : Input)

def move (exec : Op → Input → σ → σ × List Op) (start : Call → Op) (p : Pool σ Op) :
    Move Call Input → Pool σ Op
  | .call call => p.spawn [start call]
  | .turn thread input => p.step exec thread input

def run (exec : Op → Input → σ → σ × List Op) (start : Call → Op) (p : Pool σ Op)
    (moves : List (Move Call Input)) : Pool σ Op := moves.foldl (move exec start) p

variable {start : Call → Op} {P Q : Pool σ Op → Prop}

theorem run_keeps (hcall : ∀ p call, P p → P (p.spawn [start call]))
    (hturn : ∀ p p' op input, Turned exec input op p p' → P p → P p') {p : Pool σ Op} (h : P p)
    (moves : List (Move Call Input)) : P (run exec start p moves) := by
  induction moves generalizing p with
  | nil => exact h
  | cons move moves ih =>
    refine ih ?_
    cases move with
    | call call => exact hcall p call h
    | turn thread input =>
      show P (p.step exec thread input)
      rcases step_turned exec p thread input with hsame | ⟨op, hturned⟩
      · rw [hsame]
        exact h
      · exact hturn p _ op input hturned h

theorem run_append (exec : Op → Input → σ → σ × List Op) (p : Pool σ Op)
    (moves moves' : List (Move Call Input)) :
    run exec start p (moves ++ moves') = run exec start (run exec start p moves) moves' :=
  List.foldl_append

/-- what a call brings about, and every call and every turn keeps, holds at the end of a run in which
the call is made -/
theorem run_called (hcall : ∀ p call, P p → P (p.spawn [start call]))
    (hturn : ∀ p p' op input, Turned exec input op p p' → P p → P p')
    (hcall' : ∀ p call, P p → Q p → Q (p.spawn [start call]))
    (hturn' : ∀ p p' op input, Turned exec input op p p' → P p → Q p → Q p')
    {p : Pool σ Op} (h : P p) {moves : List (Move Call Input)} {call : Call}
    (hmade : ∀ p, P p → Q (p.spawn [start call])) (hmem : .call call ∈ moves) :
    Q (run exec start p moves) := by
  obtain ⟨before, after, rfl⟩ := List.append_of_mem hmem
  have hbefore : P (run exec start p before) := run_keeps hcall hturn h before
  rw [run_append]
  have hboth : P ((run exec start p before).spawn [start call]) ∧
      Q ((run exec start p before).spawn [start call]) := ⟨hcall _ _ hbefore, hmade _ hbefore⟩
  exact (run_keeps (P := fun p => P p ∧ Q p) (fun p c hp => ⟨hcall p c hp.1, hcall' p c hp.1 hp.2⟩)
    (fun p p' op input ht hp => ⟨hturn p p' op input ht hp.1, hturn' p p' op input ht hp.1 hp.2⟩)
    hboth after).2

end Pool

end Sinan.Lib
