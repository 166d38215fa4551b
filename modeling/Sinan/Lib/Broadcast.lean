import Mathlib.Data.List.Basic

/-!
# A bounded broadcast channel

One sender side, any number of receivers.  Every value goes into a ring of `capacity` slots; a
receiver keeps the position of the value it waits for.  It gets the values in the order they were
sent, and when the ring has overwritten its position it is told how many it lost.

The channel is the list of all values ever sent, so a position is an index into that list, and the
ring is the last `capacity` of them.
-/

namespace Sinan.Lib

/-- the sending side -/
structure Broadcast (α : Type) where
  capacity : Nat
  sent : List α
  /-- every sender has been dropped -/
  closed : Bool
  deriving DecidableEq

/-- what a receiver is answered -/
inductive Received (α : Type) where
  | value (a : α)
  | lagged (skipped : Nat)
  | closed
  deriving DecidableEq

variable {α : Type}

def Broadcast.new (capacity : Nat) : Broadcast α := { capacity, sent := [], closed := false }

def Broadcast.send (c : Broadcast α) (a : α) : Broadcast α := { c with sent := c.sent ++ [a] }

/-- where a new receiver starts: it sees what is sent from now on -/
def Broadcast.subscribe (c : Broadcast α) : Nat := c.sent.length

/-- One attempt to receive at a position: the answer and the next position, or nothing while there
is nothing to receive. -/
def Broadcast.recv (c : Broadcast α) (position : Nat) : Option (Received α × Nat) :=
  if position + c.capacity < c.sent.length then
    -- the ring has overwritten the position, and the receiver moves to its oldest value
    some (.lagged (c.sent.length - c.capacity - position), c.sent.length - c.capacity)
  else match c.sent[position]? with
    | some a => some (.value a, position + 1)
    | none => if c.closed then some (.closed, position) else none

theorem Broadcast.recv_value {c : Broadcast α} {position next : Nat} {a : α}
    (h : c.recv position = some (.value a, next)) :
    c.sent[position]? = some a ∧ next = position + 1 := by
  unfold Broadcast.recv at h
  split at h
  · exact (nomatch h)
  · split at h
    case h_1 b hb =>
      obtain ⟨hvalue, hnext⟩ := Prod.mk.inj (Option.some.inj h)
      rw [← Received.value.inj hvalue]
      exact ⟨hb, hnext.symm⟩
    case h_2 =>
      split at h
      · exact (nomatch h)
      · exact (nomatch h)

theorem Broadcast.recv_moves {c : Broadcast α} {position next : Nat} {answer : Received α}
    (h : c.recv position = some (answer, next)) (hposition : position ≤ c.sent.length) :
    position ≤ next ∧ next ≤ c.sent.length := by
  unfold Broadcast.recv at h
  split at h
  case isTrue hover =>
    obtain ⟨-, rfl⟩ := Prod.mk.inj (Option.some.inj h)
    omega
  case isFalse =>
    split at h
    case h_1 a ha =>
      obtain ⟨-, rfl⟩ := Prod.mk.inj (Option.some.inj h)
      obtain ⟨hlt, -⟩ := List.getElem?_eq_some_iff.mp ha
      omega
    case h_2 =>
      split at h
      · obtain ⟨-, rfl⟩ := Prod.mk.inj (Option.some.inj h)
        omega
      · exact (nomatch h)

theorem drop_of_getElem {xs : List α} {k : Nat} {a : α} (h : xs[k]? = some a) :
    xs.drop k = a :: xs.drop (k + 1) := by
  obtain ⟨hk, ha⟩ := List.getElem?_eq_some_iff.mp h
  rw [List.drop_eq_getElem_cons hk, ha]

end Sinan.Lib
