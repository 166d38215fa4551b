import Mathlib.Algebra.Group.Nat.Defs
import Mathlib.Data.List.Basic

/-!
# Streams that bind what they were written from

A value is written to a stream, and something of it, its key, is known besides.  `Binds` says that the
key and the stream determine the value and where it ends, whatever stands behind.  Streams of parts
that bind can be written one after another; a list binds when the keys of its elements are known.
-/

namespace Sinan.Lib

variable {α β κ γ : Type}

/-- the key and the stream determine the value and the rest of the stream -/
def Binds (key : α → κ) (write : α → List γ) : Prop :=
  ∀ x y u v, key x = key y → write x ++ u = write y ++ v → x = y ∧ u = v

theorem Binds.list {key : α → κ} {write : α → List γ} (h : Binds key write) :
    Binds (List.map key) (List.flatMap write) := by
  intro xs ys u v hkeys hwrite
  induction xs generalizing ys with
  | nil =>
    cases List.map_eq_nil_iff.mp hkeys.symm
    exact ⟨rfl, hwrite⟩
  | cons x xs ih =>
    cases ys with
    | nil => cases hkeys
    | cons y ys =>
      obtain ⟨hkey, hrest⟩ := List.cons.inj hkeys
      rw [List.flatMap_cons, List.flatMap_cons, List.append_assoc, List.append_assoc] at hwrite
      obtain ⟨rfl, htail⟩ := h x y _ _ hkey hwrite
      obtain ⟨rfl, hend⟩ := ih ys hrest htail
      exact ⟨rfl, hend⟩

theorem Binds.option {key : α → κ} {write : α → List γ} (h : Binds key write) :
    Binds (Option.map key) (fun x => (x.map write).getD []) := by
  rintro (_ | x) (_ | y) u v hkeys hwrite
  · exact ⟨rfl, hwrite⟩
  · cases hkeys
  · cases hkeys
  · obtain ⟨rfl, hend⟩ := h x y u v (Option.some.inj hkeys) hwrite
    exact ⟨rfl, hend⟩

/-! ## big-endian numbers -/

/-- the last `k` bytes of a number, highest first -/
def bigEndian : Nat → Nat → List UInt8
  | 0, _ => []
  | k + 1, n => bigEndian k (n / 256) ++ [UInt8.ofNat n]

theorem length_bigEndian (k n : Nat) : (bigEndian k n).length = k := by
  induction k generalizing n with
  | zero => rfl
  | succ k ih => rw [bigEndian, List.length_append, ih, List.length_singleton]

theorem bigEndian_inj {k m n : Nat} (hm : m < 256 ^ k) (hn : n < 256 ^ k)
    (h : bigEndian k m = bigEndian k n) : m = n := by
  induction k generalizing m n with
  | zero =>
    rw [Nat.pow_zero] at hm hn
    omega
  | succ k ih =>
    obtain ⟨hhigh, hlow⟩ := List.append_inj h
      (by rw [length_bigEndian, length_bigEndian])
    have hbyte : m % 256 = n % 256 := by
      have htoNat := congrArg UInt8.toNat (List.cons.inj hlow).1
      rw [UInt8.toNat_ofNat', UInt8.toNat_ofNat'] at htoNat
      exact htoNat
    rw [Nat.pow_succ] at hm hn
    have hdiv : m / 256 = n / 256 := ih (by omega) (by omega) hhigh
    omega

theorem bigEndian_append_inj {k m n : Nat} (hm : m < 256 ^ k) (hn : n < 256 ^ k) {u v : List UInt8} :
    bigEndian k m ++ u = bigEndian k n ++ v ↔ m = n ∧ u = v := by
  constructor
  · intro h
    obtain ⟨hhead, htail⟩ := List.append_inj h (by rw [length_bigEndian, length_bigEndian])
    exact ⟨bigEndian_inj hm hn hhead, htail⟩
  · rintro ⟨rfl, rfl⟩
    rfl

end Sinan.Lib
