/-!
# Text and machine integers

The two built-in things every validator of the workspace leans on: `str::trim().is_empty()` on
identifiers and free text, and the checked arithmetic of `i64` and `u64`.  Timestamps are kept as
`Int` and counters as `Nat`; the bounds of the machine type enter only where the source calls a
`checked_*` operation.
-/

namespace Sinan

/-! ## text -/

/-- the Unicode property `White_Space`, which is what `str::trim` strips -/
def isWhiteSpace (c : Char) : Bool :=
  (9 ≤ c.toNat && c.toNat ≤ 13) || c.toNat == 32 || c.toNat == 0x85 || c.toNat == 0xA0 ||
  c.toNat == 0x1680 || (0x2000 ≤ c.toNat && c.toNat ≤ 0x200A) || c.toNat == 0x2028 ||
  c.toNat == 0x2029 || c.toNat == 0x202F || c.toNat == 0x205F || c.toNat == 0x3000

/-- `s.trim().is_empty()` -/
def blank (s : String) : Bool := s.toList.all isWhiteSpace

/-- `s.is_some_and(|s| s.trim().is_empty())` -/
def blankOpt : Option String → Bool
  | some s => blank s
  | none => false

/-! ## machine integers -/

def i64Min : Int := -9223372036854775808
def i64Max : Int := 9223372036854775807
def u32Max : Nat := 4294967295
def u64Max : Nat := 18446744073709551615

/-- `i64::checked_add` -/
def checkedAdd (a b : Int) : Option Int :=
  if i64Min ≤ a + b ∧ a + b ≤ i64Max then some (a + b) else none

/-- `i64::checked_sub` -/
def checkedSub (a b : Int) : Option Int :=
  if i64Min ≤ a - b ∧ a - b ≤ i64Max then some (a - b) else none

/-- the closest `i64` -/
def saturate (n : Int) : Int := max i64Min (min i64Max n)

/-- `i64::saturating_add` -/
def saturatingAdd (a b : Int) : Int := saturate (a + b)

/-- `i64::saturating_sub` -/
def saturatingSub (a b : Int) : Int := saturate (a - b)

/-- `u64::checked_add(1)` -/
def checkedSucc (n : Nat) : Option Nat := if n < u64Max then some (n + 1) else none

/-- `u32::checked_add(1)` -/
def checkedSuccU32 (n : Nat) : Option Nat := if n < u32Max then some (n + 1) else none

theorem checkedAdd_some {a b c : Int} (h : checkedAdd a b = some c) : c = a + b := by
  unfold checkedAdd at h
  split at h
  · exact (Option.some.inj h).symm
  · exact absurd h (by simp)

theorem saturate_mono {a b : Int} (h : a ≤ b) : saturate a ≤ saturate b := by
  unfold saturate
  omega

theorem checkedSucc_some {n m : Nat} (h : checkedSucc n = some m) : m = n + 1 ∧ n < u64Max := by
  unfold checkedSucc at h
  split at h
  · exact ⟨(Option.some.inj h).symm, by assumption⟩
  · exact absurd h (by simp)

theorem checkedSucc_none {n : Nat} (h : checkedSucc n = none) : ¬ n < u64Max := by
  unfold checkedSucc at h
  split at h
  · exact absurd h (by simp)
  · assumption

end Sinan
