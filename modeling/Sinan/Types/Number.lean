import Mathlib.Data.Rat.Floor
import Sinan.Types.Basic

/-!
# Numbers

Prices, lots and percentages are `f64` in the source.  The data model is generic in the type `F` of
these numbers: `F64 F` lists the operations of `f64` that the source calls, and every validator is
written over it.  `ℚ` is the instance in which all of them are exact; `rust_decimal::Decimal` is `ℚ`
throughout, with the two conversions between `Decimal` and `f64` part of the class.
-/

namespace Sinan

/-- the operations of `f64` that the source uses -/
class F64 (F : Type) where
  /-- an `i64` converted `as f64`; the integral literals are of this form -/
  ofInt : Int → F
  /-- `f64::EPSILON` -/
  epsilon : F
  add : F → F → F
  sub : F → F → F
  mul : F → F → F
  div : F → F → F
  abs : F → F
  max : F → F → F
  /-- `f64::round`: half away from zero -/
  round : F → F
  lt : F → F → Bool
  le : F → F → Bool
  /-- the `==` of `f64` -/
  eq : F → F → Bool
  isFinite : F → Bool
  isSignNegative : F → Bool
  /-- `a.to_bits().abs_diff(b.to_bits())` -/
  bitDistance : F → F → Nat
  /-- `value as i64` -/
  toI64 : F → Int
  /-- the digits of `format!("{value:.digits$}")`, the sign first -/
  fixed : F → Nat → String
  /-- `str::parse::<f64>` -/
  parse : String → Option F
  /-- the `Decimal` of a finite number, if it has one -/
  toDecimal : F → Option ℚ
  /-- `Decimal::to_f64` -/
  ofDecimal : ℚ → Option F

namespace F64

variable {F : Type} [F64 F]

def zero : F := ofInt 0

/-- `a.to_bits() == b.to_bits()` -/
def sameBits (a b : F) : Bool := bitDistance a b == 0

/-- `value > 0.0` -/
def positive (a : F) : Bool := lt zero a

end F64

/-! ## exact numbers

In `ℚ` every operation is the mathematical one, every value is finite and two values have the same
bits only when they are equal; distinct values are out of reach of any tolerance that counts units in
the last place. -/

/-- half away from zero -/
def roundHalfAway (q : ℚ) : Int := if 0 ≤ q then ⌊q + 1 / 2⌋ else -⌊-q + 1 / 2⌋

/-- to the nearest integer, half to even: the rounding of `{:.digits$}` -/
def roundHalfEven (q : ℚ) : Int :=
  if q - ⌊q⌋ < 1 / 2 ∨ (q - ⌊q⌋ = 1 / 2 ∧ ⌊q⌋ % 2 = 0) then ⌊q⌋ else ⌊q⌋ + 1

/-- a decimal digit -/
def digitChar (n : Nat) : Char := Char.ofNat (48 + n % 10)

/-- the last `d` decimal digits of `n` -/
def lastDigits (n : Nat) : Nat → List Char
  | 0 => []
  | d + 1 => lastDigits (n / 10) d ++ [digitChar n]

/-- all decimal digits of `n`, at least one; `fuel` bounds their number -/
def allDigits : Nat → Nat → List Char
  | 0, n => [digitChar n]
  | fuel + 1, n => if n < 10 then [digitChar n] else allDigits fuel (n / 10) ++ [digitChar n]

/-- the number of units of `10 ^ -d` nearest to `q`, without its sign -/
def fixedUnits (q : ℚ) (d : Nat) : Nat := (roundHalfEven (|q| * 10 ^ d)).toNat

def fixedChars (q : ℚ) (d : Nat) : List Char :=
  let units := fixedUnits q d
  (if q < 0 then ['-'] else []) ++ allDigits units (units / 10 ^ d) ++
    (if d = 0 then [] else '.' :: lastDigits units d)

def digitValue (c : Char) : Option Nat :=
  if 48 ≤ c.toNat ∧ c.toNat ≤ 57 then some (c.toNat - 48) else none

/-- the number a list of digits stands for, continued from `acc` -/
def digitsValue (acc : Nat) : List Char → Option Nat
  | [] => some acc
  | c :: cs => match digitValue c with
    | none => none
    | some v => digitsValue (acc * 10 + v) cs

/-- an unsigned decimal: digits, and after a point more digits -/
def parseUnsigned (cs : List Char) : Option ℚ :=
  let whole := cs.takeWhile (· ≠ '.')
  let rest := cs.dropWhile (· ≠ '.')
  match whole, rest with
  | [], _ => none
  | _, [] => (digitsValue 0 whole).map fun n => (n : ℚ)
  | _, _ :: fraction => (digitsValue 0 (whole ++ fraction)).map fun n => (n : ℚ) / 10 ^ fraction.length

def parseDecimal (s : String) : Option ℚ :=
  match s.toList with
  | '-' :: cs => (parseUnsigned cs).map (- ·)
  | cs => parseUnsigned cs

instance : F64 ℚ where
  ofInt n := n
  epsilon := 1 / 2 ^ 52
  add := (· + ·)
  sub := (· - ·)
  mul := (· * ·)
  div := (· / ·)
  abs := fun q => |q|
  max := max
  round q := roundHalfAway q
  lt a b := decide (a < b)
  le a b := decide (a ≤ b)
  eq a b := decide (a = b)
  isFinite _ := true
  isSignNegative q := decide (q < 0)
  bitDistance a b := if a = b then 0 else 256
  toI64 q := max i64Min (min i64Max (Int.tdiv q.num q.den))
  fixed q d := String.ofList (fixedChars q d)
  parse := parseDecimal
  toDecimal := some
  ofDecimal := some

end Sinan
