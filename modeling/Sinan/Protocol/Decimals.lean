import Mathlib.Tactic.IntervalCases
import Sinan.Protocol.Signing

/-!
# Fixed decimals

Over exact numbers a fixed decimal reads back as the value it was written from exactly when that
value has no more decimals than are written.  With that, the checks of the signer say which numbers a
command can carry.
-/

namespace Sinan.Protocol

open Lib

/-! ## digits -/

theorem digitChar_toNat (n : Nat) : (digitChar n).toNat = 48 + n % 10 := by
  have hlt : n % 10 < 10 := Nat.mod_lt n (by omega)
  unfold digitChar
  generalize n % 10 = k at hlt ⊢
  interval_cases k <;> rfl

theorem digitValue_digitChar (n : Nat) : digitValue (digitChar n) = some (n % 10) := by
  have hlt : n % 10 < 10 := Nat.mod_lt n (by omega)
  unfold digitValue
  rw [digitChar_toNat, if_pos (by omega)]
  congr 1
  omega

theorem digitChar_ne_point (n : Nat) : digitChar n ≠ '.' := by
  intro h
  have htoNat := congrArg Char.toNat h
  rw [digitChar_toNat] at htoNat
  have hpoint : ('.' : Char).toNat = 46 := rfl
  omega

theorem digitsValue_append (cs ds : List Char) (acc : Nat) :
    digitsValue acc (cs ++ ds) = (digitsValue acc cs).bind fun n => digitsValue n ds := by
  induction cs generalizing acc with
  | nil => rfl
  | cons c cs ih =>
    simp only [List.cons_append, digitsValue]
    cases digitValue c with
    | none => rfl
    | some v => exact ih _

theorem digitsValue_digit (acc n : Nat) :
    digitsValue acc [digitChar n] = some (acc * 10 + n % 10) := by
  simp only [digitsValue, digitValue_digitChar]

theorem digitsValue_lastDigits (n d acc : Nat) :
    digitsValue acc (lastDigits n d) = some (acc * 10 ^ d + n % 10 ^ d) := by
  induction d generalizing n with
  | zero =>
    show some acc = _
    rw [pow_zero, mul_one, Nat.mod_one, add_zero]
  | succ d ih =>
    unfold lastDigits
    rw [digitsValue_append, ih, Option.bind_some, digitsValue_digit]
    congr 1
    have hsplit : n % 10 ^ (d + 1) = n % 10 + 10 * (n / 10 % 10 ^ d) := by
      rw [pow_succ, mul_comm, Nat.mod_mul]
    rw [hsplit, pow_succ]
    ring

theorem digitsValue_allDigits (fuel n : Nat) (h : n ≤ fuel) :
    digitsValue 0 (allDigits fuel n) = some n := by
  induction fuel generalizing n with
  | zero =>
    have hzero : n = 0 := by omega
    subst hzero
    rfl
  | succ fuel ih =>
    unfold allDigits
    by_cases hn : n < 10
    · rw [if_pos hn, digitsValue_digit]
      congr 1
      omega
    · rw [if_neg hn, digitsValue_append, ih (n / 10) (by omega), Option.bind_some,
        digitsValue_digit]
      congr 1
      omega

theorem allDigits_ne_nil (fuel n : Nat) : allDigits fuel n ≠ [] := by
  cases fuel with
  | zero => exact List.cons_ne_nil _ _
  | succ fuel =>
    unfold allDigits
    by_cases hn : n < 10
    · rw [if_pos hn]
      exact List.cons_ne_nil _ _
    · rw [if_neg hn]
      exact List.append_ne_nil_of_right_ne_nil _ (List.cons_ne_nil _ _)

theorem allDigits_digit (fuel n : Nat) : ∀ c ∈ allDigits fuel n, ∃ k, c = digitChar k := by
  induction fuel generalizing n with
  | zero =>
    intro c hc
    exact ⟨n, List.mem_singleton.mp hc⟩
  | succ fuel ih =>
    intro c hc
    unfold allDigits at hc
    by_cases hn : n < 10
    · rw [if_pos hn] at hc
      exact ⟨n, List.mem_singleton.mp hc⟩
    · rw [if_neg hn] at hc
      rcases List.mem_append.mp hc with hc | hc
      · exact ih _ c hc
      · exact ⟨n, List.mem_singleton.mp hc⟩

theorem lastDigits_length (n d : Nat) : (lastDigits n d).length = d := by
  induction d generalizing n with
  | zero => rfl
  | succ d ih =>
    unfold lastDigits
    rw [List.length_append, ih]
    rfl

/-! ## reading back -/

/-- the characters after the sign -/
def fixedDigits (units d : Nat) : List Char :=
  allDigits units (units / 10 ^ d) ++ (if d = 0 then [] else '.' :: lastDigits units d)

theorem parseUnsigned_fixed (units d : Nat) :
    parseUnsigned (fixedDigits units d) = some ((units : ℚ) / 10 ^ d) := by
  have hwhole := digitsValue_allDigits units (units / 10 ^ d) (Nat.div_le_self _ _)
  have hdigit : ∀ c ∈ allDigits units (units / 10 ^ d), decide (c ≠ '.') = true := by
    intro c hc
    obtain ⟨k, rfl⟩ := allDigits_digit _ _ c hc
    exact decide_eq_true (digitChar_ne_point k)
  have hne := allDigits_ne_nil units (units / 10 ^ d)
  have htake : (fixedDigits units d).takeWhile (fun c => decide (c ≠ '.')) =
      allDigits units (units / 10 ^ d) := by
    unfold fixedDigits
    rw [List.takeWhile_append_of_pos hdigit]
    by_cases hd : d = 0
    · simp [hd]
    · simp [hd]
  have hdrop : (fixedDigits units d).dropWhile (fun c => decide (c ≠ '.')) =
      if d = 0 then [] else '.' :: lastDigits units d := by
    unfold fixedDigits
    rw [List.dropWhile_append_of_pos hdigit]
    by_cases hd : d = 0
    · simp [hd]
    · simp [hd]
  have hall : digitsValue 0 (allDigits units (units / 10 ^ d) ++ lastDigits units d) = some units := by
    rw [digitsValue_append, hwhole, Option.bind_some, digitsValue_lastDigits, mul_comm,
      Nat.div_add_mod]
  unfold parseUnsigned
  simp only [htake, hdrop]
  cases hcs : allDigits units (units / 10 ^ d) with
  | nil => exact absurd hcs hne
  | cons c cs =>
    rw [hcs] at hwhole hall
    by_cases hd : d = 0
    · subst hd
      rw [pow_zero, Nat.div_one] at hwhole
      simp [hwhole]
    · rw [if_neg hd]
      rw [List.cons_append] at hall
      simp [hall, lastDigits_length]

theorem parse_fixed (q : ℚ) (d : Nat) :
    parseDecimal (String.ofList (fixedChars q d)) =
      some (if q < 0 then -((fixedUnits q d : ℚ) / 10 ^ d) else (fixedUnits q d : ℚ) / 10 ^ d) := by
  have hchars : fixedChars q d =
      (if q < 0 then ['-'] else []) ++ fixedDigits (fixedUnits q d) d := by
    unfold fixedChars fixedDigits
    rw [List.append_assoc]
  unfold parseDecimal
  rw [String.toList_ofList, hchars]
  by_cases hq : q < 0
  · rw [if_pos hq, if_pos hq]
    show (parseUnsigned (fixedDigits _ _)).map _ = _
    rw [parseUnsigned_fixed, Option.map_some]
  · rw [if_neg hq, if_neg hq, List.nil_append]
    have hparse := parseUnsigned_fixed (fixedUnits q d) d
    -- an unsigned decimal starts with a digit
    have hhead : ∀ cs, fixedDigits (fixedUnits q d) d ≠ '-' :: cs := by
      intro cs hcs
      cases hall : allDigits (fixedUnits q d) (fixedUnits q d / 10 ^ d) with
      | nil => exact allDigits_ne_nil _ _ hall
      | cons c rest =>
        obtain ⟨k, hk⟩ := allDigits_digit _ _ c (by rw [hall]; exact List.mem_cons_self)
        unfold fixedDigits at hcs
        rw [hall, List.cons_append] at hcs
        have hminus : digitChar k = '-' := by rw [← hk]; exact (List.cons.inj hcs).1
        have htoNat := congrArg Char.toNat hminus
        rw [digitChar_toNat] at htoNat
        have hcode : ('-' : Char).toNat = 45 := rfl
        omega
    split
    · next cs hcs => exact absurd hcs (hhead cs)
    · exact hparse

/-! ## exact decimals -/

theorem roundHalfEven_int (n : Int) : roundHalfEven (n : ℚ) = n := by
  unfold roundHalfEven
  rw [Int.floor_intCast, sub_self, if_pos (.inl (by norm_num))]

theorem roundHalfAway_int (n : Int) : roundHalfAway (n : ℚ) = n := by
  unfold roundHalfAway
  have hhalf : ∀ m : Int, ⌊(m : ℚ) + 1 / 2⌋ = m := by
    intro m
    rw [Int.floor_eq_iff]
    constructor <;> linarith
  by_cases hn : (0 : ℚ) ≤ n
  · rw [if_pos hn, hhalf]
  · rw [if_neg hn]
    have hneg : (-(n : ℚ)) = ((-n : Int) : ℚ) := by push_cast; rfl
    rw [hneg, hhalf]
    omega

/-- at most `d` decimals, and few enough units of the last one to be an exact integer -/
structure FixedDecimal (q : ℚ) (d : Nat) : Prop where
  exact : ∃ n : Int, q * 10 ^ d = n
  bounded : |q| * 10 ^ d ≤ maxSafeScaledInteger

variable {q : ℚ} {d : Nat}

theorem FixedDecimal.reads_back (h : FixedDecimal q d) :
    parseDecimal (String.ofList (fixedChars q d)) = some q := by
  obtain ⟨n, hn⟩ := h.exact
  have hpow : (0 : ℚ) < 10 ^ d := by positivity
  have habs : |q| * 10 ^ d = ((n.natAbs : Int) : ℚ) := by
    rw [← abs_of_pos hpow, ← abs_mul, hn, ← Int.cast_abs, Int.abs_eq_natAbs]
  have hunits : fixedUnits q d = n.natAbs := by
    unfold fixedUnits
    rw [habs, roundHalfEven_int, Int.toNat_natCast]
  rw [parse_fixed, hunits]
  congr 1
  have hvalue : (n.natAbs : ℚ) / 10 ^ d = |q| := by
    rw [div_eq_iff hpow.ne', habs, Int.cast_natCast]
  rw [hvalue]
  by_cases hq : q < 0
  · rw [if_pos hq, abs_of_neg hq, neg_neg]
  · rw [if_neg hq, abs_of_nonneg (not_lt.mp hq)]

/-! ## the checks of the signer -/

variable {field : String}

theorem toI64_int {n : Int} (h : |(n : ℚ)| ≤ maxSafeScaledInteger) : F64.toI64 (n : ℚ) = n := by
  have hbound : |n| ≤ maxSafeScaledInteger := by exact_mod_cast h
  rw [abs_le] at hbound
  show max i64Min (min i64Max (Int.tdiv (n : ℚ).num (n : ℚ).den)) = n
  have hdiv : Int.tdiv (n : ℚ).num (n : ℚ).den = n := by
    rw [Rat.num_intCast, Rat.den_intCast]
    exact Int.tdiv_one n
  rw [hdiv]
  unfold maxSafeScaledInteger at hbound
  unfold i64Min i64Max
  omega

theorem scaledInteger_exact {n : Int} (hd : d ≤ maxDecimalDigits) (hn : q * 10 ^ d = n)
    (hbound : |q| * 10 ^ d ≤ maxSafeScaledInteger) :
    scaledInteger q d field = .ok n := by
  have hscaled : q * ((10 ^ d : Int) : ℚ) = n := by
    push_cast
    exact hn
  have habs : |(n : ℚ)| ≤ maxSafeScaledInteger := by
    rw [← hn, abs_mul, abs_of_pos (by positivity : (0 : ℚ) < 10 ^ d)]
    exact hbound
  have htolerance : ¬ scaledTolerance (n : ℚ) < |(n : ℚ) - ((roundHalfAway n : Int) : ℚ)| := by
    rw [roundHalfAway_int, sub_self, abs_zero, not_lt]
    show (0 : ℚ) ≤ 1 / 2 ^ 52 * max |(n : ℚ)| ((1 : Int) : ℚ) * ((8 : Int) : ℚ)
    positivity
  have hround : F64.toI64 (((roundHalfAway (n : ℚ) : Int)) : ℚ) = n := by
    rw [roundHalfAway_int]
    exact toI64_int habs
  simp only [scaledInteger, decimalScale, validatePrecision, bind_ok, exists_unit, reject_ok,
    pure_ok]
  refine ⟨Bool.noConfusion, 10 ^ d, ⟨not_lt.mpr hd, rfl⟩, ?_, ?_, ?_⟩
  · rintro (hinfinite | hlarge)
    · exact Bool.noConfusion hinfinite
    · have hlt : ((maxSafeScaledInteger : Int) : ℚ) < |q * ((10 ^ d : Int) : ℚ)| :=
        of_decide_eq_true hlarge
      rw [hscaled] at hlt
      exact absurd habs (not_le.mpr hlt)
  · intro hlarge
    have hlt : scaledTolerance (q * ((10 ^ d : Int) : ℚ)) <
        |q * ((10 ^ d : Int) : ℚ) - ((roundHalfAway (q * ((10 ^ d : Int) : ℚ)) : Int) : ℚ)| :=
      of_decide_eq_true hlarge
    rw [hscaled] at hlt
    exact htolerance hlt
  · show F64.toI64 (((roundHalfAway (q * ((10 ^ d : Int) : ℚ)) : Int)) : ℚ) = n
    rw [hscaled]
    exact hround

theorem validateFixedDecimalRoundTrip_exact (hd : d ≤ maxDecimalDigits) (h : FixedDecimal q d) :
    validateFixedDecimalRoundTrip q d field = .ok () := by
  obtain ⟨n, hn⟩ := h.exact
  have hscaled : scaledInteger q d field = .ok n := scaledInteger_exact hd hn h.bounded
  simp only [validateFixedDecimalRoundTrip, formatFixedDecimal, validatePrecision, bind_ok,
    exists_unit, reject_ok, pure_ok, need_ok]
  refine ⟨n, hscaled, _, ⟨Bool.noConfusion, not_lt.mpr hd, rfl⟩, q, h.reads_back, ?_⟩
  show ¬ ((if q = q then 0 else 256) == 0) = false
  rw [if_pos rfl]
  exact Bool.noConfusion

theorem scaledInteger_bounded {n : Int} (h : scaledInteger q d field = .ok n) :
    |q| * 10 ^ d ≤ maxSafeScaledInteger := by
  simp only [scaledInteger, decimalScale, bind_ok, exists_unit, reject_ok, pure_ok, not_or] at h
  obtain ⟨-, scale, ⟨-, rfl⟩, ⟨-, hbound⟩, -⟩ := h
  have hle : ¬ ((maxSafeScaledInteger : Int) : ℚ) < |q * ((10 ^ d : Int) : ℚ)| :=
    fun hlt => hbound (decide_eq_true hlt)
  rw [abs_mul] at hle
  push_cast at hle
  rw [abs_of_pos (by positivity : (0 : ℚ) < 10 ^ d)] at hle
  exact not_lt.mp hle

theorem validateFixedDecimalRoundTrip_ok (h : validateFixedDecimalRoundTrip q d field = .ok ()) :
    FixedDecimal q d := by
  simp only [validateFixedDecimalRoundTrip, formatFixedDecimal, bind_ok, exists_unit, reject_ok,
    pure_ok, need_ok] at h
  obtain ⟨n, hscaled, _, ⟨-, -, rfl⟩, value, hvalue, hsame⟩ := h
  have hback : value = q := by
    by_contra hne
    refine hsame ?_
    show ((if value = q then 0 else 256) == 0) = false
    rw [if_neg hne]
    rfl
  have hread : parseDecimal (String.ofList (fixedChars q d)) = some q := by
    rw [← hback] at hvalue ⊢
    exact hvalue
  rw [parse_fixed, Option.some.injEq] at hread
  have hpow : (10 : ℚ) ^ d ≠ 0 := by positivity
  refine ⟨?_, scaledInteger_bounded hscaled⟩
  by_cases hq : q < 0
  · rw [if_pos hq] at hread
    refine ⟨-(fixedUnits q d : Int), ?_⟩
    nth_rewrite 1 [← hread]
    rw [neg_mul, div_mul_cancel₀ _ hpow]
    push_cast
    rfl
  · rw [if_neg hq] at hread
    refine ⟨(fixedUnits q d : Int), ?_⟩
    nth_rewrite 1 [← hread]
    rw [div_mul_cancel₀ _ hpow]
    push_cast
    rfl

theorem validateFixedDecimalOpt_iff {q : Option ℚ} (hd : d ≤ maxDecimalDigits) :
    validateFixedDecimalOpt q d field = .ok () ↔ ∀ v ∈ q, FixedDecimal v d := by
  cases q with
  | none => exact ⟨fun _ v hv => (nomatch hv), fun _ => rfl⟩
  | some v =>
    constructor
    · intro h w hw
      cases hw
      exact validateFixedDecimalRoundTrip_ok h
    · exact fun h => validateFixedDecimalRoundTrip_exact hd (h v rfl)

/-! ## signing succeeds -/

section
variable {F : Type} [F64 F]

theorem signingParts_total {format : CommandSigningFormat F}
    {fields : List (String × SigningValue F)}
    (h : ∀ fv ∈ fields, ∃ text, signingFieldValue format fv.1 fv.2 = .ok text) :
    ∃ parts, signingParts format fields = .ok parts := by
  induction fields with
  | nil => exact ⟨[], rfl⟩
  | cons fv fields ih =>
    obtain ⟨text, htext⟩ := h fv List.mem_cons_self
    obtain ⟨parts, hparts⟩ := ih fun other hother => h other (List.mem_cons_of_mem fv hother)
    refine ⟨(fv.1 ++ "=" ++ rfc3986Encode text) :: parts, ?_⟩
    simp only [signingParts, bind_ok, pure_ok]
    exact ⟨text, htext, parts, hparts, rfl⟩

theorem fieldValue_text (format : CommandSigningFormat F) (field value : String) :
    ∃ text, signingFieldValue format field (.text value) = .ok text := ⟨value, rfl⟩

theorem fieldValue_integer (format : CommandSigningFormat F) (field : String) (value : Int) :
    ∃ text, signingFieldValue format field (.integer value) = .ok text := ⟨toString value, rfl⟩

theorem fieldValue_ofText (format : CommandSigningFormat F) {field : String}
    (h : field ∈ optionalFields) (value : Option String) :
    ∃ text, signingFieldValue format field (.ofText value) = .ok text := by
  cases value with
  | none => exact ⟨"", if_pos h⟩
  | some value => exact fieldValue_text format field value

theorem fieldValue_ofInteger (format : CommandSigningFormat F) {field : String}
    (h : field ∈ optionalFields) (value : Option Int) :
    ∃ text, signingFieldValue format field (.ofInteger value) = .ok text := by
  cases value with
  | none => exact ⟨"", if_pos h⟩
  | some value => exact fieldValue_integer format field value

end

variable {format : CommandSigningFormat ℚ}

theorem fieldValue_ofNumber (hprice : format.priceDigits ≤ maxDecimalDigits)
    (hvolume : format.volumeDigits ≤ maxDecimalDigits) (h : field ∈ optionalFields)
    (value : Option ℚ) :
    ∃ text, signingFieldValue format field (.ofNumber value) = .ok text := by
  cases value with
  | none => exact ⟨"", if_pos h⟩
  | some value =>
    have hd : (if field = "lots" then format.volumeDigits else format.priceDigits) ≤
        maxDecimalDigits := by
      split
      · exact hvolume
      · exact hprice
    refine ⟨F64.fixed value (if field = "lots" then format.volumeDigits else format.priceDigits), ?_⟩
    show formatFixedDecimal value _ = _
    simp only [formatFixedDecimal, validatePrecision, bind_ok, exists_unit, reject_ok, pure_ok]
    exact ⟨Bool.noConfusion, not_lt.mpr hd, trivial⟩

theorem signingFields_total (hprice : format.priceDigits ≤ maxDecimalDigits)
    (hvolume : format.volumeDigits ≤ maxDecimalDigits) (c : ExecutionCommand ℚ) :
    ∃ parts, signingParts format (signingFields c) = .ok parts := by
  refine signingParts_total ?_
  simp only [signingFields, List.forall_mem_cons, List.not_mem_nil, false_implies, implies_true,
    and_true]
  refine ⟨fieldValue_text _ _ _, ?_, ?_, fieldValue_text _ _ _, fieldValue_text _ _ _, ?_, ?_,
    fieldValue_text _ _ _, ?_, fieldValue_text _ _ _, ?_, ?_, ?_, ?_, ?_, ?_,
    fieldValue_integer _ _ _, ?_, ?_, ?_, ?_, ?_, ?_, fieldValue_integer _ _ _,
    fieldValue_text _ _ _⟩
  all_goals first
    | exact fieldValue_ofText _ (by decide) _
    | exact fieldValue_ofInteger _ (by decide) _
    | exact fieldValue_ofNumber hprice hvolume (by decide) _

/-! ## the volume step -/

variable {units : Int}

theorem volumeStepUnitsFrom_ok {step : ℚ} {ds : List Nat}
    (h : volumeStepUnitsFrom step ds = .ok (d, units)) : d ∈ ds := by
  induction ds with
  | nil => exact (nomatch h)
  | cons digits rest ih =>
    unfold volumeStepUnitsFrom at h
    split at h
    · split at h
      · cases h
        exact List.mem_cons_self
      · exact (nomatch h)
    · exact List.mem_cons_of_mem digits (ih h)
    · exact (nomatch h)

theorem volumeStepUnits_ok {step : ℚ} (h : volumeStepUnits step = .ok (d, units)) :
    d ≤ maxDecimalDigits := by
  simp only [volumeStepUnits, bind_ok, exists_unit] at h
  have hmem := List.mem_range.mp (volumeStepUnitsFrom_ok h.2)
  omega

/-- what a command may carry for a symbol: prices of the symbol's precision, and lots that are whole
units of the volume step as the signer reads it -/
structure Signable (metadata : SymbolMetadataSnapshot ℚ) (lots sl : ℚ) (tp price : Option ℚ) :
    Prop where
  digits : metadata.digits ≤ maxDecimalDigits
  step : ∃ (d : Nat) (units k : Int), volumeStepUnits metadata.volumeStep = .ok (d, units) ∧
    lots * 10 ^ d = ((k * units : Int) : ℚ) ∧ |lots| * 10 ^ d ≤ maxSafeScaledInteger
  sl : FixedDecimal sl metadata.digits
  tp : ∀ v ∈ tp, FixedDecimal v metadata.digits
  price : ∀ v ∈ price, FixedDecimal v metadata.digits

/-- the format of a symbol whose step is read as `units` of `d` decimals -/
def formatOf (metadata : SymbolMetadataSnapshot ℚ) (d : Nat) (units : Int) :
    CommandSigningFormat ℚ where
  priceDigits := metadata.digits
  volumeDigits := d
  volumeStep := some { value := metadata.volumeStep, units := units }

variable {metadata : SymbolMetadataSnapshot ℚ} {c : ExecutionCommand ℚ}

theorem fromSymbolMetadata_read (hdigits : metadata.digits ≤ maxDecimalDigits)
    (hunits : volumeStepUnits metadata.volumeStep = .ok (d, units)) :
    CommandSigningFormat.fromSymbolMetadata metadata = .ok (formatOf metadata d units) := by
  simp only [CommandSigningFormat.fromSymbolMetadata, validatePrecision, bind_ok, exists_unit,
    reject_ok, pure_ok]
  exact ⟨not_lt.mpr hdigits, (d, units), hunits, rfl⟩

theorem validateFiniteNumbers_exact (c : ExecutionCommand ℚ) : validateFiniteNumbers c = .ok () := by
  simp only [validateFiniteNumbers, each_ok, reject_ok]
  intro fv _
  cases fv.2 with
  | none => exact Bool.noConfusion
  | some v => exact Bool.noConfusion

theorem validateActionSpecificFields_opening (haction : c.action = .buy ∨ c.action = .sell)
    (hlots : c.lots.isSome) (htype : c.orderType.isSome)
    (hprice : needsPrice c.orderType = true → c.price.isSome) :
    validateActionSpecificFields c = .ok () := by
  have hbody : (do
      requireActionField (F := ℚ) c.action "lots" c.lots.isSome
      requireActionField c.action "order_type" c.orderType.isSome
      if needsPrice c.orderType then
        requireActionField c.action "price" c.price.isSome
      else .ok ()) = .ok () := by
    simp only [requireActionField, bind_ok, exists_unit, reject_ok, Bool.not_eq_false]
    refine ⟨hlots, htype, ?_⟩
    by_cases hneeds : needsPrice c.orderType = true
    · rw [if_pos hneeds, reject_ok, Bool.not_eq_false]
      exact hprice hneeds
    · rw [if_neg hneeds]
  unfold validateActionSpecificFields
  rcases haction with haction | haction
  all_goals
    rw [haction] at hbody ⊢
    exact hbody

theorem validateLotsAlignment_multiple {lots : ℚ} {k : Int} (hd : d ≤ maxDecimalDigits)
    (hscaled : lots * 10 ^ d = ((k * units : Int) : ℚ))
    (hbound : |lots| * 10 ^ d ≤ maxSafeScaledInteger) :
    validateLotsAlignment (some lots) (formatOf metadata d units) = .ok () := by
  show (scaledInteger lots d "lots" >>= fun lotsUnits => _) = _
  rw [scaledInteger_exact hd hscaled hbound]
  show reject ((k * units) % units ≠ 0) _ = _
  rw [reject_ok, not_not]
  exact Int.mul_emod_left k units

theorem Signable.signs {lots sl : ℚ} {tp price : Option ℚ} (h : Signable metadata lots sl tp price)
    (haction : c.action = .buy ∨ c.action = .sell) (hlots : c.lots = some lots)
    (hsl : c.sl = some sl) (htp : c.tp = tp) (hprice : c.price = price) (htype : c.orderType.isSome)
    (hneeds : needsPrice c.orderType = true → price.isSome) (mac : Mac) (secret : List UInt8) :
    ∃ format hmac, CommandSigningFormat.fromSymbolMetadata metadata = .ok format ∧
      signExecutionCommand mac c secret format = .ok hmac := by
  obtain ⟨d, units, k, hunits, hscaled, hbound⟩ := h.step
  have hd := volumeStepUnits_ok hunits
  have hfixed : FixedDecimal lots d := ⟨⟨k * units, hscaled⟩, hbound⟩
  have hfields : validateActionSpecificFields c = .ok () := by
    refine validateActionSpecificFields_opening haction (by rw [hlots]; rfl) htype ?_
    rw [hprice]
    exact hneeds
  have hnumbers : validateFixedDecimalFields c (formatOf metadata d units) = .ok () := by
    simp only [validateFixedDecimalFields, bind_ok, exists_unit]
    rw [hlots, hsl, htp, hprice]
    exact ⟨validateFixedDecimalRoundTrip_exact hd hfixed,
      (validateFixedDecimalOpt_iff h.digits).mpr h.price,
      validateFixedDecimalRoundTrip_exact h.digits h.sl,
      (validateFixedDecimalOpt_iff h.digits).mpr h.tp⟩
  have hvalid : validateExecutionCommand c (formatOf metadata d units) = .ok () := by
    simp only [validateExecutionCommand, validatePrecision, bind_ok, exists_unit, reject_ok]
    refine ⟨not_lt.mpr h.digits, not_lt.mpr hd, validateFiniteNumbers_exact c, hfields, ?_, hnumbers⟩
    rw [hlots]
    exact validateLotsAlignment_multiple hd hscaled hbound
  have hparts : ∃ parts, signingParts (formatOf metadata d units) (signingFields c) = .ok parts :=
    signingFields_total h.digits hd c
  obtain ⟨parts, hparts⟩ := hparts
  refine ⟨formatOf metadata d units,
    encodeHex (mac.tag secret (utf8Bytes (String.intercalate "&" parts))),
    fromSymbolMetadata_read h.digits hunits, ?_⟩
  simp only [signExecutionCommand, buildExecutionCommandSigningString, bind_ok, exists_unit, pure_ok]
  exact ⟨_, ⟨hvalid, parts, hparts, rfl⟩, rfl⟩

theorem fromSymbolMetadata_ok (h : CommandSigningFormat.fromSymbolMetadata metadata = .ok format) :
    metadata.digits ≤ maxDecimalDigits ∧ ∃ d units,
      volumeStepUnits metadata.volumeStep = .ok (d, units) ∧ format = formatOf metadata d units := by
  simp only [CommandSigningFormat.fromSymbolMetadata, validatePrecision, bind_ok, exists_unit,
    reject_ok, pure_ok] at h
  obtain ⟨hdigits, ⟨d, units⟩, hunits, rfl⟩ := h
  exact ⟨not_lt.mp hdigits, d, units, hunits, rfl⟩

theorem Signable.of_signed {lots sl : ℚ} {mac : Mac} {secret : List UInt8} {hmac : String}
    (hformat : CommandSigningFormat.fromSymbolMetadata metadata = .ok format)
    (h : signExecutionCommand mac c secret format = .ok hmac) (hlots : c.lots = some lots)
    (hsl : c.sl = some sl) : Signable metadata lots sl c.tp c.price := by
  obtain ⟨hdigits, d, units, hunits, rfl⟩ := fromSymbolMetadata_ok hformat
  have hd := volumeStepUnits_ok hunits
  simp only [signExecutionCommand, buildExecutionCommandSigningString, validateExecutionCommand,
    validateFixedDecimalFields, bind_ok, exists_unit, hlots, hsl] at h
  obtain ⟨_, ⟨⟨-, -, -, -, haligned, hround, hprice, hslFixed, htp⟩, -⟩, -⟩ := h
  have hfixed : FixedDecimal lots d := validateFixedDecimalRoundTrip_ok hround
  obtain ⟨n, hn⟩ := hfixed.exact
  have hmultiple : n % units = 0 := by
    have hscaled : scaledInteger lots d "lots" = .ok n := scaledInteger_exact hd hn hfixed.bounded
    have hcheck : (scaledInteger lots d "lots" >>= fun lotsUnits =>
        reject (lotsUnits % units ≠ 0)
          (.lotsNotAlignedToVolumeStep lots metadata.volumeStep)) = .ok () := haligned
    rw [hscaled] at hcheck
    exact not_not.mp (reject_ok.mp hcheck)
  refine ⟨hdigits, ⟨d, units, n / units, hunits, ?_, hfixed.bounded⟩, ?_, ?_, ?_⟩
  · rw [hn, Int.ediv_mul_cancel (Int.dvd_of_emod_eq_zero hmultiple)]
  · exact validateFixedDecimalRoundTrip_ok hslFixed
  · exact (validateFixedDecimalOpt_iff hdigits).mp htp
  · exact (validateFixedDecimalOpt_iff hdigits).mp hprice

theorem whole_units {lots step : ℚ} {k : Int} (hk : lots = k * step) (hstep : step * 10 ^ d = units) :
    lots * 10 ^ d = ((k * units : Int) : ℚ) := by
  rw [hk, mul_assoc, hstep]
  push_cast
  rfl

end Sinan.Protocol
