import GoTarantool.Stream
import Mathlib.Algebra.Order.Field.Rat
import Mathlib.Algebra.Order.Field.Power
import Mathlib.Tactic.NormNum
import Mathlib.Tactic.Positivity
import Mathlib.Tactic.Ring
import Mathlib.Tactic.Linarith

/-!
# The range check of `DecNumber.MarshalMsgpack`

`MarshalMsgpack` (src/decimal/decimal.go, lines 62-79) refuses a decimal outside the range
Tarantool's decimal type supports before it encodes it to BCD. The bounds are built with the
arithmetic of shopspring/decimal: `maxSupportedDecimal = 10^P - 1` and
`minSupportedDecimal = -maxSupportedDecimal - 1`, so the lower bound is `-10^P`, not
`-(10^P - 1)`. The range accepted is `[-10^P, 10^P - 1]`: it is not symmetric, and it holds
`-10^P`, whose integer part has `P + 1` digits.

`Decimal` is shopspring's `value × 10^exp`, with its comparison and subtraction as the
library computes them: both operands rescaled to the smaller exponent, then the big
integers compared or subtracted. The library keeps `exp` in an `int32`; it is an `Int`
here, which holds every `int32`.

* `cmp_eq_one_iff`, `cmp_eq_neg_one_iff` — `Cmp` is exact rational comparison;
* **`marshalMsgpack_range`** — the check lets exactly `[-10^P, 10^P - 1]` through.
-/

namespace GoTarantool.DecNumber

open GoTarantool.Stream

/-- `decimal.Decimal`: `value × 10^exp`. -/
structure Decimal where
  value : Int
  exp : Int
  deriving DecidableEq

/-- The number a decimal stands for. -/
def Decimal.toRat (d : Decimal) : ℚ := d.value * 10 ^ d.exp

/-- `decimal.New(value, exp)`. -/
def new (value exp : Int) : Decimal := ⟨value, exp⟩

/-- `decimal.NewFromInt(value)`. -/
def newFromInt (value : Int) : Decimal := ⟨value, 0⟩

/-- `d.rescale(exp)`: the value scaled to exponent `exp`, truncating when `exp` is larger. -/
def Decimal.rescale (exp : Int) (d : Decimal) : Decimal :=
  if d.exp < exp then ⟨d.value.tdiv (10 ^ (exp - d.exp).toNat), exp⟩
  else if exp < d.exp then ⟨d.value * 10 ^ (d.exp - exp).toNat, exp⟩
  else ⟨d.value, exp⟩

/-- `RescalePair(d1, d2)`: both at the smaller exponent. -/
def rescalePair (d1 d2 : Decimal) : Decimal × Decimal :=
  if d1.exp < d2.exp then (d1, d2.rescale d1.exp)
  else if d2.exp < d1.exp then (d1.rescale d2.exp, d2)
  else (d1, d2)

/-- `(*big.Int).Cmp`: `-1`, `0` or `+1`. -/
def bigCmp (x y : Int) : Int := if x < y then -1 else if x = y then 0 else 1

/-- `d.Cmp(d2)`. -/
def Decimal.cmp (d d2 : Decimal) : Int :=
  if d.exp = d2.exp then bigCmp d.value d2.value
  else bigCmp (rescalePair d d2).1.value (rescalePair d d2).2.value

/-- `d.Sub(d2)`. -/
def Decimal.sub (d d2 : Decimal) : Decimal :=
  ⟨(rescalePair d d2).1.value - (rescalePair d d2).2.value, (rescalePair d d2).1.exp⟩

/-- `d.Neg()`. -/
def Decimal.neg (d : Decimal) : Decimal := ⟨-d.value, d.exp⟩

/-- `d.GreaterThan(d2)`. -/
def Decimal.greaterThan (d d2 : Decimal) : Bool := d.cmp d2 = 1

/-- `d.LessThan(d2)`. -/
def Decimal.lessThan (d d2 : Decimal) : Bool := d.cmp d2 = -1

/-- `decimalPrecision` (line 37). -/
def decimalPrecision : Nat := 38

/-- Modelled from the spec: `DecimalPrecision`, which `MarshalMsgpack` reads, is declared
outside src; decimal.go's own `decimalPrecision` and its package comment give 38 digits. -/
def DecimalPrecision : Nat := 38

/-- Lines 73-78: `decNum.String()` encoded by `encodeStringToBCD`; both are outside src. -/
def encodeBCD (str : Decimal → String) (encodeStringToBCD : String → Except GoError Bytes)
    (d : Decimal) : Except GoError Bytes :=
  match encodeStringToBCD (str d) with
  | .error e => .error ("msgpack: can't encode string (" ++ str d ++ ") to a BCD buffer: " ++ e)
  | .ok b => .ok b

/-- `decNum.MarshalMsgpack()` with precision `P` (`DecimalPrecision`). -/
def marshalMsgpack (P : Nat) (str : Decimal → String)
    (encodeStringToBCD : String → Except GoError Bytes) (decNum : Decimal) :
    Except GoError Bytes :=
  let one := newFromInt 1
  let maxSupportedDecimal := (new 1 P).sub one
  let minSupportedDecimal := maxSupportedDecimal.neg.sub one
  if decNum.greaterThan maxSupportedDecimal then
    .error ("msgpack: decimal number is bigger than maximum supported number (10^" ++
      toString P ++ " - 1)")
  else if decNum.lessThan minSupportedDecimal then
    .error ("msgpack: decimal number is lesser than minimum supported number (-10^" ++
      toString P ++ " - 1)")
  else encodeBCD str encodeStringToBCD decNum

/-! ## Exact arithmetic -/

theorem rescale_of_le {e : Int} {d : Decimal} (h : e ≤ d.exp) :
    (d.rescale e).exp = e ∧ (d.rescale e).toRat = d.toRat := by
  unfold Decimal.rescale Decimal.toRat
  rw [if_neg (by omega)]
  split
  · refine ⟨rfl, ?_⟩
    have hpow : ((10 : ℚ) ^ (d.exp - e).toNat) = 10 ^ (d.exp - e) := by
      rw [← zpow_natCast, Int.toNat_of_nonneg (by omega)]
    push_cast
    rw [hpow, mul_assoc, ← zpow_add₀ (by norm_num)]
    congr 2; omega
  · have : e = d.exp := by omega
    subst this; exact ⟨rfl, rfl⟩

theorem rescalePair_spec (d1 d2 : Decimal) :
    (rescalePair d1 d2).1.exp = (rescalePair d1 d2).2.exp ∧
      (rescalePair d1 d2).1.toRat = d1.toRat ∧ (rescalePair d1 d2).2.toRat = d2.toRat := by
  unfold rescalePair
  split
  · have h := rescale_of_le (d := d2) (e := d1.exp) (by omega)
    exact ⟨h.1.symm, rfl, h.2⟩
  · split
    · have h := rescale_of_le (d := d1) (e := d2.exp) (by omega)
      exact ⟨h.1, h.2, rfl⟩
    · exact ⟨by simp only; omega, rfl, rfl⟩

/-- At one exponent, decimals compare as their values. -/
theorem toRat_lt_iff {d1 d2 : Decimal} (h : d1.exp = d2.exp) :
    d1.toRat < d2.toRat ↔ d1.value < d2.value := by
  have hpos : (0 : ℚ) < 10 ^ d1.exp := by positivity
  rw [Decimal.toRat, Decimal.toRat, ← h, mul_lt_mul_right hpos, Int.cast_lt]

theorem cmp_pair (d d2 : Decimal) :
    d.cmp d2 = bigCmp (rescalePair d d2).1.value (rescalePair d d2).2.value := by
  unfold Decimal.cmp
  split
  · rename_i h; simp [rescalePair, h]
  · rfl

/-- `Cmp` answers `+1` exactly when the first number is the larger. -/
theorem cmp_eq_one_iff (d d2 : Decimal) : d.cmp d2 = 1 ↔ d2.toRat < d.toRat := by
  obtain ⟨he, h1, h2⟩ := rescalePair_spec d d2
  rw [cmp_pair, ← h1, ← h2, toRat_lt_iff he.symm, bigCmp]
  split_ifs <;> simp <;> omega

/-- `Cmp` answers `-1` exactly when the first number is the smaller. -/
theorem cmp_eq_neg_one_iff (d d2 : Decimal) : d.cmp d2 = -1 ↔ d.toRat < d2.toRat := by
  obtain ⟨he, h1, h2⟩ := rescalePair_spec d d2
  rw [cmp_pair, ← h1, ← h2, toRat_lt_iff he, bigCmp]
  split_ifs <;> simp <;> omega

theorem sub_toRat (d d2 : Decimal) : (d.sub d2).toRat = d.toRat - d2.toRat := by
  obtain ⟨he, h1, h2⟩ := rescalePair_spec d d2
  rw [← h1, ← h2]
  simp only [Decimal.sub, Decimal.toRat, he]
  push_cast; ring

theorem neg_toRat (d : Decimal) : d.neg.toRat = -d.toRat := by
  simp [Decimal.neg, Decimal.toRat]

/-- The bounds `MarshalMsgpack` builds are `10^P - 1` and `-10^P`. -/
theorem supported_bounds (P : Nat) :
    ((new 1 P).sub (newFromInt 1)).toRat = 10 ^ P - 1 ∧
      (((new 1 P).sub (newFromInt 1)).neg.sub (newFromInt 1)).toRat = -10 ^ P := by
  have hone : (newFromInt 1).toRat = 1 := by simp [newFromInt, Decimal.toRat]
  have hmax : ((new 1 P).sub (newFromInt 1)).toRat = 10 ^ P - 1 := by
    rw [sub_toRat, hone]; simp [new, Decimal.toRat]
  refine ⟨hmax, ?_⟩
  rw [sub_toRat, neg_toRat, hmax, hone]; ring

/-! ## The range -/

theorem marshalMsgpack_of_mem {P : Nat} {str : Decimal → String}
    {enc : String → Except GoError Bytes} {d : Decimal}
    (hlo : -(10 : ℚ) ^ P ≤ d.toRat) (hhi : d.toRat ≤ 10 ^ P - 1) :
    marshalMsgpack P str enc d = encodeBCD str enc d := by
  obtain ⟨hmax, hmin⟩ := supported_bounds P
  have h1 : ¬ d.cmp ((new 1 P).sub (newFromInt 1)) = 1 := by
    rw [cmp_eq_one_iff, hmax]; exact not_lt.mpr hhi
  have h2 : ¬ d.cmp (((new 1 P).sub (newFromInt 1)).neg.sub (newFromInt 1)) = -1 := by
    rw [cmp_eq_neg_one_iff, hmin]; exact not_lt.mpr hlo
  simp [marshalMsgpack, Decimal.greaterThan, Decimal.lessThan, h1, h2]

/-- **The range `MarshalMsgpack` accepts.** A decimal reaches the BCD encoder exactly when
it lies in `[-10^P, 10^P - 1]`; above it fails with the "bigger" error, below with the
"lesser" one. -/
theorem marshalMsgpack_range (P : Nat) (str : Decimal → String)
    (enc : String → Except GoError Bytes) (d : Decimal) :
    (-(10 : ℚ) ^ P ≤ d.toRat ∧ d.toRat ≤ 10 ^ P - 1 →
      marshalMsgpack P str enc d = encodeBCD str enc d) ∧
    (10 ^ P - 1 < d.toRat →
      marshalMsgpack P str enc d = .error ("msgpack: decimal number is bigger than maximum " ++
        "supported number (10^" ++ toString P ++ " - 1)")) ∧
    (d.toRat < -(10 : ℚ) ^ P →
      marshalMsgpack P str enc d = .error ("msgpack: decimal number is lesser than minimum " ++
        "supported number (-10^" ++ toString P ++ " - 1)")) := by
  obtain ⟨hmax, hmin⟩ := supported_bounds P
  refine ⟨fun h => marshalMsgpack_of_mem h.1 h.2, fun h => ?_, fun h => ?_⟩
  · have h1 : d.cmp ((new 1 P).sub (newFromInt 1)) = 1 := by rw [cmp_eq_one_iff, hmax]; exact h
    simp [marshalMsgpack, Decimal.greaterThan, h1]
  · have h1 : ¬ d.cmp ((new 1 P).sub (newFromInt 1)) = 1 := by
      have h10 : (1 : ℚ) ≤ 10 ^ P := one_le_pow₀ (by norm_num)
      rw [cmp_eq_one_iff, hmax]; apply not_lt.mpr; linarith
    have h2 : d.cmp (((new 1 P).sub (newFromInt 1)).neg.sub (newFromInt 1)) = -1 := by
      rw [cmp_eq_neg_one_iff, hmin]; exact h
    simp [marshalMsgpack, Decimal.greaterThan, Decimal.lessThan, h1, h2]

/-- `-10^38` is outside `[-(10^38 - 1), 10^38 - 1]`, and `MarshalMsgpack` still hands it to
the encoder, here one that encodes every string as no bytes. -/
theorem marshalMsgpack_passes_neg_pow :
    (⟨-1, 38⟩ : Decimal).toRat < -((10 : ℚ) ^ DecimalPrecision - 1) ∧
      marshalMsgpack DecimalPrecision (fun _ => "") (fun _ => .ok []) ⟨-1, 38⟩ = .ok [] := by
  refine ⟨by norm_num [Decimal.toRat, DecimalPrecision], ?_⟩
  rw [marshalMsgpack_of_mem] <;> norm_num [encodeBCD, Decimal.toRat, DecimalPrecision]

end GoTarantool.DecNumber
