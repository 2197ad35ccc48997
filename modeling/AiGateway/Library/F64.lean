import Mathlib.Algebra.Ring.Nat
import Mathlib.Data.Nat.Log

/-!
# Binary64 numbers

A double is its 64 bits: a sign, 11 bits of exponent and 52 bits of fraction.
Every finite magnitude is a whole multiple of the smallest subnormal, so exact
results are ratios of natural numbers in that unit and rounding (to nearest,
ties to even) is integer division. Parsing follows the grammar of decimal
literals: an optional sign, then digits with an optional point and an optional
exponent, or `inf`, `infinity` and `nan` in any case.
-/

namespace AiGateway.Library

structure F64 where
  bits : UInt64
  deriving DecidableEq, Repr

namespace F64

def negative (x : F64) : Bool := 2 ^ 63 ≤ x.bits.toNat

def exponent (x : F64) : ℕ := x.bits.toNat / 2 ^ 52 % 2 ^ 11

def fraction (x : F64) : ℕ := x.bits.toNat % 2 ^ 52

def isFinite (x : F64) : Bool := x.exponent ≠ 2047

def isNan (x : F64) : Bool := x.exponent = 2047 ∧ x.fraction ≠ 0

/-- The magnitude of a finite number in units of `2 ^ (-1074)`. -/
def magnitude (x : F64) : ℕ :=
  if x.exponent = 0 then x.fraction else (2 ^ 52 + x.fraction) * 2 ^ (x.exponent - 1)

/-- `x >= 0.0`, which holds for both zeros and not for NaN. -/
def nonneg (x : F64) : Bool := !x.isNan && (!x.negative || (x.isFinite && x.magnitude = 0))

def ofWord (negative : Bool) (word : ℕ) : F64 :=
  ⟨UInt64.ofNat ((if negative then 2 ^ 63 else 0) + word)⟩

def nan : F64 := ofWord false (2047 * 2 ^ 52 + 2 ^ 51)

def infinity (negative : Bool) : F64 := ofWord negative (2047 * 2 ^ 52)

/-- `num / den` rounded to nearest, ties to even. -/
def roundDiv (num den : ℕ) : ℕ :=
  let q := num / den
  let r := num % den
  if 2 * r < den ∨ (2 * r = den ∧ q % 2 = 0) then q else q + 1

/-- The double nearest to `num / den`. A significand that rounds up to `2 ^ 53`
carries into the exponent by itself. -/
def ofRatio (negative : Bool) (num den : ℕ) : F64 :=
  let exact := num * 2 ^ 1074
  let shift := Nat.log2 (exact / den) - 52
  let word := shift * 2 ^ 52 + roundDiv exact (den * 2 ^ shift)
  if 2047 * 2 ^ 52 ≤ word then infinity negative else ofWord negative word

def mul (x y : F64) : F64 :=
  let sign := x.negative ^^ y.negative
  if x.isNan || y.isNan then nan
  else if x.isFinite && y.isFinite then
    ofRatio sign (x.magnitude * y.magnitude) (2 ^ 1074 * 2 ^ 1074)
  else if (x.isFinite && x.magnitude = 0) || (y.isFinite && y.magnitude = 0) then nan
  else infinity sign

/-- A finite number in units of `2 ^ (-1074)`. -/
def scaled (x : F64) : Int := if x.negative then -x.magnitude else x.magnitude

/-- An exact sum of zero is negative only if both terms are. -/
def add (x y : F64) : F64 :=
  if x.isNan || y.isNan then nan
  else if x.isFinite && y.isFinite then
    let sum := x.scaled + y.scaled
    ofRatio (if sum = 0 then x.negative && y.negative else sum < 0) sum.natAbs (2 ^ 1074)
  else if x.isFinite then y
  else if y.isFinite || x.negative == y.negative then x
  else nan

def div (x y : F64) : F64 :=
  let sign := x.negative ^^ y.negative
  if x.isNan || y.isNan then nan
  else if x.isFinite && y.isFinite then
    if y.magnitude ≠ 0 then ofRatio sign x.magnitude y.magnitude
    else if x.magnitude = 0 then nan
    else infinity sign
  else if x.isFinite then ofWord sign 0
  else if y.isFinite then infinity sign
  else nan

/-- To the nearest integer, half away from zero, as `f64::round`. -/
def round (x : F64) : F64 :=
  if x.isFinite then ofRatio x.negative ((2 * x.magnitude + 2 ^ 1074) / 2 ^ 1075) 1 else x

/-- `n as f64`. -/
def ofInt (n : Int) : F64 := ofRatio (n < 0) n.natAbs 1

instance : Zero F64 := ⟨ofWord false 0⟩

instance : Add F64 := ⟨add⟩

instance : Mul F64 := ⟨mul⟩

instance : Div F64 := ⟨div⟩

def digitsValue (digits : List Char) : ℕ :=
  digits.foldl (fun acc c => acc * 10 + (c.toNat - 48)) 0

/-- An exponent part: `e` or `E`, an optional sign and at least one digit. -/
def parseExponent : List Char → Option Int
  | [] => some 0
  | e :: rest =>
    if e = 'e' ∨ e = 'E' then
      let (negative, digits) := match rest with
        | '-' :: ds => (true, ds)
        | '+' :: ds => (false, ds)
        | ds => (false, ds)
      if digits.isEmpty || !digits.all Char.isDigit then none
      else some (if negative then -(digitsValue digits : Int) else digitsValue digits)
    else none

def parseNumber (negative : Bool) (cs : List Char) : Option F64 :=
  let whole := cs.takeWhile Char.isDigit
  let rest := cs.dropWhile Char.isDigit
  let (part, rest) := match rest with
    | '.' :: ds => (ds.takeWhile Char.isDigit, ds.dropWhile Char.isDigit)
    | ds => ([], ds)
  if whole.isEmpty && part.isEmpty then none
  else
    (parseExponent rest).map fun (exponent : Int) =>
      let scale : Int := exponent - part.length
      ofRatio negative (digitsValue (whole ++ part) * 10 ^ scale.toNat) (10 ^ (-scale).toNat)

/-- `str::parse::<f64>`. -/
def parse (s : String) : Option F64 :=
  let (negative, cs) := match s.toList with
    | '-' :: cs => (true, cs)
    | '+' :: cs => (false, cs)
    | cs => (false, cs)
  let lower := cs.map Char.toLower
  if lower = "inf".toList ∨ lower = "infinity".toList then some (infinity negative)
  else if lower = "nan".toList then some (if negative then ⟨nan.bits + 9223372036854775808⟩ else nan)
  else parseNumber negative cs

end F64

example : F64.parse "1.5" = some ⟨0x3FF8000000000000⟩ := by decide +kernel

example : (F64.parse "1e308").map (F64.mul · (F64.ofRatio false 1000 1)) =
    some (F64.infinity false) := by decide +kernel

example : (F64.parse "0.000002").map (F64.mul · (F64.ofRatio false 1000 1)) =
    F64.parse "0.002" := by decide +kernel

/-- The sum of two doubles that is not the double of the decimal sum. -/
example : (do return (← F64.parse "0.1") + (← F64.parse "0.2")) =
    F64.parse "0.30000000000000004" := by decide +kernel

example : (do return ((← F64.parse "-2.5").round, F64.ofInt 1 / F64.ofInt 3)) =
    (do return (← F64.parse "-3", ← F64.parse "0.3333333333333333")) := by decide +kernel

example : (F64.infinity false + F64.infinity true).isNan = true := by decide +kernel

end AiGateway.Library
