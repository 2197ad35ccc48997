import Mathlib.Data.Rat.Defs
import Mathlib.Algebra.Order.Field.Rat

/-!
# Byte strings and `serde_json::Value`

`serde_json` is built without `preserve_order` and `arbitrary_precision`
(`Cargo.lock`), so an object is a `BTreeMap` and a number is one of the three
variants below. Object fields are kept as an association list in iteration
order; nothing here relies on that order being sorted.
-/

namespace AiGateway.Core

abbrev Bytes := List UInt8

def asBytes (s : String) : Bytes := s.toByteArray.data.toList

theorem asBytes_injective : Function.Injective asBytes := by
  intro s t h
  apply String.toByteArray_inj.mp
  exact ByteArray.ext (Array.toList_inj.mp h)

theorem prefixed_inj {p s t : String} (h : p ++ s = p ++ t) : s = t := by
  have hl := congrArg String.toList h
  simp only [String.toList_append, List.append_cancel_left_eq] at hl
  exact String.toList_inj.mp hl

/-- Exact value of a finite `f64` given by its bit pattern. -/
def f64Value (bits : UInt64) : ℚ :=
  let exponent : ℕ := (bits.toNat / 2 ^ 52) % 2 ^ 11
  let fraction : ℕ := bits.toNat % 2 ^ 52
  let magnitude : ℚ :=
    if exponent = 0 then (fraction : ℚ) / 2 ^ 1074
    else if 1075 ≤ exponent then ((2 ^ 52 + fraction : ℕ) : ℚ) * 2 ^ (exponent - 1075)
    else ((2 ^ 52 + fraction : ℕ) : ℚ) / 2 ^ (1075 - exponent)
  if 2 ^ 63 ≤ bits.toNat then -magnitude else magnitude

def f64Finite (bits : UInt64) : Prop := (bits.toNat / 2 ^ 52) % 2 ^ 11 ≠ 2047

/-- `serde_json::Number`: `u64`, negative `i64`, or a finite `f64` by its bits. -/
inductive Number where
  | posInt (n : UInt64)
  | negInt (n : Int) (range : -9223372036854775808 ≤ n ∧ n < 0)
  | float (bits : UInt64) (finite : f64Finite bits)
  deriving DecidableEq

def Number.asI64 : Number → Option Int
  | .posInt n => if n.toNat ≤ 9223372036854775807 then some n.toNat else none
  | .negInt n _ => some n
  | .float _ _ => none

/- `Number::as_f64`. Converting an integer rounds it to the nearest double; the
only uses compare with 0.0 and 0.999, which that rounding never crosses. -/
def Number.asF64 : Number → ℚ
  | .posInt n => n.toNat
  | .negInt n _ => n
  | .float bits _ => f64Value bits

inductive Value where
  | null
  | bool (b : Bool)
  | number (n : Number)
  | string (s : String)
  | array (items : List Value)
  | object (fields : List (String × Value))

namespace Value

def asObject : Value → Option (List (String × Value))
  | .object fields => some fields
  | _ => none

def get (v : Value) (key : String) : Option Value :=
  v.asObject.bind fun fields => fields.lookup key

def asArray : Value → Option (List Value)
  | .array items => some items
  | _ => none

def asStr : Value → Option String
  | .string s => some s
  | _ => none

def asI64 : Value → Option Int
  | .number n => n.asI64
  | _ => none

def asF64 : Value → Option ℚ
  | .number n => some n.asF64
  | _ => none

end Value

/-- Induction over a JSON value: the members of an array and the field values of
an object may be assumed. -/
@[elab_as_elim]
theorem Value.inductionOn {P : Value → Prop} (null : P .null) (bool : ∀ b, P (.bool b))
    (number : ∀ n, P (.number n)) (string : ∀ s, P (.string s))
    (array : ∀ items, (∀ v ∈ items, P v) → P (.array items))
    (object : ∀ fields, (∀ f ∈ fields, P f.2) → P (.object fields)) : ∀ v, P v
  | .null => null
  | .bool b => bool b
  | .number n => number n
  | .string s => string s
  | .array items =>
    array items fun v _ => Value.inductionOn null bool number string array object v
  | .object fields =>
    object fields fun f hf => by
      have := List.sizeOf_lt_of_mem hf
      have : sizeOf f.2 < sizeOf f := by
        cases f
        simp
      exact Value.inductionOn null bool number string array object f.2
termination_by v => sizeOf v

end AiGateway.Core
