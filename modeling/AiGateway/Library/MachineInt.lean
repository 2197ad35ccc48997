import Mathlib.Tactic.Common

/-!
# Fixed-width integers over `Int`

An `i64` is an `Int` in `[-2^63, 2^63)`; release arithmetic is the exact result
wrapped back into that range. The casts are the truncating `as` casts.
-/

namespace AiGateway.Library.MachineInt

def InI64 (x : Int) : Prop := -9223372036854775808 ≤ x ∧ x < 9223372036854775808

instance : DecidablePred InI64 := fun x => by unfold InI64; infer_instance

/-- Two's complement wrap onto `i64`. -/
def wrap64 (x : Int) : Int := (x + 9223372036854775808) % 18446744073709551616 - 9223372036854775808

def asU64 (x : Int) : Nat := (x % 18446744073709551616).toNat

def asU32 (x : Int) : Nat := (x % 4294967296).toNat

def InI32 (x : Int) : Prop := -2147483648 ≤ x ∧ x < 2147483648

instance : DecidablePred InI32 := fun x => by unfold InI32; infer_instance

def asI32 (x : Int) : Int := (x + 2147483648) % 4294967296 - 2147483648

theorem asI32_of_inI32 {x : Int} (h : InI32 x) : asI32 x = x := by
  unfold InI32 at h
  unfold asI32
  omega

theorem wrap64_of_inI64 {x : Int} (h : InI64 x) : wrap64 x = x := by
  unfold InI64 at h
  unfold wrap64
  omega

theorem wrap64_inI64 (x : Int) : InI64 (wrap64 x) := by
  unfold InI64 wrap64
  omega

theorem wrap64_wrap64_add (x y : Int) : wrap64 (wrap64 x + y) = wrap64 (x + y) := by
  unfold wrap64
  omega

theorem wrap64_add_eq_self {x y : Int} (h : InI64 x) :
    wrap64 (x + y) = x ↔ (18446744073709551616 : Int) ∣ y := by
  unfold InI64 at h
  unfold wrap64
  omega

theorem wrap64_le {x : Int} (h : 0 ≤ x) : wrap64 x ≤ x := by
  unfold wrap64
  omega

theorem asU64_wrap64 (x : Int) : asU64 (wrap64 x) = asU64 x := by
  unfold asU64 wrap64
  omega

theorem asU64_wrap64_add (x y : Int) : asU64 (wrap64 x + y) = asU64 (x + y) := by
  unfold asU64 wrap64
  omega

theorem asU64_natCast_le (n : Nat) : asU64 (n : Int) ≤ n := by
  unfold asU64
  omega

theorem asU32_of_range {x : Int} (h0 : 0 ≤ x) (h : x < 4294967296) : (asU32 x : Int) = x := by
  unfold asU32
  omega

end AiGateway.Library.MachineInt
