import AiGateway.Core.Pricing
import AiGateway.Library.MachineInt
import Mathlib.Algebra.Order.Floor.Ring
import Mathlib.Data.Rat.Floor

/-!
# Costs (`gateway-core/src/pricing/calculator.rs`)

Token counts are `i64`. The arithmetic is a parameter: the doubles that the code computes in, or
the exact rationals that they stand for.
-/

namespace AiGateway.Core
open AiGateway.Library AiGateway.Library.MachineInt

/-- The numbers of costs. -/
class CostNumber (κ : Type) [Zero κ] [Add κ] [Mul κ] [Div κ] where
  /-- a price of the catalog -/
  ofPrice : F64 → κ
  /-- `n as f64` -/
  ofCount : Int → κ
  /-- `f64::round` -/
  round : κ → κ

instance : CostNumber F64 := ⟨id, F64.ofInt, F64.round⟩

/-- The number of a finite double. -/
def rate (x : F64) : ℚ := (if x.negative then -1 else 1) * x.magnitude / 2 ^ 1074

instance : CostNumber ℚ where
  ofPrice := rate
  ofCount n := n
  round v := (if 0 ≤ v then ⌊v + 1 / 2⌋ else -⌊-v + 1 / 2⌋ : ℤ)

@[simp] theorem ofPrice_rat (x : F64) : (CostNumber.ofPrice x : ℚ) = rate x := rfl

@[simp] theorem ofCount_rat (n : Int) : (CostNumber.ofCount n : ℚ) = n := rfl

theorem round_rat (v : ℚ) : (CostNumber.round v : ℚ) =
    ((if 0 ≤ v then ⌊v + 1 / 2⌋ else -⌊-v + 1 / 2⌋ : ℤ) : ℚ) := rfl

structure CostBreakdown (κ : Type := ℚ) where
  costUsd : κ
  wouldHaveCostUsd : κ
  deriving DecidableEq, Repr

section
variable {κ : Type} [Zero κ] [Add κ] [Mul κ] [Div κ] [CostNumber κ]

/-- Six decimals. -/
def round6 (v : κ) : κ :=
  CostNumber.round (v * CostNumber.ofCount 1000000) / CostNumber.ofCount 1000000

/-- `apply`. -/
def applyPrice (entry : PricingEntry) (prompt completion cached : Int) : CostBreakdown κ :=
  let cachedInputRate := entry.cachedInputPer1k.getD entry.inputPer1k
  let billablePrompt : κ := CostNumber.ofCount (max (wrap64 (prompt - cached)) 0)
  let cachedPrompt : κ := CostNumber.ofCount (max cached 0)
  let completion : κ := CostNumber.ofCount (max completion 0)
  let cost := billablePrompt * CostNumber.ofPrice entry.inputPer1k / CostNumber.ofCount 1000
    + cachedPrompt * CostNumber.ofPrice cachedInputRate / CostNumber.ofCount 1000
    + completion * CostNumber.ofPrice entry.outputPer1k / CostNumber.ofCount 1000
  ⟨round6 cost, round6 cost⟩

def computeCost (catalog : PricingCatalog) (provider model : String)
    (prompt completion cached : Int) : Option (CostBreakdown κ) :=
  (catalog.lookup provider model).map fun entry => applyPrice entry prompt completion cached

end

/-- 1000 prompt and 500 completion tokens of gpt-4o-mini, in doubles. -/
example : (do
      let entry : PricingEntry :=
        ⟨"openai", "gpt-4o-mini", ← F64.parse "0.00015", ← F64.parse "0.0006", none⟩
      return (applyPrice entry 1000 500 0 : CostBreakdown F64).costUsd) = F64.parse "0.00045" := by
  decide +kernel

end AiGateway.Core
