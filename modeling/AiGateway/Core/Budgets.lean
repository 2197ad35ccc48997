import Mathlib.Data.Rat.Defs

/-!
# Budgets in the configuration (`gateway-core/src/config.rs:302-325`)

Amounts and thresholds are exact rationals. `AppConfig::validate` checks nothing of them.
-/

namespace AiGateway.Core

structure BudgetTarget where
  projectId : Option String := none
  gatewayKeyId : Option String := none
  deriving DecidableEq

structure BudgetThreshold where
  at_ : ℚ
  -- notify | block
  action : String
  webhook : Option String := none
  deriving DecidableEq

structure BudgetConfig where
  name : String
  target : BudgetTarget
  period : String
  amountUsd : ℚ
  thresholds : List BudgetThreshold := []
  deriving DecidableEq

end AiGateway.Core
