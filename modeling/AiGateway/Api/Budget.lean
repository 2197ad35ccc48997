import AiGateway.Api.Config
import AiGateway.Library.Calendar
import AiGateway.Library.Runs
import AiGateway.Storage.MemoryCounter

/-!
# Budgets (`gateway-api/src/budget.rs`)

`record_cost` charges every matching budget in turn and looks at its thresholds;
`check_block` and `current_usage` read the counters back. A budget is charged under its
name and the start of its current period. Numbers are exact rationals.
-/

namespace AiGateway.Api
open AiGateway.Core AiGateway.Library.Calendar AiGateway.Library.Runs AiGateway.Storage

def dayMs : ℕ := 86400000

/-- The day at 0 was a Thursday, three days after a Monday. -/
def periodStartFor (now : ℕ) (period : String) : Int :=
  let day := now / dayMs
  if period = "daily" then (day * dayMs : ℕ)
  else if period = "weekly" then ((day : Int) - ((day + 3) % 7 : ℕ)) * dayMs
  else (dayOf { dateOf day with day := 1 } * dayMs : ℕ)

theorem periodStartFor_le (now : ℕ) (period : String) : periodStartFor now period ≤ now := by
  have hday : now / dayMs * dayMs ≤ now := Nat.div_mul_le_self now dayMs
  have hfirst := Nat.mul_le_mul_right dayMs (dayOf_first_le (now / dayMs))
  unfold periodStartFor
  simp only [dayMs] at hday hfirst ⊢
  split
  · exact_mod_cast hday
  · split
    · omega
    · exact_mod_cast hfirst.trans hday

def targetMatches (target : BudgetTarget) (projectId keyId : String) : Bool :=
  target.projectId.all (fun p => p = projectId) && target.gatewayKeyId.all (fun k => k = keyId)

def matchingBudgets (budgets : List BudgetConfig) (projectId keyId : String) : List BudgetConfig :=
  budgets.filter fun b => targetMatches b.target projectId keyId

def budgetPct (b : BudgetConfig) (used : ℚ) : ℚ := if 0 < b.amountUsd then used / b.amountUsd else 0

/-- The loop of `check_block` over the thresholds of a budget. -/
def crossedBlock (b : BudgetConfig) (used : ℚ) : Bool :=
  b.thresholds.any fun t => decide (t.at_ ≤ budgetPct b used) && decide (t.action = "block")

def checkBlock (budgets : List BudgetConfig) (counter : MemoryCounterStore) (now : ℕ)
    (projectId keyId : String) : Bool :=
  (matchingBudgets budgets projectId keyId).any fun b =>
    crossedBlock b (counter.readBudget b.name (periodStartFor now b.period))

structure BudgetUsage where
  budgetId : String
  name : String
  period : String
  periodStart : Int
  amountUsd : ℚ
  usedUsd : ℚ
  pct : ℚ
  blocked : Bool
  deriving DecidableEq

def budgetUsage (counter : MemoryCounterStore) (now : ℕ) (b : BudgetConfig) : BudgetUsage :=
  let periodStart := periodStartFor now b.period
  let used := counter.readBudget b.name periodStart
  let pct := budgetPct b used
  { budgetId := b.name
    name := b.name
    period := b.period
    periodStart
    amountUsd := b.amountUsd
    usedUsd := used
    pct
    blocked := b.thresholds.any fun t => decide (t.action = "block") && decide (t.at_ ≤ pct) }

def currentUsage (budgets : List BudgetConfig) (counter : MemoryCounterStore) (now : ℕ)
    (projectId : Option String) : List BudgetUsage :=
  (budgets.filter fun b => projectId.all fun p => b.target.projectId.all fun tp => tp = p).map
    (budgetUsage counter now)

/-! ### `record_cost` -/

/-- `(t.at * 100.0) as u32`, which truncates and saturates. -/
def thresholdBucket (t : BudgetThreshold) : ℕ := min (t.at_ * 100).floor.toNat 4294967295

abbrev DedupeKey := String × Int × ℕ

/-- A call of `fire_threshold`; the numbers are the places in the configuration. -/
structure Alert where
  entry : BudgetConfig × ℕ
  threshold : BudgetThreshold × ℕ
  periodStart : Int
  used : ℚ

def Alert.key (a : Alert) : DedupeKey :=
  (a.entry.1.name, a.periodStart, thresholdBucket a.threshold.1)

/-- What `record_cost` writes to: the counters and the announced keys, and the calls of
`fire_threshold` it has made. -/
structure BudgetLedger where
  counter : MemoryCounterStore
  notified : List DedupeKey
  alerts : List Alert

def BudgetLedger.empty : BudgetLedger := ⟨.new, [], []⟩

/-- The body of the loop over the thresholds. -/
def BudgetLedger.lookAt (l : BudgetLedger) (a : Alert) : BudgetLedger :=
  if a.threshold.1.at_ ≤ budgetPct a.entry.1 a.used then
    if a.key ∈ l.notified then l
    else { l with notified := a.key :: l.notified, alerts := l.alerts ++ [a] }
  else l

def BudgetLedger.charge (l : BudgetLedger) (b : BudgetConfig) (periodStart : Int) (cost : ℚ) :
    ℚ × BudgetLedger :=
  let (used, counter) := l.counter.incrBudget b.name periodStart cost
  (used, { l with counter })

/-- The entries of the configuration that match, with their places. -/
def matchingEntries (budgets : List BudgetConfig) (projectId keyId : String) :
    List (BudgetConfig × ℕ) :=
  budgets.zipIdx.filter fun e => targetMatches e.1.target projectId keyId

/-- The body of the loop over the budgets. -/
def BudgetLedger.recordBudget (now : ℕ) (cost : ℚ) (l : BudgetLedger) (e : BudgetConfig × ℕ) :
    BudgetLedger :=
  let periodStart := periodStartFor now e.1.period
  let (used, l) := l.charge e.1 periodStart cost
  e.1.thresholds.zipIdx.foldl (fun l t => l.lookAt ⟨e, t, periodStart, used⟩) l

/-- `record_cost`, all of it at one moment. -/
def BudgetLedger.recordCost (l : BudgetLedger) (budgets : List BudgetConfig) (now : ℕ)
    (projectId keyId : String) (cost : ℚ) : BudgetLedger :=
  if cost ≤ 0 then l
  else (matchingEntries budgets projectId keyId).foldl (BudgetLedger.recordBudget now cost) l

/-! ### Concurrent calls -/

inductive BudgetCall where
  | recordCost (projectId keyId : String) (cost : ℚ)
  | checkBlock (projectId keyId : String)

inductive BudgetPhase where
  -- the entries that are still to be charged
  | recording (cost : ℚ) (todo : List (BudgetConfig × ℕ))
  -- the period of the next one is computed, its counter not yet locked
  | charging (cost : ℚ) (e : BudgetConfig × ℕ) (periodStart : Int) (todo : List (BudgetConfig × ℕ))
  -- the thresholds that are still to be looked at
  | alerting (cost : ℚ) (e : BudgetConfig × ℕ) (periodStart : Int) (used : ℚ)
      (thresholds : List (BudgetThreshold × ℕ)) (todo : List (BudgetConfig × ℕ))
  | recorded
  | checking (todo : List (BudgetConfig × ℕ))
  | reading (e : BudgetConfig × ℕ) (periodStart : Int) (todo : List (BudgetConfig × ℕ))
  | answered (blocked : Bool)

/-- An increment of a counter, noted with the call and the entry it was made for. -/
structure Charge where
  call : ℕ
  entry : BudgetConfig × ℕ
  periodStart : Int
  cost : ℚ

structure BudgetRun where
  now : ℕ
  ledger : BudgetLedger
  calls : List (BudgetCall × BudgetPhase)
  charges : List Charge

def BudgetRun.init : BudgetRun := ⟨0, .empty, [], []⟩

inductive BudgetMove where
  | call (c : BudgetCall)
  | advance (i : ℕ)
  | tick (elapsed : ℕ)

def BudgetCall.start (budgets : List BudgetConfig) : BudgetCall → BudgetPhase
  | .recordCost projectId keyId cost =>
    if cost ≤ 0 then .recorded else .recording cost (matchingEntries budgets projectId keyId)
  | .checkBlock projectId keyId => .checking (matchingEntries budgets projectId keyId)

/-- The next step of a call, with the increment it makes. -/
def BudgetPhase.advance (now : ℕ) (l : BudgetLedger) (i : ℕ) :
    BudgetPhase → Option (BudgetPhase × BudgetLedger × Option Charge)
  | .recording _ [] => some (.recorded, l, none)
  | .recording cost (e :: todo) =>
    some (.charging cost e (periodStartFor now e.1.period) todo, l, none)
  | .charging cost e periodStart todo =>
    let (used, l) := l.charge e.1 periodStart cost
    some (.alerting cost e periodStart used e.1.thresholds.zipIdx todo, l,
      some ⟨i, e, periodStart, cost⟩)
  | .alerting cost _ _ _ [] todo => some (.recording cost todo, l, none)
  | .alerting cost e periodStart used (t :: thresholds) todo =>
    some (.alerting cost e periodStart used thresholds todo, l.lookAt ⟨e, t, periodStart, used⟩,
      none)
  | .recorded => none
  | .checking [] => some (.answered false, l, none)
  | .checking (e :: todo) => some (.reading e (periodStartFor now e.1.period) todo, l, none)
  | .reading e periodStart todo =>
    if crossedBlock e.1 (l.counter.readBudget e.1.name periodStart) then
      some (.answered true, l, none)
    else some (.checking todo, l, none)
  | .answered _ => none

def BudgetRun.step (budgets : List BudgetConfig) (s : BudgetRun) : BudgetMove → Option BudgetRun
  | .call c => some { s with calls := s.calls ++ [(c, c.start budgets)] }
  | .advance i => do
    let (c, phase) ← s.calls[i]?
    let (phase, ledger, charge) ← phase.advance s.now s.ledger i
    some { s with
      ledger
      calls := s.calls.set i (c, phase)
      charges := s.charges ++ charge.toList }
  | .tick elapsed => some { s with now := s.now + elapsed }

/-! ### Calls that run without a pause -/

section
variable {budgets : List BudgetConfig} {s : BudgetRun}

theorem matchingEntries_budgets (budgets : List BudgetConfig) (projectId keyId : String) :
    (matchingEntries budgets projectId keyId).map Prod.fst =
      matchingBudgets budgets projectId keyId := by
  have hbudgets : matchingBudgets budgets projectId keyId =
      (budgets.zipIdx.map Prod.fst).filter fun b => targetMatches b.target projectId keyId := by
    rw [List.zipIdx_map_fst]
    rfl
  rw [hbudgets, List.filter_map]
  rfl

/-- The call `i` gets to a phase and leaves a ledger while nothing else moves. -/
def BudgetRun.Leads (budgets : List BudgetConfig) (s : BudgetRun) (i : ℕ) (c : BudgetCall)
    (phase : BudgetPhase) (l : BudgetLedger) : Prop :=
  ∃ t, Reaches (BudgetRun.step budgets) Always s t ∧ t.now = s.now ∧ t.ledger = l ∧
    t.calls = s.calls.set i (c, phase)

theorem BudgetRun.leads_step {i : ℕ} {c : BudgetCall} {phase phase' phase'' : BudgetPhase}
    {l l' : BudgetLedger} {charge : Option Charge} (hcall : s.calls[i]? = some (c, phase))
    (hadv : phase.advance s.now s.ledger i = some (phase', l, charge))
    (hrest : ∀ t : BudgetRun, t.calls[i]? = some (c, phase') → t.now = s.now → t.ledger = l →
      t.Leads budgets i c phase'' l') : s.Leads budgets i c phase'' l' := by
  have hlt := (List.getElem?_eq_some_iff.mp hcall).1
  have hstep : s.step budgets (.advance i) = some { s with
      ledger := l
      calls := s.calls.set i (c, phase')
      charges := s.charges ++ charge.toList } := by
    simp only [BudgetRun.step, hcall, hadv, Option.bind_eq_bind, Option.bind_some]
  have hcall' : (s.calls.set i (c, phase'))[i]? = some (c, phase') := List.getElem?_set_self hlt
  obtain ⟨t, hreach, hnow, hledger, hcalls⟩ := hrest { s with
      ledger := l
      calls := s.calls.set i (c, phase')
      charges := s.charges ++ charge.toList } hcall' rfl rfl
  refine ⟨t, Reaches.trans (.next _ .start trivial hstep) hreach, hnow, hledger, ?_⟩
  rw [hcalls, List.set_set]

theorem BudgetRun.leads_self {i : ℕ} {c : BudgetCall} {phase : BudgetPhase}
    (hcall : s.calls[i]? = some (c, phase)) : s.Leads budgets i c phase s.ledger := by
  obtain ⟨hlt, hget⟩ := List.getElem?_eq_some_iff.mp hcall
  refine ⟨s, .start, rfl, rfl, ?_⟩
  rw [← hget, List.set_getElem_self]

theorem BudgetRun.leads_alerting {i : ℕ} {c : BudgetCall} {cost used : ℚ} {e : BudgetConfig × ℕ}
    {periodStart : Int} {todo : List (BudgetConfig × ℕ)} {phase : BudgetPhase} {l : BudgetLedger}
    (thresholds : List (BudgetThreshold × ℕ))
    (hcall : s.calls[i]? = some (c, .alerting cost e periodStart used thresholds todo))
    (hrest : ∀ t : BudgetRun, t.calls[i]? = some (c, .recording cost todo) → t.now = s.now →
      t.ledger = thresholds.foldl (fun l th => l.lookAt ⟨e, th, periodStart, used⟩) s.ledger →
      t.Leads budgets i c phase l) : s.Leads budgets i c phase l := by
  induction thresholds generalizing s with
  | nil => exact BudgetRun.leads_step hcall rfl hrest
  | cons th thresholds ih =>
    refine BudgetRun.leads_step hcall rfl fun t ht hnow hledger => ih ht fun u hu hnow' hledger' => ?_
    refine hrest u hu (hnow'.trans hnow) ?_
    rw [hledger', hledger]
    rfl

theorem BudgetRun.leads_recording (budgets : List BudgetConfig) {s : BudgetRun} {i : ℕ}
    {c : BudgetCall} {cost : ℚ} (todo : List (BudgetConfig × ℕ)) (hcall : s.calls[i]? = some (c, .recording cost todo)) :
    s.Leads budgets i c .recorded
      (todo.foldl (BudgetLedger.recordBudget s.now cost) s.ledger) := by
  induction todo generalizing s with
  | nil =>
    refine BudgetRun.leads_step hcall rfl fun t ht hnow hledger => ?_
    rw [List.foldl_nil, ← hledger]
    exact BudgetRun.leads_self ht
  | cons e todo ih =>
    refine BudgetRun.leads_step hcall rfl fun t ht hnow hledger => ?_
    refine BudgetRun.leads_step ht rfl fun u hu hnow' hledger' => ?_
    refine BudgetRun.leads_alerting _ hu fun v hv hnow'' hledger'' => ?_
    have hsame : v.now = s.now := hnow''.trans (hnow'.trans hnow)
    have hcharged : v.ledger = BudgetLedger.recordBudget s.now cost s.ledger e := by
      rw [hledger'', hledger', hledger]
      rfl
    have hrest := ih hv
    rw [hsame, hcharged] at hrest
    exact hrest

/-- A call that runs without a pause does what `record_cost` does at that moment. -/
theorem BudgetRun.reaches_recordCost (s : BudgetRun) (budgets : List BudgetConfig)
    (projectId keyId : String) (cost : ℚ) :
    ∃ t, Reaches (BudgetRun.step budgets) Always s t ∧ t.now = s.now ∧
      t.ledger = s.ledger.recordCost budgets s.now projectId keyId cost ∧
      t.calls = s.calls ++ [(.recordCost projectId keyId cost, .recorded)] := by
  by_cases hcost : cost ≤ 0
  · have hstart : BudgetCall.start budgets (.recordCost projectId keyId cost) = .recorded :=
      if_pos hcost
    refine ⟨_, .next (.call (.recordCost projectId keyId cost)) .start trivial rfl, rfl, ?_, ?_⟩
    · rw [BudgetLedger.recordCost, if_pos hcost]
    · rw [hstart]
  · have hstart : BudgetCall.start budgets (.recordCost projectId keyId cost) =
        .recording cost (matchingEntries budgets projectId keyId) := if_neg hcost
    obtain ⟨t, hreach, hnow, hledger, hcalls⟩ := BudgetRun.leads_recording budgets
      (s := { s with calls := s.calls ++ [(.recordCost projectId keyId cost,
        .recording cost (matchingEntries budgets projectId keyId))] })
      _ (List.getElem?_concat_length ..)
    refine ⟨t, Reaches.trans (.next (.call (.recordCost projectId keyId cost)) .start trivial ?_)
      hreach, hnow, ?_, ?_⟩
    · simp only [BudgetRun.step, hstart]
    · rw [hledger, BudgetLedger.recordCost, if_neg hcost]
    · rw [hcalls]
      simp

end

end AiGateway.Api
