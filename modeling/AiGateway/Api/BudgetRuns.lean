import AiGateway.Api.Budget
import Mathlib.Algebra.Order.BigOperators.Group.List
import Mathlib.Algebra.Order.Field.Basic
import Mathlib.Algebra.Order.Ring.Rat

/-!
# Budgets over runs (`gateway-api/src/budget.rs`, `memory/mod.rs:633-654`)

A counter holds what was charged under its name and period, by whichever entry of the
configuration. What it holds never falls.
-/

namespace AiGateway.Api
open AiGateway.Core AiGateway.Library.Runs AiGateway.Storage

def costs (charges : List Charge) : ℚ := (charges.map Charge.cost).sum

/-- What was charged under a name and a period start. -/
def spentUnder (charges : List Charge) (name : String) (periodStart : Int) : ℚ :=
  costs (charges.filter fun x => x.entry.1.name = name ∧ x.periodStart = periodStart)

/-- What was charged in a period for the entry at a place of the configuration. -/
def recordedFor (charges : List Charge) (place : ℕ) (periodStart : Int) : ℚ :=
  costs (charges.filter fun x => x.entry.2 = place ∧ x.periodStart = periodStart)

def chargesOf (charges : List Charge) (i : ℕ) : List Charge := charges.filter fun x => x.call = i

/-- Where a `record_cost` stands, and that it has charged the entries before that. -/
def BudgetPhase.Records (entries : List (BudgetConfig × ℕ)) (cost : ℚ) (mine : List Charge) :
    BudgetPhase → Prop
  | .recording rate todo => rate = cost ∧ 0 < cost ∧ mine.map Charge.entry ++ todo = entries
  | .charging rate e _ todo => rate = cost ∧ 0 < cost ∧ mine.map Charge.entry ++ e :: todo = entries
  | .alerting rate _ _ _ _ todo => rate = cost ∧ 0 < cost ∧ mine.map Charge.entry ++ todo = entries
  | .recorded => mine.map Charge.entry = if cost ≤ 0 then [] else entries
  | _ => False

def BudgetPhase.Checks (entries : List (BudgetConfig × ℕ)) : BudgetPhase → Prop
  | .checking todo => todo <:+ entries
  | .reading e _ todo => e :: todo <:+ entries
  | .answered _ => True
  | _ => False

def BudgetPhase.Serves (budgets : List BudgetConfig) (mine : List Charge) (phase : BudgetPhase) :
    BudgetCall → Prop
  | .recordCost projectId keyId cost =>
    phase.Records (matchingEntries budgets projectId keyId) cost mine ∧ ∀ x ∈ mine, x.cost = cost
  | .checkBlock projectId keyId => phase.Checks (matchingEntries budgets projectId keyId) ∧ mine = []

structure BudgetRun.Sound (budgets : List BudgetConfig) (s : BudgetRun) : Prop where
  counter : ∀ name periodStart,
    s.ledger.counter.readBudget name periodStart = spentUnder s.charges name periodStart
  calls : ∀ i c (phase : BudgetPhase), s.calls[i]? = some (c, phase) →
    phase.Serves budgets (chargesOf s.charges i) c
  known : ∀ x ∈ s.charges, x.call < s.calls.length

section
variable {budgets : List BudgetConfig} {s t : BudgetRun}

theorem costs_append (charges charges' : List Charge) :
    costs (charges ++ charges') = costs charges + costs charges' := by
  rw [costs, List.map_append, List.sum_append]
  rfl

theorem costs_cons (x : Charge) (charges : List Charge) :
    costs (x :: charges) = x.cost + costs charges := by
  rw [costs, List.map_cons, List.sum_cons]
  rfl

theorem chargesOf_append (charges charges' : List Charge) (i : ℕ) :
    chargesOf (charges ++ charges') i = chargesOf charges i ++ chargesOf charges' i :=
  List.filter_append ..

theorem spentUnder_append (charges charges' : List Charge) (name : String) (periodStart : Int) :
    spentUnder (charges ++ charges') name periodStart =
      spentUnder charges name periodStart + spentUnder charges' name periodStart := by
  rw [spentUnder, List.filter_append, costs_append]
  rfl

theorem BudgetLedger.lookAt_counter (l : BudgetLedger) (a : Alert) :
    (l.lookAt a).counter = l.counter := by
  unfold BudgetLedger.lookAt
  split
  · split
    · rfl
    · rfl
  · rfl

/-- The thresholds of the entry that was charged, while the call looks at them. -/
def BudgetPhase.toLookAt : BudgetPhase → Option (List (BudgetThreshold × ℕ))
  | .alerting _ _ _ _ thresholds _ => some thresholds
  | _ => none

/-- What a call's step does: it charges the entry at which the call stands, looks at one
threshold, or leaves the ledger as it is. -/
theorem BudgetPhase.advance_cases {now i : ℕ} {l l' : BudgetLedger} {phase phase' : BudgetPhase}
    {charge : Option Charge} (h : phase.advance now l i = some (phase', l', charge)) :
    (∃ cost e periodStart todo, phase = .charging cost e periodStart todo ∧
        phase' = .alerting cost e periodStart (l.charge e.1 periodStart cost).1
          e.1.thresholds.zipIdx todo ∧
        l' = (l.charge e.1 periodStart cost).2 ∧ charge = some ⟨i, e, periodStart, cost⟩) ∨
      (∃ cost e periodStart used th thresholds todo,
        phase = .alerting cost e periodStart used (th :: thresholds) todo ∧
        phase' = .alerting cost e periodStart used thresholds todo ∧
        l' = l.lookAt ⟨e, th, periodStart, used⟩ ∧ charge = none) ∨
      (phase.toLookAt.getD [] = [] ∧ phase'.toLookAt = none ∧ l' = l ∧ charge = none) := by
  cases phase with
  | recording cost todo =>
    cases todo with
    | nil =>
      cases h
      exact .inr (.inr ⟨rfl, rfl, rfl, rfl⟩)
    | cons e todo =>
      cases h
      exact .inr (.inr ⟨rfl, rfl, rfl, rfl⟩)
  | charging cost e periodStart todo =>
    cases h
    exact .inl ⟨cost, e, periodStart, todo, rfl, rfl, rfl, rfl⟩
  | alerting cost e periodStart used thresholds todo =>
    cases thresholds with
    | nil =>
      cases h
      exact .inr (.inr ⟨rfl, rfl, rfl, rfl⟩)
    | cons th thresholds =>
      cases h
      exact .inr (.inl ⟨cost, e, periodStart, used, th, thresholds, todo, rfl, rfl, rfl, rfl⟩)
  | recorded => cases h
  | checking todo =>
    cases todo with
    | nil =>
      cases h
      exact .inr (.inr ⟨rfl, rfl, rfl, rfl⟩)
    | cons e todo =>
      cases h
      exact .inr (.inr ⟨rfl, rfl, rfl, rfl⟩)
  | reading e periodStart todo =>
    simp only [BudgetPhase.advance] at h
    split at h
    · cases h
      exact .inr (.inr ⟨rfl, rfl, rfl, rfl⟩)
    · cases h
      exact .inr (.inr ⟨rfl, rfl, rfl, rfl⟩)
  | answered blocked => cases h

theorem BudgetPhase.advance_counter {now i : ℕ} {l l' : BudgetLedger} {phase phase' : BudgetPhase}
    {charge : Option Charge} (h : phase.advance now l i = some (phase', l', charge)) :
    (charge = none ∧ l'.counter = l.counter) ∨
      ∃ cost e periodStart todo, phase = .charging cost e periodStart todo ∧
        charge = some ⟨i, e, periodStart, cost⟩ ∧
        l'.counter = (l.counter.incrBudget e.1.name periodStart cost).2 := by
  rcases BudgetPhase.advance_cases h with ⟨cost, e, periodStart, todo, hphase, -, rfl, hcharge⟩ |
    ⟨cost, e, periodStart, used, th, thresholds, todo, -, -, rfl, hcharge⟩ | ⟨-, -, rfl, hcharge⟩
  · exact .inr ⟨cost, e, periodStart, todo, hphase, hcharge, rfl⟩
  · exact .inl ⟨hcharge, BudgetLedger.lookAt_counter ..⟩
  · exact .inl ⟨hcharge, rfl⟩

/-- A call goes on with the entries in order. -/
theorem BudgetPhase.Serves.advance {now i : ℕ} {l l' : BudgetLedger} {phase phase' : BudgetPhase}
    {charge : Option Charge} {c : BudgetCall} {mine : List Charge}
    (hserves : phase.Serves budgets mine c)
    (h : phase.advance now l i = some (phase', l', charge)) :
    phase'.Serves budgets (mine ++ charge.toList) c := by
  cases c with
  | recordCost projectId keyId cost =>
    obtain ⟨hrecords, hcost⟩ := hserves
    cases phase with
    | recording rate todo =>
      obtain ⟨hrate, hpos, hentries⟩ := hrecords
      cases todo with
      | nil =>
        cases h
        rw [List.append_nil] at hentries
        refine ⟨?_, by simpa using hcost⟩
        simp only [BudgetPhase.Records, Option.toList_none, List.append_nil,
          if_neg (not_le.mpr hpos)]
        exact hentries
      | cons e todo =>
        cases h
        refine ⟨⟨hrate, hpos, ?_⟩, by simpa using hcost⟩
        simpa using hentries
    | charging rate e periodStart todo =>
      obtain ⟨hrate, hpos, hentries⟩ := hrecords
      cases h
      refine ⟨⟨hrate, hpos, ?_⟩, ?_⟩
      · simpa using hentries
      · intro x hx
        rcases List.mem_append.mp hx with hold | hnew
        · exact hcost x hold
        · rw [List.mem_singleton.mp hnew]
          exact hrate
    | alerting rate e periodStart used thresholds todo =>
      obtain ⟨hrate, hpos, hentries⟩ := hrecords
      cases thresholds with
      | nil =>
        cases h
        exact ⟨⟨hrate, hpos, by simpa using hentries⟩, by simpa using hcost⟩
      | cons t thresholds =>
        cases h
        exact ⟨⟨hrate, hpos, by simpa using hentries⟩, by simpa using hcost⟩
    | recorded => cases h
    | checking todo => exact absurd hrecords id
    | reading e periodStart todo => exact absurd hrecords id
    | answered blocked => cases h
  | checkBlock projectId keyId =>
    obtain ⟨hchecks, hmine⟩ := hserves
    cases phase with
    | recording rate todo => exact absurd hchecks id
    | charging rate e periodStart todo => exact absurd hchecks id
    | alerting rate e periodStart used thresholds todo => exact absurd hchecks id
    | recorded => cases h
    | checking todo =>
      cases todo with
      | nil =>
        cases h
        exact ⟨trivial, by simpa using hmine⟩
      | cons e todo =>
        cases h
        exact ⟨hchecks, by simpa using hmine⟩
    | reading e periodStart todo =>
      simp only [BudgetPhase.advance] at h
      split at h
      · cases h
        exact ⟨trivial, by simpa using hmine⟩
      · cases h
        exact ⟨(List.suffix_cons _ _).trans hchecks, by simpa using hmine⟩
    | answered blocked => cases h

theorem BudgetRun.Sound.init : BudgetRun.Sound budgets .init where
  counter _ _ := rfl
  calls i c phase h := by cases h
  known x h := by cases h

theorem BudgetCall.start_serves (c : BudgetCall) : (c.start budgets).Serves budgets [] c := by
  cases c with
  | recordCost projectId keyId cost =>
    simp only [BudgetCall.start]
    split
    · rename_i hcost
      refine ⟨?_, by simp⟩
      simp only [BudgetPhase.Records, if_pos hcost]
      rfl
    · rename_i hcost
      exact ⟨⟨rfl, not_le.mp hcost, rfl⟩, by simp⟩
  | checkBlock projectId keyId => exact ⟨List.suffix_rfl, rfl⟩

theorem BudgetRun.step_cases {m : BudgetMove} (h : s.step budgets m = some t) :
    (∃ c, m = .call c ∧ t = { s with calls := s.calls ++ [(c, c.start budgets)] }) ∨
      (∃ i c phase phase' ledger charge, m = .advance i ∧ s.calls[i]? = some (c, phase) ∧
        phase.advance s.now s.ledger i = some (phase', ledger, charge) ∧
        t = { s with
          ledger
          calls := s.calls.set i (c, phase')
          charges := s.charges ++ charge.toList }) ∨
      ∃ elapsed, m = .tick elapsed ∧ t = { s with now := s.now + elapsed } := by
  cases m with
  | call c =>
    cases h
    exact .inl ⟨c, rfl, rfl⟩
  | advance i =>
    obtain ⟨⟨c, phase⟩, hcall, h⟩ := Option.bind_eq_some_iff.mp h
    obtain ⟨⟨phase', ledger, charge⟩, hadv, h⟩ := Option.bind_eq_some_iff.mp h
    cases h
    exact .inr (.inl ⟨i, c, phase, phase', ledger, charge, rfl, hcall, hadv, rfl⟩)
  | tick elapsed =>
    cases h
    exact .inr (.inr ⟨elapsed, rfl, rfl⟩)

theorem BudgetPhase.advance_call {now i : ℕ} {l l' : BudgetLedger} {phase phase' : BudgetPhase}
    {charge : Option Charge} (h : phase.advance now l i = some (phase', l', charge)) (j : ℕ) :
    chargesOf charge.toList j = if j = i then charge.toList else [] := by
  rcases BudgetPhase.advance_counter h with ⟨rfl, -⟩ | ⟨cost, e, periodStart, todo, -, rfl, -⟩
  · split
    · rfl
    · rfl
  · by_cases hj : j = i
    · simp [chargesOf, hj]
    · simp [chargesOf, hj, Ne.symm hj]

theorem readBudget_incrBudget (counter : MemoryCounterStore) (budgetId name : String)
    (p periodStart : Int) (cost : ℚ) :
    (counter.incrBudget budgetId p cost).2.readBudget name periodStart =
      counter.readBudget name periodStart +
        if budgetId = name ∧ p = periodStart then cost else 0 := by
  unfold MemoryCounterStore.incrBudget MemoryCounterStore.readBudget
  by_cases hslot : budgetId = name ∧ p = periodStart
  · obtain ⟨rfl, rfl⟩ := hslot
    simp only [Function.update_self, and_self, if_true]
  · have hne : (name, periodStart) ≠ (budgetId, p) := fun heq => by
      cases heq
      exact hslot ⟨rfl, rfl⟩
    simp only [Function.update_of_ne hne, if_neg hslot, add_zero]

theorem BudgetPhase.advance_spent {now i : ℕ} {l l' : BudgetLedger} {phase phase' : BudgetPhase}
    {charge : Option Charge} (h : phase.advance now l i = some (phase', l', charge))
    (name : String) (periodStart : Int) :
    l'.counter.readBudget name periodStart =
      l.counter.readBudget name periodStart + spentUnder charge.toList name periodStart := by
  rcases BudgetPhase.advance_counter h with ⟨rfl, hsame⟩ | ⟨cost, e, p, todo, -, rfl, hcounter⟩
  · rw [hsame]
    exact (add_zero _).symm
  · rw [hcounter, readBudget_incrBudget]
    by_cases hslot : e.1.name = name ∧ p = periodStart
    · simp [spentUnder, costs, hslot]
    · simp [spentUnder, costs, hslot]

theorem BudgetRun.Sound.step (h : s.Sound budgets) {m : BudgetMove}
    (hstep : s.step budgets m = some t) : t.Sound budgets := by
  rcases BudgetRun.step_cases hstep with ⟨c, -, rfl⟩ |
    ⟨i, c, phase, phase', ledger, charge, -, hcall, hadv, rfl⟩ | ⟨elapsed, -, rfl⟩
  · refine ⟨h.counter, ?_, ?_⟩
    · intro j c' phase hj
      rcases Nat.lt_or_ge j s.calls.length with hlt | hge
      · rw [List.getElem?_append_left hlt] at hj
        exact h.calls j c' phase hj
      · have hmine : chargesOf s.charges j = [] := by
          refine List.filter_eq_nil_iff.mpr fun x hx => ?_
          have hknown := h.known x hx
          simp only [decide_eq_true_eq]
          omega
        have hin := (List.getElem?_eq_some_iff.mp hj).1
        rw [List.length_append, List.length_singleton] at hin
        have hlast : j = s.calls.length := by
          omega
        rw [hlast, List.getElem?_concat_length] at hj
        cases hj
        rw [hmine]
        exact BudgetCall.start_serves c
    · intro x hx
      rw [List.length_append]
      exact Nat.lt_add_right _ (h.known x hx)
  · refine ⟨?_, ?_, ?_⟩
    · intro name periodStart
      rw [BudgetPhase.advance_spent hadv, spentUnder_append, h.counter]
    · intro j c' phase'' hj
      rw [chargesOf_append, BudgetPhase.advance_call hadv]
      by_cases hji : j = i
      · have hlt := (List.getElem?_eq_some_iff.mp hcall).1
        rw [hji, List.getElem?_set_self hlt] at hj
        cases hj
        rw [if_pos hji, hji]
        exact (h.calls i c phase hcall).advance hadv
      · rw [List.getElem?_set_ne (Ne.symm hji)] at hj
        rw [if_neg hji, List.append_nil]
        exact h.calls j c' phase'' hj
    · intro x hx
      rw [List.length_set]
      rcases List.mem_append.mp hx with hold | hnew
      · exact h.known x hold
      · have hmine := BudgetPhase.advance_call hadv i
        rw [if_pos rfl] at hmine
        rw [← hmine] at hnew
        have hxi : x.call = i := of_decide_eq_true (List.mem_filter.mp hnew).2
        rw [hxi]
        exact (List.getElem?_eq_some_iff.mp hcall).1
  · exact ⟨h.counter, h.calls, h.known⟩

theorem BudgetRun.Sound.of_reaches (h : Reaches (BudgetRun.step budgets) Always .init s) :
    s.Sound budgets :=
  h.invariant .init fun _ _ _ hs _ hstep => hs.step hstep

theorem BudgetPhase.Records.charged {entries : List (BudgetConfig × ℕ)} {cost : ℚ}
    {mine : List Charge} {phase : BudgetPhase} (h : phase.Records entries cost mine) {x : Charge}
    (hx : x ∈ mine) : 0 < cost ∧ x.entry ∈ entries := by
  have hentry : x.entry ∈ mine.map Charge.entry := List.mem_map_of_mem hx
  cases phase with
  | recording rate todo => exact ⟨h.2.1, h.2.2 ▸ List.mem_append_left _ hentry⟩
  | charging rate e periodStart todo => exact ⟨h.2.1, h.2.2 ▸ List.mem_append_left _ hentry⟩
  | alerting rate e periodStart used thresholds todo =>
    exact ⟨h.2.1, h.2.2 ▸ List.mem_append_left _ hentry⟩
  | recorded =>
    rw [show mine.map Charge.entry = _ from h] at hentry
    split at hentry
    · cases hentry
    · rename_i hcost
      exact ⟨not_le.mp hcost, hentry⟩
  | checking todo => exact absurd h id
  | reading e periodStart todo => exact absurd h id
  | answered blocked => exact absurd h id

theorem BudgetRun.Sound.charged (h : s.Sound budgets) {x : Charge} (hx : x ∈ s.charges) :
    0 < x.cost ∧ budgets[x.entry.2]? = some x.entry.1 := by
  have hknown := h.known x hx
  obtain ⟨⟨c, phase⟩, hcall⟩ : ∃ call, s.calls[x.call]? = some call :=
    ⟨_, List.getElem?_eq_getElem hknown⟩
  have hmine : x ∈ chargesOf s.charges x.call := List.mem_filter.mpr ⟨hx, decide_eq_true rfl⟩
  have hserves := h.calls x.call c phase hcall
  cases c with
  | recordCost projectId keyId cost =>
    obtain ⟨hpos, hentry⟩ := hserves.1.charged hmine
    have hcost := hserves.2 x hmine
    have hplace : x.entry ∈ budgets.zipIdx := (List.mem_filter.mp hentry).1
    exact ⟨hcost ▸ hpos, List.mem_zipIdx_iff_getElem?.mp hplace⟩
  | checkBlock projectId keyId =>
    rw [hserves.2] at hmine
    cases hmine

theorem BudgetRun.Sound.charging (h : s.Sound budgets) {i : ℕ} {c : BudgetCall} {cost : ℚ}
    {e : BudgetConfig × ℕ} {periodStart : Int} {todo : List (BudgetConfig × ℕ)}
    (hcall : s.calls[i]? = some (c, .charging cost e periodStart todo)) :
    0 < cost ∧ budgets[e.2]? = some e.1 := by
  have hserves := h.calls i c _ hcall
  cases c with
  | recordCost projectId keyId cost' =>
    obtain ⟨rfl, hpos, hentries⟩ := hserves.1
    have hmem : e ∈ matchingEntries budgets projectId keyId :=
      hentries ▸ List.mem_append_right _ (List.mem_cons_self ..)
    exact ⟨hpos, List.mem_zipIdx_iff_getElem?.mp (List.mem_filter.mp hmem).1⟩
  | checkBlock projectId keyId => exact absurd hserves.1 id

theorem costs_pos {charges : List Charge} (h : ∀ x ∈ charges, 0 < x.cost) (hne : charges ≠ []) :
    0 < costs charges := by
  refine List.sum_pos _ ?_ fun hnil => hne (List.map_eq_nil_iff.mp hnil)
  intro cost hcost
  obtain ⟨x, hx, rfl⟩ := List.mem_map.mp hcost
  exact h x hx

/-- The charges under a name in a period: the entry's own and those of its namesakes. -/
theorem spentUnder_split {charges : List Charge} {place : ℕ} {b : BudgetConfig}
    (h : ∀ x ∈ charges, x.entry.2 = place → x.entry.1 = b) (periodStart : Int) :
    spentUnder charges b.name periodStart = recordedFor charges place periodStart +
      costs (charges.filter fun x =>
        x.entry.2 ≠ place ∧ x.entry.1.name = b.name ∧ x.periodStart = periodStart) := by
  induction charges with
  | nil => exact (add_zero _).symm
  | cons x charges ih =>
    have hrest := ih fun y hy => h y (List.mem_cons_of_mem _ hy)
    have hown := h x (List.mem_cons_self ..)
    rw [spentUnder, recordedFor] at hrest ⊢
    simp only [List.filter_cons, decide_eq_true_eq]
    by_cases hperiod : x.periodStart = periodStart
    · by_cases hplace : x.entry.2 = place
      · have hname : x.entry.1.name = b.name := congrArg BudgetConfig.name (hown hplace)
        rw [if_pos ⟨hname, hperiod⟩, if_pos ⟨hplace, hperiod⟩, if_neg fun hx => hx.1 hplace,
          costs_cons, costs_cons, hrest, add_assoc]
      · by_cases hname : x.entry.1.name = b.name
        · rw [if_pos ⟨hname, hperiod⟩, if_neg fun hx => hplace hx.1,
            if_pos ⟨hplace, hname, hperiod⟩, costs_cons, costs_cons, hrest, add_left_comm]
        · rw [if_neg fun hx => hname hx.1, if_neg fun hx => hplace hx.1,
            if_neg fun hx => hname hx.2.1, hrest]
    · rw [if_neg fun hx => hperiod hx.2, if_neg fun hx => hperiod hx.2,
        if_neg fun hx => hperiod hx.2.2, hrest]

/-- What is reported as used is what was recorded for the budget, exactly when nothing was
recorded in its current period for another entry of the same name. Every finished
`record_cost` was recorded once for each budget it matches, and for no other. -/
theorem budget_usage_iff {config : AppConfig}
    (h : Reaches (BudgetRun.step config.budgets) Always .init s) {place : ℕ} {b : BudgetConfig}
    (hb : config.budgets[place]? = some b) :
    (currentUsage config.budgets s.ledger.counter s.now none)[place]? =
        some (budgetUsage s.ledger.counter s.now b) ∧
      ((budgetUsage s.ledger.counter s.now b).usedUsd =
          recordedFor s.charges place (periodStartFor s.now b.period) ↔
        ∀ x ∈ s.charges, x.entry.2 ≠ place → x.entry.1.name = b.name →
          x.periodStart ≠ periodStartFor s.now b.period) ∧
      ∀ i projectId keyId cost,
        s.calls[i]? = some (.recordCost projectId keyId cost, .recorded) →
        (chargesOf s.charges i).map (fun x => (x.entry, x.cost)) = if cost ≤ 0 then [] else
          (matchingEntries config.budgets projectId keyId).map fun e => (e, cost) := by
  have hsound := BudgetRun.Sound.of_reaches h
  have hplace : ∀ x ∈ s.charges, x.entry.2 = place → x.entry.1 = b := by
    intro x hx hxp
    have hentry := (hsound.charged hx).2
    rw [hxp, hb] at hentry
    exact (Option.some.inj hentry).symm
  have hsplit := spentUnder_split hplace (periodStartFor s.now b.period)
  have hused : (budgetUsage s.ledger.counter s.now b).usedUsd =
      spentUnder s.charges b.name (periodStartFor s.now b.period) := hsound.counter ..
  refine ⟨?_, ?_, ?_⟩
  · have hall : config.budgets.filter (fun b => (none : Option String).all fun p =>
        b.target.projectId.all fun tp => tp = p) = config.budgets :=
      List.filter_eq_self.mpr fun _ _ => rfl
    rw [currentUsage, hall, List.getElem?_map, hb]
    rfl
  · rw [hused, hsplit]
    constructor
    · intro hsum x hx hother hname hperiod
      have hmem : x ∈ s.charges.filter fun x => x.entry.2 ≠ place ∧ x.entry.1.name = b.name ∧
          x.periodStart = periodStartFor s.now b.period :=
        List.mem_filter.mpr ⟨hx, decide_eq_true ⟨hother, hname, hperiod⟩⟩
      have hpos := costs_pos
        (fun y hy => (hsound.charged (List.mem_filter.mp hy).1).1) (List.ne_nil_of_mem hmem)
      exact absurd (left_eq_add.mp hsum.symm) hpos.ne'
    · intro hnone
      have hnil : (s.charges.filter fun x => x.entry.2 ≠ place ∧ x.entry.1.name = b.name ∧
          x.periodStart = periodStartFor s.now b.period) = [] := by
        refine List.filter_eq_nil_iff.mpr fun x hx => ?_
        rw [decide_eq_true_eq]
        exact fun hforeign => hnone x hx hforeign.1 hforeign.2.1 hforeign.2.2
      rw [hnil]
      exact add_zero _
  · intro i projectId keyId cost hcall
    obtain ⟨hrecords, hcost⟩ := hsound.calls i _ _ hcall
    have hpairs : (chargesOf s.charges i).map (fun x => (x.entry, x.cost)) =
        ((chargesOf s.charges i).map Charge.entry).map fun e => (e, cost) := by
      rw [List.map_map]
      exact List.map_congr_left fun x hx => congrArg _ (hcost x hx)
    rw [hpairs, show (chargesOf s.charges i).map Charge.entry = _ from hrecords]
    split
    · rfl
    · rfl

end

def projectBudget (projectId : String) (amountUsd : ℚ) : BudgetConfig :=
  { name := "team", target := { projectId := some projectId }, period := "daily", amountUsd
    thresholds := [⟨1, "block", none⟩] }

/-- Two budgets of one name for two projects, which `validate` lets through. -/
def namesakes : AppConfig :=
  { storageProfile := .memory, budgets := [projectBudget "p1" 10, projectBudget "p2" 100] }

/-- A request of the project `p2` that cost 20 dollars. -/
def otherProject : List BudgetMove :=
  [.call (.recordCost "p2" "k1" 20), .advance 0, .advance 0, .advance 0, .advance 0, .advance 0]

theorem budget_usage_iff_ownProject :
    ∃ s, Reaches (BudgetRun.step namesakes.budgets) Always .init s ∧
      (chargesOf s.charges 0).map (fun x => x.entry.2) = [1] ∧
      ((budgetUsage s.ledger.counter s.now (projectBudget "p2" 100)).usedUsd =
          recordedFor s.charges 1 (periodStartFor s.now "daily") ↔
        ∀ x ∈ s.charges, x.entry.2 ≠ 1 → x.entry.1.name = "team" →
          x.periodStart ≠ periodStartFor s.now "daily") := by
  have hreach : Reaches (BudgetRun.step namesakes.budgets) Always .init _ :=
    Reaches.of_run otherProject .start rfl
  exact ⟨_, hreach, rfl, (budget_usage_iff hreach rfl).2.1⟩

/-- The budget of `p1` is used up by the other project, and blocks. -/
theorem budget_counts_namesake :
    namesakes.Validated ∧
      ∃ s, Reaches (BudgetRun.step namesakes.budgets) Always .init s ∧
        s.calls.map Prod.snd = [.recorded] ∧
        (budgetUsage s.ledger.counter s.now (projectBudget "p1" 10)).usedUsd = 20 ∧
        recordedFor s.charges 0 (periodStartFor s.now "daily") = 0 ∧
        checkBlock namesakes.budgets s.ledger.counter s.now "p1" "k2" = true := by
  refine ⟨⟨[], rfl, rfl⟩, _, Reaches.of_run otherProject .start rfl, rfl, ?_, rfl, ?_⟩
  · decide +kernel
  · decide +kernel

/-! ### Blocking -/

section
variable {budgets : List BudgetConfig} {s t : BudgetRun}

theorem BudgetRun.Sound.counter_mono (h : s.Sound budgets) {m : BudgetMove}
    (hstep : s.step budgets m = some t) (name : String) (periodStart : Int) :
    s.ledger.counter.readBudget name periodStart ≤ t.ledger.counter.readBudget name periodStart := by
  have ht := h.step hstep
  rcases BudgetRun.step_cases hstep with ⟨c, -, rfl⟩ |
    ⟨i, c, phase, phase', ledger, charge, -, -, -, rfl⟩ | ⟨elapsed, -, rfl⟩
  · exact le_rfl
  · rw [ht.counter, h.counter, spentUnder_append]
    refine le_add_of_nonneg_right (List.sum_nonneg fun cost hcost => ?_)
    obtain ⟨x, hx, rfl⟩ := List.mem_map.mp hcost
    exact (ht.charged (List.mem_append_right _ (List.mem_filter.mp hx).1)).1.le
  · exact le_rfl

/-- What a counter holds never falls. -/
theorem BudgetRun.counter_le (hs : Reaches (BudgetRun.step budgets) Always .init s)
    (ht : Reaches (BudgetRun.step budgets) Always s t) (name : String) (periodStart : Int) :
    s.ledger.counter.readBudget name periodStart ≤ t.ledger.counter.readBudget name periodStart := by
  induction ht with
  | start => exact le_rfl
  | next m hu _ hstep ih =>
    have hsound := BudgetRun.Sound.of_reaches (hs.trans hu)
    exact ih.trans (hsound.counter_mono hstep name periodStart)

theorem budgetPct_mono (b : BudgetConfig) {used used' : ℚ} (h : used ≤ used') :
    budgetPct b used ≤ budgetPct b used' := by
  unfold budgetPct
  split
  · rename_i hamount
    exact div_le_div_of_nonneg_right h hamount.le
  · exact le_rfl

theorem crossedBlock_mono {b : BudgetConfig} {used used' : ℚ} (h : used ≤ used')
    (hcrossed : crossedBlock b used = true) : crossedBlock b used' = true := by
  obtain ⟨th, hmem, hth⟩ := List.any_eq_true.mp hcrossed
  simp only [Bool.and_eq_true, decide_eq_true_eq] at hth
  refine List.any_eq_true.mpr ⟨th, hmem, ?_⟩
  simp only [Bool.and_eq_true, decide_eq_true_eq]
  exact ⟨hth.1.trans (budgetPct_mono b h), hth.2⟩

/-- The two loops over the thresholds agree. -/
theorem budgetUsage_blocked (counter : MemoryCounterStore) (now : ℕ) (b : BudgetConfig) :
    (budgetUsage counter now b).blocked =
      crossedBlock b (counter.readBudget b.name (periodStartFor now b.period)) := by
  unfold crossedBlock
  refine congrArg b.thresholds.any (funext fun th => ?_)
  exact Bool.and_comm ..

theorem checkBlock_iff (counter : MemoryCounterStore) (now : ℕ) (projectId keyId : String) :
    checkBlock budgets counter now projectId keyId = true ↔
      ∃ b ∈ matchingBudgets budgets projectId keyId,
        (budgetUsage counter now b).blocked = true := by
  rw [checkBlock, List.any_eq_true]
  simp only [budgetUsage_blocked]

/-- A budget that matches is reported, to the administrator and for its project. -/
theorem mem_currentUsage {b : BudgetConfig} {projectId keyId : String}
    (h : b ∈ matchingBudgets budgets projectId keyId) (counter : MemoryCounterStore) (now : ℕ)
    (asked : Option String) (hasked : asked = none ∨ asked = some projectId) :
    budgetUsage counter now b ∈ currentUsage budgets counter now asked := by
  obtain ⟨hmem, htarget⟩ := List.mem_filter.mp h
  refine List.mem_map_of_mem (List.mem_filter.mpr ⟨hmem, ?_⟩)
  rcases hasked with rfl | rfl
  · rfl
  · exact (Bool.and_eq_true_iff.mp htarget).1

/-- A budget that blocks goes on blocking as long as its period lasts, whichever requests
are recorded meanwhile; every `check_block` that comes to read it answers so. And
`check_block` is true exactly when a matching budget is reported as blocked. -/
theorem block_stable {config : AppConfig}
    (hs : Reaches (BudgetRun.step config.budgets) Always .init s)
    (ht : Reaches (BudgetRun.step config.budgets) Always s t) (projectId keyId : String) :
    (∀ b ∈ matchingBudgets config.budgets projectId keyId,
      (budgetUsage s.ledger.counter s.now b).blocked = true →
      (periodStartFor t.now b.period = periodStartFor s.now b.period →
        (budgetUsage t.ledger.counter t.now b).blocked = true ∧
          checkBlock config.budgets t.ledger.counter t.now projectId keyId = true) ∧
      ∀ i c place todo u, t.calls[i]? = some (c,
          .reading (b, place) (periodStartFor s.now b.period) todo) →
        t.step config.budgets (.advance i) = some u → u.calls[i]? = some (c, .answered true)) ∧
    ∀ asked, asked = none ∨ asked = some projectId →
      (checkBlock config.budgets s.ledger.counter s.now projectId keyId = true ↔
        ∃ b ∈ matchingBudgets config.budgets projectId keyId,
          budgetUsage s.ledger.counter s.now b ∈
            currentUsage config.budgets s.ledger.counter s.now asked ∧
          (budgetUsage s.ledger.counter s.now b).blocked = true) := by
  constructor
  · intro b hb hblocked
    rw [budgetUsage_blocked] at hblocked
    have hlater : crossedBlock b (t.ledger.counter.readBudget b.name
        (periodStartFor s.now b.period)) = true :=
      crossedBlock_mono (BudgetRun.counter_le hs ht _ _) hblocked
    constructor
    · intro hperiod
      have hblocked' : (budgetUsage t.ledger.counter t.now b).blocked = true := by
        rw [budgetUsage_blocked, hperiod]
        exact hlater
      exact ⟨hblocked', (checkBlock_iff _ _ _ _).mpr ⟨b, hb, hblocked'⟩⟩
    · intro i c place todo u hcall hstep
      have hlt := (List.getElem?_eq_some_iff.mp hcall).1
      simp only [BudgetRun.step, hcall, BudgetPhase.advance, hlater, if_true,
        Option.bind_eq_bind, Option.bind_some, Option.some.injEq] at hstep
      rw [← hstep]
      exact List.getElem?_set_self hlt
  · intro asked hasked
    rw [checkBlock_iff]
    constructor
    · rintro ⟨b, hb, hblocked⟩
      exact ⟨b, hb, mem_currentUsage hb _ _ asked hasked, hblocked⟩
    · rintro ⟨b, hb, -, hblocked⟩
      exact ⟨b, hb, hblocked⟩

end

def usedUp : BudgetRun :=
  (run (BudgetRun.step namesakes.budgets) .init otherProject).getD .init

/-- A second later the project itself spends five dollars more. -/
def ownProject : List BudgetMove :=
  [.tick 1000, .call (.recordCost "p1" "k2" 5), .advance 1, .advance 1, .advance 1, .advance 1,
    .advance 1]

theorem block_stable_ownProject :
    ∃ t, Reaches (BudgetRun.step namesakes.budgets) Always usedUp t ∧
      t.calls.map Prod.snd = [.recorded, .recorded] ∧ t.now = usedUp.now + 1000 ∧
      (budgetUsage usedUp.ledger.counter usedUp.now (projectBudget "p1" 10)).blocked = true ∧
      checkBlock namesakes.budgets t.ledger.counter t.now "p1" "k2" = true := by
  have hs : Reaches (BudgetRun.step namesakes.budgets) Always .init usedUp :=
    Reaches.of_run otherProject .start rfl
  have ht : Reaches (BudgetRun.step namesakes.budgets) Always usedUp _ :=
    Reaches.of_run ownProject .start rfl
  have hmatch : projectBudget "p1" 10 ∈ matchingBudgets namesakes.budgets "p1" "k2" :=
    List.mem_filter.mpr ⟨List.mem_cons_self .., rfl⟩
  have hblocked : (budgetUsage usedUp.ledger.counter usedUp.now
      (projectBudget "p1" 10)).blocked = true := by
    decide +kernel
  exact ⟨_, ht, rfl, rfl, hblocked, (((block_stable hs ht "p1" "k2").1 _ hmatch hblocked).1 rfl).2⟩

end AiGateway.Api
