import AiGateway.Api.BudgetRuns

/-!
# Threshold alerts (`gateway-api/src/budget.rs:97-165`)

`notified` is keyed by the name of the budget, the period and the truncated percentage.
Thresholds that share a key share one alert, and a counter that is charged for another
entry of the same name passes thresholds at which nobody looks.
-/

namespace AiGateway.Api
open AiGateway.Core AiGateway.Library.Runs AiGateway.Storage

/-- The usage has reached the threshold. -/
def Reached (b : BudgetConfig) (t : BudgetThreshold) (used : ℚ) : Prop :=
  t.at_ * b.amountUsd ≤ used

/-- How often a threshold of an entry was announced in a period. -/
def announced (alerts : List Alert) (place index : ℕ) (periodStart : Int) : ℕ :=
  alerts.countP fun a => a.entry.2 = place ∧ a.threshold.2 = index ∧ a.periodStart = periodStart

/-- A `record_cost` that has not returned. -/
def BudgetPhase.underWay : BudgetPhase → Bool
  | .recording .. => true
  | .charging .. => true
  | .alerting .. => true
  | _ => false

def BudgetRun.Quiet (s : BudgetRun) : Prop := ∀ call ∈ s.calls, call.2.underWay = false

/-- Every alert is of a reached threshold and none is repeated. A finished call has charged
every entry it matches, and when no call is under way every reached threshold of a charged
entry has its alert. -/
structure BudgetRun.AlertsExact (budgets : List BudgetConfig) (s : BudgetRun) : Prop where
  reached : ∀ a ∈ s.ledger.alerts, Reached a.entry.1 a.threshold.1
    (s.ledger.counter.readBudget a.entry.1.name a.periodStart)
  once : ∀ place index periodStart, announced s.ledger.alerts place index periodStart ≤ 1
  charged : ∀ i projectId keyId cost,
    s.calls[i]? = some (.recordCost projectId keyId cost, .recorded) → 0 < cost →
    (chargesOf s.charges i).map Charge.entry = matchingEntries budgets projectId keyId
  all : s.Quiet → ∀ x ∈ s.charges, ∀ t ∈ x.entry.1.thresholds.zipIdx,
    Reached x.entry.1 t.1 (s.ledger.counter.readBudget x.entry.1.name x.periodStart) →
    announced s.ledger.alerts x.entry.2 t.2 x.periodStart = 1

/-- No other entry of the name was charged in the period, or the charge takes the common
usage over none of its thresholds. -/
def ChargeClear (s : BudgetRun) (cost : ℚ) (e : BudgetConfig × ℕ) (periodStart : Int) : Prop :=
  ∀ x ∈ s.charges, x.entry.2 ≠ e.2 → x.entry.1.name = e.1.name → x.periodStart = periodStart →
    ∀ t ∈ x.entry.1.thresholds,
      Reached x.entry.1 t (s.ledger.counter.readBudget e.1.name periodStart + cost) →
      Reached x.entry.1 t (s.ledger.counter.readBudget e.1.name periodStart)

/-- The amount is positive, or the fraction 0 that stands for it decides alike; and if the
threshold is reached, no other one was announced under its key. -/
def LookClear (s : BudgetRun) (a : Alert) : Prop :=
  (0 < a.entry.1.amountUsd ∨ (a.threshold.1.at_ ≤ 0 ↔ Reached a.entry.1 a.threshold.1 a.used)) ∧
    (Reached a.entry.1 a.threshold.1 a.used → ∀ a' ∈ s.ledger.alerts, a'.key = a.key →
      a'.entry.2 = a.entry.2 ∧ a'.threshold.2 = a.threshold.2)

def BudgetPhase.Clear (s : BudgetRun) : BudgetPhase → Prop
  | .charging cost e periodStart _ => ChargeClear s cost e periodStart
  | .alerting _ e periodStart used (t :: _) _ => LookClear s ⟨e, t, periodStart, used⟩
  | _ => True

/-- The step reaches neither defect. -/
def BudgetRun.Clear (s : BudgetRun) : BudgetMove → Prop
  | .advance i => ∀ call ∈ s.calls[i]?, call.2.Clear s
  | _ => True

/-! ### What a run of such steps keeps -/

/-- The call has still to look at a threshold that it found reached. -/
def BudgetPhase.Awaits (e : BudgetConfig × ℕ) (periodStart : Int) (t : BudgetThreshold × ℕ) :
    BudgetPhase → Prop
  | .alerting _ e' periodStart' used thresholds _ =>
    e' = e ∧ periodStart' = periodStart ∧ t ∈ thresholds ∧ Reached e.1 t.1 used
  | _ => False

def Awaited (calls : List (BudgetCall × BudgetPhase)) (e : BudgetConfig × ℕ) (periodStart : Int)
    (t : BudgetThreshold × ℕ) : Prop :=
  ∃ (i : ℕ) (c : BudgetCall) (phase : BudgetPhase), calls[i]? = some (c, phase) ∧
    phase.Awaits e periodStart t

/-- A call's thresholds are its entry's, and its usage was once in the counter. -/
def BudgetPhase.Grounded (budgets : List BudgetConfig) (counter : MemoryCounterStore) :
    BudgetPhase → Prop
  | .alerting _ e periodStart used thresholds _ =>
    budgets[e.2]? = some e.1 ∧ thresholds <:+ e.1.thresholds.zipIdx ∧
      used ≤ counter.readBudget e.1.name periodStart
  | _ => True

structure Alert.Grounded (budgets : List BudgetConfig) (counter : MemoryCounterStore)
    (a : Alert) : Prop where
  entry : budgets[a.entry.2]? = some a.entry.1
  threshold : a.threshold ∈ a.entry.1.thresholds.zipIdx
  reached : Reached a.entry.1 a.threshold.1 (counter.readBudget a.entry.1.name a.periodStart)

structure BudgetRun.Announces (budgets : List BudgetConfig) (s : BudgetRun) : Prop where
  sound : s.Sound budgets
  keys : ∀ key, key ∈ s.ledger.notified ↔ ∃ a ∈ s.ledger.alerts, a.key = key
  distinct : (s.ledger.alerts.map Alert.key).Nodup
  alerts : ∀ a ∈ s.ledger.alerts, a.Grounded budgets s.ledger.counter
  calls : ∀ (i : ℕ) (c : BudgetCall) (phase : BudgetPhase), s.calls[i]? = some (c, phase) →
    phase.Grounded budgets s.ledger.counter
  /-- a reached threshold was announced or is still to be looked at -/
  due : ∀ x ∈ s.charges, ∀ t ∈ x.entry.1.thresholds.zipIdx,
    Reached x.entry.1 t.1 (s.ledger.counter.readBudget x.entry.1.name x.periodStart) →
    (∃ a ∈ s.ledger.alerts, a.entry = x.entry ∧ a.threshold = t ∧ a.periodStart = x.periodStart) ∨
      Awaited s.calls x.entry x.periodStart t

section
variable {budgets : List BudgetConfig} {s t : BudgetRun}

theorem BudgetPhase.Grounded.mono {counter counter' : MemoryCounterStore} {phase : BudgetPhase}
    (h : phase.Grounded budgets counter)
    (hle : ∀ name periodStart, counter.readBudget name periodStart ≤
      counter'.readBudget name periodStart) : phase.Grounded budgets counter' := by
  cases phase with
  | alerting cost e periodStart used thresholds todo => exact ⟨h.1, h.2.1, h.2.2.trans (hle _ _)⟩
  | _ => trivial

theorem Alert.Grounded.mono {counter counter' : MemoryCounterStore} {a : Alert}
    (h : a.Grounded budgets counter)
    (hle : ∀ name periodStart, counter.readBudget name periodStart ≤
      counter'.readBudget name periodStart) : a.Grounded budgets counter' :=
  ⟨h.entry, h.threshold, h.reached.trans (hle _ _)⟩

theorem entry_eq {e e' : BudgetConfig × ℕ} (h : budgets[e.2]? = some e.1)
    (h' : budgets[e'.2]? = some e'.1) (hplace : e.2 = e'.2) : e = e' := by
  rw [hplace, h', Option.some.injEq] at h
  exact Prod.ext h.symm hplace

theorem threshold_eq {b : BudgetConfig} {th th' : BudgetThreshold × ℕ}
    (h : th ∈ b.thresholds.zipIdx) (h' : th' ∈ b.thresholds.zipIdx) (hindex : th.2 = th'.2) :
    th = th' := by
  have hget := List.mem_zipIdx_iff_getElem?.mp h
  have hget' := List.mem_zipIdx_iff_getElem?.mp h'
  rw [hindex, hget', Option.some.injEq] at hget
  exact Prod.ext hget.symm hindex

theorem Awaited.set {calls : List (BudgetCall × BudgetPhase)} {i : ℕ} {c : BudgetCall}
    {phase phase' : BudgetPhase} (hcall : calls[i]? = some (c, phase)) {e : BudgetConfig × ℕ}
    {periodStart : Int} {th : BudgetThreshold × ℕ} (h : Awaited calls e periodStart th) :
    phase.Awaits e periodStart th ∨ Awaited (calls.set i (c, phase')) e periodStart th := by
  obtain ⟨j, c', phase'', hj, hawaits⟩ := h
  by_cases hji : j = i
  · rw [hji, hcall, Option.some.injEq] at hj
    cases hj
    exact .inl hawaits
  · refine .inr ⟨j, c', phase'', ?_, hawaits⟩
    rw [List.getElem?_set_ne (Ne.symm hji), hj]

theorem Awaited.of_set {calls : List (BudgetCall × BudgetPhase)} {i : ℕ} {c : BudgetCall}
    {phase phase' : BudgetPhase} (hcall : calls[i]? = some (c, phase)) {e : BudgetConfig × ℕ}
    {periodStart : Int} {th : BudgetThreshold × ℕ} (h : phase'.Awaits e periodStart th) :
    Awaited (calls.set i (c, phase')) e periodStart th :=
  ⟨i, c, phase', List.getElem?_set_self (List.getElem?_eq_some_iff.mp hcall).1, h⟩

theorem BudgetRun.Announces.calls_set (h : s.Announces budgets) {i : ℕ} {c : BudgetCall}
    {phase phase' : BudgetPhase} (hcall : s.calls[i]? = some (c, phase))
    {counter : MemoryCounterStore}
    (hle : ∀ name periodStart, s.ledger.counter.readBudget name periodStart ≤
      counter.readBudget name periodStart)
    (hground : phase'.Grounded budgets counter) (j : ℕ) (c' : BudgetCall) (phase'' : BudgetPhase)
    (hj : (s.calls.set i (c, phase'))[j]? = some (c', phase'')) :
    phase''.Grounded budgets counter := by
  by_cases hji : j = i
  · rw [hji, List.getElem?_set_self (List.getElem?_eq_some_iff.mp hcall).1, Option.some.injEq] at hj
    cases hj
    exact hground
  · rw [List.getElem?_set_ne (Ne.symm hji)] at hj
    exact (h.calls j c' phase'' hj).mono hle

/-- A step of a call that writes nothing. -/
theorem BudgetRun.Announces.keep (h : s.Announces budgets) {i : ℕ} {c : BudgetCall}
    {phase phase' : BudgetPhase} (hcall : s.calls[i]? = some (c, phase))
    (hlook : phase.toLookAt.getD [] = []) (hphase' : phase'.toLookAt = none)
    (hsound : BudgetRun.Sound budgets { s with calls := s.calls.set i (c, phase') }) :
    BudgetRun.Announces budgets { s with calls := s.calls.set i (c, phase') } where
  sound := hsound
  keys := h.keys
  distinct := h.distinct
  alerts := h.alerts
  calls := by
    have hground : phase'.Grounded budgets s.ledger.counter := by
      cases phase' with
      | alerting => cases hphase'
      | _ => trivial
    exact h.calls_set hcall (fun _ _ => le_rfl) hground
  due x hx th hth hreached := by
    rcases h.due x hx th hth hreached with halert | hawaited
    · exact .inl halert
    · refine .inr ((hawaited.set hcall).resolve_left ?_)
      cases phase with
      | alerting cost e periodStart used thresholds todo =>
        have hnil : thresholds = [] := hlook
        rintro ⟨-, -, hmem, -⟩
        rw [hnil] at hmem
        cases hmem
      | _ => exact id

theorem BudgetRun.Announces.charging (h : s.Announces budgets) {i : ℕ} {c : BudgetCall} {cost : ℚ}
    {e : BudgetConfig × ℕ} {periodStart : Int} {todo : List (BudgetConfig × ℕ)}
    (hcall : s.calls[i]? = some (c, .charging cost e periodStart todo))
    (hclear : ChargeClear s cost e periodStart) {used : ℚ} {ledger : BudgetLedger}
    (hcharge : s.ledger.charge e.1 periodStart cost = (used, ledger)) {t : BudgetRun}
    (ht : t = { s with
      ledger
      calls := s.calls.set i (c, .alerting cost e periodStart used e.1.thresholds.zipIdx todo)
      charges := s.charges ++ [⟨i, e, periodStart, cost⟩] })
    (hsound : t.Sound budgets) : t.Announces budgets := by
  obtain ⟨hpos, hplace⟩ := h.sound.charging hcall
  cases hcharge
  have hcounter : ∀ name p, t.ledger.counter.readBudget name p =
      s.ledger.counter.readBudget name p +
        if e.1.name = name ∧ periodStart = p then cost else 0 := by
    intro name p
    rw [ht]
    exact readBudget_incrBudget ..
  have hle : ∀ name p, s.ledger.counter.readBudget name p ≤
      t.ledger.counter.readBudget name p := by
    intro name p
    rw [hcounter]
    split
    · exact le_add_of_nonneg_right hpos.le
    · exact (add_zero _).ge
  have hown : t.ledger.counter.readBudget e.1.name periodStart =
      s.ledger.counter.readBudget e.1.name periodStart + cost := by
    rw [hcounter, if_pos ⟨rfl, rfl⟩]
  -- the call itself will look at every threshold of its entry
  have hawaits : ∀ th ∈ e.1.thresholds.zipIdx,
      Reached e.1 th.1 (t.ledger.counter.readBudget e.1.name periodStart) →
      Awaited t.calls e periodStart th := by
    intro th hth hreached
    rw [hown] at hreached
    rw [ht]
    exact Awaited.of_set hcall ⟨rfl, rfl, hth, hreached⟩
  subst ht
  refine ⟨hsound, h.keys, h.distinct, fun a ha => (h.alerts a ha).mono hle, ?_, ?_⟩
  · exact h.calls_set hcall hle ⟨hplace, List.suffix_rfl, hown.ge⟩
  · intro x hx th hth hreached
    rcases List.mem_append.mp hx with hold | hnew
    · by_cases hslot : e.1.name = x.entry.1.name ∧ periodStart = x.periodStart
      · by_cases hentry : x.entry.2 = e.2
        · have hsame : x.entry = e := entry_eq (h.sound.charged hold).2 hplace hentry
          rw [hsame] at hth hreached ⊢
          rw [← hslot.2] at hreached ⊢
          exact .inr (hawaits th hth hreached)
        · -- a charge of another entry passes no threshold of this one
          have hthreshold : th.1 ∈ x.entry.1.thresholds := List.fst_mem_of_mem_zipIdx hth
          rw [← hslot.1, ← hslot.2, hown] at hreached
          have hbefore := hclear x hold hentry hslot.1.symm hslot.2.symm th.1 hthreshold hreached
          rw [hslot.1, hslot.2] at hbefore
          exact (h.due x hold th hth hbefore).imp_right fun hawaited =>
            (hawaited.set hcall).resolve_left id
      · rw [hcounter, if_neg hslot, add_zero] at hreached
        exact (h.due x hold th hth hreached).imp_right fun hawaited =>
          (hawaited.set hcall).resolve_left id
    · cases List.mem_singleton.mp hnew
      exact .inr (hawaits th hth hreached)

theorem reached_iff {b : BudgetConfig} {th : BudgetThreshold} {used : ℚ}
    (h : 0 < b.amountUsd ∨ (th.at_ ≤ 0 ↔ Reached b th used)) :
    th.at_ ≤ budgetPct b used ↔ Reached b th used := by
  unfold budgetPct
  split
  · rename_i hpos
    exact le_div_iff₀ hpos
  · rename_i hpos
    exact h.resolve_left hpos

theorem BudgetLedger.lookAt_cases (l : BudgetLedger) (a : Alert) :
    (a.threshold.1.at_ ≤ budgetPct a.entry.1 a.used ∧ a.key ∉ l.notified ∧
        l.lookAt a = { l with notified := a.key :: l.notified, alerts := l.alerts ++ [a] }) ∨
      ((a.threshold.1.at_ ≤ budgetPct a.entry.1 a.used → a.key ∈ l.notified) ∧
        l.lookAt a = l) := by
  unfold BudgetLedger.lookAt
  by_cases hat : a.threshold.1.at_ ≤ budgetPct a.entry.1 a.used
  · by_cases hkey : a.key ∈ l.notified
    · exact .inr ⟨fun _ => hkey, by rw [if_pos hat, if_pos hkey]⟩
    · exact .inl ⟨hat, hkey, by rw [if_pos hat, if_neg hkey]⟩
  · exact .inr ⟨fun h => absurd h hat, by rw [if_neg hat]⟩

/-- What the call no longer waits for has its alert, if it was reached. -/
theorem BudgetRun.Announces.due_looked (h : s.Announces budgets) {i : ℕ} {c : BudgetCall}
    {cost used : ℚ} {e : BudgetConfig × ℕ} {periodStart : Int} {th : BudgetThreshold × ℕ}
    {thresholds : List (BudgetThreshold × ℕ)} {todo : List (BudgetConfig × ℕ)}
    (hcall : s.calls[i]? = some (c, .alerting cost e periodStart used (th :: thresholds) todo))
    {alerts : List Alert} (hkeep : ∀ a ∈ s.ledger.alerts, a ∈ alerts)
    (hlooked : Reached e.1 th.1 used →
      ∃ a ∈ alerts, a.entry = e ∧ a.threshold = th ∧ a.periodStart = periodStart)
    {x : Charge} (hx : x ∈ s.charges) {th' : BudgetThreshold × ℕ}
    (hth' : th' ∈ x.entry.1.thresholds.zipIdx)
    (hreached : Reached x.entry.1 th'.1
      (s.ledger.counter.readBudget x.entry.1.name x.periodStart)) :
    (∃ a ∈ alerts, a.entry = x.entry ∧ a.threshold = th' ∧ a.periodStart = x.periodStart) ∨
      Awaited (s.calls.set i (c, .alerting cost e periodStart used thresholds todo))
        x.entry x.periodStart th' := by
  rcases h.due x hx th' hth' hreached with ⟨a, ha, hsame⟩ | hawaited
  · exact .inl ⟨a, hkeep a ha, hsame⟩
  · rcases hawaited.set hcall with ⟨hentry, hperiod, hmem, hreached'⟩ | hother
    · rw [← hentry, ← hperiod]
      rw [← hentry] at hreached'
      rcases List.mem_cons.mp hmem with rfl | hlater
      · exact .inl (hlooked hreached')
      · exact .inr (Awaited.of_set hcall ⟨rfl, rfl, hlater, hreached'⟩)
    · exact .inr hother

/-- An alert under a key of its own. -/
theorem BudgetRun.Announces.alerting (h : s.Announces budgets) {a : Alert}
    (hfresh : a.key ∉ s.ledger.notified) :
    (∀ key, key ∈ a.key :: s.ledger.notified ↔ ∃ a' ∈ s.ledger.alerts ++ [a], a'.key = key) ∧
      ((s.ledger.alerts ++ [a]).map Alert.key).Nodup := by
  constructor
  · intro key
    rw [List.mem_cons, h.keys]
    constructor
    · rintro (rfl | ⟨a', ha', hkey⟩)
      · exact ⟨a, List.mem_append_right _ (List.mem_singleton_self _), rfl⟩
      · exact ⟨a', List.mem_append_left _ ha', hkey⟩
    · rintro ⟨a', ha', hkey⟩
      rcases List.mem_append.mp ha' with hold | hnew
      · exact .inr ⟨a', hold, hkey⟩
      · rw [List.mem_singleton.mp hnew] at hkey
        exact .inl hkey.symm
  · rw [List.map_append]
    refine h.distinct.append (List.nodup_singleton _) ?_
    intro key hold hnew
    rw [List.mem_singleton.mp hnew] at hold
    exact hfresh ((h.keys _).mpr (List.mem_map.mp hold))

theorem BudgetRun.Announces.looking (h : s.Announces budgets) {i : ℕ} {c : BudgetCall}
    {cost used : ℚ} {e : BudgetConfig × ℕ} {periodStart : Int} {th : BudgetThreshold × ℕ}
    {thresholds : List (BudgetThreshold × ℕ)} {todo : List (BudgetConfig × ℕ)}
    (hcall : s.calls[i]? = some (c, .alerting cost e periodStart used (th :: thresholds) todo))
    (hclear : LookClear s ⟨e, th, periodStart, used⟩) {t : BudgetRun}
    (ht : t = { s with
      ledger := s.ledger.lookAt ⟨e, th, periodStart, used⟩
      calls := s.calls.set i (c, .alerting cost e periodStart used thresholds todo) })
    (hsound : t.Sound budgets) : t.Announces budgets := by
  obtain ⟨hplace, hsuffix, hused⟩ := h.calls i c _ hcall
  have hth : th ∈ e.1.thresholds.zipIdx := hsuffix.subset (List.mem_cons_self ..)
  have hiff := reached_iff hclear.1
  have hground : BudgetPhase.Grounded budgets s.ledger.counter
      (.alerting cost e periodStart used thresholds todo) :=
    ⟨hplace, (List.suffix_cons _ _).trans hsuffix, hused⟩
  have hcalls := h.calls_set hcall (fun _ _ => le_rfl) hground
  rcases s.ledger.lookAt_cases ⟨e, th, periodStart, used⟩ with ⟨hat, hfresh, hlook⟩ | ⟨hknown, hlook⟩
  · rw [hlook] at ht
    subst ht
    obtain ⟨hkeys, hdistinct⟩ := h.alerting hfresh
    refine ⟨hsound, hkeys, hdistinct, ?_, hcalls, fun x hx th' hth' hreached => ?_⟩
    · intro a ha
      rcases List.mem_append.mp ha with hold | hnew
      · exact h.alerts a hold
      · rw [List.mem_singleton.mp hnew]
        exact ⟨hplace, hth, (hiff.mp hat).trans hused⟩
    · have hnow : ∃ a ∈ s.ledger.alerts ++ [⟨e, th, periodStart, used⟩],
          a.entry = e ∧ a.threshold = th ∧ a.periodStart = periodStart :=
        ⟨_, List.mem_append_right _ (List.mem_singleton_self _), rfl, rfl, rfl⟩
      exact h.due_looked hcall (fun a ha => List.mem_append_left _ ha) (fun _ => hnow) hx hth' hreached
  · rw [hlook] at ht
    subst ht
    have hbefore : Reached e.1 th.1 used → ∃ a ∈ s.ledger.alerts,
        a.entry = e ∧ a.threshold = th ∧ a.periodStart = periodStart := by
      intro hreached
      obtain ⟨a, ha, hkey⟩ := (h.keys _).mp (hknown (hiff.mpr hreached))
      obtain ⟨hentry, hindex⟩ := hclear.2 hreached a ha hkey
      have hsame : a.entry = e := entry_eq (h.alerts a ha).entry hplace hentry
      have hmem := (h.alerts a ha).threshold
      rw [hsame] at hmem
      exact ⟨a, ha, hsame, threshold_eq hmem hth hindex, congrArg (fun k => k.2.1) hkey⟩
    exact ⟨hsound, h.keys, h.distinct, h.alerts, hcalls, fun x hx th' hth' hreached =>
      h.due_looked hcall (fun a ha => ha) hbefore hx hth' hreached⟩

theorem BudgetCall.start_grounded (c : BudgetCall) (counter : MemoryCounterStore) :
    (c.start budgets).Grounded budgets counter := by
  cases c with
  | recordCost projectId keyId cost =>
    simp only [BudgetCall.start]
    split
    · trivial
    · trivial
  | checkBlock projectId keyId => trivial

theorem BudgetRun.Announces.calling (h : s.Announces budgets) (c : BudgetCall)
    (hsound : BudgetRun.Sound budgets { s with calls := s.calls ++ [(c, c.start budgets)] }) :
    BudgetRun.Announces budgets { s with calls := s.calls ++ [(c, c.start budgets)] } where
  sound := hsound
  keys := h.keys
  distinct := h.distinct
  alerts := h.alerts
  calls j c' phase hj := by
    rcases Nat.lt_or_ge j s.calls.length with hlt | hge
    · rw [List.getElem?_append_left hlt] at hj
      exact h.calls j c' phase hj
    · rw [List.getElem?_append_right hge] at hj
      obtain ⟨-, hget⟩ := List.mem_singleton.mp (List.mem_of_getElem? hj) |> Prod.mk.inj
      rw [hget]
      exact BudgetCall.start_grounded ..
  due x hx th hth hreached := by
    refine (h.due x hx th hth hreached).imp_right ?_
    rintro ⟨j, c', phase, hj, hawaits⟩
    have hlt := (List.getElem?_eq_some_iff.mp hj).1
    exact ⟨j, c', phase, (List.getElem?_append_left hlt).trans hj, hawaits⟩

theorem BudgetRun.Announces.step (h : s.Announces budgets) {m : BudgetMove} (hclear : s.Clear m)
    (hstep : s.step budgets m = some t) : t.Announces budgets := by
  have hsound := h.sound.step hstep
  rcases BudgetRun.step_cases hstep with ⟨c, -, rfl⟩ |
    ⟨i, c, phase, phase', ledger, charge, rfl, hcall, hadv, rfl⟩ | ⟨elapsed, -, rfl⟩
  · exact h.calling c hsound
  · have hphase : phase.Clear s := hclear _ hcall
    rcases BudgetPhase.advance_cases hadv with ⟨cost, e, periodStart, todo, rfl, rfl, rfl, rfl⟩ |
      ⟨cost, e, periodStart, used, th, thresholds, todo, rfl, rfl, rfl, rfl⟩ |
      ⟨hlook, hphase', rfl, rfl⟩
    · exact h.charging hcall hphase rfl rfl hsound
    · simp only [Option.toList_none, List.append_nil] at hsound ⊢
      exact h.looking hcall hphase rfl hsound
    · simp only [Option.toList_none, List.append_nil] at hsound ⊢
      exact h.keep hcall hlook hphase' hsound
  · exact ⟨hsound, h.keys, h.distinct, h.alerts, h.calls, h.due⟩

theorem BudgetRun.Announces.init : BudgetRun.Announces budgets .init where
  sound := .init
  keys key := by
    constructor
    · intro h
      cases h
    · rintro ⟨a, ha, -⟩
      cases ha
  distinct := List.nodup_nil
  alerts a ha := by cases ha
  calls j c phase hj := by cases hj
  due x hx := by cases hx

theorem BudgetRun.Announces.of_reaches
    (h : Reaches (BudgetRun.step budgets) BudgetRun.Clear .init s) : s.Announces budgets :=
  h.invariant .init fun _ _ _ hs hclear hstep => hs.step hclear hstep

theorem BudgetRun.Announces.once (h : s.Announces budgets) (place index : ℕ) (periodStart : Int) :
    announced s.ledger.alerts place index periodStart ≤ 1 := by
  rcases Nat.eq_zero_or_pos (announced s.ledger.alerts place index periodStart) with hnone | hsome
  · omega
  · obtain ⟨a, ha, hslot⟩ := List.countP_pos_iff.mp hsome
    obtain ⟨rfl, rfl, rfl⟩ := of_decide_eq_true hslot
    -- two alerts of the slot have one key
    have hkey : ∀ a' ∈ s.ledger.alerts, a'.entry.2 = a.entry.2 ∧
        a'.threshold.2 = a.threshold.2 ∧ a'.periodStart = a.periodStart → a'.key = a.key := by
      rintro a' ha' ⟨hplace, hindex, hperiod⟩
      have hg := h.alerts a ha
      have hg' := h.alerts a' ha'
      have hentry : a'.entry = a.entry := entry_eq hg'.entry hg.entry hplace
      have hmem := hg'.threshold
      rw [hentry] at hmem
      have hthreshold : a'.threshold = a.threshold := threshold_eq hmem hg.threshold hindex
      rw [Alert.key, Alert.key, hentry, hthreshold, hperiod]
    calc announced s.ledger.alerts a.entry.2 a.threshold.2 a.periodStart
      _ ≤ s.ledger.alerts.countP ((· == a.key) ∘ Alert.key) := by
        refine List.countP_mono_left fun a' ha' hslot' => ?_
        exact beq_iff_eq.mpr (hkey a' ha' (of_decide_eq_true hslot'))
      _ = (s.ledger.alerts.map Alert.key).count a.key := by
        rw [List.count_eq_countP, List.countP_map]
      _ ≤ 1 := List.nodup_iff_count_le_one.mp h.distinct _

/-- No two alerts of the configuration can share a key, and no amount is zero. -/
structure DistinctKeys (budgets : List BudgetConfig) : Prop where
  amounts : ∀ b ∈ budgets, 0 < b.amountUsd
  names : (budgets.map BudgetConfig.name).Nodup
  percents : ∀ b ∈ budgets, (b.thresholds.map thresholdBucket).Nodup

theorem DistinctKeys.place_eq (hd : DistinctKeys budgets) {e e' : BudgetConfig × ℕ}
    (h : budgets[e.2]? = some e.1) (h' : budgets[e'.2]? = some e'.1)
    (hname : e.1.name = e'.1.name) : e.2 = e'.2 := by
  have hlt : e.2 < (budgets.map BudgetConfig.name).length := by
    rw [List.length_map]
    exact (List.getElem?_eq_some_iff.mp h).1
  refine (List.getElem?_inj hlt hd.names).mp ?_
  rw [List.getElem?_map, List.getElem?_map, h, h', Option.map_some, Option.map_some, hname]

theorem DistinctKeys.clear (hd : DistinctKeys budgets) (h : s.Announces budgets)
    (m : BudgetMove) : s.Clear m := by
  cases m with
  | call c => trivial
  | tick elapsed => trivial
  | advance i =>
    rintro ⟨c, phase⟩ hcall
    cases phase with
    | charging cost e periodStart todo =>
      intro x hx hother hname
      exact absurd (hd.place_eq (h.sound.charged hx).2 (h.sound.charging hcall).2 hname) hother
    | alerting cost e periodStart used thresholds todo =>
      cases thresholds with
      | nil => trivial
      | cons th thresholds =>
        obtain ⟨hplace, hsuffix, -⟩ := h.calls i c _ hcall
        have hmem : e.1 ∈ budgets := List.mem_of_getElem? hplace
        have hth : e.1.thresholds[th.2]? = some th.1 :=
          List.mem_zipIdx_iff_getElem?.mp (hsuffix.subset (List.mem_cons_self ..))
        refine ⟨.inl (hd.amounts e.1 hmem), fun _ a ha hkey => ?_⟩
        have hg := h.alerts a ha
        have hentry : a.entry.2 = e.2 :=
          hd.place_eq hg.entry hplace (congrArg (fun k => k.1) hkey)
        have hsame : a.entry = e := entry_eq hg.entry hplace hentry
        have hath : e.1.thresholds[a.threshold.2]? = some a.threshold.1 := by
          have hath := List.mem_zipIdx_iff_getElem?.mp hg.threshold
          rwa [hsame] at hath
        have hlt : a.threshold.2 < (e.1.thresholds.map thresholdBucket).length := by
          rw [List.length_map]
          exact (List.getElem?_eq_some_iff.mp hath).1
        have hbucket : thresholdBucket a.threshold.1 = thresholdBucket th.1 :=
          congrArg (fun k => k.2.2) hkey
        refine ⟨hentry, (List.getElem?_inj hlt (hd.percents e.1 hmem)).mp ?_⟩
        rw [List.getElem?_map, List.getElem?_map, hath, hth, Option.map_some, Option.map_some,
          hbucket]
    | recording cost todo => trivial
    | recorded => trivial
    | checking todo => trivial
    | reading e periodStart todo => trivial
    | answered blocked => trivial

/-- With such a configuration no step reaches a defect. -/
theorem DistinctKeys.reaches (hd : DistinctKeys budgets)
    (h : Reaches (BudgetRun.step budgets) Always .init s) :
    Reaches (BudgetRun.step budgets) BudgetRun.Clear .init s := by
  induction h with
  | start => exact .start
  | next m _ _ hstep ih => exact .next m ih (hd.clear (.of_reaches ih) m) hstep

theorem BudgetPhase.Awaits.underWay {phase : BudgetPhase} {e : BudgetConfig × ℕ}
    {periodStart : Int} {th : BudgetThreshold × ℕ} (h : phase.Awaits e periodStart th) :
    phase.underWay = true := by
  cases phase with
  | alerting cost e' periodStart' used thresholds todo => rfl
  | _ => exact absurd h id

/-- In every run whose steps reach neither defect, and in every state of it, the alerts are
exact. -/
theorem alerts_exact {config : AppConfig}
    (h : Reaches (BudgetRun.step config.budgets) BudgetRun.Clear .init s) :
    s.AlertsExact config.budgets := by
  have hannounces := BudgetRun.Announces.of_reaches h
  refine ⟨fun a ha => (hannounces.alerts a ha).reached, hannounces.once, ?_, ?_⟩
  · intro i projectId keyId cost hcall hpos
    have hrecords := (hannounces.sound.calls i _ _ hcall).1
    simp only [BudgetPhase.Records, if_neg (not_le.mpr hpos)] at hrecords
    exact hrecords
  intro hquiet x hx th hth hreached
  rcases hannounces.due x hx th hth hreached with ⟨a, ha, hentry, hthreshold, hperiod⟩ |
    ⟨j, c, phase, hj, hawaits⟩
  · have hpos : 0 < announced s.ledger.alerts x.entry.2 th.2 x.periodStart := by
      refine List.countP_pos_iff.mpr ⟨a, ha, decide_eq_true ?_⟩
      rw [hentry, hthreshold, hperiod]
      exact ⟨rfl, rfl, rfl⟩
    have honce := hannounces.once x.entry.2 th.2 x.periodStart
    omega
  · have hstill := hawaits.underWay
    rw [hquiet (c, phase) (List.mem_of_getElem? hj)] at hstill
    cases hstill

end

/-- A budget of 10 dollars with a notification at a fraction of it and a block at another. -/
def notifyThenBlock (notifyAt blockAt : ℚ) : AppConfig :=
  { storageProfile := .memory
    budgets := [{ name := "team", target := { projectId := some "p1" }, period := "daily",
                  amountUsd := 10
                  thresholds := [⟨notifyAt, "notify", some "hook"⟩, ⟨blockAt, "block", none⟩] }] }

/-- A request that costs the whole amount. -/
def wholeAmount : List BudgetMove :=
  [.call (.recordCost "p1" "k1" 10), .advance 0, .advance 0, .advance 0, .advance 0, .advance 0,
    .advance 0]

def afterWhole (config : AppConfig) : BudgetRun :=
  (run (BudgetRun.step config.budgets) .init wholeAmount).getD .init

theorem alerts_exact_bothCrossed :
    (afterWhole (notifyThenBlock (4 / 5) 1)).ledger.alerts.map (fun a => a.threshold.1.action) =
        ["notify", "block"] ∧
      (afterWhole (notifyThenBlock (4 / 5) 1)).AlertsExact
        (notifyThenBlock (4 / 5) 1).budgets := by
  have hreach : Reaches (BudgetRun.step (notifyThenBlock (4 / 5) 1).budgets) Always .init
      (afterWhole (notifyThenBlock (4 / 5) 1)) := Reaches.of_run wholeAmount .start rfl
  have hkeys : DistinctKeys (notifyThenBlock (4 / 5) 1).budgets := by
    refine ⟨?_, ?_, ?_⟩
    · decide +kernel
    · decide +kernel
    · decide +kernel
  exact ⟨by decide +kernel, alerts_exact (hkeys.reaches hreach)⟩

/-- Both thresholds are the whole amount, and only the first of them is announced. -/
theorem alerts_share_key :
    (notifyThenBlock 1 1).Validated ∧
      Reaches (BudgetRun.step (notifyThenBlock 1 1).budgets) Always .init
        (afterWhole (notifyThenBlock 1 1)) ∧
      (afterWhole (notifyThenBlock 1 1)).Quiet ∧
      (afterWhole (notifyThenBlock 1 1)).ledger.alerts.map (fun a => a.threshold.1.action) =
        ["notify"] ∧
      ¬(afterWhole (notifyThenBlock 1 1)).AlertsExact (notifyThenBlock 1 1).budgets := by
  have hreach : Reaches (BudgetRun.step (notifyThenBlock 1 1).budgets) Always .init
      (afterWhole (notifyThenBlock 1 1)) := Reaches.of_run wholeAmount .start rfl
  have hquiet : (afterWhole (notifyThenBlock 1 1)).Quiet := by
    intro call hcall
    cases List.mem_singleton.mp hcall
    rfl
  refine ⟨⟨[], rfl, rfl⟩, hreach, hquiet, by decide +kernel, fun hexact => ?_⟩
  have hblock := hexact.all hquiet _ (List.mem_singleton_self _) (⟨1, "block", none⟩, 1)
    (by decide +kernel) (by unfold Reached; decide +kernel)
  revert hblock
  decide +kernel

end AiGateway.Api
