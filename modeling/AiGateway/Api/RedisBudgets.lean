import AiGateway.Api.BudgetRuns
import AiGateway.Storage.RedisCounters

/-!
# Budgets over Redis (`gateway-api/src/budget.rs:55-120`)

`record_cost` and `check_block` of any number of replicas share one `RedisCounterStore`. A
failed `incr_budget` leaves its loop going, and a failed `read_budget` counts as no usage.
Beside each call of `incr_budget` the machine keeps the request that made it and the clock of
its replica, from which the period was computed. The announcements are left out here.
-/

namespace AiGateway.Api.RedisBudgets
open AiGateway.Core AiGateway.Library.Calendar AiGateway.Library.Runs
open AiGateway.Library.ExpiringCounters (Clients Call Addition AddedAs Span Timely total)
open AiGateway.Storage AiGateway.Storage.RedisCounterStore

abbrev Usage := Clients (String × Int) String ℚ

inductive Stage where
  -- inside `record_cost`, before the first budget of `todo`
  | recording (cost : ℚ) (todo : List BudgetConfig)
  -- `incr_budget` runs as the given call
  | charging (cost : ℚ) (call : ℕ) (todo : List BudgetConfig)
  | recorded
  -- inside `check_block`
  | checking (todo : List BudgetConfig)
  | reading (b : BudgetConfig) (periodStart : Int) (todo : List BudgetConfig)
  | answered (blocked : Bool)

structure Request where
  -- the budgets of the configuration it loaded
  budgets : List BudgetConfig
  call : BudgetCall
  stage : Stage

structure Owner where
  request : ℕ
  clock : ℕ

structure State where
  redis : Usage
  requests : List Request
  owners : List Owner

inductive Move where
  | tick (ms : ℕ)
  | call (budgets : List BudgetConfig) (c : BudgetCall)
  -- request `i` goes on; the clock of its replica shows `clock`
  | advance (i : ℕ) (clock : ℕ)
  -- the read of a `check_block`
  | read (i : ℕ) (lost : Bool)
  -- the next command of a call of `incr_budget`
  | command (call : ℕ) (reply : Library.ExpiringCounters.Reply)

def start (budgets : List BudgetConfig) : BudgetCall → Stage
  | .recordCost projectId keyId cost =>
    if cost ≤ 0 then .recorded else .recording cost (matchingBudgets budgets projectId keyId)
  | .checkBlock projectId keyId => .checking (matchingBudgets budgets projectId keyId)

def finished (redis : Usage) (call : ℕ) : Bool :=
  match (redis.calls[call]?).map Call.phase with
  | some (.returned _) => true
  | some .failed => true
  | _ => false

/-- The next stage and the charge of the call that it waits for, if it makes one. -/
def Stage.advance (redis : Usage) (clock : ℕ) : Stage → Option (Stage × Option ((String × Int) × ℚ))
  | .recording _ [] => some (.recorded, none)
  | .recording cost (b :: todo) =>
    some (.charging cost redis.calls.length todo,
      some ((b.name, periodStartFor clock b.period), cost))
  | .charging cost call todo =>
    if finished redis call then some (.recording cost todo, none) else none
  | .recorded => none
  | .checking [] => some (.answered false, none)
  | .checking (b :: todo) => some (.reading b (periodStartFor clock b.period) todo, none)
  | .reading _ _ _ => none
  | .answered _ => none

def storeStep (redis : Usage) (m : Library.ExpiringCounters.Move (String × Int) ℚ) : Option Usage :=
  Clients.step (fun _ => true) budgetKey redis m

/-- `read_budget`. -/
def State.used (s : State) (budget : String × Int) : ℚ := s.redis.server.valueOf (budgetKey budget)

def State.step (s : State) : Move → Option State
  | .tick ms => (storeStep s.redis (.tick ms)).map fun redis => { s with redis }
  | .call budgets c => some { s with requests := s.requests ++ [⟨budgets, c, start budgets c⟩] }
  | .advance i clock => do
    let r ← s.requests[i]?
    let (stage, charge) ← r.stage.advance s.redis clock
    let requests := s.requests.set i { r with stage := stage }
    match charge with
    | none => some { s with requests }
    | some (budget, cost) =>
      (storeStep s.redis (.call budget cost budgetExpireMs)).map fun redis =>
        { redis, requests, owners := s.owners ++ [⟨i, clock⟩] }
  | .read i lost => do
    let r ← s.requests[i]?
    match r.stage with
    | .reading b periodStart todo =>
      let used := if lost then 0 else s.used (b.name, periodStart)
      let stage := if crossedBlock b used then .answered true else .checking todo
      some { s with requests := s.requests.set i { r with stage := stage } }
    | _ => none
  | .command call reply => (storeStep s.redis (.command call reply)).map fun redis => { s with redis }

def State.init : State := ⟨.init, [], []⟩

/-- An `INCRBYFLOAT` reaches the server when its clock is no further than `slack` from the one
that the period was computed from. -/
def InTime (slack : ℕ) (s : State) : Move → Prop
  | .command i _ =>
    ∀ call owner, s.redis.calls[i]? = some call → call.phase = .started →
      s.owners[i]? = some owner →
      owner.clock ≤ s.redis.server.now + slack ∧ s.redis.server.now ≤ owner.clock + slack
  | _ => True

/-! ### Periods and lifetimes -/

theorem monthLengths_le {year m len : ℕ} (h : (monthLengths year)[m]? = some len) : len ≤ 31 := by
  have hmem := List.mem_of_getElem? h
  have hfebruary : (if isLeap year then 29 else 28) ≤ 31 := by
    split <;> omega
  simp only [monthLengths, List.mem_cons, List.not_mem_nil, or_false] at hmem
  omega

theorem dayOf_first_gt (day : ℕ) : day < dayOf { dateOf day with day := 1 } + 31 := by
  have hfirst : ∀ date : Date, dayOf date = dayOf { date with day := 1 } + (date.day - 1) := by
    intro date
    simp [dayOf]
  obtain ⟨len, hlen, hle⟩ := (dateFrom_valid 1970 day).length
  have hlong := monthLengths_le hlen
  have hday := hfirst (dateOf day)
  rw [dayOf_dateOf] at hday
  have hdate : (dateFrom 1970 day).day = (dateOf day).day := by
    rw [dateFrom, dateOf]
  dsimp only
  omega

/-- No period is longer than 31 days. -/
theorem periodStartFor_gt (now : ℕ) (period : String) :
    (now : Int) < periodStartFor now period + 31 * dayMs := by
  have hfirst := dayOf_first_gt (now / dayMs)
  unfold periodStartFor
  simp only [dayMs] at hfirst ⊢
  split
  · omega
  · split <;> omega

/-- The time in which charges of a period can reach the server. -/
def budgetSpan (slack : ℕ) (budget : String × Int) : Span where
  opens := (budget.2 - slack).toNat
  closes := (budget.2 + 31 * dayMs + slack).toNat

theorem budgetSpan_clock (slack clock now : ℕ) (name period : String)
    (hafter : clock ≤ now + slack) (hbefore : now ≤ clock + slack) :
    (budgetSpan slack (name, periodStartFor clock period)).opens ≤ now ∧
      now ≤ (budgetSpan slack (name, periodStartFor clock period)).closes := by
  have hle := periodStartFor_le clock period
  have hgt := periodStartFor_gt clock period
  simp only [budgetSpan]
  omega

theorem budgetSpan_long {slack : ℕ} (hslack : slack ≤ 2 * dayMs) (budget : String × Int) :
    (budgetSpan slack budget).closes ≤ (budgetSpan slack budget).opens + budgetExpireMs := by
  simp only [budgetSpan, budgetExpireMs, dayMs] at hslack ⊢
  omega

/-! ### Who charged what -/

def paid (call : Call (String × Int) ℚ) : (String × Int) × ℚ := (call.key, call.delta)

/-- The charges that request `i` has made, each with its owner. -/
def State.charges (s : State) (i : ℕ) : List (Owner × (String × Int) × ℚ) :=
  (s.owners.zip (s.redis.calls.map paid)).filter fun x => x.1.request = i

/-- A charge for a budget, in the period of its clock. -/
def ChargesFor (cost : ℚ) (x : Owner × (String × Int) × ℚ) (b : BudgetConfig) : Prop :=
  x.2 = ((b.name, periodStartFor x.1.clock b.period), cost)

/-- The charges made are those for the first budgets, one each, and the others are to come. -/
def Made (cost : ℚ) (mine : List (Owner × (String × Int) × ℚ)) (entries todo : List BudgetConfig) :
    Prop :=
  ∃ done, done ++ todo = entries ∧ List.Forall₂ (ChargesFor cost) mine done

def Stage.Records (cost : ℚ) (mine : List (Owner × (String × Int) × ℚ))
    (entries : List BudgetConfig) : Stage → Prop
  | .recording rate todo => rate = cost ∧ Made cost mine entries todo
  | .charging rate _ todo => rate = cost ∧ Made cost mine entries todo
  | .recorded => Made cost mine entries []
  | _ => False

def Stage.Checks : Stage → Prop
  | .checking _ => True
  | .reading _ _ _ => True
  | .answered _ => True
  | _ => False

def chargeable (budgets : List BudgetConfig) (projectId keyId : String) (cost : ℚ) :
    List BudgetConfig :=
  if cost ≤ 0 then [] else matchingBudgets budgets projectId keyId

def Stage.Accounts (budgets : List BudgetConfig) (mine : List (Owner × (String × Int) × ℚ))
    (stage : Stage) : BudgetCall → Prop
  | .recordCost projectId keyId cost =>
    stage.Records cost mine (chargeable budgets projectId keyId cost)
  | .checkBlock _ _ => stage.Checks ∧ mine = []

structure Accounted (s : State) : Prop where
  length : s.owners.length = s.redis.calls.length
  requests : ∀ (i : ℕ) (r : Request), s.requests[i]? = some r →
    r.stage.Accounts r.budgets (s.charges i) r.call
  known : ∀ o ∈ s.owners, o.request < s.requests.length

section
variable {s t : State}

theorem Stage.Records.entries {cost : ℚ} {mine : List (Owner × (String × Int) × ℚ)}
    {entries : List BudgetConfig} {stage : Stage} (h : stage.Records cost mine entries) :
    ∃ todo, Made cost mine entries todo := by
  cases stage with
  | recording rate todo => exact ⟨todo, h.2⟩
  | charging rate call todo => exact ⟨todo, h.2⟩
  | recorded => exact ⟨[], h⟩
  | checking todo => exact h.elim
  | reading b periodStart todo => exact h.elim
  | answered blocked => exact h.elim

theorem mem_charged {cost : ℚ} {mine : List (Owner × (String × Int) × ℚ)} {done : List BudgetConfig}
    (h : List.Forall₂ (ChargesFor cost) mine done) {x : Owner × (String × Int) × ℚ} (hx : x ∈ mine) :
    ∃ b ∈ done, ChargesFor cost x b := by
  induction h with
  | nil => cases hx
  | cons hab _ ih =>
    rcases List.mem_cons.mp hx with rfl | hrest
    · exact ⟨_, List.mem_cons_self .., hab⟩
    · obtain ⟨b, hb, hcharge⟩ := ih hrest
      exact ⟨b, List.mem_cons_of_mem _ hb, hcharge⟩

/-- Every call of `incr_budget` is the charge of a matching budget by a `record_cost`. -/
theorem Accounted.owner (h : Accounted s) {j : ℕ} {call : Call (String × Int) ℚ} {owner : Owner}
    (hcall : s.redis.calls[j]? = some call) (howner : s.owners[j]? = some owner) :
    ∃ r projectId keyId cost b, s.requests[owner.request]? = some r ∧
      r.call = .recordCost projectId keyId cost ∧ 0 < cost ∧
      b ∈ matchingBudgets r.budgets projectId keyId ∧
      call.key = (b.name, periodStartFor owner.clock b.period) ∧ call.delta = cost := by
  have hlt := h.known owner (List.mem_of_getElem? howner)
  have hr := List.getElem?_eq_getElem hlt
  have hmine : (owner, paid call) ∈ s.charges owner.request := by
    have hzip : (s.owners.zip (s.redis.calls.map paid))[j]? = some (owner, paid call) := by
      simp [List.getElem?_zip_eq_some, howner, hcall]
    exact List.mem_filter.mpr ⟨List.mem_of_getElem? hzip, by simp⟩
  have haccounts := h.requests _ _ hr
  revert haccounts
  cases hc : (s.requests[owner.request]).call with
  | checkBlock projectId keyId =>
    rintro ⟨-, hnil⟩
    rw [hnil] at hmine
    cases hmine
  | recordCost projectId keyId cost =>
    intro hrecords
    obtain ⟨todo, done, hdone, hall⟩ := Stage.Records.entries hrecords
    obtain ⟨b, hb, hcharge⟩ := mem_charged hall hmine
    have hentry : b ∈ chargeable (s.requests[owner.request]).budgets projectId keyId cost :=
      hdone ▸ List.mem_append_left _ hb
    unfold chargeable at hentry
    split at hentry
    · cases hentry
    · rename_i hpos
      have hpaid := Prod.ext_iff.mp hcharge
      exact ⟨_, projectId, keyId, cost, b, hr, hc, not_le.mp hpos, hentry, hpaid.1, hpaid.2⟩

/-! ### What one move does -/

theorem paid_of_command {redis redis' : Usage} {i : ℕ} {reply : Library.ExpiringCounters.Reply}
    (h : storeStep redis (.command i reply) = some redis') :
    redis'.calls.map paid = redis.calls.map paid := by
  simp only [storeStep, Clients.step, Option.bind_eq_bind, Option.bind_eq_some_iff,
    Prod.exists] at h
  obtain ⟨call, hi, phase, server, applied, -, ht⟩ := h
  cases ht
  obtain ⟨hlt, hget⟩ := List.getElem?_eq_some_iff.mp hi
  rw [List.map_set]
  refine List.ext_getElem? fun j => ?_
  by_cases hij : i = j
  · subst hij
    simp [hlt, paid, hget]
  · simp [List.getElem?_set_ne hij]

theorem Accounted.of_paid (h : Accounted s) {redis : Usage}
    (hpaid : redis.calls.map paid = s.redis.calls.map paid) :
    Accounted { s with redis } := by
  have hlength : redis.calls.length = s.redis.calls.length := by
    simpa using congrArg List.length hpaid
  refine ⟨h.length.trans hlength.symm, ?_, h.known⟩
  intro i r hi
  have hcharges : State.charges { s with redis } i = s.charges i := by
    simp [State.charges, hpaid]
  rw [hcharges]
  exact h.requests i r hi

theorem Accounted.call (h : Accounted s) (budgets : List BudgetConfig) (c : BudgetCall) :
    Accounted { s with requests := s.requests ++ [⟨budgets, c, start budgets c⟩] } where
  length := h.length
  requests := by
    intro i r hi
    dsimp only at hi
    rcases Nat.lt_or_ge i s.requests.length with hlt | hge
    · rw [List.getElem?_append_left hlt] at hi
      exact h.requests i r hi
    · have hnone : s.charges i = [] := by
        refine List.filter_eq_nil_iff.mpr ?_
        intro x hx
        have := h.known x.1 (List.of_mem_zip hx).1
        simp
        omega
      rw [List.getElem?_append_right hge] at hi
      obtain ⟨hzero, hr⟩ := List.getElem?_eq_some_iff.mp hi
      simp only [List.getElem_singleton] at hr
      subst hr
      show (start budgets c).Accounts budgets (s.charges i) c
      rw [hnone]
      cases c with
      | checkBlock projectId keyId => exact ⟨trivial, rfl⟩
      | recordCost projectId keyId cost =>
        simp only [start, chargeable, Stage.Accounts]
        split
        · exact ⟨[], rfl, .nil⟩
        · exact ⟨rfl, [], rfl, .nil⟩
  known := by
    intro o ho
    have := h.known o ho
    simp
    omega

/-- Request `i` moves on without a charge. -/
theorem Accounted.set (h : Accounted s) {i : ℕ} {r : Request} (hi : s.requests[i]? = some r)
    {stage : Stage} (hstage : stage.Accounts r.budgets (s.charges i) r.call) :
    Accounted { s with requests := s.requests.set i { r with stage := stage } } where
  length := h.length
  requests := by
    intro j r' hj
    dsimp only at hj
    by_cases hij : i = j
    · subst hij
      rw [List.getElem?_set_self (List.getElem?_eq_some_iff.mp hi).1] at hj
      cases hj
      exact hstage
    · rw [List.getElem?_set_ne hij] at hj
      exact h.requests j r' hj
  known := by
    intro o ho
    have := h.known o ho
    simpa using this

theorem Accounted.charge (h : Accounted s) {i clock : ℕ} {r : Request}
    (hi : s.requests[i]? = some r) {budget : String × Int} {cost : ℚ} {redis : Usage}
    (hredis : storeStep s.redis (.call budget cost budgetExpireMs) = some redis) {stage : Stage}
    (hstage : stage.Accounts r.budgets (s.charges i ++ [(⟨i, clock⟩, budget, cost)]) r.call) :
    Accounted ⟨redis, s.requests.set i { r with stage := stage }, s.owners ++ [⟨i, clock⟩]⟩ := by
  cases hredis
  have hcharges : ∀ j, State.charges ⟨{ s.redis with
      calls := s.redis.calls ++ [⟨budget, cost, budgetExpireMs, .started⟩] },
      s.requests.set i { r with stage := stage }, s.owners ++ [⟨i, clock⟩]⟩ j =
      s.charges j ++ if i = j then [(⟨i, clock⟩, budget, cost)] else [] := by
    intro j
    simp only [State.charges, List.map_append, List.map_singleton]
    rw [List.zip_append (by simpa using h.length), List.filter_append]
    by_cases hij : i = j <;> simp [hij, paid]
  refine ⟨by simp [h.length], ?_, ?_⟩
  · intro j r' hj
    rw [hcharges]
    dsimp only at hj
    by_cases hij : i = j
    · subst hij
      rw [List.getElem?_set_self (List.getElem?_eq_some_iff.mp hi).1] at hj
      cases hj
      rw [if_pos rfl]
      exact hstage
    · rw [List.getElem?_set_ne hij] at hj
      rw [if_neg hij, List.append_nil]
      exact h.requests j r' hj
  · intro o ho
    rcases List.mem_append.mp ho with hold | hnew
    · have := h.known o hold
      simpa using this
    · rw [List.mem_singleton.mp hnew]
      simpa using (List.getElem?_eq_some_iff.mp hi).1

theorem Made.next {cost : ℚ} {mine : List (Owner × (String × Int) × ℚ)}
    {entries todo : List BudgetConfig} {b : BudgetConfig} (h : Made cost mine entries (b :: todo))
    (i clock : ℕ) :
    Made cost (mine ++ [(⟨i, clock⟩, (b.name, periodStartFor clock b.period), cost)]) entries todo := by
  obtain ⟨done, hdone, hall⟩ := h
  refine ⟨done ++ [b], by simpa using hdone, List.rel_append hall ?_⟩
  exact .cons rfl .nil

theorem Stage.advance_accounts {redis : Usage} {i clock : ℕ} {stage next : Stage}
    {charge : Option ((String × Int) × ℚ)} {budgets : List BudgetConfig} {c : BudgetCall}
    {mine : List (Owner × (String × Int) × ℚ)}
    (h : stage.advance redis clock = some (next, charge)) (haccounts : stage.Accounts budgets mine c) :
    next.Accounts budgets (mine ++ charge.toList.map fun x => (⟨i, clock⟩, x)) c := by
  cases c with
  | recordCost projectId keyId cost =>
    cases stage with
    | recording rate todo =>
      obtain ⟨rfl, hmade⟩ := haccounts
      cases todo with
      | nil =>
        cases h
        simpa [Stage.Accounts, Stage.Records] using hmade
      | cons b todo =>
        cases h
        exact ⟨rfl, hmade.next i clock⟩
    | charging rate call todo =>
      simp only [Stage.advance] at h
      split at h
      · cases h
        simpa [Stage.Accounts, Stage.Records] using haccounts
      · cases h
    | recorded => cases h
    | checking todo => exact haccounts.elim
    | reading b periodStart todo => exact haccounts.elim
    | answered blocked => exact haccounts.elim
  | checkBlock projectId keyId =>
    obtain ⟨hchecks, rfl⟩ := haccounts
    cases stage with
    | recording rate todo => exact hchecks.elim
    | charging rate call todo => exact hchecks.elim
    | recorded => exact hchecks.elim
    | checking todo =>
      cases todo with
      | nil =>
        cases h
        exact ⟨trivial, rfl⟩
      | cons b todo =>
        cases h
        exact ⟨trivial, rfl⟩
    | reading b periodStart todo => cases h
    | answered blocked => cases h

/-- The move of the store within a move of the requests. -/
theorem Accounted.step (h : Accounted s) {m : Move} (hstep : s.step m = some t) : Accounted t := by
  cases m with
  | tick ms =>
    cases hstep
    exact h.of_paid rfl
  | command call reply =>
    obtain ⟨redis, hredis, rfl⟩ := Option.map_eq_some_iff.mp hstep
    exact h.of_paid (paid_of_command hredis)
  | call budgets c =>
    cases hstep
    exact h.call budgets c
  | read i lost =>
    obtain ⟨r, hi, hrest⟩ := Option.bind_eq_some_iff.mp hstep
    split at hrest
    · rename_i b periodStart todo hstage
      cases hrest
      refine h.set hi ?_
      have haccounts := h.requests i r hi
      revert haccounts
      rw [hstage]
      cases r.call with
      | recordCost projectId keyId cost => exact fun hrecords => hrecords.elim
      | checkBlock projectId keyId =>
        rintro ⟨-, hnil⟩
        have hchecks : ∀ blocked : Bool,
            (if blocked then Stage.answered true else .checking todo).Checks := by
          intro blocked
          cases blocked <;> trivial
        exact ⟨hchecks _, hnil⟩
    · cases hrest
  | advance i clock =>
    obtain ⟨r, hi, hrest⟩ := Option.bind_eq_some_iff.mp hstep
    obtain ⟨⟨stage, charge⟩, hadvance, hrest⟩ := Option.bind_eq_some_iff.mp hrest
    have hnext := Stage.advance_accounts (i := i) hadvance (h.requests i r hi)
    cases charge with
    | none =>
      cases hrest
      exact h.set hi (by simpa using hnext)
    | some charge =>
      obtain ⟨redis, hredis, rfl⟩ := Option.map_eq_some_iff.mp hrest
      exact h.charge hi hredis (by simpa using hnext)

theorem accounted_init : Accounted .init where
  length := rfl
  requests := by simp [State.init]
  known := by simp [State.init]

/-! ### Runs -/

abbrev InRun (slack : ℕ) : State → Prop := Reaches State.step (InTime slack) .init

/-- The store sees no move, or one that comes in time for its budget. -/
theorem Accounted.timely (h : Accounted s) {slack : ℕ} (hslack : slack ≤ 2 * dayMs) {m : Move}
    (hguard : InTime slack s m) (hstep : s.step m = some t) :
    t.redis = s.redis ∨
      ∃ m', Timely (budgetSpan slack) s.redis m' ∧ storeStep s.redis m' = some t.redis := by
  cases m with
  | tick ms =>
    cases hstep
    exact .inr ⟨.tick ms, trivial, rfl⟩
  | command j reply =>
    obtain ⟨redis, hredis, rfl⟩ := Option.map_eq_some_iff.mp hstep
    refine .inr ⟨_, ?_, hredis⟩
    intro call hcall hstarted
    have hlt : j < s.owners.length := by
      rw [h.length]
      exact (List.getElem?_eq_some_iff.mp hcall).1
    have howner := List.getElem?_eq_getElem hlt
    obtain ⟨r, projectId, keyId, cost, b, -, -, -, -, hkey, -⟩ := h.owner hcall howner
    obtain ⟨hafter, hbefore⟩ := hguard call _ hcall hstarted howner
    rw [hkey]
    exact budgetSpan_clock slack _ _ b.name b.period hafter hbefore
  | call budgets c =>
    cases hstep
    exact .inl rfl
  | read i lost =>
    obtain ⟨r, hi, hrest⟩ := Option.bind_eq_some_iff.mp hstep
    split at hrest
    · cases hrest
      exact .inl rfl
    · cases hrest
  | advance i clock =>
    obtain ⟨r, hi, hrest⟩ := Option.bind_eq_some_iff.mp hstep
    obtain ⟨⟨stage, charge⟩, hadvance, hrest⟩ := Option.bind_eq_some_iff.mp hrest
    cases charge with
    | none =>
      cases hrest
      exact .inl rfl
    | some charge =>
      obtain ⟨redis, hredis, rfl⟩ := Option.map_eq_some_iff.mp hrest
      exact .inr ⟨.call charge.1 charge.2 budgetExpireMs, budgetSpan_long hslack _, hredis⟩

end

theorem InRun.exact {slack : ℕ} (hslack : slack ≤ 2 * dayMs) {s : State} (hr : InRun slack s) :
    Accounted s ∧ s.redis.Exact (fun _ => true) budgetKey (budgetSpan slack) := by
  induction hr with
  | start => exact ⟨accounted_init, .init rfl⟩
  | next m _ hguard hstep ih =>
    refine ⟨ih.1.step hstep, ?_⟩
    rcases ih.1.timely hslack hguard hstep with hsame | ⟨m', htimely, hredis⟩
    · rw [hsame]
      exact ih.2
    · exact ih.2.step budgetKey_injective htimely hredis

/-- Every addition is a charge by the `record_cost` that owns its call. -/
theorem addition_owner {slack : ℕ} (hslack : slack ≤ 2 * dayMs) {s : State} (hr : InRun slack s)
    {a : Addition (String × Int) ℚ} (ha : a ∈ s.redis.ledger) :
    ∃ owner r projectId keyId b, s.owners[a.call]? = some owner ∧
      s.requests[owner.request]? = some r ∧ r.call = .recordCost projectId keyId a.delta ∧
      0 < a.delta ∧ b ∈ matchingBudgets r.budgets projectId keyId ∧
      a.key = (b.name, periodStartFor owner.clock b.period) := by
  obtain ⟨haccounted, hexact⟩ := hr.exact hslack
  obtain ⟨call, hcall, hkey, hdelta⟩ := hexact.known a ha
  have hlt : a.call < s.owners.length := by
    rw [haccounted.length]
    exact (List.getElem?_eq_some_iff.mp hcall).1
  have howner := List.getElem?_eq_getElem hlt
  obtain ⟨r, projectId, keyId, cost, b, hr, hc, hpos, hb, hbudget, hcost⟩ :=
    haccounted.owner hcall howner
  rw [hdelta] at hcost
  subst hcost
  exact ⟨_, r, projectId, keyId, b, howner, hr, hc, hpos, hb, hkey ▸ hbudget⟩

/-- Until its period is over, the counter of a budget holds the costs that took effect, each once
and each the cost of a `record_cost` for a matching budget, in the period of its clock. A
`record_cost` that has finished has made one charge for each budget it matches, and a charge
whose call returned took effect. -/
theorem usage_accounted {slack : ℕ} (hslack : slack ≤ 2 * dayMs) {s : State} (hr : InRun slack s) :
    (∀ budget, s.redis.server.now ≤ (budgetSpan slack budget).closes →
      s.used budget = total s.redis.ledger budget) ∧
    (s.redis.ledger.map Addition.call).Nodup ∧
    (∀ a ∈ s.redis.ledger, ∃ owner r projectId keyId b, s.owners[a.call]? = some owner ∧
      s.requests[owner.request]? = some r ∧ r.call = .recordCost projectId keyId a.delta ∧
      0 < a.delta ∧ b ∈ matchingBudgets r.budgets projectId keyId ∧
      a.key = (b.name, periodStartFor owner.clock b.period)) ∧
    (∀ i budgets projectId keyId cost,
      s.requests[i]? = some ⟨budgets, .recordCost projectId keyId cost, .recorded⟩ → 0 < cost →
      List.Forall₂ (ChargesFor cost) (s.charges i) (matchingBudgets budgets projectId keyId)) ∧
    ∀ j call value, s.redis.calls[j]? = some call → call.phase = .returned value →
      ⟨j, call.key, call.delta⟩ ∈ s.redis.ledger := by
  obtain ⟨haccounted, hexact⟩ := hr.exact hslack
  refine ⟨hexact.server.sums, hexact.once, fun a ha => addition_owner hslack hr ha, ?_, ?_⟩
  · intro i budgets projectId keyId cost hi hpos
    obtain ⟨done, hdone, hall⟩ := haccounted.requests i _ hi
    rw [List.append_nil, chargeable, if_neg (not_le.mpr hpos)] at hdone
    exact hdone ▸ hall
  · intro j call value hcall hphase
    have hholds := hexact.calls j call hcall
    rw [hphase] at hholds
    obtain ⟨before, after, hledger, -⟩ := hholds
    rw [hledger]
    simp

theorem State.step_grows {s t : State} {m : Move} (hstep : s.step m = some t) :
    s.redis.ledger <+: t.redis.ledger ∧ s.redis.server.now ≤ t.redis.server.now := by
  cases m with
  | tick ms =>
    cases hstep
    exact ⟨List.prefix_rfl, Nat.le_add_right _ _⟩
  | command j reply =>
    obtain ⟨redis, hredis, rfl⟩ := Option.map_eq_some_iff.mp hstep
    exact Clients.step_grows hredis
  | call budgets c =>
    cases hstep
    exact ⟨List.prefix_rfl, le_rfl⟩
  | read i lost =>
    obtain ⟨r, hi, hrest⟩ := Option.bind_eq_some_iff.mp hstep
    split at hrest
    · cases hrest
      exact ⟨List.prefix_rfl, le_rfl⟩
    · cases hrest
  | advance i clock =>
    obtain ⟨r, hi, hrest⟩ := Option.bind_eq_some_iff.mp hstep
    obtain ⟨⟨stage, charge⟩, hadvance, hrest⟩ := Option.bind_eq_some_iff.mp hrest
    cases charge with
    | none =>
      cases hrest
      exact ⟨List.prefix_rfl, le_rfl⟩
    | some charge =>
      obtain ⟨redis, hredis, rfl⟩ := Option.map_eq_some_iff.mp hrest
      exact Clients.step_grows hredis

theorem grows_of_reaches {slack : ℕ} {s t : State} (ht : Reaches State.step (InTime slack) s t) :
    s.redis.ledger <+: t.redis.ledger ∧ s.redis.server.now ≤ t.redis.server.now := by
  induction ht with
  | start => exact ⟨List.prefix_rfl, le_rfl⟩
  | next m _ _ hstep ih =>
    have hstep := State.step_grows hstep
    exact ⟨ih.1.trans hstep.1, ih.2.trans hstep.2⟩

/-- While a period lasts, its counter does not fall. -/
theorem used_mono {slack : ℕ} (hslack : slack ≤ 2 * dayMs) {s t : State} (hs : InRun slack s)
    (ht : Reaches State.step (InTime slack) s t) {budget : String × Int}
    (hnow : t.redis.server.now ≤ (budgetSpan slack budget).closes) :
    s.used budget ≤ t.used budget := by
  obtain ⟨⟨later, hlater⟩, hearlier⟩ := grows_of_reaches ht
  have hrun : InRun slack t := hs.trans ht
  have hsum : s.used budget = total s.redis.ledger budget :=
    (hs.exact hslack).2.server.sums budget (by omega)
  have hsum' : t.used budget = total t.redis.ledger budget :=
    (hrun.exact hslack).2.server.sums budget hnow
  rw [hsum, hsum', ← hlater, Library.ExpiringCounters.total_append]
  have hnonneg : 0 ≤ total later budget := by
    refine Library.ExpiringCounters.total_nonneg ?_
    intro a ha _
    obtain ⟨_, _, _, _, _, -, -, -, hpos, -⟩ :=
      addition_owner hslack hrun (hlater ▸ List.mem_append_right _ ha)
    exact hpos.le
  exact le_add_of_nonneg_right hnonneg

/-- A budget whose counter is over a block threshold stays so for the rest of its period, at
every replica: each `check_block` that then reads it answers that the request is blocked. -/
theorem block_stays {slack : ℕ} (hslack : slack ≤ 2 * dayMs) {s t : State} (hs : InRun slack s)
    (ht : Reaches State.step (InTime slack) s t) (b : BudgetConfig) (periodStart : Int)
    (hblocked : crossedBlock b (s.used (b.name, periodStart)) = true)
    (hnow : t.redis.server.now ≤ (budgetSpan slack (b.name, periodStart)).closes) :
    crossedBlock b (t.used (b.name, periodStart)) = true ∧
      ∀ i budgets c todo u, t.requests[i]? = some ⟨budgets, c, .reading b periodStart todo⟩ →
        t.step (.read i false) = some u → u.requests[i]? = some ⟨budgets, c, .answered true⟩ := by
  have hlater := crossedBlock_mono (used_mono hslack hs ht hnow) hblocked
  refine ⟨hlater, ?_⟩
  intro i budgets c todo u hi hstep
  have hlt := (List.getElem?_eq_some_iff.mp hi).1
  simp only [State.step, hi, Option.bind_eq_bind, Option.bind_some, Bool.false_eq_true, if_false,
    hlater, if_true, Option.some.injEq] at hstep
  rw [← hstep]
  exact List.getElem?_set_self hlt

/-- A request spends the budget of its project; its clock is half a second ahead of the server's. -/
def spending : List Move :=
  [.call [projectBudget "p1" 10] (.recordCost "p1" "k1" 12), .advance 0 500, .command 0 .ok,
    .command 0 .ok, .advance 0 600, .advance 0 600]

def spent : State := (run State.step .init spending).getD .init

theorem inTime_of_owner {slack : ℕ} {s : State} {i : ℕ} {reply : Library.ExpiringCounters.Reply}
    {owner : Owner} (hi : s.owners[i]? = some owner)
    (h : owner.clock ≤ s.redis.server.now + slack ∧ s.redis.server.now ≤ owner.clock + slack) :
    InTime slack s (.command i reply) := by
  intro call owner' _ _ howner
  cases hi.symm.trans howner
  exact h

theorem spent_run : InRun 1000 spent := by
  have h1 : InRun 1000 _ :=
    .next (.call [projectBudget "p1" 10] (.recordCost "p1" "k1" 12)) .start trivial rfl
  have h2 := h1.move (.advance 0 500) trivial rfl
  have h3 := h2.move (.command 0 .ok) (inTime_of_owner rfl (by decide)) rfl
  have h4 := h3.move (.command 0 .ok) (inTime_of_owner rfl (by decide)) rfl
  have h5 := h4.move (.advance 0 600) trivial rfl
  exact h5.move (.advance 0 600) trivial rfl

theorem usage_accounted_spent : ∃ s, InRun 1000 s ∧
    s.requests = [⟨[projectBudget "p1" 10], .recordCost "p1" "k1" 12, .recorded⟩] ∧
    List.Forall₂ (ChargesFor 12) (s.charges 0) (matchingBudgets [projectBudget "p1" 10] "p1" "k1") :=
  ⟨spent, spent_run, rfl, (usage_accounted (by decide) spent_run).2.2.2.1 0 [projectBudget "p1" 10]
    "p1" "k1" 12 rfl (by norm_num)⟩

/-- Ten seconds later another request of the project is charged, its clock behind the server's, and
a third one asks whether it is blocked. -/
theorem block_stays_spent : ∃ s t u, InRun 1000 s ∧ Reaches State.step (InTime 1000) s t ∧
    t.redis.ledger.map Addition.delta = [12, 1] ∧
    crossedBlock (projectBudget "p1" 10) (t.used ("team", 0)) = true ∧
    t.step (.read 2 false) = some u ∧
    u.requests[2]? = some ⟨[projectBudget "p1" 10], .checkBlock "p1" "k1", .answered true⟩ := by
  have h1 : Reaches State.step (InTime 1000) spent _ := .next (.tick 10000) .start trivial rfl
  have h2 := h1.move (.call [projectBudget "p1" 10] (.recordCost "p1" "k2" 1)) trivial rfl
  have h3 := h2.move (.advance 1 9500) trivial rfl
  have h4 := h3.move (.command 1 .ok) (inTime_of_owner rfl (by decide)) rfl
  have h5 := h4.move (.call [projectBudget "p1" 10] (.checkBlock "p1" "k1")) trivial rfl
  have h6 := h5.move (.advance 2 10500) trivial rfl
  obtain ⟨hblocked, hanswer⟩ := block_stays (by decide) spent_run h6 (projectBudget "p1" 10) 0
    (by decide +kernel) (by decide +kernel)
  exact ⟨spent, _, _, spent_run, h6, rfl, hblocked, rfl, hanswer 2 _ _ _ _ rfl rfl⟩

end AiGateway.Api.RedisBudgets
