import AiGateway.Api.RateLimit
import Mathlib.Data.List.Induction

/-!
# One call of `check_limits` inside a window

As long as the clock stays in one bucket, what a call does is a closed form of
the counters it found: every check that passed has added its amount once, and
the first check that rejects is the first whose bound the sum exceeds.
-/

namespace AiGateway.Api
open AiGateway.Library.MachineInt AiGateway.Core AiGateway.Storage

/-! ### Counters after a list of passed checks -/

def LimitCheck.rpmScope? : LimitCheck → Option String
  | .rpm scope _ => some scope
  | _ => none

def LimitCheck.tpmScope? : LimitCheck → Option String
  | .tpm scope _ => some scope
  | _ => none

def LimitCheck.concScope? : LimitCheck → Option String
  | .concurrency scope _ => some scope
  | _ => none

def rpmCount (checks : List LimitCheck) (scope : String) : ℕ :=
  (checks.filterMap LimitCheck.rpmScope?).count scope

def tpmCount (checks : List LimitCheck) (scope : String) : ℕ :=
  (checks.filterMap LimitCheck.tpmScope?).count scope

def concCount (checks : List LimitCheck) (scope : String) : ℕ :=
  (checks.filterMap LimitCheck.concScope?).count scope

def grantAll (checks : List LimitCheck) : RatePermit := checks.foldl RatePermit.grant ⟨[], []⟩

/-- The check `c` rejects after `pre` has passed, read off the counters that the
call found: nothing but arithmetic on the state before the call. -/
def CheckRejects (store : MemoryCounterStore) (bucket : ℕ) (pre : List LimitCheck) :
    LimitCheck → Prop
  | .rpm scope cap =>
    cap.toNat < asU64 (store.windows (rpmSlot bucket scope) + (rpmCount pre scope + 1))
  | .tpm scope cap =>
    cap.toNat < asU64 (store.windows (tpmSlot bucket scope) + 1024 * (tpmCount pre scope + 1))
  | .concurrency scope cap =>
    cap.toNat ≤ store.concurrency ("conc:" ++ scope) + concCount pre scope

/-- `s` is the store after the checks `pre` have passed in one window. -/
structure Passed (store : MemoryCounterStore) (bucket : ℕ) (pre : List LimitCheck)
    (s : MemoryCounterStore) : Prop where
  rpm : ∀ scope, s.windows (rpmSlot bucket scope) =
    wrap64 (store.windows (rpmSlot bucket scope) + rpmCount pre scope)
  tpm : ∀ scope, s.windows (tpmSlot bucket scope) =
    wrap64 (store.windows (tpmSlot bucket scope) + 1024 * tpmCount pre scope)
  others : ∀ slot, (∀ scope, slot ≠ rpmSlot bucket scope) →
    (∀ scope, slot ≠ tpmSlot bucket scope) → s.windows slot = store.windows slot
  conc : ∀ key, s.concurrency key = store.concurrency key + (grantAll pre).concurrency.count ⟨key⟩

theorem grantAll_concat (pre : List LimitCheck) (c : LimitCheck) :
    grantAll (pre ++ [c]) = (grantAll pre).grant c := by
  simp [grantAll]

theorem grantAll_concurrency (pre : List LimitCheck) :
    (grantAll pre).concurrency =
      (pre.filterMap LimitCheck.concScope?).map fun scope => ⟨"conc:" ++ scope⟩ := by
  induction pre using List.reverseRecOn with
  | nil => rfl
  | append_singleton pre c ih =>
    rw [grantAll_concat, List.filterMap_append, List.map_append]
    cases c <;> simp [RatePermit.grant, LimitCheck.concScope?, ih]

theorem grantAll_tpmReservations (pre : List LimitCheck) :
    (grantAll pre).tpmReservations =
      (pre.filterMap LimitCheck.tpmScope?).map fun scope => ("tpm:" ++ scope, 1024) := by
  induction pre using List.reverseRecOn with
  | nil => rfl
  | append_singleton pre c ih =>
    rw [grantAll_concat, List.filterMap_append, List.map_append]
    cases c <;> simp [RatePermit.grant, LimitCheck.tpmScope?, ih, defaultTokenPrededuct]

theorem count_concurrency (pre : List LimitCheck) (scope : String) :
    (grantAll pre).concurrency.count ⟨"conc:" ++ scope⟩ = concCount pre scope := by
  have hinj : Function.Injective fun s : String => ConcurrencyPermit.mk ("conc:" ++ s) :=
    fun s t h => prefixed_inj (congrArg ConcurrencyPermit.key h)
  rw [grantAll_concurrency, concCount]
  exact List.count_map_of_injective _ _ hinj scope

theorem passed_nil (store : MemoryCounterStore) (bucket : ℕ) : Passed store bucket [] store := by
  refine ⟨?_, ?_, ?_, ?_⟩
  · intro scope
    simp [rpmCount]
  · intro scope
    simp [tpmCount]
  · intro slot _ _
    rfl
  · intro key
    simp [grantAll]

theorem rpmCount_append (pre post : List LimitCheck) (scope : String) :
    rpmCount (pre ++ post) scope = rpmCount pre scope + rpmCount post scope := by
  simp [rpmCount, List.filterMap_append]

theorem tpmCount_append (pre post : List LimitCheck) (scope : String) :
    tpmCount (pre ++ post) scope = tpmCount pre scope + tpmCount post scope := by
  simp [tpmCount, List.filterMap_append]

theorem rpmCount_singleton (c : LimitCheck) (scope : String) :
    rpmCount [c] scope = if c.rpmScope? = some scope then 1 else 0 := by
  cases c <;> simp [rpmCount, LimitCheck.rpmScope?, List.filterMap_cons, List.count_singleton]

theorem tpmCount_singleton (c : LimitCheck) (scope : String) :
    tpmCount [c] scope = if c.tpmScope? = some scope then 1 else 0 := by
  cases c <;> simp [tpmCount, LimitCheck.tpmScope?, List.filterMap_cons, List.count_singleton]

theorem Passed.addRpm {store s : MemoryCounterStore} {bucket : ℕ} {pre : List LimitCheck}
    (hp : Passed store bucket pre s) (scope : String) (cap : UInt64) :
    Passed store bucket (pre ++ [.rpm scope cap]) (s.addAt (rpmSlot bucket scope) 1) := by
  refine ⟨?_, ?_, ?_, ?_⟩
  · intro scope'
    rw [rpmCount_append, rpmCount_singleton]
    by_cases hs : scope = scope'
    · subst hs
      simp only [LimitCheck.rpmScope?, if_true, MemoryCounterStore.addAt_self, hp.rpm,
        wrap64_wrap64_add]
      congr 1
      push_cast
      omega
    · have hne : rpmSlot bucket scope' ≠ rpmSlot bucket scope :=
        fun h => hs (rpmSlot_inj.mp h).symm
      simp [LimitCheck.rpmScope?, hs, MemoryCounterStore.addAt_of_ne _ _ hne, hp.rpm]
  · intro scope'
    rw [tpmCount_append, tpmCount_singleton,
      MemoryCounterStore.addAt_of_ne _ _ (rpmSlot_ne_tpmSlot _ _ _ _).symm]
    simpa [LimitCheck.tpmScope?] using hp.tpm scope'
  · intro slot hr ht
    rw [MemoryCounterStore.addAt_of_ne _ _ (hr scope)]
    exact hp.others slot hr ht
  · intro key
    rw [grantAll_concat]
    exact hp.conc key

theorem Passed.addTpm {store s : MemoryCounterStore} {bucket : ℕ} {pre : List LimitCheck}
    (hp : Passed store bucket pre s) (scope : String) (cap : UInt64) :
    Passed store bucket (pre ++ [.tpm scope cap]) (s.addAt (tpmSlot bucket scope) 1024) := by
  refine ⟨?_, ?_, ?_, ?_⟩
  · intro scope'
    rw [rpmCount_append, rpmCount_singleton,
      MemoryCounterStore.addAt_of_ne _ _ (rpmSlot_ne_tpmSlot _ _ _ _)]
    simpa [LimitCheck.rpmScope?] using hp.rpm scope'
  · intro scope'
    rw [tpmCount_append, tpmCount_singleton]
    by_cases hs : scope = scope'
    · subst hs
      simp only [LimitCheck.tpmScope?, if_true, MemoryCounterStore.addAt_self, hp.tpm,
        wrap64_wrap64_add]
      congr 1
      push_cast
      omega
    · have hne : tpmSlot bucket scope' ≠ tpmSlot bucket scope :=
        fun h => hs (tpmSlot_inj.mp h).symm
      simp [LimitCheck.tpmScope?, hs, MemoryCounterStore.addAt_of_ne _ _ hne, hp.tpm]
  · intro slot hr ht
    rw [MemoryCounterStore.addAt_of_ne _ _ (ht scope)]
    exact hp.others slot hr ht
  · intro key
    rw [grantAll_concat]
    exact hp.conc key

theorem Passed.addConc {store s : MemoryCounterStore} {bucket : ℕ} {pre : List LimitCheck}
    (hp : Passed store bucket pre s) (scope : String) (cap : UInt32) :
    Passed store bucket (pre ++ [.concurrency scope cap])
      { s with
        concurrency :=
          Function.update s.concurrency ("conc:" ++ scope) (s.concurrency ("conc:" ++ scope) + 1) } := by
  refine ⟨?_, ?_, hp.others, ?_⟩
  · intro scope'
    rw [rpmCount_append, rpmCount_singleton]
    simpa [LimitCheck.rpmScope?] using hp.rpm scope'
  · intro scope'
    rw [tpmCount_append, tpmCount_singleton]
    simpa [LimitCheck.tpmScope?] using hp.tpm scope'
  · intro key
    rw [grantAll_concat]
    simp only [RatePermit.grant, List.count_append, List.count_singleton]
    by_cases hk : key = "conc:" ++ scope
    · subst hk
      simp only [Function.update_self, hp.conc, beq_self_eq_true, if_true]
      omega
    · simp [Function.update_of_ne hk, hp.conc, Ne.symm hk]

/-- A check rejects exactly when the counters of the call's start say so, and
a check that passes keeps the correspondence. -/
theorem Passed.probe {store s : MemoryCounterStore} {bucket now : ℕ} {pre : List LimitCheck}
    (hp : Passed store bucket pre s) (hnow : now / windowMs = bucket) (c : LimitCheck) :
    ((c.probe now s).1 = true ↔ CheckRejects store bucket pre c) ∧
      ((c.probe now s).1 = false → Passed store bucket (pre ++ [c]) (c.probe now s).2) := by
  cases c with
  | rpm scope cap =>
    have hslot := windowSlot_rpm hnow scope
    constructor
    · simp only [LimitCheck.probe, MemoryCounterStore.incrWindow, hslot,
        MemoryCounterStore.addAt_self, hp.rpm, wrap64_wrap64_add, asU64_wrap64, decide_eq_true_eq,
        CheckRejects, add_assoc]
    · intro _
      simp only [LimitCheck.probe, MemoryCounterStore.incrWindow, hslot]
      exact hp.addRpm scope cap
  | tpm scope cap =>
    have hslot := windowSlot_tpm hnow scope
    constructor
    · simp only [LimitCheck.probe, MemoryCounterStore.incrWindow, hslot, defaultTokenPrededuct,
        MemoryCounterStore.addAt_self, hp.tpm, wrap64_wrap64_add, asU64_wrap64, decide_eq_true_eq,
        CheckRejects, add_assoc, mul_add, mul_one]
    · intro _
      simp only [LimitCheck.probe, MemoryCounterStore.incrWindow, hslot, defaultTokenPrededuct]
      exact hp.addTpm scope cap
  | concurrency scope cap =>
    have hcur : s.concurrency ("conc:" ++ scope) =
        store.concurrency ("conc:" ++ scope) + concCount pre scope := by
      rw [hp.conc, count_concurrency]
    by_cases hfull : cap.toNat ≤ s.concurrency ("conc:" ++ scope)
    · simp [LimitCheck.probe, MemoryCounterStore.tryAcquireConcurrency, CheckRejects, ← hcur, hfull]
    · simp only [LimitCheck.probe, MemoryCounterStore.tryAcquireConcurrency, CheckRejects, ← hcur,
        hfull, if_false, Option.isNone_some, Bool.false_eq_true, true_implies, iff_self, true_and]
      exact hp.addConc scope cap

/-! ### Passing and rejecting calls -/

def NoRejection (store : MemoryCounterStore) (bucket : ℕ) (checks : List LimitCheck) : Prop :=
  ∀ pre c post, checks = pre ++ c :: post → ¬CheckRejects store bucket pre c

/-- The store after a rejection by `c` behind the passed checks `pre`. Only the
failing check's own prededuction and the concurrency slots have been undone. -/
structure Rejected (store : MemoryCounterStore) (bucket : ℕ) (pre : List LimitCheck)
    (c : LimitCheck) (s : MemoryCounterStore) : Prop where
  rpm : ∀ scope, s.windows (rpmSlot bucket scope) =
    wrap64 (store.windows (rpmSlot bucket scope) + rpmCount (pre ++ [c]) scope)
  tpm : ∀ scope, s.windows (tpmSlot bucket scope) =
    wrap64 (store.windows (tpmSlot bucket scope) + 1024 * tpmCount pre scope)
  others : ∀ slot, (∀ scope, slot ≠ rpmSlot bucket scope) →
    (∀ scope, slot ≠ tpmSlot bucket scope) → s.windows slot = store.windows slot
  conc : s.concurrency = store.concurrency

theorem NoRejection.concat {store : MemoryCounterStore} {bucket : ℕ} {pre : List LimitCheck}
    {c : LimitCheck} (h : NoRejection store bucket pre) (hc : ¬CheckRejects store bucket pre c) :
    NoRejection store bucket (pre ++ [c]) := by
  intro pre' c' post' heq
  rcases List.eq_nil_or_concat post' with rfl | ⟨post'', x, rfl⟩
  · obtain ⟨rfl, hcc⟩ := List.append_inj' heq rfl
    cases hcc
    exact hc
  · have hassoc : pre' ++ c' :: post''.concat x = (pre' ++ c' :: post'') ++ [x] := by simp
    rw [hassoc] at heq
    obtain ⟨rfl, -⟩ := List.append_inj' heq rfl
    exact h pre' c' post'' rfl

theorem Passed.reject {store s : MemoryCounterStore} {bucket now now' : ℕ} {pre : List LimitCheck}
    (hp : Passed store bucket pre s) (hnow : now / windowMs = bucket)
    (hnow' : now' / windowMs = bucket) (c : LimitCheck) (hrej : (c.probe now s).1 = true) :
    Rejected store bucket pre c
      ((c.rollBack now' (c.probe now s).2).releaseAll (grantAll pre).concurrency) := by
  have hconc : ∀ s' : MemoryCounterStore, s'.concurrency = s.concurrency →
      (s'.releaseAll (grantAll pre).concurrency).concurrency = store.concurrency := by
    intro s' hs'
    funext key
    rw [MemoryCounterStore.releaseAll_concurrency, hs', hp.conc]
    omega
  cases c with
  | rpm scope cap =>
    have hadd := hp.addRpm scope cap
    simp only [LimitCheck.rollBack, LimitCheck.probe, MemoryCounterStore.incrWindow,
      windowSlot_rpm hnow]
    refine ⟨?_, ?_, ?_, hconc _ rfl⟩
    · intro scope'
      simpa using hadd.rpm scope'
    · intro scope'
      have h := hadd.tpm scope'
      rw [tpmCount_append, tpmCount_singleton] at h
      simpa [LimitCheck.tpmScope?] using h
    · intro slot hr ht
      simpa using hadd.others slot hr ht
  | tpm scope cap =>
    have hadd := hp.addTpm scope cap
    simp only [LimitCheck.rollBack, LimitCheck.probe, MemoryCounterStore.incrWindow,
      windowSlot_tpm hnow, windowSlot_tpm hnow', defaultTokenPrededuct]
    refine ⟨?_, ?_, ?_, hconc _ rfl⟩
    · intro scope'
      simpa [MemoryCounterStore.addAt_of_ne _ _ (rpmSlot_ne_tpmSlot bucket bucket scope' scope)]
        using hadd.rpm scope'
    · intro scope'
      by_cases hs : scope' = scope
      · subst hs
        simp only [MemoryCounterStore.releaseAll_windows, MemoryCounterStore.addAt_self,
          wrap64_wrap64_add, hp.tpm]
        congr 1
        omega
      · have hne : tpmSlot bucket scope' ≠ tpmSlot bucket scope := fun h => hs (tpmSlot_inj.mp h)
        simpa [MemoryCounterStore.addAt_of_ne _ _ hne] using hp.tpm scope'
    · intro slot hr ht
      simpa [MemoryCounterStore.addAt_of_ne _ _ (ht scope)] using hp.others slot hr ht
  | concurrency scope cap =>
    have hfull : cap.toNat ≤ s.concurrency ("conc:" ++ scope) := by
      by_contra hn
      simp [LimitCheck.probe, MemoryCounterStore.tryAcquireConcurrency, hn] at hrej
    simp only [LimitCheck.rollBack, LimitCheck.probe, MemoryCounterStore.tryAcquireConcurrency,
      hfull, if_true]
    refine ⟨?_, ?_, ?_, hconc _ rfl⟩
    · intro scope'
      rw [rpmCount_append, rpmCount_singleton]
      simpa [LimitCheck.rpmScope?] using hp.rpm scope'
    · intro scope'
      simpa using hp.tpm scope'
    · intro slot hr ht
      simpa using hp.others slot hr ht

/-- What a call does from a point of its loop on: it passes all remaining
checks, or stops at the first one that rejects. -/
theorem checkLoop_cases {clock : ℕ → ℕ} {bucket : ℕ} (hclock : ∀ k, clock k / windowMs = bucket)
    {store : MemoryCounterStore} (rest : List LimitCheck) (k : ℕ) (pre : List LimitCheck)
    (s : MemoryCounterStore) (hp : Passed store bucket pre s)
    (hno : NoRejection store bucket pre) :
    (∃ s', checkLoop clock k rest (grantAll pre) s = (.ok (grantAll (pre ++ rest)), s') ∧
        Passed store bucket (pre ++ rest) s' ∧ NoRejection store bucket (pre ++ rest)) ∨
      ∃ mid c post s', rest = mid ++ c :: post ∧ NoRejection store bucket (pre ++ mid) ∧
        CheckRejects store bucket (pre ++ mid) c ∧
        checkLoop clock k rest (grantAll pre) s = (.error (.gateway .rateLimited), s') ∧
        Rejected store bucket (pre ++ mid) c s' := by
  induction rest generalizing k pre s with
  | nil =>
    refine .inl ⟨s, ?_, ?_, ?_⟩
    · rw [List.append_nil, checkLoop]
    · rwa [List.append_nil]
    · rwa [List.append_nil]
  | cons c rest ih =>
    obtain ⟨hiff, hnext⟩ := hp.probe (hclock k) c
    rw [checkLoop]
    rcases hprobe : c.probe (clock k) s with ⟨rejects, s₁⟩
    rw [hprobe] at hiff hnext
    cases rejects with
    | false =>
      have hnot : ¬CheckRejects store bucket pre c := fun h => Bool.false_ne_true (hiff.mpr h)
      have hstep := ih (k + 1) (pre ++ [c]) s₁ (hnext rfl) (hno.concat hnot)
      simp only [grantAll_concat, List.append_assoc, List.singleton_append] at hstep
      rcases hstep with h | ⟨mid, c', post, s', hrest, hmid, hrej, hrun, hs'⟩
      · exact .inl h
      · exact .inr ⟨c :: mid, c', post, s', by rw [hrest]; rfl, hmid, hrej, hrun, hs'⟩
    | true =>
      have hs₁ : (c.probe (clock k) s).2 = s₁ := by rw [hprobe]
      refine .inr ⟨[], c, rest, _, rfl, ?_, ?_, rfl, ?_⟩
      · rwa [List.append_nil]
      · rw [List.append_nil]
        exact hiff.mp rfl
      · rw [List.append_nil, ← hs₁]
        exact hp.reject (hclock k) (hclock (k + 1)) c (by rw [hprobe])

theorem checkLimits_cases {clock : ℕ → ℕ} {bucket : ℕ}
    (hclock : ∀ k, clock k / windowMs = bucket) (store : MemoryCounterStore)
    (limits : List LimitConfig) (keyId projectId : String) :
    (∃ s', checkLimits clock store limits keyId projectId =
          (.ok (grantAll (limitChecks limits keyId projectId)), s') ∧
        Passed store bucket (limitChecks limits keyId projectId) s' ∧
        NoRejection store bucket (limitChecks limits keyId projectId)) ∨
      ∃ pre c post s', limitChecks limits keyId projectId = pre ++ c :: post ∧
        NoRejection store bucket pre ∧ CheckRejects store bucket pre c ∧
        checkLimits clock store limits keyId projectId = (.error (.gateway .rateLimited), s') ∧
        Rejected store bucket pre c s' :=
  checkLoop_cases hclock _ 0 [] store (passed_nil store bucket) (by
    intro pre c post h
    simp at h)

theorem checkLimits_passed {clock : ℕ → ℕ} {bucket : ℕ}
    (hclock : ∀ k, clock k / windowMs = bucket) {store s : MemoryCounterStore}
    {limits : List LimitConfig} {keyId projectId : String} {permit : RatePermit}
    (h : checkLimits clock store limits keyId projectId = (.ok permit, s)) :
    Passed store bucket (limitChecks limits keyId projectId) s := by
  rcases checkLimits_cases hclock store limits keyId projectId with
    ⟨s', hok, hpassed, -⟩ | ⟨_, _, _, _, -, -, -, herr, -⟩
  · rw [hok] at h
    cases h
    exact hpassed
  · rw [herr] at h
    cases h

end AiGateway.Api
