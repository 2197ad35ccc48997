import AiGateway.Api.LimitCall
import Mathlib.Tactic.IntervalCases

/-!
# Rejections and rule independence

Two questions about `check_limits` inside one window: what a rejected call
leaves behind in the counters, and how far the rules of one list interfere
through counters that are named after the resolved scope.
-/

namespace AiGateway.Api
open AiGateway.Library.MachineInt AiGateway.Core AiGateway.Storage

/-! ### What a rejected call leaves behind -/

def ReservationsUnchanged (before after : MemoryCounterStore) : Prop :=
  (∀ scope window bucket, after.windows ("tpm:" ++ scope, window, bucket) =
    before.windows ("tpm:" ++ scope, window, bucket)) ∧
  after.concurrency = before.concurrency

/-- The first check that rejects comes before any TPM reservation. A multiple of
`2 ^ 54` reservations of one counter counts as none: it wraps the `i64` counter
back to its old value. -/
def RejectsBeforeReserving (store : MemoryCounterStore) (bucket : ℕ) (checks : List LimitCheck) :
    Prop :=
  ∀ pre c post, checks = pre ++ c :: post → NoRejection store bucket pre →
    CheckRejects store bucket pre c → ∀ scope, 18014398509481984 ∣ tpmCount pre scope

theorem NoRejection.first_unique {store : MemoryCounterStore} {bucket : ℕ}
    {pre pre' post post' : List LimitCheck} {c c' : LimitCheck}
    (h : pre ++ c :: post = pre' ++ c' :: post') (hno : NoRejection store bucket pre)
    (hno' : NoRejection store bucket pre') (hc : CheckRejects store bucket pre c)
    (hc' : CheckRejects store bucket pre' c') : pre = pre' := by
  rcases List.append_eq_append_iff.mp h with ⟨mid, hpre', hpost⟩ | ⟨mid, hpre, hpost⟩
  · cases mid with
    | nil => simpa using hpre'.symm
    | cons x mid =>
      simp only [List.cons_append, List.cons.injEq] at hpost
      rw [← hpost.1] at hpre'
      exact absurd hc (hno' pre c mid hpre')
  · cases mid with
    | nil => simpa using hpre
    | cons x mid =>
      simp only [List.cons_append, List.cons.injEq] at hpost
      rw [← hpost.1] at hpre
      exact absurd hc' (hno pre' c' mid hpre)

theorem Rejected.unchanged_iff {store s : MemoryCounterStore} {bucket : ℕ} {pre : List LimitCheck}
    {c : LimitCheck} (hr : Rejected store bucket pre c s) :
    ReservationsUnchanged store s ↔ ∀ scope, 18014398509481984 ∣ tpmCount pre scope := by
  constructor
  · rintro ⟨htpm, -⟩ scope
    have hwrap := (hr.tpm scope).symm.trans (htpm scope windowMs bucket)
    have hdvd := (wrap64_add_eq_self (store.windows_inI64 (tpmSlot bucket scope))).mp hwrap
    omega
  · intro hdvd
    refine ⟨?_, hr.conc⟩
    intro scope window b
    by_cases hslot : ("tpm:" ++ scope, window, b) = tpmSlot bucket scope
    · rw [hslot, hr.tpm, wrap64_add_eq_self (store.windows_inI64 _)]
      have hd := hdvd scope
      omega
    · refine hr.others _ ?_ ?_
      · intro scope' h
        exact rpmKey_ne_tpmKey scope' scope (congrArg Prod.fst h).symm
      · intro scope' h
        have hs : scope = scope' := prefixed_inj (congrArg Prod.fst h)
        exact hslot (hs ▸ h)

/-- A call that errs leaves TPM counters and concurrency counts as they were
exactly when the first rejecting check stands before every TPM check. -/
theorem checkLimits_allOrNothing_iff {clock : ℕ → ℕ} {bucket : ℕ}
    (hclock : ∀ k, clock k / windowMs = bucket) (store : MemoryCounterStore)
    (limits : List LimitConfig) (keyId projectId : String) :
    (∀ e after, checkLimits clock store limits keyId projectId = (.error e, after) →
        ReservationsUnchanged store after) ↔
      RejectsBeforeReserving store bucket (limitChecks limits keyId projectId) := by
  rcases checkLimits_cases hclock store limits keyId projectId with
    ⟨s, hrun, -, hno⟩ | ⟨pre, c, post, s, hchecks, hno, hrej, hrun, hs⟩
  · refine iff_of_true ?_ ?_
    · intro e after h
      simp [hrun] at h
    · intro pre c post hchecks _ hrej
      exact absurd hrej (hno pre c post hchecks)
  · constructor
    · intro h pre' c' post' hchecks' hno' hrej'
      have hpre : pre = pre' :=
        NoRejection.first_unique (hchecks.symm.trans hchecks') hno hno' hrej hrej'
      rw [← hpre]
      exact hs.unchanged_iff.mp (h _ s hrun)
    · intro h e after hafter
      rw [hrun, Prod.mk.injEq] at hafter
      rw [← hafter.2]
      exact hs.unchanged_iff.mpr (h pre c post hchecks hno hrej)

def tpmThenClosed : List LimitConfig :=
  [⟨⟨"key", some "*", none⟩, none, some 10000, none⟩, ⟨⟨"global", none, none⟩, some 0, none, none⟩]

theorem checkLimits_allOrNothing_firstWindow :
    (∀ k, (fun _ => 0 : ℕ → ℕ) k / windowMs = 0) ∧
      ((∀ e after, checkLimits (fun _ => 0) .new tpmThenClosed "k1" "p1" = (.error e, after) →
          ReservationsUnchanged .new after) ↔
        RejectsBeforeReserving .new 0 (limitChecks tpmThenClosed "k1" "p1")) :=
  ⟨fun _ => Nat.zero_div _,
    checkLimits_allOrNothing_iff (fun _ => Nat.zero_div _) .new tpmThenClosed "k1" "p1"⟩

/-- The global rule rejects, and the key's prededuction stays in its counter. -/
theorem checkLimits_leaks_reservation :
    (checkLimits (fun _ => 0) .new tpmThenClosed "k1" "p1").1 = .error (.gateway .rateLimited) ∧
      ¬ReservationsUnchanged .new (checkLimits (fun _ => 0) .new tpmThenClosed "k1" "p1").2 := by
  refine ⟨rfl, fun h => ?_⟩
  have hslot := h.1 "key:k1" 60000 0
  exact absurd hslot (by decide)

/-! ### Rules of one list -/

/-- What happens to the counters inside one window: requests are checked,
permits of finished requests are dropped, reservations are reconciled. -/
inductive WindowEvent where
  | request (keyId projectId : String) (clock : ℕ → ℕ)
  | drop (permit : ConcurrencyPermit)
  | reconcile (scopes : List String) (actualTokens : Int) (clock : ℕ → ℕ)

def WindowEvent.In (bucket : ℕ) : WindowEvent → Prop
  | .request _ _ clock => ∀ k, clock k / windowMs = bucket
  | .drop _ => True
  | .reconcile _ _ clock => ∀ k, clock k / windowMs = bucket

def serve (limits : List LimitConfig) (store : MemoryCounterStore) :
    WindowEvent → MemoryCounterStore
  | .request keyId projectId clock => (checkLimits clock store limits keyId projectId).2
  | .drop permit => store.release permit
  | .reconcile scopes actual clock =>
    reconcileTokens clock actual 0 (scopes.map fun s => ("tpm:" ++ s, defaultTokenPrededuct)) store

def WindowEvent.matchesRule (rule : LimitConfig) : WindowEvent → Bool
  | .request keyId projectId _ => (resolveScope rule keyId projectId).isSome
  | _ => false

/-- For this caller, `rule` is the only rule of the list that bounds its metrics
on its scope. -/
def SoleUser (limits : List LimitConfig) (rule : LimitConfig) (keyId projectId : String) : Prop :=
  ∀ scope, resolveScope rule keyId projectId = some scope →
    (rule.rpm.isSome → rpmCount (limitChecks limits keyId projectId) scope ≤ 1) ∧
    (rule.tpm.isSome → tpmCount (limitChecks limits keyId projectId) scope ≤ 1) ∧
    (rule.concurrency.isSome → concCount (limitChecks limits keyId projectId) scope ≤ 1)

/-- One request moves the counters that `rule` consults by at most one request,
one prededuction and one slot. -/
def AdvancesAtMostOnce (rule : LimitConfig) (bucket : ℕ) (scope : String)
    (before after : MemoryCounterStore) : Prop :=
  (rule.rpm.isSome → ∃ j ≤ 1, after.windows (rpmSlot bucket scope) =
    wrap64 (before.windows (rpmSlot bucket scope) + (j : ℕ))) ∧
  (rule.tpm.isSome → ∃ j ≤ 1, after.windows (tpmSlot bucket scope) =
    wrap64 (before.windows (tpmSlot bucket scope) + 1024 * (j : ℕ))) ∧
  (rule.concurrency.isSome → ∃ j ≤ 1, after.concurrency ("conc:" ++ scope) =
    before.concurrency ("conc:" ++ scope) + j)

def RejectedByRpm (clock : ℕ → ℕ) (store : MemoryCounterStore) (front : List LimitConfig)
    (keyId projectId scope : String) (rpm : UInt64) : Prop :=
  ∃ permit s, checkLoop clock 0 (limitChecks front keyId projectId) ⟨[], []⟩ store = (.ok permit, s) ∧
    ((LimitCheck.rpm scope rpm).probe (clock (limitChecks front keyId projectId).length) s).1 = true

theorem keyScope_ne_projectScope (s t : String) : "key:" ++ s ≠ "project:" ++ t := by
  intro h
  have hl := congrArg String.toList h
  simp [String.toList_append] at hl

theorem keyScope_ne_global (s : String) : "key:" ++ s ≠ "global" := by
  intro h
  have hl := congrArg String.toList h
  simp [String.toList_append] at hl

theorem projectScope_ne_global (s : String) : "project:" ++ s ≠ "global" := by
  intro h
  have hl := congrArg String.toList h
  simp [String.toList_append] at hl

theorem resolveScope_cases {limit : LimitConfig} {keyId projectId scope : String}
    (h : resolveScope limit keyId projectId = some scope) :
    (limit.target.kind = "key" ∧ scope = "key:" ++ keyId) ∨
      (limit.target.kind = "project" ∧ scope = "project:" ++ projectId) ∨
      (limit.target.kind = "global" ∧ scope = "global") := by
  simp only [resolveScope] at h
  split at h
  · rename_i hk
    split at h
    · cases h
    · exact .inl ⟨hk, (Option.some.inj h).symm⟩
  · split at h
    · rename_i hk
      split at h
      · cases h
      · exact .inr (.inl ⟨hk, (Option.some.inj h).symm⟩)
    · split at h
      · rename_i hk
        exact .inr (.inr ⟨hk, (Option.some.inj h).symm⟩)
      · cases h

/-- A caller that reaches a scope through any rule reaches it through every rule
that resolves to it for some caller. -/
theorem resolveScope_shared {rule other : LimitConfig} {keyId projectId keyId' projectId' scope : String}
    (h : resolveScope rule keyId projectId = some scope)
    (h' : resolveScope other keyId' projectId' = some scope) :
    resolveScope rule keyId' projectId' = some scope := by
  rcases resolveScope_cases h with ⟨hk, rfl⟩ | ⟨hk, rfl⟩ | ⟨hk, rfl⟩
  · rcases resolveScope_cases h' with ⟨-, hs⟩ | ⟨-, hs⟩ | ⟨-, hs⟩
    · have hkey : keyId' = keyId := (prefixed_inj hs).symm
      subst hkey
      simpa [resolveScope, hk] using h
    · exact absurd hs (keyScope_ne_projectScope _ _)
    · exact absurd hs (keyScope_ne_global _)
  · rcases resolveScope_cases h' with ⟨-, hs⟩ | ⟨-, hs⟩ | ⟨-, hs⟩
    · exact absurd hs.symm (keyScope_ne_projectScope _ _)
    · have hproj : projectId' = projectId := (prefixed_inj hs).symm
      subst hproj
      simpa [resolveScope, hk] using h
    · exact absurd hs (projectScope_ne_global _)
  · simp [resolveScope, hk]

theorem mem_limitChecks {limits : List LimitConfig} {keyId projectId : String} {c : LimitCheck}
    (h : c ∈ limitChecks limits keyId projectId) :
    ∃ limit ∈ limits, ∃ scope, resolveScope limit keyId projectId = some scope ∧
      c ∈ ruleChecks limit scope := by
  obtain ⟨limit, hlimit, hc⟩ := List.mem_flatMap.mp h
  rw [limitRule] at hc
  split at hc
  · rename_i scope hscope
    exact ⟨limit, hlimit, scope, hscope, hc⟩
  · simp at hc

theorem rpmCount_pos {limits : List LimitConfig} {keyId projectId scope : String}
    (h : rpmCount (limitChecks limits keyId projectId) scope ≠ 0) :
    ∃ limit ∈ limits, resolveScope limit keyId projectId = some scope := by
  have hmem := List.count_pos_iff.mp (Nat.pos_of_ne_zero h)
  obtain ⟨c, hc, hscope⟩ := List.mem_filterMap.mp hmem
  obtain ⟨limit, hlimit, scope', hres, hrule⟩ := mem_limitChecks hc
  refine ⟨limit, hlimit, ?_⟩
  cases c with
  | rpm s cap =>
    simp only [LimitCheck.rpmScope?, Option.some.injEq] at hscope
    have hs : s = scope' := by
      simp only [ruleChecks, List.mem_append, Option.mem_toList,
        Option.map_eq_some_iff] at hrule
      rcases hrule with ⟨n, -, heq⟩ | ⟨n, -, heq⟩ | ⟨n, -, heq⟩
      · cases heq
        rfl
      · cases heq
      · cases heq
    rw [← hscope, hs, hres]
  | tpm s cap => simp [LimitCheck.rpmScope?] at hscope
  | concurrency s cap => simp [LimitCheck.rpmScope?] at hscope

theorem rpmCount_ruleChecks {rule : LimitConfig} {n : UInt64} (h : rule.rpm = some n)
    (scope : String) : rpmCount (ruleChecks rule scope) scope = 1 := by
  have htpm : rpmCount (rule.tpm.map (LimitCheck.tpm scope)).toList scope = 0 := by
    cases rule.tpm with
    | none => rfl
    | some cap => simp [rpmCount_singleton, LimitCheck.rpmScope?]
  have hconc : rpmCount (rule.concurrency.map (LimitCheck.concurrency scope)).toList scope = 0 := by
    cases rule.concurrency with
    | none => rfl
    | some cap => simp [rpmCount_singleton, LimitCheck.rpmScope?]
  rw [ruleChecks, rpmCount_append, rpmCount_append, htpm, hconc, h]
  simp [rpmCount_singleton, LimitCheck.rpmScope?]

theorem checkLimits_advance {clock : ℕ → ℕ} {bucket : ℕ}
    (hclock : ∀ k, clock k / windowMs = bucket) (store : MemoryCounterStore)
    (limits : List LimitConfig) (keyId projectId scope : String) :
    (∃ j ≤ rpmCount (limitChecks limits keyId projectId) scope,
      (checkLimits clock store limits keyId projectId).2.windows (rpmSlot bucket scope) =
        wrap64 (store.windows (rpmSlot bucket scope) + (j : ℕ))) ∧
    (∃ j ≤ tpmCount (limitChecks limits keyId projectId) scope,
      (checkLimits clock store limits keyId projectId).2.windows (tpmSlot bucket scope) =
        wrap64 (store.windows (tpmSlot bucket scope) + 1024 * (j : ℕ))) ∧
    (∃ j ≤ concCount (limitChecks limits keyId projectId) scope,
      (checkLimits clock store limits keyId projectId).2.concurrency ("conc:" ++ scope) =
        store.concurrency ("conc:" ++ scope) + j) := by
  rcases checkLimits_cases hclock store limits keyId projectId with
    ⟨s, hrun, hs, -⟩ | ⟨pre, c, post, s, hchecks, -, -, hrun, hs⟩
  · rw [hrun]
    refine ⟨⟨_, le_rfl, hs.rpm scope⟩, ⟨_, le_rfl, hs.tpm scope⟩, ⟨_, le_rfl, ?_⟩⟩
    rw [← count_concurrency]
    exact hs.conc _
  · rw [hrun, hchecks]
    have hcons : pre ++ c :: post = (pre ++ [c]) ++ post := by simp
    refine ⟨⟨rpmCount (pre ++ [c]) scope, ?_, hs.rpm scope⟩, ⟨tpmCount pre scope, ?_, hs.tpm scope⟩,
      ⟨0, Nat.zero_le _, by rw [hs.conc, Nat.add_zero]⟩⟩
    · rw [hcons, rpmCount_append (pre ++ [c])]
      exact Nat.le_add_right _ _
    · rw [tpmCount_append]
      exact Nat.le_add_right _ _

theorem reconcileTokens_rpm (clock : ℕ → ℕ) (actual : Int) (k : ℕ) (scopes : List String)
    (store : MemoryCounterStore) (bucket : ℕ) (scope : String) :
    (reconcileTokens clock actual k (scopes.map fun s => ("tpm:" ++ s, defaultTokenPrededuct))
      store).windows (rpmSlot bucket scope) = store.windows (rpmSlot bucket scope) := by
  induction scopes generalizing k store with
  | nil => rfl
  | cons s scopes ih =>
    simp only [List.map_cons, reconcileTokens]
    split
    · exact ih (k + 1) store
    · rw [ih]
      refine MemoryCounterStore.addAt_of_ne _ _ fun h => ?_
      exact rpmKey_ne_tpmKey scope s (congrArg Prod.fst h)

/-- Along the events of a window, the rpm counter of a rule that is alone on it
counts at most the requests the rule matched. -/
theorem serve_rpm_bound {bucket : ℕ} {limits : List LimitConfig} {rule : LimitConfig}
    {keyId projectId scope : String} (hscope : resolveScope rule keyId projectId = some scope)
    (hrpm : rule.rpm.isSome) (events : List WindowEvent)
    (hin : ∀ ev ∈ events, ev.In bucket)
    (hsole : ∀ key project clock, .request key project clock ∈ events →
      SoleUser limits rule key project)
    (store : MemoryCounterStore) (c : ℕ)
    (hstart : store.windows (rpmSlot bucket scope) = wrap64 c) :
    ∃ c' ≤ c + events.countP (·.matchesRule rule),
      (events.foldl (serve limits) store).windows (rpmSlot bucket scope) = wrap64 (c' : ℕ) := by
  induction events generalizing store c with
  | nil => exact ⟨c, by simp, hstart⟩
  | cons ev events ih =>
    have hstep : ∃ j ≤ if ev.matchesRule rule then 1 else 0,
        (serve limits store ev).windows (rpmSlot bucket scope) = wrap64 ((c + j : ℕ) : Int) := by
      cases ev with
      | request key project clock =>
        obtain ⟨j, hj, hwin⟩ := (checkLimits_advance (hin _ (List.mem_cons_self ..)) store limits
          key project scope).1
        refine ⟨j, ?_, ?_⟩
        · by_cases hzero : rpmCount (limitChecks limits key project) scope = 0
          · rw [hzero] at hj
            exact hj.trans (Nat.zero_le _)
          · -- a caller that counts on this scope is one that the rule matches
            obtain ⟨limit, -, hres⟩ := rpmCount_pos hzero
            have hmatch := resolveScope_shared hscope hres
            have hone := (hsole key project clock (List.mem_cons_self ..) scope hmatch).1 hrpm
            simp only [WindowEvent.matchesRule, hmatch, Option.isSome_some, if_true]
            exact hj.trans hone
        · simp only [serve]
          rw [hwin, hstart, wrap64_wrap64_add, Nat.cast_add]
      | drop permit => exact ⟨0, Nat.zero_le _, hstart⟩
      | reconcile scopes actual clock =>
        refine ⟨0, Nat.zero_le _, ?_⟩
        simp only [serve]
        rw [reconcileTokens_rpm, hstart, Nat.add_zero]
    obtain ⟨j, hj, hwin⟩ := hstep
    obtain ⟨c', hc', hrun⟩ := ih (fun ev' h => hin ev' (List.mem_cons_of_mem _ h))
      (fun key project clock h => hsole key project clock (List.mem_cons_of_mem _ h))
      (serve limits store ev) (c + j) hwin
    refine ⟨c', ?_, hrun⟩
    rw [List.countP_cons]
    omega

/-- In a window whose requests all find `rule` alone on its counters, `rule`
acts as configured: no request moves its counters more than once, and its rpm
bound `n` never rejects one of the first `n` requests it matches. -/
theorem soleRule_independent {bucket : ℕ} (front back : List LimitConfig) (rule : LimitConfig)
    (store : MemoryCounterStore) (hfresh : ∀ scope, store.windows (rpmSlot bucket scope) = 0)
    (events : List WindowEvent) (hin : ∀ ev ∈ events, ev.In bucket)
    (hsole : ∀ key project clock, .request key project clock ∈ events →
      SoleUser (front ++ rule :: back) rule key project)
    (done rest : List WindowEvent) (keyId projectId : String) (clock : ℕ → ℕ) (scope : String)
    (hevents : events = done ++ .request keyId projectId clock :: rest)
    (hscope : resolveScope rule keyId projectId = some scope) :
    AdvancesAtMostOnce rule bucket scope (done.foldl (serve (front ++ rule :: back)) store)
        (serve (front ++ rule :: back) (done.foldl (serve (front ++ rule :: back)) store)
          (.request keyId projectId clock)) ∧
      ∀ n, rule.rpm = some n → done.countP (·.matchesRule rule) < n.toNat →
        ¬RejectedByRpm clock (done.foldl (serve (front ++ rule :: back)) store) front keyId projectId
          scope n := by
  subst hevents
  have hclock : ∀ k, clock k / windowMs = bucket :=
    hin (.request keyId projectId clock) (by simp)
  obtain ⟨hone, htwo, hthree⟩ := hsole keyId projectId clock (by simp) scope hscope
  refine ⟨⟨?_, ?_, ?_⟩, ?_⟩
  · intro h
    obtain ⟨j, hj, hwin⟩ := (checkLimits_advance hclock _ _ keyId projectId scope).1
    exact ⟨j, hj.trans (hone h), hwin⟩
  · intro h
    obtain ⟨j, hj, hwin⟩ := (checkLimits_advance hclock _ _ keyId projectId scope).2.1
    exact ⟨j, hj.trans (htwo h), hwin⟩
  · intro h
    obtain ⟨j, hj, hconc⟩ := (checkLimits_advance hclock _ _ keyId projectId scope).2.2
    exact ⟨j, hj.trans (hthree h), hconc⟩
  · rintro n hn hcount ⟨permit, s, hrun, hover⟩
    have hrpm : rule.rpm.isSome := by simp [hn]
    obtain ⟨c, hc, hwin⟩ := serve_rpm_bound hscope hrpm done
      (fun ev h => hin ev (List.mem_append_left _ h))
      (fun key project clock h => hsole key project clock (List.mem_append_left _ h)) store 0
      (hfresh scope)
    -- the rule's own check uses up the one count its scope has
    have hfront : rpmCount (limitChecks front keyId projectId) scope = 0 := by
      have htotal := hone hrpm
      have hown : rpmCount (limitRule keyId projectId rule) scope = 1 := by
        rw [limitRule, hscope]
        exact rpmCount_ruleChecks hn scope
      simp only [limitChecks, List.flatMap_append, List.flatMap_cons, rpmCount_append] at htotal
      simp only [limitChecks]
      omega
    have hpassed : Passed _ bucket (limitChecks front keyId projectId) s :=
      checkLimits_passed hclock hrun
    have hrej := (hpassed.probe (hclock (limitChecks front keyId projectId).length)
      (.rpm scope n)).1.mp hover
    simp only [CheckRejects, hwin, hfront, asU64_wrap64_add] at hrej
    have hle : asU64 ((c : ℕ) + ((0 : ℕ) + 1)) ≤ c + 1 := asU64_natCast_le (c + 1)
    omega

def everyKeyTwo : LimitConfig := ⟨⟨"key", some "*", none⟩, some 2, none, none⟩

def keyOneFive : LimitConfig := ⟨⟨"key", some "k1", none⟩, some 5, none, none⟩

def requestOfKeyOne : WindowEvent := .request "k1" "p1" fun _ => 0

def everyKeyTokens : LimitConfig := ⟨⟨"key", some "*", none⟩, none, some 10000, none⟩

def everyProjectOne : LimitConfig := ⟨⟨"project", some "*", none⟩, some 1, none, some 3⟩

/-- One neighbour bounds another metric of the same key, the other one the project's requests,
and more tightly. -/
theorem soleRule_independent_otherRules :
    SoleUser ([everyKeyTokens] ++ everyKeyTwo :: [everyProjectOne]) everyKeyTwo "k1" "p1" ∧
      ¬RejectedByRpm (fun _ => 0)
        (serve ([everyKeyTokens] ++ everyKeyTwo :: [everyProjectOne]) .new requestOfKeyOne)
        [everyKeyTokens] "k1" "p1" "key:k1" 2 := by
  have hsole : SoleUser ([everyKeyTokens] ++ everyKeyTwo :: [everyProjectOne]) everyKeyTwo "k1"
      "p1" := by
    intro scope hscope
    have hs : "key:k1" = scope := Option.some.inj hscope
    subst hs
    decide
  refine ⟨hsole, ?_⟩
  refine (@soleRule_independent 0 [everyKeyTokens] [everyProjectOne] everyKeyTwo .new (fun _ => rfl)
    [requestOfKeyOne, requestOfKeyOne] ?_ ?_ [requestOfKeyOne] [] "k1" "p1" (fun _ => 0) "key:k1" rfl
    rfl).2 2 rfl (by decide)
  · intro ev hev
    have heq : ev = requestOfKeyOne := by simpa using hev
    rw [heq]
    exact fun _ => Nat.zero_div _
  · intro key project clock hmem
    have heq : .request key project clock = requestOfKeyOne := by simpa using hmem
    cases heq
    exact hsole

/-- Both rules count on `rpm:key:k1`: one request moves it by two, and the
second request of the minute is over the bound of two. -/
theorem rules_share_counter :
    ¬AdvancesAtMostOnce everyKeyTwo 0 "key:k1" .new
        (serve [everyKeyTwo, keyOneFive] .new requestOfKeyOne) ∧
      RejectedByRpm (fun _ => 0) (serve [everyKeyTwo, keyOneFive] .new requestOfKeyOne) [] "k1" "p1"
        "key:k1" 2 := by
  refine ⟨?_, ?_⟩
  · rintro ⟨hrpm, -, -⟩
    obtain ⟨j, hj, hwin⟩ := hrpm rfl
    have htwo : (serve [everyKeyTwo, keyOneFive] .new requestOfKeyOne).windows
        (rpmSlot 0 "key:k1") = 2 := by decide
    rw [htwo] at hwin
    interval_cases j <;> exact absurd hwin (by decide)
  · exact ⟨_, _, rfl, by decide⟩

end AiGateway.Api
