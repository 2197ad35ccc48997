import AiGateway.Api.RateRuns
import Mathlib.Data.List.Dedup

/-!
# The RPM bound (`gateway-api/src/ratelimit.rs:46-75`, `gateway-storage/src/memory/mod.rs:584-591`)

The runs of `Limiter` with a note on every rpm check: who made it, for which scope
and bound, in which bucket, and whether it let the request through. All rpm checks of
a scope increment one counter per bucket, so the checks of a bucket see the numbers
from 1 on, until the `i64` counter has come round after 2^64 of them.
-/

namespace AiGateway.Api
open AiGateway.Library.MachineInt AiGateway.Library.Runs
open AiGateway.Core AiGateway.Storage

structure RpmCheck where
  request : ℕ
  scope : String
  cap : UInt64
  bucket : ℕ
  passed : Bool
  deriving DecidableEq

def Phase.rpmCheck? (now : ℕ) (store : MemoryCounterStore) (i : ℕ) : Phase → Option RpmCheck
  | .checking (.rpm scope cap :: _) _ _ =>
    some ⟨i, scope, cap, now / windowMs, !((LimitCheck.rpm scope cap).probe now store).1⟩
  | _ => none

def rpmChecks (s : Limiter) : Move → List RpmCheck
  | .advance i => (s.requests[i]?.bind (Phase.rpmCheck? s.now s.store i)).toList
  | _ => []

abbrev RpmRun := Limiter × List RpmCheck

def RpmRun.step : RpmRun → Move → Option RpmRun := observe Limiter.step rpmChecks

def RpmRun.init : RpmRun := (.init, [])

/-- The rpm checks made for a scope in a bucket. -/
def rpmMade (checks : List RpmCheck) (scope : String) (bucket : ℕ) : ℕ :=
  checks.countP fun c => c.scope = scope ∧ c.bucket = bucket

/-- Those of a rule of the given bound that let their request through. -/
def rpmPasses (checks : List RpmCheck) (scope : String) (cap : UInt64) (bucket : ℕ) : ℕ :=
  checks.countP fun c => c.scope = scope ∧ c.bucket = bucket ∧ c.cap = cap ∧ c.passed

/-- The check is the rpm check of the rule for that scope. -/
def RpmCheck.OfRule (c : RpmCheck) (limit : LimitConfig) (scope : String) (bucket : ℕ) : Prop :=
  limit.rpm = some c.cap ∧ c.scope = scope ∧ c.bucket = bucket

instance (c : RpmCheck) (limit : LimitConfig) (scope : String) (bucket : ℕ) :
    Decidable (c.OfRule limit scope bucket) := by
  unfold RpmCheck.OfRule
  infer_instance

/-- The requests whose rpm check for the rule succeeded. -/
def rpmAdmitted (checks : List RpmCheck) (limit : LimitConfig) (scope : String) (bucket : ℕ) :
    List ℕ :=
  ((checks.filter fun c => decide (c.OfRule limit scope bucket) && c.passed).map
    RpmCheck.request).dedup

/-- How many of the numbers from 1 to `made` are at most `cap` modulo 2^64. -/
def lowCounts (cap made : ℕ) : ℕ :=
  made / 18446744073709551616 * (cap + 1) + min (made % 18446744073709551616) cap

theorem lowCounts_succ {cap : ℕ} (hcap : cap < 18446744073709551616) (made : ℕ) :
    lowCounts cap (made + 1) = lowCounts cap made +
      if (made + 1) % 18446744073709551616 ≤ cap then 1 else 0 := by
  unfold lowCounts
  by_cases hround : (made + 1) % 18446744073709551616 = 0
  · have hdiv : (made + 1) / 18446744073709551616 = made / 18446744073709551616 + 1 := by
      omega
    have hlast : made % 18446744073709551616 = 18446744073709551615 := by
      omega
    rw [hdiv, hround, hlast, add_mul, if_pos (Nat.zero_le _)]
    omega
  · have hdiv : (made + 1) / 18446744073709551616 = made / 18446744073709551616 := by
      omega
    have hmod : (made + 1) % 18446744073709551616 = made % 18446744073709551616 + 1 := by
      omega
    rw [hdiv, hmod]
    split
    · omega
    · omega

theorem lowCounts_le (cap : ℕ) {made : ℕ} (h : made < 18446744073709551616) :
    lowCounts cap made ≤ cap := by
  unfold lowCounts
  rw [Nat.div_eq_of_lt h, Nat.mod_eq_of_lt h, zero_mul, zero_add]
  exact min_le_right _ _

/-! ### What one move does to the rpm counters -/

/-- A reservation is on the counter of a tpm rule. -/
def Reservation.OnTpm (r : Reservation) : Prop := ∃ scope, r.1 = "tpm:" ++ scope

theorem incrWindow_tpm (store : MemoryCounterStore) (now : ℕ) {key : String}
    (hkey : ∃ scope, key = "tpm:" ++ scope) (delta : Int) (scope : String) (bucket : ℕ) :
    (store.incrWindow now key windowMs delta).2.windows (rpmSlot bucket scope) =
      store.windows (rpmSlot bucket scope) := by
  obtain ⟨scope', rfl⟩ := hkey
  refine MemoryCounterStore.addAt_of_ne store delta fun h => ?_
  rw [windowSlot_tpm rfl] at h
  exact rpmSlot_ne_tpmSlot _ _ _ _ h

theorem LimitCheck.probe_rpmSlot (check : LimitCheck) (now : ℕ) (store : MemoryCounterStore)
    (scope : String) (bucket : ℕ) (hcheck : ∀ scope cap, check ≠ .rpm scope cap) :
    (check.probe now store).2.windows (rpmSlot bucket scope) =
      store.windows (rpmSlot bucket scope) := by
  cases check with
  | rpm scope' cap => exact absurd rfl (hcheck scope' cap)
  | tpm scope' cap => exact incrWindow_tpm store now ⟨scope', rfl⟩ _ _ _
  | concurrency scope' cap => rw [LimitCheck.probe_concurrency_windows]

theorem LimitCheck.probe_rpm (now : ℕ) (store : MemoryCounterStore) (scope : String) (cap : UInt64)
    (scope' : String) (bucket : ℕ) :
    ((LimitCheck.rpm scope cap).probe now store).2.windows (rpmSlot bucket scope') =
      wrap64 (store.windows (rpmSlot bucket scope') +
        if scope = scope' ∧ now / windowMs = bucket then 1 else 0) := by
  by_cases hslot : scope = scope' ∧ now / windowMs = bucket
  · rw [if_pos hslot, ← hslot.1, ← hslot.2, ← windowSlot_rpm rfl]
    exact MemoryCounterStore.addAt_self ..
  · rw [if_neg hslot, add_zero, MemoryCounterStore.wrap64_windows]
    refine MemoryCounterStore.addAt_of_ne store 1 fun h => hslot ?_
    rw [windowSlot_rpm rfl, rpmSlot, rpmSlot, Prod.mk.injEq, Prod.mk.injEq] at h
    exact ⟨(prefixed_inj h.1).symm, h.2.2.symm⟩

theorem LimitCheck.probe_rpm_passes (now : ℕ) (store : MemoryCounterStore) (scope : String)
    (cap : UInt64) :
    ((LimitCheck.rpm scope cap).probe now store).1 = false ↔
      asU64 (store.windows (rpmSlot (now / windowMs) scope) + 1) ≤ cap.toNat := by
  simp only [LimitCheck.probe, MemoryCounterStore.incrWindow, windowSlot_rpm rfl,
    MemoryCounterStore.addAt_self, asU64_wrap64, decide_eq_false_iff_not, Nat.not_lt]

/-- The check of a request, passed or not, adds what it makes to the counter. -/
theorem LimitCheck.probe_rpmMade {check : LimitCheck} {now : ℕ} {store store' : MemoryCounterStore}
    {refused : Bool} (h : check.probe now store = (refused, store')) (rest : List LimitCheck)
    (permits : List ConcurrencyPermit) (reserved : List Reservation) (i : ℕ) (scope : String)
    (bucket : ℕ) :
    store'.windows (rpmSlot bucket scope) = wrap64 (store.windows (rpmSlot bucket scope) +
      rpmMade ((Phase.checking (check :: rest) permits reserved).rpmCheck? now store i).toList
        scope bucket) := by
  have hstore : store' = (check.probe now store).2 := by
    rw [h]
  have hsame : (check.probe now store).2.windows (rpmSlot bucket scope) =
        store.windows (rpmSlot bucket scope) →
      (check.probe now store).2.windows (rpmSlot bucket scope) =
        wrap64 (store.windows (rpmSlot bucket scope) + (0 : ℕ)) := by
    intro heq
    rw [Nat.cast_zero, add_zero, MemoryCounterStore.wrap64_windows, heq]
  rw [hstore]
  cases check with
  | rpm scope' cap =>
    rw [LimitCheck.probe_rpm]
    simp only [Phase.rpmCheck?, Option.toList_some, rpmMade, List.countP_singleton,
      decide_eq_true_eq]
    split
    · rfl
    · rfl
  | tpm scope' cap =>
    exact hsame (LimitCheck.probe_rpmSlot _ _ _ _ _ fun _ _ heq => by cases heq)
  | concurrency scope' cap =>
    exact hsame (LimitCheck.probe_rpmSlot _ _ _ _ _ fun _ _ heq => by cases heq)

/-- A move of a request counts one up for its rpm check, if it makes one, and changes
no rpm counter otherwise. -/
theorem Phase.advance_rpm {now : ℕ} {store store' : MemoryCounterStore} {phase phase' : Phase}
    (h : phase.advance now store = some (phase', store'))
    (htpm : ∀ r ∈ phase.outstanding, Reservation.OnTpm r) (i : ℕ) (scope : String) (bucket : ℕ) :
    store'.windows (rpmSlot bucket scope) = wrap64 (store.windows (rpmSlot bucket scope) +
      rpmMade (phase.rpmCheck? now store i).toList scope bucket) := by
  have hsame : ∀ store' : MemoryCounterStore,
      store'.windows (rpmSlot bucket scope) = store.windows (rpmSlot bucket scope) →
      store'.windows (rpmSlot bucket scope) =
        wrap64 (store.windows (rpmSlot bucket scope) + (0 : ℕ)) := by
    intro store' heq
    rw [Nat.cast_zero, add_zero, MemoryCounterStore.wrap64_windows, heq]
  cases Phase.advance_cases h with
  | grant permits reserved => exact hsame _ rfl
  | pass rest permits reserved hprobe => exact LimitCheck.probe_rpmMade hprobe _ _ _ _ _ _
  | refuse rest permits reserved hprobe => exact LimitCheck.probe_rpmMade hprobe _ _ _ _ _ _
  | rollBack own permits =>
    exact hsame _ (incrWindow_tpm store now (htpm own (List.mem_singleton.mpr rfl)) _ _ _)
  | settled actual permits => exact hsame _ rfl
  | skip own rest permits hzero => exact hsame _ rfl
  | settle own rest permits =>
    exact hsame _ (incrWindow_tpm store now (htpm own (List.mem_cons_self ..)) _ _ _)
  | finish => exact hsame _ rfl
  | release permit permits => exact hsame _ rfl

theorem LimitCheck.reservation_onTpm {check : LimitCheck} {now : ℕ} {r : Reservation}
    (h : r ∈ check.reservation? now) : Reservation.OnTpm r := by
  cases check with
  | tpm scope cap =>
    rw [List.mem_singleton.mp h]
    exact ⟨scope, rfl⟩
  | rpm scope cap => cases h
  | concurrency scope cap => cases h

theorem Phase.advance_onTpm {now : ℕ} {store store' : MemoryCounterStore} {phase phase' : Phase}
    (h : phase.advance now store = some (phase', store'))
    (htpm : ∀ r ∈ phase.outstanding, Reservation.OnTpm r) :
    ∀ r ∈ phase'.outstanding, Reservation.OnTpm r := by
  intro r hr
  cases Phase.advance_cases h with
  | grant permits reserved => exact htpm r hr
  | pass rest permits reserved hprobe =>
    rcases List.mem_append.mp hr with hold | hnew
    · exact htpm r hold
    · exact LimitCheck.reservation_onTpm hnew
  | @refuse check rest permits reserved store' hprobe =>
    rw [check.refused_outstanding] at hr
    exact LimitCheck.reservation_onTpm hr
  | rollBack own permits => cases hr
  | settled actual permits => cases hr
  | skip own rest permits hzero => exact htpm r (List.mem_cons_of_mem _ hr)
  | settle own rest permits => exact htpm r (List.mem_cons_of_mem _ hr)
  | finish => cases hr
  | release permit permits => cases hr

/-! ### Runs -/

def Limiter.OnTpm (s : Limiter) : Prop :=
  ∀ phase ∈ s.requests, ∀ r ∈ phase.outstanding, Reservation.OnTpm r

theorem Limiter.OnTpm.step {s t : Limiter} {m : Move} (h : s.OnTpm) (hstep : s.step m = some t) :
    t.OnTpm := by
  intro phase hphase
  rcases Limiter.step_cases hstep with ⟨-, new, hreq⟩ | ⟨-, hreq⟩ |
    ⟨i, old, next, -, hold, hadv, hreq⟩ | ⟨i, old, next, hold, -, hless, hreq⟩
  · rw [hreq] at hphase
    rcases List.mem_append.mp hphase with hin | hnew
    · exact h phase hin
    · rw [List.mem_singleton.mp hnew]
      intro r hr
      cases hr
  · rw [hreq] at hphase
    exact h phase hphase
  · rw [hreq] at hphase
    rcases List.mem_or_eq_of_mem_set hphase with hin | heq
    · exact h phase hin
    · rw [heq]
      exact Phase.advance_onTpm hadv (h old (List.mem_of_getElem? hold))
  · rw [hreq] at hphase
    rcases List.mem_or_eq_of_mem_set hphase with hin | heq
    · exact h phase hin
    · rw [heq]
      intro r hr
      have hpos := List.count_pos_iff.mpr hr
      exact h old (List.mem_of_getElem? hold) r
        (List.count_pos_iff.mp (Nat.lt_of_lt_of_le hpos (hless r)))

/-- What every run keeps: each counter holds the number of checks made on it, and as
many of them passed as saw a number within their bound. -/
structure RpmRun.Counted (r : RpmRun) : Prop where
  onTpm : r.1.OnTpm
  counter : ∀ scope bucket,
    r.1.store.windows (rpmSlot bucket scope) = wrap64 (rpmMade r.2 scope bucket)
  bound : ∀ scope cap bucket,
    rpmPasses r.2 scope cap bucket ≤ lowCounts cap.toNat (rpmMade r.2 scope bucket)

theorem rpmMade_append (checks more : List RpmCheck) (scope : String) (bucket : ℕ) :
    rpmMade (checks ++ more) scope bucket = rpmMade checks scope bucket + rpmMade more scope bucket :=
  List.countP_append

theorem rpmPasses_append (checks more : List RpmCheck) (scope : String) (cap : UInt64) (bucket : ℕ) :
    rpmPasses (checks ++ more) scope cap bucket =
      rpmPasses checks scope cap bucket + rpmPasses more scope cap bucket :=
  List.countP_append

/-- The check that sees the number `made + 1` passes when that is within its bound. -/
theorem rpmCheck_bound {phase : Phase} {now : ℕ} {store : MemoryCounterStore} {i : ℕ}
    {scope : String} {bucket n : ℕ}
    (hcounter : store.windows (rpmSlot bucket scope) = wrap64 n) (cap : UInt64) :
    lowCounts cap.toNat n + rpmPasses (phase.rpmCheck? now store i).toList scope cap bucket ≤
      lowCounts cap.toNat (n + rpmMade (phase.rpmCheck? now store i).toList scope bucket) := by
  unfold Phase.rpmCheck?
  split
  · rename_i scope' cap' rest permits reserved
    simp only [Option.toList_some, rpmMade, rpmPasses, List.countP_singleton, decide_eq_true_eq]
    by_cases hslot : scope' = scope ∧ now / windowMs = bucket
    · rw [if_pos hslot, lowCounts_succ cap.toNat_lt]
      split
      · rename_i hpass
        obtain ⟨-, -, hcap, hpassed⟩ := hpass
        have hseen := (LimitCheck.probe_rpm_passes now store scope' cap').mp (by
          simpa using hpassed)
        rw [hslot.1, hslot.2, hcounter, asU64_wrap64_add, hcap] at hseen
        have hmod : (n + 1) % 18446744073709551616 ≤ cap.toNat := by
          unfold asU64 at hseen
          omega
        rw [if_pos hmod]
      · exact Nat.le_add_right _ _
    · rw [if_neg hslot, if_neg fun hall => hslot ⟨hall.1, hall.2.1⟩, Nat.add_zero, Nat.add_zero]
  · exact le_rfl

theorem RpmRun.Counted.step {r t : RpmRun} {m : Move} (h : r.Counted)
    (hstep : RpmRun.step r m = some t) : t.Counted := by
  obtain ⟨s, checks⟩ := r
  obtain ⟨s', hlimiter, ht⟩ := Option.map_eq_some_iff.mp hstep
  subst ht
  -- a move that makes no rpm check leaves the rpm counters alone
  have hquiet : s'.store = s.store → rpmChecks s m = [] →
      RpmRun.Counted (s', checks ++ rpmChecks s m) := by
    intro hstore hnone
    rw [hnone, List.append_nil]
    exact ⟨h.onTpm.step hlimiter, fun scope bucket => by rw [hstore]; exact h.counter scope bucket,
      h.bound⟩
  cases m with
  | advance i =>
    obtain ⟨phase, hphase, hrest⟩ := Option.bind_eq_some_iff.mp hlimiter
    obtain ⟨⟨phase', store⟩, hadv, heq⟩ := Option.bind_eq_some_iff.mp hrest
    have hnote : rpmChecks s (.advance i) = (phase.rpmCheck? s.now s.store i).toList := by
      simp only [rpmChecks, hphase, Option.bind_some]
    have hstore : s'.store = store := by
      cases heq
      rfl
    rw [hnote]
    refine ⟨h.onTpm.step hlimiter, ?_, ?_⟩
    · intro scope bucket
      rw [rpmMade_append, hstore, Phase.advance_rpm hadv
        (h.onTpm phase (List.mem_of_getElem? hphase)) i, h.counter, wrap64_wrap64_add, Nat.cast_add]
    · intro scope cap bucket
      rw [rpmMade_append, rpmPasses_append]
      exact le_trans (Nat.add_le_add_right (h.bound scope cap bucket) _)
        (rpmCheck_bound (h.counter scope bucket) cap)
  | tick ms =>
    cases hlimiter
    exact hquiet rfl rfl
  | arrive limits keyId projectId =>
    cases hlimiter
    exact hquiet rfl rfl
  | settle i actual =>
    have hstore : s'.store = s.store := by
      simp only [Limiter.step] at hlimiter
      split at hlimiter
      · cases hlimiter
        rfl
      · cases hlimiter
    exact hquiet hstore rfl
  | drop i =>
    obtain ⟨phase, hphase, heq⟩ := Option.bind_eq_some_iff.mp hlimiter
    cases heq
    exact hquiet rfl rfl

theorem RpmRun.counted_of_reaches {r : RpmRun} (h : Reaches RpmRun.step Always .init r) :
    r.Counted := by
  refine h.invariant ?_ fun s t m hs _ hstep => hs.step hstep
  refine ⟨?_, ?_, fun scope cap bucket => Nat.zero_le _⟩
  · intro phase hphase
    cases hphase
  · intro scope bucket
    exact (MemoryCounterStore.wrap64_windows .new _).symm

/-- At most `rpm` requests pass a rule's rpm check for a scope in a bucket, as long as
the counter of the scope has not come round in it. -/
theorem rpm_safe {r : RpmRun} (h : Reaches RpmRun.step Always .init r) {limit : LimitConfig}
    {n : UInt64} (hrpm : limit.rpm = some n) (scope : String) (bucket : ℕ)
    (hmade : rpmMade r.2 scope bucket < 18446744073709551616) :
    (rpmAdmitted r.2 limit scope bucket).length ≤ n.toNat := by
  have hbound := (RpmRun.counted_of_reaches h).bound scope n bucket
  have hlow := lowCounts_le n.toNat hmade
  have hrule : (r.2.filter fun c => decide (c.OfRule limit scope bucket) && c.passed).length =
      rpmPasses r.2 scope n bucket := by
    rw [← List.countP_eq_length_filter, rpmPasses]
    refine List.countP_congr fun c _ => ?_
    simp only [RpmCheck.OfRule, hrpm, Bool.and_eq_true, decide_eq_true_eq, Option.some.injEq]
    constructor
    · intro hc
      exact ⟨hc.1.2.1, hc.1.2.2, hc.1.1.symm, hc.2⟩
    · intro hc
      exact ⟨⟨hc.2.2.1.symm, hc.1, hc.2.1⟩, hc.2.2.2⟩
  have hdedup := (List.dedup_sublist ((r.2.filter fun c =>
    decide (c.OfRule limit scope bucket) && c.passed).map RpmCheck.request)).length_le
  rw [List.length_map] at hdedup
  unfold rpmAdmitted
  omega

def globalRpm (n : UInt64) : LimitConfig := ⟨⟨"global", none, none⟩, some n, none, none⟩

theorem rpm_safe_secondRequest :
    ∃ r, Reaches RpmRun.step Always .init r ∧
      r.2.map RpmCheck.passed = [true, false] ∧
      (rpmAdmitted r.2 (globalRpm 1) "global" 0).length ≤ 1 := by
  have hreach : Reaches RpmRun.step Always .init _ :=
    Reaches.of_run [.arrive [globalRpm 1] "k1" "p1", .arrive [globalRpm 1] "k2" "p1", .advance 1,
      .advance 0] .start rfl
  refine ⟨_, hreach, rfl, ?_⟩
  exact rpm_safe hreach (n := 1) rfl "global" 0 (by decide)

/-! ### The counter comes round -/

theorem RpmRun.reaches_next {s t : Limiter} {checks : List RpmCheck} {m : Move}
    (h : Reaches RpmRun.step Always .init (s, checks)) (hstep : s.step m = some t) :
    Reaches RpmRun.step Always .init (t, checks ++ rpmChecks s m) :=
  .next m h trivial (Option.map_eq_some_iff.mpr ⟨t, hstep, rfl⟩)

/-- One more request under a global rule that admits no request per minute. -/
theorem RpmRun.reaches_check {s : Limiter} {checks : List RpmCheck}
    (h : Reaches RpmRun.step Always .init (s, checks)) (hnow : s.now = 0) :
    ∃ t, t.now = 0 ∧ Reaches RpmRun.step Always .init (t, checks ++
      [⟨s.requests.length, "global", 0, 0,
        decide (asU64 (rpmMade checks "global" 0 + 1 : ℕ) ≤ 0)⟩]) := by
  have hcounter : s.store.windows (rpmSlot 0 "global") = wrap64 (rpmMade checks "global" 0) :=
    (RpmRun.counted_of_reaches h).counter "global" 0
  have hpasses := LimitCheck.probe_rpm_passes 0 s.store "global" 0
  have harrive := RpmRun.reaches_next h (m := .arrive [globalRpm 0] "k1" "p1") rfl
  have hlast : (s.requests ++ [Phase.checking [.rpm "global" 0] [] []])[s.requests.length]? =
      some (.checking [.rpm "global" 0] [] []) := List.getElem?_concat_length ..
  obtain ⟨⟨phase, store⟩, hadv⟩ : ∃ after,
      (Phase.checking [.rpm "global" 0] [] []).advance s.now s.store = some after := by
    simp only [Phase.advance]
    split
    · exact ⟨_, rfl⟩
    · exact ⟨_, rfl⟩
  have hstep : Limiter.step
      { s with requests := s.requests ++ [.checking [.rpm "global" 0] [] []] }
      (.advance s.requests.length) = some { s with
        store
        requests := (s.requests ++ [Phase.checking [.rpm "global" 0] [] []]).set
          s.requests.length phase } := by
    simp only [Limiter.step, hlast, Option.bind_eq_bind, Option.bind_some, hadv]
  have hnote : rpmChecks { s with requests := s.requests ++ [.checking [.rpm "global" 0] [] []] }
      (.advance s.requests.length) = [⟨s.requests.length, "global", 0, 0,
        decide (asU64 (rpmMade checks "global" 0 + 1 : ℕ) ≤ 0)⟩] := by
    rw [Nat.zero_div, hcounter, asU64_wrap64_add] at hpasses
    simp only [rpmChecks, hlast, Option.bind_some, Phase.rpmCheck?, Option.toList_some, hnow,
      Nat.zero_div, List.cons.injEq, and_true, RpmCheck.mk.injEq, true_and]
    rw [Bool.eq_iff_iff, Bool.not_eq_true', hpasses, decide_eq_true_eq, Nat.cast_add]
    rfl
  have hnext := RpmRun.reaches_next harrive hstep
  have hquiet : rpmChecks s (.arrive [globalRpm 0] "k1" "p1") = [] := rfl
  have hchecks : limitChecks [globalRpm 0] "k1" "p1" = [.rpm "global" 0] := rfl
  rw [hquiet, List.append_nil, hchecks, hnote] at hnext
  refine ⟨_, ?_, hnext⟩
  exact hnow

theorem RpmRun.reaches_made (k : ℕ) :
    ∃ s checks, s.now = 0 ∧ rpmMade checks "global" 0 = k ∧
      Reaches RpmRun.step Always .init (s, checks) := by
  induction k with
  | zero => exact ⟨.init, [], rfl, rfl, .start⟩
  | succ k ih =>
    obtain ⟨s, checks, hnow, hmade, hreach⟩ := ih
    obtain ⟨t, hnow', hnext⟩ := RpmRun.reaches_check hreach hnow
    refine ⟨t, _, hnow', ?_, hnext⟩
    rw [rpmMade_append, hmade]
    rfl

/-- Request number 2^64 of a minute passes a rule that admits none. -/
theorem rpm_comes_round :
    ∃ r, Reaches RpmRun.step Always .init r ∧ (globalRpm 0).rpm = some 0 ∧
      0 < (rpmAdmitted r.2 (globalRpm 0) "global" 0).length := by
  obtain ⟨s, checks, hnow, hmade, hreach⟩ := RpmRun.reaches_made 18446744073709551615
  obtain ⟨t, -, hnext⟩ := RpmRun.reaches_check hreach hnow
  refine ⟨_, hnext, rfl, ?_⟩
  rw [hmade]
  have hmem : s.requests.length ∈ rpmAdmitted (checks ++ [⟨s.requests.length, "global", 0, 0, true⟩])
      (globalRpm 0) "global" 0 := by
    unfold rpmAdmitted
    rw [List.mem_dedup, List.mem_map]
    refine ⟨⟨s.requests.length, "global", 0, 0, true⟩, List.mem_filter.mpr ⟨?_, ?_⟩, rfl⟩
    · exact List.mem_append_right _ (List.mem_singleton.mpr rfl)
    · simp [RpmCheck.OfRule, globalRpm]
  exact List.length_pos_of_mem hmem

end AiGateway.Api
