import AiGateway.Api.RequestLog
import AiGateway.Api.Settlement
import AiGateway.Api.StreamMetering
import AiGateway.Library.Counters
import AiGateway.Storage.SqlCosts

/-!
# Arithmetic on reported tokens

An upstream reports any `i64` as a count. The sum of a usage, the reconciliation of the TPM
counters, and the tokens that the calculator and the sweep price at the full rate are compared
with what unbounded integers give.
-/

namespace AiGateway.Api
open AiGateway.Core AiGateway.Library AiGateway.Library.MachineInt AiGateway.Storage
  AiGateway.Storage.MemoryLogStore

/-! ### In unbounded integers -/

def TokenUsage.reportedTotal (u : TokenUsage) : Option Int :=
  u.total.or (u.prompt.bind fun p => u.completion.map fun c => p + c)

def exactPrice (entry : PricingEntry) (prompt completion cached : Int) : CostBreakdown :=
  let cost := (max (prompt - cached) 0 : Int) * rate entry.inputPer1k / 1000
    + (max cached 0 : Int) * rate (entry.cachedInputPer1k.getD entry.inputPer1k) / 1000
    + (max completion 0 : Int) * rate entry.outputPer1k / 1000
  ⟨round6 cost, round6 cost⟩

def exactRecost (inputPer1k cachedInputPer1k outputPer1k : ℚ) (r : RequestLogRecord) :
    RequestLogRecord :=
  let cost := round6
    ((max (r.promptTokens.getD 0 - r.cachedTokens.getD 0) 0 : Int) * inputPer1k / 1000
      + (max (r.cachedTokens.getD 0) 0 : Int) * cachedInputPer1k / 1000
      + (max (r.completionTokens.getD 0) 0 : Int) * outputPer1k / 1000)
  { r with wouldHaveCostUsd := some cost, costUsd := some (if r.cached then 0 else cost) }

/-- One round of the loop, from the counters it finds: the difference is exact, and a counter
that is written is the exact sum and not negative. -/
structure ExactRound (now : ℕ) (actual : Int) (key : String) (prededucted : Int)
    (store : MemoryCounterStore) : Prop where
  difference : wrap64 (actual - prededucted) = actual - prededucted
  sum : wrap64 (actual - prededucted) ≠ 0 →
    (store.incrWindow now key windowMs (wrap64 (actual - prededucted))).1 =
      store.windows (windowSlot now key windowMs) + (actual - prededucted)
  nonneg : wrap64 (actual - prededucted) ≠ 0 →
    0 ≤ (store.incrWindow now key windowMs (wrap64 (actual - prededucted))).1

/-- Every round of `reconcile_tokens` is exact, from the store the rounds before it leave. -/
def ReconcilesExactly (clock : ℕ → ℕ) (actual : Int) (k : ℕ) (reservations : List (String × Int))
    (store : MemoryCounterStore) : Prop :=
  ∀ before key prededucted after, reservations = before ++ (key, prededucted) :: after →
    ExactRound (clock (k + before.length)) actual key prededucted
      (reconcileTokens clock actual k before store)

/-- The total, the reconciliation, the live price and the repriced record are those of unbounded
integers, whatever the rates are; no reconciled counter is negative. -/
structure ExactArithmetic (usage : TokenUsage) (clock : ℕ → ℕ) (permit : RatePermit)
    (store : MemoryCounterStore) (log : LogBuilder) : Prop where
  total : usage.totalTokens = usage.reportedTotal
  reconcile : ReconcilesExactly clock (usage.totalTokens.getD 0) 0 permit.tpmReservations store
  calculator : ∀ entry, applyPrice entry usage.forPricing.prompt usage.forPricing.completion
    usage.forPricing.cached = exactPrice entry usage.forPricing.prompt usage.forPricing.completion
      usage.forPricing.cached
  recompute : ∀ a b c fromTs toTs, swept fromTs toTs (log.setTokenUsage usage).record = true →
    recost a b c (log.setTokenUsage usage).record =
      exactRecost a b c (log.setTokenUsage usage).record

def reconcileSlots (clock : ℕ → ℕ) : ℕ → List String → List WindowSlot
  | _, [] => []
  | k, key :: keys => windowSlot (clock k) key windowMs :: reconcileSlots clock (k + 1) keys

/-- What is reported fits: the sum of a prompt and a completion if no total is given, the prompt
less the cached tokens, and, unless the total is what was deducted, each counter once it is
corrected for the first, the second and every further reservation in its window. -/
structure TokensFit (usage : TokenUsage) (slots : List WindowSlot) (store : MemoryCounterStore) :
    Prop where
  sum : ∀ p c, usage.total = none → usage.prompt = some p → usage.completion = some c →
    InI64 (p + c)
  fresh : InI64 (usage.prompt.getD 0 - usage.cached.getD 0)
  counters : usage.reportedTotal.getD 0 = 1024 ∨ ∀ slot n, n < slots.count slot →
    0 ≤ store.windows slot + (n + 1) * (usage.reportedTotal.getD 0 - 1024) ∧
      store.windows slot + (n + 1) * (usage.reportedTotal.getD 0 - 1024) < 9223372036854775808

/-! ### The total -/

theorem inI64_of_wrap64_eq {x : Int} (h : wrap64 x = x) : InI64 x := by
  rw [← h]
  exact wrap64_inI64 x

theorem totalTokens_eq_iff {usage : TokenUsage} : usage.totalTokens = usage.reportedTotal ↔
    ∀ p c, usage.total = none → usage.prompt = some p → usage.completion = some c →
      InI64 (p + c) := by
  obtain ⟨prompt, completion, cached, total⟩ := usage
  unfold TokenUsage.totalTokens TokenUsage.reportedTotal
  cases total with
  | some t => simp
  | none =>
    cases prompt with
    | none => simp
    | some p =>
      cases completion with
      | none => simp
      | some c =>
        constructor
        · intro h p' c' _ hp hc
          cases hp
          cases hc
          exact inI64_of_wrap64_eq (Option.some.inj h)
        · intro h
          exact congrArg some (wrap64_of_inI64 (h p c rfl rfl rfl))

/-! ### The reconciliation -/

section
variable {clock : ℕ → ℕ} {actual : Int}

theorem reconcileTokens_singleton (k : ℕ) (key : String) (prededucted : Int)
    (store : MemoryCounterStore) (rest : List (String × Int)) :
    reconcileTokens clock actual k ((key, prededucted) :: rest) store =
      reconcileTokens clock actual (k + 1) rest
        (reconcileTokens clock actual k [(key, prededucted)] store) := by
  rw [reconcileTokens_cons, reconcileTokens_cons]
  rfl

theorem reconcilesExactly_cons (k : ℕ) (key : String) (prededucted : Int)
    (rest : List (String × Int)) (store : MemoryCounterStore) :
    ReconcilesExactly clock actual k ((key, prededucted) :: rest) store ↔
      ExactRound (clock k) actual key prededucted store ∧
        ReconcilesExactly clock actual (k + 1) rest
          (reconcileTokens clock actual k [(key, prededucted)] store) := by
  constructor
  · intro h
    refine ⟨h [] key prededucted rest rfl, ?_⟩
    intro before key' prededucted' after hrest
    have hround := h ((key, prededucted) :: before) key' prededucted' after (by rw [hrest]; rfl)
    rw [reconcileTokens_singleton, List.length_cons] at hround
    have hindex : k + (before.length + 1) = k + 1 + before.length := by omega
    rw [hindex] at hround
    exact hround
  · intro h before key' prededucted' after hsplit
    obtain ⟨hhead, hrest⟩ := h
    cases before with
    | nil =>
      rw [List.nil_append, List.cons.injEq, Prod.mk.injEq] at hsplit
      obtain ⟨⟨rfl, rfl⟩, -⟩ := hsplit
      exact hhead
    | cons first before =>
      rw [List.cons_append, List.cons.injEq] at hsplit
      obtain ⟨rfl, htail⟩ := hsplit
      have hround := hrest before key' prededucted' after htail
      rw [reconcileTokens_singleton, List.length_cons]
      have hindex : k + (before.length + 1) = k + 1 + before.length := by omega
      rw [hindex]
      exact hround

/-- A counter as it should be: an `i64` that is not negative. -/
def Counts (x : Int) : Prop := 0 ≤ x ∧ x < 9223372036854775808

theorem incrWindow_value (now : ℕ) (key : String) (delta : Int) (store : MemoryCounterStore) :
    (store.incrWindow now key windowMs delta).1 =
      wrap64 (store.windows (windowSlot now key windowMs) + delta) :=
  MemoryCounterStore.addAt_self ..

theorem exactRound_iff {now : ℕ} {key : String} {store : MemoryCounterStore} (hactual : InI64 actual)
    (hne : actual ≠ 1024) : ExactRound now actual key 1024 store ↔
      Counts (store.windows (windowSlot now key windowMs) + (actual - 1024)) := by
  have hcounter := store.windows_inI64 (windowSlot now key windowMs)
  unfold InI64 at hactual hcounter
  constructor
  · intro h
    obtain ⟨hdifference, hsum, hnonneg⟩ := h
    have hdelta : wrap64 (actual - 1024) ≠ 0 := by omega
    have hexact := hsum hdelta
    have hpos := hnonneg hdelta
    rw [hexact] at hpos
    rw [incrWindow_value, hdifference] at hexact
    have hfits := inI64_of_wrap64_eq hexact
    unfold InI64 at hfits
    exact ⟨hpos, hfits.2⟩
  · intro h
    obtain ⟨hpos, hlt⟩ := h
    have hdifference : wrap64 (actual - 1024) = actual - 1024 := by
      refine wrap64_of_inI64 ?_
      unfold InI64
      omega
    have hfits : InI64 (store.windows (windowSlot now key windowMs) + (actual - 1024)) := by
      unfold InI64
      omega
    refine ⟨hdifference, ?_, ?_⟩
    · intro _
      rw [incrWindow_value, hdifference, wrap64_of_inI64 hfits]
    · intro _
      rw [incrWindow_value, hdifference, wrap64_of_inI64 hfits]
      exact hpos

theorem reconcileTokens_round {k : ℕ} {key : String} {store : MemoryCounterStore}
    (hactual : InI64 actual) (hne : actual ≠ 1024)
    (hcounts : Counts (store.windows (windowSlot (clock k) key windowMs) + (actual - 1024))) :
    (reconcileTokens clock actual k [(key, 1024)] store).windows =
      Counters.add (actual - 1024) (windowSlot (clock k) key windowMs) store.windows := by
  obtain ⟨hdifference, hsum, -⟩ := (exactRound_iff hactual hne).mpr hcounts
  have hdelta : wrap64 (actual - 1024) ≠ 0 := by
    rw [hdifference]
    omega
  rw [reconcileTokens_cons, if_neg hdelta]
  show Function.update store.windows _ _ = Function.update store.windows _ _
  rw [← incrWindow_value, hsum hdelta]

theorem reconcilesExactly_iff_each (hactual : InI64 actual) (hne : actual ≠ 1024) (k : ℕ)
    (keys : List String) (store : MemoryCounterStore) :
    ReconcilesExactly clock actual k (keys.map fun key => (key, 1024)) store ↔
      Counters.Each Counts (actual - 1024) (reconcileSlots clock k keys) store.windows := by
  induction keys generalizing k store with
  | nil =>
    constructor
    · intro _
      trivial
    · intro _ before key prededucted after h
      exact absurd h (by simp)
  | cons key keys ih =>
    rw [List.map_cons, reconcilesExactly_cons, exactRound_iff hactual hne, ih]
    show _ ↔ Counts _ ∧ Counters.Each _ _ _ _
    constructor
    · intro h
      obtain ⟨hcounts, hrest⟩ := h
      rw [reconcileTokens_round hactual hne hcounts] at hrest
      exact ⟨hcounts, hrest⟩
    · intro h
      obtain ⟨hcounts, hrest⟩ := h
      rw [reconcileTokens_round hactual hne hcounts]
      exact ⟨hcounts, hrest⟩

theorem reconcilesExactly_deducted (k : ℕ) (keys : List String) (store : MemoryCounterStore) :
    ReconcilesExactly clock 1024 k (keys.map fun key => (key, 1024)) store := by
  intro before key prededucted after h
  have hmem : (key, prededucted) ∈ keys.map fun key => (key, (1024 : Int)) := by
    rw [h]
    exact List.mem_append_right _ (List.mem_cons_self ..)
  obtain ⟨key', -, hkey⟩ := List.mem_map.mp hmem
  obtain ⟨rfl, rfl⟩ := Prod.mk.inj hkey
  refine ⟨rfl, ?_, ?_⟩
  · intro hne
    exact absurd rfl hne
  · intro hne
    exact absurd rfl hne

theorem reconcilesExactly_iff (hactual : InI64 actual) (keys : List String)
    (store : MemoryCounterStore) :
    ReconcilesExactly clock actual 0 (keys.map fun key => (key, 1024)) store ↔
      actual = 1024 ∨ ∀ slot n, n < (reconcileSlots clock 0 keys).count slot →
        Counts (store.windows slot + (n + 1) * (actual - 1024)) := by
  by_cases hdeducted : actual = 1024
  · subst hdeducted
    constructor
    · intro _
      exact Or.inl rfl
    · intro _
      exact reconcilesExactly_deducted 0 keys store
  · rw [reconcilesExactly_iff_each hactual hdeducted, Counters.each_iff]
    constructor
    · intro h
      exact Or.inr h
    · intro h
      exact h.resolve_left hdeducted

end

/-! ### The prices -/

/-- A price of 1 for each token that is not cached. -/
def unitPrice : PricingEntry := ⟨"", "", ⟨4652007308841189376⟩, ⟨0⟩, some ⟨0⟩⟩

theorem rate_thousand : rate ⟨4652007308841189376⟩ = 1000 := by decide +kernel

theorem rate_zero : rate ⟨0⟩ = 0 := by decide +kernel

theorem applyPrice_unitPrice (prompt completion cached : Int) :
    (applyPrice unitPrice prompt completion cached).costUsd =
      ((max (wrap64 (prompt - cached)) 0 : Int) : ℚ) := by
  unfold applyPrice unitPrice
  simp only [Option.getD_some, ofPrice_rat, ofCount_rat, Int.cast_ofNat, rate_thousand, rate_zero,
    mul_zero, zero_div, add_zero]
  rw [mul_div_cancel_right₀ _ (by norm_num), round6_intCast]

theorem exactPrice_unitPrice (prompt completion cached : Int) :
    (exactPrice unitPrice prompt completion cached).costUsd = (max (prompt - cached) 0 : Int) := by
  unfold exactPrice unitPrice
  simp only [Option.getD_some, rate_thousand, rate_zero, mul_zero, zero_div, add_zero]
  rw [mul_div_cancel_right₀ _ (by norm_num), round6_intCast]

/-- An overflow is never hidden by the cut at 0. -/
theorem inI64_of_max_eq {x : Int} (hlow : -18446744073709551616 < x)
    (hhigh : x < 18446744073709551616) (h : max (wrap64 x) 0 = max x 0) : InI64 x := by
  unfold wrap64 at h
  unfold InI64
  omega

theorem applyPrice_eq_iff {prompt cached : Int} (hprompt : InI64 prompt) (hcached : InI64 cached)
    (completion : Int) :
    (∀ entry, applyPrice entry prompt completion cached =
      exactPrice entry prompt completion cached) ↔ InI64 (prompt - cached) := by
  constructor
  · intro h
    have hcost := congrArg CostBreakdown.costUsd (h unitPrice)
    rw [applyPrice_unitPrice, exactPrice_unitPrice, Int.cast_inj] at hcost
    unfold InI64 at hprompt hcached
    exact inI64_of_max_eq (by omega) (by omega) hcost
  · intro h entry
    simp only [applyPrice, exactPrice, wrap64_of_inI64 h, ofPrice_rat, ofCount_rat,
      Int.cast_ofNat]

theorem recost_eq {r : RequestLogRecord}
    (h : InI64 (r.promptTokens.getD 0 - r.cachedTokens.getD 0)) (a b c : ℚ) :
    recost a b c r = exactRecost a b c r := by
  simp only [recost, exactRecost, wrap64_of_inI64 h, ofCount_rat, Int.cast_ofNat]

/-! ### All of it -/

theorem option_inI64 {found : Option Int} (h : ∀ x, found = some x → InI64 x) :
    InI64 (found.getD 0) := by
  cases found with
  | none => decide
  | some x => exact h x rfl

/-- For every body: the arithmetic on what it reports is exact, and leaves no counter negative,
if and only if what it reports fits. -/
theorem tokenArithmetic_exact_iff {admitClock : ℕ → ℕ} {before admitted : MemoryCounterStore}
    {limits : List LimitConfig} {keyId projectId : String} {permit : RatePermit}
    (hpermit : checkLimits admitClock before limits keyId projectId = (.ok permit, admitted))
    (fromSlice : Bytes → Option Value) (body : Bytes) (clock : ℕ → ℕ) (store : MemoryCounterStore)
    (log : LogBuilder) :
    ExactArithmetic (extractTokenUsage fromSlice body) clock permit store log ↔
      TokensFit (extractTokenUsage fromSlice body)
        (reconcileSlots clock 0 (permit.tpmReservations.map Prod.fst)) store := by
  have hcounts := extractTokenUsage_countsInI64 fromSlice body
  generalize extractTokenUsage fromSlice body = usage at hcounts ⊢
  have hactual := totalTokens_inI64 hcounts.total
  have hprice := @applyPrice_eq_iff usage.forPricing.prompt usage.forPricing.cached
    (option_inI64 hcounts.prompt) (option_inI64 hcounts.cached) usage.forPricing.completion
  have hreservations : permit.tpmReservations =
      (permit.tpmReservations.map Prod.fst).map fun key => (key, 1024) := by
    rw [checkLimits_reservations hpermit, List.map_map, List.map_map]
    rfl
  have hreconcile := @reconcilesExactly_iff clock (usage.totalTokens.getD 0) hactual
    (permit.tpmReservations.map Prod.fst) store
  rw [← hreservations] at hreconcile
  constructor
  · intro h
    have hcounters := hreconcile.mp h.reconcile
    rw [h.total] at hcounters
    exact ⟨totalTokens_eq_iff.mp h.total, hprice.mp h.calculator, hcounters⟩
  · intro h
    have htotal := totalTokens_eq_iff.mpr h.sum
    refine ⟨htotal, hreconcile.mpr ?_, hprice.mpr h.fresh, ?_⟩
    · rw [htotal]
      exact h.counters
    · intro a b c _ _ _
      exact recost_eq h.fresh a b c

/-! A request of a cap on all keys, and what is reported for it. -/

def globalCap : List LimitConfig := [⟨⟨"global", none, none⟩, none, some 100000, none⟩]

def globalPermit : RatePermit := ⟨[], [("tpm:global", 1024)]⟩

def globalAdmitted : MemoryCounterStore :=
  (checkLimits (fun _ => 0) .new globalCap "k1" "p1").2

def usageAnswer (prompt completion : UInt64) : Value :=
  .object [("usage", .object [("completion_tokens", .number (.posInt completion)),
    ("prompt_tokens", .number (.posInt prompt))])]

def usageText (prompt completion : UInt64) : Bytes :=
  compactText sampleNumber (usageAnswer prompt completion)

def answerUsage (prompt completion : UInt64) : TokenUsage :=
  extractTokenUsage
    (tableParser [(usageText prompt completion, usageAnswer prompt completion)])
    (usageText prompt completion)

theorem globalPermit_granted :
    checkLimits (fun _ => 0) .new globalCap "k1" "p1" = (.ok globalPermit, globalAdmitted) := rfl

theorem globalSlots_count {slot : WindowSlot} {n : ℕ}
    (h : n < (reconcileSlots (fun _ => 0) 0 (globalPermit.tpmReservations.map Prod.fst)).count slot) :
    slot = ("tpm:global", 60000, 0) ∧ n = 0 := by
  have hcount : n < [(("tpm:global", 60000, 0) : WindowSlot)].count slot := h
  have hmem : slot ∈ [(("tpm:global", 60000, 0) : WindowSlot)] :=
    List.count_pos_iff.mp (by omega)
  have hle := List.count_le_length (a := slot) (l := [(("tpm:global", 60000, 0) : WindowSlot)])
  rw [List.length_singleton] at hle
  exact ⟨List.mem_singleton.mp hmem, by omega⟩

/-- 10 and 5 tokens leave 15 on the counter. -/
theorem tokenArithmetic_exact_small :
    ExactArithmetic (answerUsage 10 5) (fun _ => 0) globalPermit globalAdmitted
      (.new "r1" "p1" none none 0) := by
  have husage : answerUsage 10 5 = ⟨some 10, some 5, none, none⟩ := by decide +kernel
  have hcounter : globalAdmitted.windows ("tpm:global", 60000, 0) = 1024 := rfl
  refine (tokenArithmetic_exact_iff globalPermit_granted _ _ _ _ _).mpr ?_
  rw [show extractTokenUsage (tableParser _) _ = _ from husage]
  refine ⟨?_, by decide, Or.inr ?_⟩
  · intro p c _ hp hc
    cases hp
    cases hc
    decide
  · intro slot n hn
    obtain ⟨rfl, rfl⟩ := globalSlots_count hn
    rw [hcounter]
    decide

/-- `i64::MAX` and 1: the total is `i64::MIN`, and so is the counter behind it. -/
theorem huge_counts_overflow :
    answerUsage 9223372036854775807 1 = ⟨some 9223372036854775807, some 1, none, none⟩ ∧
      (answerUsage 9223372036854775807 1).totalTokens = some (-9223372036854775808) ∧
      checkLimits (fun _ => 0) .new globalCap "k1" "p1" = (.ok globalPermit, globalAdmitted) ∧
      (reconcileTokens (fun _ => 0) (-9223372036854775808) 0 globalPermit.tpmReservations
        globalAdmitted).windows ("tpm:global", 60000, 0) = -9223372036854775808 ∧
      ¬ExactArithmetic (answerUsage 9223372036854775807 1) (fun _ => 0) globalPermit
        globalAdmitted (.new "r1" "p1" none none 0) := by
  have htotal : (answerUsage 9223372036854775807 1).totalTokens = some (-9223372036854775808) := by
    decide +kernel
  refine ⟨by decide +kernel, htotal, globalPermit_granted, by decide +kernel, ?_⟩
  intro h
  have hreported : (answerUsage 9223372036854775807 1).reportedTotal = some 9223372036854775808 := by
    decide +kernel
  have hexact := h.total
  rw [htotal, hreported] at hexact
  exact absurd hexact (by decide)

end AiGateway.Api
