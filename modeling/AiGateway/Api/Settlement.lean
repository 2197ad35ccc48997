import AiGateway.Api.LimitCall
import AiGateway.Api.Proxy
import Mathlib.Algebra.BigOperators.Group.Finset.Piecewise

/-!
# Settling TPM reservations

What a request adds to the TPM counters it reserved, from the prededuction in
`check_limits` to its end. Only a stream that ends without an error settles the
reservations; every other way out drops the permit and leaves them in.
-/

namespace AiGateway.Api
open AiGateway.Core AiGateway.Storage AiGateway.Library.MachineInt

/-- What has been added to a counter, over these buckets. -/
def addedTo (store : MemoryCounterStore) (buckets : Finset ℕ) (key : String) : Int :=
  ∑ b ∈ buckets, store.added (key, windowMs, b)

/-- The first readings of the clock fall into these buckets. -/
def Covers (buckets : Finset ℕ) (clock : ℕ → ℕ) (readings : ℕ) : Prop :=
  ∀ k < readings, clock k / windowMs ∈ buckets

def capturedBody (env : ProxyEnv) (ctx : StreamContext) (items : List (Except String Bytes)) : Bytes :=
  (captureLoop ctx.cacheShouldWrite env.clientOpen 0 items .start).1.responseCapture

/-- The tokens reported in the captured part, 0 without a response or a usage. -/
def capturedTokens (env : ProxyEnv) : ProxyExit → Int
  | .streamed ctx items =>
    (extractTokenUsage env.fromSlice (capturedBody env ctx items)).totalTokens.getD 0
  | _ => 0

section
variable (env : ProxyEnv) (putReturns : UInt64 → Bool) (req : ProxyRequest)

/-- What the request adds to each counter that it reserved, over all buckets that its clocks fall
into, is the captured usage. -/
def SettlesReservations (clock settleClock : ℕ → ℕ) (store : MemoryCounterStore)
    (keyId projectId : String) (permit : RatePermit) : Prop :=
  ∀ buckets, Covers buckets clock (limitChecks env.limits keyId projectId).length →
    Covers buckets settleClock permit.tpmReservations.length →
    ∀ key ∈ permit.tpmReservations.map Prod.fst,
      addedTo (proxyInner env putReturns clock settleClock store keyId projectId req).2 buckets key -
        addedTo store buckets key = capturedTokens env (proxyExit env req)

/-- When a request settles: the caller's rules reserve nothing; or the task gets to settle and
the captured part reports no tokens, or reports them on counters that are reserved once,
without overflow; or the task does not get there and the captured part happens to report
exactly what is reserved. -/
def SettlementCondition (checks : List LimitCheck) : Prop :=
  (∀ scope, tpmCount checks scope = 0) ∨
    ∃ ctx items, proxyExit env req = .streamed ctx items ∧
      ((GetsToSettle putReturns ctx items ∧
          (capturedTokens env (.streamed ctx items) = 0 ∨
            ((∀ scope, tpmCount checks scope ≤ 1) ∧
              InI64 (capturedTokens env (.streamed ctx items) - 1024)))) ∨
        (¬GetsToSettle putReturns ctx items ∧ ∀ scope, tpmCount checks scope ≠ 0 →
          1024 * (tpmCount checks scope : Int) = capturedTokens env (.streamed ctx items)))

end

/-! ### What is added to the store -/

theorem incrWindow_addedTo (store : MemoryCounterStore) {buckets : Finset ℕ} {now : ℕ}
    (hnow : now / windowMs ∈ buckets) (key' : String) (delta : Int) (key : String) :
    addedTo (store.incrWindow now key' windowMs delta).2 buckets key =
      addedTo store buckets key + if key' = key then delta else 0 := by
  have hslot : ∀ b, ((key, windowMs, b) : WindowSlot) = windowSlot now key' windowMs ↔
      b = now / windowMs ∧ key' = key := by
    intro b
    show ((key, windowMs, b) : WindowSlot) = (key', windowMs, now / windowMs) ↔ _
    simp only [Prod.mk.injEq, true_and]
    exact ⟨fun h => ⟨h.2, h.1.symm⟩, fun h => ⟨h.2.symm, h.1⟩⟩
  simp only [addedTo, MemoryCounterStore.incrWindow, MemoryCounterStore.addAt_added, hslot,
    Finset.sum_add_distrib]
  by_cases hkey : key' = key
  · simp [hkey, Finset.sum_ite_eq', hnow]
  · simp [hkey]

theorem reconcileTokens_addedTo {buckets : Finset ℕ} {clock : ℕ → ℕ} (actual : Int)
    (scopes : List String) (k : ℕ) (store : MemoryCounterStore) (scope : String)
    (hclock : Covers buckets clock (k + scopes.length)) :
    addedTo (reconcileTokens clock actual k (scopes.map fun s => ("tpm:" ++ s, 1024)) store) buckets
        ("tpm:" ++ scope) =
      addedTo store buckets ("tpm:" ++ scope) + wrap64 (actual - 1024) * (scopes.count scope : ℕ) := by
  induction scopes generalizing k store with
  | nil => simp [reconcileTokens]
  | cons s scopes ih =>
    rw [List.length_cons] at hclock
    have hnow : clock k / windowMs ∈ buckets := hclock k (by omega)
    have hone : addedTo (if wrap64 (actual - 1024) = 0 then store
        else (store.incrWindow (clock k) ("tpm:" ++ s) windowMs (wrap64 (actual - 1024))).2) buckets
          ("tpm:" ++ scope) =
        addedTo store buckets ("tpm:" ++ scope) + if s = scope then wrap64 (actual - 1024) else 0 := by
      split
      · rename_i hzero
        simp [hzero]
      · rw [incrWindow_addedTo store hnow]
        by_cases hs : s = scope
        · simp [hs]
        · have hne : "tpm:" ++ s ≠ "tpm:" ++ scope := fun h => hs (prefixed_inj h)
          simp [hs, hne]
    rw [List.map_cons, reconcileTokens_cons, ih (k + 1) _ (by convert hclock using 1; omega), hone,
      List.count_cons]
    by_cases hs : s = scope
    · simp [hs]
      ring
    · simp [hs]

theorem probe_addedTo {buckets : Finset ℕ} {now : ℕ} (hnow : now / windowMs ∈ buckets)
    (check : LimitCheck) (store : MemoryCounterStore) (scope : String) :
    addedTo (check.probe now store).2 buckets ("tpm:" ++ scope) =
      addedTo store buckets ("tpm:" ++ scope) + 1024 * (tpmCount [check] scope : ℕ) := by
  rw [tpmCount_singleton]
  cases check with
  | rpm scope' cap =>
    have hadd := incrWindow_addedTo store hnow ("rpm:" ++ scope') 1 ("tpm:" ++ scope)
    rw [if_neg (rpmKey_ne_tpmKey scope' scope)] at hadd
    simpa [LimitCheck.probe, LimitCheck.tpmScope?] using hadd
  | tpm scope' cap =>
    have hadd := incrWindow_addedTo store hnow ("tpm:" ++ scope') defaultTokenPrededuct
      ("tpm:" ++ scope)
    by_cases hs : scope' = scope
    · subst hs
      simpa [LimitCheck.probe, LimitCheck.tpmScope?, defaultTokenPrededuct] using hadd
    · have hne : "tpm:" ++ scope' ≠ "tpm:" ++ scope := fun h => hs (prefixed_inj h)
      simpa [LimitCheck.probe, LimitCheck.tpmScope?, hs, hne] using hadd
  | concurrency scope' cap =>
    have hsame : ((LimitCheck.concurrency scope' cap).probe now store).2.added = store.added := by
      simp only [LimitCheck.probe, MemoryCounterStore.tryAcquireConcurrency]
      split <;> rfl
    simp [addedTo, hsame, LimitCheck.tpmScope?]

theorem checkLoop_addedTo {buckets : Finset ℕ} {clock : ℕ → ℕ} (checks : List LimitCheck) (k : ℕ)
    {permit p : RatePermit} {store s : MemoryCounterStore} (scope : String)
    (hclock : Covers buckets clock (k + checks.length))
    (h : checkLoop clock k checks permit store = (.ok p, s)) :
    addedTo s buckets ("tpm:" ++ scope) =
      addedTo store buckets ("tpm:" ++ scope) + 1024 * (tpmCount checks scope : ℕ) := by
  induction checks generalizing k permit store with
  | nil =>
    cases h
    simp [tpmCount]
  | cons check rest ih =>
    rw [List.length_cons] at hclock
    have hprobe := probe_addedTo (hclock k (by omega)) check store scope
    rw [checkLoop] at h
    split at h
    · rename_i store₁ hpassed
      rw [hpassed] at hprobe
      have hcount : tpmCount (check :: rest) scope = tpmCount [check] scope + tpmCount rest scope :=
        tpmCount_append [check] rest scope
      rw [ih (k + 1) (by convert hclock using 1; omega) h, hprobe, hcount]
      push_cast
      ring
    · cases h

/-- What a request that settles so adds to a counter for each reservation. -/
def netReservation : Option Int → Int
  | some actual => 1024 + wrap64 (actual - 1024)
  | none => 1024

/-! ### Counts are `i64` values -/

theorem number_asI64_inI64 {n : Number} {x : Int} (h : n.asI64 = some x) : InI64 x := by
  cases n with
  | posInt m =>
    simp only [Number.asI64] at h
    split at h
    · cases h
      simp only [InI64]
      omega
    · cases h
  | negInt m hm =>
    cases h
    simp only [InI64]
    omega
  | float bits hb => cases h

theorem value_asI64_inI64 {v : Value} {x : Int} (h : v.asI64 = some x) : InI64 x := by
  cases v with
  | number n => exact number_asI64_inI64 h
  | _ => cases h

def TokenUsage.InRange (u : TokenUsage) : Prop := ∀ t, u.total = some t → InI64 t

/-- Every count is an `i64` value. -/
structure TokenUsage.CountsInI64 (u : TokenUsage) : Prop where
  prompt : ∀ x, u.prompt = some x → InI64 x
  completion : ∀ x, u.completion = some x → InI64 x
  cached : ∀ x, u.cached = some x → InI64 x
  total : u.InRange

theorem bind_asI64_inI64 {found : Option Value} {x : Int} (h : found.bind Value.asI64 = some x) :
    InI64 x := by
  obtain ⟨v, -, hv⟩ := Option.bind_eq_some_iff.mp h
  exact value_asI64_inI64 hv

theorem default_countsInI64 : TokenUsage.default.CountsInI64 := by
  have hnone : ∀ x, (none : Option Int) = some x → InI64 x := by
    intro x hx
    cases hx
  exact ⟨hnone, hnone, hnone, hnone⟩

theorem fromValue_countsInI64 (v : Value) : (fromValue v).CountsInI64 := by
  unfold fromValue
  split
  · exact default_countsInI64
  · refine ⟨?_, ?_, ?_, ?_⟩
    · intro x hx
      exact bind_asI64_inI64 hx
    · intro x hx
      exact bind_asI64_inI64 hx
    · intro x hx
      -- The details of either name, or the count of cache reads.
      rcases Option.or_eq_some_iff.mp hx with hdetail | ⟨-, hread⟩
      · rcases Option.or_eq_some_iff.mp hdetail with hprompt | ⟨-, hinput⟩
        · exact bind_asI64_inI64 hprompt
        · exact bind_asI64_inI64 hinput
      · exact bind_asI64_inI64 hread
    · intro x hx
      exact bind_asI64_inI64 hx

theorem TokenUsage.CountsInI64.merge {usage u : TokenUsage} (h : usage.CountsInI64)
    (hu : u.CountsInI64) : (usage.merge u).CountsInI64 := by
  have hor : ∀ {new old : Option Int}, (∀ x, new = some x → InI64 x) →
      (∀ x, old = some x → InI64 x) → ∀ x, new.or old = some x → InI64 x := by
    intro new old hnew hold x hx
    rcases Option.or_eq_some_iff.mp hx with hx | ⟨-, hx⟩
    · exact hnew x hx
    · exact hold x hx
  exact ⟨hor hu.prompt h.prompt, hor hu.completion h.completion, hor hu.cached h.cached,
    hor hu.total h.total⟩

theorem extractTokenUsage_countsInI64 (fromSlice : Bytes → Option Value) (body : Bytes) :
    (extractTokenUsage fromSlice body).CountsInI64 := by
  have hmerge : ∀ (values : List Value) (u : TokenUsage), u.CountsInI64 →
      (values.foldl (fun usage v => usage.merge (fromValue v)) u).CountsInI64 := by
    intro values
    induction values with
    | nil => exact fun u hu => hu
    | cons v values ih => exact fun u hu => ih _ (hu.merge (fromValue_countsInI64 v))
  rw [extractTokenUsage]
  split
  · exact default_countsInI64
  · split
    · exact fromValue_countsInI64 _
    · exact hmerge _ _ default_countsInI64

theorem totalTokens_inI64 {u : TokenUsage} (h : u.InRange) : InI64 (u.totalTokens.getD 0) := by
  simp only [TokenUsage.totalTokens]
  split
  · rename_i t ht
    exact h t ht
  · split
    · exact wrap64_inI64 _
    · decide

theorem capturedTokens_inI64 (env : ProxyEnv) (exit : ProxyExit) :
    InI64 (capturedTokens env exit) := by
  cases exit with
  | streamed ctx items => exact totalTokens_inI64 (extractTokenUsage_countsInI64 _ _).total
  | _ => exact (by decide : InI64 0)

/-! ### What an admitted request adds -/

theorem checkLoop_permit {clock : ℕ → ℕ} (checks : List LimitCheck) (k : ℕ) {permit p : RatePermit}
    {store s : MemoryCounterStore} (h : checkLoop clock k checks permit store = (.ok p, s)) :
    p = checks.foldl RatePermit.grant permit := by
  induction checks generalizing k permit store with
  | nil =>
    cases h
    rfl
  | cons check rest ih =>
    rw [checkLoop] at h
    split at h
    · exact ih (k + 1) h
    · cases h

theorem checkLimits_reservations {clock : ℕ → ℕ} {store s : MemoryCounterStore}
    {limits : List LimitConfig} {keyId projectId : String} {permit : RatePermit}
    (h : checkLimits clock store limits keyId projectId = (.ok permit, s)) :
    permit.tpmReservations =
      ((limitChecks limits keyId projectId).filterMap LimitCheck.tpmScope?).map
        fun scope => ("tpm:" ++ scope, 1024) := by
  rw [checkLoop_permit _ _ h]
  exact grantAll_tpmReservations _

/-- An admitted request changes a TPM counter by the same amount for each reservation. -/
theorem proxyInner_addedTo {env : ProxyEnv} {putReturns : UInt64 → Bool} {req : ProxyRequest}
    {clock settleClock : ℕ → ℕ} {store s : MemoryCounterStore} {keyId projectId : String}
    {permit : RatePermit}
    (hpass : checkLimits clock store env.limits keyId projectId = (.ok permit, s))
    {buckets : Finset ℕ}
    (hclock : Covers buckets clock (limitChecks env.limits keyId projectId).length)
    (hsettle : Covers buckets settleClock permit.tpmReservations.length) (scope : String) :
    addedTo (proxyInner env putReturns clock settleClock store keyId projectId req).2 buckets
        ("tpm:" ++ scope) - addedTo store buckets ("tpm:" ++ scope) =
      netReservation (settledTokens env putReturns (proxyExit env req)) *
        (tpmCount (limitChecks env.limits keyId projectId) scope : ℕ) := by
  have hchecks := checkLoop_addedTo _ 0 scope (by rwa [Nat.zero_add]) hpass
  have hreservations := checkLimits_reservations hpass
  rw [hreservations, List.length_map] at hsettle
  simp only [proxyInner, hpass]
  cases settledTokens env putReturns (proxyExit env req) with
  | none =>
    simp only [addedTo, MemoryCounterStore.releaseAll_added] at hchecks ⊢
    rw [hchecks, netReservation]
    ring
  | some actual =>
    have hreconciled := reconcileTokens_addedTo actual _ 0 s scope (by rwa [Nat.zero_add])
    rw [hreservations]
    simp only [addedTo, MemoryCounterStore.releaseAll_added] at hchecks hreconciled ⊢
    rw [hreconciled, hchecks, netReservation, tpmCount]
    ring

theorem settledTokens_streamed (env : ProxyEnv) (putReturns : UInt64 → Bool) (ctx : StreamContext)
    (items : List (Except String Bytes)) :
    (GetsToSettle putReturns ctx items ∧ settledTokens env putReturns (.streamed ctx items) =
        some (capturedTokens env (.streamed ctx items))) ∨
      ¬GetsToSettle putReturns ctx items ∧
        settledTokens env putReturns (.streamed ctx items) = none := by
  by_cases hgets : GetsToSettle putReturns ctx items
  · refine .inl ⟨hgets, ?_⟩
    simp only [settledTokens]
    rw [(settlingTask_eq_some env.fromSlice).mpr ⟨hgets, rfl⟩]
    rfl
  · refine .inr ⟨hgets, ?_⟩
    simp only [settledTokens]
    cases htask : settlingTask env.fromSlice putReturns ctx env.clientOpen env.finishedAtMs items with
    | none => rfl
    | some out => exact absurd ((settlingTask_eq_some env.fromSlice).mp htask).1 hgets

/-- One settled counter: the net amount is the usage exactly when it is 0, or the
counter was reserved once and the correction does not overflow. -/
theorem settled_eq_iff {total : Int} {m : ℕ} (hm : m ≠ 0) (hr : InI64 total) :
    (1024 + wrap64 (total - 1024)) * (m : ℕ) = total ↔
      total = 0 ∨ (m ≤ 1 ∧ InI64 (total - 1024)) := by
  by_cases hfit : InI64 (total - 1024)
  · have hnet : 1024 + wrap64 (total - 1024) = total := by
      rw [wrap64_of_inI64 hfit]
      ring
    rw [hnet]
    constructor
    · intro h
      by_cases hzero : total = 0
      · exact .inl hzero
      · have hone : (m : Int) = 1 := by
          have hmul : total * (m : Int) = total * 1 := by rw [h, mul_one]
          exact mul_left_cancel₀ hzero hmul
        exact .inr ⟨by omega, hfit⟩
    · rintro (hzero | ⟨hle, -⟩)
      · rw [hzero, zero_mul]
      · have hone : m = 1 := by omega
        rw [hone, Nat.cast_one, mul_one]
  · -- the subtraction wraps, so the net amount is far above any `i64`
    have hlow : total < -9223372036854774784 := by
      simp only [InI64] at hr hfit
      omega
    have hnet : 0 ≤ 1024 + wrap64 (total - 1024) := by
      simp only [wrap64, InI64] at hr ⊢
      omega
    constructor
    · intro h
      have hpos : 0 ≤ (1024 + wrap64 (total - 1024)) * (m : Int) :=
        Int.mul_nonneg hnet (Int.natCast_nonneg m)
      omega
    · rintro (hzero | ⟨-, hin⟩)
      · omega
      · exact absurd hin hfit

section
variable {env : ProxyEnv} {putReturns : UInt64 → Bool} {req : ProxyRequest}
  {clock settleClock : ℕ → ℕ} {store s : MemoryCounterStore} {keyId projectId : String}
  {permit : RatePermit}

theorem covers_union (clock settleClock : ℕ → ℕ) (m n : ℕ) :
    ∃ buckets, Covers buckets clock m ∧ Covers buckets settleClock n := by
  refine ⟨(Finset.range m).image (fun k => clock k / windowMs) ∪
    (Finset.range n).image (fun k => settleClock k / windowMs), ?_, ?_⟩
  · intro k hk
    exact Finset.mem_union_left _ (Finset.mem_image_of_mem _ (Finset.mem_range.mpr hk))
  · intro k hk
    exact Finset.mem_union_right _ (Finset.mem_image_of_mem _ (Finset.mem_range.mpr hk))

theorem settles_iff_scopes
    (hpass : checkLimits clock store env.limits keyId projectId = (.ok permit, s)) :
    SettlesReservations env putReturns req clock settleClock store keyId projectId permit ↔
      ∀ scope, tpmCount (limitChecks env.limits keyId projectId) scope ≠ 0 →
        netReservation (settledTokens env putReturns (proxyExit env req)) *
          (tpmCount (limitChecks env.limits keyId projectId) scope : ℕ) =
            capturedTokens env (proxyExit env req) := by
  have hreservations := checkLimits_reservations hpass
  constructor
  · intro hall scope hcount
    obtain ⟨buckets, hclock, hsettle⟩ := covers_union clock settleClock
      (limitChecks env.limits keyId projectId).length permit.tpmReservations.length
    rw [← proxyInner_addedTo hpass hclock hsettle]
    refine hall buckets hclock hsettle _ ?_
    have hmem := List.count_pos_iff.mp (Nat.pos_of_ne_zero hcount)
    rw [hreservations, List.map_map]
    exact List.mem_map.mpr ⟨scope, hmem, rfl⟩
  · intro hall buckets hclock hsettle key hkey
    rw [hreservations, List.map_map] at hkey
    obtain ⟨scope, hmem, rfl⟩ := List.mem_map.mp hkey
    exact (proxyInner_addedTo hpass hclock hsettle scope).trans
      (hall scope (List.count_pos_iff.mpr hmem).ne')

theorem settles_dropped_iff
    (hpass : checkLimits clock store env.limits keyId projectId = (.ok permit, s))
    (hexit : ∀ ctx items, proxyExit env req ≠ .streamed ctx items) :
    SettlesReservations env putReturns req clock settleClock store keyId projectId permit ↔
      SettlementCondition env putReturns req (limitChecks env.limits keyId projectId) := by
  have hdrop : settledTokens env putReturns (proxyExit env req) = none ∧
      capturedTokens env (proxyExit env req) = 0 := by
    cases hcase : proxyExit env req with
    | streamed ctx items => exact absurd hcase (hexit ctx items)
    | _ => exact ⟨rfl, rfl⟩
  rw [settles_iff_scopes hpass, hdrop.1, hdrop.2]
  constructor
  · intro hall
    left
    intro scope
    by_contra hcount
    have hzero := hall scope hcount
    rw [netReservation] at hzero
    omega
  · intro h
    rcases h with hnone | ⟨ctx, items, hstream, -⟩
    · intro scope hcount
      exact absurd (hnone scope) hcount
    · exact absurd hstream (hexit ctx items)

theorem settles_unsettled_iff {ctx : StreamContext} {items : List (Except String Bytes)}
    (hpass : checkLimits clock store env.limits keyId projectId = (.ok permit, s))
    (hexit : proxyExit env req = .streamed ctx items) (hgets : ¬GetsToSettle putReturns ctx items)
    (hsettled : settledTokens env putReturns (.streamed ctx items) = none) :
    SettlesReservations env putReturns req clock settleClock store keyId projectId permit ↔
      SettlementCondition env putReturns req (limitChecks env.limits keyId projectId) := by
  rw [settles_iff_scopes hpass, hexit, hsettled]
  constructor
  · intro hall
    exact .inr ⟨ctx, items, hexit, .inr ⟨hgets, hall⟩⟩
  · intro h scope hcount
    rcases h with hnone | ⟨ctx', items', hstream, hcond⟩
    · exact absurd (hnone scope) hcount
    · rw [hexit] at hstream
      cases hstream
      rcases hcond with ⟨hgets', -⟩ | ⟨-, hall⟩
      · exact absurd hgets' hgets
      · exact hall scope hcount

theorem settles_settled_iff {ctx : StreamContext} {items : List (Except String Bytes)}
    (hpass : checkLimits clock store env.limits keyId projectId = (.ok permit, s))
    (hexit : proxyExit env req = .streamed ctx items) (hgets : GetsToSettle putReturns ctx items)
    (hsettled : settledTokens env putReturns (.streamed ctx items) =
      some (capturedTokens env (.streamed ctx items))) :
    SettlesReservations env putReturns req clock settleClock store keyId projectId permit ↔
      SettlementCondition env putReturns req (limitChecks env.limits keyId projectId) := by
  have hrange := capturedTokens_inI64 env (.streamed ctx items)
  rw [settles_iff_scopes hpass, hexit, hsettled]
  constructor
  · intro hall
    by_cases hnone : ∀ scope, tpmCount (limitChecks env.limits keyId projectId) scope = 0
    · exact .inl hnone
    · refine .inr ⟨ctx, items, hexit, .inl ⟨hgets, ?_⟩⟩
      push Not at hnone
      obtain ⟨scope, hcount⟩ := hnone
      rcases (settled_eq_iff hcount hrange).mp (hall scope hcount) with hzero | ⟨-, hfit⟩
      · exact .inl hzero
      · by_cases hzero : capturedTokens env (.streamed ctx items) = 0
        · exact .inl hzero
        · refine .inr ⟨fun scope' => ?_, hfit⟩
          by_cases hc : tpmCount (limitChecks env.limits keyId projectId) scope' = 0
          · omega
          · exact (((settled_eq_iff hc hrange).mp (hall scope' hc)).resolve_left hzero).1
  · intro h scope hcount
    rcases h with hnone | ⟨ctx', items', hstream, hcond⟩
    · exact absurd (hnone scope) hcount
    · rw [hexit] at hstream
      cases hstream
      rcases hcond with ⟨-, hcond⟩ | ⟨hgets', -⟩
      · refine (settled_eq_iff hcount hrange).mpr ?_
        rcases hcond with hzero | ⟨hle, hfit⟩
        · exact .inl hzero
        · exact .inr ⟨hle scope, hfit⟩
      · exact absurd hgets hgets'

end

/-- What an admitted request adds to each counter that it reserved is the captured usage exactly
under the condition on the rules, the way the request ends and what the upstream reports. -/
theorem settlesReservations_iff (env : ProxyEnv) (putReturns : UInt64 → Bool) (req : ProxyRequest)
    {clock : ℕ → ℕ} (settleClock : ℕ → ℕ) {store s : MemoryCounterStore}
    {keyId projectId : String} {permit : RatePermit}
    (hpass : checkLimits clock store env.limits keyId projectId = (.ok permit, s)) :
    SettlesReservations env putReturns req clock settleClock store keyId projectId permit ↔
      SettlementCondition env putReturns req (limitChecks env.limits keyId projectId) := by
  by_cases hstream : ∃ ctx items, proxyExit env req = .streamed ctx items
  · obtain ⟨ctx, items, hexit⟩ := hstream
    rcases settledTokens_streamed env putReturns ctx items with ⟨hgets, hsettled⟩ | ⟨hgets, hsettled⟩
    · exact settles_settled_iff hpass hexit hgets hsettled
    · exact settles_unsettled_iff hpass hexit hgets hsettled
  · push Not at hstream
    exact settles_dropped_iff hpass hstream

def routelessEnv : ProxyEnv where
  limits := [⟨⟨"key", some "*", none⟩, none, some 10000, none⟩]
  routes := []
  kvGet _ := .ok none
  decodeCached _ := .error "no codec"
  forward now _ := (.error .upstreamTimeout, now)
  clientOpen _ := true
  finishedAtMs := 0
  blake3Hex _ := ""
  numText _ := ""
  fromSlice _ := none

def chatRequest : ProxyRequest := ⟨"POST", "openai", "/v1/chat/completions", [], [], none⟩

def reportedUsage : Bytes := asBytes "\x7b\"usage\":\x7b\"total_tokens\":1500\x7d\x7d"

/-- A route to an upstream that reports 1500 tokens. -/
def usageEnv : ProxyEnv :=
  { routelessEnv with
    routes := [⟨⟨some "openai", none⟩, ⟨"openai", none, []⟩, ⟨false, 0, false⟩, {}, []⟩]
    forward := fun n _ => (.ok ⟨200, [], 1, 1, [.ok reportedUsage]⟩, n)
    fromSlice := fun bytes =>
      if bytes = reportedUsage then
        some (.object [("usage", .object [("total_tokens", .number (.posInt 1500))])])
      else none }

/-- Admitted in the first minute and settled in the second. -/
theorem settlesReservations_secondMinute :
    SettlesReservations usageEnv (fun _ => true) chatRequest (fun _ => 59000) (fun _ => 61000) .new
      "k1" "p1" ⟨[], [("tpm:key:k1", 1024)]⟩ := by
  refine (settlesReservations_iff usageEnv (fun _ => true) chatRequest (fun _ => 61000)
    (show checkLimits (fun _ => 59000) .new usageEnv.limits "k1" "p1" = (_, _) from rfl)).mpr ?_
  refine .inr ⟨_, _, rfl, .inl ⟨⟨rfl, fun _ _ => rfl⟩, .inr ⟨?_, by decide +kernel⟩⟩⟩
  intro scope
  exact List.count_le_length (a := scope) (l := ["key:k1"])

/-- The namespace has no route: the request ends with the 1024 tokens of its
prededuction on the counter, and there was no response. -/
theorem unknownRoute_keeps_prededuction :
    (checkLimits (fun _ => 0) .new routelessEnv.limits "k1" "p1").1 =
        .ok ⟨[], [("tpm:key:k1", 1024)]⟩ ∧
      ¬SettlesReservations routelessEnv (fun _ => true) chatRequest (fun _ => 0) (fun _ => 0) .new
        "k1" "p1" ⟨[], [("tpm:key:k1", 1024)]⟩ := by
  refine ⟨rfl, fun h => ?_⟩
  have hcovers : ∀ n, Covers {0} (fun _ => 0) n := by
    intro n k _
    simp
  have hkey := h {0} (hcovers _) (hcovers _) "tpm:key:k1" (by decide)
  exact absurd hkey (by decide +kernel)

end AiGateway.Api
