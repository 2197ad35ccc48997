import AiGateway.Api.Recompute
import AiGateway.Library.GroupBy
import AiGateway.Storage.SqlCosts

/-!
# The rows of a sweep (`gateway-api/src/routes/admin/pricing.rs:148-192`)

The sweep asks once for the keys of the rows and updates once for each key. The keys share the
rows that have a price among them, and an update leaves the keys of all rows as they are.
-/

namespace AiGateway.Api
open AiGateway.Core AiGateway.Library AiGateway.Library.GroupBy AiGateway.Storage
open AiGateway.Storage.MemoryLogStore

section
variable {κ : Type} (catalog : PricingCatalog) (body : RecomputeBody)

/-- A row of the window with counts, a provider, a model and a price for these. -/
structure PricedAt (r : RequestLogRecord κ) (e : PricingEntry) : Prop where
  counted : r.promptTokens.isSome ∨ r.completionTokens.isSome
  fromTs : ∀ t ∈ body.fromTs, t ≤ r.requestTs
  toTs : ∀ t ∈ body.toTs, r.requestTs ≤ t
  price : ∃ p m, r.resolveProvider = some p ∧ r.model = some m ∧ catalog.lookup p m = some e

def Eligible (r : RequestLogRecord κ) : Prop := ∃ e, PricedAt catalog body r e

def eligible (r : RequestLogRecord κ) : Bool :=
  swept body.fromTs body.toTs r &&
    (costKey r).any fun key => (catalog.lookup key.1 key.2).isSome

structure Repriced [Zero κ] [Add κ] [Mul κ] [Div κ] [CostNumber κ] (r r' : RequestLogRecord κ) : Prop where
  priced : ∀ e, PricedAt catalog body r e →
    let cost := (applyPrice e (r.promptTokens.getD 0) (r.completionTokens.getD 0)
      (r.cachedTokens.getD 0)).costUsd
    r' = { r with
      wouldHaveCostUsd := some cost
      costUsd := some (if r.cached then 0 else cost) }
  others : ¬Eligible catalog body r → r' = r

theorem swept_iff (r : RequestLogRecord κ) : swept body.fromTs body.toTs r = true ↔
    (r.promptTokens.isSome ∨ r.completionTokens.isSome) ∧
      (∀ t ∈ body.fromTs, t ≤ r.requestTs) ∧ ∀ t ∈ body.toTs, r.requestTs ≤ t := by
  unfold swept
  rw [Bool.and_eq_true, Bool.and_eq_true, Bool.or_eq_true, Option.all_eq_true, Option.all_eq_true,
    and_assoc]
  simp only [decide_eq_true_eq]
  rfl

theorem pricedAt_iff {r : RequestLogRecord κ} {e : PricingEntry} : PricedAt catalog body r e ↔
    swept body.fromTs body.toTs r = true ∧
      ∃ key, costKey r = some key ∧ catalog.lookup key.1 key.2 = some e := by
  rw [swept_iff]
  constructor
  · intro h
    obtain ⟨p, m, hprovider, hmodel, hprice⟩ := h.price
    exact ⟨⟨h.counted, h.fromTs, h.toTs⟩, (p, m), costKey_eq_some.mpr ⟨hprovider, hmodel⟩, hprice⟩
  · intro h
    obtain ⟨⟨hcounted, hfrom, hto⟩, key, hkey, hprice⟩ := h
    obtain ⟨hprovider, hmodel⟩ := costKey_eq_some.mp hkey
    exact ⟨hcounted, hfrom, hto, key.1, key.2, hprovider, hmodel, hprice⟩

theorem eligible_iff (r : RequestLogRecord κ) :
    eligible catalog body r = true ↔ Eligible catalog body r := by
  unfold eligible Eligible
  simp only [pricedAt_iff]
  rw [Bool.and_eq_true, Option.any_eq_true]
  constructor
  · intro h
    obtain ⟨hswept, key, hkey, hsome⟩ := h
    obtain ⟨e, he⟩ := Option.isSome_iff_exists.mp hsome
    exact ⟨e, hswept, key, hkey, he⟩
  · intro h
    obtain ⟨e, hswept, key, hkey, he⟩ := h
    exact ⟨hswept, key, hkey, by rw [he]; rfl⟩

instance : DecidablePred (@Eligible κ catalog body) := fun r =>
  decidable_of_iff _ (eligible_iff catalog body r)

def eligibleWith (records : List (RequestLogRecord κ)) (key : String × String) : ℕ :=
  (group costKey (records.filter (eligible catalog body)) (some key)).length

/-- The keys that the sweep asks for share the eligible rows among them. -/
theorem total_eligibleWith (records : List (RequestLogRecord κ)) :
    total (eligibleWith catalog body records) (distinctCostKeys records body.fromTs body.toTs) =
      records.countP (eligible catalog body) := by
  have hnodup : ((distinctCostKeys records body.fromTs body.toTs).map some).Nodup :=
    (List.nodup_map_iff (Option.some_injective _)).mpr (List.nodup_dedup _)
  have hall : ∀ r ∈ records.filter (eligible catalog body),
      costKey r ∈ (distinctCostKeys records body.fromTs body.toTs).map some := by
    intro r hr
    obtain ⟨hrecord, heligible⟩ := List.mem_filter.mp hr
    obtain ⟨e, hpriced⟩ := (eligible_iff catalog body r).mp heligible
    obtain ⟨hswept, key, hkey, -⟩ := (pricedAt_iff catalog body).mp hpriced
    rw [hkey]
    exact List.mem_map_of_mem (mem_distinctCostKeys.mpr ⟨r, hrecord, hswept, hkey⟩)
  have hkeys := total_keys_of_mem costKey (fun _ => 1) hnodup hall
  rw [total_map, total_one, ← List.countP_eq_length_filter] at hkeys
  rw [← hkeys]
  congr 1
  funext key
  rw [total_one]
  rfl

variable [Zero κ] [Add κ] [Mul κ] [Div κ] [CostNumber κ]

theorem repriced_recosted (r : RequestLogRecord κ) :
    Repriced catalog body r (recosted catalog body r) := by
  constructor
  · intro e h
    obtain ⟨hswept, key, hkey, hprice⟩ := (pricedAt_iff catalog body).mp h
    exact recosted_of_price catalog body hswept hkey hprice
  · intro hother
    rcases recosted_cases catalog body r with h | ⟨key, e, hswept, hkey, hprice⟩
    · exact h
    · exact absurd ⟨e, (pricedAt_iff catalog body).mpr ⟨hswept, key, hkey, hprice⟩⟩ hother

/-! ### How many rows the updates count -/

theorem recostedIn_cases (keys : List (String × String)) (r : RequestLogRecord κ) :
    recostedIn catalog body keys r = r ∨ recostedIn catalog body keys r = recosted catalog body r := by
  unfold recostedIn
  split
  · exact Or.inr rfl
  · exact Or.inl rfl

theorem eligible_recostedIn (keys : List (String × String)) (r : RequestLogRecord κ) :
    eligible catalog body (recostedIn catalog body keys r) = eligible catalog body r := by
  have hrecosted : eligible catalog body (recosted catalog body r) = eligible catalog body r := by
    rcases recosted_cases catalog body r with h | ⟨key, e, hswept, hkey, hprice⟩
    · rw [h]
    · rw [recosted_of_price catalog body hswept hkey hprice]
      rfl
  rcases recostedIn_cases catalog body keys r with h | h
  · rw [h]
  · rw [h, hrecosted]

theorem costKey_recostedIn (keys : List (String × String)) (r : RequestLogRecord κ) :
    costKey (recostedIn catalog body keys r) = costKey r := by
  rcases recostedIn_cases catalog body keys r with h | h
  · rw [h]
  · rw [h, recosted_costKey]

theorem eligibleWith_map (keys : List (String × String)) (records : List (RequestLogRecord κ))
    (key : String × String) :
    eligibleWith catalog body (records.map (recostedIn catalog body keys)) key =
      eligibleWith catalog body records key := by
  unfold eligibleWith group
  rw [List.filter_map, List.filter_map, List.length_map]
  congr 2
  · funext r
    exact congrArg (fun k => decide (k = some key)) (costKey_recostedIn catalog body keys r)
  · congr 1
    funext r
    exact eligible_recostedIn catalog body keys r

theorem recomputeKey_updatedRows (st : List (RequestLogRecord κ) × RecomputeResponse)
    (key : String × String) :
    (recomputeKey catalog body st key).2.updatedRows =
      st.2.updatedRows + eligibleWith catalog body st.1 key := by
  unfold recomputeKey eligibleWith group
  rw [List.filter_filter, ← List.countP_eq_length_filter]
  cases hprice : catalog.lookup key.1 key.2 with
  | none =>
    have hnone : st.1.countP (fun r => decide (costKey r = some key) && eligible catalog body r) =
        0 := by
      rw [List.countP_eq_zero]
      intro r _ hr
      rw [Bool.and_eq_true, decide_eq_true_eq] at hr
      obtain ⟨e, heligible⟩ := (eligible_iff catalog body r).mp hr.2
      obtain ⟨-, own, hown, he⟩ := (pricedAt_iff catalog body).mp heligible
      rw [hr.1] at hown
      cases hown
      rw [hprice] at he
      cases he
    rw [hnone]
    rfl
  | some e =>
    show st.2.updatedRows + st.1.countP _ = _
    congr 1
    apply List.countP_congr
    intro r _
    simp only [Bool.and_eq_true, decide_eq_true_eq, eligible_iff]
    constructor
    · intro h
      have hkey : costKey r = some key := costKey_eq_some.mpr h.1
      exact ⟨hkey, e, (pricedAt_iff catalog body).mpr ⟨h.2, key, hkey, hprice⟩⟩
    · intro h
      obtain ⟨hkey, e', heligible⟩ := h
      exact ⟨costKey_eq_some.mp hkey, ((pricedAt_iff catalog body).mp heligible).1⟩

theorem foldl_updatedRows (keys : List (String × String))
    (st : List (RequestLogRecord κ) × RecomputeResponse) :
    (keys.foldl (recomputeKey catalog body) st).2.updatedRows =
      st.2.updatedRows + total (eligibleWith catalog body st.1) keys := by
  induction keys generalizing st with
  | nil => rfl
  | cons key keys ih =>
    have hrest : total (eligibleWith catalog body (recomputeKey catalog body st key).1) keys =
        total (eligibleWith catalog body st.1) keys := by
      rw [recomputeKey_records]
      congr 1
      funext k
      exact eligibleWith_map catalog body [key] st.1 k
    rw [List.foldl_cons, ih, recomputeKey_updatedRows, hrest, total_cons, Nat.add_assoc]

/-- The sweep prices every row that it can price, counts it once, and touches no other; the prices
are the doubles that the calculator computes. -/
theorem sweep_prices_once (records : List (RequestLogRecord F64)) :
    List.Forall₂ (Repriced catalog body) records (recomputeCosts catalog body records).1 ∧
      (recomputeCosts catalog body records).2.updatedRows =
        records.countP fun r => Eligible catalog body r := by
  constructor
  · rw [recomputeCosts_records, List.forall₂_map_right_iff, List.forall₂_same]
    intro r _
    exact repriced_recosted catalog body r
  · unfold recomputeCosts
    rw [foldl_updatedRows, total_eligibleWith, Nat.zero_add]
    apply List.countP_congr
    intro r _
    rw [eligible_iff, decide_eq_true_eq]

end

/-! ### The traces in the rows -/

section
variable {c : ProxyCall} {l : LogEnv} {r : RequestLogRecord}

theorem proxyTrace_none : ProxyTrace none := by
  intro v hv
  cases hv

theorem chainLog_trace (result : ChainResult) :
    ProxyTrace ((startLog c l).chainLog result).record.metadata := by
  have hmetadata : ((startLog c l).chainLog result).record.metadata =
      some (.object [("attempts", .array (result.attempts.map attemptValue))]) := by
    unfold LogBuilder.chainLog
    cases result.fallbackUsed with
    | none => rfl
    | some fb => rfl
  intro v hv
  rw [hmetadata] at hv
  cases hv
  refine ⟨_, rfl, ?_⟩
  intro a ha
  obtain ⟨attempt, -, rfl⟩ := List.mem_map.mp ha
  exact ⟨attempt.provider, rfl⟩

theorem hitRecord_trace {route : RouteConfig} {cached : CachedResponse}
    (h : hitRecord c l (startLog c l) route cached = some r) : ProxyTrace r.metadata := by
  obtain ⟨preview, -, rfl⟩ := Option.map_eq_some_iff.mp h
  cases cached.servedBy with
  | none => exact proxyTrace_none
  | some provider =>
    intro v hv
    cases hv
    refine ⟨_, rfl, ?_⟩
    intro a ha
    rw [List.mem_singleton.mp ha]
    exact ⟨provider, rfl⟩

theorem endedRecord_metadata (log : LogBuilder) (statusClass : String) (httpStatus : Option Int)
    (ms ms' ms'' : Int) (usage : TokenUsage) (cost : Option ℚ) (responseBody : Option String) :
    (((((log.setStatus statusClass httpStatus).setTiming ms ms' ms'').setTokenUsage usage).setCost
      cost cost).setResponseBody responseBody).record.metadata = log.record.metadata := rfl

theorem taskRecords_metadata {log : LogBuilder} {ctx : StreamContext} {response : ForwardResponse}
    (hr : r ∈ taskRecords c l log ctx response) : r.metadata = log.record.metadata := by
  have hadopt : ∀ capture, (log.adoptId c capture).record.metadata = log.record.metadata := by
    intro capture
    obtain ⟨id, hid⟩ := adoptId_record c log capture
    rw [hid]
  unfold taskRecords at hr
  rcases hloop : captureLoop ctx.cacheShouldWrite c.env.clientOpen 0 response.body .start with
    ⟨capture, error⟩
  rw [hloop] at hr
  have hmetadata := hadopt capture.responseCapture
  cases error with
  | some e =>
    simp only at hr
    generalize log.adoptId c capture.responseCapture = adopted at hmetadata hr
    rw [List.mem_singleton.mp hr]
    exact hmetadata
  | none =>
    simp only at hr
    generalize log.adoptId c capture.responseCapture = adopted at hmetadata hr
    split at hr
    · split at hr
      · rw [List.mem_singleton.mp hr, endedRecord_metadata, hmetadata]
      · cases hr
    · rw [List.mem_singleton.mp hr, endedRecord_metadata, hmetadata]

theorem proxyRouted_trace (hr : r ∈ (proxyRouted c l (startLog c l)).2.records) :
    ProxyTrace r.metadata := by
  unfold proxyRouted at hr
  cases hroute : findRoute c.env.routes c.req.ns (extractModel c.req.requestJson) with
  | none =>
    simp only [hroute] at hr
    rw [List.mem_singleton.mp hr]
    exact proxyTrace_none
  | some route =>
    simp only [hroute] at hr
    split at hr
    · split at hr
      · cases hr
      · rename_i hhit
        rw [List.mem_singleton.mp hr]
        exact hitRecord_trace hhit
    · split at hr
      · rw [List.mem_singleton.mp hr]
        exact proxyTrace_none
      · have htrace := chainLog_trace (c := c) (l := l)
          (executeChain c.env.forward (forwardTemplate c.req) (chainOfRoute route))
        generalize (startLog c l).chainLog (executeChain c.env.forward (forwardTemplate c.req)
          (chainOfRoute route)) = log at htrace hr
        split at hr
        · rw [List.mem_singleton.mp hr]
          exact htrace
        · rw [taskRecords_metadata hr]
          exact htrace

/-- Every record that the proxy writes has a trace that SQL and the memory store read alike. -/
theorem proxyHandler_trace (hr : r ∈ (proxyHandler c l).records) : ProxyTrace r.metadata := by
  have hlogged : r ∈ (proxyLogged c l).records := hr
  unfold proxyLogged at hlogged
  split at hlogged
  · cases hlogged
  · simp only at hlogged
    split at hlogged
    · rw [List.mem_singleton.mp hlogged]
      exact proxyTrace_none
    · split at hlogged
      · rw [List.mem_singleton.mp hlogged]
        exact proxyTrace_none
      · exact proxyRouted_trace hlogged

end

end AiGateway.Api
