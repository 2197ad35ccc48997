import AiGateway.Api.RequestLog
import AiGateway.Core.ChainShape
import AiGateway.Storage.MemoryLogs

/-!
# Recomputed costs (`gateway-api/src/routes/admin/pricing.rs:138-192`)

A request is priced when it ends (`proxy.rs:229-271,458-512`), and again by the sweep of
`POST /admin/pricing/recompute`. The two take provider, model, counts and the cached flag from
different places.
-/

namespace AiGateway.Api
open AiGateway.Core AiGateway.Library AiGateway.Storage AiGateway.Storage.MemoryLogStore

/-! ### The sweep -/

structure RecomputeBody where
  fromTs : Option Int
  toTs : Option Int

structure RecomputeResponse where
  updatedRows : ℕ
  modelsMatched : ℕ
  modelsWithoutPrice : List String

section
variable {κ : Type} [Zero κ] [Add κ] [Mul κ] [Div κ] [CostNumber κ] (catalog : PricingCatalog)
  (body : RecomputeBody)

def recomputeKey (st : List (RequestLogRecord κ) × RecomputeResponse) (key : String × String) :
    List (RequestLogRecord κ) × RecomputeResponse :=
  match catalog.lookup key.1 key.2 with
  | some e =>
    let cachedRate := e.cachedInputPer1k.getD e.inputPer1k
    let (records, updated) := MemoryLogStore.recomputeCosts st.1 key.1 key.2
      (CostNumber.ofPrice e.inputPer1k) (CostNumber.ofPrice cachedRate)
      (CostNumber.ofPrice e.outputPer1k) body.fromTs body.toTs
    (records,
      { st.2 with
        updatedRows := st.2.updatedRows + updated, modelsMatched := st.2.modelsMatched + 1 })
  | none =>
    (st.1,
      { st.2 with
        modelsWithoutPrice := st.2.modelsWithoutPrice ++ [key.1 ++ "/" ++ key.2] })

/-- `recompute_costs`, over the memory store. -/
def recomputeCosts (records : List (RequestLogRecord κ)) :
    List (RequestLogRecord κ) × RecomputeResponse :=
  (distinctCostKeys records body.fromTs body.toTs).foldl (recomputeKey catalog body)
    (records, ⟨0, 0, []⟩)

/-! ### What it makes of one record -/

def recostAt (e : PricingEntry) (r : RequestLogRecord κ) : RequestLogRecord κ :=
  recost (CostNumber.ofPrice e.inputPer1k)
    (CostNumber.ofPrice (e.cachedInputPer1k.getD e.inputPer1k)) (CostNumber.ofPrice e.outputPer1k) r

def recosted (r : RequestLogRecord κ) : RequestLogRecord κ :=
  if swept body.fromTs body.toTs r then
    (costKey r).elim r fun key => (catalog.lookup key.1 key.2).elim r fun e => recostAt e r
  else r

/-- The same, as far as the keys go. -/
def recostedIn (keys : List (String × String)) (r : RequestLogRecord κ) : RequestLogRecord κ :=
  if (costKey r).any keys.contains then recosted catalog body r else r

theorem recosted_of_price {r : RequestLogRecord κ}
    (hswept : swept body.fromTs body.toTs r = true) {key : String × String}
    (hkey : costKey r = some key) {e : PricingEntry}
    (hprice : catalog.lookup key.1 key.2 = some e) : recosted catalog body r = recostAt e r := by
  unfold recosted
  rw [if_pos hswept, hkey, Option.elim_some, hprice, Option.elim_some]

/-- A record is left as it is, or has a key with a price. -/
theorem recosted_cases (r : RequestLogRecord κ) :
    recosted catalog body r = r ∨ ∃ key e, swept body.fromTs body.toTs r = true ∧
      costKey r = some key ∧ catalog.lookup key.1 key.2 = some e := by
  by_cases hswept : swept body.fromTs body.toTs r = true
  · cases hkey : costKey r with
    | none =>
      left
      unfold recosted
      rw [if_pos hswept, hkey, Option.elim_none]
    | some key =>
      cases hprice : catalog.lookup key.1 key.2 with
      | none =>
        left
        unfold recosted
        rw [if_pos hswept, hkey, Option.elim_some, hprice, Option.elim_none]
      | some e => exact Or.inr ⟨key, e, hswept, rfl, hprice⟩
  · exact Or.inl (if_neg hswept)

theorem recosted_costKey (r : RequestLogRecord κ) :
    costKey (recosted catalog body r) = costKey r := by
  rcases recosted_cases catalog body r with h | ⟨key, e, hswept, hkey, hprice⟩
  · rw [h]
  · rw [recosted_of_price catalog body hswept hkey hprice]
    exact recost_costKey _ _ _ r

/-- The second sweep finds the same key and the same price. -/
theorem recosted_recosted (r : RequestLogRecord κ) :
    recosted catalog body (recosted catalog body r) = recosted catalog body r := by
  rcases recosted_cases catalog body r with h | ⟨key, e, hswept, hkey, hprice⟩
  · rw [h, h]
  · have hswept' : swept body.fromTs body.toTs (recostAt e r) = true := by
      unfold recostAt
      rw [recost_swept, hswept]
    have hkey' : costKey (recostAt e r) = some key := by
      unfold recostAt
      rw [recost_costKey, hkey]
    rw [recosted_of_price catalog body hswept hkey hprice,
      recosted_of_price catalog body hswept' hkey' hprice]
    exact recost_recost _ _ _ r

theorem recostedIn_cons (key : String × String) (keys : List (String × String))
    (r : RequestLogRecord κ) : recostedIn catalog body keys (recostedIn catalog body [key] r) =
      recostedIn catalog body (key :: keys) r := by
  have hkey : costKey (recostedIn catalog body [key] r) = costKey r := by
    unfold recostedIn
    split
    · exact recosted_costKey catalog body r
    · rfl
  rw [recostedIn, hkey]
  unfold recostedIn
  cases costKey r with
  | none => rfl
  | some own =>
    simp only [Option.any_some, List.contains_iff_mem, List.mem_cons, List.not_mem_nil, or_false]
    by_cases hown : own = key
    · simp only [hown, true_or, if_true]
      split
      · exact recosted_recosted catalog body r
      · rfl
    · simp only [hown, false_or, if_false]

theorem recomputeKey_records (st : List (RequestLogRecord κ) × RecomputeResponse)
    (key : String × String) :
    (recomputeKey catalog body st key).1 = st.1.map (recostedIn catalog body [key]) := by
  have hown : ∀ r : RequestLogRecord κ, (costKey r).any [key].contains = true ↔ costKey r = some key := by
    intro r
    simp only [Option.any_eq_true, List.contains_iff_mem, List.mem_singleton]
    constructor
    · rintro ⟨own, hown, rfl⟩
      exact hown
    · intro h
      exact ⟨key, h, rfl⟩
  unfold recomputeKey
  cases hprice : catalog.lookup key.1 key.2 with
  | none =>
    refine (List.map_id st.1).symm.trans (List.map_congr_left fun r _ => ?_)
    unfold recostedIn
    split
    · rename_i hr
      unfold recosted
      rw [(hown r).mp hr, Option.elim_some, hprice]
      split <;> rfl
    · rfl
  | some e =>
    refine List.map_congr_left fun r _ => ?_
    unfold recostedIn
    by_cases hr : costKey r = some key
    · rw [if_pos ((hown r).mpr hr)]
      obtain ⟨hprovider, hmodel⟩ := costKey_eq_some.mp hr
      unfold recosted
      rw [hr, Option.elim_some, hprice, Option.elim_some]
      simp only [hprovider, hmodel, decide_true, Bool.true_and]
      rfl
    · rw [if_neg (mt (hown r).mp hr)]
      have hmiss : ¬(r.resolveProvider = some key.1 ∧ r.model = some key.2) :=
        mt costKey_eq_some.mpr hr
      refine if_neg ?_
      simp only [Bool.and_eq_true, decide_eq_true_eq]
      exact fun h => hmiss h.1

theorem foldl_recomputeKey (keys : List (String × String))
    (st : List (RequestLogRecord κ) × RecomputeResponse) :
    (keys.foldl (recomputeKey catalog body) st).1 =
      st.1.map (recostedIn catalog body keys) := by
  induction keys generalizing st with
  | nil =>
    refine (List.map_id st.1).symm.trans (List.map_congr_left fun r _ => ?_)
    unfold recostedIn
    cases costKey r <;> rfl
  | cons key rest ih =>
    rw [List.foldl_cons, ih, recomputeKey_records, List.map_map]
    exact List.map_congr_left fun r _ => recostedIn_cons catalog body key rest r

/-- The sweep sets the costs of each record by itself. -/
theorem recomputeCosts_records (records : List (RequestLogRecord κ)) :
    (recomputeCosts catalog body records).1 = records.map (recosted catalog body) := by
  unfold recomputeCosts
  rw [foldl_recomputeKey]
  refine List.map_congr_left fun r hr => ?_
  unfold recostedIn
  split
  · rfl
  · rename_i hnot
    unfold recosted
    split
    · rename_i hswept
      cases hkey : costKey r with
      | none => rfl
      | some key =>
        refine absurd ?_ hnot
        rw [hkey, Option.any_some, List.contains_iff_mem]
        exact mem_distinctCostKeys.mpr ⟨r, hr, hswept, hkey⟩
    · rfl

end

/-! ### The record of a request -/

def TokenUsage.counted (usage : TokenUsage) : Bool :=
  usage.prompt.isSome || usage.completion.isSome

/-- The usage that the task finds in a stream which ended. -/
def streamUsage (env : ProxyEnv) (items : List (Except String Bytes)) : TokenUsage :=
  extractTokenUsage env.fromSlice ((upstreamChunks items).flatten.take maxLogBodyBytes)

/-- What the sweep reads of a record, and the costs that it has. -/
structure CostFields (r : RequestLogRecord) (provider : String) (model : Option String)
    (usage : TokenUsage) (cached : Bool) (ts : Int) (cost wouldHave : Option ℚ) : Prop where
  key : costKey r = model.map fun m => (provider, m)
  prompt : r.promptTokens = usage.prompt
  completion : r.completionTokens = usage.completion
  cachedTokens : r.cachedTokens = usage.cached
  cached : r.cached = cached
  requestTs : r.requestTs = ts
  cost : r.costUsd = cost
  wouldHave : r.wouldHaveCostUsd = wouldHave

/-- The exits behind which a record has counts. -/
def ProxyExit.Counts : ProxyExit → Prop
  | .cacheHit _ => True
  | .streamed _ items => upstreamError items = none
  | _ => False

/-- A record without counts, of a cache hit, or of a stream that ended. -/
inductive Recorded (c : ProxyCall) (l : LogEnv) (r : RequestLogRecord) : Prop
  | uncounted (prompt : r.promptTokens = none) (completion : r.completionTokens = none)
    (exit : c.admitted = true → ¬(proxyExit c.env c.req).Counts)
  | hit (route : RouteConfig) (cached : CachedResponse) (admitted : c.admitted = true)
    (found : findRoute c.env.routes c.req.ns (extractModel c.req.requestJson) = some route)
    (exit : proxyExit c.env c.req = .cacheHit cached)
    (fields : CostFields r (cached.servedBy.getD c.req.ns) (extractModel c.req.requestJson)
      (hitUsage c.env.fromSlice cached) true l.requestTs (some 0)
      ((extractModel c.req.requestJson).bind fun model =>
        l.cost (cached.servedBy.getD route.primary.provider) model
          (hitUsage c.env.fromSlice cached).forPricing))
  | ended (ctx : StreamContext) (items : List (Except String Bytes)) (admitted : c.admitted = true)
    (exit : proxyExit c.env c.req = .streamed ctx items) (complete : upstreamError items = none)
    (cost : Option ℚ)
    (priced : cost = if isSuccess ctx.status then ctx.model.bind fun model =>
      l.cost ctx.upstreamProvider model (streamUsage c.env items).forPricing else none)
    (fields : CostFields r ctx.upstreamProvider ctx.model (streamUsage c.env items) false
      l.requestTs cost cost)

/-- What the end of a stream leaves alone. -/
def chainPart (r : RequestLogRecord) : Option (String × String) × Bool × Int :=
  (costKey r, r.cached, r.requestTs)

section
variable (log : LogBuilder)

@[simp] theorem setId_chainPart (id : String) :
    chainPart (log.setId id).record = chainPart log.record := rfl

@[simp] theorem setStatus_chainPart (status : String) (httpStatus : Option Int) :
    chainPart (log.setStatus status httpStatus).record = chainPart log.record := rfl

@[simp] theorem setTiming_chainPart (durationMs upstreamMs ttfbMs : Int) :
    chainPart (log.setTiming durationMs upstreamMs ttfbMs).record = chainPart log.record := rfl

@[simp] theorem setTokenUsage_chainPart (usage : TokenUsage) :
    chainPart (log.setTokenUsage usage).record = chainPart log.record := rfl

@[simp] theorem setCost_chainPart (costUsd wouldHaveCostUsd : Option ℚ) :
    chainPart (log.setCost costUsd wouldHaveCostUsd).record = chainPart log.record := rfl

@[simp] theorem setResponseBody_chainPart (body : Option String) :
    chainPart (log.setResponseBody body).record = chainPart log.record := rfl

@[simp] theorem adoptId_chainPart (c : ProxyCall) (capture : Bytes) :
    chainPart (log.adoptId c capture).record = chainPart log.record := by
  unfold LogBuilder.adoptId
  cases extractResponseId c.env.fromSlice capture with
  | none => rfl
  | some rid => exact setId_chainPart log rid

end

section
variable {c : ProxyCall} {l : LogEnv}

theorem adoptId_record (c : ProxyCall) (log : LogBuilder) (capture : Bytes) :
    ∃ id, (log.adoptId c capture).record = { log.record with id } := by
  unfold LogBuilder.adoptId
  cases extractResponseId c.env.fromSlice capture with
  | none => exact ⟨log.record.id, rfl⟩
  | some rid => exact ⟨rid, rfl⟩

/-- The log of a chain leads the sweep to where the chain ended. -/
theorem chainLog_provider (route : RouteConfig) :
    let result := executeChain c.env.forward (forwardTemplate c.req) (chainOfRoute route)
    ((startLog c l).chainLog result).record.resolveProvider =
      some (result.fallbackUsed.getD route.primary.provider) := by
  intro result
  have hshape := executeChain_chainShape c.env.forward (forwardTemplate c.req) (chainOfRoute route)
  have hprovider := ChainShape.provider _ _ hshape
  change result.fallbackUsed.or (result.attempts.getLast?.map AttemptTrace.provider) =
    some (result.fallbackUsed.getD route.primary.provider) at hprovider
  have hlog : ((startLog c l).chainLog result).record.resolveProvider =
      (result.fallbackUsed.or (result.attempts.getLast?.map AttemptTrace.provider)).or
        (some c.req.ns) := by
    unfold LogBuilder.chainLog
    cases result.fallbackUsed with
    | some fb => rfl
    | none =>
      show ((((some ((result.attempts.map attemptValue))).bind List.getLast?).bind fun x =>
        x.get "provider").bind Value.asStr).or (some c.req.ns) = _
      rw [Option.bind_some, List.getLast?_map]
      cases result.attempts.getLast? with
      | none => rfl
      | some a => rfl
  rw [hlog, hprovider]
  rfl

theorem hitRecord_fields {route : RouteConfig} {cached : CachedResponse} {r : RequestLogRecord}
    (h : hitRecord c l (startLog c l) route cached = some r) :
    CostFields r (cached.servedBy.getD c.req.ns) (extractModel c.req.requestJson)
      (hitUsage c.env.fromSlice cached) true l.requestTs (some 0)
      ((extractModel c.req.requestJson).bind fun model =>
        l.cost (cached.servedBy.getD route.primary.provider) model
          (hitUsage c.env.fromSlice cached).forPricing) := by
  obtain ⟨preview, -, rfl⟩ := Option.map_eq_some_iff.mp h
  cases cached.servedBy with
  | none => exact ⟨rfl, rfl, rfl, rfl, rfl, rfl, rfl, rfl⟩
  | some provider => exact ⟨rfl, rfl, rfl, rfl, rfl, rfl, rfl, rfl⟩

/-- The record of a stream that ended, in front of which `log` was written. -/
theorem endedRecord_fields {log : LogBuilder} {provider : String} {ctx : StreamContext}
    (hprovider : log.record.resolveProvider = some provider)
    (hmodel : log.record.model = ctx.model) (hcached : log.record.cached = false)
    (hts : log.record.requestTs = l.requestTs) (capture : Bytes) (statusClass : String)
    (httpStatus : Option Int) (ms ms' ms'' : Int) (usage : TokenUsage) (cost : Option ℚ)
    (responseBody : Option String) :
    CostFields ((((((log.adoptId c capture).setStatus statusClass httpStatus).setTiming ms ms'
      ms'').setTokenUsage usage).setCost cost cost).setResponseBody responseBody).record
      provider ctx.model usage false l.requestTs cost cost := by
  have hpart : chainPart ((((((log.adoptId c capture).setStatus statusClass httpStatus).setTiming ms
      ms' ms'').setTokenUsage usage).setCost cost cost).setResponseBody responseBody).record =
      chainPart log.record := by
    simp
  have hkey : costKey log.record = ctx.model.map fun m => (provider, m) := by
    unfold costKey
    rw [hprovider, Option.bind_some, hmodel]
  exact ⟨(congrArg Prod.fst hpart).trans hkey, rfl, rfl, rfl,
    (congrArg (fun p => p.2.1) hpart).trans hcached, (congrArg (fun p => p.2.2) hpart).trans hts,
    rfl, rfl⟩

/-- A stream is priced if it is a success of a known model, by the usage of its end. -/
theorem finishStream_cost (fromSlice : Bytes → Option Value) (ctx : StreamContext) (nowMs : Int)
    (capture : Capture) (price : String → PricingUsage → Option ℚ) :
    ((finishStream fromSlice ctx nowMs capture).priced.bind fun usage =>
        ctx.model.bind fun model => price model usage) =
      if isSuccess ctx.status then ctx.model.bind fun model =>
        price model (finishStream fromSlice ctx nowMs capture).usage.forPricing
      else none := by
  unfold finishStream
  simp only
  cases isSuccess ctx.status with
  | false => rfl
  | true =>
    cases ctx.model with
    | none => rfl
    | some model => rfl

theorem taskRecords_recorded {log : LogBuilder} {ctx : StreamContext} {response : ForwardResponse}
    (hprovider : log.record.resolveProvider = some ctx.upstreamProvider)
    (hmodel : log.record.model = ctx.model) (hcached : log.record.cached = false)
    (hts : log.record.requestTs = l.requestTs)
    (hcounts : log.record.promptTokens = none ∧ log.record.completionTokens = none)
    {r : RequestLogRecord} (hr : r ∈ taskRecords c l log ctx response) :
    (upstreamError response.body ≠ none ∧ r.promptTokens = none ∧ r.completionTokens = none) ∨
      (upstreamError response.body = none ∧ ∃ cost,
        (cost = if isSuccess ctx.status then ctx.model.bind fun model =>
          l.cost ctx.upstreamProvider model (streamUsage c.env response.body).forPricing
          else none) ∧
        CostFields r ctx.upstreamProvider ctx.model (streamUsage c.env response.body) false
          l.requestTs cost cost) := by
  have hcapture := (captureLoop_front ctx.cacheShouldWrite c.env.clientOpen response.body).front
  have herror := captureLoop_error ctx.cacheShouldWrite c.env.clientOpen 0 response.body .start
  unfold taskRecords at hr
  rcases hloop : captureLoop ctx.cacheShouldWrite c.env.clientOpen 0 response.body .start with
    ⟨capture, error⟩
  rw [hloop] at hr hcapture herror
  simp only at hcapture herror
  cases error with
  | some e =>
    left
    rw [List.mem_singleton] at hr
    obtain ⟨id, hid⟩ := adoptId_record c log capture.responseCapture
    refine ⟨by rw [← herror]; nofun, ?_, ?_⟩
    · rw [hr]
      show (log.adoptId c capture.responseCapture).record.promptTokens = none
      rw [hid]
      exact hcounts.1
    · rw [hr]
      show (log.adoptId c capture.responseCapture).record.completionTokens = none
      rw [hid]
      exact hcounts.2
  | none =>
    right
    have husage : (finishStream c.env.fromSlice ctx c.env.finishedAtMs capture).usage =
        streamUsage c.env response.body := by
      show extractTokenUsage c.env.fromSlice capture.responseCapture = _
      rw [hcapture]
      rfl
    have hcost := finishStream_cost c.env.fromSlice ctx c.env.finishedAtMs capture
      (l.cost ctx.upstreamProvider)
    rw [husage] at hcost
    have hfields := fun statusClass responseBody => endedRecord_fields (c := c)
      hprovider hmodel hcached hts capture.responseCapture statusClass (some response.status.toNat)
      l.durationMs response.upstreamMs response.ttfbMs
      (finishStream c.env.fromSlice ctx c.env.finishedAtMs capture).usage
      ((finishStream c.env.fromSlice ctx c.env.finishedAtMs capture).priced.bind
        fun usage => log.record.model.bind fun model => l.cost ctx.upstreamProvider model usage)
      responseBody
    rw [hmodel] at hr hfields
    refine ⟨herror.symm, _, hcost, ?_⟩
    rw [← husage]
    simp only at hr
    split at hr
    · split at hr
      · rw [List.mem_singleton.mp hr]
        exact hfields _ _
      · cases hr
    · rw [List.mem_singleton.mp hr]
      exact hfields _ _

theorem proxyRouted_recorded (hadmitted : c.admitted = true) {r : RequestLogRecord}
    (hr : r ∈ (proxyRouted c l (startLog c l)).2.records) : Recorded c l r := by
  have hexit := proxyRouted_exit c l (startLog c l)
  unfold proxyRouted at hr hexit
  cases hroute : findRoute c.env.routes c.req.ns (extractModel c.req.requestJson) with
  | none =>
    simp only [hroute] at hr hexit
    rw [List.mem_singleton.mp hr]
    exact .uncounted rfl rfl fun _ => by rw [← hexit]; exact id
  | some route =>
    simp only [hroute] at hr hexit
    revert hr hexit
    generalize cacheLookup c.env (cachePolicy route.cache c.req) _ _ = lookup
    obtain ⟨status, found⟩ := lookup
    cases found with
    | some cached =>
      simp only
      cases hhit : hitRecord c l (startLog c l) route cached with
      | none =>
        intro hr
        cases hr
      | some record =>
        intro hr hexit
        rw [List.mem_singleton.mp hr]
        exact .hit route cached hadmitted hroute hexit.symm (hitRecord_fields hhit)
    | none =>
      by_cases honly :
          (cachePolicy route.cache c.req).map CachePolicy.directive = some .onlyIfCached
      · simp only [if_pos honly]
        intro hr hexit
        rw [List.mem_singleton.mp hr]
        exact .uncounted rfl rfl fun _ => by rw [← hexit]; exact id
      · simp only [if_neg honly]
        have hprovider := chainLog_provider (c := c) (l := l) route
        have hlog : ∀ result : ChainResult,
            ((startLog c l).chainLog result).record.model = extractModel c.req.requestJson ∧
              ((startLog c l).chainLog result).record.cached = false ∧
              ((startLog c l).chainLog result).record.requestTs = l.requestTs ∧
              ((startLog c l).chainLog result).record.promptTokens = none ∧
              ((startLog c l).chainLog result).record.completionTokens = none := by
          intro result
          unfold LogBuilder.chainLog
          cases result.fallbackUsed with
          | none => exact ⟨rfl, rfl, rfl, rfl, rfl⟩
          | some fb => exact ⟨rfl, rfl, rfl, rfl, rfl⟩
        generalize executeChain c.env.forward (forwardTemplate c.req) (chainOfRoute route) =
          result at hprovider
        obtain ⟨hmodel, hcached, hts, hprompt, hcompletion⟩ := hlog result
        cases result.response with
        | error e =>
          simp only
          intro hr hexit
          rw [List.mem_singleton.mp hr]
          exact .uncounted hprompt hcompletion fun _ => by rw [← hexit]; exact id
        | ok response =>
          simp only
          intro hr hexit
          have htask := @taskRecords_recorded c l _
            (streamContext c.env c.req route status result.fallbackUsed response) response hprovider
            hmodel hcached hts ⟨hprompt, hcompletion⟩ r hr
          rcases htask with ⟨herror, hp, hc⟩ | ⟨hcomplete, cost, hcost, hfields⟩
          · exact .uncounted hp hc fun _ => by rw [← hexit]; exact herror
          · exact .ended _ _ hadmitted hexit.symm hcomplete cost hcost hfields

theorem proxyHandler_recorded {r : RequestLogRecord} (hr : r ∈ (proxyHandler c l).records) :
    Recorded c l r := by
  have hlogged : r ∈ (proxyLogged c l).records := hr
  unfold proxyLogged at hlogged
  cases hbody : c.readBody with
  | error e =>
    simp only [hbody] at hlogged
    cases hlogged
  | ok _ =>
    simp only [hbody] at hlogged
    cases hblocked : c.budgetBlocked with
    | true =>
      simp only [hblocked, if_true] at hlogged
      rw [List.mem_singleton.mp hlogged]
      refine .uncounted rfl rfl fun hadmitted => ?_
      simp [ProxyCall.admitted, hblocked] at hadmitted
    | false =>
      simp only [hblocked, Bool.false_eq_true, if_false] at hlogged
      cases hlimits : c.checkLimits.1 with
      | error e =>
        simp only [hlimits] at hlogged
        rw [List.mem_singleton.mp hlogged]
        refine .uncounted rfl rfl fun hadmitted => ?_
        simp [ProxyCall.admitted, hlimits, Except.isOk, Except.toBool] at hadmitted
      | ok permit =>
        simp only [hlimits] at hlogged
        refine proxyRouted_recorded ?_ hlogged
        simp [ProxyCall.admitted, hbody, hblocked, hlimits, Except.isOk, Except.toBool]

end

/-! ### Both prices of a record -/

def costColumns (r : RequestLogRecord) : Option ℚ × Option ℚ := (r.costUsd, r.wouldHaveCostUsd)

def priceOf (e : PricingEntry) (usage : PricingUsage) : ℚ :=
  (applyPrice e usage.prompt usage.completion usage.cached).costUsd

/-- `compute_cost`, as a handler or a task calls it while `catalog` is live. -/
def liveCost (catalog : PricingCatalog) (provider model : String) (usage : PricingUsage) :
    Option ℚ :=
  (computeCost catalog provider model usage.prompt usage.completion usage.cached).map
    CostBreakdown.costUsd

def RecomputeBody.covers (body : RecomputeBody) (ts : Int) : Bool :=
  body.fromTs.all (· ≤ ts) && body.toTs.all (ts ≤ ·)

section
variable {catalog : PricingCatalog} {body : RecomputeBody} {r : RequestLogRecord}

theorem liveCost_of_price {provider model : String} {e : PricingEntry}
    (h : catalog.lookup provider model = some e) (usage : PricingUsage) :
    liveCost catalog provider model usage = some (priceOf e usage) := by
  unfold liveCost computeCost
  rw [h]
  rfl

theorem CostFields.swept_eq {provider : String} {model : Option String} {usage : TokenUsage}
    {cached : Bool} {ts : Int} {cost wouldHave : Option ℚ}
    (h : CostFields r provider model usage cached ts cost wouldHave) :
    swept body.fromTs body.toTs r = (usage.counted && body.covers ts) := by
  unfold swept TokenUsage.counted RecomputeBody.covers
  rw [h.prompt, h.completion, h.requestTs, Bool.and_assoc]

theorem CostFields.recostAt_costs {provider : String} {model : Option String} {usage : TokenUsage}
    {cached : Bool} {ts : Int} {cost wouldHave : Option ℚ}
    (h : CostFields r provider model usage cached ts cost wouldHave) (e : PricingEntry) :
    costColumns (recostAt e r) = (some (if cached then 0 else priceOf e usage.forPricing),
      some (priceOf e usage.forPricing)) := by
  unfold recostAt recost costColumns
  simp only [h.prompt, h.completion, h.cachedTokens, h.cached]
  rfl

/-- The sweep leaves the costs when they are those of the price that it finds. -/
theorem CostFields.costs_iff {provider : String} {model : Option String} {usage : TokenUsage}
    {cached : Bool} {ts : Int} {cost wouldHave : Option ℚ}
    (h : CostFields r provider model usage cached ts cost wouldHave) :
    costColumns (recosted catalog body r) = costColumns r ↔
      ∀ m e, body.covers ts = true → usage.counted = true → model = some m →
        catalog.lookup provider m = some e →
          cost = some (if cached then 0 else priceOf e usage.forPricing) ∧
            wouldHave = some (priceOf e usage.forPricing) := by
  have hcosts : costColumns r = (cost, wouldHave) := by
    unfold costColumns
    rw [h.cost, h.wouldHave]
  rw [hcosts]
  constructor
  · intro hsame m e hcovers hcounted hm he
    have hswept : swept body.fromTs body.toTs r = true := by
      rw [h.swept_eq, hcounted, hcovers]
      rfl
    have hkey : costKey r = some (provider, m) := by
      rw [h.key, hm]
      rfl
    rw [recosted_of_price catalog body hswept hkey he, h.recostAt_costs e] at hsame
    exact ⟨(congrArg Prod.fst hsame).symm, (congrArg Prod.snd hsame).symm⟩
  · intro hprice
    rcases recosted_cases catalog body r with hr | ⟨key, e, hswept, hkey, he⟩
    · rw [hr, hcosts]
    · rw [recosted_of_price catalog body hswept hkey he, h.recostAt_costs e]
      rw [h.swept_eq, Bool.and_eq_true] at hswept
      rw [h.key] at hkey
      obtain ⟨m, hm, rfl⟩ := Option.map_eq_some_iff.mp hkey
      obtain ⟨hcost, hwould⟩ := hprice m e hswept.2 hswept.1 hm he
      rw [hcost, hwould]

end

/-! ### Requests that a sweep reprices -/

section
variable (catalog : PricingCatalog)

/-- A complete answer that is no success, with counts, and a price for them. -/
def StreamDrifts (env : ProxyEnv) (ctx : StreamContext) (items : List (Except String Bytes)) :
    Prop :=
  upstreamError items = none ∧ isSuccess ctx.status = false ∧
    (streamUsage env items).counted = true ∧
      ∃ model e, ctx.model = some model ∧ catalog.lookup ctx.upstreamProvider model = some e

/-- A blob that does not say who served it, and another price for the namespace than for the
primary provider. -/
def HitDrifts (env : ProxyEnv) (req : ProxyRequest) (cached : CachedResponse) : Prop :=
  cached.servedBy = none ∧ (hitUsage env.fromSlice cached).counted = true ∧
    ∃ route model e, findRoute env.routes req.ns (extractModel req.requestJson) = some route ∧
      extractModel req.requestJson = some model ∧ catalog.lookup req.ns model = some e ∧
        liveCost catalog route.primary.provider model (hitUsage env.fromSlice cached).forPricing ≠
          some (priceOf e (hitUsage env.fromSlice cached).forPricing)

def Drifts (body : RecomputeBody) (c : ProxyCall) (l : LogEnv) : Prop :=
  c.admitted = true ∧ body.covers l.requestTs = true ∧
    ((∃ ctx items, proxyExit c.env c.req = .streamed ctx items ∧
        StreamDrifts catalog c.env ctx items) ∨
      ∃ cached, proxyExit c.env c.req = .cacheHit cached ∧ HitDrifts catalog c.env c.req cached)

theorem Drifts.counts {body : RecomputeBody} {c : ProxyCall} {l : LogEnv}
    (h : Drifts catalog body c l) : c.admitted = true ∧ (proxyExit c.env c.req).Counts := by
  obtain ⟨hadmitted, -, ⟨ctx, items, hexit, hdrifts⟩ | ⟨cached, hexit, -⟩⟩ := h
  · rw [hexit]
    exact ⟨hadmitted, hdrifts.1⟩
  · rw [hexit]
    exact ⟨hadmitted, trivial⟩

/-- A cache hit drifts by its blob. -/
theorem drifts_hit {body : RecomputeBody} {c : ProxyCall} {l : LogEnv} {cached : CachedResponse}
    (hadmitted : c.admitted = true) (hexit : proxyExit c.env c.req = .cacheHit cached) :
    Drifts catalog body c l ↔
      body.covers l.requestTs = true ∧ HitDrifts catalog c.env c.req cached := by
  constructor
  · rintro ⟨-, hcovers, ⟨ctx, items, hexit', -⟩ | ⟨cached', hexit', hdrifts⟩⟩
    · rw [hexit] at hexit'
      cases hexit'
    · rw [hexit] at hexit'
      cases hexit'
      exact ⟨hcovers, hdrifts⟩
  · rintro ⟨hcovers, hdrifts⟩
    exact ⟨hadmitted, hcovers, Or.inr ⟨cached, hexit, hdrifts⟩⟩

/-- A stream drifts by its answer. -/
theorem drifts_streamed {body : RecomputeBody} {c : ProxyCall} {l : LogEnv} {ctx : StreamContext}
    {items : List (Except String Bytes)} (hadmitted : c.admitted = true)
    (hexit : proxyExit c.env c.req = .streamed ctx items) :
    Drifts catalog body c l ↔
      body.covers l.requestTs = true ∧ StreamDrifts catalog c.env ctx items := by
  constructor
  · rintro ⟨-, hcovers, ⟨ctx', items', hexit', hdrifts⟩ | ⟨cached, hexit', -⟩⟩
    · rw [hexit] at hexit'
      cases hexit'
      exact ⟨hcovers, hdrifts⟩
    · rw [hexit] at hexit'
      cases hexit'
  · rintro ⟨hcovers, hdrifts⟩
    exact ⟨hadmitted, hcovers, Or.inl ⟨ctx, items, hexit, hdrifts⟩⟩

theorem recorded_costs_iff {body : RecomputeBody} {c : ProxyCall} {l : LogEnv}
    {r : RequestLogRecord} (hlive : l.cost = liveCost catalog) (h : Recorded c l r) :
    costColumns (recosted catalog body r) = costColumns r ↔ ¬Drifts catalog body c l := by
  cases h with
  | uncounted hprompt hcompletion hexit =>
    refine iff_of_true ?_ fun hdrifts => hexit hdrifts.counts.1 hdrifts.counts.2
    have hswept : ¬swept body.fromTs body.toTs r = true := by
      unfold swept
      rw [hprompt, hcompletion]
      simp
    unfold recosted
    rw [if_neg hswept]
  | hit route cached hadmitted hfound hexit hfields =>
    rw [hfields.costs_iff, hlive, drifts_hit catalog hadmitted hexit]
    constructor
    · rintro hprice ⟨hcovers, hserved, hcounted, route', model, e, hfound', hmodel, he, hne⟩
      rw [hfound] at hfound'
      cases hfound'
      have hsame := (hprice model e hcovers hcounted hmodel (by rw [hserved]; exact he)).2
      rw [hserved, hmodel, Option.bind_some] at hsame
      exact hne hsame
    · intro hnot m e hcovers hcounted hmodel he
      refine ⟨rfl, ?_⟩
      rw [hmodel, Option.bind_some]
      cases hserved : cached.servedBy with
      | some provider =>
        rw [hserved] at he
        exact liveCost_of_price he _
      | none =>
        rw [hserved] at he
        by_contra hne
        exact hnot ⟨hcovers, hserved, hcounted, route, m, e, hfound, hmodel, he, hne⟩
  | ended ctx items hadmitted hexit hcomplete cost hpriced hfields =>
    rw [hfields.costs_iff, drifts_streamed catalog hadmitted hexit]
    rw [hlive] at hpriced
    cases hstatus : isSuccess ctx.status with
    | true =>
      -- both prices are those of the provider that answered
      refine iff_of_true (fun m e _ _ hm he => ?_) ?_
      · have hcost : cost = some (priceOf e (streamUsage c.env items).forPricing) := by
          rw [hpriced, hstatus, if_pos rfl, hm, Option.bind_some]
          exact liveCost_of_price he _
        exact ⟨hcost, hcost⟩
      · rintro ⟨-, -, hrejected, -⟩
        rw [hstatus] at hrejected
        cases hrejected
    | false =>
      rw [hstatus] at hpriced
      constructor
      · rintro hprice ⟨hcovers, -, -, hcounted, model, e, hmodel, he⟩
        have hsome := (hprice model e hcovers hcounted hmodel he).1
        rw [hpriced] at hsome
        cases hsome
      · intro hnot m e hcovers hcounted hm he
        exact absurd ⟨hcovers, hcomplete, hstatus, hcounted, m, e, hm, he⟩ hnot

/-! ### Runs -/

/-- A record that a request submitted while `catalog` was live. -/
structure Submission where
  call : ProxyCall
  env : LogEnv
  record : RequestLogRecord
  submitted : record ∈ (proxyHandler call env).records
  live : env.cost = liveCost catalog

end

/-- The store after a run. -/
def loggedBy {catalog : PricingCatalog} (run : List (Submission catalog)) :
    List RequestLogRecord :=
  (run.map Submission.record).foldl append []

/-- The submissions of a run whose records the store still has. -/
def retained {catalog : PricingCatalog} (run : List (Submission catalog)) :
    List (Submission catalog) :=
  run.foldl append []

/-- A sweep with the catalog of the run leaves every cost in the store exactly when none of the
requests whose records are there is one that it reprices. -/
theorem recompute_unchanged_iff (catalog : PricingCatalog) (body : RecomputeBody)
    (run : List (Submission catalog)) :
    (recomputeCosts catalog body (loggedBy run)).1.map costColumns = (loggedBy run).map costColumns ↔
      ∀ s ∈ retained run, ¬Drifts catalog body s.call s.env := by
  have hstore : loggedBy run = (retained run).map Submission.record :=
    foldl_append_map Submission.record run []
  rw [hstore, recomputeCosts_records, List.map_map, List.map_map, List.map_map, List.map_inj_left]
  refine forall₂_congr fun s _ => ?_
  exact recorded_costs_iff catalog s.live (proxyHandler_recorded s.submitted)

def halfDollarCatalog : PricingCatalog :=
  .fromModels [⟨"openai", "gpt-4o", F64.ofRatio false 1 2, F64.ofRatio false 1 2, none⟩]

def rejectedBody : Bytes := asBytes "\x7b\"usage\":\x7b\"prompt_tokens\":1000\x7d\x7d"

/-- The upstream answers 400, with the tokens that it counted. -/
def rejectedCall : ProxyCall where
  env :=
    { limits := []
      routes := [{ cachingRoute with cache := ⟨false, 0, false⟩ }]
      kvGet _ := .ok none
      decodeCached _ := .error "no codec"
      forward n _ := (.ok ⟨400, [], 1, 1, [.ok rejectedBody]⟩, n)
      clientOpen _ := true
      finishedAtMs := 0
      blake3Hex := sampleHash
      numText := sampleNumber
      fromSlice bytes :=
        if bytes = rejectedBody then
          some (.object [("usage", .object [("prompt_tokens", .number (.posInt 1000))])])
        else none }
  req := sampleRequest "POST" "/chat/completions" [] inputModel
  keyId := "k1"
  projectId := "p1"
  readBody := .ok ()
  budgetBlocked := false
  clock _ := 0
  store := .new

def rejectedLog : LogEnv where
  requestId := ⟨"01997d40-22c4-7b03-8d17-94ae6b20f5c8", by decide⟩
  requestTs := 0
  durationMs := 0
  forwardMs := 0
  nowMs := 0
  requestBodyForLog := none
  remoteIp := "127.0.0.1"
  errorText _ := ""
  cost := liveCost halfDollarCatalog
  putReturns _ := true

theorem rejected_recorded : (proxyHandler rejectedCall rejectedLog).records ≠ [] := by
  intro h
  have hlen := congrArg List.length h
  revert hlen
  decide +kernel

def rejectedSubmission : Submission halfDollarCatalog where
  call := rejectedCall
  env := rejectedLog
  record := (proxyHandler rejectedCall rejectedLog).records.head rejected_recorded
  submitted := List.head_mem rejected_recorded
  live := rfl

/-- The answer was free when it was logged, and costs half a dollar after the sweep. -/
theorem recompute_charges_rejected :
    (loggedBy [rejectedSubmission]).map costColumns = [(none, none)] ∧
      (recomputeCosts halfDollarCatalog ⟨none, none⟩ (loggedBy [rejectedSubmission])).1.map
        costColumns = [(some (1 / 2), some (1 / 2))] := by
  constructor
  · decide +kernel
  · decide +kernel

end AiGateway.Api
