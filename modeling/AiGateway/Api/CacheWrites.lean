import AiGateway.Api.Proxy
import AiGateway.Library.Runs

/-!
# What a request does to the cache (`gateway-api/src/routes/proxy.rs:109-220,280-289,350-449`)

The calls of `kv.get`, of the provider chain and of `kv.put` that one request makes,
in their order, and what they are in any interleaving of any number of requests.
`kv.get` may answer anything, so nothing is assumed about the other requests or about
the store. A stream may break off at any item, and the client may be gone for any send.
Encoding a payload is taken to succeed.
-/

namespace AiGateway.Api
open AiGateway.Core AiGateway.Storage AiGateway.Library.Runs

inductive CacheEvent where
  | get (key : String)
  | forward
  | put (key : String) (payload : CachedResponse) (ttl : UInt64)

/-- The `kv.get` of the lookup. -/
def lookupEvents (policy : Option CachePolicy) (bodyIsCacheable : Bool) (key : Option String) :
    List CacheEvent :=
  match policy with
  | none => []
  | some p =>
    if !bodyIsCacheable then []
    else
      match p.directive, key with
      | .bypass, _ => []
      | .refresh, _ => []
      | _, none => []
      | _, some key => [.get key]

/-- The `kv.put` of the task behind a stream. -/
def taskEvents (env : ProxyEnv) (ctx : StreamContext) (items : List (Except String Bytes)) :
    List CacheEvent :=
  match (streamTask env.fromSlice ctx env.clientOpen env.finishedAtMs items).bind
      StreamEnd.cacheWrite with
  | some (key, payload, ttl) => [.put key payload ttl]
  | none => []

/-- The context of the task: `status` is the outcome of the lookup. -/
def streamContext (env : ProxyEnv) (req : ProxyRequest) (route : RouteConfig)
    (status : CacheStatus) (fallbackUsed : Option String) (response : ForwardResponse) :
    StreamContext :=
  let policy := cachePolicy route.cache req
  { status := response.status
    headersOut := response.headers
    upstreamProvider := fallbackUsed.getD route.primary.provider
    model := extractModel req.requestJson
    cacheShouldWrite :=
      (status = .miss || status = .refresh) && isSuccess response.status &&
        bodyIsCacheableShape policy req && policy.isSome
    cacheTtl := policy.map CachePolicy.ttl
    cacheKey := cacheKey env.blake3Hex env.numText route.cache req }

/-- `proxyExit` with the calls made on the way. -/
def proxyEvents (env : ProxyEnv) (req : ProxyRequest) : ProxyExit × List CacheEvent :=
  match findRoute env.routes req.ns (extractModel req.requestJson) with
  | none => (.noRoute, [])
  | some route =>
    let policy := cachePolicy route.cache req
    let shape := bodyIsCacheableShape policy req
    let key := cacheKey env.blake3Hex env.numText route.cache req
    let lookup := cacheLookup env policy shape key
    let gets := lookupEvents policy shape key
    match lookup.2 with
    | some cached => (.cacheHit cached, gets)
    | none =>
      if policy.map CachePolicy.directive = some .onlyIfCached then (.onlyIfCachedMiss, gets)
      else
        let result := executeChain env.forward (forwardTemplate req) (chainOfRoute route)
        match result.response with
        | .error e => (.chainError e, gets ++ [.forward])
        | .ok response =>
          let ctx := streamContext env req route lookup.1 result.fallbackUsed response
          (.streamed ctx response.body, gets ++ .forward :: taskEvents env ctx response.body)

theorem proxyEvents_exit (env : ProxyEnv) (req : ProxyRequest) :
    (proxyEvents env req).1 = proxyExit env req := by
  unfold proxyEvents proxyExit
  cases findRoute env.routes req.ns (extractModel req.requestJson) with
  | none => rfl
  | some route =>
    simp only
    generalize cacheLookup env (cachePolicy route.cache req) _ _ = lookup
    obtain ⟨status, found⟩ := lookup
    cases found with
    | some cached => rfl
    | none =>
      by_cases honly : (cachePolicy route.cache req).map CachePolicy.directive = some .onlyIfCached
      · simp only [if_pos honly]
      · simp only [if_neg honly]
        cases (executeChain env.forward (forwardTemplate req) (chainOfRoute route)).response with
        | error e => rfl
        | ok response => rfl

/-! ### The put -/

/-- A writable body is put as the upstream sent it, whether or not the client stayed. -/
theorem taskEvents_put (env : ProxyEnv) {ctx : StreamContext} {items : List (Except String Bytes)}
    (h : Writable ctx items) {key : String} (hkey : ctx.cacheKey = some key) {ttl : UInt64}
    (httl : ctx.cacheTtl = some ttl) :
    ∃ payload, payload.chunks = upstreamChunks items ∧ payload.status = ctx.status ∧
      taskEvents env ctx items = [.put key payload ttl] := by
  obtain ⟨hwrite, hend, hsize⟩ := h
  have herr := captureLoop_error true env.clientOpen 0 items .start
  have hover := (captureLoop_oversize env.clientOpen 0 items (c := .start) hend rfl
    (Nat.zero_le _)).mpr (by simpa [Capture.start] using hsize)
  have hchunks := (captureLoop_collected env.clientOpen 0 items .start hend).2 hover
  unfold taskEvents streamTask
  rw [hwrite]
  rcases hloop : captureLoop true env.clientOpen 0 items .start with ⟨c, e⟩
  rw [hloop] at herr hover hchunks
  simp only at herr hover hchunks
  rw [herr, hend]
  refine ⟨cachedResponse ctx env.finishedAtMs c, hchunks, rfl, ?_⟩
  simp only [Option.bind_some, finishStream, hwrite, hover, hkey, httl, Bool.not_false,
    Bool.and_self, if_true]

theorem taskEvents_none (env : ProxyEnv) {ctx : StreamContext}
    {items : List (Except String Bytes)} (h : ¬ Writable ctx items) :
    taskEvents env ctx items = [] := by
  have herr := captureLoop_error ctx.cacheShouldWrite env.clientOpen 0 items .start
  unfold taskEvents streamTask
  rcases hloop : captureLoop ctx.cacheShouldWrite env.clientOpen 0 items .start with ⟨c, e⟩
  rw [hloop] at herr
  simp only at herr
  rw [herr]
  cases hend : upstreamError items with
  | some e' => rfl
  | none =>
    have hno : (ctx.cacheShouldWrite && !c.cacheOversize) = false := by
      rw [Bool.eq_false_iff]
      intro hboth
      rw [Bool.and_eq_true, Bool.not_eq_true'] at hboth
      rw [hboth.1] at hloop
      have hsize := captureLoop_oversize env.clientOpen 0 items (c := .start) hend rfl
        (Nat.zero_le _)
      rw [hloop] at hsize
      exact h ⟨hboth.1, hend, by simpa [Capture.start] using hsize.mp hboth.2⟩
    simp only [Option.bind_some, finishStream, hno, Bool.false_eq_true, if_false]

/-! ### One request -/

/-- The store has an answer for the key that decodes. -/
def UsableEntry (env : ProxyEnv) (key : String) : Prop :=
  ∃ blob cached, env.kvGet key = .ok (some blob) ∧ env.decodeCached blob = .ok cached

def chainResponse (env : ProxyEnv) (req : ProxyRequest) (route : RouteConfig) : ForwardResult :=
  (executeChain env.forward (forwardTemplate req) (chainOfRoute route)).response

/-- The lookup of a request that has a route. -/
def routeLookup (env : ProxyEnv) (req : ProxyRequest) (route : RouteConfig) :
    CacheStatus × Option CachedResponse :=
  cacheLookup env (cachePolicy route.cache req)
    (bodyIsCacheableShape (cachePolicy route.cache req) req)
    (cacheKey env.blake3Hex env.numText route.cache req)

def routeGets (env : ProxyEnv) (req : ProxyRequest) (route : RouteConfig) : List CacheEvent :=
  lookupEvents (cachePolicy route.cache req)
    (bodyIsCacheableShape (cachePolicy route.cache req) req)
    (cacheKey env.blake3Hex env.numText route.cache req)

/-- When a request is to be written to the cache: its route, policy and body, the answer of
the cache, and the response of the upstream. -/
structure ShouldWrite (env : ProxyEnv) (req : ProxyRequest) (route : RouteConfig)
    (policy : CachePolicy) (response : ForwardResponse) : Prop where
  route_found : findRoute env.routes req.ns (extractModel req.requestJson) = some route
  enabled : route.cache.enabled = true
  policy_eq : cachePolicy route.cache req = some policy
  directive : policy.directive = .refresh ∨ policy.directive = .default ∧
    ∀ key, cacheKey env.blake3Hex env.numText route.cache req = some key → ¬ UsableEntry env key
  cacheable : policy.bodyIsCacheable req.requestJson = true
  answered : chainResponse env req route = .ok response
  success : isSuccess response.status = true
  ended : upstreamError response.body = none
  size : (upstreamChunks response.body).flatten.length ≤ maxCacheableBodyBytes

theorem ShouldWrite.route_eq {env : ProxyEnv} {req : ProxyRequest} {route route' : RouteConfig}
    {policy : CachePolicy} {response : ForwardResponse}
    (h : ShouldWrite env req route' policy response)
    (hroute : findRoute env.routes req.ns (extractModel req.requestJson) = some route) :
    route' = route :=
  Option.some.inj (h.route_found.symm.trans hroute)

theorem ShouldWrite.answer_eq {env : ProxyEnv} {req : ProxyRequest} {route route' : RouteConfig}
    {policy : CachePolicy} {response : ForwardResponse}
    (h : ShouldWrite env req route' policy response)
    (hroute : findRoute env.routes req.ns (extractModel req.requestJson) = some route) :
    chainResponse env req route = .ok response :=
  h.route_eq hroute ▸ h.answered

/-- Only a refresh or a plain request is written. -/
theorem ShouldWrite.writing_directive {env : ProxyEnv} {req : ProxyRequest} {route : RouteConfig}
    {policy policy' : CachePolicy} {response : ForwardResponse}
    (h : ShouldWrite env req route policy' response)
    (hpolicy : cachePolicy route.cache req = some policy) :
    policy.directive = .refresh ∨ policy.directive = .default := by
  have hsame : policy' = policy := Option.some.inj (h.policy_eq.symm.trans hpolicy)
  rw [← hsame]
  exact h.directive.imp_right And.left

theorem cachePolicy_enabled {config : CacheConfig} {req : ProxyRequest} {policy : CachePolicy}
    (h : cachePolicy config req = some policy) : config.enabled = true := by
  unfold cachePolicy CachePolicy.fromHeaders at h
  cases henabled : config.enabled with
  | true => rfl
  | false =>
    rw [henabled] at h
    cases h

theorem cacheKey_of_needed (env : ProxyEnv) {config : CacheConfig} {req : ProxyRequest}
    {policy : CachePolicy} (hpolicy : cachePolicy config req = some policy)
    (hbody : policy.bodyIsCacheable req.requestJson = true) (hdir : policy.directive ≠ .bypass) :
    ∃ key, cacheKey env.blake3Hex env.numText config req = some key := by
  unfold cacheKey
  rw [hpolicy]
  simp only [cacheKeyNeeded, hbody, Bool.true_and, bne_iff_ne, ne_eq, hdir, not_false_eq_true,
    if_true]
  exact ⟨_, rfl⟩

theorem cacheLookup_get (env : ProxyEnv) {policy : CachePolicy} (key : String)
    (hdir : policy.directive = .default ∨ policy.directive = .onlyIfCached) :
    (UsableEntry env key ∧ ∃ cached, cacheLookup env (some policy) true (some key) =
        (.hit, some cached)) ∨
      (¬ UsableEntry env key ∧ cacheLookup env (some policy) true (some key) = (.miss, none)) := by
  unfold cacheLookup UsableEntry
  cases hget : env.kvGet key with
  | error e =>
    right
    refine ⟨?_, ?_⟩
    · intro husable
      obtain ⟨blob, cached, h, -⟩ := husable
      cases h
    · rcases hdir with hdir | hdir <;> simp [hdir, hget]
  | ok answer =>
    cases answer with
    | none =>
      right
      refine ⟨?_, ?_⟩
      · intro husable
        obtain ⟨blob, cached, h, -⟩ := husable
        cases h
      · rcases hdir with hdir | hdir <;> simp [hdir, hget]
    | some blob =>
      cases hdecode : env.decodeCached blob with
      | error e =>
        right
        refine ⟨?_, ?_⟩
        · intro husable
          obtain ⟨blob', cached, h, hcached⟩ := husable
          cases h
          rw [hdecode] at hcached
          cases hcached
        · rcases hdir with hdir | hdir <;> simp [hdir, hget, hdecode]
      | ok cached =>
        left
        refine ⟨⟨blob, cached, rfl, hdecode⟩, cached, ?_⟩
        rcases hdir with hdir | hdir <;> simp [hdir, hget, hdecode]

/-- A request that goes to the upstream. -/
theorem proxyEvents_forward {env : ProxyEnv} {req : ProxyRequest} {route : RouteConfig}
    (hroute : findRoute env.routes req.ns (extractModel req.requestJson) = some route)
    {status : CacheStatus}
    (hlookup : routeLookup env req route = (status, none))
    (hdir : (cachePolicy route.cache req).map CachePolicy.directive ≠ some .onlyIfCached) :
    (proxyEvents env req).2 = routeGets env req route ++
      match chainResponse env req route with
      | .error _ => [.forward]
      | .ok response => .forward :: taskEvents env (streamContext env req route status
          (executeChain env.forward (forwardTemplate req) (chainOfRoute route)).fallbackUsed
          response) response.body := by
  unfold routeLookup at hlookup
  unfold proxyEvents chainResponse routeGets
  simp only [hroute, hlookup, if_neg hdir]
  cases (executeChain env.forward (forwardTemplate req) (chainOfRoute route)).response with
  | error e => rfl
  | ok response => rfl

/-- A request that ends at the lookup. -/
theorem proxyEvents_stay {env : ProxyEnv} {req : ProxyRequest} {route : RouteConfig}
    (hroute : findRoute env.routes req.ns (extractModel req.requestJson) = some route)
    (hstay : (routeLookup env req route).2.isSome ∨
      (cachePolicy route.cache req).map CachePolicy.directive = some .onlyIfCached) :
    (proxyEvents env req).2 = routeGets env req route := by
  unfold routeLookup at hstay
  unfold proxyEvents routeGets
  simp only [hroute]
  generalize cacheLookup env (cachePolicy route.cache req) _ _ = lookup at hstay ⊢
  obtain ⟨status, found⟩ := lookup
  cases found with
  | some cached => rfl
  | none =>
    rcases hstay with hhit | honly
    · cases hhit
    · simp only [if_pos honly]

def CacheEvent.isPut : CacheEvent → Bool
  | .put _ _ _ => true
  | _ => false

/-- The lookup makes no call but a `kv.get`, and none for a request that bypasses the cache. -/
theorem mem_routeGets {env : ProxyEnv} {req : ProxyRequest} {route : RouteConfig} {e : CacheEvent}
    (he : e ∈ routeGets env req route) :
    ∃ policy key, cachePolicy route.cache req = some policy ∧ policy.directive ≠ .bypass ∧
      e = .get key := by
  unfold routeGets lookupEvents at he
  split at he
  · cases he
  · rename_i policy hpolicy
    split at he
    · cases he
    · split at he
      · cases he
      · cases he
      · cases he
      · rename_i key _ hbypass _
        exact ⟨policy, key, hpolicy, hbypass, List.mem_singleton.mp he⟩

theorem routeGets_no_put {env : ProxyEnv} {req : ProxyRequest} {route : RouteConfig}
    {e : CacheEvent} (he : e ∈ routeGets env req route) : e.isPut = false := by
  obtain ⟨policy, key, -, -, hget⟩ := mem_routeGets he
  rw [hget]
  rfl

theorem asked_no_put {env : ProxyEnv} {req : ProxyRequest} {route : RouteConfig} :
    ∀ e ∈ routeGets env req route ++ [.forward], e.isPut = false := by
  intro e he
  rcases List.mem_append.mp he with hget | hforward
  · exact routeGets_no_put hget
  · rw [List.mem_singleton.mp hforward]
    rfl

/-- One `kv.put` at the end, of the response of the chain, or none. -/
def WritesOrNot (env : ProxyEnv) (req : ProxyRequest) (events : List CacheEvent) : Prop :=
  (∃ route policy response key payload calls, ShouldWrite env req route policy response ∧
      cacheKey env.blake3Hex env.numText route.cache req = some key ∧
      payload.chunks = upstreamChunks response.body ∧ payload.status = response.status ∧
      (∀ e ∈ calls, e.isPut = false) ∧ events = calls ++ [.put key payload policy.ttl]) ∨
    (¬ (∃ route policy response, ShouldWrite env req route policy response) ∧
      ∀ e ∈ events, e.isPut = false)

section
variable {env : ProxyEnv} {req : ProxyRequest} {route : RouteConfig}

theorem writesOrNot_stay
    (hroute : findRoute env.routes req.ns (extractModel req.requestJson) = some route)
    (hstay : (routeLookup env req route).2.isSome ∨
      (cachePolicy route.cache req).map CachePolicy.directive = some .onlyIfCached)
    (hno : ∀ policy response, ¬ ShouldWrite env req route policy response) :
    WritesOrNot env req (proxyEvents env req).2 := by
  right
  refine ⟨?_, ?_⟩
  · intro hshould
    obtain ⟨route', policy, response, hwrite⟩ := hshould
    exact hno policy response (hwrite.route_eq hroute ▸ hwrite)
  · intro e he
    rw [proxyEvents_stay hroute hstay] at he
    exact routeGets_no_put he

/-- The lookup says that nothing is written. -/
theorem writesOrNot_forward
    (hroute : findRoute env.routes req.ns (extractModel req.requestJson) = some route)
    {status : CacheStatus}
    (hlookup : routeLookup env req route = (status, none))
    (hstatus : status ≠ .miss ∧ status ≠ .refresh)
    (hno : ∀ policy response, ¬ ShouldWrite env req route policy response) :
    WritesOrNot env req (proxyEvents env req).2 := by
  by_cases honly : (cachePolicy route.cache req).map CachePolicy.directive = some .onlyIfCached
  · exact writesOrNot_stay hroute (.inr honly) hno
  · right
    refine ⟨?_, ?_⟩
    · intro hshould
      obtain ⟨route', policy, response, hwrite⟩ := hshould
      exact hno policy response (hwrite.route_eq hroute ▸ hwrite)
    · rw [proxyEvents_forward hroute hlookup honly]
      cases chainResponse env req route with
      | error failure => exact asked_no_put
      | ok response =>
        have hflag : ∀ fallbackUsed,
            ¬ Writable (streamContext env req route status fallbackUsed response) response.body := by
          intro fallbackUsed hw
          have hwrite := hw.1
          simp [streamContext, hstatus.1, hstatus.2] at hwrite
        simp only [taskEvents_none env (hflag _)]
        exact asked_no_put

/-- What the task is given when the lookup leaves the write to the upstream's answer. -/
theorem streamContext_writes {policy : CachePolicy}
    (hpolicy : cachePolicy route.cache req = some policy)
    (hbody : policy.bodyIsCacheable req.requestJson = true) {status : CacheStatus}
    (hstatus : status = .miss ∨ status = .refresh) (fallbackUsed : Option String)
    (response : ForwardResponse) :
    (streamContext env req route status fallbackUsed response).cacheShouldWrite =
        isSuccess response.status ∧
      (streamContext env req route status fallbackUsed response).cacheTtl = some policy.ttl := by
  simp only [streamContext, hpolicy, bodyIsCacheableShape, Option.map_some, hbody,
    Option.isSome_some, Bool.and_true, and_true]
  rcases hstatus with hstatus | hstatus
  · rw [hstatus]
    rfl
  · rw [hstatus]
    rfl

/-- The upstream has answered, and the write depends on its answer. -/
theorem writesOrNot_answered
    (hroute : findRoute env.routes req.ns (extractModel req.requestJson) = some route)
    {policy : CachePolicy} (hpolicy : cachePolicy route.cache req = some policy)
    (hbody : policy.bodyIsCacheable req.requestJson = true)
    (hdir : policy.directive = .refresh ∨ policy.directive = .default ∧
      ∀ key, cacheKey env.blake3Hex env.numText route.cache req = some key →
        ¬ UsableEntry env key)
    {key : String} (hkey : cacheKey env.blake3Hex env.numText route.cache req = some key)
    {response : ForwardResponse} (hchain : chainResponse env req route = .ok response)
    {ctx : StreamContext} (hflag : ctx.cacheShouldWrite = isSuccess response.status)
    (hctxKey : ctx.cacheKey = some key) (httl : ctx.cacheTtl = some policy.ttl)
    (hctxStatus : ctx.status = response.status) :
    WritesOrNot env req
      (routeGets env req route ++ .forward :: taskEvents env ctx response.body) := by
  by_cases hw : Writable ctx response.body
  · left
    obtain ⟨payload, hchunks, hstatus, htask⟩ := taskEvents_put env hw hctxKey httl
    have hwrite : ShouldWrite env req route policy response :=
      ⟨hroute, cachePolicy_enabled hpolicy, hpolicy, hdir, hbody, hchain, hflag ▸ hw.1, hw.2.1,
        hw.2.2⟩
    refine ⟨route, policy, response, key, payload, routeGets env req route ++ [.forward], hwrite,
      hkey, hchunks, hstatus.trans hctxStatus, asked_no_put, ?_⟩
    rw [htask, List.append_assoc]
    rfl
  · right
    rw [taskEvents_none env hw]
    refine ⟨?_, asked_no_put⟩
    intro hshould
    obtain ⟨route', policy', response', hwrite⟩ := hshould
    have hsame : Except.ok response' = Except.ok response :=
      (hwrite.answer_eq hroute).symm.trans hchain
    cases hsame
    exact hw ⟨hflag.trans hwrite.success, hwrite.ended, hwrite.size⟩

/-- The lookup leaves the write to the answer of the upstream. -/
theorem writesOrNot_upstream
    (hroute : findRoute env.routes req.ns (extractModel req.requestJson) = some route)
    {policy : CachePolicy} (hpolicy : cachePolicy route.cache req = some policy)
    (hbody : policy.bodyIsCacheable req.requestJson = true) {status : CacheStatus}
    (hlookup : routeLookup env req route = (status, none))
    (hstatus : status = .miss ∨ status = .refresh)
    (hdir : policy.directive = .refresh ∨ policy.directive = .default ∧
      ∀ key, cacheKey env.blake3Hex env.numText route.cache req = some key →
        ¬ UsableEntry env key) :
    WritesOrNot env req (proxyEvents env req).2 := by
  have hforward : policy.directive ≠ .onlyIfCached ∧ policy.directive ≠ .bypass := by
    rcases hdir with hdir | ⟨hdir, -⟩
    · rw [hdir]
      exact ⟨by decide, by decide⟩
    · rw [hdir]
      exact ⟨by decide, by decide⟩
  have honly : (cachePolicy route.cache req).map CachePolicy.directive ≠ some .onlyIfCached := by
    rw [hpolicy]
    exact fun h => hforward.1 (Option.some.inj h)
  obtain ⟨key, hkey⟩ := cacheKey_of_needed env hpolicy hbody hforward.2
  rw [proxyEvents_forward hroute hlookup honly]
  cases hchain : chainResponse env req route with
  | error failure =>
    right
    refine ⟨?_, asked_no_put⟩
    intro hshould
    obtain ⟨route', policy', response, hwrite⟩ := hshould
    rw [hwrite.answer_eq hroute] at hchain
    cases hchain
  | ok response =>
    obtain ⟨hflag, httl⟩ := streamContext_writes hpolicy hbody hstatus _ response
    exact writesOrNot_answered hroute hpolicy hbody hdir hkey hchain hflag hkey httl rfl

theorem routeLookup_of_policy (env : ProxyEnv) {policy : CachePolicy}
    (hpolicy : cachePolicy route.cache req = some policy) :
    routeLookup env req route = cacheLookup env (some policy)
      (policy.bodyIsCacheable req.requestJson)
      (cacheKey env.blake3Hex env.numText route.cache req) := by
  unfold routeLookup
  rw [hpolicy]
  rfl

/-- A plain request with a cacheable body: the answer of the cache decides. -/
theorem writesOrNot_default
    (hroute : findRoute env.routes req.ns (extractModel req.requestJson) = some route)
    {policy : CachePolicy} (hpolicy : cachePolicy route.cache req = some policy)
    (hbody : policy.bodyIsCacheable req.requestJson = true)
    (hdir : policy.directive = .default) : WritesOrNot env req (proxyEvents env req).2 := by
  obtain ⟨key, hkey⟩ := cacheKey_of_needed env hpolicy hbody (by rw [hdir]; decide)
  have hlookup := routeLookup_of_policy env hpolicy
  rw [hbody, hkey] at hlookup
  rcases cacheLookup_get env key (.inl hdir) with ⟨hentry, cached, hhit⟩ | ⟨hno, hmiss⟩
  · apply writesOrNot_stay hroute
    · left
      rw [hlookup, hhit]
      rfl
    · intro policy' response hwrite
      have hsame : policy' = policy := Option.some.inj (hwrite.policy_eq.symm.trans hpolicy)
      have hdirective := hwrite.directive
      rw [hsame, hdir] at hdirective
      rcases hdirective with h | ⟨-, h⟩
      · cases h
      · exact h key hkey hentry
  · apply writesOrNot_upstream hroute hpolicy hbody (hlookup.trans hmiss) (.inl rfl)
    right
    refine ⟨hdir, ?_⟩
    intro key' hkey'
    have hsame : key' = key := Option.some.inj (hkey'.symm.trans hkey)
    rw [hsame]
    exact hno

end

/-- The decision is spread over the policy, the lookup, the early return and the task; together
they write exactly when the request is to be written. -/
theorem proxyEvents_writesOrNot (env : ProxyEnv) (req : ProxyRequest) :
    WritesOrNot env req (proxyEvents env req).2 := by
  cases hroute : findRoute env.routes req.ns (extractModel req.requestJson) with
  | none =>
    right
    refine ⟨?_, ?_⟩
    · intro hshould
      obtain ⟨route, policy, response, hwrite⟩ := hshould
      rw [hwrite.route_found] at hroute
      cases hroute
    · intro e he
      simp only [proxyEvents, hroute] at he
      cases he
  | some route =>
    cases hpolicy : cachePolicy route.cache req with
    | none =>
      have hlookup : routeLookup env req route = (.disabled, none) := by
        unfold routeLookup
        rw [hpolicy]
        rfl
      apply writesOrNot_forward hroute hlookup ⟨by decide, by decide⟩
      intro policy response hwrite
      rw [hwrite.policy_eq] at hpolicy
      cases hpolicy
    | some policy =>
      have hlookup := routeLookup_of_policy env hpolicy
      cases hbody : policy.bodyIsCacheable req.requestJson with
      | false =>
        rw [hbody] at hlookup
        apply writesOrNot_forward hroute hlookup ⟨by decide, by decide⟩
        intro policy' response hwrite
        have hsame : policy' = policy := Option.some.inj (hwrite.policy_eq.symm.trans hpolicy)
        have hcacheable := hwrite.cacheable
        rw [hsame, hbody] at hcacheable
        cases hcacheable
      | true =>
        rw [hbody] at hlookup
        cases hdir : policy.directive with
        | bypass =>
          simp only [cacheLookup, hdir, Bool.not_true, Bool.false_eq_true, if_false] at hlookup
          apply writesOrNot_forward hroute hlookup ⟨by decide, by decide⟩
          intro policy' response hwrite
          have hwriting := hwrite.writing_directive hpolicy
          rw [hdir] at hwriting
          revert hwriting
          decide
        | refresh =>
          simp only [cacheLookup, hdir, Bool.not_true, Bool.false_eq_true, if_false] at hlookup
          exact writesOrNot_upstream hroute hpolicy hbody hlookup (.inr rfl) (.inl hdir)
        | default => exact writesOrNot_default hroute hpolicy hbody hdir
        | onlyIfCached =>
          apply writesOrNot_stay hroute
          · right
            rw [hpolicy, Option.map_some, hdir]
          · intro policy' response hwrite
            have hwriting := hwrite.writing_directive hpolicy
            rw [hdir] at hwriting
            revert hwriting
            decide

/-- The policy of a request, when it has a route whose cache is enabled. -/
def requestPolicy (env : ProxyEnv) (req : ProxyRequest) : Option CachePolicy :=
  (findRoute env.routes req.ns (extractModel req.requestJson)).bind fun route =>
    cachePolicy route.cache req

theorem requestPolicy_of_route {env : ProxyEnv} {req : ProxyRequest} {route : RouteConfig}
    (hroute : findRoute env.routes req.ns (extractModel req.requestJson) = some route) :
    requestPolicy env req = cachePolicy route.cache req := by
  unfold requestPolicy
  rw [hroute, Option.bind_some]

theorem taskEvents_isPut {env : ProxyEnv} {ctx : StreamContext}
    {items : List (Except String Bytes)} {e : CacheEvent} (he : e ∈ taskEvents env ctx items) :
    e.isPut = true := by
  unfold taskEvents at he
  split at he
  · rw [List.mem_singleton.mp he]
    rfl
  · cases he

/-- Every call of a request is its lookup, its call of the chain or its write. -/
theorem mem_proxyEvents {env : ProxyEnv} {req : ProxyRequest} {e : CacheEvent}
    (he : e ∈ (proxyEvents env req).2) :
    ∃ route, findRoute env.routes req.ns (extractModel req.requestJson) = some route ∧
      (e ∈ routeGets env req route ∨
        (cachePolicy route.cache req).map CachePolicy.directive ≠ some .onlyIfCached ∧
          (e = .forward ∨ e.isPut = true)) := by
  cases hroute : findRoute env.routes req.ns (extractModel req.requestJson) with
  | none =>
    simp only [proxyEvents, hroute] at he
    cases he
  | some route =>
    refine ⟨route, rfl, ?_⟩
    by_cases honly : (cachePolicy route.cache req).map CachePolicy.directive = some .onlyIfCached
    · rw [proxyEvents_stay hroute (.inr honly)] at he
      exact .inl he
    · rcases hlookup : routeLookup env req route with ⟨status, found⟩
      cases found with
      | some cached =>
        rw [proxyEvents_stay hroute (.inl (by rw [hlookup]; rfl))] at he
        exact .inl he
      | none =>
        rw [proxyEvents_forward hroute hlookup honly, List.mem_append] at he
        rcases he with he | he
        · exact .inl he
        · right
          refine ⟨honly, ?_⟩
          cases hchain : chainResponse env req route with
          | error failure =>
            rw [hchain] at he
            exact .inl (List.mem_singleton.mp he)
          | ok response =>
            rw [hchain] at he
            rcases List.mem_cons.mp he with he | he
            · exact .inl he
            · exact .inr (taskEvents_isPut he)

theorem proxyEvents_bypass {env : ProxyEnv} {req : ProxyRequest}
    (h : ∀ policy, requestPolicy env req = some policy → policy.directive = .bypass) :
    ∀ e ∈ (proxyEvents env req).2, e = .forward := by
  intro e he
  have hput : e.isPut = false := by
    rcases proxyEvents_writesOrNot env req with
      ⟨route, policy, response, _, _, _, hwrite, -⟩ | ⟨-, hnone⟩
    · have hdir := hwrite.directive
      rw [h policy (requestPolicy_of_route hwrite.route_found ▸ hwrite.policy_eq)] at hdir
      rcases hdir with hdir | ⟨hdir, -⟩
      · cases hdir
      · cases hdir
    · exact hnone e he
  obtain ⟨route, hroute, hget | ⟨-, hforward | hput'⟩⟩ := mem_proxyEvents he
  · obtain ⟨policy, key, hpolicy, hbypass, -⟩ := mem_routeGets hget
    exact absurd (h policy ((requestPolicy_of_route hroute).trans hpolicy)) hbypass
  · exact hforward
  · rw [hput] at hput'
    cases hput'

theorem proxyEvents_onlyIfCached {env : ProxyEnv} {req : ProxyRequest}
    (h : (requestPolicy env req).map CachePolicy.directive = some .onlyIfCached) :
    .forward ∉ (proxyEvents env req).2 := by
  intro he
  obtain ⟨route, hroute, hget | ⟨hnot, -⟩⟩ := mem_proxyEvents he
  · obtain ⟨policy, key, -, -, hforward⟩ := mem_routeGets hget
    cases hforward
  · exact hnot (requestPolicy_of_route hroute ▸ h)

/-! ### Runs -/

/-- A request, and whether its client leaves before there is a response: the handler is then
dropped in one of its calls. -/
structure Arrival extends ProxyCall where
  dropped : Option ℕ

/-- A dropped handler has begun some of its calls, and its task was not spawned. -/
def Arrival.events (a : Arrival) : List CacheEvent :=
  if a.admitted then
    match a.dropped with
    | none => (proxyEvents a.env a.req).2
    | some k => ((proxyEvents a.env a.req).2.filter fun e => !e.isPut).take k
  else []

/-- The handler goes on to the upstream's answer, if it asks for one. -/
def Arrival.Proceeds (a : Arrival) : Prop := a.admitted = true ∧ a.dropped = none

def arrivalEvents (arrivals : List Arrival) (i : ℕ) : List CacheEvent :=
  (arrivals[i]?).elim [] Arrival.events

theorem Arrival.events_of_proceeds {a : Arrival} (h : a.Proceeds) :
    a.events = (proxyEvents a.env a.req).2 := by
  unfold Arrival.events
  rw [if_pos h.1, h.2]

theorem Arrival.mem_events {a : Arrival} {e : CacheEvent} (he : e ∈ a.events) :
    e ∈ (proxyEvents a.env a.req).2 := by
  unfold Arrival.events at he
  split at he
  · split at he
    · exact he
    · exact List.mem_of_mem_filter (List.mem_of_mem_take he)
  · cases he

theorem Arrival.put_proceeds {a : Arrival} {e : CacheEvent} (he : e ∈ a.events)
    (hput : e.isPut = true) : a.Proceeds := by
  unfold Arrival.events at he
  split at he
  · rename_i hadmitted
    split at he
    · rename_i hdropped
      exact ⟨hadmitted, hdropped⟩
    · have hnot := (List.mem_filter.mp (List.mem_of_mem_take he)).2
      rw [hput] at hnot
      cases hnot
  · cases he

theorem Arrival.events_put_iff (a : Arrival) :
    (∃ key payload ttl, .put key payload ttl ∈ a.events) ↔
      a.Proceeds ∧ ∃ route policy response, ShouldWrite a.env a.req route policy response := by
  constructor
  · intro hput
    obtain ⟨key, payload, ttl, he⟩ := hput
    refine ⟨a.put_proceeds he rfl, ?_⟩
    rcases proxyEvents_writesOrNot a.env a.req with
      ⟨route, policy, response, _, _, _, hwrite, -⟩ | ⟨-, hnone⟩
    · exact ⟨route, policy, response, hwrite⟩
    · cases hnone _ (a.mem_events he)
  · intro hwrites
    obtain ⟨hproceeds, hwrite⟩ := hwrites
    rw [a.events_of_proceeds hproceeds]
    rcases proxyEvents_writesOrNot a.env a.req with
      ⟨_, policy, _, key, payload, calls, -, -, -, -, -, hevents⟩ | ⟨hnot, -⟩
    · refine ⟨key, payload, policy.ttl, ?_⟩
      rw [hevents]
      exact List.mem_append_right _ List.mem_cons_self
    · exact absurd hwrite hnot

/-- What is put is the whole answer, and it is put once. -/
theorem Arrival.events_put {a : Arrival} {key : String} {payload : CachedResponse} {ttl : UInt64}
    (he : .put key payload ttl ∈ a.events) :
    ∃ route policy response, ShouldWrite a.env a.req route policy response ∧
      cacheKey a.env.blake3Hex a.env.numText route.cache a.req = some key ∧ ttl = policy.ttl ∧
      payload.chunks = upstreamChunks response.body ∧ payload.status = response.status ∧
      a.events.filter CacheEvent.isPut = [.put key payload ttl] := by
  have hproceeds := a.put_proceeds he rfl
  rw [a.events_of_proceeds hproceeds] at he ⊢
  rcases proxyEvents_writesOrNot a.env a.req with
    ⟨route, policy, response, key', payload', calls, hwrite, hkey, hchunks, hstatus, hcalls,
      hevents⟩ | ⟨-, hnone⟩
  · rw [hevents] at he ⊢
    have hlast : CacheEvent.put key payload ttl = .put key' payload' policy.ttl := by
      rcases List.mem_append.mp he with he | he
      · cases hcalls _ he
      · exact List.mem_singleton.mp he
    cases hlast
    refine ⟨route, policy, response, hwrite, hkey, rfl, hchunks, hstatus, ?_⟩
    rw [List.filter_append, List.filter_eq_nil_iff.mpr]
    · rfl
    · intro e he
      rw [hcalls e he]
      decide
  · cases hnone _ he

/-- In any interleaving of any requests, a request writes its answer to the cache exactly when it
should, once and as a whole; a bypassing one makes no call of the store, and an `only-if-cached`
one none of the upstream. -/
theorem cache_writes_sound {arrivals : List Arrival} {trace : List (ℕ × CacheEvent)}
    (htrace : Interleaves trace (arrivalEvents arrivals)) {i : ℕ} {a : Arrival}
    (hi : arrivals[i]? = some a) :
    ((∃ key payload ttl, (i, CacheEvent.put key payload ttl) ∈ trace) ↔
        a.Proceeds ∧ ∃ route policy response, ShouldWrite a.env a.req route policy response) ∧
      (∀ key payload ttl, (i, CacheEvent.put key payload ttl) ∈ trace →
        ∃ route policy response, ShouldWrite a.env a.req route policy response ∧
          cacheKey a.env.blake3Hex a.env.numText route.cache a.req = some key ∧
          ttl = policy.ttl ∧ payload.chunks = upstreamChunks response.body ∧
          payload.status = response.status ∧
          ((trace.filter fun e => e.1 = i).map Prod.snd).filter CacheEvent.isPut =
            [.put key payload ttl]) ∧
      ((∀ policy, requestPolicy a.env a.req = some policy → policy.directive = .bypass) →
        ∀ e, (i, e) ∈ trace → e = .forward) ∧
      ((requestPolicy a.env a.req).map CachePolicy.directive = some .onlyIfCached →
        (i, CacheEvent.forward) ∉ trace) := by
  have hevents : arrivalEvents arrivals i = a.events := by
    unfold arrivalEvents
    rw [hi]
    rfl
  have hmem : ∀ {e}, (i, e) ∈ trace ↔ e ∈ a.events := by
    intro e
    rw [htrace.mem, hevents]
  refine ⟨?_, ?_, ?_, ?_⟩
  · rw [← a.events_put_iff]
    simp only [hmem]
  · intro key payload ttl he
    rw [htrace i, hevents]
    exact a.events_put (hmem.mp he)
  · intro hbypass e he
    exact proxyEvents_bypass hbypass e (a.mem_events (hmem.mp he))
  · intro honly he
    exact proxyEvents_onlyIfCached honly (a.mem_events (hmem.mp he))

def cachingRoute : RouteConfig := ⟨⟨some "openai", none⟩, ⟨"openai", none, []⟩, cachedRoute, {}, []⟩

def sampleResponse : ForwardResponse := ⟨200, [], 1, 1, [.ok [123], .ok [125]]⟩

/-- The client takes the first chunk of two and leaves. -/
def sampleArrival : Arrival where
  env :=
    { limits := []
      routes := [cachingRoute]
      kvGet _ := .ok none
      decodeCached _ := .error "no codec"
      forward n _ := (.ok sampleResponse, n)
      clientOpen k := k = 0
      finishedAtMs := 0
      blake3Hex := sampleHash
      numText := sampleNumber
      fromSlice _ := none }
  req := sampleRequest "POST" "/chat/completions" [] inputModel
  keyId := "k1"
  projectId := "p1"
  readBody := .ok ()
  budgetBlocked := false
  clock _ := 0
  store := .new
  dropped := none

def sampleTrace : List (ℕ × CacheEvent) := sampleArrival.events.map fun e => (0, e)

theorem sampleTrace_interleaves : Interleaves sampleTrace (arrivalEvents [sampleArrival]) := by
  intro i
  unfold sampleTrace
  cases i with
  | zero =>
    rw [List.filter_eq_self.mpr, List.map_map]
    · exact List.map_id _
    · intro e he
      obtain ⟨call, -, rfl⟩ := List.mem_map.mp he
      rfl
  | succ i =>
    rw [List.filter_eq_nil_iff.mpr]
    · rfl
    · intro e he
      obtain ⟨call, -, rfl⟩ := List.mem_map.mp he
      simp

theorem cache_writes_sound_sample :
    ∃ key payload ttl, (0, CacheEvent.put key payload ttl) ∈ sampleTrace ∧
      payload.chunks = [[123], [125]] := by
  obtain ⟨hiff, hput, -⟩ := cache_writes_sound sampleTrace_interleaves
    (show [sampleArrival][0]? = some sampleArrival from rfl)
  have hwrite : ShouldWrite sampleArrival.env sampleArrival.req cachingRoute
      ⟨.default, 3600, none, true⟩ sampleResponse := by
    refine ⟨by decide, rfl, by decide, .inr ⟨rfl, ?_⟩, by decide, rfl, by decide, rfl, by decide⟩
    intro key _ husable
    obtain ⟨blob, cached, hget, -⟩ := husable
    cases hget
  obtain ⟨key, payload, ttl, hmem⟩ := hiff.mpr ⟨⟨rfl, rfl⟩, _, _, _, hwrite⟩
  refine ⟨key, payload, ttl, hmem, ?_⟩
  obtain ⟨route, policy, response, hwrite', -, -, hchunks, -⟩ := hput key payload ttl hmem
  have hroute : route = cachingRoute := hwrite'.route_eq hwrite.route_found
  subst hroute
  have hsame : Except.ok response = Except.ok sampleResponse :=
    hwrite'.answered.symm.trans hwrite.answered
  cases hsame
  exact hchunks

end AiGateway.Api
