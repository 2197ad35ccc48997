import AiGateway.Api.CacheKey
import AiGateway.Api.RateLimit
import AiGateway.Api.StreamTask

/-!
# `proxy_inner` (`gateway-api/src/routes/proxy.rs:74-565`)

The control flow of a request from the rate limits to its end: unknown route,
cache hit, `only-if-cached` miss, failed provider chain, or a streamed response
with its background task. Log records are left out. The key-value store, the
payload codec, the hash, the JSON parser and the upstream are parameters. Routes
are in `config.rs:205-228`, the cache lookup is `proxy.rs:196-220`.
-/

namespace AiGateway.Api
open AiGateway.Core AiGateway.Storage AiGateway.Library.MachineInt

structure RouteMatch where
  ns : Option String
  modelPrefix : Option String
  deriving DecidableEq

structure RouteConfig where
  match_ : RouteMatch
  primary : RouteTarget
  cache : CacheConfig
  retry : RouteRetryConfig
  fallbacks : List RouteTarget
  deriving DecidableEq

def routeMatches (route : RouteConfig) (urlNamespace : String) (model : Option String) : Bool :=
  match route.match_.ns with
  | none => false
  | some expected =>
    if expected ≠ urlNamespace then false
    else
      match route.match_.modelPrefix with
      | none => true
      | some start =>
        match model with
        | some m => start.toList.isPrefixOf m.toList
        | none => false

def findRoute (routes : List RouteConfig) (urlNamespace : String) (model : Option String) :
    Option RouteConfig :=
  routes.find? fun route => routeMatches route urlNamespace model

def extractModel (body : Option Value) : Option String :=
  body.bind fun v => (v.get "model").bind Value.asStr

/-- What a request meets: the configuration, the stores' answers and the upstream. -/
structure ProxyEnv where
  limits : List LimitConfig
  routes : List RouteConfig
  kvGet : String → Except String (Option Bytes)
  decodeCached : Bytes → Except String CachedResponse
  forward : Forward
  clientOpen : ℕ → Bool
  finishedAtMs : Int
  blake3Hex : Bytes → String
  numText : Number → String
  fromSlice : Bytes → Option Value

def cacheLookup (env : ProxyEnv) (policy : Option CachePolicy) (bodyIsCacheable : Bool)
    (key : Option String) : CacheStatus × Option CachedResponse :=
  match policy with
  | none => (.disabled, none)
  | some p =>
    if !bodyIsCacheable then (.disabled, none)
    else
      match p.directive, key with
      | .bypass, _ => (.bypass, none)
      | .refresh, _ => (.refresh, none)
      -- not taken: a request that gets here has a key
      | _, none => (.miss, none)
      | _, some key =>
        match env.kvGet key with
        | .ok (some blob) =>
          match env.decodeCached blob with
          | .ok cached => (.hit, some cached)
          | .error _ => (.miss, none)
        | .ok none => (.miss, none)
        | .error _ => (.miss, none)

inductive ProxyExit where
  | noRoute
  | cacheHit (cached : CachedResponse)
  | onlyIfCachedMiss
  | chainError (e : GatewayError)
  -- a response is streamed; the task runs over the upstream's items
  | streamed (ctx : StreamContext) (items : List (Except String Bytes))

def forwardTemplate (req : ProxyRequest) : ForwardRequest :=
  { provider := req.ns
    path := req.upstreamPath
    query := none
    method := req.method
    headers := req.headers
    body := if req.body.isEmpty then none else some req.body }

def chainOfRoute (route : RouteConfig) : ProviderChain :=
  .fromRoute route.primary route.fallbacks route.retry

/-- From the route to the end of the request (`proxy.rs:146-361`). -/
def proxyExit (env : ProxyEnv) (req : ProxyRequest) : ProxyExit :=
  match findRoute env.routes req.ns (extractModel req.requestJson) with
  | none => .noRoute
  | some route =>
    let policy := cachePolicy route.cache req
    let shape := bodyIsCacheableShape policy req
    let key := cacheKey env.blake3Hex env.numText route.cache req
    let lookup := cacheLookup env policy shape key
    match lookup.2 with
    | some cached => .cacheHit cached
    | none =>
      if policy.map CachePolicy.directive = some .onlyIfCached then .onlyIfCachedMiss
      else
        let result := executeChain env.forward (forwardTemplate req) (chainOfRoute route)
        match result.response with
        | .error e => .chainError e
        | .ok response =>
          .streamed
            { status := response.status
              headersOut := response.headers
              upstreamProvider := result.fallbackUsed.getD route.primary.provider
              model := extractModel req.requestJson
              cacheShouldWrite :=
                (lookup.1 = .miss || lookup.1 = .refresh) && isSuccess response.status && shape &&
                  policy.isSome
              cacheTtl := policy.map CachePolicy.ttl
              cacheKey := key }
            response.body

/-- The token count that `reconcile_tokens` is called with; `none` when the permit
is dropped without it. -/
def settledTokens (env : ProxyEnv) (putReturns : UInt64 → Bool) : ProxyExit → Option Int
  | .streamed ctx items =>
    (settlingTask env.fromSlice putReturns ctx env.clientOpen env.finishedAtMs items).map
      StreamEnd.actualTokens
  | _ => none

def proxyInner (env : ProxyEnv) (putReturns : UInt64 → Bool) (clock settleClock : ℕ → ℕ)
    (store : MemoryCounterStore) (keyId projectId : String) (req : ProxyRequest) :
    Except ApiError ProxyExit × MemoryCounterStore :=
  match checkLimits clock store env.limits keyId projectId with
  | (.error e, store) => (.error e, store)
  | (.ok permit, store) =>
    let exit := proxyExit env req
    match settledTokens env putReturns exit with
    | some actual =>
      (.ok exit,
        (reconcileTokens settleClock actual 0 permit.tpmReservations store).releaseAll
          permit.concurrency)
    | none => (.ok exit, store.releaseAll permit.concurrency)

/-- A request as `proxy_handler` gets it: whether its body can be read, whether a budget
blocks it, and the counters its limits are checked against. -/
structure ProxyCall where
  env : ProxyEnv
  req : ProxyRequest
  keyId : String
  projectId : String
  readBody : Except String Unit
  budgetBlocked : Bool
  clock : ℕ → ℕ
  store : MemoryCounterStore

def ProxyCall.checkLimits (c : ProxyCall) : Except ApiError RatePermit × MemoryCounterStore :=
  Api.checkLimits c.clock c.store c.env.limits c.keyId c.projectId

def ProxyCall.admitted (c : ProxyCall) : Bool :=
  c.readBody.isOk && !c.budgetBlocked && c.checkLimits.1.isOk

end AiGateway.Api
