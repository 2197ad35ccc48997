import AiGateway.Api.CacheWrites
import AiGateway.Core.GatewayKeys
import AiGateway.Storage.LogBatch

/-!
# Log records of the proxy (`gateway-api/src/logging.rs`, `gateway-api/src/routes/proxy.rs:37-535`)

Every exit of the handler with the record it submits and the head of the response it
returns. A slice of a string off a character boundary panics: the handler then
returns no response, and what it has not yet submitted is lost. The same goes for the
task when `kv.put` panics on an expiry out of range. The redacted request body, the
texts of gateway errors, the clocks and the prices are parameters. Error bodies
(`error.rs:25-51`) are left out; headers of a cached response are valid, since they
were stored from a header map.
-/

namespace AiGateway.Api
open AiGateway.Core AiGateway.Storage

/-! ### `LogBuilder` -/

structure LogBuilder where
  record : RequestLogRecord

namespace LogBuilder

def new (id projectId : String) (logNamespace endpoint : Option String) (requestTs : Int) :
    LogBuilder where
  record :=
    { id
      projectId
      gatewayKeyId := none
      logNamespace
      model := none
      endpoint
      requestTs
      durationMs := none
      upstreamMs := none
      ttfbMs := none
      status := "success"
      httpStatus := none
      cached := false
      retryCount := 0
      fallbackUsed := none
      promptTokens := none
      completionTokens := none
      cachedTokens := none
      totalTokens := none
      costUsd := none
      wouldHaveCostUsd := none
      metadata := none
      clientIp := none
      userAgent := none
      errorMessage := none
      requestBody := none
      responseBody := none }

def setId (log : LogBuilder) (id : String) : LogBuilder := ⟨{ log.record with id }⟩

def setModel (log : LogBuilder) (model : Option String) : LogBuilder :=
  ⟨{ log.record with model }⟩

def setGatewayKey (log : LogBuilder) (keyId : Option String) : LogBuilder :=
  ⟨{ log.record with gatewayKeyId := keyId }⟩

def setStatus (log : LogBuilder) (status : String) (httpStatus : Option Int) : LogBuilder :=
  ⟨{ log.record with status, httpStatus }⟩

def setTiming (log : LogBuilder) (durationMs upstreamMs ttfbMs : Int) : LogBuilder :=
  ⟨{ log.record with
    durationMs := some durationMs, upstreamMs := some upstreamMs, ttfbMs := some ttfbMs }⟩

def setClient (log : LogBuilder) (ip userAgent : Option String) : LogBuilder :=
  ⟨{ log.record with clientIp := ip, userAgent }⟩

def setRequestBody (log : LogBuilder) (body : Option String) : LogBuilder :=
  ⟨{ log.record with requestBody := body }⟩

def setResponseBody (log : LogBuilder) (body : Option String) : LogBuilder :=
  ⟨{ log.record with responseBody := body }⟩

def setError (log : LogBuilder) (msg : String) : LogBuilder :=
  ⟨{ log.record with errorMessage := some msg }⟩

def setCached (log : LogBuilder) (cached : Bool) : LogBuilder := ⟨{ log.record with cached }⟩

def setRetry (log : LogBuilder) (retryCount : Int) : LogBuilder := ⟨{ log.record with retryCount }⟩

def setFallback (log : LogBuilder) (provider : Option String) : LogBuilder :=
  ⟨{ log.record with fallbackUsed := provider }⟩

def setTokenUsage (log : LogBuilder) (usage : TokenUsage) : LogBuilder :=
  ⟨{ log.record with
    promptTokens := usage.prompt
    completionTokens := usage.completion
    cachedTokens := usage.cached
    totalTokens := usage.totalTokens }⟩

def setCost (log : LogBuilder) (costUsd wouldHaveCostUsd : Option ℚ) : LogBuilder :=
  ⟨{ log.record with costUsd, wouldHaveCostUsd }⟩

def mergeMetadata (log : LogBuilder) (key : String) (value : Value) : LogBuilder :=
  let merged := match log.record.metadata.getD (.object []) with
    | .object map => .object (map.filter (·.1 ≠ key) ++ [(key, value)])
    | _ => .object [(key, value)]
  ⟨{ log.record with metadata := some merged }⟩

/-! Only `set_id` touches the id. -/

section
variable (log : LogBuilder)

@[simp] theorem setModel_id (model : Option String) :
    (log.setModel model).record.id = log.record.id := rfl

@[simp] theorem setGatewayKey_id (keyId : Option String) :
    (log.setGatewayKey keyId).record.id = log.record.id := rfl

@[simp] theorem setStatus_id (status : String) (httpStatus : Option Int) :
    (log.setStatus status httpStatus).record.id = log.record.id := rfl

@[simp] theorem setTiming_id (durationMs upstreamMs ttfbMs : Int) :
    (log.setTiming durationMs upstreamMs ttfbMs).record.id = log.record.id := rfl

@[simp] theorem setClient_id (ip userAgent : Option String) :
    (log.setClient ip userAgent).record.id = log.record.id := rfl

@[simp] theorem setRequestBody_id (body : Option String) :
    (log.setRequestBody body).record.id = log.record.id := rfl

@[simp] theorem setResponseBody_id (body : Option String) :
    (log.setResponseBody body).record.id = log.record.id := rfl

@[simp] theorem setError_id (msg : String) : (log.setError msg).record.id = log.record.id := rfl

@[simp] theorem setCached_id (cached : Bool) :
    (log.setCached cached).record.id = log.record.id := rfl

@[simp] theorem setRetry_id (retryCount : Int) :
    (log.setRetry retryCount).record.id = log.record.id := rfl

@[simp] theorem setFallback_id (provider : Option String) :
    (log.setFallback provider).record.id = log.record.id := rfl

@[simp] theorem setTokenUsage_id (usage : TokenUsage) :
    (log.setTokenUsage usage).record.id = log.record.id := rfl

@[simp] theorem setCost_id (costUsd wouldHaveCostUsd : Option ℚ) :
    (log.setCost costUsd wouldHaveCostUsd).record.id = log.record.id := rfl

@[simp] theorem mergeMetadata_id (key : String) (value : Value) :
    (log.mergeMetadata key value).record.id = log.record.id := rfl

end

end LogBuilder

/-! ### Texts -/

/-- `&s[..n]`; `none` is the panic off a character boundary. -/
def sliceTo : List Char → ℕ → Option (List Char)
  | _, 0 => some []
  | [], _ + 1 => none
  | c :: cs, n + 1 =>
    if c.utf8Size ≤ n + 1 then (sliceTo cs (n + 1 - c.utf8Size)).map (c :: ·) else none

/-- `std::str::from_utf8`. -/
def fromUtf8 (data : Bytes) : Option String := String.fromUTF8? ⟨data.toArray⟩

def previewLoop : List Bytes → String → Option String
  | [], out => some out
  | data :: chunks, out =>
    if maxLogBodyBytes ≤ out.utf8ByteSize then some (out ++ "\n…[truncated]")
    else
      match fromUtf8 data with
      | some s =>
        (sliceTo s.toList (min s.utf8ByteSize (maxLogBodyBytes - out.utf8ByteSize))).bind
          fun front => previewLoop chunks (out ++ String.ofList front)
      | none => previewLoop chunks out

def cachedBodyPreview (cached : CachedResponse) : Option (Option String) :=
  (previewLoop cached.chunks "").map fun out => if out.isEmpty then none else some out

def capturedBodyToString (buf : Bytes) (truncated : Bool) : Option String :=
  if buf.isEmpty then none
  else
    let s := (fromUtf8 buf).getD ("[binary " ++ toString buf.length ++ " bytes]")
    some (if truncated then s ++ "\n…[truncated]" else s)

def extractClientIp (headers : HeaderMap) (remoteIp : String) : Option String :=
  let nonEmpty := fun s : String => (some (trim s)).filter (· ≠ "")
  let forwarded := (headers.text "x-forwarded-for").map fun v =>
    String.ofList (v.toList.takeWhile (· ≠ ','))
  some (((forwarded.bind nonEmpty).or ((headers.text "x-real-ip").bind nonEmpty)).getD remoteIp)

def attemptValue (a : AttemptTrace) : Value :=
  .object
    [("provider", .string a.provider),
      ("model", a.model.elim .null .string),
      ("status", a.status.elim .null fun s => .number (.posInt s.toUInt64)),
      ("outcome", .string a.outcome),
      ("duration_ms", .number (.posInt (.ofNat a.durationMs)))]

/-! ### Responses -/

/-- `HeaderValue::from_str`: no control characters but the tab. -/
def headerFromStr (s : String) : Option Bytes :=
  if (asBytes s).all fun b => (32 ≤ b && b != 127) || b == 9 then some (asBytes s) else none

/-- `HeaderMap::insert`, when the value is one. -/
def insertHeader (headers : HeaderMap) (name : String) (value : Option Bytes) : HeaderMap :=
  match value with
  | some v => headers.filter (·.1 ≠ name) ++ [(name, v)]
  | none => headers

/-- `insert_cache_headers`; `none` is the panic of the slice of the key. -/
def insertCacheHeaders (headers : HeaderMap) (status : CacheStatus) (key : Option String)
    (ageS : Option ℕ) : Option HeaderMap :=
  let headers := insertHeader headers "x-gateway-cache-status" (headerFromStr status.asHeader)
  let withAge := fun headers : HeaderMap =>
    match ageS with
    | some age => insertHeader headers "x-gateway-cache-age" (headerFromStr (toString age))
    | none => headers
  match key with
  | some key =>
    (sliceTo key.toList (min key.utf8ByteSize 48)).map fun front =>
      withAge (insertHeader headers "x-gateway-cache-key" (headerFromStr (String.ofList front)))
  | none => some (withAge headers)

structure HttpResponse where
  status : UInt16
  headers : HeaderMap

/-- `StatusCode::from_u16`. -/
def statusFromU16 (code : UInt16) : Option UInt16 :=
  if 100 ≤ code && code < 1000 then some code else none

/-- `ApiError::into_response`. -/
def errorResponse (e : ApiError) : HttpResponse where
  status := match e with
    | .gateway e => (statusFromU16 e.statusCode).getD 500
    | .storage _ => 500
    | .badRequest _ => 400
    | .unauthorized => 401
  headers := [("content-type", asBytes "application/json")]

def buildCachedResponse (cached : CachedResponse) (status : CacheStatus) (key : String)
    (nowMs : Int) : Option HttpResponse :=
  let kept := cached.headers.filter fun h =>
    toAsciiLowercase h.1 ≠ "content-length" && toAsciiLowercase h.1 ≠ "transfer-encoding"
  let age := (max (nowMs - cached.finishedAtMs) 0).toNat / 1000
  (insertCacheHeaders (kept.map fun h => (h.1, asBytes h.2)) status (some key) (some age)).map
    fun headers => ⟨(statusFromU16 cached.status).getD 200, headers⟩

/-! ### The handler -/

/-- The text of `Uuid::now_v7()`. -/
structure RequestId where
  text : String
  hex : (text.toList.all fun c => c ∈ "0123456789abcdef-".toList) = true

/-- What the records take from outside: the id, the clocks, the body as it is logged, the peer,
`Display` of an error, `compute_cost`, and whether `kv.put` gets through for a time to live. -/
structure LogEnv where
  requestId : RequestId
  requestTs : Int
  durationMs : Int
  forwardMs : Int
  nowMs : Int
  requestBodyForLog : Option String
  remoteIp : String
  errorText : GatewayError → String
  cost : String → String → PricingUsage → Option ℚ
  putReturns : UInt64 → Bool

/-- What a request leaves behind: the records submitted, and the head of its response. -/
structure Handled where
  records : List RequestLogRecord
  response : Option HttpResponse

def LogBuilder.reject (log : LogBuilder) (e : ApiError) : Handled :=
  ⟨[log.record], some (errorResponse e)⟩

/-- What the log takes from the chain (`proxy.rs:309-314`). -/
def LogBuilder.chainLog (log : LogBuilder) (result : ChainResult) : LogBuilder :=
  let log := (log.mergeMetadata "attempts" (.array (result.attempts.map attemptValue))).setRetry
    (result.attempts.length - 1 : ℕ)
  match result.fallbackUsed with
  | some fb => log.setFallback (some fb)
  | none => log

@[simp] theorem LogBuilder.chainLog_id (log : LogBuilder) (result : ChainResult) :
    (log.chainLog result).record.id = log.record.id := by
  unfold LogBuilder.chainLog
  cases result.fallbackUsed with
  | none => simp
  | some fb => simp

section
variable (c : ProxyCall) (l : LogEnv)

def startLog : LogBuilder :=
  let log := LogBuilder.new l.requestId.text c.projectId (some c.req.ns)
    (some c.req.upstreamPath) l.requestTs
  (((log.setGatewayKey (some c.keyId)).setRequestBody l.requestBodyForLog).setModel
    (extractModel c.req.requestJson)).setClient (extractClientIp c.req.headers l.remoteIp)
    (c.req.headers.text "user-agent")

/-- The record of a cache hit (`proxy.rs:222-271`), submitted unless the preview panics. -/
def hitRecord (log : LogBuilder) (route : RouteConfig) (cached : CachedResponse) :
    Option RequestLogRecord :=
  (cachedBodyPreview cached).map fun preview =>
    let usage := hitUsage c.env.fromSlice cached
    let wouldHave := log.record.model.bind fun model =>
      l.cost (cached.servedBy.getD route.primary.provider) model usage.forPricing
    let log := ((((log.setStatus "success" (some cached.status.toNat)).setTiming l.durationMs 0
      0).setResponseBody preview).setCached true).setTokenUsage usage
    let log := log.setCost (some 0) wouldHave
    match cached.servedBy with
    | some provider =>
      (log.mergeMetadata "attempts" (.array [.object
        [("provider", .string provider), ("outcome", .string "cache_hit")]])).record
    | none => log.record

def LogBuilder.adoptId (log : LogBuilder) (capture : Bytes) : LogBuilder :=
  match extractResponseId c.env.fromSlice capture with
  | some rid => log.setId rid
  | none => log

/-- The record of the task (`proxy.rs:399-417,419-512`). -/
def taskRecords (log : LogBuilder) (ctx : StreamContext) (response : ForwardResponse) :
    List RequestLogRecord :=
  match captureLoop ctx.cacheShouldWrite c.env.clientOpen 0 response.body .start with
  | (capture, some _) =>
    [((((log.adoptId c capture.responseCapture).setStatus "upstream_error"
        (some response.status.toNat)).setTiming l.durationMs response.upstreamMs
        response.ttfbMs).setResponseBody
        (capturedBodyToString capture.responseCapture capture.responseTruncated)).record]
  | (capture, none) =>
    let ended := finishStream c.env.fromSlice ctx c.env.finishedAtMs capture
    let cost := ended.priced.bind fun usage => log.record.model.bind fun model =>
      l.cost ctx.upstreamProvider model usage
    let statusClass := if isSuccess response.status then "success" else "upstream_error"
    let record := ((((((log.adoptId c capture.responseCapture).setStatus statusClass
      (some response.status.toNat)).setTiming l.durationMs response.upstreamMs
      response.ttfbMs).setTokenUsage ended.usage).setCost cost cost).setResponseBody
      (capturedBodyToString capture.responseCapture capture.responseTruncated)).record
    match ended.cacheWrite with
    | some (_, _, ttl) => if l.putReturns ttl then [record] else []
    | none => [record]

/-- From the route on (`proxy.rs:146-535`). -/
def proxyRouted (log : LogBuilder) : ProxyExit × Handled :=
  match findRoute c.env.routes c.req.ns (extractModel c.req.requestJson) with
  | none =>
    let log := ((log.setStatus "gateway_error" (some 404)).setTiming l.durationMs 0 0).setError
      ("no route for namespace '" ++ c.req.ns ++ "'")
    (.noRoute, log.reject (.gateway (.noRoute c.req.ns)))
  | some route =>
    let policy := cachePolicy route.cache c.req
    let shape := bodyIsCacheableShape policy c.req
    let key := cacheKey c.env.blake3Hex c.env.numText route.cache c.req
    let lookup := cacheLookup c.env policy shape key
    match lookup.2 with
    | some cached =>
      match hitRecord c l log route cached with
      | none => (.cacheHit cached, ⟨[], none⟩)
      | some record =>
        (.cacheHit cached,
          ⟨[record], key.bind fun key => buildCachedResponse cached lookup.1 key l.nowMs⟩)
    | none =>
      if policy.map CachePolicy.directive = some .onlyIfCached then
        let log := ((log.setStatus "gateway_error" (some 504)).setTiming l.durationMs 0
          0).setError "cache miss with X-Gateway-Cache: only"
        (.onlyIfCachedMiss, log.reject (.gateway .upstreamTimeout))
      else
        let result := executeChain c.env.forward (forwardTemplate c.req) (chainOfRoute route)
        let log := log.chainLog result
        match result.response with
        | .error e =>
          let log := ((log.setStatus e.classification (some e.statusCode.toNat)).setTiming
            l.durationMs l.forwardMs 0).setError (l.errorText e)
          (.chainError e, log.reject (.gateway e))
        | .ok response =>
          let ctx := streamContext c.env c.req route lookup.1 result.fallbackUsed response
          (.streamed ctx response.body,
            ⟨taskRecords c l log ctx response,
              (insertCacheHeaders response.headers lookup.1 key none).map fun headers =>
                ⟨response.status, headers⟩⟩)

/-- `proxy_inner` with its records. -/
def proxyLogged : Handled :=
  match c.readBody with
  | .error e => ⟨[], some (errorResponse (.badRequest ("failed to read body: " ++ e)))⟩
  | .ok _ =>
    let log := startLog c l
    if c.budgetBlocked then
      (((log.setStatus "gateway_error" (some 429)).setTiming l.durationMs 0 0).setError
        "budget_exceeded").reject (.gateway .rateLimited)
    else
      match c.checkLimits.1 with
      | .error e =>
        ((log.setStatus "rate_limited" (some 429)).setTiming l.durationMs 0 0).reject e
      | .ok _ => (proxyRouted c l log).2

def proxyHandler : Handled :=
  let handled := proxyLogged c l
  { handled with
    response := handled.response.map fun response =>
      { response with
        headers := insertHeader response.headers "x-gateway-request-id"
          (headerFromStr l.requestId.text) } }

end

/-- The exits are those of `proxyExit`. -/
theorem proxyRouted_exit (c : ProxyCall) (l : LogEnv) (log : LogBuilder) :
    (proxyRouted c l log).1 = proxyExit c.env c.req := by
  unfold proxyRouted proxyExit
  cases findRoute c.env.routes c.req.ns (extractModel c.req.requestJson) with
  | none => rfl
  | some route =>
    simp only
    generalize cacheLookup c.env (cachePolicy route.cache c.req) _ _ = lookup
    obtain ⟨status, found⟩ := lookup
    cases found with
    | some cached =>
      simp only
      cases hitRecord c l log route cached with
      | none => rfl
      | some record => rfl
    | none =>
      by_cases honly :
          (cachePolicy route.cache c.req).map CachePolicy.directive = some .onlyIfCached
      · simp only [if_pos honly]
      · simp only [if_neg honly]
        cases (executeChain c.env.forward (forwardTemplate c.req) (chainOfRoute route)).response with
        | error e => rfl
        | ok response => rfl

end AiGateway.Api
