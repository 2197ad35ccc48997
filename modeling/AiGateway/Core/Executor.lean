import AiGateway.Core.Json

/-!
# Provider chains (`gateway-core/src/proxy/{retry,fallback,executor}.rs`)

`execute_chain` walks the entries of a chain, retries inside an entry, and
falls through to the next entry when its trigger matches. The upstream is a
parameter: `forward n req` is what the `n`-th call of `engine.forward` yields,
with the measured duration. Backoff sleeps between attempts have no effect on
the result and are left out. The merge after the loop is `executor.rs:90-96`, the
bookkeeping of an entry whose attempts are used up `executor.rs:74-80`.
-/

namespace AiGateway.Core

/-- `GatewayError` (`error.rs:3-46`); foreign error payloads are their messages. -/
inductive GatewayError where
  | unauthorized
  | forbidden (msg : String)
  | rateLimited
  | notFound
  | noRoute (ns : String)
  | badRequest (msg : String)
  | providerUnknown (provider : String)
  | upstreamTimeout
  | upstreamError (status : UInt16) (body : Option String)
  | internal (msg : String)
  | storage (msg : String)
  | http (msg : String)
  | serde (msg : String)
  | other (msg : String)
  deriving DecidableEq, Repr

def GatewayError.statusCode : GatewayError → UInt16
  | .unauthorized => 401
  | .forbidden _ => 403
  | .rateLimited => 429
  | .notFound => 404
  | .noRoute _ => 404
  | .badRequest _ => 400
  | .providerUnknown _ => 400
  | .upstreamTimeout => 504
  | .upstreamError status _ => status
  | _ => 500

def GatewayError.classification : GatewayError → String
  | .unauthorized | .forbidden _ => "auth"
  | .rateLimited => "rate_limited"
  | .noRoute _ => "not_found"
  | .badRequest _ | .providerUnknown _ => "bad_request"
  | .upstreamTimeout => "timeout"
  | .upstreamError _ _ => "upstream_error"
  | _ => "gateway_error"

/-- Header names are lower case; values are raw bytes, repeated names allowed. -/
abbrev HeaderMap := List (String × Bytes)

structure ForwardRequest where
  provider : String
  path : String
  query : Option String
  method : String
  headers : HeaderMap
  body : Option Bytes
  deriving DecidableEq, Repr

/-- The body is the finite sequence of stream items up to the end of the stream
or its first error. -/
structure ForwardResponse where
  status : UInt16
  headers : HeaderMap
  upstreamMs : ℕ
  ttfbMs : ℕ
  body : List (Except String Bytes)

/-! ### Outcome classes (`retry.rs`) -/

inductive AttemptOutcome where
  | success
  | retryableStatus (status : UInt16)
  | retryableNetwork
  | nonRetryable (status : UInt16)
  | timeout
  deriving DecidableEq, Repr

def isRetryableStatus (status : UInt16) : Bool :=
  status ∈ ([408, 425, 429, 500, 502, 503, 504] : List UInt16)

def AttemptOutcome.fromStatus (status : UInt16) : AttemptOutcome :=
  if isRetryableStatus status then .retryableStatus status
  else if 200 ≤ status ∧ status < 400 then .success
  else .nonRetryable status

def AttemptOutcome.fromError : GatewayError → AttemptOutcome
  | .upstreamTimeout => .timeout
  | .http _ => .retryableNetwork
  | err => .nonRetryable err.statusCode

def AttemptOutcome.isFinal : AttemptOutcome → Bool
  | .success | .nonRetryable _ => true
  | _ => false

def toAsciiLowercase (s : String) : String := String.ofList (s.toList.map Char.toLower)

def matchesFallbackTrigger (outcome : AttemptOutcome) (triggers : List String) : Bool :=
  if triggers.isEmpty then
    match outcome with
    | .success => false
    | _ => true
  else
    triggers.any fun trigger =>
      let t := toAsciiLowercase trigger
      match outcome with
      | .retryableStatus s =>
        if 500 ≤ s ∧ s < 600 then t == "upstream_5xx" || t == "upstream_error"
        else if s = 429 then t == "rate_limited" || t == "ratelimited"
        else false
      | .nonRetryable s =>
        if 500 ≤ s ∧ s < 600 then t == "upstream_5xx" || t == "upstream_error" else false
      | .timeout => t == "timeout"
      | .retryableNetwork => t == "network" || t == "timeout"
      | .success => false

def outcomeLabel : AttemptOutcome → String
  | .success => "success"
  | .retryableStatus _ => "retryable_status"
  | .retryableNetwork => "retryable_network"
  | .nonRetryable _ => "non_retryable"
  | .timeout => "timeout"

/-! ### Chains (`fallback.rs`) -/

structure RouteTarget where
  provider : String
  model : Option String
  trigger : List String
  deriving DecidableEq, Repr

structure RouteRetryConfig where
  maxAttempts : UInt32 := 3
  initialBackoffMs : UInt64 := 500
  deriving DecidableEq, Repr

structure ProviderChainEntry where
  provider : String
  modelOverride : Option String
  trigger : List String
  deriving DecidableEq, Repr

structure ProviderChain where
  entries : List ProviderChainEntry
  retry : RouteRetryConfig
  deriving DecidableEq, Repr

def ProviderChainEntry.fromTarget (t : RouteTarget) : ProviderChainEntry :=
  ⟨t.provider, t.model, t.trigger⟩

def ProviderChain.fromRoute (primary : RouteTarget) (fallbacks : List RouteTarget)
    (retry : RouteRetryConfig) : ProviderChain :=
  ⟨.fromTarget primary :: fallbacks.map .fromTarget, retry⟩

structure AttemptTrace where
  provider : String
  model : Option String
  status : Option UInt16
  outcome : String
  durationMs : ℕ
  deriving DecidableEq, Repr

/-! ### The executor (`executor.rs:19-103`) -/

abbrev ForwardResult := Except GatewayError ForwardResponse

abbrev Forward := ℕ → ForwardRequest → ForwardResult × ℕ

structure ChainResult where
  response : ForwardResult
  attempts : List AttemptTrace
  fallbackUsed : Option String

def attemptOutcome : ForwardResult → AttemptOutcome
  | .ok r => .fromStatus r.status
  | .error e => .fromError e

def resultStatus : ForwardResult → Option UInt16
  | .ok r => some r.status
  | .error _ => none

/-- How the retry loop of one entry ends: with a result that `execute_chain`
returns at once, or with the attempts used up. -/
inductive EntryEnd where
  | final (result : ForwardResult)
  | exhausted (outcome : AttemptOutcome) (result : ForwardResult)

def EntryEnd.result : EntryEnd → ForwardResult
  | .final result => result
  | .exhausted _ result => result

section Chain
variable (forward : Forward) (template : ForwardRequest)

def attemptTrace (entry : ProviderChainEntry) (n : ℕ) : AttemptTrace :=
  let call := forward n { template with provider := entry.provider }
  ⟨entry.provider, entry.modelOverride, resultStatus call.1, outcomeLabel (attemptOutcome call.1),
    call.2⟩

/-- The `loop` of one entry. `n` calls were made before, `left` attempts remain
after this one (`attempt >= max_attempts` stops it), so the body always runs at
least once. -/
def tryEntry (entry : ProviderChainEntry) : ℕ → ℕ → EntryEnd × List AttemptTrace
  | 0, n =>
    let result := (forward n { template with provider := entry.provider }).1
    let trace := attemptTrace forward template entry n
    if (attemptOutcome result).isFinal then (.final result, [trace])
    else (.exhausted (attemptOutcome result) result, [trace])
  | left + 1, n =>
    let result := (forward n { template with provider := entry.provider }).1
    let trace := attemptTrace forward template entry n
    if (attemptOutcome result).isFinal then (.final result, [trace])
    else
      let later := tryEntry entry left (n + 1)
      (later.1, trace :: later.2)

structure ChainState where
  attempts : List AttemptTrace := []
  lastOutcome : Option AttemptOutcome := none
  lastError : Option GatewayError := none
  lastResponse : Option ForwardResponse := none
  fallbackUsed : Option String := none

def ChainState.finish (st : ChainState) : ChainResult :=
  { response :=
      match st.lastResponse with
      | some resp => .ok resp
      | none =>
        match st.lastError with
        | some err => .error err
        | none => .error (.internal "empty provider chain")
    attempts := st.attempts
    fallbackUsed := st.fallbackUsed }

/-- The gate in front of entry `idx`; `none` is `break`. -/
def ChainState.enter (st : ChainState) (idx : ℕ) (entry : ProviderChainEntry) : Option ChainState :=
  if 0 < idx then
    match st.lastOutcome with
    | none => none
    | some prev =>
      if matchesFallbackTrigger prev entry.trigger then
        some { st with fallbackUsed := some entry.provider }
      else none
  else some st

def ChainState.exhaust (st : ChainState) (outcome : AttemptOutcome) (result : ForwardResult)
    (traces : List AttemptTrace) : ChainState :=
  let st := { st with attempts := st.attempts ++ traces, lastOutcome := some outcome }
  match result with
  | .ok resp => { st with lastResponse := some resp }
  | .error e => { st with lastError := some e }

def chainLoop (maxAttempts : UInt32) : ℕ → List ProviderChainEntry → ChainState → ChainResult
  | _, [], st => st.finish
  | idx, entry :: rest, st =>
    match st.enter idx entry with
    | none => st.finish
    | some st =>
      match tryEntry forward template entry (maxAttempts.toNat - 1) st.attempts.length with
      | (.final result, traces) => ⟨result, st.attempts ++ traces, st.fallbackUsed⟩
      | (.exhausted outcome result, traces) =>
        chainLoop maxAttempts (idx + 1) rest (st.exhaust outcome result traces)

def executeChain (chain : ProviderChain) : ChainResult :=
  chainLoop forward template chain.retry.maxAttempts 0 chain.entries {}

end Chain

end AiGateway.Core
