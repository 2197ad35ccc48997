import AiGateway.Core.CachePolicy
import AiGateway.Core.CanonicalJson

/-!
# Response cache keys (`gateway-api/src/routes/proxy.rs:164-193`)

How `proxy_inner` decides whether a request takes part in caching and under
which key, and what equal keys say about two requests.
-/

namespace AiGateway.Api
open AiGateway.Core AiGateway.Library.PrefixCode

structure CacheConfig where
  enabled : Bool
  ttl : UInt64
  allowNondeterministic : Bool
  deriving DecidableEq

/-- What `proxy_inner` knows of a request; `requestJson` is the body if it parses. -/
structure ProxyRequest where
  method : String
  ns : String
  upstreamPath : String
  headers : HeaderMap
  body : Bytes
  requestJson : Option Value

def cachePolicy (config : CacheConfig) (req : ProxyRequest) : Option CachePolicy :=
  CachePolicy.fromHeaders req.headers config.enabled config.ttl config.allowNondeterministic

def bodyIsCacheableShape (policy : Option CachePolicy) (req : ProxyRequest) : Bool :=
  match policy with
  | some p => p.bodyIsCacheable req.requestJson
  | none => false

def cacheKeyNeeded (policy : Option CachePolicy) (bodyIsCacheable : Bool) : Bool :=
  bodyIsCacheable &&
    match policy with
    | some p => p.directive != .bypass
    | none => false

def cacheKey (blake3Hex : Bytes → String) (numText : Number → String) (config : CacheConfig)
    (req : ProxyRequest) : Option String :=
  match cachePolicy config req with
  | some policy =>
    if cacheKeyNeeded (some policy) (policy.bodyIsCacheable req.requestJson) then
      some ("resp:" ++ req.ns ++ ":" ++ fingerprint blake3Hex numText
        ⟨req.ns, req.upstreamPath, req.body, req.requestJson, policy.cacheScope⟩)
    else none
  | none => none

def ProxyRequest.cacheScope (req : ProxyRequest) : Option String :=
  req.headers.text "x-gateway-cache-scope"

/-! ### What a key determines -/

def scopeBytes (scope : Option String) : Bytes := asBytes (scope.getD "")

theorem fromHeaders_cacheScope {headers : HeaderMap} {enabled allow : Bool} {ttl : UInt64}
    {policy : CachePolicy} (h : CachePolicy.fromHeaders headers enabled ttl allow = some policy) :
    policy.cacheScope = headers.text "x-gateway-cache-scope" := by
  simp only [CachePolicy.fromHeaders] at h
  split at h
  · cases h
  · cases h
    rfl

theorem cacheKey_eq_some {blake3Hex : Bytes → String} {numText : Number → String}
    {config : CacheConfig} {req : ProxyRequest} {key : String}
    (h : cacheKey blake3Hex numText config req = some key) :
    ∃ value, req.requestJson = some value ∧
      key = "resp:" ++ req.ns ++ ":" ++ blake3Hex (asBytes req.ns ++ bar ::
        (asBytes req.upstreamPath ++ bar ::
          (scopeBytes req.cacheScope ++ bar :: hashJsonValue numText value))) := by
  simp only [cacheKey] at h
  split at h
  · rename_i policy hpolicy
    split at h
    · rename_i hneeded
      cases hjson : req.requestJson with
      | none => simp [hjson, cacheKeyNeeded, CachePolicy.bodyIsCacheable] at hneeded
      | some value =>
        cases h
        refine ⟨value, rfl, ?_⟩
        have hscope := fromHeaders_cacheScope hpolicy
        simp only [fingerprint, fingerprintBytes, hjson, hscope, ProxyRequest.cacheScope]
        cases req.headers.text "x-gateway-cache-scope" with
        | none => rfl
        | some scope => rfl
    · cases h
  · cases h

def hexDigits (bytes : Bytes) : List Char :=
  bytes.flatMap fun b => [Nat.digitChar (b.toNat / 16), Nat.digitChar (b.toNat % 16)]

/-- A digest for the two requests below: BLAKE3's own on the bytes they hash, and
another hexadecimal text on any other input. -/
def sampleHash (bytes : Bytes) : String :=
  if bytes = fingerprintBytes (fun _ => "") ⟨"openai", "/chat/completions", [],
      some (.object [("input", .string "hi"), ("model", .string "gpt-4o")]), none⟩ then
    "892fb1f94ba64025c9c5894290cc6645387379a3b0c732091755dac55c2712f4"
  else String.ofList ('0' :: hexDigits bytes)

def cachedRoute : CacheConfig := ⟨true, 3600, true⟩

def sampleRequest (method path : String) (headers : HeaderMap) (fields : List (String × Value)) :
    ProxyRequest :=
  ⟨method, "openai", path, headers, [], some (.object fields)⟩

def inputModel : List (String × Value) := [("input", .string "hi"), ("model", .string "gpt-4o")]

end AiGateway.Api
