import AiGateway.Core.Executor

/-!
# Cache policy of a request (`gateway-core/src/cache/policy.rs`)
-/

namespace AiGateway.Core

def HeaderMap.get (headers : HeaderMap) (name : String) : Option Bytes := headers.lookup name

/-- `HeaderValue::to_str`: only visible ASCII and tab convert. -/
def headerToStr (value : Bytes) : Option String :=
  if value.all fun b => (32 ≤ b && b < 127) || b == 9 then
    some (String.ofList (value.map fun b => Char.ofNat b.toNat))
  else none

def HeaderMap.text (headers : HeaderMap) (name : String) : Option String :=
  (headers.get name).bind headerToStr

/-- `str::parse::<u64>`: an optional plus sign and decimal digits, within range. -/
def parseU64 (s : String) : Option UInt64 :=
  let digits := match s.toList with
    | '+' :: rest => rest
    | cs => cs
  if digits.isEmpty || !digits.all Char.isDigit then none
  else
    let n := digits.foldl (fun acc c => acc * 10 + (c.toNat - 48)) 0
    if n < 18446744073709551616 then some (UInt64.ofNat n) else none

/-- `str::trim` on the text of a header, where space and tab are the only white space. -/
def trimText (s : String) : String :=
  let blank := fun c : Char => c == ' ' || c == '\t'
  String.ofList (((s.toList.dropWhile blank).reverse.dropWhile blank).reverse)

inductive CacheDirective where
  | default
  | bypass
  | refresh
  | onlyIfCached
  deriving DecidableEq, Repr

inductive CacheStatus where
  | hit
  | miss
  | bypass
  | refresh
  | disabled
  deriving DecidableEq, Repr

def CacheStatus.asHeader : CacheStatus → String
  | .hit => "hit"
  | .miss => "miss"
  | .bypass => "bypass"
  | .refresh => "refresh"
  | .disabled => "disabled"

structure CachePolicy where
  directive : CacheDirective
  ttl : UInt64
  cacheScope : Option String
  allowNondeterministic : Bool
  deriving DecidableEq, Repr

namespace CachePolicy

def fromHeaders (headers : HeaderMap) (routeEnabled : Bool) (defaultTtl : UInt64)
    (routeAllowNondeterministic : Bool) : Option CachePolicy :=
  if !routeEnabled then none
  else
    let directive := match (headers.text "x-gateway-cache").map toAsciiLowercase with
      | some "bypass" => .bypass
      | some "refresh" => .refresh
      | some "only" => .onlyIfCached
      | some "only-if-cached" => .onlyIfCached
      | _ => .default
    let ttl := ((headers.text "x-gateway-cache-ttl").bind parseU64).getD defaultTtl
    let cacheScope := headers.text "x-gateway-cache-scope"
    let headerForce := match headers.text "x-gateway-cache-force" with
      | some s => toAsciiLowercase (trimText s) ∈ ["1", "true", "yes"]
      | none => false
    some ⟨directive, ttl, cacheScope, routeAllowNondeterministic || headerForce⟩

def bodyIsCacheable (policy : CachePolicy) (body : Option Value) : Bool :=
  match body with
  | none => false
  | some body =>
    if policy.allowNondeterministic then true
    else
      let temperature := ((body.get "temperature").bind Value.asF64).getD 0
      let topP := ((body.get "top_p").bind Value.asF64).getD 1
      -- the bits of the double 0.999
      decide (temperature = 0) && decide (f64Value 0x3FEFF7CED916872B ≤ topP)

end CachePolicy

end AiGateway.Core
