import AiGateway.Core.GatewayKeys
import AiGateway.Library.HashMap

/-!
# The proxy engine (`proxy/engine.rs:46-111,199-216`, `providers/mod.rs:14-60`)

An engine resolves its providers once, when it is built. The process environment
is a parameter. `send` stands for the HTTP exchange with a resolved provider:
building the URL and the headers, and the client's own failures.
-/

namespace AiGateway.Core
open AiGateway.Library

/-- `ProviderConfig` (`config.rs:185-203`). -/
structure ProviderConfig where
  kind : Option String
  baseUrl : String
  credential : String
  headers : HashMap String String
  deriving DecidableEq

/-- The kind of a provider defaults to its name. -/
def ProviderConfig.effectiveKind (name : String) (p : ProviderConfig) : String := p.kind.getD name

def isKnownProviderKind (kind : String) : Bool := kind = "openai" || kind = "anthropic"

inductive AuthInjector where
  | openAi
  | anthropic
  deriving DecidableEq, Repr

def buildAuthInjector (kind : String) : Except GatewayError AuthInjector :=
  if kind = "openai" then .ok .openAi
  else if kind = "anthropic" then .ok .anthropic
  else .error (.providerUnknown kind)

def resolveCredential (env : String → Option String) (cfg : ProviderConfig) :
    Except GatewayError String :=
  match stripStart cfg.credential "env://" with
  | some rest =>
    if rest = "" then
      .error (.internal "provider credential env:// reference is missing a var name")
    else
      match env rest with
      | some value => .ok value
      | none => .error (.internal ("env var " ++ rest ++ " not set for provider credential"))
  | none =>
    if cfg.credential = "" then .error (.internal "provider credential is empty")
    else .ok cfg.credential

structure ResolvedProvider where
  baseUrl : String
  apiKey : String
  injector : AuthInjector
  extraHeaders : HashMap String String
  deriving DecidableEq

def resolveProvider (env : String → Option String) (name : String) (cfg : ProviderConfig) :
    Except GatewayError ResolvedProvider :=
  match buildAuthInjector (cfg.effectiveKind name) with
  | .error e => .error e
  | .ok injector =>
    match resolveCredential env cfg with
    | .error e => .error e
    | .ok apiKey => .ok ⟨cfg.baseUrl, apiKey, injector, cfg.headers⟩

structure ProxyEngine where
  providers : HashMap String ResolvedProvider

/-- The loop of `ProxyEngine::new` over the configured providers. -/
def resolveProviders (env : String → Option String) (resolved : HashMap String ResolvedProvider) :
    List (String × ProviderConfig) → Except GatewayError (HashMap String ResolvedProvider)
  | [] => .ok resolved
  | (name, cfg) :: rest =>
    match resolveProvider env name cfg with
    | .error e => .error e
    | .ok provider => resolveProviders env (resolved.insert name provider) rest

/-- `ProxyEngine::new`; `order` is how `config.providers` iterates. -/
def ProxyEngine.new (env : String → Option String) (order : List (String × ProviderConfig)) :
    Except GatewayError ProxyEngine :=
  match resolveProviders env ∅ order with
  | .error e => .error e
  | .ok providers => .ok ⟨providers⟩

/-- What sending a request can fail with. -/
inductive SendError where
  | timeout
  | other (msg : String)
  deriving DecidableEq, Repr

def ProxyEngine.forward (engine : ProxyEngine)
    (send : ResolvedProvider → ForwardRequest → Except SendError ForwardResponse)
    (req : ForwardRequest) : Except GatewayError ForwardResponse :=
  match engine.providers.lookup req.provider with
  | none => .error (.providerUnknown req.provider)
  | some provider =>
    match send provider req with
    | .ok response => .ok response
    | .error .timeout => .error .upstreamTimeout
    | .error (.other msg) => .error (.http msg)

theorem forward_providerUnknown_iff (engine : ProxyEngine)
    (send : ResolvedProvider → ForwardRequest → Except SendError ForwardResponse)
    (req : ForwardRequest) (name : String) :
    engine.forward send req = .error (.providerUnknown name) ↔
      engine.providers.lookup req.provider = none ∧ name = req.provider := by
  unfold ProxyEngine.forward
  cases hlookup : engine.providers.lookup req.provider with
  | none =>
    constructor
    · intro h
      cases h
      exact ⟨rfl, rfl⟩
    · rintro ⟨-, rfl⟩
      rfl
  | some provider =>
    constructor
    · intro h
      simp only at h
      split at h <;> cases h
    · rintro ⟨h, -⟩
      cases h

theorem resolveProviders_lookup {env : String → Option String}
    {order : List (String × ProviderConfig)} (hnodup : (order.map Prod.fst).Nodup)
    {resolved engine : HashMap String ResolvedProvider}
    (h : resolveProviders env resolved order = .ok engine) :
    (∀ name cfg, (name, cfg) ∈ order → ∃ provider,
      resolveProvider env name cfg = .ok provider ∧ engine.lookup name = some provider) ∧
      ∀ name, name ∉ order.map Prod.fst → engine.lookup name = resolved.lookup name := by
  induction order generalizing resolved with
  | nil =>
    cases h
    exact ⟨fun name cfg hmem => absurd hmem List.not_mem_nil, fun name _ => rfl⟩
  | cons entry rest ih =>
    obtain ⟨first, cfg⟩ := entry
    rw [List.map_cons, List.nodup_cons] at hnodup
    unfold resolveProviders at h
    split at h
    · cases h
    · rename_i provider hprovider
      obtain ⟨hrows, hframe⟩ := ih hnodup.2 h
      refine ⟨?_, ?_⟩
      · intro name cfg' hmem
        rcases List.mem_cons.mp hmem with heq | htail
        · cases heq
          refine ⟨provider, hprovider, ?_⟩
          rw [hframe first hnodup.1, HashMap.lookup_insert_cases, if_pos rfl]
        · exact hrows name cfg' htail
      · intro name hname
        rw [List.map_cons, List.mem_cons, not_or] at hname
        rw [hframe name hname.2, HashMap.lookup_insert_cases, if_neg hname.1]

section
variable {env : String → Option String} {providers : HashMap String ProviderConfig}
  {order : List (String × ProviderConfig)} {engine : ProxyEngine}

theorem ProxyEngine.new_ok (h : ProxyEngine.new env order = .ok engine) :
    resolveProviders env ∅ order = .ok engine.providers := by
  unfold ProxyEngine.new at h
  split at h
  · cases h
  · rename_i resolved hresolved
    cases h
    exact hresolved

theorem ProxyEngine.new_configured (horder : HashMap.Iterates providers order)
    (h : ProxyEngine.new env order = .ok engine) {name : String} {cfg : ProviderConfig}
    (hcfg : providers.lookup name = some cfg) :
    ∃ provider, resolveProvider env name cfg = .ok provider := by
  obtain ⟨hrows, -⟩ := resolveProviders_lookup horder.nodup_keys (ProxyEngine.new_ok h)
  obtain ⟨provider, hprovider, -⟩ := hrows name cfg (horder.mem.mpr hcfg)
  exact ⟨provider, hprovider⟩

/-- An engine has exactly the providers of its configuration, resolved. -/
theorem ProxyEngine.new_resolves (horder : HashMap.Iterates providers order)
    (h : ProxyEngine.new env order = .ok engine) (name : String) (provider : ResolvedProvider) :
    engine.providers.lookup name = some provider ↔
      ∃ cfg, providers.lookup name = some cfg ∧ resolveProvider env name cfg = .ok provider := by
  obtain ⟨hrows, hframe⟩ := resolveProviders_lookup horder.nodup_keys (ProxyEngine.new_ok h)
  constructor
  · intro hlookup
    cases hcfg : providers.lookup name with
    | some cfg =>
      obtain ⟨provider', hprovider', hlookup'⟩ := hrows name cfg (horder.mem.mpr hcfg)
      cases hlookup.symm.trans hlookup'
      exact ⟨cfg, rfl, hprovider'⟩
    | none =>
      have hout : name ∉ order.map Prod.fst := by
        intro hmem
        obtain ⟨⟨name', cfg⟩, hmem', rfl⟩ := List.mem_map.mp hmem
        cases hcfg.symm.trans (horder.mem.mp hmem')
      rw [hframe name hout] at hlookup
      cases hlookup
  · rintro ⟨cfg, hcfg, hresolved⟩
    obtain ⟨provider', hprovider', hlookup'⟩ := hrows name cfg (horder.mem.mpr hcfg)
    cases hresolved.symm.trans hprovider'
    exact hlookup'

end

end AiGateway.Core
