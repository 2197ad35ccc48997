import AiGateway.Api.Proxy
import AiGateway.Core.Budgets
import AiGateway.Core.Engine

/-!
# The configuration (`gateway-core/src/config.rs:11-33,205-228,440-515`)

The part of `AppConfig` that validation, seeding, the proxy engine, the budgets and a
reload read. Reading the YAML text is a parameter: a parsed file is an `AppConfig` or a
parse error. `providers` is a hash map; `order` is how it iterates, and it decides
which error is reported and nothing else.
-/

namespace AiGateway.Api
open AiGateway.Core AiGateway.Library

inductive StorageProfile where
  | lite
  | standard
  | memory
  deriving DecidableEq, Repr

structure AppConfig where
  bind : String := "0.0.0.0:8080"
  storageProfile : StorageProfile
  providers : HashMap String ProviderConfig := ∅
  routes : List RouteConfig := []
  gatewayKeys : List GatewayKeyConfig := []
  budgets : List BudgetConfig := []

def validateProviders : List (String × ProviderConfig) → Except GatewayError Unit
  | [] => .ok ()
  | (name, p) :: rest =>
    if isKnownProviderKind (p.effectiveKind name) then validateProviders rest
    else .error (.badRequest ("provider '" ++ name ++ "' has unsupported kind '" ++
      p.effectiveKind name ++ "'; supported: openai, anthropic"))

def validateFallbacks (providers : HashMap String ProviderConfig) :
    List RouteTarget → Except GatewayError Unit
  | [] => .ok ()
  | fb :: rest =>
    if (providers.lookup fb.provider).isSome then validateFallbacks providers rest
    else .error (.badRequest ("fallback references unknown provider: " ++ fb.provider))

def validateRoute (providers : HashMap String ProviderConfig) (route : RouteConfig) :
    Except GatewayError Unit :=
  if route.match_.ns.getD "" = "" then
    .error (.badRequest ("route for primary.provider '" ++ route.primary.provider ++
      "' must declare match.namespace"))
  else if (providers.lookup route.primary.provider).isSome then
    validateFallbacks providers route.fallbacks
  else .error (.badRequest ("route references unknown provider: " ++ route.primary.provider))

def validateRoutes (providers : HashMap String ProviderConfig) :
    List RouteConfig → Except GatewayError Unit
  | [] => .ok ()
  | route :: rest =>
    match validateRoute providers route with
    | .error e => .error e
    | .ok () => validateRoutes providers rest

def AppConfig.validate (order : List (String × ProviderConfig)) (config : AppConfig) :
    Except GatewayError Unit :=
  match validateProviders order with
  | .error e => .error e
  | .ok () =>
    match validateRoutes config.providers config.routes with
    | .error e => .error e
    | .ok () => validateGatewayKeys [] config.gatewayKeys

/-- The configuration passes `validate`. -/
def AppConfig.Validated (config : AppConfig) : Prop :=
  ∃ order, HashMap.Iterates config.providers order ∧ config.validate order = .ok ()

/-- The providers a route can send a request to. -/
def RouteConfig.names (route : RouteConfig) : List String :=
  route.primary.provider :: route.fallbacks.map RouteTarget.provider

theorem validateFallbacks_known {providers : HashMap String ProviderConfig}
    {fallbacks : List RouteTarget} (h : validateFallbacks providers fallbacks = .ok ())
    {name : String} (hmem : name ∈ fallbacks.map RouteTarget.provider) :
    (providers.lookup name).isSome = true := by
  induction fallbacks with
  | nil => cases hmem
  | cons fb rest ih =>
    unfold validateFallbacks at h
    split at h
    · rename_i hknown
      rcases List.mem_cons.mp hmem with heq | htail
      · rw [heq]
        exact hknown
      · exact ih h htail
    · cases h

theorem validateRoute_known {providers : HashMap String ProviderConfig} {route : RouteConfig}
    (h : validateRoute providers route = .ok ()) {name : String} (hmem : name ∈ route.names) :
    (providers.lookup name).isSome = true := by
  unfold validateRoute at h
  split at h
  · cases h
  · split at h
    · rename_i hprimary
      rcases List.mem_cons.mp hmem with heq | htail
      · rw [heq]
        exact hprimary
      · exact validateFallbacks_known h htail
    · cases h

theorem validateRoutes_known {providers : HashMap String ProviderConfig}
    {routes : List RouteConfig} (h : validateRoutes providers routes = .ok ())
    {route : RouteConfig} (hroute : route ∈ routes) {name : String} (hmem : name ∈ route.names) :
    (providers.lookup name).isSome = true := by
  induction routes with
  | nil => cases hroute
  | cons r rest ih =>
    unfold validateRoutes at h
    split at h
    · cases h
    · rename_i hr
      rcases List.mem_cons.mp hroute with heq | htail
      · rw [heq] at hmem
        exact validateRoute_known hr hmem
      · exact ih h htail

theorem AppConfig.validate_ok {order : List (String × ProviderConfig)} {config : AppConfig}
    (h : config.validate order = .ok ()) :
    validateProviders order = .ok () ∧ validateRoutes config.providers config.routes = .ok () ∧
      validateGatewayKeys [] config.gatewayKeys = .ok () := by
  unfold AppConfig.validate at h
  split at h
  · cases h
  · rename_i hp
    split at h
    · cases h
    · rename_i hr
      exact ⟨hp, hr, h⟩

/-- A declared id is unique in its list. -/
theorem AppConfig.Validated.ids_nodup {config : AppConfig} (h : config.Validated) :
    (config.gatewayKeys.map GatewayKeyConfig.id).Nodup := by
  obtain ⟨order, -, hok⟩ := h
  exact (validateGatewayKeys_ids (AppConfig.validate_ok hok).2.2).1

/-- Every provider a route names is configured. -/
theorem AppConfig.Validated.provider_known {config : AppConfig} (h : config.Validated)
    {route : RouteConfig} (hroute : route ∈ config.routes) {name : String}
    (hmem : name ∈ route.names) : ∃ p, config.providers.lookup name = some p := by
  obtain ⟨order, -, hok⟩ := h
  exact Option.isSome_iff_exists.mp
    (validateRoutes_known (AppConfig.validate_ok hok).2.1 hroute hmem)

end AiGateway.Api
