import AiGateway.Api.SeedKeys

/-!
# Boot and hot reload (`gateway-bin/src/main.rs:53-81`, `gateway-api/src/reload.rs:74-119`)

The engine is built at boot from the configuration of that moment; a reload
publishes a new configuration beside it ("providers … require a restart"). The
file that is read is a parameter: the parsed configuration or the error of
reading and parsing it. `env` is the environment of the process.
-/

namespace AiGateway.Api
open AiGateway.Core AiGateway.Storage AiGateway.Library AiGateway.Library.Runs

/-- What `load_from_path` finds, with the order in which the providers iterate. -/
structure ConfigFile where
  parsed : Except GatewayError AppConfig
  order : List (String × ProviderConfig)
  ordered : ∀ config, parsed = .ok config → HashMap.Iterates config.providers order

def ConfigFile.load (file : ConfigFile) : Except GatewayError AppConfig :=
  match file.parsed with
  | .error e => .error e
  | .ok config =>
    match config.validate file.order with
    | .error e => .error e
    | .ok () => .ok config

theorem ConfigFile.load_ok {file : ConfigFile} {config : AppConfig} (h : file.load = .ok config) :
    config.Validated ∧ HashMap.Iterates config.providers file.order := by
  unfold ConfigFile.load at h
  split at h
  · cases h
  · rename_i parsed hparsed
    split at h
    · cases h
    · rename_i hvalid
      cases h
      have horder := file.ordered config hparsed
      exact ⟨⟨file.order, horder, hvalid⟩, horder⟩

/-- The clock and the map orders of one call of `seed_keys::apply`. -/
structure SeedCall where
  now : ℕ → Int
  order : List (String × List String)

structure Gateway where
  config : AppConfig
  proxy : ProxyEngine
  metadata : MemoryMetadataStore

section
variable (deriveHash : String → Bytes) (defaultProjectId : String) (env : String → Option String)

/-- From the configuration to the state, as far as it concerns keys and providers; `none`
when the process exits. -/
def boot (metadata : MemoryMetadataStore) (file : ConfigFile) (call : SeedCall) :
    Option Gateway :=
  match file.load with
  | .error _ => none
  | .ok config =>
    match SeedKeys.apply deriveHash defaultProjectId env call.now call.order config.gatewayKeys
        metadata with
    | (.error _, _) => none
    | (.ok (), metadata') =>
      match ProxyEngine.new env file.order with
      | .error _ => none
      | .ok proxy => some ⟨config, proxy, metadata'⟩

/-- `providers changed`: a provider came or went, or a base URL changed. -/
def providersChanged (old new : HashMap String ProviderConfig) : Bool :=
  old.entries.card ≠ new.entries.card ||
    old.any fun k v => ((new.lookup k).map fun n => decide (n.baseUrl ≠ v.baseUrl)).getD true

def warnUnsafeChanges (old new : AppConfig) : String :=
  let warnings :=
    (if old.bind ≠ new.bind then ["server.bind changed (requires restart)"] else []) ++
    (if providersChanged old.providers new.providers then
      ["providers changed (proxy engine still uses old credentials until restart)"] else []) ++
    (if old.storageProfile ≠ new.storageProfile then
      ["storage.profile changed (requires restart)"] else [])
  ", ".intercalate warnings

/-- `try_reload`, with the warning it logs. A failed seeding is logged and the
configuration is published all the same. -/
def tryReload (file : ConfigFile) (call : SeedCall) (g : Gateway) :
    Except GatewayError String × Gateway :=
  match file.load with
  | .error e => (.error e, g)
  | .ok config =>
    (.ok (warnUnsafeChanges g.config config),
      { g with
        metadata := (SeedKeys.apply deriveHash defaultProjectId env call.now call.order
          config.gatewayKeys g.metadata).2
        config := config })

inductive GatewayEvent where
  | reload (file : ConfigFile) (call : SeedCall)
  | keys (call : KeyCall)

def gatewayStep (g : Gateway) : GatewayEvent → Option Gateway
  | .reload file call => some (tryReload deriveHash defaultProjectId env file call g).2
  | .keys call => (keyStep g.metadata call).map fun metadata => { g with metadata }

variable {deriveHash defaultProjectId env}

theorem boot_ok {metadata : MemoryMetadataStore} {file : ConfigFile} {call : SeedCall}
    {g : Gateway} (h : boot deriveHash defaultProjectId env metadata file call = some g) :
    g.config.Validated ∧ HashMap.Iterates g.config.providers file.order ∧
      ProxyEngine.new env file.order = .ok g.proxy := by
  unfold boot at h
  split at h
  · cases h
  · rename_i config hload
    obtain ⟨hvalid, horder⟩ := file.load_ok hload
    split at h
    · cases h
    · split at h
      · cases h
      · rename_i proxy hproxy
        cases h
        exact ⟨hvalid, horder, hproxy⟩

/-- No event touches the engine, and the live configuration stays a validated one. -/
theorem gatewayStep_keeps {g g' : Gateway} {event : GatewayEvent} (hvalid : g.config.Validated)
    (h : gatewayStep deriveHash defaultProjectId env g event = some g') :
    g'.proxy = g.proxy ∧ g'.config.Validated := by
  cases event with
  | reload file call =>
    cases h
    unfold tryReload
    split
    · exact ⟨rfl, hvalid⟩
    · rename_i config hload
      exact ⟨rfl, (file.load_ok hload).1⟩
  | keys call =>
    obtain ⟨metadata, -, rfl⟩ := Option.map_eq_some_iff.mp h
    exact ⟨rfl, hvalid⟩

theorem gateway_keeps_engine {g₀ g : Gateway} (hvalid : g₀.config.Validated)
    (hr : Reaches (gatewayStep deriveHash defaultProjectId env) Always g₀ g) :
    g.proxy = g₀.proxy ∧ g.config.Validated := by
  induction hr with
  | start => exact ⟨rfl, hvalid⟩
  | next event _ _ hstep ih =>
    obtain ⟨hproxy, hvalid'⟩ := gatewayStep_keeps ih.2 hstep
    exact ⟨hproxy.trans ih.1, hvalid'⟩

/-- In every state the providers of a live route are those of the configuration at boot:
one is there with its live settings exactly when it resolved to the same at boot, and a
request to it fails as unknown exactly when it was not configured at boot. -/
theorem live_providers_iff_boot {metadata : MemoryMetadataStore} {file : ConfigFile}
    {call : SeedCall} {g₀ g : Gateway}
    (hboot : boot deriveHash defaultProjectId env metadata file call = some g₀)
    (hr : Reaches (gatewayStep deriveHash defaultProjectId env) Always g₀ g)
    {route : RouteConfig} (hroute : route ∈ g.config.routes) {name : String}
    (hname : name ∈ route.names) :
    ∃ cfg, g.config.providers.lookup name = some cfg ∧
      ((∃ provider, g.proxy.providers.lookup name = some provider ∧
          resolveProvider env name cfg = .ok provider) ↔
        ∃ cfg₀, g₀.config.providers.lookup name = some cfg₀ ∧
          resolveProvider env name cfg₀ = resolveProvider env name cfg) ∧
      ∀ send req, req.provider = name →
        (g.proxy.forward send req = .error (.providerUnknown name) ↔
          g₀.config.providers.lookup name = none) := by
  obtain ⟨hvalid, horder, hnew⟩ := boot_ok hboot
  obtain ⟨hproxy, hlive⟩ := gateway_keeps_engine hvalid hr
  obtain ⟨cfg, hcfg⟩ := hlive.provider_known hroute hname
  have hall := ProxyEngine.new_resolves horder hnew
  refine ⟨cfg, hcfg, ?_, ?_⟩
  · rw [hproxy]
    constructor
    · rintro ⟨provider, hprovider, hresolved⟩
      obtain ⟨cfg₀, hcfg₀, hresolved₀⟩ := (hall name provider).mp hprovider
      exact ⟨cfg₀, hcfg₀, hresolved₀.trans hresolved.symm⟩
    · rintro ⟨cfg₀, hcfg₀, hsame⟩
      obtain ⟨provider, hresolved₀⟩ := ProxyEngine.new_configured horder hnew hcfg₀
      exact ⟨provider, (hall name provider).mpr ⟨cfg₀, hcfg₀, hresolved₀⟩,
        hsame.symm.trans hresolved₀⟩
  · intro send req hreq
    rw [forward_providerUnknown_iff, hproxy, hreq]
    constructor
    · rintro ⟨hnone, -⟩
      cases hcfg₀ : g₀.config.providers.lookup name with
      | none => rfl
      | some cfg₀ =>
        obtain ⟨provider, hresolved₀⟩ := ProxyEngine.new_configured horder hnew hcfg₀
        rw [(hall name provider).mpr ⟨cfg₀, hcfg₀, hresolved₀⟩] at hnone
        cases hnone
    · intro hnone
      refine ⟨?_, rfl⟩
      cases hlookup : g₀.proxy.providers.lookup name with
      | none => rfl
      | some provider =>
        obtain ⟨cfg₀, hcfg₀, -⟩ := (hall name provider).mp hlookup
        rw [hnone] at hcfg₀
        cases hcfg₀

end

def sampleProvider (baseUrl : String) : ProviderConfig :=
  { kind := none, baseUrl := baseUrl, credential := "token", headers := ∅ }

def sampleRoute (name : String) : RouteConfig :=
  { match_ := ⟨some "chat", none⟩
    primary := ⟨name, none, []⟩
    cache := ⟨false, 0, false⟩
    retry := {}
    fallbacks := [] }

/-- One provider and one route to it. -/
def sampleFile (name baseUrl : String) : ConfigFile where
  parsed := .ok
    { storageProfile := .memory
      providers := (∅ : HashMap String ProviderConfig).insert name (sampleProvider baseUrl)
      routes := [sampleRoute name] }
  order := [(name, sampleProvider baseUrl)]
  ordered := by
    intro config h
    cases h
    rfl

def sampleCall : SeedCall := ⟨fun _ => 0, []⟩

/-- The gateway after boot with one provider. -/
def sampleGateway : Gateway where
  config :=
    { storageProfile := .memory
      providers := (∅ : HashMap String ProviderConfig).insert "openai" (sampleProvider "https://a")
      routes := [sampleRoute "openai"] }
  proxy := ⟨(∅ : HashMap String ResolvedProvider).insert "openai"
    ⟨"https://a", "token", .openAi, ∅⟩⟩
  metadata := .empty

theorem sampleGateway_boots :
    boot asBytes "default" (fun _ => none) .empty (sampleFile "openai" "https://a") sampleCall =
      some sampleGateway := rfl

/-- The gateway after a reload of another file. -/
def sampleReloaded (name baseUrl : String) : Gateway :=
  (tryReload asBytes "default" (fun _ => none) (sampleFile name baseUrl) sampleCall
    sampleGateway).2

theorem sampleReloaded_reaches (name baseUrl : String) :
    Reaches (gatewayStep asBytes "default" fun _ => none) Always sampleGateway
      (sampleReloaded name baseUrl) :=
  .next (.reload (sampleFile name baseUrl) sampleCall) .start trivial rfl

theorem live_providers_iff_boot_sample :
    ∃ provider, (sampleReloaded "openai" "https://a").proxy.providers.lookup "openai" =
        some provider ∧
      resolveProvider (fun _ => none) "openai" (sampleProvider "https://a") = .ok provider := by
  obtain ⟨cfg, hcfg, hiff, -⟩ := live_providers_iff_boot sampleGateway_boots
    (sampleReloaded_reaches "openai" "https://a") (List.mem_singleton.mpr rfl) List.mem_cons_self
  cases hcfg
  exact hiff.mpr ⟨sampleProvider "https://a", rfl, rfl⟩

/-- A reload that brings in a provider publishes a route no request can take, and one
that moves a provider leaves the engine at the old address. -/
theorem reload_leaves_engine_behind :
    boot asBytes "default" (fun _ => none) .empty (sampleFile "openai" "https://a") sampleCall =
        some sampleGateway ∧
      (Reaches (gatewayStep asBytes "default" fun _ => none) Always sampleGateway
        (sampleReloaded "anthropic" "https://a") ∧
      sampleRoute "anthropic" ∈ (sampleReloaded "anthropic" "https://a").config.routes ∧
      (sampleReloaded "anthropic" "https://a").proxy.forward (fun _ _ => .error .timeout)
        ⟨"anthropic", "/v1/messages", none, "POST", [], none⟩ =
          .error (.providerUnknown "anthropic")) ∧
      Reaches (gatewayStep asBytes "default" fun _ => none) Always sampleGateway
        (sampleReloaded "openai" "https://b") ∧
      sampleRoute "openai" ∈ (sampleReloaded "openai" "https://b").config.routes ∧
      ((sampleReloaded "openai" "https://b").config.providers.lookup "openai").map
        ProviderConfig.baseUrl = some "https://b" ∧
      ((sampleReloaded "openai" "https://b").proxy.providers.lookup "openai").map
        ResolvedProvider.baseUrl = some "https://a" := by
  refine ⟨rfl, ⟨sampleReloaded_reaches _ _, List.mem_singleton.mpr rfl, rfl⟩, ?_⟩
  exact ⟨sampleReloaded_reaches _ _, List.mem_singleton.mpr rfl, rfl, rfl⟩

end AiGateway.Api
