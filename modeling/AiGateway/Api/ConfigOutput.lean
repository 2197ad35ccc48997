import AiGateway.Api.AdminAuth
import AiGateway.Api.Config
import Mathlib.Data.Finset.Sort

/-!
# What shows of the configuration (`gateway-core/src/config.rs`, `routes/admin/routes_cfg.rs`)

The whole `AppConfig` with the JSON that `GET /admin/routes` makes of it (derived
`Serialize`) and its `{:?}` rendering (derived `Debug`, and the written one of
`GatewayKeyConfig`). The order in which maps come out depends on their keys alone; the texts
of floats and of characters beyond ASCII are parameters.
-/

namespace AiGateway.Api.ConfigOutput
open AiGateway.Core AiGateway.Library

/-! ### The configuration tree (`config.rs:11-31,35-40,63-161,300-325,400-425`) -/

structure ServerConfig where
  bind : String
  requestTimeoutMs : UInt64
  defaultProjectId : String

structure SqliteConfig where
  path : String
  maxSizeMb : UInt64
  logRetentionDays : UInt32

structure PostgresConfig where
  url : String
  maxConnections : UInt32

structure RedisConfig where
  url : String

structure CacheConfig where
  l1MemoryMb : UInt64
  l2MaxSizeMb : UInt64

inductive StorageConfig where
  | lite (sqlite : SqliteConfig) (cache : CacheConfig)
  | standard (postgres : PostgresConfig) (redis : RedisConfig) (cache : CacheConfig)
  | memory (cache : CacheConfig)

structure TracingConfig where
  enabled : Bool
  format : String
  otlpEndpoint : Option String

structure ObservabilityConfig where
  metrics : Bool
  tracing : TracingConfig

structure AppConfig where
  server : ServerConfig
  storage : StorageConfig
  admin : AdminConfig
  providers : HashMap String ProviderConfig
  routes : List RouteConfig
  limits : List LimitConfig
  budgets : List BudgetConfig
  observability : ObservabilityConfig
  gatewayKeys : List GatewayKeyConfig

/-- The order of maps, and what the two formats write for a float and for a character that is
not printable ASCII. -/
structure Format where
  order : HashMap.KeyOrder String
  floatJson : ℚ → Value
  floatDebug : ℚ → List Char
  charDebug : Char → List Char

/-! ### JSON -/

section Json
variable (fmt : Format)

def uintJson (n : UInt64) : Value := .number (.posInt n)

def optionJson {α : Type} (json : α → Value) (o : Option α) : Value := o.elim .null json

def stringsJson (ss : List String) : Value := .array (ss.map .string)

def ServerConfig.toJson (s : ServerConfig) : Value :=
  .object [("bind", .string s.bind), ("request_timeout_ms", uintJson s.requestTimeoutMs),
    ("default_project_id", .string s.defaultProjectId)]

def SqliteConfig.toJson (s : SqliteConfig) : Value :=
  .object [("path", .string s.path), ("max_size_mb", uintJson s.maxSizeMb),
    ("log_retention_days", uintJson s.logRetentionDays.toUInt64)]

def PostgresConfig.toJson (p : PostgresConfig) : Value :=
  .object [("url", .string p.url), ("max_connections", uintJson p.maxConnections.toUInt64)]

def RedisConfig.toJson (r : RedisConfig) : Value := .object [("url", .string r.url)]

def CacheConfig.toJson (c : CacheConfig) : Value :=
  .object [("l1_memory_mb", uintJson c.l1MemoryMb), ("l2_max_size_mb", uintJson c.l2MaxSizeMb)]

def StorageConfig.toJson : StorageConfig → Value
  | .lite sqlite cache =>
    .object [("profile", .string "lite"), ("sqlite", sqlite.toJson), ("cache", cache.toJson)]
  | .standard postgres redis cache =>
    .object [("profile", .string "standard"), ("postgres", postgres.toJson),
      ("redis", redis.toJson), ("cache", cache.toJson)]
  | .memory cache => .object [("profile", .string "memory"), ("cache", cache.toJson)]

def adminJson (a : AdminConfig) : Value :=
  .object [("root_token", .string a.rootToken), ("password_login", .bool a.passwordLogin)]

def providerJson (p : ProviderConfig) : Value :=
  .object [("kind", optionJson .string p.kind), ("base_url", .string p.baseUrl),
    ("credential", .string p.credential),
    ("headers", .object ((fmt.order.entries p.headers).map fun h => (h.1, .string h.2)))]

def targetJson (t : RouteTarget) : Value :=
  .object [("provider", .string t.provider), ("model", optionJson .string t.model),
    ("trigger", stringsJson t.trigger)]

def routeJson (r : RouteConfig) : Value :=
  .object [("match", .object [("namespace", optionJson .string r.match_.ns),
      ("model_prefix", optionJson .string r.match_.modelPrefix)]),
    ("primary", targetJson r.primary),
    ("cache", .object [("enabled", .bool r.cache.enabled), ("ttl", uintJson r.cache.ttl),
      ("allow_nondeterministic", .bool r.cache.allowNondeterministic)]),
    ("retry", .object [("max_attempts", uintJson r.retry.maxAttempts.toUInt64),
      ("initial_backoff_ms", uintJson r.retry.initialBackoffMs)]),
    ("fallbacks", .array (r.fallbacks.map targetJson))]

def limitJson (l : LimitConfig) : Value :=
  .object [("target", .object [("type", .string l.target.kind),
      ("id", optionJson .string l.target.id), ("key", optionJson .string l.target.key)]),
    ("rpm", optionJson uintJson l.rpm), ("tpm", optionJson uintJson l.tpm),
    ("concurrency", optionJson (fun n => uintJson n.toUInt64) l.concurrency)]

def budgetJson (b : BudgetConfig) : Value :=
  .object [("name", .string b.name),
    ("target", .object [("project_id", optionJson .string b.target.projectId),
      ("gateway_key_id", optionJson .string b.target.gatewayKeyId)]),
    ("period", .string b.period), ("amount_usd", fmt.floatJson b.amountUsd),
    ("thresholds", .array (b.thresholds.map fun t =>
      .object [("at", fmt.floatJson t.at_), ("action", .string t.action),
        ("webhook", optionJson .string t.webhook)]))]

def ObservabilityConfig.toJson (o : ObservabilityConfig) : Value :=
  .object [("metrics", .bool o.metrics),
    ("tracing", .object [("enabled", .bool o.tracing.enabled), ("format", .string o.tracing.format),
      ("otlp_endpoint", optionJson .string o.tracing.otlpEndpoint)])]

/-- `Serialize` of a key is the derived one. -/
def keyJson (k : GatewayKeyConfig) : Value :=
  .object [("id", .string k.id), ("name", .string k.name),
    ("project_id", optionJson .string k.projectId), ("secret", .string k.secret),
    ("scopes", stringsJson k.scopes)]

def AppConfig.toJson (c : AppConfig) : Value :=
  .object [("server", c.server.toJson), ("storage", c.storage.toJson),
    ("admin", adminJson c.admin),
    ("providers",
      .object ((fmt.order.entries c.providers).map fun p => (p.1, providerJson fmt p.2))),
    ("routes", .array (c.routes.map routeJson)), ("limits", .array (c.limits.map limitJson)),
    ("budgets", .array (c.budgets.map (budgetJson fmt))),
    ("observability", c.observability.toJson),
    ("gateway_keys", .array (c.gatewayKeys.map keyJson))]

/-- `GET /admin/routes`. -/
def getRoutes (principal : Except ApiError AdminPrincipal) (config : AppConfig) :
    Except ApiError Value :=
  principal.map fun _ => config.toJson fmt

end Json

/-! ### `{:?}` -/

section Debug
variable (fmt : Format)

def escapeDebug (c : Char) : List Char :=
  if c = '"' then ['\\', '"']
  else if c = '\\' then ['\\', '\\']
  else if c = '\n' then ['\\', 'n']
  else if c = '\r' then ['\\', 'r']
  else if c = '\t' then ['\\', 't']
  else if 32 ≤ c.toNat ∧ c.toNat < 127 then [c]
  else fmt.charDebug c

def debugStr (s : String) : List Char := '"' :: (s.toList.flatMap (escapeDebug fmt) ++ ['"'])

def commaSep : List (List Char) → List Char
  | [] => []
  | [x] => x
  | x :: y :: rest => x ++ [',', ' '] ++ commaSep (y :: rest)

def debugField (field : String × List Char) : List Char :=
  field.1.toList ++ [':', ' '] ++ field.2

/-- `debug_struct`, with at least one field. -/
def debugStruct (name : String) (fields : List (String × List Char)) : List Char :=
  name.toList ++ [' ', '\x7b', ' '] ++ commaSep (fields.map debugField) ++ [' ', '\x7d']

def debugList (items : List (List Char)) : List Char := ['['] ++ commaSep items ++ [']']

def debugMap (entries : List (List Char × List Char)) : List Char :=
  ['\x7b'] ++ commaSep (entries.map fun e => e.1 ++ [':', ' '] ++ e.2) ++ ['\x7d']

def debugOption {α : Type} (debug : α → List Char) (o : Option α) : List Char :=
  o.elim "None".toList fun a => "Some(".toList ++ debug a ++ [')']

def debugBool (b : Bool) : List Char := if b then "true".toList else "false".toList

def debugNat (n : ℕ) : List Char := (toString n).toList

def debugStrs (ss : List String) : List Char := debugList (ss.map (debugStr fmt))

def ServerConfig.debug (s : ServerConfig) : List Char :=
  debugStruct "ServerConfig" [("bind", debugStr fmt s.bind),
    ("request_timeout_ms", debugNat s.requestTimeoutMs.toNat),
    ("default_project_id", debugStr fmt s.defaultProjectId)]

def SqliteConfig.debug (s : SqliteConfig) : List Char :=
  debugStruct "SqliteConfig" [("path", debugStr fmt s.path),
    ("max_size_mb", debugNat s.maxSizeMb.toNat),
    ("log_retention_days", debugNat s.logRetentionDays.toNat)]

def PostgresConfig.debug (p : PostgresConfig) : List Char :=
  debugStruct "PostgresConfig" [("url", debugStr fmt p.url),
    ("max_connections", debugNat p.maxConnections.toNat)]

def RedisConfig.debug (r : RedisConfig) : List Char :=
  debugStruct "RedisConfig" [("url", debugStr fmt r.url)]

def CacheConfig.debug (c : CacheConfig) : List Char :=
  debugStruct "CacheConfig" [("l1_memory_mb", debugNat c.l1MemoryMb.toNat),
    ("l2_max_size_mb", debugNat c.l2MaxSizeMb.toNat)]

def StorageConfig.debug : StorageConfig → List Char
  | .lite sqlite cache => debugStruct "Lite" [("sqlite", sqlite.debug fmt), ("cache", cache.debug)]
  | .standard postgres redis cache =>
    debugStruct "Standard" [("postgres", postgres.debug fmt), ("redis", redis.debug fmt),
      ("cache", cache.debug)]
  | .memory cache => debugStruct "Memory" [("cache", cache.debug)]

def adminDebug (a : AdminConfig) : List Char :=
  debugStruct "AdminConfig" [("root_token", debugStr fmt a.rootToken),
    ("password_login", debugBool a.passwordLogin)]

def providerDebug (p : ProviderConfig) : List Char :=
  debugStruct "ProviderConfig" [("kind", debugOption (debugStr fmt) p.kind),
    ("base_url", debugStr fmt p.baseUrl), ("credential", debugStr fmt p.credential),
    ("headers", debugMap ((fmt.order.entries p.headers).map fun h =>
      (debugStr fmt h.1, debugStr fmt h.2)))]

def targetDebug (t : RouteTarget) : List Char :=
  debugStruct "RouteTarget" [("provider", debugStr fmt t.provider),
    ("model", debugOption (debugStr fmt) t.model), ("trigger", debugStrs fmt t.trigger)]

def routeDebug (r : RouteConfig) : List Char :=
  debugStruct "RouteConfig"
    [("match_", debugStruct "RouteMatch" [("namespace", debugOption (debugStr fmt) r.match_.ns),
        ("model_prefix", debugOption (debugStr fmt) r.match_.modelPrefix)]),
      ("primary", targetDebug fmt r.primary),
      ("cache", debugStruct "RouteCacheConfig" [("enabled", debugBool r.cache.enabled),
        ("ttl", debugNat r.cache.ttl.toNat),
        ("allow_nondeterministic", debugBool r.cache.allowNondeterministic)]),
      ("retry", debugStruct "RouteRetryConfig"
        [("max_attempts", debugNat r.retry.maxAttempts.toNat),
          ("initial_backoff_ms", debugNat r.retry.initialBackoffMs.toNat)]),
      ("fallbacks", debugList (r.fallbacks.map (targetDebug fmt)))]

def limitDebug (l : LimitConfig) : List Char :=
  debugStruct "LimitConfig"
    [("target", debugStruct "LimitTarget" [("kind", debugStr fmt l.target.kind),
        ("id", debugOption (debugStr fmt) l.target.id),
        ("key", debugOption (debugStr fmt) l.target.key)]),
      ("rpm", debugOption (fun n => debugNat n.toNat) l.rpm),
      ("tpm", debugOption (fun n => debugNat n.toNat) l.tpm),
      ("concurrency", debugOption (fun n => debugNat n.toNat) l.concurrency)]

def budgetDebug (b : BudgetConfig) : List Char :=
  debugStruct "BudgetConfig" [("name", debugStr fmt b.name),
    ("target", debugStruct "BudgetTarget"
      [("project_id", debugOption (debugStr fmt) b.target.projectId),
        ("gateway_key_id", debugOption (debugStr fmt) b.target.gatewayKeyId)]),
    ("period", debugStr fmt b.period), ("amount_usd", fmt.floatDebug b.amountUsd),
    ("thresholds", debugList (b.thresholds.map fun t =>
      debugStruct "BudgetThreshold" [("at", fmt.floatDebug t.at_),
        ("action", debugStr fmt t.action), ("webhook", debugOption (debugStr fmt) t.webhook)]))]

def ObservabilityConfig.debug (o : ObservabilityConfig) : List Char :=
  debugStruct "ObservabilityConfig" [("metrics", debugBool o.metrics),
    ("tracing", debugStruct "TracingConfig" [("enabled", debugBool o.tracing.enabled),
      ("format", debugStr fmt o.tracing.format),
      ("otlp_endpoint", debugOption (debugStr fmt) o.tracing.otlpEndpoint)])]

def isEnvReference (s : String) : Bool := "env://".toList.isPrefixOf s.toList

/-- The written `Debug` keeps an inline secret out. -/
def keyDebug (k : GatewayKeyConfig) : List Char :=
  let secretRepr := if isEnvReference k.secret then k.secret else "<redacted>"
  debugStruct "GatewayKeyConfig" [("id", debugStr fmt k.id), ("name", debugStr fmt k.name),
    ("project_id", debugOption (debugStr fmt) k.projectId), ("secret", debugStr fmt secretRepr),
    ("scopes", debugStrs fmt k.scopes)]

def AppConfig.debug (c : AppConfig) : List Char :=
  debugStruct "AppConfig" [("server", c.server.debug fmt), ("storage", c.storage.debug fmt),
    ("admin", adminDebug fmt c.admin),
    ("providers", debugMap ((fmt.order.entries c.providers).map fun p =>
      (debugStr fmt p.1, providerDebug fmt p.2))),
    ("routes", debugList (c.routes.map (routeDebug fmt))),
    ("limits", debugList (c.limits.map (limitDebug fmt))),
    ("budgets", debugList (c.budgets.map (budgetDebug fmt))),
    ("observability", c.observability.debug fmt),
    ("gateway_keys", debugList (c.gatewayKeys.map (keyDebug fmt)))]

end Debug

/-! ### Configurations that differ in their inline secrets -/

def InlineSecret (s : String) : Prop := s ≠ "" ∧ isEnvReference s = false

instance (s : String) : Decidable (InlineSecret s) := by unfold InlineSecret; infer_instance

def SameOrInline (s s' : String) : Prop := s' = s ∨ InlineSecret s ∧ InlineSecret s'

structure SameKey (k k' : GatewayKeyConfig) : Prop where
  rest : k' = { k with secret := k'.secret }
  secret : SameOrInline k.secret k'.secret

structure SameProvider (p p' : ProviderConfig) : Prop where
  rest : p' = { p with credential := p'.credential }
  credential : SameOrInline p.credential p'.credential

/-- Only the values of inline secrets may differ. -/
structure SameButInline (c c' : AppConfig) : Prop where
  rest : c' = { c with
    admin := c'.admin, providers := c'.providers, gatewayKeys := c'.gatewayKeys }
  passwordLogin : c'.admin.passwordLogin = c.admin.passwordLogin
  rootToken : SameOrInline c.admin.rootToken c'.admin.rootToken
  providers : ∀ name, Option.Rel SameProvider (c.providers.lookup name) (c'.providers.lookup name)
  gatewayKeys : List.Forall₂ SameKey c.gatewayKeys c'.gatewayKeys

/-- Root token and credentials are empty or references to the environment. -/
def NoInlineCredentials (c : AppConfig) : Prop :=
  ¬InlineSecret c.admin.rootToken ∧
    ∀ name p, c.providers.lookup name = some p → ¬InlineSecret p.credential

def NoInlineSecrets (c : AppConfig) : Prop :=
  NoInlineCredentials c ∧ ∀ k ∈ c.gatewayKeys, ¬InlineSecret k.secret

theorem SameOrInline.eq {s s' : String} (h : SameOrInline s s') (hs : ¬InlineSecret s) : s' = s :=
  h.resolve_right fun hboth => hs hboth.1

/-- Another inline secret in the place of an inline one. -/
def longer (s : String) : String := if InlineSecret s then "x" ++ s else s

theorem inlineSecret_x (s : String) : InlineSecret ("x" ++ s) := by
  constructor
  · intro h
    have hlen := congrArg String.length h
    rw [String.length_append] at hlen
    cases Nat.eq_zero_of_add_eq_zero_right hlen
  · unfold isEnvReference
    rw [String.toList_append]
    rfl

theorem sameOrInline_longer (s : String) : SameOrInline s (longer s) := by
  unfold longer
  split
  · rename_i hinline
    exact Or.inr ⟨hinline, inlineSecret_x s⟩
  · exact Or.inl rfl

theorem longer_eq_self {s : String} (h : longer s = s) : ¬InlineSecret s := by
  intro hinline
  unfold longer at h
  rw [if_pos hinline] at h
  have hlen := congrArg String.length h
  rw [String.length_append] at hlen
  have hone : "x".length = 1 := rfl
  omega

def longerProvider (p : ProviderConfig) : ProviderConfig :=
  { p with credential := longer p.credential }

def longerKey (k : GatewayKeyConfig) : GatewayKeyConfig := { k with secret := longer k.secret }

def AppConfig.longer (c : AppConfig) : AppConfig :=
  { c with
    admin := { c.admin with rootToken := ConfigOutput.longer c.admin.rootToken }
    providers := HashMap.mapValues longerProvider c.providers
    gatewayKeys := c.gatewayKeys.map longerKey }

theorem sameButInline_longer (c : AppConfig) : SameButInline c c.longer where
  rest := rfl
  passwordLogin := rfl
  rootToken := sameOrInline_longer c.admin.rootToken
  providers := by
    intro name
    show Option.Rel SameProvider _ ((HashMap.mapValues longerProvider c.providers).lookup name)
    rw [HashMap.lookup_mapValues]
    cases c.providers.lookup name with
    | none => exact .none
    | some p => exact .some ⟨rfl, sameOrInline_longer p.credential⟩
  gatewayKeys := by
    refine List.forall₂_map_right_iff.mpr (List.forall₂_same.mpr fun k _ => ?_)
    exact ⟨rfl, sameOrInline_longer k.secret⟩

theorem SameButInline.admin_eq {c c' : AppConfig} (h : SameButInline c c')
    (hnone : NoInlineCredentials c) : c'.admin = c.admin := by
  have hroot := h.rootToken.eq hnone.1
  have hlogin := h.passwordLogin
  revert hroot hlogin
  generalize c'.admin = a'
  generalize c.admin = a
  intro hroot hlogin
  cases a
  cases a'
  cases hroot
  cases hlogin
  rfl

theorem SameButInline.providers_eq {c c' : AppConfig} (h : SameButInline c c')
    (hnone : NoInlineCredentials c) : c'.providers = c.providers := by
  refine Finmap.ext_lookup fun name => ?_
  have hrel := h.providers name
  cases hp : c.providers.lookup name with
  | none =>
    rw [hp] at hrel
    cases hp' : c'.providers.lookup name with
    | none => rfl
    | some p' =>
      rw [hp'] at hrel
      cases hrel
  | some p =>
    rw [hp] at hrel
    cases hp' : c'.providers.lookup name with
    | none =>
      rw [hp'] at hrel
      cases hrel
    | some p' =>
      rw [hp'] at hrel
      cases hrel with
      | some hsame =>
        rw [hsame.rest, hsame.credential.eq (hnone.2 name p hp)]

theorem SameButInline.eq {c c' : AppConfig} (h : SameButInline c c') (hnone : NoInlineSecrets c) :
    c' = c := by
  have hkeys : c'.gatewayKeys = c.gatewayKeys := by
    have hsame := h.gatewayKeys
    have hsecret := hnone.2
    revert hsame hsecret
    generalize c'.gatewayKeys = ks'
    generalize c.gatewayKeys = ks
    intro hsame
    induction hsame with
    | nil => exact fun _ => rfl
    | @cons k k' ks ks' hk _ ih =>
      intro hsecret
      have hk' : k' = k := by
        rw [hk.rest, hk.secret.eq (hsecret k (List.mem_cons_self ..))]
      rw [hk', ih fun k₁ hmem => hsecret k₁ (List.mem_cons_of_mem _ hmem)]
  rw [h.rest, h.admin_eq hnone.1, h.providers_eq hnone.1, hkeys]

/-! ### The JSON shows every secret -/

section
variable (fmt : Format)

theorem providerJson_longer {p : ProviderConfig}
    (h : providerJson fmt (longerProvider p) = providerJson fmt p) : ¬InlineSecret p.credential := by
  simp only [providerJson, Value.object.injEq, List.cons.injEq, Prod.mk.injEq, true_and, and_true,
    Value.string.injEq] at h
  exact longer_eq_self h.2.2.1

theorem keyJson_longer {k : GatewayKeyConfig} (h : keyJson (longerKey k) = keyJson k) :
    ¬InlineSecret k.secret := by
  simp only [keyJson, Value.object.injEq, List.cons.injEq, Prod.mk.injEq, true_and, and_true,
    Value.string.injEq] at h
  exact longer_eq_self h.2.2.2.1

theorem toJson_longer {c : AppConfig} (h : c.longer.toJson fmt = c.toJson fmt) :
    NoInlineSecrets c := by
  simp only [AppConfig.toJson, Value.object.injEq, List.cons.injEq, Prod.mk.injEq, true_and,
    and_true, Value.array.injEq] at h
  obtain ⟨-, -, hadmin, hproviders, -, -, -, -, hkeys⟩ := h
  refine ⟨⟨?_, ?_⟩, ?_⟩
  · simp only [adminJson, Value.object.injEq, List.cons.injEq, Prod.mk.injEq, true_and, and_true,
      Value.string.injEq] at hadmin
    exact longer_eq_self hadmin.1
  · intro name p hp
    simp only [AppConfig.longer, HashMap.KeyOrder.entries_mapValues, List.map_map] at hproviders
    have hentry := List.map_inj_left.mp hproviders (name, p) (fmt.order.mem_entries.mpr hp)
    exact providerJson_longer fmt (congrArg Prod.snd hentry)
  · intro k hk
    simp only [AppConfig.longer, List.map_map] at hkeys
    exact keyJson_longer (List.map_inj_left.mp hkeys k hk)

/-! ### `{:?}` shows all but the keys -/

theorem debugStr_longer (s : String) :
    (debugStr fmt (longer s)).length =
      (debugStr fmt s).length + (if InlineSecret s then 1 else 0) := by
  unfold longer
  split
  · have hx : ("x" ++ s).toList = 'x' :: s.toList := by
      rw [String.toList_append]
      rfl
    unfold debugStr
    rw [hx, List.flatMap_cons]
    simp only [List.length_cons, List.length_append]
    have hone : (escapeDebug fmt 'x').length = 1 := rfl
    omega
  · rfl

/-- Items that are none shorter make a list that is not shorter, and a longer one unless they
are all as long as before. -/
theorem commaSep_length_le {α : Type} {f g : α → List Char} (l : List α)
    (hle : ∀ a ∈ l, (f a).length ≤ (g a).length) :
    (commaSep (l.map f)).length ≤ (commaSep (l.map g)).length ∧
      ((commaSep (l.map g)).length = (commaSep (l.map f)).length →
        ∀ a ∈ l, (g a).length = (f a).length) := by
  induction l with
  | nil => exact ⟨Nat.le_refl 0, fun _ a ha => absurd ha List.not_mem_nil⟩
  | cons a rest ih =>
    have ha := hle a (List.mem_cons_self ..)
    obtain ⟨hrest, heq⟩ := ih fun b hb => hle b (List.mem_cons_of_mem _ hb)
    cases rest with
    | nil =>
      refine ⟨ha, fun h b hb => ?_⟩
      rw [List.mem_singleton.mp hb]
      exact h
    | cons b tail =>
      have hlen : ∀ f : α → List Char, (commaSep ((a :: b :: tail).map f)).length =
          (f a).length + 2 + (commaSep ((b :: tail).map f)).length := by
        intro f
        simp only [List.map_cons, commaSep, List.length_append, List.length_cons, List.length_nil]
      rw [hlen f, hlen g]
      refine ⟨by omega, fun h a' ha' => ?_⟩
      rcases List.mem_cons.mp ha' with rfl | htail
      · omega
      · exact heq (by omega) a' htail

theorem providerDebug_longer (p : ProviderConfig) :
    (providerDebug fmt (longerProvider p)).length =
      (providerDebug fmt p).length + (if InlineSecret p.credential then 1 else 0) := by
  have hcredential := debugStr_longer fmt p.credential
  simp only [providerDebug, longerProvider, debugStruct, List.map_cons, List.map_nil, commaSep,
    debugField, List.length_append]
  omega

theorem adminDebug_longer (a : AdminConfig) :
    (adminDebug fmt { a with rootToken := longer a.rootToken }).length =
      (adminDebug fmt a).length + (if InlineSecret a.rootToken then 1 else 0) := by
  have hroot := debugStr_longer fmt a.rootToken
  simp only [adminDebug, debugStruct, List.map_cons, List.map_nil, commaSep, debugField,
    List.length_append]
  omega

/-- An inline secret of a key is written as the same text as any other. -/
theorem keyDebug_same {k k' : GatewayKeyConfig} (h : SameKey k k') :
    keyDebug fmt k' = keyDebug fmt k := by
  rw [h.rest]
  unfold keyDebug
  rcases h.secret with heq | ⟨hk, hk'⟩
  · simp only [heq]
  · simp only [hk.2, hk'.2, Bool.false_eq_true, if_false]

theorem map_keyDebug_same {ks ks' : List GatewayKeyConfig} (h : List.Forall₂ SameKey ks ks') :
    ks'.map (keyDebug fmt) = ks.map (keyDebug fmt) := by
  induction h with
  | nil => rfl
  | cons hk _ ih => rw [List.map_cons, List.map_cons, keyDebug_same fmt hk, ih]

theorem debug_longer {c : AppConfig} (h : c.longer.debug fmt = c.debug fmt) :
    NoInlineCredentials c := by
  have hlen := congrArg List.length h
  have hkeys : (c.gatewayKeys.map longerKey).map (keyDebug fmt) =
      c.gatewayKeys.map (keyDebug fmt) :=
    map_keyDebug_same fmt (sameButInline_longer c).gatewayKeys
  have hadmin := adminDebug_longer fmt c.admin
  -- the providers in order, before and after
  have hentry : ∀ e : String × ProviderConfig,
      (debugStr fmt e.1 ++ [':', ' '] ++ providerDebug fmt (longerProvider e.2)).length =
        (debugStr fmt e.1 ++ [':', ' '] ++ providerDebug fmt e.2).length +
          (if InlineSecret e.2.credential then 1 else 0) := by
    intro e
    rw [List.length_append, List.length_append, List.length_append, List.length_append,
      providerDebug_longer, Nat.add_assoc, Nat.add_assoc, Nat.add_assoc]
  obtain ⟨hle, hall⟩ := commaSep_length_le (fmt.order.entries c.providers)
    (f := fun e => debugStr fmt e.1 ++ [':', ' '] ++ providerDebug fmt e.2)
    (g := fun e => debugStr fmt e.1 ++ [':', ' '] ++ providerDebug fmt (longerProvider e.2))
    fun e _ => by
      rw [hentry e]
      exact Nat.le_add_right _ _
  simp only [AppConfig.debug, AppConfig.longer, debugStruct, List.map_cons, List.map_nil, commaSep,
    debugField, debugMap, List.length_append, HashMap.KeyOrder.entries_mapValues, List.map_map,
    Function.comp_def, hadmin] at hlen hle hall
  rw [List.map_map, Function.comp_def] at hkeys
  rw [hkeys] at hlen
  constructor
  · intro hroot
    rw [if_pos hroot] at hlen
    omega
  · intro name p hp hinline
    have hsame : ∀ e ∈ fmt.order.entries c.providers, ¬InlineSecret e.2.credential := by
      intro e he hinline
      have hsame := hall (by omega) e he
      have hgrown := hentry e
      rw [if_pos hinline] at hgrown
      simp only [List.length_append] at hgrown
      omega
    exact hsame (name, p) (fmt.order.mem_entries.mpr hp) hinline

theorem debug_same {c c' : AppConfig} (h : SameButInline c c') (hnone : NoInlineCredentials c) :
    c'.debug fmt = c.debug fmt := by
  rw [h.rest]
  unfold AppConfig.debug
  simp only [h.admin_eq hnone, h.providers_eq hnone, map_keyDebug_same fmt h.gatewayKeys]

/-- Both outputs are independent of the inline secrets of a configuration exactly when it has
none; `{:?}` by itself is as soon as root token and credentials are not inline. -/
theorem output_independent_iff (principal : AdminPrincipal) (c : AppConfig) :
    ((∀ c', SameButInline c c' →
        getRoutes fmt (.ok principal) c' = getRoutes fmt (.ok principal) c ∧
          c'.debug fmt = c.debug fmt) ↔ NoInlineSecrets c) ∧
      ((∀ c', SameButInline c c' → c'.debug fmt = c.debug fmt) ↔ NoInlineCredentials c) := by
  refine ⟨⟨fun h => ?_, fun hnone c' hsame => ?_⟩, ⟨fun h => ?_, fun hnone c' hsame => ?_⟩⟩
  · have hjson := (h c.longer (sameButInline_longer c)).1
    exact toJson_longer fmt (Except.ok.inj hjson)
  · rw [hsame.eq hnone]
    exact ⟨rfl, rfl⟩
  · exact debug_longer fmt (h c.longer (sameButInline_longer c))
  · exact debug_same fmt hsame hnone

end

/-- Maps by key; floats and other characters as a question mark. -/
def plainFormat : Format where
  order := ⟨fun ks => ks.sort (· ≤ ·), fun ks => ks.sort_nodup (· ≤ ·),
    fun _ _ => Finset.mem_sort (· ≤ ·)⟩
  floatJson := fun _ => .null
  floatDebug := fun _ => ['?']
  charDebug := fun _ => ['?']

def withSecrets (rootToken credential secret : String) : AppConfig where
  server := ⟨"127.0.0.1:8080", 60000, "default"⟩
  storage := .memory ⟨64, 256⟩
  admin := ⟨rootToken, false⟩
  providers := Finmap.singleton "openai" ⟨none, "https://api.openai.com", credential, ∅⟩
  routes := []
  limits := []
  budgets := []
  observability := ⟨true, ⟨true, "json", none⟩⟩
  gatewayKeys := [⟨"app", "app", none, secret, []⟩]

theorem output_shows_secrets :
    SameButInline (withSecrets "root-1" "sk-1" "sk-gw-live-1")
        (withSecrets "root-2" "sk-2" "sk-gw-live-2") ∧
      getRoutes plainFormat (.ok .root) (withSecrets "root-2" "sk-2" "sk-gw-live-2") ≠
        getRoutes plainFormat (.ok .root) (withSecrets "root-1" "sk-1" "sk-gw-live-1") ∧
      (withSecrets "root-2" "sk-2" "sk-gw-live-2").debug plainFormat ≠
        (withSecrets "root-1" "sk-1" "sk-gw-live-1").debug plainFormat := by
  refine ⟨⟨rfl, rfl, Or.inr ⟨by decide, by decide⟩, fun name => ?_, ?_⟩, ?_, ?_⟩
  · by_cases hname : name = "openai"
    · rw [hname]
      exact .some ⟨rfl, Or.inr ⟨by decide, by decide⟩⟩
    · have hnone : ∀ p : ProviderConfig,
          Finmap.lookup name (Finmap.singleton (β := fun _ => ProviderConfig) "openai" p) = none :=
        fun p => Finmap.lookup_eq_none.mpr (mt (Finmap.mem_singleton _ _ _).mp hname)
      unfold withSecrets
      simp only [hnone]
      exact .none
  · exact .cons ⟨rfl, Or.inr ⟨by decide, by decide⟩⟩ .nil
  · intro h
    simp only [getRoutes, Except.map, Except.ok.injEq, AppConfig.toJson, Value.object.injEq,
      List.cons.injEq, Prod.mk.injEq, true_and, and_true, adminJson, Value.string.injEq,
      withSecrets] at h
    exact absurd h.1 (by decide)
  · decide +kernel

end AiGateway.Api.ConfigOutput
