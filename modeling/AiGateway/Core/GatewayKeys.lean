import AiGateway.Core.CachePolicy

/-!
# Gateway keys in the configuration (`config.rs:354-380,477-515`, `security/gateway_key.rs`)

The declared `gateway_keys`, the wire format of a secret, and the checks that
`AppConfig::validate` makes on the list. The environment is a parameter: `env name`
is what `std::env::var` returns.
-/

namespace AiGateway.Core

def startsWith (s start : String) : Bool := start.toList.isPrefixOf s.toList

/-- `str::strip_prefix`. -/
def stripStart (s start : String) : Option String :=
  if startsWith s start then some (String.ofList (s.toList.drop start.toList.length)) else none

/-- `char::is_whitespace`, the Unicode property `White_Space`. -/
def isWhitespace (c : Char) : Bool :=
  let n := c.toNat
  (9 ≤ n && n ≤ 13) || n == 0x20 || n == 0x85 || n == 0xA0 || n == 0x1680 ||
    (0x2000 ≤ n && n ≤ 0x200A) || n == 0x2028 || n == 0x2029 || n == 0x202F || n == 0x205F ||
    n == 0x3000

def trim (s : String) : String :=
  String.ofList (((s.toList.dropWhile isWhitespace).reverse.dropWhile isWhitespace).reverse)

/-! ### Secrets (`gateway_key.rs`) -/

def prefixLive : String := "sk-gw-live-"

def prefixTest : String := "sk-gw-test-"

inductive KeyEnv where
  | live
  | test
  deriving DecidableEq, Repr

def KeyEnv.start : KeyEnv → String
  | .live => prefixLive
  | .test => prefixTest

def KeyEnv.parse (s : String) : Option KeyEnv :=
  if s = "live" then some .live else if s = "test" then some .test else none

def parseGatewayKey (secret : String) : Option String :=
  if startsWith secret prefixLive then some prefixLive
  else if startsWith secret prefixTest then some prefixTest
  else none

def last4 (plaintext : String) : String :=
  String.ofList (plaintext.toList.reverse.take 4).reverse

/-- `generate_gateway_key` for the random part `secret` that it drew. -/
def generatedPlaintext (env : KeyEnv) (secret : String) : String := env.start ++ secret

/-! ### Declared keys (`config.rs`) -/

structure GatewayKeyConfig where
  id : String
  name : String
  projectId : Option String
  secret : String
  scopes : List String
  deriving DecidableEq, Repr

def GatewayKeyConfig.resolveSecret (env : String → Option String) (k : GatewayKeyConfig) :
    Except String String :=
  match stripStart k.secret "env://" with
  | some var =>
    if var = "" then .error "env:// reference is missing a var name"
    else
      match env var with
      | some value => .ok value
      | none => .error ("env var '" ++ var ++ "' not set or empty")
  | none => if k.secret = "" then .error "secret is empty" else .ok k.secret

/-- The checks on one entry, after those on the ids seen before it. -/
def checkGatewayKey (k : GatewayKeyConfig) : Except GatewayError Unit :=
  if trim k.name = "" then
    .error (.badRequest ("gateway_keys[id=" ++ k.id ++ "].name must be non-empty"))
  else if k.secret = "" then
    .error (.badRequest ("gateway_keys[id=" ++ k.id ++ "].secret must be non-empty"))
  else if !startsWith k.secret "env://" &&
      !(startsWith k.secret "sk-gw-live-" || startsWith k.secret "sk-gw-test-") then
    .error (.badRequest ("gateway_keys[id=" ++ k.id ++
      "].secret must start with 'sk-gw-live-' or 'sk-gw-test-' (or use env://VAR)"))
  else .ok ()

def validateGatewayKeys (seenIds : List String) : List GatewayKeyConfig → Except GatewayError Unit
  | [] => .ok ()
  | k :: keys =>
    if trim k.id = "" then .error (.badRequest "gateway_keys[].id must be non-empty")
    else if k.id ∈ seenIds then
      .error (.badRequest ("gateway_keys[].id '" ++ k.id ++ "' is declared more than once"))
    else
      match checkGatewayKey k with
      | .error e => .error e
      | .ok () => validateGatewayKeys (k.id :: seenIds) keys

theorem validateGatewayKeys_ids {seenIds : List String} {keys : List GatewayKeyConfig}
    (h : validateGatewayKeys seenIds keys = .ok ()) :
    (keys.map GatewayKeyConfig.id).Nodup ∧ ∀ k ∈ keys, k.id ∉ seenIds := by
  induction keys generalizing seenIds with
  | nil => exact ⟨List.nodup_nil, fun k hk => absurd hk List.not_mem_nil⟩
  | cons k keys ih =>
    unfold validateGatewayKeys at h
    split at h
    · cases h
    · split at h
      · cases h
      · rename_i hseen
        split at h
        · cases h
        · obtain ⟨hnodup, hfresh⟩ := ih h
          refine ⟨?_, ?_⟩
          · rw [List.map_cons, List.nodup_cons]
            refine ⟨fun hmem => ?_, hnodup⟩
            obtain ⟨k', hk', heq⟩ := List.mem_map.mp hmem
            exact hfresh k' hk' (heq ▸ List.mem_cons_self)
          · intro k' hk'
            rcases List.mem_cons.mp hk' with heq | htail
            · rw [heq]
              exact hseen
            · exact fun hmem => hfresh k' htail (List.mem_cons_of_mem _ hmem)

/-- The effective project of a declared key. -/
def GatewayKeyConfig.project (defaultProjectId : String) (k : GatewayKeyConfig) : String :=
  k.projectId.getD defaultProjectId

end AiGateway.Core
