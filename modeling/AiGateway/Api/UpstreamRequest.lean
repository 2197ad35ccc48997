import AiGateway.Api.Replay
import AiGateway.Core.Engine

/-!
# The request an upstream gets (`gateway-core/src/proxy/engine.rs:11-29,105-129,158-187`)

`ProxyEngine::forward` up to the HTTP client, which parses the URL itself: the headers of the client are filtered, the
injector of the provider puts its credential in (`providers/openai.rs`,
`providers/anthropic.rs`), the configured headers go over both, and `Host` goes out. Header
maps are compared as maps are: by the values of each name, in order.
-/

namespace AiGateway.Api
open AiGateway.Core AiGateway.Library

def stripRequestHeaders : List String :=
  ["host", "authorization", "x-api-key", "connection", "keep-alive", "transfer-encoding", "te",
    "trailer", "upgrade", "proxy-authenticate", "proxy-authorization", "content-length"]

/-- The headers of a client that stay at the gateway. -/
def isStripped (name : String) : Bool :=
  decide (toAsciiLowercase name ∈ stripRequestHeaders) || isGatewayHeader (toAsciiLowercase name)

def filterRequestHeaders (src : HeaderMap) : HeaderMap := src.filter fun h => !isStripped h.1

def inject (injector : AuthInjector) (headers : HeaderMap) (apiKey : String) : HeaderMap :=
  match injector with
  | .openAi =>
    let headers := insertHeader headers "authorization" (headerFromStr ("Bearer " ++ apiKey))
    -- some providers expect `api-key` instead
    insertHeader headers "api-key" (headerFromStr apiKey)
  | .anthropic =>
    let headers := insertHeader headers "x-api-key" (headerFromStr apiKey)
    if (headers.get "anthropic-version").isSome then headers
    else insertHeader headers "anthropic-version" (some (asBytes "2023-06-01"))

/-- A configured header with an illegal name or value is passed over. -/
def insertExtra (headers : HeaderMap) (extra : String × String) : HeaderMap :=
  (headerNameFromStr extra.1).elim headers fun name =>
    insertHeader headers name (headerFromStr extra.2)

def removeHeader (headers : HeaderMap) (name : String) : HeaderMap :=
  headers.filter fun h => h.1 ≠ name

/-- The header map that is handed to the HTTP client; `order` is how the configured headers
iterate. -/
def upstreamHeaders (provider : ResolvedProvider) (order : List (String × String))
    (client : HeaderMap) : HeaderMap :=
  let headers := inject provider.injector (filterRequestHeaders client) provider.apiKey
  removeHeader (order.foldl insertExtra headers) "host"

def trimEndSlashes (s : String) : String :=
  String.ofList (s.toList.reverse.dropWhile (· = '/')).reverse

def buildUrl (base path : String) (query : Option String) : String :=
  let path := if path.toList.head? = some '/' then path else "/" ++ path
  let url := trimEndSlashes base ++ path
  query.elim url fun q => if q = "" then url else url ++ "?" ++ q

structure UpstreamRequest where
  method : String
  -- the text that the client parses
  url : String
  headers : HeaderMap
  body : Option Bytes
  deriving DecidableEq, Repr

def upstreamRequest (provider : ResolvedProvider) (order : List (String × String))
    (req : ForwardRequest) : UpstreamRequest where
  method := req.method
  url := buildUrl provider.baseUrl req.path req.query
  headers := upstreamHeaders provider order req.headers
  body := req.body

/-- The exchange of `forward`, over an HTTP client. -/
def sendOver (http : UpstreamRequest → Except SendError ForwardResponse)
    (order : HashMap String String → List (String × String)) (provider : ResolvedProvider)
    (req : ForwardRequest) : Except SendError ForwardResponse :=
  http (upstreamRequest provider (order provider.extraHeaders) req)

/-! ### Header maps by name -/

def SameHeaders (headers headers' : HeaderMap) : Prop :=
  ∀ name, headerValues headers name = headerValues headers' name

theorem headerValues_insertHeader_self (headers : HeaderMap) (name : String) (value : Bytes) :
    headerValues (insertHeader headers name (some value)) name = [value] := by
  show headerValues (headers.filter (fun h => h.1 ≠ name) ++ [(name, value)]) name = [value]
  have hold := headerValues_filter (fun own => decide (own ≠ name)) headers name
  rw [if_neg (by simp)] at hold
  rw [headerValues_append, hold]
  simp [headerValues]

theorem SameHeaders.insertHeader {headers headers' : HeaderMap} (h : SameHeaders headers headers')
    (name : String) (value : Option Bytes) :
    SameHeaders (insertHeader headers name value) (insertHeader headers' name value) := by
  intro other
  cases value with
  | none => exact h other
  | some v =>
    by_cases hname : name = other
    · rw [← hname, headerValues_insertHeader_self, headerValues_insertHeader_self]
    · rw [headerValues_insertHeader hname, headerValues_insertHeader hname]
      exact h other

theorem headerValues_removeHeader (headers : HeaderMap) (name other : String) :
    headerValues (removeHeader headers name) other =
      if other = name then [] else headerValues headers other := by
  have hfilter := headerValues_filter (fun own => decide (own ≠ name)) headers other
  by_cases hname : other = name
  · rw [if_neg (by simp [hname])] at hfilter
    rw [if_pos hname]
    exact hfilter
  · rw [if_pos (decide_eq_true hname)] at hfilter
    rw [if_neg hname]
    exact hfilter

theorem get_eq_head (headers : HeaderMap) (name : String) :
    headers.get name = (headerValues headers name).head? := by
  unfold HeaderMap.get headerValues
  induction headers with
  | nil => rfl
  | cons h rest ih =>
    obtain ⟨key, value⟩ := h
    by_cases hkey : key = name
    · rw [hkey, List.lookup_cons_self, List.filter_cons_of_pos (by simp)]
      rfl
    · have hne : (name == key) = false := by
        rw [beq_eq_false_iff_ne]
        exact fun h => hkey h.symm
      rw [List.lookup_cons, hne, List.filter_cons_of_neg (by simp [hkey])]
      exact ih

theorem SameHeaders.get {headers headers' : HeaderMap} (h : SameHeaders headers headers')
    (name : String) : headers.get name = headers'.get name := by
  rw [get_eq_head, get_eq_head, h name]

/-! ### Nothing of a stripped header gets through -/

theorem headerValues_filterRequestHeaders (src : HeaderMap) (name : String) :
    headerValues (filterRequestHeaders src) name =
      if isStripped name then [] else headerValues src name := by
  have hfilter := headerValues_filter (fun own => !isStripped own) src name
  cases hname : isStripped name with
  | true =>
    rw [if_neg (by simp [hname])] at hfilter
    exact hfilter
  | false =>
    rw [if_pos (by simp [hname])] at hfilter
    exact hfilter

/-- Two header maps of clients that agree on what is not stripped. -/
def SameVisible (headers headers' : HeaderMap) : Prop :=
  ∀ name, isStripped name = false → headerValues headers name = headerValues headers' name

theorem SameVisible.filtered {headers headers' : HeaderMap} (h : SameVisible headers headers') :
    SameHeaders (filterRequestHeaders headers) (filterRequestHeaders headers') := by
  intro name
  rw [headerValues_filterRequestHeaders, headerValues_filterRequestHeaders]
  cases hname : isStripped name with
  | true => rfl
  | false => exact h name hname

theorem sameVisible_of_filtered {headers headers' : HeaderMap}
    (h : filterRequestHeaders headers = filterRequestHeaders headers') :
    SameVisible headers headers' := by
  intro name hname
  have hvalues := congrArg (headerValues · name) h
  simp only [headerValues_filterRequestHeaders, hname, Bool.false_eq_true, if_false] at hvalues
  exact hvalues

theorem SameHeaders.inject {headers headers' : HeaderMap} (h : SameHeaders headers headers')
    (injector : AuthInjector) (apiKey : String) :
    SameHeaders (inject injector headers apiKey) (inject injector headers' apiKey) := by
  cases injector with
  | openAi => exact (h.insertHeader _ _).insertHeader _ _
  | anthropic =>
    have hkey := h.insertHeader "x-api-key" (headerFromStr apiKey)
    unfold Api.inject
    simp only [hkey.get "anthropic-version"]
    split
    · exact hkey
    · exact hkey.insertHeader _ _

theorem SameHeaders.insertExtra {headers headers' : HeaderMap} (h : SameHeaders headers headers')
    (extra : String × String) :
    SameHeaders (insertExtra headers extra) (insertExtra headers' extra) := by
  unfold Api.insertExtra
  cases headerNameFromStr extra.1 with
  | none => exact h
  | some name => exact h.insertHeader name _

theorem SameHeaders.foldl_insertExtra (order : List (String × String))
    {headers headers' : HeaderMap} (h : SameHeaders headers headers') :
    SameHeaders (order.foldl Api.insertExtra headers) (order.foldl Api.insertExtra headers') := by
  induction order generalizing headers headers' with
  | nil => exact h
  | cons extra rest ih => exact ih (h.insertExtra extra)

theorem SameHeaders.removeHeader {headers headers' : HeaderMap} (h : SameHeaders headers headers')
    (name : String) : SameHeaders (removeHeader headers name) (removeHeader headers' name) := by
  intro other
  rw [headerValues_removeHeader, headerValues_removeHeader, h other]

theorem upstreamHeaders_same (provider : ResolvedProvider) (order : List (String × String))
    {headers headers' : HeaderMap} (h : SameVisible headers headers') :
    SameHeaders (upstreamHeaders provider order headers)
      (upstreamHeaders provider order headers') :=
  ((h.filtered.inject provider.injector provider.apiKey).foldl_insertExtra order).removeHeader _

/-- An HTTP client that takes header maps as maps cannot tell the two requests apart. -/
theorem forward_blind (engine : ProxyEngine)
    {http : UpstreamRequest → Except SendError ForwardResponse}
    (hhttp : ∀ (r : UpstreamRequest) (headers : HeaderMap),
      SameHeaders r.headers headers → http { r with headers := headers } = http r)
    (order : HashMap String String → List (String × String)) (req : ForwardRequest)
    {headers : HeaderMap} (h : SameVisible req.headers headers) :
    engine.forward (sendOver http order) { req with headers := headers } =
      engine.forward (sendOver http order) req := by
  unfold ProxyEngine.forward
  simp only
  cases engine.providers.lookup req.provider with
  | none => rfl
  | some provider =>
    have hsend : sendOver http order provider { req with headers := headers } =
        sendOver http order provider req :=
      hhttp (upstreamRequest provider (order provider.extraHeaders) req) _
        (upstreamHeaders_same provider (order provider.extraHeaders) h)
    simp only [hsend]

/-! ### The credential of the provider -/

def credentialHeader : AuthInjector → String
  | .openAi => "authorization"
  | .anthropic => "x-api-key"

def credentialValue : AuthInjector → Bytes → Bytes
  | .openAi, apiKey => asBytes "Bearer " ++ apiKey
  | .anthropic, apiKey => apiKey

/-- A configured header of that name, with a legal value. -/
def Overrides (provider : ResolvedProvider) (name : String) : Prop :=
  ∃ k v, provider.extraHeaders.lookup k = some v ∧ headerNameFromStr k = some name ∧
    (headerFromStr v).isSome

theorem headerFromStr_eq_some {s : String} {value : Bytes} (h : headerFromStr s = some value) :
    isHeaderValue value = true ∧ asBytes s = value := by
  unfold headerFromStr at h
  split at h
  · rename_i hlegal
    cases h
    exact ⟨hlegal, rfl⟩
  · cases h

theorem headerFromStr_bearer {apiKey : String} {value : Bytes}
    (h : headerFromStr apiKey = some value) :
    headerFromStr ("Bearer " ++ apiKey) = some (asBytes "Bearer " ++ value) := by
  obtain ⟨hlegal, hvalue⟩ := headerFromStr_eq_some h
  have hall : isHeaderValue (asBytes "Bearer " ++ value) = true := by
    unfold isHeaderValue at hlegal ⊢
    rw [List.all_append, hlegal, Bool.and_true]
    rfl
  unfold headerFromStr
  rw [asBytes_append, hvalue]
  exact if_pos hall

theorem headerValues_inject (injector : AuthInjector) (headers : HeaderMap) {apiKey : String}
    {value : Bytes} (h : headerFromStr apiKey = some value) :
    headerValues (inject injector headers apiKey) (credentialHeader injector) =
      [credentialValue injector value] := by
  cases injector with
  | openAi =>
    show headerValues (insertHeader (insertHeader headers "authorization" _) "api-key" _)
      "authorization" = _
    rw [headerValues_insertHeader (by decide), headerFromStr_bearer h,
      headerValues_insertHeader_self]
    rfl
  | anthropic =>
    unfold inject
    simp only [h]
    split
    · exact headerValues_insertHeader_self _ _ _
    · show headerValues (insertHeader _ "anthropic-version" _) "x-api-key" = _
      rw [headerValues_insertHeader (by decide)]
      exact headerValues_insertHeader_self _ _ _

theorem headerValues_foldl_insertExtra {order : List (String × String)} {name : String}
    (hkept : ∀ extra ∈ order, headerNameFromStr extra.1 = some name →
      headerFromStr extra.2 = none) (headers : HeaderMap) :
    headerValues (order.foldl insertExtra headers) name = headerValues headers name := by
  induction order generalizing headers with
  | nil => rfl
  | cons extra rest ih =>
    rw [List.foldl_cons, ih fun e he => hkept e (List.mem_cons_of_mem _ he)]
    unfold insertExtra
    cases hname : headerNameFromStr extra.1 with
    | none => rfl
    | some own =>
      show headerValues (insertHeader headers own (headerFromStr extra.2)) name = _
      by_cases heq : own = name
      · rw [hkept extra (List.mem_cons_self ..) (hname.trans (congrArg some heq))]
        rfl
      · exact headerValues_insertHeader heq _

theorem upstreamHeaders_credential {provider : ResolvedProvider} {order : List (String × String)}
    (horder : HashMap.Iterates provider.extraHeaders order) (client : HeaderMap) {value : Bytes}
    (hvalue : headerFromStr provider.apiKey = some value)
    (hown : ¬Overrides provider (credentialHeader provider.injector)) :
    headerValues (upstreamHeaders provider order client) (credentialHeader provider.injector) =
      [credentialValue provider.injector value] := by
  have hhost : credentialHeader provider.injector ≠ "host" := by
    cases provider.injector with
    | openAi => decide
    | anthropic => decide
  have hkept : ∀ extra ∈ order,
      headerNameFromStr extra.1 = some (credentialHeader provider.injector) →
        headerFromStr extra.2 = none := by
    intro extra hextra hname
    cases hlegal : headerFromStr extra.2 with
    | none => rfl
    | some v =>
      exact absurd ⟨extra.1, extra.2, horder.mem.mp hextra, hname, by rw [hlegal]; rfl⟩ hown
  unfold upstreamHeaders
  simp only
  rw [headerValues_removeHeader, if_neg hhost, headerValues_foldl_insertExtra hkept,
    headerValues_inject _ _ hvalue]

/-! ### Two clients with different secrets -/

/-- The header maps for two clients that differ only in stripped headers are equal, and the
credential in them is that of the provider. -/
theorem upstream_hides_client_secrets {provider : ResolvedProvider}
    {order : List (String × String)} (horder : HashMap.Iterates provider.extraHeaders order)
    {req : ForwardRequest} {headers : HeaderMap} (hsame : SameVisible req.headers headers) :
    SameHeaders (upstreamRequest provider order req).headers
        (upstreamRequest provider order { req with headers := headers }).headers ∧
      ∀ value, headerFromStr provider.apiKey = some value →
        ¬Overrides provider (credentialHeader provider.injector) →
          headerValues (upstreamRequest provider order req).headers
            (credentialHeader provider.injector) = [credentialValue provider.injector value] :=
  ⟨upstreamHeaders_same provider order hsame, fun _ hvalue hown =>
    upstreamHeaders_credential horder req.headers hvalue hown⟩

def openAiProvider : ResolvedProvider := ⟨"https://api.openai.com", "sk-own", .openAi, ∅⟩

/-- The gateway key in one header, and another one in three. -/
theorem upstream_hides_client_secrets_openAi :
    SameHeaders
        (upstreamHeaders openAiProvider [] [("authorization", asBytes "Bearer sk-gw-live-1"),
          ("accept", asBytes "*/*")])
        (upstreamHeaders openAiProvider [] [("x-api-key", asBytes "sk-gw-live-2"),
          ("authorization", asBytes "sk-gw-live-2"), ("accept", asBytes "*/*"),
          ("authorization", asBytes "Bearer sk-gw-live-2")]) ∧
      headerValues
          (upstreamHeaders openAiProvider [] [("authorization", asBytes "Bearer sk-gw-live-1"),
            ("accept", asBytes "*/*")]) "authorization" =
        [asBytes "Bearer " ++ asBytes "sk-own"] := by
  have h := @upstream_hides_client_secrets openAiProvider []
    (by unfold HashMap.Iterates; decide +kernel)
    ⟨"openai", "/v1/models", none, "GET", [("authorization", asBytes "Bearer sk-gw-live-1"),
      ("accept", asBytes "*/*")], none⟩
    [("x-api-key", asBytes "sk-gw-live-2"), ("authorization", asBytes "sk-gw-live-2"),
      ("accept", asBytes "*/*"), ("authorization", asBytes "Bearer sk-gw-live-2")]
    (sameVisible_of_filtered (by decide))
  refine ⟨h.1, h.2 (asBytes "sk-own") (by decide) ?_⟩
  rintro ⟨k, v, hlookup, -, -⟩
  cases hlookup

end AiGateway.Api
