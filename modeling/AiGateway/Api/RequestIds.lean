import AiGateway.Api.RequestLog

/-!
# Records and request ids (`proxy_handler`, `gateway-api/src/routes/proxy.rs:37-71`)

When a request leaves exactly one record, under the id that its response carries in
`x-gateway-request-id`.
-/

namespace AiGateway.Api
open AiGateway.Core AiGateway.Storage

/-- One record, and a response that names it. -/
def OneRecord (h : Handled) : Prop :=
  ∃ record response, h.records = [record] ∧ h.response = some response ∧
    response.headers.get "x-gateway-request-id" = some (asBytes record.id)

/-- The first 48 bytes of the cache key, if there is one, end between characters. -/
def KeySlices (c : ProxyCall) (route : RouteConfig) : Prop :=
  ∀ key, cacheKey c.env.blake3Hex c.env.numText route.cache c.req = some key →
    (sliceTo key.toList (min key.utf8ByteSize 48)).isSome

/-- The upstream's answer names no other id in its first 64 KiB. -/
def SameId (c : ProxyCall) (l : LogEnv) (response : ForwardResponse) : Prop :=
  ∀ rid, extractResponseId c.env.fromSlice
    ((upstreamChunks response.body).flatten.take maxLogBodyBytes) = some rid →
      rid = l.requestId.text

structure RoutedCondition (c : ProxyCall) (l : LogEnv) (route : RouteConfig) : Prop where
  hit : ∀ cached, (routeLookup c.env c.req route).2 = some cached →
    (cachedBodyPreview cached).isSome ∧ KeySlices c route
  answered : (routeLookup c.env c.req route).2 = none →
    (cachePolicy route.cache c.req).map CachePolicy.directive ≠ some .onlyIfCached →
    ∀ response, chainResponse c.env c.req route = .ok response →
      KeySlices c route ∧ SameId c l response ∧
        ∀ policy, ShouldWrite c.env c.req route policy response → l.putReturns policy.ttl = true

/-- The body can be read; no string of a cache hit or of the cache headers is cut inside a
character; a put into the cache returns; and the upstream's answer names no other id. -/
def RecordCondition (c : ProxyCall) (l : LogEnv) : Prop :=
  c.readBody.isOk = true ∧ (c.admitted = true → ∀ route,
    findRoute c.env.routes c.req.ns (extractModel c.req.requestJson) = some route →
      RoutedCondition c l route)

/-! ### The header -/

theorem asBytes_eq_flatMap (s : String) : asBytes s = s.toList.flatMap String.utf8EncodeChar := by
  unfold asBytes
  rw [← String.utf8Encode_toList, List.utf8Encode, List.data_toByteArray]

theorem asBytes_append (s t : String) : asBytes (s ++ t) = asBytes s ++ asBytes t := by
  rw [asBytes_eq_flatMap, asBytes_eq_flatMap, asBytes_eq_flatMap, String.toList_append,
    List.flatMap_append]

theorem asBytes_length (s : String) : (asBytes s).length = s.utf8ByteSize := by
  rw [asBytes, Array.length_toList]
  rfl

theorem asBytes_of_fromUtf8 {bytes : Bytes} {s : String} (h : fromUtf8 bytes = some s) :
    asBytes s = bytes := by
  unfold fromUtf8 String.fromUTF8? at h
  split at h
  · cases h
    rfl
  · cases h

theorem fromUtf8_asBytes (s : String) : fromUtf8 (asBytes s) = some s := by
  have hbytes : (⟨(asBytes s).toArray⟩ : ByteArray) = s.toByteArray := by
    unfold asBytes
    rw [Array.toArray_toList]
  unfold fromUtf8
  rw [hbytes]
  exact dif_pos s.isValidUTF8

theorem headerFromStr_requestId (id : RequestId) : headerFromStr id.text = some (asBytes id.text) := by
  have hbytes : ("0123456789abcdef-".toList.all fun c => (String.utf8EncodeChar c).all fun b =>
      (32 ≤ b && b != 127) || b == 9) = true := by decide
  unfold headerFromStr
  rw [if_pos]
  rw [List.all_eq_true, asBytes_eq_flatMap]
  intro b hb
  obtain ⟨c, hc, hb⟩ := List.mem_flatMap.mp hb
  have hchar := of_decide_eq_true (List.all_eq_true.mp id.hex c hc)
  exact List.all_eq_true.mp (List.all_eq_true.mp hbytes c hchar) b hb

theorem get_insertHeader (headers : HeaderMap) (name : String) (value : Bytes) :
    (insertHeader headers name (some value)).get name = some value := by
  have hgone : (headers.filter fun h => h.1 ≠ name).lookup name = none := by
    rw [List.lookup_eq_none_iff]
    intro h hmem
    have hne := of_decide_eq_true (List.mem_filter.mp hmem).2
    simpa using Ne.symm hne
  unfold insertHeader HeaderMap.get
  simp only [List.lookup_append, hgone, Option.none_or, List.lookup_cons, beq_self_eq_true]

/-! ### Handled requests -/

/-- One record under `id`, and a response. -/
def Identified (id : String) (h : Handled) : Prop :=
  (∃ record, h.records = [record] ∧ record.id = id) ∧ h.response.isSome

theorem oneRecord_iff_identified (c : ProxyCall) (l : LogEnv) :
    OneRecord (proxyHandler c l) ↔ Identified l.requestId.text (proxyLogged c l) := by
  unfold OneRecord Identified proxyHandler
  simp only [headerFromStr_requestId]
  cases hresponse : (proxyLogged c l).response with
  | none =>
    constructor
    · intro hone
      obtain ⟨record, response, -, hnone, -⟩ := hone
      cases hnone
    · intro hanswered
      obtain ⟨-, hnone⟩ := hanswered
      cases hnone
  | some response =>
    constructor
    · intro hone
      obtain ⟨record, response', hrecords, hsome, hheader⟩ := hone
      cases hsome
      rw [get_insertHeader] at hheader
      exact ⟨⟨record, hrecords, asBytes_injective (Option.some.inj hheader).symm⟩, rfl⟩
    · intro hone
      obtain ⟨⟨record, hrecords, hid⟩, -⟩ := hone
      refine ⟨record, _, hrecords, rfl, ?_⟩
      rw [get_insertHeader, hid]

theorem identified_reject {id : String} {log : LogBuilder} (h : log.record.id = id) (e : ApiError) :
    Identified id (log.reject e) :=
  ⟨⟨log.record, rfl, h⟩, rfl⟩

/-! ### Cache hits -/

theorem hitRecord_id {c : ProxyCall} {l : LogEnv} {log : LogBuilder} {route : RouteConfig}
    {cached : CachedResponse} {record : RequestLogRecord}
    (h : hitRecord c l log route cached = some record) : record.id = log.record.id := by
  unfold hitRecord at h
  obtain ⟨preview, -, hrecord⟩ := Option.map_eq_some_iff.mp h
  rw [← hrecord]
  cases cached.servedBy with
  | none => simp
  | some provider => simp

theorem hitRecord_isSome (c : ProxyCall) (l : LogEnv) (log : LogBuilder) (route : RouteConfig)
    (cached : CachedResponse) :
    (hitRecord c l log route cached).isSome = (cachedBodyPreview cached).isSome := by
  unfold hitRecord
  rw [Option.isSome_map]

theorem insertCacheHeaders_isSome (headers : HeaderMap) (status : CacheStatus)
    (key : Option String) (ageS : Option ℕ) :
    (insertCacheHeaders headers status key ageS).isSome ↔
      ∀ k, key = some k → (sliceTo k.toList (min k.utf8ByteSize 48)).isSome := by
  unfold insertCacheHeaders
  cases key with
  | none =>
    constructor
    · intro _ k hk
      cases hk
    · intro _
      rfl
  | some k =>
    simp only [Option.isSome_map]
    constructor
    · intro h k' hk'
      cases hk'
      exact h
    · intro h
      exact h k rfl

theorem cacheLookup_key {env : ProxyEnv} {policy : Option CachePolicy} {shape : Bool}
    {key : Option String} {cached : CachedResponse}
    (h : (cacheLookup env policy shape key).2 = some cached) : ∃ k, key = some k := by
  cases key with
  | some k => exact ⟨k, rfl⟩
  | none =>
    unfold cacheLookup at h
    split at h
    · cases h
    · split at h
      · cases h
      · split at h
        · cases h
        · cases h
        · cases h
        · rename_i hkey _ _
          cases hkey

/-! ### The task -/

theorem adoptId_id (c : ProxyCall) (log : LogBuilder) (capture : Bytes) :
    (log.adoptId c capture).record.id =
      (extractResponseId c.env.fromSlice capture).getD log.record.id := by
  unfold LogBuilder.adoptId
  cases extractResponseId c.env.fromSlice capture with
  | none => rfl
  | some rid => rfl

/-- The task submits one record, unless the put of its cache write panics. -/
theorem taskRecords_cases (c : ProxyCall) (l : LogEnv) (log : LogBuilder) (ctx : StreamContext)
    (response : ForwardResponse) :
    (∃ record, taskRecords c l log ctx response = [record] ∧
        record.id = (extractResponseId c.env.fromSlice
          ((upstreamChunks response.body).flatten.take maxLogBodyBytes)).getD log.record.id ∧
        ∀ key payload ttl, .put key payload ttl ∈ taskEvents c.env ctx response.body →
          l.putReturns ttl = true) ∨
      (taskRecords c l log ctx response = [] ∧
        ∃ key payload ttl, .put key payload ttl ∈ taskEvents c.env ctx response.body ∧
          l.putReturns ttl = false) := by
  have hcapture := (captureLoop_front ctx.cacheShouldWrite c.env.clientOpen response.body).front
  unfold taskRecords taskEvents streamTask
  rcases hloop : captureLoop ctx.cacheShouldWrite c.env.clientOpen 0 response.body .start with
    ⟨capture, error⟩
  rw [hloop] at hcapture
  have hid : (log.adoptId c capture.responseCapture).record.id =
      (extractResponseId c.env.fromSlice
        ((upstreamChunks response.body).flatten.take maxLogBodyBytes)).getD log.record.id := by
    rw [adoptId_id, hcapture]
  cases error with
  | some e =>
    left
    refine ⟨_, rfl, by simpa using hid, ?_⟩
    intro key payload ttl hput
    cases hput
  | none =>
    simp only [Option.bind_some]
    cases hwrite : (finishStream c.env.fromSlice ctx c.env.finishedAtMs capture).cacheWrite with
    | none =>
      left
      refine ⟨_, rfl, by simpa using hid, ?_⟩
      intro key payload ttl hput
      cases hput
    | some write =>
      obtain ⟨key, payload, ttl⟩ := write
      simp only
      cases hreturns : l.putReturns ttl with
      | true =>
        left
        refine ⟨_, rfl, by simpa using hid, ?_⟩
        intro key' payload' ttl' hput
        cases List.mem_singleton.mp hput
        exact hreturns
      | false =>
        right
        exact ⟨rfl, key, payload, ttl, List.mem_cons_self, hreturns⟩

/-- A forwarded request puts into the cache exactly when it should. -/
theorem put_mem_taskEvents_iff {env : ProxyEnv} {req : ProxyRequest} {route : RouteConfig}
    (hroute : findRoute env.routes req.ns (extractModel req.requestJson) = some route)
    {status : CacheStatus}
    (hlookup : routeLookup env req route = (status, none))
    (honly : (cachePolicy route.cache req).map CachePolicy.directive ≠ some .onlyIfCached)
    {response : ForwardResponse} (hchain : chainResponse env req route = .ok response)
    (ttl : UInt64) :
    (∃ key payload, .put key payload ttl ∈ taskEvents env (streamContext env req route status
        (executeChain env.forward (forwardTemplate req) (chainOfRoute route)).fallbackUsed
        response) response.body) ↔
      ∃ policy, ShouldWrite env req route policy response ∧ ttl = policy.ttl := by
  have hevents := proxyEvents_forward hroute hlookup honly
  simp only [hchain] at hevents
  have hmem : ∀ key payload, .put key payload ttl ∈ (proxyEvents env req).2 ↔
      .put key payload ttl ∈ taskEvents env (streamContext env req route status
        (executeChain env.forward (forwardTemplate req) (chainOfRoute route)).fallbackUsed
        response) response.body := by
    intro key payload
    rw [hevents, List.mem_append, List.mem_cons]
    constructor
    · rintro (hget | hforward | hput)
      · cases routeGets_no_put hget
      · cases hforward
      · exact hput
    · intro hput
      exact .inr (.inr hput)
  simp only [← hmem]
  rcases proxyEvents_writesOrNot env req with
    ⟨route', policy, response', key, payload, calls, hwrite, -, -, -, hcalls, hput⟩ | ⟨hnot, hnone⟩
  · have hr : route' = route := hwrite.route_eq hroute
    subst hr
    have hresponse : Except.ok response' = Except.ok response := hwrite.answered.symm.trans hchain
    cases hresponse
    constructor
    · intro hwritten
      obtain ⟨key', payload', hmem'⟩ := hwritten
      rw [hput, List.mem_append] at hmem'
      rcases hmem' with hcall | hlast
      · cases hcalls _ hcall
      · cases List.mem_singleton.mp hlast
        exact ⟨policy, hwrite, rfl⟩
    · intro hshould
      obtain ⟨policy', hwrite', httl⟩ := hshould
      have hp : policy' = policy := Option.some.inj (hwrite'.policy_eq.symm.trans hwrite.policy_eq)
      refine ⟨key, payload, ?_⟩
      rw [hput, httl, hp]
      exact List.mem_append_right _ List.mem_cons_self
  · constructor
    · intro hwritten
      obtain ⟨key, payload, hput⟩ := hwritten
      cases hnone _ hput
    · intro hshould
      obtain ⟨policy, hwrite, -⟩ := hshould
      exact absurd ⟨route, policy, response, hwrite⟩ hnot

/-! ### The routed request -/

section
variable {c : ProxyCall} {l : LogEnv} {log : LogBuilder} {route : RouteConfig}

theorem identified_hit {cached : CachedResponse}
    (hroute : findRoute c.env.routes c.req.ns (extractModel c.req.requestJson) = some route)
    (hlookup : (routeLookup c.env c.req route).2 = some cached) (hid : log.record.id = l.requestId.text) :
    Identified l.requestId.text (proxyRouted c l log).2 ↔
      (cachedBodyPreview cached).isSome ∧ KeySlices c route := by
  obtain ⟨key, hkey⟩ := cacheLookup_key hlookup
  have hslices : ∀ headers status age, (insertCacheHeaders headers status (some key) age).isSome ↔
      KeySlices c route := by
    intro headers status age
    unfold KeySlices
    rw [hkey]
    exact insertCacheHeaders_isSome headers status (some key) age
  unfold routeLookup at hlookup
  rw [hkey] at hlookup
  unfold proxyRouted
  simp only [hroute, hkey, hlookup]
  have hsome := hitRecord_isSome c l log route cached
  cases hrecord : hitRecord c l log route cached with
  | none =>
    rw [hrecord] at hsome
    constructor
    · intro hone
      obtain ⟨⟨record, hnil, -⟩, -⟩ := hone
      cases hnil
    · intro hhit
      obtain ⟨hpreview, -⟩ := hhit
      rw [← hsome] at hpreview
      cases hpreview
  | some record =>
    rw [hrecord] at hsome
    unfold Identified buildCachedResponse
    simp only [Option.bind_some, Option.isSome_map, hslices, ← hsome, Option.isSome_some, true_and]
    constructor
    · intro hhit
      obtain ⟨-, hkeys⟩ := hhit
      exact hkeys
    · intro hkeys
      exact ⟨⟨record, rfl, (hitRecord_id hrecord).trans hid⟩, hkeys⟩

theorem identified_stay
    (hroute : findRoute c.env.routes c.req.ns (extractModel c.req.requestJson) = some route)
    (hlookup : (routeLookup c.env c.req route).2 = none)
    (honly : (cachePolicy route.cache c.req).map CachePolicy.directive = some .onlyIfCached)
    (hid : log.record.id = l.requestId.text) :
    Identified l.requestId.text (proxyRouted c l log).2 := by
  unfold routeLookup at hlookup
  unfold proxyRouted
  simp only [hroute, hlookup, if_pos honly]
  exact identified_reject (by simpa using hid) _

theorem identified_chainError {e : GatewayError}
    (hroute : findRoute c.env.routes c.req.ns (extractModel c.req.requestJson) = some route)
    (hlookup : (routeLookup c.env c.req route).2 = none)
    (honly : (cachePolicy route.cache c.req).map CachePolicy.directive ≠ some .onlyIfCached)
    (hchain : chainResponse c.env c.req route = .error e)
    (hid : log.record.id = l.requestId.text) :
    Identified l.requestId.text (proxyRouted c l log).2 := by
  unfold routeLookup at hlookup
  unfold chainResponse at hchain
  unfold proxyRouted
  simp only [hroute, hlookup, if_neg honly, hchain]
  exact identified_reject (by simpa using hid) _

theorem getD_eq_iff {α : Type} (o : Option α) (d : α) : o.getD d = d ↔ ∀ a, o = some a → a = d := by
  cases o with
  | none => simp
  | some a => simp

theorem identified_streamed {response : ForwardResponse}
    (hroute : findRoute c.env.routes c.req.ns (extractModel c.req.requestJson) = some route)
    (hlookup : (routeLookup c.env c.req route).2 = none)
    (honly : (cachePolicy route.cache c.req).map CachePolicy.directive ≠ some .onlyIfCached)
    (hchain : chainResponse c.env c.req route = .ok response)
    (hid : log.record.id = l.requestId.text) :
    Identified l.requestId.text (proxyRouted c l log).2 ↔
      KeySlices c route ∧ SameId c l response ∧
        ∀ policy, ShouldWrite c.env c.req route policy response →
          l.putReturns policy.ttl = true := by
  have hanswer : routeLookup c.env c.req route = ((routeLookup c.env c.req route).1, none) := Prod.ext rfl hlookup
  have hput := put_mem_taskEvents_iff hroute hanswer honly hchain
  unfold routeLookup at hlookup hput
  have hresult := hchain
  unfold chainResponse at hresult
  unfold proxyRouted
  simp only [hroute, hlookup, if_neg honly, hresult]
  unfold Identified SameId
  rw [Option.isSome_map, insertCacheHeaders_isSome, and_comm]
  apply and_congr_right
  intro _
  generalize hlog : log.chainLog _ = log'
  have hid' : log'.record.id = l.requestId.text := by
    rw [← hlog]
    simpa using hid
  rcases taskRecords_cases c l log' _ response with ⟨record, hone, hrecord, hreturns⟩ |
    ⟨hnone, key, payload, ttl, hmem, hpanic⟩
  · rw [hid'] at hrecord
    constructor
    · intro hone
      obtain ⟨record', hsame, hrid⟩ := hone
      rw [hone] at hsame
      cases hsame
      rw [hrecord] at hrid
      refine ⟨(getD_eq_iff _ _).mp hrid, ?_⟩
      intro policy hwrite
      obtain ⟨key, payload, hmem⟩ := (hput policy.ttl).mpr ⟨policy, hwrite, rfl⟩
      exact hreturns key payload policy.ttl hmem
    · intro hids
      obtain ⟨hsame, -⟩ := hids
      exact ⟨record, hone, hrecord.trans ((getD_eq_iff _ _).mpr hsame)⟩
  · constructor
    · intro hone
      obtain ⟨record', hsame, -⟩ := hone
      rw [hnone] at hsame
      cases hsame
    · intro hshould
      obtain ⟨-, hwrites⟩ := hshould
      obtain ⟨policy, hwrite, httl⟩ := (hput ttl).mp ⟨key, payload, hmem⟩
      rw [httl, hwrites policy hwrite] at hpanic
      cases hpanic

theorem identified_routed_iff
    (hroute : findRoute c.env.routes c.req.ns (extractModel c.req.requestJson) = some route)
    (hid : log.record.id = l.requestId.text) :
    Identified l.requestId.text (proxyRouted c l log).2 ↔ RoutedCondition c l route := by
  cases hlookup : (routeLookup c.env c.req route).2 with
  | some cached =>
    rw [identified_hit hroute hlookup hid]
    constructor
    · intro hhit
      refine ⟨?_, ?_⟩
      · intro cached' hcached'
        rw [hlookup] at hcached'
        cases hcached'
        exact hhit
      · intro hnone
        rw [hlookup] at hnone
        cases hnone
    · intro hcond
      exact hcond.hit cached hlookup
  | none =>
    have hmiss : ∀ cached, (routeLookup c.env c.req route).2 = some cached →
        (cachedBodyPreview cached).isSome ∧ KeySlices c route := by
      intro cached hcached
      rw [hlookup] at hcached
      cases hcached
    by_cases honly : (cachePolicy route.cache c.req).map CachePolicy.directive = some .onlyIfCached
    · constructor
      · intro _
        exact ⟨hmiss, fun _ hnot => absurd honly hnot⟩
      · intro _
        exact identified_stay hroute hlookup honly hid
    · cases hchain : chainResponse c.env c.req route with
      | error e =>
        constructor
        · intro _
          refine ⟨hmiss, ?_⟩
          intro _ _ response hok
          rw [hchain] at hok
          cases hok
        · intro _
          exact identified_chainError hroute hlookup honly hchain hid
      | ok response =>
        rw [identified_streamed hroute hlookup honly hchain hid]
        constructor
        · intro hsent
          refine ⟨hmiss, ?_⟩
          intro _ _ response' hok
          rw [hchain] at hok
          cases hok
          exact hsent
        · intro hcond
          exact hcond.answered hlookup honly response hchain

end

theorem startLog_id (c : ProxyCall) (l : LogEnv) :
    (startLog c l).record.id = l.requestId.text := by
  unfold startLog
  simp only [LogBuilder.setClient_id, LogBuilder.setModel_id, LogBuilder.setRequestBody_id,
    LogBuilder.setGatewayKey_id]
  rfl

/-- A request leaves one record under the id of its response exactly under the condition. -/
theorem one_record_iff (c : ProxyCall) (l : LogEnv) :
    OneRecord (proxyHandler c l) ↔ RecordCondition c l := by
  rw [oneRecord_iff_identified]
  unfold proxyLogged RecordCondition ProxyCall.admitted
  cases hbody : c.readBody with
  | error e =>
    constructor
    · intro hone
      obtain ⟨⟨record, hnil, -⟩, -⟩ := hone
      cases hnil
    · intro hcond
      obtain ⟨hok, -⟩ := hcond
      cases hok
  | ok _ =>
    cases hblocked : c.budgetBlocked with
    | true =>
      constructor
      · intro _
        exact ⟨rfl, fun hadmitted => by cases hadmitted⟩
      · intro _
        apply identified_reject
        simpa using startLog_id c l
    | false =>
      cases hlimits : c.checkLimits.1 with
      | error e =>
        constructor
        · intro _
          exact ⟨rfl, fun hadmitted => by cases hadmitted⟩
        · intro _
          apply identified_reject
          simpa using startLog_id c l
      | ok permit =>
        simp only [Bool.false_eq_true, if_false]
        cases hroute : findRoute c.env.routes c.req.ns (extractModel c.req.requestJson) with
        | none =>
          constructor
          · intro _
            refine ⟨rfl, ?_⟩
            intro _ route hsome
            cases hsome
          · intro _
            unfold proxyRouted
            simp only [hroute]
            apply identified_reject
            simpa using startLog_id c l
        | some route =>
          rw [identified_routed_iff hroute (startLog_id c l)]
          constructor
          · intro hcond
            refine ⟨rfl, ?_⟩
            intro _ route' hsome
            cases hsome
            exact hcond
          · intro hcond'
            obtain ⟨-, hcond⟩ := hcond'
            exact hcond rfl route rfl

def chatCompletion : Bytes := asBytes "\x7b\"id\":\"chatcmpl-1\"\x7d"

/-- A chat completion through a route without a cache. -/
def chatCall : ProxyCall where
  env :=
    { limits := []
      routes := [{ cachingRoute with cache := ⟨false, 0, false⟩ }]
      kvGet _ := .ok none
      decodeCached _ := .error "no codec"
      forward n _ := (.ok ⟨200, [], 1, 1, [.ok chatCompletion]⟩, n)
      clientOpen _ := true
      finishedAtMs := 0
      blake3Hex := sampleHash
      numText := sampleNumber
      fromSlice bytes :=
        if bytes = chatCompletion then some (.object [("id", .string "chatcmpl-1")]) else none }
  req := sampleRequest "POST" "/chat/completions" [] inputModel
  keyId := "k1"
  projectId := "p1"
  readBody := .ok ()
  budgetBlocked := false
  clock _ := 0
  store := .new

def chatLog : LogEnv where
  requestId := ⟨"01997d3e-7a10-7c21-9a55-3f1f6d0c2b11", by decide⟩
  requestTs := 0
  durationMs := 0
  forwardMs := 0
  nowMs := 0
  requestBodyForLog := none
  remoteIp := "127.0.0.1"
  errorText _ := ""
  cost _ _ _ := none
  putReturns _ := true

/-- The response carries the request id, and the record the id of the completion. -/
theorem record_takes_upstream_id :
    (proxyHandler chatCall chatLog).records.map RequestLogRecord.id = ["chatcmpl-1"] ∧
      ((proxyHandler chatCall chatLog).response.bind fun r =>
        r.headers.get "x-gateway-request-id") = some (asBytes chatLog.requestId.text) ∧
      ¬ OneRecord (proxyHandler chatCall chatLog) := by
  have hids : (proxyHandler chatCall chatLog).records.map RequestLogRecord.id = ["chatcmpl-1"] := by
    decide +kernel
  have hheader : ((proxyHandler chatCall chatLog).response.bind fun r =>
      r.headers.get "x-gateway-request-id") = some (asBytes chatLog.requestId.text) := by
    decide +kernel
  refine ⟨hids, hheader, ?_⟩
  intro hone
  obtain ⟨record, response, hrecords, hresponse, hsame⟩ := hone
  rw [hrecords] at hids
  rw [hresponse, Option.bind_some, hsame] at hheader
  have hid : record.id = "chatcmpl-1" := List.head_eq_of_cons_eq hids
  have htext := asBytes_injective (Option.some.inj hheader)
  rw [hid] at htext
  revert htext
  decide

end AiGateway.Api
