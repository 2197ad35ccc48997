import AiGateway.Api.RequestIds
import AiGateway.Library.Utf8

/-!
# Replay of a cached response

What the first client is given (`gateway-api/src/routes/proxy.rs:514-535`), what the task
writes behind it (`proxy.rs:419-449`), and what a later hit makes of the blob
(`proxy.rs:571-623`, `gateway-core/src/cache/payload.rs`). Header names and values are checked
as the `http` crate does; bincode and zstd are parameters.
-/

namespace AiGateway.Api
open AiGateway.Core

/-! ### Header maps -/

def isTokenChar (c : Char) : Bool :=
  c ∈ "!#$%&'*+-.^_`|~0123456789abcdefghijklmnopqrstuvwxyz".toList

/-- `HeaderName::from_bytes`, which puts a name in lower case. -/
def headerNameFromStr (name : String) : Option String :=
  let lower := toAsciiLowercase name
  if lower ≠ "" ∧ lower.length ≤ 65535 ∧ lower.toList.all isTokenChar = true then some lower
  else none

def isHeaderValue (value : Bytes) : Bool := value.all fun b => (32 ≤ b && b != 127) || b == 9

/-- A `HeaderMap` as the client library hands it over: its names and values are legal. -/
structure WireHeaders where
  headers : HeaderMap
  names : ∀ h ∈ headers, headerNameFromStr h.1 = some h.1
  values : ∀ h ∈ headers, isHeaderValue h.2 = true

def stripResponseHeaders : List String :=
  ["connection", "keep-alive", "transfer-encoding", "te", "trailer", "upgrade",
    "content-encoding", "content-length"]

/-- `filter_response_headers` (`gateway-core/src/proxy/engine.rs:34-43,189-199`). -/
def filterResponseHeaders (src : HeaderMap) : HeaderMap :=
  src.filter fun h => toAsciiLowercase h.1 ∉ stripResponseHeaders

def headerValues (headers : HeaderMap) (name : String) : List Bytes :=
  (headers.filter fun h => h.1 = name).map Prod.snd

def isGatewayHeader (name : String) : Bool := "x-gateway-".toList.isPrefixOf name.toList

/-! ### The two responses -/

structure Reply extends HttpResponse where
  body : List (Except String Bytes)

/-- The response of the first client, as one that reads to the end gets it. -/
def firstReply (ctx : StreamContext) (status : CacheStatus) (items : List (Except String Bytes)) :
    Option Reply :=
  (insertCacheHeaders ctx.headersOut status ctx.cacheKey none).map fun headers =>
    { status := ctx.status
      headers
      body := (captureLoop ctx.cacheShouldWrite (fun _ => true) 0 items .start).1.sent }

/-- `Builder::header`: an illegal name or value makes the builder fail. -/
def builderHeader (headers : Option HeaderMap) (h : String × String) : Option HeaderMap :=
  headers.bind fun headers =>
    (headerNameFromStr h.1).bind fun name =>
      (headerFromStr h.2).map fun value => headers ++ [(name, value)]

/-- `build_cached_response`, with the empty response that it falls back to. -/
def buildCachedReply (cached : CachedResponse) (status : CacheStatus) (key : String)
    (nowMs : Int) : Option Reply :=
  let kept := cached.headers.filter fun h =>
    toAsciiLowercase h.1 ≠ "content-length" && toAsciiLowercase h.1 ≠ "transfer-encoding"
  let built := ((kept.foldl builderHeader (some [])).map fun headers : HeaderMap =>
    (⟨⟨(statusFromU16 cached.status).getD 200, headers⟩, cached.chunks.map .ok⟩ : Reply)).getD
      ⟨⟨200, []⟩, []⟩
  let age := (max (nowMs - cached.finishedAtMs) 0).toNat / 1000
  (insertCacheHeaders built.headers status (some key) (some age)).map fun headers =>
    { built with headers }

/-- bincode and zstd. -/
structure PayloadCodec where
  encodeToVec : CachedResponse → Except String Bytes
  decodeFromSlice : Bytes → Except String CachedResponse
  encodeAll : Bytes → Except String Bytes
  decodeAll : Bytes → Except String Bytes

namespace PayloadCodec

def encode (codec : PayloadCodec) (payload : CachedResponse) : Except String Bytes :=
  (codec.encodeToVec payload).bind codec.encodeAll

def decode (codec : PayloadCodec) (blob : Bytes) : Except String CachedResponse :=
  (codec.decodeAll blob).bind codec.decodeFromSlice

structure RoundTrips (codec : PayloadCodec) : Prop where
  bincode : ∀ payload bytes, codec.encodeToVec payload = .ok bytes →
    codec.decodeFromSlice bytes = .ok payload
  zstd : ∀ bytes blob, codec.encodeAll bytes = .ok blob → codec.decodeAll blob = .ok bytes

theorem RoundTrips.decode_encode {codec : PayloadCodec} (h : codec.RoundTrips)
    {payload : CachedResponse} {blob : Bytes} (hencode : codec.encode payload = .ok blob) :
    codec.decode blob = .ok payload := by
  unfold PayloadCodec.encode at hencode
  cases hbytes : codec.encodeToVec payload with
  | error e =>
    rw [hbytes] at hencode
    cases hencode
  | ok bytes =>
    rw [hbytes] at hencode
    unfold PayloadCodec.decode
    rw [h.zstd bytes blob hencode]
    exact h.bincode payload bytes hbytes

end PayloadCodec

/-- A request whose response went to a client and whose payload was put as `blob`. -/
structure Written (codec : PayloadCodec) (env : ProxyEnv) (req : ProxyRequest)
    (upstream : WireHeaders) (ctx : StreamContext) (items : List (Except String Bytes))
    (key : String) (blob : Bytes) : Prop where
  exit : proxyExit env req = .streamed ctx items
  relayed : ctx.headersOut = filterResponseHeaders upstream.headers
  put : ∃ payload ttl, .put key payload ttl ∈ taskEvents env ctx items ∧
    codec.encode payload = .ok blob

/-- A request of that key which finds the blob. -/
structure Replayed (codec : PayloadCodec) (env : ProxyEnv) (req : ProxyRequest) (key : String)
    (blob : Bytes) (cached : CachedResponse) : Prop where
  exit : proxyExit env req = .cacheHit cached
  sameKey : ∀ route, findRoute env.routes req.ns (extractModel req.requestJson) = some route →
    cacheKey env.blake3Hex env.numText route.cache req = some key
  stored : env.kvGet key = .ok (some blob)
  decoder : env.decodeCached = codec.decode

/-- The replay is what the first client was given, up to the gateway's own headers. -/
structure Faithful (first again : Reply) : Prop where
  status : again.status = first.status
  headers : ∀ name, isGatewayHeader name = false →
    headerValues again.headers name = headerValues first.headers name
  body : again.body = first.body

/-- Every value under a name that is not the gateway's own is visible ASCII. -/
def PlainValues (headers : HeaderMap) : Prop :=
  ∀ h ∈ headers, isGatewayHeader h.1 = false → (headerToStr h.2).isSome

/-! ### Header values and strings -/

theorem asBytes_of_headerToStr {value : Bytes} {s : String} (h : headerToStr value = some s) :
    asBytes s = value ∧ isHeaderValue value = true := by
  unfold headerToStr at h
  split at h
  · rename_i hvisible
    have hbyte := List.all_eq_true.mp hvisible
    constructor
    · have hsmall : ∀ b ∈ value, b < 128 := by
        intro b hb
        have hb' := hbyte b hb
        simp only [Bool.or_eq_true, Bool.and_eq_true, decide_eq_true_eq, beq_iff_eq] at hb'
        rcases hb' with ⟨-, hlt⟩ | rfl
        · exact UInt8.lt_trans hlt (by decide)
        · decide
      rw [← Option.some.inj h, asBytes_eq_flatMap, String.toList_ofList, List.flatMap_map]
      have hpoint : value.flatMap (fun b => String.utf8EncodeChar (Char.ofNat b.toNat)) =
          value.flatMap fun b => [b] :=
        List.flatMap_congr fun b hb => Library.utf8EncodeChar_ofByte (hsmall b hb)
      rw [hpoint, List.flatMap_singleton']
    · refine List.all_eq_true.mpr fun b hb => ?_
      have hb' := hbyte b hb
      simp only [Bool.or_eq_true, Bool.and_eq_true, decide_eq_true_eq, beq_iff_eq,
        bne_iff_ne] at hb' ⊢
      rcases hb' with ⟨hle, hlt⟩ | htab
      · exact .inl ⟨hle, UInt8.ne_of_lt hlt⟩
      · exact .inr htab
  · cases h

theorem headerFromStr_of_headerToStr {value : Bytes} {s : String}
    (h : headerToStr value = some s) : headerFromStr s = some value := by
  obtain ⟨hbytes, hlegal⟩ := asBytes_of_headerToStr h
  unfold headerFromStr
  rw [hbytes]
  exact if_pos hlegal

/-! ### The headers of the replay -/

/-- The pairs that the task stores. -/
def storedHeaders (headers : HeaderMap) : List (String × String) :=
  headers.filterMap fun h => (headerToStr h.2).map fun v => (h.1, v)

/-- The headers whose values convert. -/
def plainHeaders (headers : HeaderMap) : HeaderMap := headers.filter fun h => (headerToStr h.2).isSome

theorem foldl_builderHeader {headers : HeaderMap}
    (hnames : ∀ h ∈ headers, headerNameFromStr h.1 = some h.1) (built : HeaderMap) :
    (storedHeaders headers).foldl builderHeader (some built) =
      some (built ++ plainHeaders headers) := by
  induction headers generalizing built with
  | nil => exact congrArg some (List.append_nil _).symm
  | cons h headers ih =>
    have hrest := ih fun h' hh => hnames h' (List.mem_cons_of_mem _ hh)
    have hname := hnames h (List.mem_cons_self ..)
    unfold storedHeaders plainHeaders at hrest ⊢
    cases hvalue : headerToStr h.2 with
    | none =>
      rw [List.filterMap_cons_none (by rw [hvalue]; rfl), List.filter_cons_of_neg (by simp [hvalue])]
      exact hrest built
    | some v =>
      rw [List.filterMap_cons_some (by rw [hvalue]; rfl), List.filter_cons_of_pos (by simp [hvalue]),
        List.foldl_cons]
      have hstep : builderHeader (some built) (h.1, v) = some (built ++ [h]) := by
        unfold builderHeader
        simp only [Option.bind_some, hname, headerFromStr_of_headerToStr hvalue, Option.map_some]
      rw [hstep, hrest, List.append_assoc, List.singleton_append]

/-- The engine has removed what `build_cached_response` would leave out. -/
theorem storedHeaders_kept {headers : HeaderMap}
    (hrelayed : ∀ h ∈ headers, toAsciiLowercase h.1 ∉ stripResponseHeaders) :
    (storedHeaders headers).filter (fun h =>
      toAsciiLowercase h.1 ≠ "content-length" && toAsciiLowercase h.1 ≠ "transfer-encoding") =
      storedHeaders headers := by
  refine List.filter_eq_self.mpr fun h hh => ?_
  obtain ⟨h', hh', hstored⟩ := List.mem_filterMap.mp hh
  obtain ⟨v, -, rfl⟩ := Option.map_eq_some_iff.mp hstored
  have hname := hrelayed h' hh'
  simp only [Bool.and_eq_true, decide_eq_true_eq]
  constructor
  · intro heq
    exact hname (heq ▸ by decide)
  · intro heq
    exact hname (heq ▸ by decide)

theorem headerValues_append (headers headers' : HeaderMap) (name : String) :
    headerValues (headers ++ headers') name =
      headerValues headers name ++ headerValues headers' name := by
  unfold headerValues
  rw [List.filter_append, List.map_append]

/-- A filter by name keeps all the values of a name, or none. -/
theorem headerValues_filter (keep : String → Bool) (headers : HeaderMap) (name : String) :
    headerValues (headers.filter fun h => keep h.1) name =
      if keep name then headerValues headers name else [] := by
  unfold headerValues
  rw [List.filter_filter]
  split
  · rename_i hname
    refine congrArg (List.map Prod.snd) (List.filter_congr fun h _ => ?_)
    by_cases heq : h.1 = name
    · simp [heq, hname]
    · simp [heq]
  · rename_i hname
    rw [List.map_eq_nil_iff, List.filter_eq_nil_iff]
    intro h _ hkept
    simp only [Bool.and_eq_true, decide_eq_true_eq] at hkept
    exact hname (hkept.1 ▸ hkept.2)

theorem headerValues_insertHeader {headers : HeaderMap} {name other : String}
    (hne : name ≠ other) (value : Option Bytes) :
    headerValues (insertHeader headers name value) other = headerValues headers other := by
  unfold insertHeader
  cases value with
  | none => rfl
  | some v =>
    have hnew : headerValues [(name, v)] other = [] := by
      simp [headerValues, hne]
    have hold := headerValues_filter (fun own => decide (own ≠ name)) headers other
    rw [if_pos (decide_eq_true hne.symm)] at hold
    simp only [headerValues_append, hnew, List.append_nil]
    exact hold

theorem headerValues_insertCacheHeaders {headers headers' : HeaderMap} {status : CacheStatus}
    {key : Option String} {ageS : Option ℕ}
    (h : insertCacheHeaders headers status key ageS = some headers') {name : String}
    (hname : isGatewayHeader name = false) :
    headerValues headers' name = headerValues headers name := by
  have hown : ∀ (headers : HeaderMap) (own : String) (value : Option Bytes),
      isGatewayHeader own = true →
      headerValues (insertHeader headers own value) name = headerValues headers name := by
    intro headers own value hown
    have hne : own ≠ name := by
      rintro rfl
      rw [hown] at hname
      cases hname
    exact headerValues_insertHeader hne value
  have hstatus := fun headers value => hown headers "x-gateway-cache-status" value (by decide)
  have hkey := fun headers value => hown headers "x-gateway-cache-key" value (by decide)
  have hage := fun headers value => hown headers "x-gateway-cache-age" value (by decide)
  unfold insertCacheHeaders at h
  cases key with
  | none =>
    cases ageS with
    | none =>
      rw [← Option.some.inj h]
      exact hstatus _ _
    | some age =>
      rw [← Option.some.inj h]
      exact (hage _ _).trans (hstatus _ _)
  | some key =>
    obtain ⟨front, -, hfront⟩ := Option.map_eq_some_iff.mp h
    cases ageS with
    | none =>
      rw [← hfront]
      exact (hkey _ _).trans (hstatus _ _)
    | some age =>
      rw [← hfront]
      exact (hage _ _).trans ((hkey _ _).trans (hstatus _ _))

theorem headerValues_plainHeaders (headers : HeaderMap) (name : String) :
    headerValues (plainHeaders headers) name =
      (headerValues headers name).filter fun v => (headerToStr v).isSome := by
  unfold headerValues plainHeaders
  rw [List.filter_map, List.filter_filter, List.filter_filter]
  refine congrArg (List.map Prod.snd) (List.filter_congr fun h _ => ?_)
  exact Bool.and_comm ..

/-- The replay repeats every value exactly when none of them is lost. -/
theorem plainValues_iff (headers : HeaderMap) :
    (∀ name, isGatewayHeader name = false →
      headerValues (plainHeaders headers) name = headerValues headers name) ↔
      PlainValues headers := by
  constructor
  · intro hsame h hh hname
    have hfilter := hsame h.1 hname
    rw [headerValues_plainHeaders, List.filter_eq_self] at hfilter
    exact hfilter h.2 (List.mem_map.mpr ⟨h, List.mem_filter.mpr ⟨hh, decide_eq_true rfl⟩, rfl⟩)
  · intro hplain name hname
    rw [headerValues_plainHeaders, List.filter_eq_self]
    intro v hv
    obtain ⟨h, hh, rfl⟩ := List.mem_map.mp hv
    obtain ⟨hmem, hthis⟩ := List.mem_filter.mp hh
    have heq : h.1 = name := of_decide_eq_true hthis
    exact hplain h hmem (heq ▸ hname)

/-! ### What the task writes -/

theorem send_open {c : Capture} (h : c.sendErr = false) (item : Except String Bytes) :
    (c.send true item).sent = c.sent ++ [item] ∧ (c.send true item).sendErr = false := by
  unfold Capture.send
  rw [h]
  exact ⟨rfl, rfl⟩

theorem collected_sent (c : Capture) (cacheShouldWrite : Bool) (chunk : Bytes) :
    ((c.captureChunk chunk).collectChunk cacheShouldWrite chunk).sent = c.sent ∧
      ((c.captureChunk chunk).collectChunk cacheShouldWrite chunk).sendErr = c.sendErr := by
  obtain ⟨buf, truncated, hcapture⟩ := captureChunk_frame c chunk
  obtain ⟨total, oversize, chunks, hcollect⟩ :=
    collectChunk_frame (c.captureChunk chunk) cacheShouldWrite chunk
  rw [hcollect, hcapture]
  exact ⟨rfl, rfl⟩

/-- A client that stays gets the items of a stream that ends. -/
theorem captureLoop_sent (cacheShouldWrite : Bool) (k : ℕ) {items : List (Except String Bytes)}
    (hend : upstreamError items = none) {c : Capture} (hopen : c.sendErr = false) :
    (captureLoop cacheShouldWrite (fun _ => true) k items c).1.sent =
      c.sent ++ (upstreamChunks items).map .ok := by
  induction items generalizing k c with
  | nil => exact (List.append_nil _).symm
  | cons item items ih =>
    cases item with
    | error e => cases hend
    | ok chunk =>
      obtain ⟨hsent, herr⟩ := collected_sent c cacheShouldWrite chunk
      obtain ⟨hnow, hstill⟩ := send_open (herr.trans hopen) (.ok chunk)
      have hrest := ih (k + 1) hend hstill
      unfold captureLoop Capture.chunk upstreamChunks
      rw [hrest, hnow, hsent, List.map_cons, List.append_assoc, List.singleton_append]

theorem taskEvents_payload {env : ProxyEnv} {ctx : StreamContext}
    {items : List (Except String Bytes)} {key : String} {payload : CachedResponse} {ttl : UInt64}
    (h : .put key payload ttl ∈ taskEvents env ctx items) :
    Writable ctx items ∧ ctx.cacheKey = some key ∧ payload.status = ctx.status ∧
      payload.headers = storedHeaders ctx.headersOut ∧ payload.chunks = upstreamChunks items := by
  have hwritable : Writable ctx items := by
    by_contra hnot
    rw [taskEvents_none env hnot] at h
    cases h
  obtain ⟨hwrite, hend, hsize⟩ := hwritable
  have herr := captureLoop_error true env.clientOpen 0 items .start
  have hover := (captureLoop_oversize env.clientOpen 0 items (c := .start) hend rfl
    (Nat.zero_le _)).mpr (by simpa [Capture.start] using hsize)
  have hchunks := (captureLoop_collected env.clientOpen 0 items .start hend).2 hover
  unfold taskEvents streamTask at h
  rw [hwrite] at h
  rcases hloop : captureLoop true env.clientOpen 0 items .start with ⟨c, e⟩
  rw [hloop] at herr hover hchunks h
  simp only at herr hover hchunks h
  rw [herr, hend] at h
  simp only [Option.bind_some, finishStream, hwrite, hover, Bool.not_false, Bool.and_self,
    if_true] at h
  cases httl : ctx.cacheTtl with
  | none =>
    rw [httl] at h
    cases h
  | some ttl' =>
    cases hkey : ctx.cacheKey with
    | none =>
      rw [httl, hkey] at h
      cases h
    | some key' =>
      rw [httl, hkey] at h
      cases List.mem_singleton.mp h
      exact ⟨⟨hwrite, hend, hsize⟩, rfl, rfl, rfl, hchunks⟩

theorem proxyExit_success {env : ProxyEnv} {req : ProxyRequest} {ctx : StreamContext}
    {items : List (Except String Bytes)} (h : proxyExit env req = .streamed ctx items)
    (hwrite : ctx.cacheShouldWrite = true) : isSuccess ctx.status = true := by
  unfold proxyExit at h
  split at h
  · cases h
  · simp only at h
    split at h
    · cases h
    · split at h
      · cases h
      · split at h
        · cases h
        · cases h
          simp only [Bool.and_eq_true] at hwrite
          exact hwrite.1.1.2

theorem cacheLookup_found {env : ProxyEnv} {policy : Option CachePolicy} {shape : Bool}
    {key : String} {blob : Bytes} {cached : CachedResponse}
    (hstored : env.kvGet key = .ok (some blob))
    (h : (cacheLookup env policy shape (some key)).2 = some cached) :
    env.decodeCached blob = .ok cached := by
  unfold cacheLookup at h
  cases policy with
  | none => cases h
  | some policy =>
    cases shape with
    | false => cases h
    | true =>
      cases hdecode : env.decodeCached blob with
      | error e => cases hdir : policy.directive <;> simp [hdir, hstored, hdecode] at h
      | ok found => cases hdir : policy.directive <;> simp_all

theorem Replayed.cached_eq {codec : PayloadCodec} {env : ProxyEnv} {req : ProxyRequest}
    {key : String} {blob : Bytes} {cached payload : CachedResponse}
    (h : Replayed codec env req key blob cached) (hdecode : codec.decode blob = .ok payload) :
    cached = payload := by
  have hexit := h.exit
  unfold proxyExit at hexit
  split at hexit
  · cases hexit
  · rename_i route hroute
    rw [h.sameKey route hroute] at hexit
    simp only at hexit
    split at hexit
    · rename_i found hfound
      cases hexit
      have hcached := cacheLookup_found h.stored hfound
      rw [h.decoder, hdecode] at hcached
      exact (Except.ok.inj hcached).symm
    · split at hexit
      · cases hexit
      · split at hexit
        · cases hexit
        · cases hexit

theorem statusFromU16_success {status : UInt16} (h : isSuccess status = true) :
    (statusFromU16 status).getD 200 = status := by
  unfold isSuccess at h
  simp only [Bool.and_eq_true, decide_eq_true_eq, UInt16.le_iff_toNat_le,
    UInt16.lt_iff_toNat_lt] at h
  have hcode : (100 ≤ status && status < 1000) = true := by
    simp only [Bool.and_eq_true, decide_eq_true_eq, UInt16.le_iff_toNat_le,
      UInt16.lt_iff_toNat_lt]
    have hlow : (200 : UInt16).toNat = 200 := rfl
    have hhigh : (300 : UInt16).toNat = 300 := rfl
    have hlow' : (100 : UInt16).toNat = 100 := rfl
    have hhigh' : (1000 : UInt16).toNat = 1000 := rfl
    omega
  unfold statusFromU16
  rw [if_pos hcode]
  rfl

/-- The age of an entry in seconds. -/
def replayAge (cached : CachedResponse) (nowMs : Int) : ℕ :=
  (max (nowMs - cached.finishedAtMs) 0).toNat / 1000

section
variable {headers : HeaderMap} {cached : CachedResponse}

/-- The builder does not fail on what the task stored. -/
theorem buildCachedReply_stored (hnames : ∀ h ∈ headers, headerNameFromStr h.1 = some h.1)
    (hstripped : ∀ h ∈ headers, toAsciiLowercase h.1 ∉ stripResponseHeaders)
    (hstored : cached.headers = storedHeaders headers) (hsuccess : isSuccess cached.status = true)
    (status : CacheStatus) (key : String) (nowMs : Int) :
    buildCachedReply cached status key nowMs =
      (insertCacheHeaders (plainHeaders headers) status (some key)
        (some (replayAge cached nowMs))).map fun headers =>
          ⟨⟨cached.status, headers⟩, cached.chunks.map .ok⟩ := by
  unfold buildCachedReply
  rw [hstored, storedHeaders_kept hstripped]
  simp only [foldl_builderHeader hnames, statusFromU16_success hsuccess, List.nil_append,
    Option.map_some, Option.getD_some]
  rfl

/-- The record keeping sees the same status and headers. -/
theorem buildCachedReply_head (hnames : ∀ h ∈ headers, headerNameFromStr h.1 = some h.1)
    (hstripped : ∀ h ∈ headers, toAsciiLowercase h.1 ∉ stripResponseHeaders)
    (hstored : cached.headers = storedHeaders headers) (hsuccess : isSuccess cached.status = true)
    (status : CacheStatus) (key : String) (nowMs : Int) :
    (buildCachedReply cached status key nowMs).map Reply.toHttpResponse =
      buildCachedResponse cached status key nowMs := by
  have hplain : (storedHeaders headers).map (fun h => (h.1, asBytes h.2)) = plainHeaders headers := by
    unfold storedHeaders plainHeaders
    rw [List.map_filterMap, ← List.filterMap_eq_filter]
    refine List.filterMap_congr fun h _ => ?_
    cases hvalue : headerToStr h.2 with
    | none => simp [Option.guard, hvalue]
    | some v => simp [Option.guard, hvalue, (asBytes_of_headerToStr hvalue).1]
  rw [buildCachedReply_stored hnames hstripped hstored hsuccess, Option.map_map]
  unfold buildCachedResponse
  rw [hstored, storedHeaders_kept hstripped]
  simp only [hplain, statusFromU16_success hsuccess]
  rfl

end

/-- The replay of what a request wrote is what its client was given, exactly when every value
under a name that is not the gateway's own is visible ASCII. -/
theorem replay_faithful_iff {codec : PayloadCodec} (hcodec : codec.RoundTrips)
    {env env' : ProxyEnv} {req req' : ProxyRequest} {upstream : WireHeaders} {ctx : StreamContext}
    {items : List (Except String Bytes)} {key : String} {blob : Bytes}
    (hwritten : Written codec env req upstream ctx items key blob) {cached : CachedResponse}
    (hreplayed : Replayed codec env' req' key blob cached) {status : CacheStatus} {first : Reply}
    (hfirst : firstReply ctx status items = some first) (nowMs : Int) :
    ∃ again, buildCachedReply cached .hit key nowMs = some again ∧
      (Faithful first again ↔ PlainValues ctx.headersOut) := by
  obtain ⟨payload, ttl, hput, hencode⟩ := hwritten.put
  obtain ⟨⟨hwrite, hend, -⟩, hkey, hstatus, hheaders, hchunks⟩ := taskEvents_payload hput
  obtain rfl : cached = payload := hreplayed.cached_eq (hcodec.decode_encode hencode)
  have hrelayed := hwritten.relayed
  have hnames : ∀ h ∈ ctx.headersOut, headerNameFromStr h.1 = some h.1 := by
    intro h hh
    rw [hrelayed] at hh
    exact upstream.names h (List.mem_filter.mp hh).1
  have hstripped : ∀ h ∈ ctx.headersOut, toAsciiLowercase h.1 ∉ stripResponseHeaders := by
    intro h hh
    rw [hrelayed] at hh
    exact of_decide_eq_true (List.mem_filter.mp hh).2
  have hsuccess : isSuccess cached.status = true := by
    rw [hstatus]
    exact proxyExit_success hwritten.exit hwrite
  -- the key that the first response could show can be shown again
  obtain ⟨given, hgiven, rfl⟩ := Option.map_eq_some_iff.mp hfirst
  have hslices := (insertCacheHeaders_isSome ctx.headersOut status ctx.cacheKey none).mp
    (Option.isSome_of_eq_some hgiven)
  rw [hkey] at hslices
  obtain ⟨shown, hshown⟩ := Option.isSome_iff_exists.mp
    ((insertCacheHeaders_isSome (plainHeaders ctx.headersOut) .hit (some key)
      (some (replayAge cached nowMs))).mpr hslices)
  refine ⟨⟨⟨cached.status, shown⟩, cached.chunks.map .ok⟩, ?_, ?_⟩
  · rw [buildCachedReply_stored hnames hstripped hheaders hsuccess, hshown]
    rfl
  · have hbody : cached.chunks.map Except.ok =
        (captureLoop ctx.cacheShouldWrite (fun _ => true) 0 items .start).1.sent := by
      rw [captureLoop_sent ctx.cacheShouldWrite 0 hend rfl, hchunks]
      rfl
    have hvalues : ∀ name, isGatewayHeader name = false →
        (headerValues shown name = headerValues given name ↔
          headerValues (plainHeaders ctx.headersOut) name = headerValues ctx.headersOut name) := by
      intro name hname
      rw [headerValues_insertCacheHeaders hshown hname, headerValues_insertCacheHeaders hgiven hname]
    rw [← plainValues_iff]
    constructor
    · intro hfaithful name hname
      exact (hvalues name hname).mp (hfaithful.headers name hname)
    · intro hplain
      exact ⟨hstatus, fun name hname => (hvalues name hname).mpr (hplain name hname), hbody⟩

/-! ### A file name that is not ASCII -/

deriving instance DecidableEq for CachedResponse

/-- bincode and zstd on one payload, whose bytes are given: a raw block in a frame. -/
def codecOf (payload : CachedResponse) (bytes : Bytes) : PayloadCodec :=
  let size := 8 * bytes.length + 1
  let blob := [0x28, 0xB5, 0x2F, 0xFD, 0x00, 0x58, .ofNat size, .ofNat (size / 256),
    .ofNat (size / 65536)] ++ bytes
  { encodeToVec := fun p => if p = payload then .ok bytes else .error "another payload"
    decodeFromSlice := fun b => if b = bytes then .ok payload else .error "another slice"
    encodeAll := fun b => if b = bytes then .ok blob else .error "another slice"
    decodeAll := fun b => if b = blob then .ok bytes else .error "another frame" }

theorem codecOf_roundTrips (payload : CachedResponse) (bytes : Bytes) :
    (codecOf payload bytes).RoundTrips := by
  constructor
  · intro p b h
    simp only [codecOf] at h ⊢
    split at h
    · rename_i hp
      cases h
      rw [if_pos rfl, hp]
    · cases h
  · intro b z h
    simp only [codecOf] at h ⊢
    split at h
    · rename_i hb
      cases h
      rw [if_pos rfl, hb]
    · cases h

def textPayload : CachedResponse :=
  { status := 200
    headers := [("content-type", "text/plain")]
    chunks := [[104, 105]]
    finishedAtMs := 0
    servedBy := some "openai" }

def textCodec : PayloadCodec :=
  codecOf textPayload
    ([200, 1, 12] ++ asBytes "content-type" ++ [10] ++ asBytes "text/plain" ++
      [1, 2, 104, 105, 0, 1, 6] ++ asBytes "openai")

def textBlob : Bytes := (textCodec.encode textPayload).toOption.getD []

def textUpstream : WireHeaders where
  headers := [("content-type", asBytes "text/plain"), ("content-length", asBytes "2")]
  names := by decide
  values := by decide

/-- The name of the attached file is an e with an acute accent. -/
def attachmentUpstream : WireHeaders where
  headers := [("content-type", asBytes "text/plain"),
    ("content-disposition", asBytes "attachment; filename=" ++ [0xC3, 0xA9])]
  names := by decide
  values := by decide

def relayed (upstream : WireHeaders) : ForwardResponse :=
  ⟨200, filterResponseHeaders upstream.headers, 1, 1, [.ok [104, 105]]⟩

def missEnv (upstream : WireHeaders) : ProxyEnv :=
  { sampleArrival.env with forward := fun n _ => (.ok (relayed upstream), n) }

def hitEnv : ProxyEnv :=
  { sampleArrival.env with
    kvGet := fun _ => .ok (some textBlob)
    decodeCached := textCodec.decode }

def textKey : String :=
  (cacheKey sampleHash sampleNumber cachedRoute sampleArrival.req).getD ""

def missContext (upstream : WireHeaders) : StreamContext :=
  streamContext (missEnv upstream) sampleArrival.req cachingRoute .miss none (relayed upstream)

theorem missEnv_exit (upstream : WireHeaders) :
    proxyExit (missEnv upstream) sampleArrival.req =
      .streamed (missContext upstream) [.ok [104, 105]] := by
  rfl

theorem sampleArrival_route (route : RouteConfig)
    (h : findRoute hitEnv.routes sampleArrival.req.ns (extractModel sampleArrival.req.requestJson) =
      some route) : route = cachingRoute := by
  have hfound : findRoute hitEnv.routes sampleArrival.req.ns
      (extractModel sampleArrival.req.requestJson) = some cachingRoute := by decide
  rw [hfound] at h
  exact (Option.some.inj h).symm

theorem textKey_eq :
    cacheKey sampleHash sampleNumber cachedRoute sampleArrival.req = some textKey := rfl

theorem hitEnv_replayed : Replayed textCodec hitEnv sampleArrival.req textKey textBlob textPayload where
  exit := by rfl
  sameKey := by
    intro route hroute
    rw [sampleArrival_route route hroute]
    exact textKey_eq
  stored := rfl
  decoder := rfl

theorem missEnv_written (upstream : WireHeaders)
    (h : storedHeaders (filterResponseHeaders upstream.headers) = textPayload.headers) :
    Written textCodec (missEnv upstream) sampleArrival.req upstream (missContext upstream)
      [.ok [104, 105]] textKey textBlob where
  exit := missEnv_exit upstream
  relayed := rfl
  put := by
    have hput : taskEvents (missEnv upstream) (missContext upstream) [.ok [104, 105]] =
        [.put textKey { textPayload with
          headers := storedHeaders (filterResponseHeaders upstream.headers) } 3600] := by
      rfl
    refine ⟨textPayload, 3600, ?_, rfl⟩
    rw [hput, h]
    exact List.mem_singleton_self _

def firstGiven (upstream : WireHeaders) : Reply :=
  (firstReply (missContext upstream) .miss [.ok [104, 105]]).getD ⟨⟨200, []⟩, []⟩

theorem replay_faithful_iff_text :
    ∃ again, buildCachedReply textPayload .hit textKey 5000 = some again ∧
      again.body = [.ok [104, 105]] ∧ Faithful (firstGiven textUpstream) again := by
  have hwritten := missEnv_written textUpstream (by decide)
  have hfirst : firstReply (missContext textUpstream) .miss [.ok [104, 105]] =
      some (firstGiven textUpstream) := rfl
  have hplain : PlainValues (missContext textUpstream).headersOut := by
    unfold PlainValues
    decide
  obtain ⟨again, hagain, hiff⟩ := replay_faithful_iff (codecOf_roundTrips _ _) hwritten
    hitEnv_replayed hfirst 5000
  have hfaithful := hiff.mpr hplain
  exact ⟨again, hagain, hfaithful.body, hfaithful⟩

/-- The first client gets the attachment's name, and no later one does. -/
theorem replay_drops_accent :
    textCodec.RoundTrips ∧
      Written textCodec (missEnv attachmentUpstream) sampleArrival.req attachmentUpstream
        (missContext attachmentUpstream) [.ok [104, 105]] textKey textBlob ∧
      Replayed textCodec hitEnv sampleArrival.req textKey textBlob textPayload ∧
      firstReply (missContext attachmentUpstream) .miss [.ok [104, 105]] =
        some (firstGiven attachmentUpstream) ∧
      headerValues (firstGiven attachmentUpstream).headers "content-disposition" =
        [asBytes "attachment; filename=" ++ [0xC3, 0xA9]] ∧
      ∃ again, buildCachedReply textPayload .hit textKey 5000 = some again ∧
        headerValues again.headers "content-disposition" = [] ∧
        ¬Faithful (firstGiven attachmentUpstream) again := by
  have hgiven : headerValues (firstGiven attachmentUpstream).headers "content-disposition" =
      [asBytes "attachment; filename=" ++ [0xC3, 0xA9]] := by
    rfl
  obtain ⟨again, hagain⟩ : ∃ again, buildCachedReply textPayload .hit textKey 5000 = some again :=
    ⟨_, rfl⟩
  have hlost : headerValues again.headers "content-disposition" = [] := by
    cases hagain
    rfl
  refine ⟨codecOf_roundTrips _ _, missEnv_written attachmentUpstream (by decide), hitEnv_replayed,
    rfl, hgiven, again, hagain, hlost, fun hfaithful => ?_⟩
  have hsame := hfaithful.headers "content-disposition" (by decide)
  rw [hgiven, hlost] at hsame
  cases hsame

end AiGateway.Api
