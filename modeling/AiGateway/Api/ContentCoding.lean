import AiGateway.Api.UpstreamRequest

/-!
# The coding of a relayed body (`gateway-core/src/proxy/engine.rs:31-43,105-155,189-199`)

The HTTP client takes some codings off a response; `forward` takes the header off every
response. Decoders are parameters; of the client it is assumed that it decodes gzip and br,
leaves the rest alone, and keeps an `Accept-Encoding` that is there.
-/

namespace AiGateway.Api
open AiGateway.Core AiGateway.Library

/-! ### `Content-Encoding` -/

inductive Coding where
  | identity
  | gzip
  | br
  | deflate
  | zstd
  | other (name : Bytes)
  deriving DecidableEq, Repr

def lowerByte (b : UInt8) : UInt8 := if 65 ≤ b ∧ b ≤ 90 then b + 32 else b

def Coding.ofName (name : Bytes) : Coding :=
  if name = asBytes "identity" then .identity
  else if name = asBytes "gzip" then .gzip
  else if name = asBytes "br" then .br
  else if name = asBytes "deflate" then .deflate
  else if name = asBytes "zstd" then .zstd
  else .other name

def trimBlanks (value : Bytes) : Bytes :=
  let isBlank := fun b : UInt8 => b = 32 || b = 9
  ((value.dropWhile isBlank).reverse.dropWhile isBlank).reverse

/-- The codings a header map names, in the order in which they were applied. -/
def contentCodings (headers : HeaderMap) : List Coding :=
  (headerValues headers "content-encoding").flatMap fun value =>
    ((value.splitOn 44).map trimBlanks).filterMap fun name =>
      if name = [] then none else some (Coding.ofName (name.map lowerByte))

def decodeCoding (decode : Coding → Bytes → Option Bytes) (coding : Coding) (body : Bytes) :
    Option Bytes :=
  if coding = .identity then some body else decode coding body

/-- The coding applied last comes off first. -/
def decodeBody (decode : Coding → Bytes → Option Bytes) (codings : List Coding) (body : Bytes) :
    Option Bytes :=
  codings.foldr (fun coding body => body.bind (decodeCoding decode coding)) (some body)

/-- The bytes of a body that was read to the end. -/
def content : List (Except String Bytes) → Option Bytes
  | [] => some []
  | .ok chunk :: items => (content items).map (chunk ++ ·)
  | .error _ :: _ => none

/-! ### The HTTP client -/

structure UpstreamResponse where
  status : UInt16
  headers : HeaderMap
  body : Bytes

/-- What goes out for a header map, and what comes back for headers and body of a response. -/
structure HttpClient where
  onWire : HeaderMap → HeaderMap
  deliver : HeaderMap → Bytes → HeaderMap × List (Except String Bytes)

structure HttpClient.Assumed (client : HttpClient) (decode : Coding → Bytes → Option Bytes) :
    Prop where
  acceptEncoding : ∀ headers : HeaderMap, (headers.get "accept-encoding").isSome →
    headerValues (client.onWire headers) "accept-encoding" =
      headerValues headers "accept-encoding"
  gzip : ∀ headers body, headerValues headers "content-encoding" = [asBytes "gzip"] →
    content (client.deliver headers body).2 = decode .gzip body
  br : ∀ headers body, headerValues headers "content-encoding" = [asBytes "br"] →
    content (client.deliver headers body).2 = decode .br body
  untouched : ∀ headers body, headerValues headers "content-encoding" ≠ [asBytes "gzip"] →
    headerValues headers "content-encoding" ≠ [asBytes "br"] →
    (client.deliver headers body).1 = headers ∧
      content (client.deliver headers body).2 = some body

def HttpClient.request (client : HttpClient) (r : UpstreamRequest) : UpstreamRequest :=
  { r with headers := client.onWire r.headers }

/-- The answer of `upstream`, through the client and the filter of `forward`. -/
def overClient (client : HttpClient) (upstream : UpstreamRequest → UpstreamResponse) (ms : ℕ)
    (r : UpstreamRequest) : Except SendError ForwardResponse :=
  let answer := upstream (client.request r)
  let delivered := client.deliver answer.headers answer.body
  .ok ⟨answer.status, filterResponseHeaders delivered.1, ms, ms, delivered.2⟩

/-! ### The first client gets what the HTTP client delivered -/

theorem content_append_error (items : List (Except String Bytes)) (e : String)
    (rest : List (Except String Bytes)) : content (items ++ .error e :: rest) = none := by
  induction items with
  | nil => rfl
  | cons item items ih =>
    cases item with
    | error _ => rfl
    | ok chunk =>
      show (content (items ++ .error e :: rest)).map _ = none
      rw [ih]
      rfl

theorem content_captureLoop (cacheShouldWrite : Bool) (k : ℕ) (items : List (Except String Bytes))
    {c : Capture} (hopen : c.sendErr = false) :
    content (captureLoop cacheShouldWrite (fun _ => true) k items c).1.sent =
      content (c.sent ++ items) := by
  induction items generalizing k c with
  | nil =>
    rw [List.append_nil]
    rfl
  | cons item items ih =>
    cases item with
    | error e =>
      unfold captureLoop
      rw [(send_open hopen (.error e)).1, content_append_error, content_append_error]
    | ok chunk =>
      obtain ⟨hsent, herr⟩ := collected_sent c cacheShouldWrite chunk
      obtain ⟨hnow, hstill⟩ := send_open (herr.trans hopen) (.ok chunk)
      unfold captureLoop Capture.chunk
      rw [ih (k + 1) hstill, hnow, hsent, List.append_assoc, List.singleton_append]

theorem headerValues_filterResponseHeaders (headers : HeaderMap) :
    headerValues (filterResponseHeaders headers) "content-encoding" = [] := by
  have hfilter := headerValues_filter
    (fun name => decide (toAsciiLowercase name ∉ stripResponseHeaders)) headers "content-encoding"
  rw [if_neg (by decide)] at hfilter
  exact hfilter

theorem decodeBody_identity (decode : Coding → Bytes → Option Bytes) {codings : List Coding}
    (h : ∀ coding ∈ codings, coding = .identity) (body : Bytes) :
    decodeBody decode codings body = some body := by
  induction codings with
  | nil => rfl
  | cons coding rest ih =>
    have hrest := ih fun c hc => h c (List.mem_cons_of_mem _ hc)
    unfold decodeBody at hrest ⊢
    rw [List.foldr_cons, hrest, h coding (List.mem_cons_self ..)]
    rfl

theorem contentCodings_gzip {headers : HeaderMap}
    (h : headerValues headers "content-encoding" = [asBytes "gzip"]) :
    contentCodings headers = [.gzip] := by
  unfold contentCodings
  rw [h]
  decide

theorem contentCodings_br {headers : HeaderMap}
    (h : headerValues headers "content-encoding" = [asBytes "br"]) :
    contentCodings headers = [.br] := by
  unfold contentCodings
  rw [h]
  decide

section
variable {client : HttpClient} {decode : Coding → Bytes → Option Bytes}
  {upstream : UpstreamRequest → UpstreamResponse} {ms : ℕ}

/-- An `Accept-Encoding` of the client goes on the wire, unless the configuration has one. -/
theorem acceptEncoding_onWire (hclient : client.Assumed decode) {provider : ResolvedProvider}
    {order : List (String × String)} (horder : HashMap.Iterates provider.extraHeaders order)
    {headers : HeaderMap} (hsome : (headers.get "accept-encoding").isSome)
    (hown : ¬Overrides provider "accept-encoding") :
    headerValues (client.onWire (upstreamHeaders provider order headers)) "accept-encoding" =
      headerValues headers "accept-encoding" := by
  have hkept : headerValues (upstreamHeaders provider order headers) "accept-encoding" =
      headerValues headers "accept-encoding" := by
    unfold upstreamHeaders
    simp only
    rw [headerValues_removeHeader, if_neg (by decide),
      headerValues_foldl_insertExtra (fun extra hextra hname => ?_)]
    · have hfilter := headerValues_filterRequestHeaders headers "accept-encoding"
      rw [if_neg (by decide)] at hfilter
      rw [← hfilter]
      cases provider.injector with
      | openAi =>
        unfold inject
        simp only
        rw [headerValues_insertHeader (by decide), headerValues_insertHeader (by decide)]
      | anthropic =>
        unfold inject
        simp only
        split
        · exact headerValues_insertHeader (by decide) _
        · rw [headerValues_insertHeader (by decide), headerValues_insertHeader (by decide)]
    · cases hlegal : headerFromStr extra.2 with
      | none => rfl
      | some v =>
        exact absurd ⟨extra.1, extra.2, horder.mem.mp hextra, hname, by rw [hlegal]; rfl⟩ hown
  rw [hclient.acceptEncoding _ ?_, hkept]
  rw [get_eq_head, hkept, ← get_eq_head]
  exact hsome

/-- The codings that the client takes off, or none to take off. -/
def Covered (headers : HeaderMap) : Prop :=
  headerValues headers "content-encoding" = [asBytes "gzip"] ∨
    headerValues headers "content-encoding" = [asBytes "br"] ∨
      ∀ coding ∈ contentCodings headers, coding = .identity

theorem content_deliver (hclient : client.Assumed decode) (headers : HeaderMap) (body : Bytes) :
    content (client.deliver headers body).2 = decodeBody decode (contentCodings headers) body ↔
      Covered headers ∨ decodeBody decode (contentCodings headers) body = some body := by
  by_cases hgzip : headerValues headers "content-encoding" = [asBytes "gzip"]
  · rw [hclient.gzip headers body hgzip, contentCodings_gzip hgzip]
    exact iff_of_true rfl (Or.inl (Or.inl hgzip))
  by_cases hbr : headerValues headers "content-encoding" = [asBytes "br"]
  · rw [hclient.br headers body hbr, contentCodings_br hbr]
    exact iff_of_true rfl (Or.inl (Or.inr (Or.inl hbr)))
  rw [(hclient.untouched headers body hgzip hbr).2]
  constructor
  · intro h
    exact Or.inr h.symm
  · rintro ((h | h | h) | h)
    · exact absurd h hgzip
    · exact absurd h hbr
    · exact (decodeBody_identity decode h body).symm
    · exact h.symm

/-- What the first client decodes is what the upstream coded exactly when the client library
takes every coding off, or there is nothing to take off. -/
theorem relayed_decodes_iff (hclient : client.Assumed decode) {provider : ResolvedProvider}
    {order : HashMap String String → List (String × String)} {req : ForwardRequest}
    {response : ForwardResponse}
    (hsent : sendOver (overClient client upstream ms) order provider req = .ok response)
    {answer : UpstreamResponse}
    (hanswer : answer =
      upstream (client.request (upstreamRequest provider (order provider.extraHeaders) req)))
    {ctx : StreamContext} (hctx : ctx.headersOut = response.headers) {status : CacheStatus}
    {reply : Reply} (hreply : firstReply ctx status response.body = some reply) :
    (content reply.body).bind (decodeBody decode (contentCodings reply.headers)) =
        decodeBody decode (contentCodings answer.headers) answer.body ↔
      Covered answer.headers ∨
        decodeBody decode (contentCodings answer.headers) answer.body = some answer.body := by
  unfold sendOver overClient at hsent
  cases hsent
  obtain ⟨headers, hheaders, rfl⟩ := Option.map_eq_some_iff.mp hreply
  have hnone : contentCodings headers = [] := by
    unfold contentCodings
    rw [headerValues_insertCacheHeaders hheaders (by decide), hctx,
      headerValues_filterResponseHeaders]
    rfl
  simp only [hnone]
  rw [content_captureLoop ctx.cacheShouldWrite 0 _ rfl, ← content_deliver hclient, hanswer]
  show (content _).bind some = _ ↔ _
  rw [Option.bind_fun_some]
  exact Iff.rfl

end

/-! ### A client that offers deflate -/

/-- `hi` as a zlib stream. -/
def hiDeflate : Bytes := [120, 156, 203, 200, 4, 0, 1, 59, 0, 210]

def hiGzip : Bytes :=
  [31, 139, 8, 0, 0, 0, 0, 0, 2, 3, 203, 200,
    4, 0, 172, 42, 147, 216, 2, 0, 0, 0]

def sampleDecode (coding : Coding) (body : Bytes) : Option Bytes :=
  if (coding = .deflate ∧ body = hiDeflate) ∨ (coding = .gzip ∧ body = hiGzip) then
    some (asBytes "hi")
  else none

def sampleClient : HttpClient where
  onWire headers :=
    if (headers.get "accept-encoding").isSome then headers
    else headers ++ [("accept-encoding", asBytes "gzip, br")]
  deliver headers body :=
    let decoded := fun coding =>
      (removeHeader (removeHeader headers "content-encoding") "content-length",
        (sampleDecode coding body).elim [.error "invalid body"] fun bytes => [.ok bytes])
    if headerValues headers "content-encoding" = [asBytes "gzip"] then decoded .gzip
    else if headerValues headers "content-encoding" = [asBytes "br"] then decoded .br
    else (headers, [.ok body])

theorem sampleClient_assumed : sampleClient.Assumed sampleDecode where
  acceptEncoding headers h := by
    unfold sampleClient
    simp only [h, if_true]
  gzip headers body h := by
    unfold sampleClient
    simp only [h, if_true]
    cases hbody : sampleDecode .gzip body with
    | none => rfl
    | some bytes => exact congrArg some (List.append_nil bytes)
  br headers body h := by
    have hne : [asBytes "br"] ≠ [asBytes "gzip"] := by decide
    unfold sampleClient
    simp only [h, hne, if_true, if_false]
    cases hbody : sampleDecode .br body with
    | none => rfl
    | some bytes => exact congrArg some (List.append_nil bytes)
  untouched headers body hgzip hbr := by
    unfold sampleClient
    simp only [hgzip, hbr, if_false]
    exact ⟨trivial, congrArg some (List.append_nil body)⟩

/-- Answers in deflate where that is accepted. -/
def deflatingUpstream (r : UpstreamRequest) : UpstreamResponse :=
  if headerValues r.headers "accept-encoding" = [asBytes "deflate"] then
    ⟨200, [("content-type", asBytes "text/plain"), ("content-encoding", asBytes "deflate")],
      hiDeflate⟩
  else ⟨200, [("content-type", asBytes "text/plain")], asBytes "hi"⟩

def codedRequest (headers : HeaderMap) : ForwardRequest :=
  ⟨"openai", "/v1/chat/completions", none, "POST", headers, some (asBytes "\x7b\x7d")⟩

def codedAnswer (headers : HeaderMap) : UpstreamResponse :=
  deflatingUpstream
    (sampleClient.request (upstreamRequest openAiProvider [] (codedRequest headers)))

/-- What `forward` makes of that answer. -/
def codedResponse (body : Bytes) : ForwardResponse :=
  ⟨200, [("content-type", asBytes "text/plain")], 1, 1, [.ok body]⟩

def codedContext : StreamContext :=
  ⟨200, [("content-type", asBytes "text/plain")], "openai", none, false, none, none⟩

def codedReply (body : Bytes) : Reply :=
  ⟨⟨200, [("content-type", asBytes "text/plain"),
    ("x-gateway-cache-status", asBytes "bypass")]⟩, [.ok body]⟩

/-- Answers in gzip to the client library's own offer. -/
def gzippingUpstream (r : UpstreamRequest) : UpstreamResponse :=
  if headerValues r.headers "accept-encoding" = [asBytes "gzip, br"] then
    ⟨200, [("content-type", asBytes "text/plain"), ("content-encoding", asBytes "gzip")], hiGzip⟩
  else ⟨200, [("content-type", asBytes "text/plain")], asBytes "hi"⟩

def gzippedAnswer : UpstreamResponse :=
  gzippingUpstream (sampleClient.request (upstreamRequest openAiProvider [] (codedRequest [])))

theorem relayed_decodes_gzip :
    gzippedAnswer.body = hiGzip ∧
      (content (codedReply (asBytes "hi")).body).bind
          (decodeBody sampleDecode (contentCodings (codedReply (asBytes "hi")).headers)) =
        decodeBody sampleDecode (contentCodings gzippedAnswer.headers) gzippedAnswer.body :=
  ⟨rfl, (@relayed_decodes_iff sampleClient sampleDecode gzippingUpstream 1 sampleClient_assumed
    openAiProvider (fun _ => []) (codedRequest []) (codedResponse (asBytes "hi")) rfl
    gzippedAnswer rfl codedContext rfl .bypass (codedReply (asBytes "hi")) rfl).mpr
    (Or.inl (Or.inl (by decide)))⟩

/-- The client said that it reads deflate, and gets the stream without the header. -/
theorem relayed_deflate_garbled :
    sampleClient.Assumed sampleDecode ∧
      sendOver (overClient sampleClient deflatingUpstream 1) (fun _ => []) openAiProvider
        (codedRequest [("accept-encoding", asBytes "deflate")]) = .ok (codedResponse hiDeflate) ∧
      firstReply codedContext .bypass (codedResponse hiDeflate).body =
        some (codedReply hiDeflate) ∧
      (content (codedReply hiDeflate).body).bind
          (decodeBody sampleDecode (contentCodings (codedReply hiDeflate).headers)) ≠
        decodeBody sampleDecode
          (contentCodings (codedAnswer [("accept-encoding", asBytes "deflate")]).headers)
          (codedAnswer [("accept-encoding", asBytes "deflate")]).body :=
  ⟨sampleClient_assumed, rfl, rfl, by decide⟩

end AiGateway.Api
