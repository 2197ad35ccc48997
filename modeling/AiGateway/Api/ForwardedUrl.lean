import AiGateway.Api.LogFronts
import AiGateway.Api.UpstreamRequest
import AiGateway.Core.SentRequests
import AiGateway.Library.UrlTails

/-!
# The URL of a forwarded request (`gateway-api/src/routes/proxy.rs:37-96, 291-308`)

The router decodes the two parameters of the path and keeps the query to itself; the handler
puts what it gets behind one slash, and `build_url` puts this behind the base. The HTTP client
(`reqwest`) parses the text and sends the URL that it writes out.
-/

namespace AiGateway.Api
open AiGateway.Core AiGateway.Library

/-- A request to `/v1/{ns}/{tail}?{query}`, as the client wrote it. -/
structure ClientCall where
  method : String
  ns : String
  tail : String
  query : Option String
  headers : HeaderMap
  body : Bytes
  -- a question mark would end the tail
  path : 63 ∉ asBytes tail

/-- A parameter of the `Path` extractor; `none` is its rejection. -/
def pathParam (raw : String) : Option String := fromUtf8 (percentDecode (asBytes raw))

def trimStartSlashes (s : String) : String := String.ofList (s.toList.dropWhile (· = '/'))

/-- From the extractors to `upstream_path`. -/
def ClientCall.proxyRequest (fromSlice : Bytes → Option Value) (c : ClientCall) :
    Option ProxyRequest :=
  (pathParam c.ns).bind fun ns => (pathParam c.tail).map fun tail =>
    { method := c.method
      ns := ns
      upstreamPath := "/" ++ trimStartSlashes tail
      headers := c.headers
      body := c.body
      requestJson := fromSlice c.body }

/-- What a client that called the provider itself would have asked for. -/
def ClientCall.directUrl (c : ClientCall) (base : String) : String :=
  trimEndSlashes base ++ "/" ++ c.tail ++ c.query.elim "" fun q => "?" ++ q

/-- The tail is sent behind the base as it was written. -/
inductive TailKept (writer : UrlWriter) (base tail : Bytes) : Prop
  | behindBase (kept : writer.sends (base ++ [47]) = some (base ++ [47]))
      (relative : tail.head? ≠ some 47)
      (written : writer.WellWritten (base.contains 63) tail)
  -- the base is a bare `https:` and the tail begins with the host
  | behindScheme {secure : Bool} {name rest : Bytes} (scheme : base = schemeText secure)
      (host : writer.host secure name = some name) (target : tail = 47 :: (name ++ 47 :: rest))
      (written : writer.WellWritten false rest)

/-- The target gets through as it was written. -/
structure ClientCall.Plain (c : ClientCall) (writer : UrlWriter) (base : String) : Prop where
  query : c.query = none
  tail : TailKept writer (asBytes (trimEndSlashes base)) (asBytes c.tail)
  short : (asBytes (c.directUrl base)).length ≤ writer.limit

/-! ### Slashes -/

theorem utf8EncodeChar_slash {c : Char} (h : c ≠ '/') : ∀ b ∈ String.utf8EncodeChar c, b ≠ 47 := by
  intro b hb heq
  rw [heq] at hb
  rcases utf8EncodeChar_bytes c with ⟨b', hone, -⟩ | hlarge
  · rw [hone, List.mem_singleton] at hb
    have hsame : asBytes (String.ofList [c]) = asBytes (String.ofList ['/']) := by
      rw [asBytes_ofList, asBytes_ofList, utf8Bytes, utf8Bytes, List.flatMap_singleton,
        List.flatMap_singleton, hone, ← hb]
      rfl
    have hchars := congrArg String.toList (asBytes_injective hsame)
    rw [String.toList_ofList, String.toList_ofList] at hchars
    exact h (List.cons.inj hchars).1
  · exact absurd (hlarge 47 hb) (by decide)

theorem asBytes_trimStartSlashes (s : String) :
    asBytes (trimStartSlashes s) = (asBytes s).dropWhile (· = 47) := by
  have hchars : ∀ cs : List Char,
      utf8Bytes (cs.dropWhile (· = '/')) = (utf8Bytes cs).dropWhile (· = 47) := by
    intro cs
    induction cs with
    | nil => rfl
    | cons c cs ih =>
      by_cases hc : c = '/'
      · rw [hc, List.dropWhile_cons_of_pos (by decide), ih]
        rfl
      · obtain ⟨b, bs, hbytes⟩ := List.exists_cons_of_ne_nil
          (List.ne_nil_of_length_pos (String.length_utf8EncodeChar c ▸ c.utf8Size_pos))
        have hb : b ≠ 47 := utf8EncodeChar_slash hc b (by rw [hbytes]; exact List.mem_cons_self ..)
        rw [List.dropWhile_cons_of_neg (by simpa using hc), utf8Bytes, List.flatMap_cons, hbytes,
          List.cons_append, List.dropWhile_cons_of_neg (by simpa using hb)]
  have hall := hchars s.toList
  rw [← asBytes_ofList, ← asBytes_ofList, String.ofList_toList] at hall
  exact hall

theorem asBytes_trimEndSlashes (s : String) : (asBytes (trimEndSlashes s)).getLast? ≠ some 47 := by
  rw [trimEndSlashes, asBytes_ofList]
  cases hchars : s.toList.reverse.dropWhile (· = '/') with
  | nil => exact fun h => by cases h
  | cons c cs =>
    have hc : c ≠ '/' := by
      have hhead := List.head?_dropWhile_not (fun c : Char => decide (c = '/')) s.toList.reverse
      rw [hchars] at hhead
      simpa using hhead
    intro hlast
    rw [List.reverse_cons, utf8Bytes, List.flatMap_append, List.flatMap_singleton] at hlast
    have hne : String.utf8EncodeChar c ≠ [] :=
      List.ne_nil_of_length_pos (String.length_utf8EncodeChar c ▸ c.utf8Size_pos)
    rw [List.getLast?_append_of_ne_nil _ hne] at hlast
    exact utf8EncodeChar_slash hc 47 (List.mem_of_getLast? hlast) rfl

/-! ### Where a base ends -/

theorem not_mem_hostText {name : Bytes} (hname : HostText name) : 47 ∉ name ∧ 63 ∉ name ∧ 37 ∉ name := by
  refine ⟨fun hmem => ?_, fun hmem => ?_, fun hmem => ?_⟩
  · exact absurd (hname.2 47 hmem).2.2 (by decide)
  · exact absurd (hname.2 63 hmem).2.2 (by decide)
  · exact (hname.2 37 hmem).2.1 rfl

theorem not_mem_schemeText (secure : Bool) : 47 ∉ schemeText secure ∧ 63 ∉ schemeText secure := by
  cases secure <;> decide

/-- A URL that begins with a base has its host in the base, or the base is its scheme. -/
theorem base_cases {base tail name rest : Bytes} {secure : Bool} (hname : HostText name)
    (hend : base.getLast? ≠ some 47)
    (h : base ++ 47 :: tail = schemeText secure ++ [47, 47] ++ name ++ 47 :: rest) :
    (∃ front, (∀ b ∈ front.head?, b = 47) ∧ base = schemeText secure ++ [47, 47] ++ name ++ front) ∨
      (base = schemeText secure ∧ tail = 47 :: (name ++ 47 :: rest)) := by
  obtain ⟨hslash, -, -⟩ := not_mem_hostText hname
  have hscheme := (not_mem_schemeText secure).1
  rcases List.append_eq_append_iff.mp h with ⟨more, horigin, htail⟩ | ⟨front, hbase, hrest⟩
  · match more with
    | [] =>
      rw [List.append_nil] at horigin
      refine Or.inl ⟨[], fun b hb => ?_, ?_⟩
      · cases hb
      · rw [List.append_nil, horigin]
    | b :: more =>
      obtain ⟨rfl, hmore⟩ := List.cons.inj htail
      have hparts : base ++ 47 :: more = schemeText secure ++ 47 :: 47 :: name := by
        rw [← horigin, List.append_assoc]
        rfl
      rcases List.append_eq_append_iff.mp hparts with ⟨front, hfront, hback⟩ | ⟨front, hfront, hback⟩
      · match front with
        | [] =>
          rw [List.append_nil] at hfront
          right
          refine ⟨hfront.symm, ?_⟩
          rw [hmore, (List.cons.inj hback).2]
          rfl
        | b :: front =>
          obtain ⟨rfl, -⟩ := List.cons.inj hback
          rw [hfront] at hscheme
          exact (hscheme (List.mem_append_right _ (List.mem_cons_self ..))).elim
      · match front with
        | [] =>
          right
          rw [List.append_nil] at hfront
          refine ⟨hfront, ?_⟩
          rw [hmore, ← (List.cons.inj hback).2]
          rfl
        | [b] =>
          obtain ⟨rfl, -⟩ := List.cons.inj hback
          rw [hfront, List.getLast?_concat] at hend
          exact (hend rfl).elim
        | b :: c :: front =>
          obtain ⟨-, hback'⟩ := List.cons.inj hback
          obtain ⟨-, hname'⟩ := List.cons.inj hback'
          rw [hname'] at hslash
          exact (hslash (List.mem_append_right _ (List.mem_cons_self ..))).elim
  · refine Or.inl ⟨front, fun b hb => ?_, hbase⟩
    match front with
    | [] => cases hb
    | c :: front =>
      cases hb
      exact (List.cons.inj hrest).1.symm

/-- The host of a tail that comes behind a bare scheme. -/
theorem tail_of_scheme {tail query name rest : Bytes} (hname : HostText name)
    (hquery : ∀ b ∈ query.head?, b = 63) (h : tail ++ query = 47 :: (name ++ 47 :: rest)) :
    ∃ rest', tail = 47 :: (name ++ 47 :: rest') ∧ rest = rest' ++ query := by
  obtain ⟨-, hmark, -⟩ := not_mem_hostText hname
  have hparts : tail ++ query = (47 :: name) ++ 47 :: rest := h
  rcases List.append_eq_append_iff.mp hparts with ⟨more, htarget, hback⟩ | ⟨more, htarget, hback⟩
  · match more with
    | [] =>
      rw [List.nil_append] at hback
      rw [hback] at hquery
      exact absurd (hquery 47 rfl) (by decide)
    | b :: more =>
      rw [hback] at hquery
      have hb : b = 63 := hquery b rfl
      rcases List.mem_cons.mp (htarget ▸ List.mem_append_right tail (List.mem_cons_self ..) :
        b ∈ 47 :: name) with hb47 | hmem
      · exact absurd (hb.symm.trans hb47) (by decide)
      · exact (hmark (hb ▸ hmem)).elim
  · match more with
    | [] =>
      rw [List.nil_append] at hback
      rw [← hback] at hquery
      exact absurd (hquery 47 rfl) (by decide)
    | b :: more =>
      obtain ⟨rfl, hrest⟩ := List.cons.inj hback
      exact ⟨more, htarget, hrest⟩

/-- Sizes leave no room for a query. -/
theorem query_nil {tail query decoded : Bytes} (hquery : ∀ b ∈ query.head?, b = 63)
    (hdecoded : decoded.length ≤ decodedLength tail)
    (h : decodedLength (tail ++ query) ≤ decodedLength decoded) : query = [] := by
  have hle := decodedLength_le decoded
  have happend : decodedLength (tail ++ query) = decodedLength tail + decodedLength query := by
    refine decodedLength_append fun b hb => ?_
    rw [hquery b hb]
    rfl
  exact decodedLength_eq_zero_iff.mp (by omega)

theorem percentDecode_target {name : Bytes} (hname : HostText name) (rest : Bytes) :
    (percentDecode (47 :: (name ++ 47 :: rest))).dropWhile (· = 47) =
      name ++ 47 :: percentDecode rest := by
  obtain ⟨hslash, -, hpercent⟩ := not_mem_hostText hname
  have hplain : ∀ bytes : Bytes, 37 ∉ bytes → percentDecode bytes = bytes := by
    intro bytes
    induction bytes with
    | nil => exact fun _ => rfl
    | cons b bytes ih =>
      intro hnone
      rw [List.mem_cons, not_or] at hnone
      rw [percentDecode_standalone (standalone_of_ne (Ne.symm hnone.1) _), ih hnone.2]
  obtain ⟨b, bs, hcons⟩ := List.exists_cons_of_ne_nil hname.1
  have hb : b ≠ 47 := by
    intro heq
    rw [hcons, heq] at hslash
    exact hslash (List.mem_cons_self ..)
  rw [percentDecode_standalone (standalone_of_ne (by decide) _),
    percentDecode_append_cons name rfl, hplain name hpercent, List.dropWhile_cons_of_pos (by decide),
    hcons, List.cons_append, List.dropWhile_cons_of_neg (by simpa using hb)]

/-- A tail that is spelled as the client spells it does not decode to one with a slash in front. -/
theorem decoded_relative {writer : UrlWriter} {query : Bool} {tail : Bytes}
    (hwritten : writer.WellWritten query tail) (hrelative : tail.head? ≠ some 47) :
    (percentDecode tail).dropWhile (· = 47) = percentDecode tail := by
  have hspelled := (EscapeSet.encode_percentDecode_iff _).mpr hwritten.escaped
  cases hdecoded : percentDecode tail with
  | nil => rfl
  | cons b rest =>
    refine List.dropWhile_cons_of_neg fun hb => hrelative ?_
    rw [of_decide_eq_true hb] at hdecoded
    rw [hdecoded, EscapeSet.encode_cons_plain _ (EscapeSet.slash _)] at hspelled
    rw [← hspelled]
    rfl

theorem contains_base {name : Bytes} (hname : HostText name) (secure : Bool) (front : Bytes) :
    (schemeText secure ++ [47, 47] ++ name ++ front).contains 63 = front.contains 63 := by
  have hmem : 63 ∈ schemeText secure ++ [47, 47] ++ name ++ front ↔ 63 ∈ front := by
    simp [(not_mem_hostText hname).2.1, (not_mem_schemeText secure).2]
  rw [Bool.eq_iff_iff, List.contains_iff_mem, List.contains_iff_mem, hmem]

theorem schemeUrl (secure : Bool) (name rest : Bytes) :
    schemeText secure ++ 47 :: 47 :: (name ++ 47 :: rest) =
      schemeText secure ++ [47, 47] ++ name ++ 47 :: rest := by
  rw [List.append_assoc, List.append_assoc]
  rfl

/-- Behind a bare scheme the tail names the host. -/
theorem sends_scheme_iff (writer : UrlWriter) {name : Bytes} (hname : HostText name)
    (secure : Bool) (tail rest : Bytes) :
    writer.sends (schemeText secure ++ 47 :: (name ++ 47 :: tail)) =
        some (schemeText secure ++ 47 :: 47 :: (name ++ 47 :: rest)) ↔
      writer.host secure name = some name ∧ writer.writeTarget (cleanText (47 :: tail)) = 47 :: rest ∧
        (schemeText secure ++ 47 :: 47 :: (name ++ 47 :: rest)).length ≤ writer.limit := by
  rw [schemeUrl]
  exact writer.sends_eq_iff hname secure 1 tail rest

section
variable {writer : UrlWriter} {base tail query : Bytes} (hend : base.getLast? ≠ some 47)
  (hquery : ∀ b ∈ query.head?, b = 63)
include hend hquery

/-- A query is not sent. -/
theorem sends_tail_query (h : writer.sends (base ++ 47 :: (percentDecode tail).dropWhile (· = 47)) =
    some (base ++ 47 :: (tail ++ query))) : query = [] := by
  obtain ⟨secure, name, rest, hname, hurl, -⟩ := writer.sends_shape h
  rcases base_cases hname hend hurl with ⟨front, hroot, rfl⟩ | ⟨rfl, htail⟩
  · have htarget := ((writer.sends_front_iff hname secure hroot _ _).mp h).2.1
    exact query_nil hquery (List.dropWhile_suffix _).length_le
      (writer.writeTarget_length_append hroot htarget)
  · obtain ⟨rest', htail', hrest⟩ := tail_of_scheme hname hquery htail
    have hroot : ∀ b ∈ ([] : Bytes).head?, b = 47 := fun b hb => by cases hb
    rw [htail, htail', percentDecode_target hname, sends_scheme_iff writer hname, hrest] at h
    exact query_nil hquery (Nat.le_refl _) (writer.writeTarget_length_append hroot h.2.1)

omit hquery

/-- When a decoded tail, without the slashes in front of it, is sent as it was written. -/
theorem sends_tail_iff (hmark : 63 ∉ tail) :
    writer.sends (base ++ 47 :: (percentDecode tail).dropWhile (· = 47)) =
        some (base ++ 47 :: tail) ↔
      TailKept writer base tail ∧ (base ++ 47 :: tail).length ≤ writer.limit := by
  have hroot : ∀ b ∈ ([] : Bytes).head?, b = 47 := fun b hb => by cases hb
  have hmarkless : ∀ {name rest : Bytes}, tail = 47 :: (name ++ 47 :: rest) → 63 ∉ rest := by
    intro name rest htail hmem
    rw [htail] at hmark
    exact hmark (List.mem_cons_of_mem _ (List.mem_append_right _ (List.mem_cons_of_mem _ hmem)))
  constructor
  · intro h
    obtain ⟨secure, name, rest, hname, hurl, -⟩ := writer.sends_shape h
    rcases base_cases hname hend hurl with ⟨front, hroot, rfl⟩ | ⟨rfl, htail⟩
    · obtain ⟨hbase, hwhole, hwritten, hlimit⟩ :=
        (writer.sends_behind_iff hname secure hroot (List.dropWhile_suffix _) hmark).mp h
      refine ⟨.behindBase hbase (fun hhead => ?_) ?_, hlimit⟩
      · match tail, hhead with
        | b :: tail', hhead =>
          cases hhead
          have hlength := (List.dropWhile_suffix (l := percentDecode tail') (· = 47)).length_le
          rw [percentDecode_standalone (standalone_of_ne (by decide) _),
            List.dropWhile_cons_of_pos (by decide)] at hwhole
          rw [hwhole, List.length_cons] at hlength
          omega
      · rw [contains_base hname]
        exact hwritten
    · rw [htail, percentDecode_target hname, sends_scheme_iff writer hname] at h
      obtain ⟨hhost, htarget, hlimit⟩ := h
      have hwritten := (writer.writeTarget_append_iff hroot (List.suffix_refl _)
        (hmarkless htail)).mp htarget
      rw [htail]
      exact ⟨.behindScheme rfl hhost rfl hwritten.2.2, hlimit⟩
  · intro h
    obtain ⟨hkept, hlimit⟩ := h
    cases hkept with
    | behindBase hbase hrelative hwritten =>
      obtain ⟨secure, name, rest, hname, hurl, -⟩ := writer.sends_shape hbase
      rcases base_cases hname hend hurl with ⟨front, hroot, rfl⟩ | ⟨-, htail⟩
      · rw [decoded_relative hwritten hrelative]
        rw [contains_base hname] at hwritten
        exact (writer.sends_behind_iff hname secure hroot (List.suffix_refl _) hmark).mpr
          ⟨hbase, rfl, hwritten, hlimit⟩
      · cases htail
    | behindScheme hscheme hhost htarget hwritten =>
      have hname := writer.host_written hhost
      have hempty : writer.writeTarget (cleanText ([] ++ [47])) = [] ++ [47] := rfl
      have hsent := (writer.writeTarget_append_iff hroot (List.suffix_refl _)
        (hmarkless htarget)).mpr ⟨hempty, rfl, hwritten⟩
      rw [hscheme, htarget] at hlimit ⊢
      rw [percentDecode_target hname, sends_scheme_iff writer hname]
      exact ⟨hhost, hsent, hlimit⟩

end

/-! ### Every attempt -/

theorem buildUrl_rooted (base rest : String) :
    buildUrl base ("/" ++ rest) none = trimEndSlashes base ++ "/" ++ rest := by
  have hslash : ("/" ++ rest).toList.head? = some '/' := by
    rw [String.toList_append]
    rfl
  unfold buildUrl
  simp only
  rw [if_pos hslash, Option.elim_none, String.append_assoc]

/-- Whatever the chain: what an attempt sends is the URL that the client wrote just if the target
has no query, and its tail is spelled as the HTTP client spells it. -/
theorem forwarded_url_iff (writer : UrlWriter) (forward : Forward) (chain : ProviderChain)
    {fromSlice : Bytes → Option Value} {c : ClientCall} {req : ProxyRequest}
    (hreq : c.proxyRequest fromSlice = some req) {s : SentRequest}
    (hs : s ∈ chainRequests forward (forwardTemplate req) chain) (provider : ResolvedProvider)
    (order : List (String × String)) :
    writer.sends (asBytes (upstreamRequest provider order s.request).url) =
        some (asBytes (c.directUrl provider.baseUrl)) ↔
      c.Plain writer provider.baseUrl := by
  obtain ⟨ns, hns, hrest⟩ := Option.bind_eq_some_iff.mp hreq
  obtain ⟨tail, htail, hfields⟩ := Option.map_eq_some_iff.mp hrest
  have hsent := (chainRequests_sent forward _ hs).2
  have hurl : asBytes (upstreamRequest provider order s.request).url =
      asBytes (trimEndSlashes provider.baseUrl) ++
        47 :: (percentDecode (asBytes c.tail)).dropWhile (· = 47) := by
    have htext : (upstreamRequest provider order s.request).url =
        trimEndSlashes provider.baseUrl ++ "/" ++ trimStartSlashes tail := by
      rw [hsent, ← hfields]
      exact buildUrl_rooted _ _
    rw [htext, asBytes_append, asBytes_append, asBytes_trimStartSlashes, asBytes_of_fromUtf8 htail,
      List.append_assoc]
    rfl
  have hdirect : asBytes (c.directUrl provider.baseUrl) =
      asBytes (trimEndSlashes provider.baseUrl) ++
        47 :: (asBytes c.tail ++ asBytes (c.query.elim "" fun q => "?" ++ q)) := by
    unfold ClientCall.directUrl
    rw [asBytes_append, asBytes_append, asBytes_append, List.append_assoc, List.append_assoc]
    rfl
  have hend := asBytes_trimEndSlashes provider.baseUrl
  rw [hurl, hdirect]
  cases hquery : c.query with
  | none =>
    have hnone : asBytes (Option.elim none "" fun q => "?" ++ q) = [] := rfl
    rw [hquery, hnone, List.append_nil] at hdirect
    rw [hnone, List.append_nil, sends_tail_iff hend c.path, ← hdirect]
    constructor
    · intro h
      exact ⟨hquery, h.1, h.2⟩
    · intro h
      exact ⟨h.tail, h.short⟩
  | some q =>
    have hmark : asBytes ((some q).elim "" fun q => "?" ++ q) = 63 :: asBytes q := by
      rw [Option.elim_some, asBytes_append]
      rfl
    rw [hmark]
    constructor
    · intro h
      have hnil := sends_tail_query hend (fun b hb => by cases hb; rfl) h
      cases hnil
    · intro h
      rw [h.query] at hquery
      cases hquery

/-! ### One provider -/

def escapesSpecial (special : List UInt8) (b : UInt8) : Bool :=
  b < 33 || 126 < b || special.contains b

theorem escapesSpecial_codes {special : List UInt8} (h : (special.all fun b => !isCode b) = true)
    (b : UInt8) (hb : isCode b = true) : escapesSpecial special b = false := by
  have hall : ∀ n : Fin 256, isCode (UInt8.ofNat n.val) = true →
      (UInt8.ofNat n.val < 33 || 126 < UInt8.ofNat n.val) = false := by decide +kernel
  have hrange := hall ⟨b.toNat, b.toNat_lt⟩
  rw [UInt8.ofNat_toNat] at hrange
  have hspecial : special.contains b = false := by
    rw [← Bool.not_eq_true, List.contains_iff_mem]
    intro hmem
    have hcode := List.all_eq_true.mp h b hmem
    rw [hb] at hcode
    cases hcode
  rw [escapesSpecial, hrange hb, hspecial]
  rfl

/-- URLs of hosts that are plain names, in lower case. -/
def plainWriter : UrlWriter where
  pathSet := ⟨escapesSpecial [34, 35, 60, 62, 63, 96, 123, 125],
    escapesSpecial_codes (by decide), by decide⟩
  querySet := ⟨escapesSpecial [34, 35, 39, 60, 62], escapesSpecial_codes (by decide), by decide⟩
  host := fun _ text =>
    if !text.isEmpty && text.all fun b => (97 ≤ b && b ≤ 122) || b == 46 then some text else none
  limit := 65534
  host_written := by
    intro secure text name h
    have hletter : ∀ n : Fin 256, 97 ≤ UInt8.ofNat n.val ∧ UInt8.ofNat n.val ≤ 122 ∨
        UInt8.ofNat n.val = 46 → 32 < UInt8.ofNat n.val ∧ UInt8.ofNat n.val ≠ 37 ∧
          endsHost (UInt8.ofNat n.val) = false := by decide +kernel
    split at h
    · next hplain =>
      rw [← Option.some.inj h]
      simp only [Bool.and_eq_true, Bool.not_eq_true', List.isEmpty_eq_false_iff, List.all_eq_true,
        Bool.or_eq_true, decide_eq_true_eq, beq_iff_eq] at hplain
      refine ⟨hplain.1, fun b hb => ?_⟩
      have hbyte := hletter ⟨b.toNat, b.toNat_lt⟩
      rw [UInt8.ofNat_toNat] at hbyte
      exact hbyte (hplain.2 b hb)
    · cases h

def filesCall (tail : String) (query : Option String) (path : 63 ∉ asBytes tail) : ClientCall :=
  ⟨"GET", "openai", tail, query, [], [], path⟩

/-- A name with a space in it keeps its escape. -/
theorem forwarded_url_iff_escaped :
    ∃ req, (filesCall "v1/files/a%20b" none (by decide)).proxyRequest (fun _ => none) = some req ∧
      ∃ s ∈ chainRequests timingOut (forwardTemplate req) miniChain,
        plainWriter.sends (asBytes (upstreamRequest openAiProvider [] s.request).url) =
            some (asBytes "https://api.openai.com/v1/files/a%20b") ∧
          (filesCall "v1/files/a%20b" none (by decide)).Plain plainWriter
            openAiProvider.baseUrl := by
  have hsome : ((filesCall "v1/files/a%20b" none (by decide)).proxyRequest fun _ => none).isSome =
      true := by decide
  obtain ⟨req, hreq⟩ := Option.isSome_iff_exists.mp hsome
  refine ⟨req, hreq, _, List.mem_cons_self .., ?_⟩
  have hiff := forwarded_url_iff plainWriter timingOut miniChain hreq (List.mem_cons_self ..)
    openAiProvider []
  cases hreq
  exact ⟨by decide +kernel, hiff.mp (by decide +kernel)⟩

/-- Every attempt sends the URL that the client wrote. -/
def ForwardsTarget (writer : UrlWriter) (fromSlice : Bytes → Option Value)
    (provider : ResolvedProvider) (c : ClientCall) : Prop :=
  ∀ req, c.proxyRequest fromSlice = some req →
    ∀ s ∈ chainRequests timingOut (forwardTemplate req) miniChain,
      writer.sends (asBytes (upstreamRequest provider [] s.request).url) =
        some (asBytes (c.directUrl provider.baseUrl))

/-- A page is asked for without its cursor, `a/b` as a path of two segments, and a tail without
the slash in front of it. -/
theorem target_rewritten :
    ¬ForwardsTarget plainWriter (fun _ => none) openAiProvider
        (filesCall "v1/files" (some "after=f1") (by decide)) ∧
      ¬ForwardsTarget plainWriter (fun _ => none) openAiProvider
        (filesCall "v1/files/a%2Fb" none (by decide)) ∧
      ¬ForwardsTarget plainWriter (fun _ => none) openAiProvider
        (filesCall "/v1/files" none (by decide)) := by
  refine ⟨?_, ?_, ?_⟩
  · intro h
    exact absurd (h _ rfl _ (List.mem_cons_self ..)) (by decide +kernel)
  · intro h
    exact absurd (h _ rfl _ (List.mem_cons_self ..)) (by decide +kernel)
  · intro h
    exact absurd (h _ rfl _ (List.mem_cons_self ..)) (by decide +kernel)

end AiGateway.Api
