import AiGateway.Api.Tokens
import AiGateway.Core.CachePolicy
import AiGateway.Core.TeeStream

/-!
# The streaming task of a proxied response (`gateway-api/src/routes/proxy.rs:363-512`)

The task relays the upstream chunks, captures the first 64 KiB for the log,
collects the chunks for the cache, and settles the request when the stream has
ended. Its parameters are the upstream items and, for each `tx.send`, whether the
client is still there. The loop is `proxy.rs:363-417`, the code behind it
`proxy.rs:419-486`, the usage of a cache hit `proxy.rs:229-233`; `CachedResponse` is
in `gateway-core/src/cache/payload.rs`.
-/

namespace AiGateway.Api
open AiGateway.Core

def maxLogBodyBytes : ℕ := 65536

def maxCacheableBodyBytes : ℕ := 20971520

structure StreamContext where
  status : UInt16
  headersOut : HeaderMap
  upstreamProvider : String
  model : Option String
  cacheShouldWrite : Bool
  cacheTtl : Option UInt64
  cacheKey : Option String

/-- The local variables of the loop, with what was sent to the client. -/
structure Capture where
  responseCapture : Bytes
  responseTruncated : Bool
  cacheChunks : List Bytes
  cacheTotal : ℕ
  cacheOversize : Bool
  sendErr : Bool
  sent : List (Except String Bytes)

def Capture.start : Capture := ⟨[], false, [], 0, false, false, []⟩

def Capture.captureChunk (c : Capture) (chunk : Bytes) : Capture :=
  if c.responseCapture.length < maxLogBodyBytes then
    let take := min (maxLogBodyBytes - c.responseCapture.length) chunk.length
    { c with
      responseCapture := c.responseCapture ++ chunk.take take
      responseTruncated := c.responseTruncated || decide (take < chunk.length) }
  else { c with responseTruncated := c.responseTruncated || !chunk.isEmpty }

def Capture.collectChunk (c : Capture) (cacheShouldWrite : Bool) (chunk : Bytes) : Capture :=
  if cacheShouldWrite && !c.cacheOversize then
    let cacheTotal := min (c.cacheTotal + chunk.length) 18446744073709551615
    if maxCacheableBodyBytes < cacheTotal then
      { c with cacheTotal := cacheTotal, cacheOversize := true, cacheChunks := [] }
    else { c with cacheTotal := cacheTotal, cacheChunks := c.cacheChunks ++ [chunk] }
  else c

/-- Relaying one item; `clientOpen` says whether `tx.send` succeeds. -/
def Capture.send (c : Capture) (clientOpen : Bool) (item : Except String Bytes) : Capture :=
  if c.sendErr then c
  else if clientOpen then { c with sent := c.sent ++ [item] }
  else { c with sendErr := true }

def Capture.chunk (c : Capture) (cacheShouldWrite clientOpen : Bool) (chunk : Bytes) : Capture :=
  ((c.captureChunk chunk).collectChunk cacheShouldWrite chunk).send clientOpen (.ok chunk)

def captureLoop (cacheShouldWrite : Bool) (clientOpen : ℕ → Bool) :
    ℕ → List (Except String Bytes) → Capture → Capture × Option String
  | _, [], c => (c, none)
  | k, .ok chunk :: items, c =>
    captureLoop cacheShouldWrite clientOpen (k + 1) items
      (c.chunk cacheShouldWrite (clientOpen k) chunk)
  | k, .error e :: _, c => (c.send (clientOpen k) (.error e), some e)

structure CachedResponse where
  status : UInt16
  headers : List (String × String)
  chunks : List Bytes
  finishedAtMs : Int
  servedBy : Option String

structure PricingUsage where
  prompt : Int
  completion : Int
  cached : Int
  deriving DecidableEq, Repr

def TokenUsage.forPricing (usage : TokenUsage) : PricingUsage :=
  ⟨usage.prompt.getD 0, usage.completion.getD 0, usage.cached.getD 0⟩

def isSuccess (status : UInt16) : Bool := 200 ≤ status && status < 300

/-- What the task does at the end of a stream: the arguments of `kv.put`, the
count it reconciles with, and the usage it prices and charges. -/
structure StreamEnd where
  cacheWrite : Option (String × CachedResponse × UInt64)
  usage : TokenUsage
  actualTokens : Int
  priced : Option PricingUsage

section
variable (fromSlice : Bytes → Option Value)

def cachedResponse (ctx : StreamContext) (nowMs : Int) (c : Capture) : CachedResponse :=
  { status := ctx.status
    headers := ctx.headersOut.filterMap fun h => (headerToStr h.2).map fun v => (h.1, v)
    chunks := c.cacheChunks
    finishedAtMs := nowMs
    servedBy := some ctx.upstreamProvider }

def finishStream (ctx : StreamContext) (nowMs : Int) (c : Capture) : StreamEnd :=
  let usage := extractTokenUsage fromSlice c.responseCapture
  { cacheWrite :=
      if ctx.cacheShouldWrite && !c.cacheOversize then
        match ctx.cacheTtl, ctx.cacheKey with
        | some ttl, some key => some (key, cachedResponse ctx nowMs c, ttl)
        | _, _ => none
      else none
    usage := usage
    actualTokens := usage.totalTokens.getD 0
    priced := if isSuccess ctx.status && ctx.model.isSome then some usage.forPricing else none }

/-- The task up to its `kv.put`; `none` when a stream error ended it, which returns without
settling. -/
def streamTask (ctx : StreamContext) (clientOpen : ℕ → Bool) (nowMs : Int)
    (items : List (Except String Bytes)) : Option StreamEnd :=
  match captureLoop ctx.cacheShouldWrite clientOpen 0 items .start with
  | (c, none) => some (finishStream fromSlice ctx nowMs c)
  | (_, some _) => none

def StreamEnd.putReturns (returns : UInt64 → Bool) (ended : StreamEnd) : Bool :=
  ended.cacheWrite.all fun (_, _, ttl) => returns ttl

/-- The task behind its `kv.put`, which panics where the store cannot add the time to live to its
clock; `none` when it does not get there. -/
def settlingTask (returns : UInt64 → Bool) (ctx : StreamContext) (clientOpen : ℕ → Bool)
    (nowMs : Int) (items : List (Except String Bytes)) : Option StreamEnd :=
  (streamTask fromSlice ctx clientOpen nowMs items).filter (StreamEnd.putReturns returns)

def hitUsage (cached : CachedResponse) : TokenUsage :=
  extractTokenUsage fromSlice cached.chunks.flatten

end

/-! ### What the loop captures -/

def upstreamChunks : List (Except String Bytes) → List Bytes
  | .ok chunk :: items => chunk :: upstreamChunks items
  | _ => []

def upstreamError : List (Except String Bytes) → Option String
  | [] => none
  | .ok _ :: items => upstreamError items
  | .error e :: _ => some e

/-! Each of the three steps of a chunk has its own fields. -/

theorem captureChunk_frame (c : Capture) (chunk : Bytes) :
    ∃ buf truncated, c.captureChunk chunk =
      { c with responseCapture := buf, responseTruncated := truncated } := by
  unfold Capture.captureChunk
  split <;> exact ⟨_, _, rfl⟩

theorem collectChunk_frame (c : Capture) (cacheShouldWrite : Bool) (chunk : Bytes) :
    ∃ total oversize chunks, c.collectChunk cacheShouldWrite chunk =
      { c with cacheTotal := total, cacheOversize := oversize, cacheChunks := chunks } := by
  unfold Capture.collectChunk
  split
  · simp only
    split <;> exact ⟨_, _, _, rfl⟩
  · exact ⟨_, _, _, rfl⟩

theorem send_frame (c : Capture) (clientOpen : Bool) (item : Except String Bytes) :
    ∃ sent sendErr, c.send clientOpen item = { c with sent := sent, sendErr := sendErr } := by
  unfold Capture.send
  split
  · exact ⟨_, _, rfl⟩
  · split <;> exact ⟨_, _, rfl⟩

/-- The cache fields after a chunk are those that collecting it leaves. -/
theorem chunk_collects (c : Capture) (cacheShouldWrite clientOpen : Bool) (chunk : Bytes) :
    (c.chunk cacheShouldWrite clientOpen chunk).cacheOversize =
        (c.collectChunk cacheShouldWrite chunk).cacheOversize ∧
      (c.chunk cacheShouldWrite clientOpen chunk).cacheTotal =
        (c.collectChunk cacheShouldWrite chunk).cacheTotal ∧
      (c.chunk cacheShouldWrite clientOpen chunk).cacheChunks =
        (c.collectChunk cacheShouldWrite chunk).cacheChunks := by
  obtain ⟨buf, truncated, hcapture⟩ := captureChunk_frame c chunk
  obtain ⟨sent, sendErr, hsend⟩ := send_frame
    ((c.captureChunk chunk).collectChunk cacheShouldWrite chunk) clientOpen (.ok chunk)
  rw [Capture.chunk, hsend, hcapture]
  unfold Capture.collectChunk
  split
  · simp only
    split <;> exact ⟨rfl, rfl, rfl⟩
  · exact ⟨rfl, rfl, rfl⟩

theorem captureChunk_captured {c : Capture} {body : Bytes}
    (h : Captured maxLogBodyBytes body c.responseCapture c.responseTruncated) (chunk : Bytes) :
    Captured maxLogBodyBytes (body ++ chunk) (c.captureChunk chunk).responseCapture
      (c.captureChunk chunk).responseTruncated := by
  unfold Capture.captureChunk
  split
  · rename_i hroom
    exact h.room hroom chunk
  · rename_i hfull
    exact h.full hfull chunk

theorem chunk_captured {c : Capture} {body : Bytes}
    (h : Captured maxLogBodyBytes body c.responseCapture c.responseTruncated)
    (cacheShouldWrite clientOpen : Bool) (chunk : Bytes) :
    Captured maxLogBodyBytes (body ++ chunk)
      (c.chunk cacheShouldWrite clientOpen chunk).responseCapture
      (c.chunk cacheShouldWrite clientOpen chunk).responseTruncated := by
  obtain ⟨total, oversize, chunks, hcollect⟩ :=
    collectChunk_frame (c.captureChunk chunk) cacheShouldWrite chunk
  obtain ⟨sent, sendErr, hsend⟩ := send_frame
    ((c.captureChunk chunk).collectChunk cacheShouldWrite chunk) clientOpen (.ok chunk)
  rw [Capture.chunk, hsend, hcollect]
  exact captureChunk_captured h chunk

theorem captureLoop_captured (cacheShouldWrite : Bool) (clientOpen : ℕ → Bool) (k : ℕ)
    (items : List (Except String Bytes)) {c : Capture} {body : Bytes}
    (h : Captured maxLogBodyBytes body c.responseCapture c.responseTruncated) :
    Captured maxLogBodyBytes (body ++ (upstreamChunks items).flatten)
      (captureLoop cacheShouldWrite clientOpen k items c).1.responseCapture
      (captureLoop cacheShouldWrite clientOpen k items c).1.responseTruncated := by
  induction items generalizing k c body with
  | nil =>
    rw [captureLoop, upstreamChunks, List.flatten_nil, List.append_nil]
    · exact h
    · intro chunk rest heq
      cases heq
  | cons item items ih =>
    cases item with
    | error e =>
      obtain ⟨sent, sendErr, hsend⟩ := send_frame c (clientOpen k) (.error e)
      rw [captureLoop, upstreamChunks, List.flatten_nil, List.append_nil, hsend]
      · exact h
      · intro chunk rest heq
        cases heq
    | ok chunk =>
      rw [captureLoop, upstreamChunks, List.flatten_cons, ← List.append_assoc]
      exact ih (k + 1) (chunk_captured h cacheShouldWrite (clientOpen k) chunk)

/-- The capture is the front of the upstream body, whatever its chunks are. -/
theorem captureLoop_front (cacheShouldWrite : Bool) (clientOpen : ℕ → Bool)
    (items : List (Except String Bytes)) :
    Captured maxLogBodyBytes (upstreamChunks items).flatten
      (captureLoop cacheShouldWrite clientOpen 0 items Capture.start).1.responseCapture
      (captureLoop cacheShouldWrite clientOpen 0 items Capture.start).1.responseTruncated := by
  have hstart : Captured maxLogBodyBytes [] Capture.start.responseCapture
      Capture.start.responseTruncated := Captured.empty maxLogBodyBytes
  exact captureLoop_captured cacheShouldWrite clientOpen 0 items hstart

theorem captureLoop_error (cacheShouldWrite : Bool) (clientOpen : ℕ → Bool) (k : ℕ)
    (items : List (Except String Bytes)) (c : Capture) :
    (captureLoop cacheShouldWrite clientOpen k items c).2 = upstreamError items := by
  induction items generalizing k c with
  | nil => rfl
  | cons item items ih =>
    cases item with
    | error e => rfl
    | ok chunk => exact ih (k + 1) (c.chunk cacheShouldWrite (clientOpen k) chunk)

theorem chunk_collected (c : Capture) (clientOpen : Bool) (chunk : Bytes) :
    (c.cacheOversize = true → (c.chunk true clientOpen chunk).cacheOversize = true) ∧
      ((c.chunk true clientOpen chunk).cacheOversize = false →
        (c.chunk true clientOpen chunk).cacheChunks = c.cacheChunks ++ [chunk]) := by
  obtain ⟨hflag, -, hchunks⟩ := chunk_collects c true clientOpen chunk
  rw [hflag, hchunks]
  unfold Capture.collectChunk
  cases hover : c.cacheOversize with
  | true =>
    refine ⟨fun _ => hover, fun h => ?_⟩
    rw [Bool.not_true, Bool.and_false, if_neg Bool.false_ne_true, hover] at h
    cases h
  | false =>
    refine ⟨nofun, ?_⟩
    rw [Bool.not_false, Bool.and_self, if_pos rfl]
    simp only
    split
    · intro h
      cases h
    · intro _
      rfl

/-- Unless the body is too large, the cache gets exactly the upstream chunks. -/
theorem captureLoop_collected (clientOpen : ℕ → Bool) (k : ℕ)
    (items : List (Except String Bytes)) (c : Capture) (herr : upstreamError items = none) :
    (c.cacheOversize = true → (captureLoop true clientOpen k items c).1.cacheOversize = true) ∧
      ((captureLoop true clientOpen k items c).1.cacheOversize = false →
        (captureLoop true clientOpen k items c).1.cacheChunks =
          c.cacheChunks ++ upstreamChunks items) := by
  induction items generalizing k c with
  | nil => exact ⟨id, fun _ => by simp [captureLoop, upstreamChunks]⟩
  | cons item items ih =>
    cases item with
    | error e => simp [upstreamError] at herr
    | ok chunk =>
      obtain ⟨hgrow, hrest⟩ := ih (k + 1) (c.chunk true (clientOpen k) chunk) herr
      obtain ⟨hover, hchunk⟩ := chunk_collected c (clientOpen k) chunk
      refine ⟨fun h => hgrow (hover h), fun hfin => ?_⟩
      have hno : (c.chunk true (clientOpen k) chunk).cacheOversize = false := by
        by_contra hne
        have hstay := hgrow (by simpa using hne)
        rw [captureLoop] at hfin
        rw [hfin] at hstay
        cases hstay
      rw [captureLoop] at hfin ⊢
      rw [hrest hfin, hchunk hno, upstreamChunks, List.append_assoc, List.singleton_append]

/-! ### The size of a body -/

theorem chunk_oversize {c : Capture} (hover : c.cacheOversize = false)
    (htotal : c.cacheTotal ≤ maxCacheableBodyBytes) (clientOpen : Bool) (chunk : Bytes) :
    ((c.chunk true clientOpen chunk).cacheOversize =
        decide (maxCacheableBodyBytes < c.cacheTotal + chunk.length)) ∧
      ((c.chunk true clientOpen chunk).cacheOversize = false →
        (c.chunk true clientOpen chunk).cacheTotal = c.cacheTotal + chunk.length) := by
  obtain ⟨hflag, hsum, -⟩ := chunk_collects c true clientOpen chunk
  rw [hflag, hsum]
  unfold Capture.collectChunk
  rw [hover, Bool.not_false, Bool.and_self, if_pos rfl]
  simp only
  unfold maxCacheableBodyBytes at htotal ⊢
  split
  · rename_i hlarge
    refine ⟨?_, fun h => by cases h⟩
    symm
    rw [decide_eq_true_eq]
    omega
  · rename_i hsmall
    refine ⟨?_, fun _ => ?_⟩
    · symm
      rw [decide_eq_false_iff_not]
      omega
    · simp only
      omega

/-- The oversize flag at the end: the whole body was too large. -/
theorem captureLoop_oversize (clientOpen : ℕ → Bool) (k : ℕ) (items : List (Except String Bytes))
    {c : Capture} (herr : upstreamError items = none) (hover : c.cacheOversize = false)
    (htotal : c.cacheTotal ≤ maxCacheableBodyBytes) :
    (captureLoop true clientOpen k items c).1.cacheOversize = false ↔
      c.cacheTotal + (upstreamChunks items).flatten.length ≤ maxCacheableBodyBytes := by
  induction items generalizing k c with
  | nil =>
    simp only [captureLoop, upstreamChunks, List.flatten_nil, List.length_nil, Nat.add_zero]
    exact ⟨fun _ => htotal, fun _ => hover⟩
  | cons item items ih =>
    cases item with
    | error e => cases herr
    | ok chunk =>
      obtain ⟨hflag, hsum⟩ := chunk_oversize hover htotal (clientOpen k) chunk
      simp only [captureLoop, upstreamChunks, List.flatten_cons, List.length_append]
      cases hlarge : (c.chunk true (clientOpen k) chunk).cacheOversize with
      | true =>
        have hstay := (captureLoop_collected clientOpen (k + 1) items
          (c.chunk true (clientOpen k) chunk) herr).1 hlarge
        rw [hstay]
        rw [hflag, decide_eq_true_eq] at hlarge
        constructor
        · intro h
          cases h
        · intro h
          omega
      | false =>
        have htotal' := hsum hlarge
        rw [hflag, decide_eq_false_iff_not] at hlarge
        rw [ih (k + 1) herr (by rw [hflag, decide_eq_false_iff_not]; exact hlarge) (by omega),
          htotal']
        constructor
        · intro h
          omega
        · intro h
          omega

/-- The stream behind a response ended, and its body may be written. -/
def Writable (ctx : StreamContext) (items : List (Except String Bytes)) : Prop :=
  ctx.cacheShouldWrite = true ∧ upstreamError items = none ∧
    (upstreamChunks items).flatten.length ≤ maxCacheableBodyBytes

/-- The task calls `kv.put` with this time to live. -/
def Puts (ctx : StreamContext) (items : List (Except String Bytes)) (ttl : UInt64) : Prop :=
  Writable ctx items ∧ ctx.cacheTtl = some ttl ∧ ctx.cacheKey.isSome = true

/-- The stream ends without an error, and a put into the cache returns. -/
def GetsToSettle (returns : UInt64 → Bool) (ctx : StreamContext)
    (items : List (Except String Bytes)) : Prop :=
  upstreamError items = none ∧ ∀ ttl, Puts ctx items ttl → returns ttl = true

def okItems (chunks : List Bytes) : List (Except String Bytes) := chunks.map .ok

theorem upstreamChunks_okItems (chunks : List Bytes) : upstreamChunks (okItems chunks) = chunks := by
  induction chunks with
  | nil => rfl
  | cons chunk chunks ih => rw [okItems, List.map_cons, ← okItems, upstreamChunks, ih]

theorem upstreamError_okItems (chunks : List Bytes) : upstreamError (okItems chunks) = none := by
  induction chunks with
  | nil => rfl
  | cons chunk chunks ih => rw [okItems, List.map_cons, ← okItems, upstreamError, ih]

section
variable (fromSlice : Bytes → Option Value)

/-- The task at the end of a stream: its usage is that of the first 64 KiB, and a
cache entry it writes holds the whole body. -/
theorem streamTask_okItems (ctx : StreamContext) (clientOpen : ℕ → Bool) (nowMs : Int)
    (chunks : List Bytes) :
    ∃ out, streamTask fromSlice ctx clientOpen nowMs (okItems chunks) = some out ∧
      out.usage = extractTokenUsage fromSlice (chunks.flatten.take maxLogBodyBytes) ∧
      out.actualTokens = out.usage.totalTokens.getD 0 ∧
      (∀ p, out.priced = some p → p = out.usage.forPricing) ∧
      ∀ key cached ttl, out.cacheWrite = some (key, cached, ttl) → cached.chunks = chunks := by
  have hcap := (captureLoop_front ctx.cacheShouldWrite clientOpen (okItems chunks)).front
  have herr := captureLoop_error ctx.cacheShouldWrite clientOpen 0 (okItems chunks) .start
  rw [upstreamChunks_okItems] at hcap
  rw [upstreamError_okItems] at herr
  rcases hloop : captureLoop ctx.cacheShouldWrite clientOpen 0 (okItems chunks) .start with ⟨c, e⟩
  rw [hloop] at hcap herr
  dsimp only at hcap herr
  subst herr
  refine ⟨finishStream fromSlice ctx nowMs c, by rw [streamTask, hloop], ?_, rfl, ?_, ?_⟩
  · rw [finishStream, hcap]
  · intro p hp
    simp only [finishStream] at hp ⊢
    split at hp
    · exact (Option.some.inj hp).symm
    · cases hp
  · intro key cached ttl hwrite
    simp only [finishStream] at hwrite
    split at hwrite
    · rename_i hcond
      simp only [Bool.and_eq_true, Bool.not_eq_true'] at hcond
      have hcollect := (captureLoop_collected clientOpen 0 (okItems chunks) .start
        (upstreamError_okItems chunks)).2
      rw [hcond.1] at hloop
      rw [hloop] at hcollect
      have hchunks := hcollect hcond.2
      split at hwrite
      · cases hwrite
        rw [cachedResponse, hchunks, upstreamChunks_okItems]
        rfl
      · cases hwrite
    · cases hwrite

/-- The put that the task calls, and with which time to live. -/
theorem streamTask_put {ctx : StreamContext} {clientOpen : ℕ → Bool} {nowMs : Int}
    {items : List (Except String Bytes)} {out : StreamEnd}
    (h : streamTask fromSlice ctx clientOpen nowMs items = some out) (ttl : UInt64) :
    (∃ key payload, out.cacheWrite = some (key, payload, ttl)) ↔ Puts ctx items ttl := by
  have herr := captureLoop_error ctx.cacheShouldWrite clientOpen 0 items .start
  unfold streamTask at h
  rcases hloop : captureLoop ctx.cacheShouldWrite clientOpen 0 items .start with ⟨c, e⟩
  rw [hloop] at h herr
  cases e with
  | some e => cases h
  | none =>
    cases h
    unfold Puts Writable
    cases hwrite : ctx.cacheShouldWrite with
    | false => simp [finishStream, hwrite]
    | true =>
      rw [hwrite] at hloop
      have hsize := captureLoop_oversize clientOpen 0 items (c := .start) herr.symm rfl
        (Nat.zero_le _)
      rw [hloop] at hsize
      have hstart : Capture.start.cacheTotal = 0 := rfl
      rw [hstart, Nat.zero_add] at hsize
      rw [← hsize]
      simp only [finishStream, hwrite]
      cases c.cacheOversize <;> cases ctx.cacheTtl <;> cases ctx.cacheKey <;> simp [← herr]

theorem streamTask_of_ended {items : List (Except String Bytes)} (h : upstreamError items = none)
    (ctx : StreamContext) (clientOpen : ℕ → Bool) (nowMs : Int) :
    streamTask fromSlice ctx clientOpen nowMs items = some (finishStream fromSlice ctx nowMs
      (captureLoop ctx.cacheShouldWrite clientOpen 0 items .start).1) := by
  have herr := captureLoop_error ctx.cacheShouldWrite clientOpen 0 items .start
  rw [h] at herr
  unfold streamTask
  rcases hloop : captureLoop ctx.cacheShouldWrite clientOpen 0 items .start with ⟨c, e⟩
  rw [hloop] at herr
  cases e with
  | none => rfl
  | some e => cases herr

/-- The task settles exactly if it gets there. -/
theorem settlingTask_eq_some {returns : UInt64 → Bool} {ctx : StreamContext}
    {clientOpen : ℕ → Bool} {nowMs : Int} {items : List (Except String Bytes)} {out : StreamEnd} :
    settlingTask fromSlice returns ctx clientOpen nowMs items = some out ↔
      GetsToSettle returns ctx items ∧ out = finishStream fromSlice ctx nowMs
        (captureLoop ctx.cacheShouldWrite clientOpen 0 items .start).1 := by
  unfold settlingTask GetsToSettle
  rw [Option.filter_eq_some_iff]
  cases hend : upstreamError items with
  | some e =>
    have herr := captureLoop_error ctx.cacheShouldWrite clientOpen 0 items .start
    rw [hend] at herr
    have hnone : streamTask fromSlice ctx clientOpen nowMs items = none := by
      unfold streamTask
      rcases hloop : captureLoop ctx.cacheShouldWrite clientOpen 0 items .start with ⟨c, e'⟩
      rw [hloop] at herr
      cases herr
      rfl
    simp [hnone]
  | none =>
    have htask := streamTask_of_ended fromSlice hend ctx clientOpen nowMs
    have hput : StreamEnd.putReturns returns (finishStream fromSlice ctx nowMs
        (captureLoop ctx.cacheShouldWrite clientOpen 0 items .start).1) = true ↔
          ∀ ttl, Puts ctx items ttl → returns ttl = true := by
      unfold StreamEnd.putReturns
      rw [Option.all_eq_true]
      constructor
      · intro hall ttl hputs
        obtain ⟨key, payload, hwrite⟩ := (streamTask_put fromSlice htask ttl).mpr hputs
        exact hall _ hwrite
      · intro hall write hwrite
        exact hall _ ((streamTask_put fromSlice htask write.2.2).mp ⟨_, _, hwrite⟩)
    rw [htask, Option.some.injEq]
    constructor
    · intro h
      obtain ⟨rfl, hreturns⟩ := h
      exact ⟨⟨rfl, hput.mp hreturns⟩, rfl⟩
    · intro h
      obtain ⟨⟨-, hall⟩, rfl⟩ := h
      exact ⟨rfl, hput.mpr hall⟩

end

end AiGateway.Api
