import AiGateway.Api.StreamTask
import AiGateway.Api.Transcripts

/-!
# Metering a streamed response

The task meters what it captured for the log, a cache hit meters the stored chunks. The two agree
on a body that fits the capture. On a longer one they agree if what is behind the cut reports
nothing new, which a document that is cut off does only if it reports no usage at all.
-/

namespace AiGateway.Api
open AiGateway.Core

section
variable (fromSlice : Bytes → Option Value)

/-- The task of a stream that ends without an error meters the complete body: the
count it reconciles with, the usage it prices and charges, and what a later hit
on the cache entry it writes derives. -/
def MetersBody (putReturns : UInt64 → Bool) (ctx : StreamContext) (clientOpen : ℕ → Bool)
    (nowMs : Int) (chunks : List Bytes) : Prop :=
  ∃ out, settlingTask fromSlice putReturns ctx clientOpen nowMs (okItems chunks) = some out ∧
    out.usage = extractTokenUsage fromSlice chunks.flatten ∧
    out.actualTokens = (extractTokenUsage fromSlice chunks.flatten).totalTokens.getD 0 ∧
    (∀ p, out.priced = some p → p = (extractTokenUsage fromSlice chunks.flatten).forPricing) ∧
    ∀ key cached ttl, out.cacheWrite = some (key, cached, ttl) → out.usage = hitUsage fromSlice cached

/-- The usage of events, the later ones over the earlier ones. -/
def eventUsage (text : Bytes) : TokenUsage :=
  (dataValues fromSlice text).foldl (fun usage v => usage.merge (fromValue v)) .default

/-- Whole lines, and the front of a line. -/
structure CutLines (front settled broken : Bytes) : Prop where
  front : front = settled ++ broken
  settled : settled = [] ∨ ∃ text, settled = text ++ [10]
  broken : (10 : UInt8) ∉ broken

/-- What the capture holds of a body reports the usage of the body. -/
inductive UsageInFront (body : Bytes) : Prop
  | fits (h : body.length ≤ maxLogBodyBytes)
  -- a document of which only white space is cut off
  | blanks (hbody : (fromSlice body).isSome)
      (hfront : (fromSlice (body.take maxLogBodyBytes)).isSome)
  -- a document that reports nothing
  | silent (v : Value) (hbody : fromSlice body = some v)
      (hfront : fromSlice (body.take maxLogBodyBytes) = none) (h : fromValue v = .default)
  -- a document, behind which events report the same
  | follows (v : Value) (hbody : fromSlice body = none)
      (hfront : fromSlice (body.take maxLogBodyBytes) = some v)
      (h : eventUsage fromSlice body = fromValue v)
  -- events: to the lines that are whole, the rest adds what the front of the cut line adds
  | events (settled broken : Bytes) (hbody : fromSlice body = none)
      (hfront : fromSlice (body.take maxLogBodyBytes) = none)
      (hcut : CutLines (body.take maxLogBodyBytes) settled broken)
      (h : (eventUsage fromSlice settled).merge
          (eventUsage fromSlice (broken ++ body.drop maxLogBodyBytes)) =
        (eventUsage fromSlice settled).merge (eventUsage fromSlice broken))

end

/-- The parser takes JSON documents: no line of one begins with a `d`, and of two documents the
longer adds white space to the shorter, unless they are numbers. -/
structure ParsesDocuments (fromSlice : Bytes → Option Value) : Prop where
  lineHeads : ∀ text v, fromSlice text = some v → ∀ line ∈ lines text,
    (line.dropWhile isBlank).head? ≠ some 100
  longer : ∀ text more v w, fromSlice text = some v → fromSlice (text ++ more) = some w →
    v = w ∨ ∃ m n, v = .number m ∧ w = .number n

/-! ### Usage, merged -/

theorem foldl_merge (values : List Value) (u : TokenUsage) :
    values.foldl (fun usage v => usage.merge (fromValue v)) u =
      u.merge (values.foldl (fun usage v => usage.merge (fromValue v)) .default) := by
  induction values generalizing u with
  | nil => exact u.merge_default.symm
  | cons v values ih =>
    rw [List.foldl_cons, ih, List.foldl_cons, TokenUsage.default_merge, ih (fromValue v),
      TokenUsage.merge_assoc]

/-! ### Lines that are cut -/

theorem lines_ne_nil (text : Bytes) : lines text ≠ [] := by
  cases text with
  | nil => simp [lines]
  | cons b text =>
    rw [lines]
    split
    · simp
    · split <;> simp

theorem lines_newline (text rest : Bytes) : lines (text ++ 10 :: rest) = lines text ++ lines rest := by
  induction text with
  | nil => rfl
  | cons b text ih =>
    rw [List.cons_append, lines, lines]
    split
    · rw [ih, List.cons_append]
    · rw [ih]
      cases htext : lines text with
      | nil => exact absurd htext (lines_ne_nil text)
      | cons line more => rfl

theorem lines_broken {broken : Bytes} (h : (10 : UInt8) ∉ broken) (back : Bytes) :
    ∃ rest more, lines (broken ++ back) = (broken ++ rest) :: more := by
  induction broken with
  | nil =>
    cases hback : lines back with
    | nil => exact absurd hback (lines_ne_nil back)
    | cons line more => exact ⟨line, more, hback⟩
  | cons b broken ih =>
    obtain ⟨rest, more, hlines⟩ := ih fun hmem => h (List.mem_cons_of_mem _ hmem)
    have hb : b ≠ 10 := fun hb => h (by rw [hb]; exact List.mem_cons_self ..)
    refine ⟨rest, more, ?_⟩
    rw [List.cons_append, lines, if_neg hb, hlines]
    rfl

theorem cutLines_exists (front : Bytes) : ∃ settled broken, CutLines front settled broken := by
  induction front using List.reverseRecOn with
  | nil => exact ⟨[], [], rfl, .inl rfl, List.not_mem_nil⟩
  | append_singleton front b ih =>
    by_cases hb : b = 10
    · exact ⟨front ++ [10], [], by simp [hb], .inr ⟨front, rfl⟩, List.not_mem_nil⟩
    · obtain ⟨settled, broken, h⟩ := ih
      refine ⟨settled, broken ++ [b], by rw [h.front, List.append_assoc], h.settled, ?_⟩
      intro hmem
      rcases List.mem_append.mp hmem with hold | hnew
      · exact h.broken hold
      · exact hb (List.mem_singleton.mp hnew).symm

section
variable {fromSlice : Bytes → Option Value}

theorem dataPayload_ne {line : Bytes} (h : (line.dropWhile isBlank).head? ≠ some 100) :
    dataPayload line = none := by
  simp only [dataPayload]
  split
  · rename_i hstart
    obtain ⟨payload, hpayload⟩ := List.isPrefixOf_iff_prefix.mp hstart
    have htrim : trimAscii line <+: line.dropWhile isBlank := by
      have hsuffix := List.dropWhile_suffix isBlank (l := (line.dropWhile isBlank).reverse)
      have hprefix := List.reverse_prefix.mpr hsuffix
      rwa [List.reverse_reverse] at hprefix
    obtain ⟨tail, htail⟩ := htrim
    refine absurd ?_ h
    rw [← htail, ← hpayload]
    rfl
  · rfl

theorem dataValues_settled {settled : Bytes} (h : settled = [] ∨ ∃ text, settled = text ++ [10])
    (rest : Bytes) :
    dataValues fromSlice (settled ++ rest) =
      dataValues fromSlice settled ++ dataValues fromSlice rest := by
  rcases h with rfl | ⟨text, rfl⟩
  · rfl
  · have hempty : (dataPayload []).bind fromSlice = none := rfl
    simp only [dataValues, List.append_assoc, List.singleton_append]
    rw [lines_newline, lines_newline, List.filterMap_append, List.filterMap_append]
    simp [lines, hempty]

theorem eventUsage_settled {settled : Bytes} (h : settled = [] ∨ ∃ text, settled = text ++ [10])
    (rest : Bytes) :
    eventUsage fromSlice (settled ++ rest) =
      (eventUsage fromSlice settled).merge (eventUsage fromSlice rest) := by
  unfold eventUsage
  rw [dataValues_settled h, List.foldl_append, foldl_merge]

/-- The front of a document has no events. -/
theorem ParsesDocuments.front (hjson : ParsesDocuments fromSlice) {front back : Bytes} {v : Value}
    (h : fromSlice (front ++ back) = some v) : eventUsage fromSlice front = .default := by
  obtain ⟨settled, broken, hcut⟩ := cutLines_exists front
  have hlines := hjson.lineHeads _ v h
  rw [hcut.front, List.append_assoc] at hlines
  have hbroken : dataPayload broken = none := by
    obtain ⟨rest, more, heq⟩ := lines_broken hcut.broken back
    have hmem : broken ++ rest ∈ lines (settled ++ (broken ++ back)) := by
      rcases hcut.settled with rfl | ⟨text, rfl⟩
      · rw [List.nil_append, heq]
        exact List.mem_cons_self ..
      · rw [List.append_assoc, List.singleton_append, lines_newline, heq]
        exact List.mem_append_right _ (List.mem_cons_self ..)
    refine dataPayload_ne fun hhead => hlines _ hmem ?_
    obtain ⟨first, hdrop⟩ := List.head?_eq_some_iff.mp hhead
    rw [List.dropWhile_append, hdrop]
    rfl
  have hvalues : dataValues fromSlice front = [] := by
    rw [hcut.front, dataValues_settled hcut.settled]
    have hlast : dataValues fromSlice broken = [] := by
      unfold dataValues
      rw [lines_oneLine hcut.broken]
      simp [hbroken]
    rw [hlast, List.append_nil]
    rcases hcut.settled with rfl | ⟨text, rfl⟩
    · rfl
    · unfold dataValues
      rw [List.filterMap_eq_nil_iff]
      intro line hline
      rw [lines_newline] at hline
      rcases List.mem_append.mp hline with hwhole | hempty
      · rw [dataPayload_ne (hlines line ?_)]
        · rfl
        · rw [List.append_assoc, List.singleton_append, lines_newline]
          exact List.mem_append_left _ hwhole
      · rw [List.mem_singleton.mp hempty]
        rfl
  unfold eventUsage
  rw [hvalues]
  rfl

theorem extractTokenUsage_document {body : Bytes} (hne : body ≠ []) {v : Value}
    (h : fromSlice body = some v) : extractTokenUsage fromSlice body = fromValue v := by
  rw [extractTokenUsage, h]
  cases body with
  | nil => exact absurd rfl hne
  | cons b body => rfl

theorem extractTokenUsage_events {body : Bytes} (h : fromSlice body = none) :
    extractTokenUsage fromSlice body = eventUsage fromSlice body := by
  rw [extractTokenUsage, h]
  cases body with
  | nil => rfl
  | cons b body => rfl

theorem front_ne_nil {body : Bytes} (hlong : maxLogBodyBytes < body.length) :
    body.take maxLogBodyBytes ≠ [] := by
  intro h
  have hlength := congrArg List.length h
  rw [List.length_take, Nat.min_eq_left hlong.le] at hlength
  exact absurd hlength (by decide)

theorem usageInFront_document (hjson : ParsesDocuments fromSlice) {body : Bytes}
    (hlong : maxLogBodyBytes < body.length) {v : Value} (hwhole : fromSlice body = some v) :
    extractTokenUsage fromSlice (body.take maxLogBodyBytes) = extractTokenUsage fromSlice body ↔
      UsageInFront fromSlice body := by
  have hsplit : fromSlice (body.take maxLogBodyBytes ++ body.drop maxLogBodyBytes) = some v := by
    rw [List.take_append_drop, hwhole]
  have hbody : body ≠ [] := List.length_pos_iff.mp (Nat.zero_lt_of_lt hlong)
  rw [extractTokenUsage_document hbody hwhole]
  cases hcut : fromSlice (body.take maxLogBodyBytes) with
  | some w =>
    rw [extractTokenUsage_document (front_ne_nil hlong) hcut]
    refine ⟨fun _ => .blanks (by rw [hwhole]; rfl) (by rw [hcut]; rfl), fun _ => ?_⟩
    rcases hjson.longer _ _ w v hcut hsplit with rfl | ⟨m, n, rfl, rfl⟩
    · rfl
    · rfl
  | none =>
    rw [extractTokenUsage_events hcut, hjson.front hsplit]
    constructor
    · intro h
      exact .silent v hwhole hcut h.symm
    · intro h
      cases h with
      | fits h => exact absurd h hlong.not_ge
      | blanks _ h => rw [hcut] at h; cases h
      | silent v' hv _ h =>
        rw [hwhole] at hv
        cases hv
        exact h.symm
      | follows _ h => rw [hwhole] at h; cases h
      | events _ _ h => rw [hwhole] at h; cases h

/-- Events behind the whole lines of the front count as the line that is cut does. -/
theorem eventUsage_cut {front settled broken : Bytes} (h : CutLines front settled broken)
    (back : Bytes) : eventUsage fromSlice front = eventUsage fromSlice (front ++ back) ↔
      (eventUsage fromSlice settled).merge (eventUsage fromSlice (broken ++ back)) =
        (eventUsage fromSlice settled).merge (eventUsage fromSlice broken) := by
  rw [h.front, List.append_assoc, eventUsage_settled h.settled, eventUsage_settled h.settled]
  exact eq_comm

theorem usageInFront_events {body : Bytes} (hlong : maxLogBodyBytes < body.length)
    (hwhole : fromSlice body = none) :
    extractTokenUsage fromSlice (body.take maxLogBodyBytes) = extractTokenUsage fromSlice body ↔
      UsageInFront fromSlice body := by
  rw [extractTokenUsage_events hwhole]
  cases hcut : fromSlice (body.take maxLogBodyBytes) with
  | some w =>
    rw [extractTokenUsage_document (front_ne_nil hlong) hcut]
    constructor
    · intro h
      exact .follows w hwhole hcut h.symm
    · intro h
      cases h with
      | fits h => exact absurd h hlong.not_ge
      | blanks h => rw [hwhole] at h; cases h
      | silent _ h => rw [hwhole] at h; cases h
      | follows v _ hv h =>
        rw [hcut] at hv
        cases hv
        exact h.symm
      | events _ _ _ h => rw [hcut] at h; cases h
  | none =>
    have hparts := fun settled broken
        (hlines : CutLines (body.take maxLogBodyBytes) settled broken) =>
      @eventUsage_cut fromSlice _ _ _ hlines (body.drop maxLogBodyBytes)
    rw [List.take_append_drop] at hparts
    rw [extractTokenUsage_events hcut]
    constructor
    · intro h
      obtain ⟨settled, broken, hlines⟩ := cutLines_exists (body.take maxLogBodyBytes)
      exact .events settled broken hwhole hcut hlines ((hparts _ _ hlines).mp h)
    · intro h
      cases h with
      | fits h => exact absurd h hlong.not_ge
      | blanks h => rw [hwhole] at h; cases h
      | silent _ h => rw [hwhole] at h; cases h
      | follows _ _ h => rw [hcut] at h; cases h
      | events settled broken _ _ hlines h => exact (hparts _ _ hlines).mpr h

/-- The usage of a body and of its front. -/
theorem usageInFront_iff (hjson : ParsesDocuments fromSlice) (body : Bytes) :
    extractTokenUsage fromSlice (body.take maxLogBodyBytes) = extractTokenUsage fromSlice body ↔
      UsageInFront fromSlice body := by
  by_cases hfits : body.length ≤ maxLogBodyBytes
  · rw [List.take_of_length_le hfits]
    exact ⟨fun _ => .fits hfits, fun _ => rfl⟩
  · cases hwhole : fromSlice body with
    | some v => exact usageInFront_document hjson (Nat.lt_of_not_le hfits) hwhole
    | none => exact usageInFront_events (Nat.lt_of_not_le hfits) hwhole

/-- The task meters the front of the body. -/
theorem metersBody_usage {putReturns : UInt64 → Bool} {ctx : StreamContext}
    {clientOpen : ℕ → Bool} {nowMs : Int} {chunks : List Bytes} :
    MetersBody fromSlice putReturns ctx clientOpen nowMs chunks ↔
      (∀ ttl, Puts ctx (okItems chunks) ttl → putReturns ttl = true) ∧
        extractTokenUsage fromSlice (chunks.flatten.take maxLogBodyBytes) =
          extractTokenUsage fromSlice chunks.flatten := by
  obtain ⟨out, hout, husage, hactual, hpriced, hcache⟩ :=
    streamTask_okItems fromSlice ctx clientOpen nowMs chunks
  have hended := upstreamError_okItems chunks
  rw [streamTask_of_ended fromSlice hended] at hout
  cases hout
  unfold MetersBody
  simp only [settlingTask_eq_some]
  constructor
  · intro h
    obtain ⟨out, ⟨⟨-, hput⟩, rfl⟩, hfull, -⟩ := h
    exact ⟨hput, husage.symm.trans hfull⟩
  · intro h
    obtain ⟨hput, heq⟩ := h
    have hfull := husage.trans heq
    rw [hfull] at hactual hpriced
    refine ⟨_, ⟨⟨hended, hput⟩, rfl⟩, hfull, hactual, hpriced, ?_⟩
    intro key cached ttl hwrite
    rw [hitUsage, hcache key cached ttl hwrite]
    exact hfull

/-- A body is metered completely exactly when the put into the cache returns and what the capture
holds of it reports its usage. -/
theorem metersBody_iff (hjson : ParsesDocuments fromSlice) (putReturns : UInt64 → Bool)
    (ctx : StreamContext) (clientOpen : ℕ → Bool) (nowMs : Int) (chunks : List Bytes) :
    MetersBody fromSlice putReturns ctx clientOpen nowMs chunks ↔
      (∀ ttl, Puts ctx (okItems chunks) ttl → putReturns ttl = true) ∧
        UsageInFront fromSlice chunks.flatten := by
  rw [metersBody_usage, usageInFront_iff hjson]

end

/-! ### A stream and a document that are cut off -/

def usageDoc : Bytes := asBytes "\x7b\"usage\":\x7b\"total_tokens\":1\x7d\x7d"

def usageValue : Value := .object [("usage", .object [("total_tokens", .number (.posInt 1))])]

/-- A parser of this document behind blanks. -/
def sampleParse (bytes : Bytes) : Option Value :=
  if bytes.dropWhile (· == 32) = usageDoc then some usageValue else none

theorem sampleParse_documents : ParsesDocuments sampleParse := by
  constructor
  · intro text v h line hline
    simp only [sampleParse, Option.ite_none_right_eq_some] at h
    have hpad : ∀ b ∈ text.takeWhile (· == 32), b = 32 := by
      intro b hb
      exact eq_of_beq (List.all_eq_true.mp (List.all_takeWhile (p := (· == (32 : UInt8)))) b hb)
    have htext : text = text.takeWhile (· == 32) ++ usageDoc := by
      rw [← h.1, List.takeWhile_append_dropWhile]
    have hone : (10 : UInt8) ∉ text := by
      rw [htext]
      intro hmem
      rcases List.mem_append.mp hmem with hblank | hdoc
      · exact absurd (hpad 10 hblank) (by decide)
      · exact absurd hdoc (by decide)
    rw [lines_oneLine hone] at hline
    rw [List.mem_singleton.mp hline, htext, dropWhile_blanks]
    · decide
    · intro b hb
      rw [hpad b hb]
      rfl
  · intro text more v w hv hw
    simp only [sampleParse, Option.ite_none_right_eq_some, Option.some.injEq] at hv hw
    exact .inl (hv.2.symm.trans hw.2)

theorem sampleParse_data (rest : Bytes) : sampleParse (100 :: rest) = none := by
  refine if_neg fun h => ?_
  rw [List.dropWhile_cons_of_neg (by decide)] at h
  exact absurd (congrArg (fun l => l.headD 0) h) (by decide : (100 : UInt8) ≠ 123)

def plainContext : StreamContext := ⟨200, [], "openai", some "gpt-4o", false, none, none⟩

def usageLine : Bytes := asBytes "data: " ++ usageDoc ++ [10]

theorem usageLine_length : usageLine.length = 35 := by decide

theorem eventUsage_blanks (k : ℕ) :
    eventUsage sampleParse (List.replicate k 32) = .default := by
  unfold eventUsage
  rw [dataValues_eq_nil sampleParse]
  · rfl
  · intro hmem
    exact absurd (List.eq_of_mem_replicate hmem) (by decide)

/-- A stream of 70 035 bytes with its usage in the first line. -/
theorem metersBody_firstLine :
    MetersBody sampleParse (fun _ => true) plainContext (fun _ => true) 0
      [usageLine, List.replicate 70000 32] := by
  refine (metersBody_iff sampleParse_documents _ _ _ _ _).mpr ⟨fun _ _ => rfl, ?_⟩
  have hbody : [usageLine, List.replicate 70000 32].flatten = usageLine ++ List.replicate 70000 32 := by
    rw [List.flatten_cons, List.flatten_cons, List.flatten_nil, List.append_nil]
  have hfront : (usageLine ++ List.replicate 70000 32).take maxLogBodyBytes =
      usageLine ++ List.replicate 65501 32 := by
    rw [List.take_append, usageLine_length, List.take_of_length_le, List.take_replicate]
    · rfl
    · rw [usageLine_length]
      decide
  have hback : (usageLine ++ List.replicate 70000 32).drop maxLogBodyBytes =
      List.replicate 4499 32 := by
    rw [List.drop_append, usageLine_length, List.drop_of_length_le, List.drop_replicate]
    · rfl
    · rw [usageLine_length]
      decide
  rw [hbody]
  refine .events usageLine (List.replicate 65501 32) (sampleParse_data _) ?_ ?_ ?_
  · rw [hfront]
    exact sampleParse_data _
  · rw [hfront]
    refine ⟨rfl, .inr ⟨_, rfl⟩, ?_⟩
    intro hmem
    exact absurd (List.eq_of_mem_replicate hmem) (by decide)
  · rw [hback, List.replicate_append_replicate, eventUsage_blanks, eventUsage_blanks]

def paddedBody (n : ℕ) : Bytes := List.replicate (n - usageDoc.length) 32 ++ usageDoc

theorem usageDoc_length : usageDoc.length = 28 := by decide

theorem sampleParse_padded (k m : ℕ) : sampleParse (List.replicate k 32 ++ usageDoc.take m) =
    if usageDoc.length ≤ m then some usageValue else none := by
  have hdrop : (List.replicate k (32 : UInt8) ++ usageDoc.take m).dropWhile (· == 32) =
      usageDoc.take m := by
    induction k with
    | zero =>
      cases m with
      | zero => rfl
      | succ m => rfl
    | succ k ih =>
      rw [List.replicate_succ, List.cons_append, List.dropWhile_cons_of_pos (by decide), ih]
  rw [sampleParse, hdrop]
  by_cases hm : usageDoc.length ≤ m
  · rw [if_pos hm, List.take_of_length_le hm, if_pos rfl]
  · rw [if_neg hm, if_neg]
    intro heq
    have hlength := congrArg List.length heq
    rw [List.length_take] at hlength
    omega

theorem usage_of_cutOff (k : ℕ) {m : ℕ} (hm : m < usageDoc.length) :
    extractTokenUsage sampleParse (List.replicate k 32 ++ usageDoc.take m) = .default := by
  have hnone : sampleParse (List.replicate k 32 ++ usageDoc.take m) = none := by
    rw [sampleParse_padded, if_neg (by omega)]
  rw [extractTokenUsage_events hnone]
  unfold eventUsage
  rw [dataValues_eq_nil sampleParse]
  · rfl
  · intro hmem
    rcases List.mem_append.mp hmem with hblank | hdoc
    · exact absurd (List.eq_of_mem_replicate hblank) (by decide)
    · exact absurd (List.mem_of_mem_take hdoc) (by decide)

/-- One byte more than the capture: the task meters no tokens, the body has one. -/
theorem metersBody_cutOff :
    ¬MetersBody sampleParse (fun _ => true) plainContext (fun _ => true) 0 [paddedBody 65537] := by
  have hwhole : extractTokenUsage sampleParse (paddedBody 65537) = ⟨none, none, none, some 1⟩ := by
    have hparsed := sampleParse_padded (65537 - usageDoc.length) usageDoc.length
    rw [List.take_length, if_pos (Nat.le_refl _)] at hparsed
    rw [paddedBody, extractTokenUsage_document _ hparsed]
    · rfl
    · intro hempty
      exact absurd (List.append_eq_nil_iff.mp hempty).2 (by decide)
  have hcut : (paddedBody 65537).take maxLogBodyBytes =
      List.replicate 65509 32 ++ usageDoc.take 27 := by
    rw [paddedBody, List.take_append, List.take_replicate, List.length_replicate, usageDoc_length]
    rfl
  rw [metersBody_usage]
  simp only [List.flatten_cons, List.flatten_nil, List.append_nil]
  rw [hcut, usage_of_cutOff 65509 (by decide), hwhole]
  intro h
  cases h.2

end AiGateway.Api
