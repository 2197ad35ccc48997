import AiGateway.Api.Transcripts
import AiGateway.Core.CanonicalJson

/-!
# Streams metered like bodies (`gateway-api/src/tokens.rs`)

Of an answer of the Responses API the last event carries the whole object, so that its stream is
metered like its body. Anthropic's first event carries the message under `message`, where nothing
looks: the stream is metered without its prompt and has no id.
-/

namespace AiGateway.Api
open AiGateway.Core AiGateway.Library.MachineInt

/-! ### Texts that are parsed by a table -/

def withoutTail (text : Bytes) : Bytes := (text.reverse.dropWhile isBlank).reverse

/-- A parser that knows the texts of a table. -/
def tableParser (table : List (Bytes × Value)) (text : Bytes) : Option Value :=
  table.lookup (withoutTail text)

theorem withoutTail_prefix (text : Bytes) : withoutTail text <+: text := by
  have hsuffix := List.dropWhile_suffix isBlank (l := text.reverse)
  have hprefix := List.reverse_prefix.mpr hsuffix
  rw [List.reverse_reverse] at hprefix
  exact hprefix

theorem tableParser_json {table : List (Bytes × Value)}
    (h : table.all (fun e => e.1.headD 0 == 123) = true) : JsonParser (tableParser table) := by
  constructor
  · intro ws b rest hws _ _ hstart
    cases hfound : tableParser table (ws ++ b :: rest) with
    | none => rfl
    | some v =>
      obtain ⟨before, after, htable, -⟩ := List.lookup_eq_some_iff.mp hfound
      have hkey : (withoutTail (ws ++ b :: rest)).headD 0 = 123 := by
        rw [List.all_eq_true] at h
        refine eq_of_beq (h (withoutTail (ws ++ b :: rest), v) ?_)
        rw [htable]
        exact List.mem_append_right _ (List.mem_cons_self ..)
      obtain ⟨tail, htail⟩ := withoutTail_prefix (ws ++ b :: rest)
      have hhead : (ws ++ b :: rest).headD 0 = 123 := by
        rw [← htail]
        cases hkept : withoutTail (ws ++ b :: rest) with
        | nil =>
          rw [hkept] at hkey
          exact absurd hkey (by decide)
        | cons first kept =>
          rw [hkept] at hkey
          exact hkey
      cases ws with
      | nil =>
        have hb : b = 123 := hhead
        exact absurd (by rw [hb]; decide) hstart
      | cons x ws =>
        have hx : x = 123 := hhead
        rcases hws x (List.mem_cons_self ..) with h10 | hxblank
        · rw [hx] at h10
          exact absurd h10 (by decide)
        · rw [hx] at hxblank
          exact absurd hxblank (by decide)
  · intro text b hb
    unfold tableParser withoutTail
    rw [List.reverse_concat, List.dropWhile_cons_of_pos hb]

/-! ### The Responses API -/

/-- The last event, with its fields as they are kept once parsed. -/
def completedEvent (r : List (String × Value)) : List (String × Value) :=
  [("response", .object r), ("type", .string "response.completed")]

/-- The event has no usage, and no id but that of the response. -/
structure Quiet (r : List (String × Value)) (v : Value) : Prop where
  usage : ∀ usage, v.get "usage" ≠ some (.object usage)
  responseUsage : ∀ response usage, v.get "response" = some response →
    response.get "usage" ≠ some (.object usage)
  id : ∀ id, id ≠ "" → v.get "id" = some (.string id) → r.lookup "id" = some (.string id)
  responseId : ∀ response id, id ≠ "" → v.get "response" = some response →
    response.get "id" = some (.string id) → r.lookup "id" = some (.string id)

inductive LastEnd where
  | none
  | lf
  | crlf

def LastEnd.bytes : LastEnd → Bytes
  | .none => []
  | .lf => [10]
  | .crlf => [13, 10]

theorem asObject_bind_eq_none {found : Option Value}
    (h : ∀ fields, found ≠ some (.object fields)) : found.bind Value.asObject = none := by
  cases found with
  | none => rfl
  | some v =>
    cases v with
    | object fields => exact absurd rfl (h fields)
    | null => rfl
    | bool b => rfl
    | number n => rfl
    | string s => rfl
    | array items => rfl

theorem Quiet.fromValue_eq {r : List (String × Value)} {v : Value} (h : Quiet r v) :
    fromValue v = .default := by
  have htop := asObject_bind_eq_none h.usage
  have hresponse : ((v.get "response").bind (·.get "usage")).bind Value.asObject = none := by
    cases hfound : v.get "response" with
    | none => rfl
    | some response => exact asObject_bind_eq_none fun usage => h.responseUsage response usage hfound
  unfold fromValue usageObject
  rw [htop, hresponse]
  rfl

def nonEmptyId (v : Value) : Option String := v.asStr.filter (· ≠ "")

theorem nonEmptyId_eq_some {v : Value} {id : String} :
    nonEmptyId v = some id ↔ v = .string id ∧ id ≠ "" := by
  unfold nonEmptyId
  cases v with
  | string s =>
    simp only [Value.asStr, Option.filter_eq_some_iff, Option.some.injEq, decide_eq_true_eq,
      Value.string.injEq]
  | _ => simp [Value.asStr]

theorem idFromValue_eq (v : Value) : idFromValue v = ((v.get "id").bind nonEmptyId).or
    (((v.get "response").bind (·.get "id")).bind nonEmptyId) := rfl

theorem Quiet.idFromValue_eq {r : List (String × Value)} {v : Value} (h : Quiet r v) :
    idFromValue v = none ∨ idFromValue v = (r.lookup "id").bind nonEmptyId := by
  have hown : ∀ id, r.lookup "id" = some (.string id) → id ≠ "" →
      some id = (r.lookup "id").bind nonEmptyId := by
    intro id hid hne
    rw [hid, Option.bind_some, nonEmptyId_eq_some.mpr ⟨rfl, hne⟩]
  cases hfound : idFromValue v with
  | none => exact Or.inl rfl
  | some id =>
    right
    rw [AiGateway.Api.idFromValue_eq] at hfound
    rcases Option.or_eq_some_iff.mp hfound with htop | ⟨-, hresponse⟩
    · obtain ⟨x, hx, hid⟩ := Option.bind_eq_some_iff.mp htop
      obtain ⟨rfl, hne⟩ := nonEmptyId_eq_some.mp hid
      exact hown id (h.id id hne hx) hne
    · obtain ⟨x, hx, hid⟩ := Option.bind_eq_some_iff.mp hresponse
      obtain ⟨response, hr, hx⟩ := Option.bind_eq_some_iff.mp hx
      obtain ⟨rfl, hne⟩ := nonEmptyId_eq_some.mp hid
      exact hown id (h.responseId response id hne hr hx) hne

theorem fromValue_completed {r : List (String × Value)} (h : r.lookup "response" = none) :
    fromValue (.object (completedEvent r)) = fromValue (.object r) := by
  have husage : usageObject (.object (completedEvent r)) = usageObject (.object r) := by
    show (((Value.object r).get "usage").bind Value.asObject) =
      ((r.lookup "usage").bind Value.asObject).or
        (((r.lookup "response").bind (·.get "usage")).bind Value.asObject)
    rw [h, Option.bind_none, Option.bind_none, Option.or_none]
    rfl
  unfold fromValue
  rw [husage]

theorem idFromValue_completed (r : List (String × Value)) :
    idFromValue (.object (completedEvent r)) = (r.lookup "id").bind nonEmptyId := rfl

theorem idFromValue_body {r : List (String × Value)} (h : r.lookup "response" = none) :
    idFromValue (.object r) = (r.lookup "id").bind nonEmptyId := by
  show ((r.lookup "id").bind nonEmptyId).or
    (((r.lookup "response").bind (·.get "id")).bind nonEmptyId) = _
  rw [h, Option.bind_none, Option.bind_none, Option.or_none]

theorem newline_notMem_data {payload : Bytes} (h : (10 : UInt8) ∉ payload) :
    (10 : UInt8) ∉ asBytes "data: " ++ payload := by
  intro hmem
  rcases List.mem_append.mp hmem with hprefix | hpayload
  · exact absurd hprefix (by decide)
  · exact h hpayload

section
variable {fromSlice : Bytes → Option Value}

theorem dataValues_last {inner : Bytes} {v : Value}
    (hline : (10 : UInt8) ∉ (123 : UInt8) :: (inner ++ [125]))
    (hvalue : fromSlice (123 :: (inner ++ [125])) = some v) (ending : LastEnd) :
    dataValues fromSlice (asBytes "data: " ++ (123 :: inner ++ [125]) ++ ending.bytes) = [v] := by
  have hdata : (10 : UInt8) ∉ asBytes "data: " ++ (123 :: inner ++ [125]) :=
    newline_notMem_data hline
  have hread : ∀ crlf : Bool, (dataPayload (asBytes "data: " ++ (123 :: inner ++ [125]) ++
      if crlf then [13] else [])).bind fromSlice = some v := by
    intro crlf
    have hdone : (123 :: inner) ++ [125] ≠ asBytes "[DONE]" := by
      intro h
      exact absurd (congrArg (fun l => l.headD 0) h) (by decide : (123 : UInt8) ≠ 91)
    rw [dataPayload_exact rfl (lineEnd_blank crlf) hdone]
    exact hvalue
  have hplain := hread false
  rw [if_neg Bool.false_ne_true, List.append_nil] at hplain
  have hempty : (dataPayload []).bind fromSlice = none := rfl
  unfold dataValues
  cases ending with
  | none =>
    show List.filterMap _ (lines (asBytes "data: " ++ (123 :: inner ++ [125]) ++ [])) = _
    rw [List.append_nil, lines_oneLine hdata, List.filterMap_cons, hplain]
    rfl
  | lf =>
    show List.filterMap _ (lines (asBytes "data: " ++ (123 :: inner ++ [125]) ++ [10])) = _
    have hlines : lines (asBytes "data: " ++ (123 :: inner ++ [125]) ++ [10]) =
        [asBytes "data: " ++ (123 :: inner ++ [125]), []] := lines_cons hdata []
    rw [hlines, List.filterMap_cons, hplain, List.filterMap_cons, hempty]
    rfl
  | crlf =>
    show List.filterMap _ (lines (asBytes "data: " ++ (123 :: inner ++ [125]) ++ [13, 10])) = _
    have hlines : lines (asBytes "data: " ++ (123 :: inner ++ [125]) ++ [13, 10]) =
        [asBytes "data: " ++ (123 :: inner ++ [125]) ++ [13], []] := by
      have hcons := lines_cons (newline_notMem_padded hdata true) []
      rw [if_pos rfl, List.append_assoc] at hcons
      exact hcons
    have hpadded := hread true
    rw [if_pos rfl] at hpadded
    rw [hlines, List.filterMap_cons, hpadded, List.filterMap_cons, hempty]
    rfl

theorem foldl_merge_default {values : List Value} (h : ∀ v ∈ values, fromValue v = .default) :
    values.foldl (fun (usage : TokenUsage) v => usage.merge (fromValue v)) .default = .default := by
  induction values with
  | nil => rfl
  | cons v values ih =>
    rw [List.foldl_cons, h v (List.mem_cons_self ..)]
    exact ih fun x hx => h x (List.mem_cons_of_mem _ hx)

/-- Ids that are all the same, or missing, leave the one behind them. -/
theorem findSome_or {values : List Value} {f : Value → Option String} {id : Option String}
    (h : ∀ v ∈ values, f v = none ∨ f v = id) : (values.findSome? f).or id = id := by
  induction values with
  | nil => rfl
  | cons v values ih =>
    have hrest := ih fun x hx => h x (List.mem_cons_of_mem _ hx)
    rw [List.findSome?_cons]
    rcases h v (List.mem_cons_self ..) with hnone | hid
    · rw [hnone]
      exact hrest
    · rw [hid]
      cases id with
      | none => exact hrest
      | some id => rfl

theorem extractTokenUsage_parsed {body : Bytes} {v : Value} (hne : body.isEmpty = false)
    (hbody : fromSlice body = some v) : extractTokenUsage fromSlice body = fromValue v := by
  unfold extractTokenUsage
  rw [hne, if_neg Bool.false_ne_true, hbody]

theorem extractResponseId_parsed {body : Bytes} {v : Value} (hne : body.isEmpty = false)
    (hbody : fromSlice body = some v) : extractResponseId fromSlice body = idFromValue v := by
  unfold extractResponseId
  rw [hne, if_neg Bool.false_ne_true, hbody]

theorem compactText_ne {numText : Number → String} (r : List (String × Value)) :
    (compactText numText (.object r)).isEmpty = false := by
  obtain ⟨inner, hinner⟩ := @compactText_object numText r
  rw [hinner]
  rfl

theorem findSome_completed (r : List (String × Value)) :
    [Value.object (completedEvent r)].findSome? idFromValue = (r.lookup "id").bind nonEmptyId := by
  rw [List.findSome?_cons, idFromValue_completed]
  cases (r.lookup "id").bind nonEmptyId <;> rfl

/-- The stream of a response ends in its usage and has its id: it is metered like the body. -/
theorem responses_stream_metered (hjson : JsonParser fromSlice) {numText : Number → String}
    (hnum : ∀ n, (10 : UInt8) ∉ asBytes (numText n)) {r : List (String × Value)}
    (hresponse : r.lookup "response" = none)
    (hbody : fromSlice (compactText numText (.object r)) = some (.object r))
    {event : List (String × Value)}
    (hparsed : fromSlice (compactText numText (.object event)) = some (.object (completedEvent r)))
    (sent : List SentLine)
    (hquiet : ∀ s ∈ sent, ∀ v, s.carried fromSlice = some v → Quiet r v) (ending : LastEnd) :
    let body := compactText numText (.object r)
    let stream := transcript sent ++
      (asBytes "data: " ++ compactText numText (.object event) ++ ending.bytes)
    extractTokenUsage fromSlice stream = extractTokenUsage fromSlice body ∧
      extractResponseId fromSlice stream = extractResponseId fromSlice body := by
  intro body stream
  obtain ⟨inner, hinner⟩ := @compactText_object numText event
  have hline := newline_notMem_compactText hnum (.object event)
  rw [hinner] at hline hparsed
  have hstream : stream = transcript sent ++
      (asBytes "data: " ++ (123 :: inner ++ [125]) ++ ending.bytes) := by
    show transcript sent ++ (asBytes "data: " ++ compactText numText (.object event) ++ _) = _
    rw [hinner]
    rfl
  have hunparsable : Unparsable stream := by
    rw [hstream]
    refine unparsable_transcript sent ⟨[], 100, _, rfl, ?_, Or.inl rfl⟩
    intro x hx
    cases hx
  have hvalues : dataValues fromSlice stream =
      sent.filterMap (SentLine.read fromSlice) ++ [.object (completedEvent r)] := by
    rw [hstream, dataValues_transcript, dataValues_last hline hparsed]
  have hread : ∀ v ∈ sent.filterMap (SentLine.read fromSlice), Quiet r v := by
    intro v hv
    obtain ⟨s, hs, hread⟩ := List.mem_filterMap.mp hv
    exact hquiet s hs v (s.carried_of_read hjson hread)
  have hbodyUsage := extractTokenUsage_parsed (compactText_ne r) hbody
  have hbodyId := extractResponseId_parsed (compactText_ne r) hbody
  constructor
  · rw [extractTokenUsage_unparsable hjson hunparsable, hvalues, List.foldl_append,
      foldl_merge_default fun v hv => (hread v hv).fromValue_eq, List.foldl_cons,
      TokenUsage.default_merge, fromValue_completed hresponse, hbodyUsage]
    rfl
  · rw [extractResponseId_unparsable hjson hunparsable, hvalues, List.findSome?_append,
      findSome_completed, hbodyId, idFromValue_body hresponse]
    exact findSome_or fun v hv => (hread v hv).idFromValue_eq

end

def numText37 (_ : Number) : String := "37"

theorem newline_notMem_numText37 (n : Number) : (10 : UInt8) ∉ asBytes (numText37 n) := by
  show (10 : UInt8) ∉ asBytes "37"
  decide

def sampleAnswer : List (String × Value) :=
  [("id", .string "resp_1"), ("usage", .object [("input_tokens", .number (.posInt 37))])]

def createdEvent : Value :=
  .object [("response", .object [("id", .string "resp_1"), ("usage", .null)]),
    ("type", .string "response.created")]

def responseTable : List (Bytes × Value) :=
  [.object sampleAnswer, .object (completedEvent sampleAnswer), createdEvent].map fun v =>
    (compactText numText37 v, v)

def createdLines : List SentLine :=
  [⟨.event (asBytes " response.created"), true, by decide, by intro _ h; cases h⟩,
    ⟨.data (compactText numText37 createdEvent), true,
      newline_notMem_data (newline_notMem_compactText newline_notMem_numText37 createdEvent),
      by intro _ h; cases h⟩,
    ⟨.blank [], true, by decide, by intro _ h b hb; cases h; cases hb⟩]

theorem responses_stream_metered_created :
    let stream := transcript createdLines ++ (asBytes "data: " ++
      compactText numText37 (.object (completedEvent sampleAnswer)) ++ LastEnd.crlf.bytes)
    extractTokenUsage (tableParser responseTable) stream =
        extractTokenUsage (tableParser responseTable)
          (compactText numText37 (.object sampleAnswer)) ∧
      extractResponseId (tableParser responseTable) stream =
        extractResponseId (tableParser responseTable)
          (compactText numText37 (.object sampleAnswer)) := by
  refine responses_stream_metered (tableParser_json (by decide +kernel)) newline_notMem_numText37
    rfl rfl rfl createdLines ?_ .crlf
  intro s hs v hv
  simp only [createdLines, List.mem_cons, List.not_mem_nil, or_false] at hs
  rcases hs with rfl | rfl | rfl
  · cases hv
  · have hcreated : tableParser responseTable (compactText numText37 createdEvent) =
        some createdEvent := rfl
    have hvalue : some createdEvent = some v := hcreated.symm.trans hv
    cases hvalue
    exact {
      usage := fun usage h => by cases h
      responseUsage := fun response usage hr h => by
        cases hr
        cases h
      id := fun id _ h => by cases h
      responseId := fun response id _ hr h => by
        cases hr
        exact h }
  · cases hv

/-! ### Anthropic's messages -/

structure AnthropicMessage where
  id : String
  inputTokens : Int
  outputTokens : Int
  cacheRead : Option Int

namespace AnthropicMessage

/-- Usage, total and id are those of the message. -/
def Metered (fromSlice : Bytes → Option Value) (m : AnthropicMessage) (body : Bytes) : Prop :=
  (extractTokenUsage fromSlice body).prompt = some m.inputTokens ∧
    (extractTokenUsage fromSlice body).completion = some m.outputTokens ∧
    (extractTokenUsage fromSlice body).cached = m.cacheRead ∧
    (extractTokenUsage fromSlice body).totalTokens = some (m.inputTokens + m.outputTokens) ∧
    extractResponseId fromSlice body = some m.id

structure IsBody (m : AnthropicMessage) (fields counts : List (String × Value)) : Prop where
  id : fields.lookup "id" = some (.string m.id)
  usage : fields.lookup "usage" = some (.object counts)
  input : (counts.lookup "input_tokens").bind Value.asI64 = some m.inputTokens
  output : (counts.lookup "output_tokens").bind Value.asI64 = some m.outputTokens
  cacheRead : (counts.lookup "cache_read_input_tokens").bind Value.asI64 = m.cacheRead
  others : ∀ name ∈ ["prompt_tokens", "completion_tokens", "prompt_tokens_details",
    "input_tokens_details", "total_tokens"], counts.lookup name = none

def NoId (v : Value) : Prop := v.get "id" = none ∧ v.get "response" = none

/-- `message_start` -/
structure IsStart (m : AnthropicMessage) (v : Value) : Prop where
  noId : NoId v
  noUsage : v.get "usage" = none
  message : ∃ message usage, v.get "message" = some (.object message) ∧
    message.lookup "id" = some (.string m.id) ∧ message.lookup "usage" = some (.object usage) ∧
    (usage.lookup "input_tokens").bind Value.asI64 = some m.inputTokens ∧
    (usage.lookup "cache_read_input_tokens").bind Value.asI64 = m.cacheRead

/-- The last `message_delta` -/
structure IsDelta (m : AnthropicMessage) (v : Value) : Prop where
  noId : NoId v
  usage : ∃ usage, v.get "usage" = some (.object usage) ∧
    (usage.lookup "output_tokens").bind Value.asI64 = some m.outputTokens

/-- The events of the lines: the start, any others, the last delta, and what closes the stream. -/
structure IsStream (m : AnthropicMessage) (fromSlice : Bytes → Option Value)
    (sent : List SentLine) (start delta : Value) (middle closing : List Value) : Prop where
  events : sent.filterMap (SentLine.carried fromSlice) = start :: (middle ++ delta :: closing)
  start : IsStart m start
  middle : ∀ v ∈ middle, NoId v
  delta : IsDelta m delta
  closing : ∀ v ∈ closing, NoId v

end AnthropicMessage

section
open AnthropicMessage
variable {fromSlice : Bytes → Option Value} {m : AnthropicMessage}

theorem body_metered {fields counts : List (String × Value)} (h : m.IsBody fields counts)
    (hid : m.id ≠ "") (hfits : InI64 (m.inputTokens + m.outputTokens)) {body : Bytes}
    (hne : body.isEmpty = false) (hbody : fromSlice body = some (.object fields)) :
    m.Metered fromSlice body := by
  have hown : ((Value.object fields).get "id").bind nonEmptyId = some m.id := by
    show (fields.lookup "id").bind nonEmptyId = some m.id
    rw [h.id, Option.bind_some, nonEmptyId_eq_some.mpr ⟨rfl, hid⟩]
  have hfound : extractResponseId fromSlice body = some m.id := by
    rw [extractResponseId_parsed hne hbody, idFromValue_eq, hown, Option.some_or]
  have hvalue : fromValue (.object fields) =
      ⟨some m.inputTokens, some m.outputTokens, m.cacheRead, none⟩ := by
    have hobject : usageObject (.object fields) = some counts := by
      show ((fields.lookup "usage").bind Value.asObject).or _ = _
      rw [h.usage, Option.bind_some]
      rfl
    have hnone := h.others
    simp only [List.forall_mem_cons, List.not_mem_nil, false_imp_iff, implies_true,
      and_true] at hnone
    obtain ⟨hprompt, hcompletion, hpromptDetails, hinputDetails, htotal⟩ := hnone
    unfold fromValue
    simp only [hobject, hprompt, hcompletion, hpromptDetails, hinputDetails, htotal, h.input,
      h.output, h.cacheRead, Option.none_or, Option.bind_none]
  unfold Metered
  rw [extractTokenUsage_parsed hne hbody, hvalue, hfound]
  refine ⟨rfl, rfl, rfl, ?_, rfl⟩
  show some (wrap64 (m.inputTokens + m.outputTokens)) = _
  rw [wrap64_of_inI64 hfits]

theorem AnthropicMessage.NoId.idFromValue {v : Value} (h : NoId v) : idFromValue v = none := by
  rw [idFromValue_eq, h.1, h.2]
  rfl

/-- Nothing that the first event says of the message is found. -/
theorem AnthropicMessage.IsStart.unseen {v : Value} (h : m.IsStart v) :
    fromValue v = .default ∧ idFromValue v = none := by
  refine ⟨?_, h.noId.idFromValue⟩
  unfold fromValue usageObject
  rw [h.noUsage, h.noId.2]
  rfl

theorem stream_id (hjson : JsonParser fromSlice) {sent : List SentLine} {start delta : Value}
    {middle closing : List Value} (h : m.IsStream fromSlice sent start delta middle closing) :
    extractResponseId fromSlice (transcript sent) = none := by
  have hnoId : ∀ s ∈ sent, ∀ v, s.carried fromSlice = some v → idFromValue v = none := by
    intro s hs v hv
    have hmem : v ∈ start :: (middle ++ delta :: closing) := by
      rw [← h.events]
      exact List.mem_filterMap.mpr ⟨s, hs, hv⟩
    rcases List.mem_cons.mp hmem with rfl | hmem
    · exact h.start.unseen.2
    · rcases List.mem_append.mp hmem with hmem | hmem
      · exact (h.middle v hmem).idFromValue
      · rcases List.mem_cons.mp hmem with rfl | hmem
        · exact h.delta.noId.idFromValue
        · exact (h.closing v hmem).idFromValue
  have hunparsable : Unparsable (transcript sent) := by
    have hstart : start ∈ sent.filterMap (SentLine.carried fromSlice) := by
      rw [h.events]
      exact List.mem_cons_self ..
    obtain ⟨s, hs, hcarried⟩ := List.mem_filterMap.mp hstart
    obtain ⟨before, after, hsplit⟩ := List.append_of_mem hs
    have hbytes : transcript sent = transcript before ++ (s.bytes ++ transcript after) := by
      rw [hsplit]
      exact List.flatMap_append
    rw [hbytes]
    refine unparsable_transcript before (unparsable_cons s ?_)
    intro hblank
    obtain ⟨spaces, hline⟩ := hblank
    unfold SentLine.carried at hcarried
    rw [hline] at hcarried
    cases hcarried
  have hvalues : dataValues fromSlice (transcript sent) =
      sent.filterMap (SentLine.read fromSlice) := by
    have htranscript := @dataValues_transcript fromSlice sent []
    have hempty : dataValues fromSlice [] = [] := rfl
    rw [List.append_nil, hempty, List.append_nil] at htranscript
    exact htranscript
  rw [extractResponseId_unparsable hjson hunparsable, hvalues, List.findSome?_eq_none_iff]
  intro v hv
  obtain ⟨s, hs, hread⟩ := List.mem_filterMap.mp hv
  exact hnoId s hs v (s.carried_of_read hjson hread)

/-- No stream of a message is metered like its body: it has no id. -/
theorem stream_unmetered (hjson : JsonParser fromSlice) {sent : List SentLine}
    {start delta : Value} {middle closing : List Value}
    (h : m.IsStream fromSlice sent start delta middle closing) (body : Bytes) :
    ¬(m.Metered fromSlice body ∧ m.Metered fromSlice (transcript sent)) := by
  intro hmetered
  have hid := hmetered.2.2.2.2.2
  rw [stream_id hjson h] at hid
  cases hid

end

/-! A message of 12, 7 and 3 tokens. -/

def sampleMessage : AnthropicMessage := ⟨"msg_1", 12, 7, some 3⟩

def sampleCounts : List (String × Value) :=
  [("cache_read_input_tokens", .number (.posInt 3)), ("input_tokens", .number (.posInt 12)),
    ("output_tokens", .number (.posInt 7))]

def sampleFields : List (String × Value) :=
  [("id", .string "msg_1"), ("type", .string "message"), ("usage", .object sampleCounts)]

def messageStart : Value :=
  .object [("message", .object [("id", .string "msg_1"), ("usage", .object
      [("cache_read_input_tokens", .number (.posInt 3)), ("input_tokens", .number (.posInt 12))])]),
    ("type", .string "message_start")]

def contentDelta : Value := .object [("index", .number (.posInt 0)), ("type", .string "content")]

def messageDelta : Value :=
  .object [("type", .string "message_delta"), ("usage", .object
    [("output_tokens", .number (.posInt 7))])]

def messageText : Value → Bytes := compactText sampleNumber

def messageTable : List (Bytes × Value) :=
  [.object sampleFields, messageStart, contentDelta, messageDelta].map fun v => (messageText v, v)

def dataLine (payload : Bytes) (h : (10 : UInt8) ∉ payload) : SentLine :=
  ⟨.data payload, false, newline_notMem_data h, by intro _ hblank; cases hblank⟩

def messageLines : List SentLine :=
  [dataLine (messageText messageStart) (by decide +kernel),
    dataLine (messageText contentDelta) (by decide +kernel),
    dataLine (messageText messageDelta) (by decide +kernel)]

theorem messageLines_stream : sampleMessage.IsStream (tableParser messageTable) messageLines
    messageStart messageDelta [contentDelta] [] where
  events := rfl
  start := ⟨⟨rfl, rfl⟩, rfl, _, _, rfl, rfl, rfl, rfl, rfl⟩
  middle := by
    intro v hv
    rw [List.mem_singleton.mp hv]
    exact ⟨rfl, rfl⟩
  delta := ⟨⟨rfl, rfl⟩, _, rfl, rfl⟩
  closing := by
    intro v hv
    cases hv

theorem stream_unmetered_message :
    ¬(sampleMessage.Metered (tableParser messageTable) (messageText (.object sampleFields)) ∧
      sampleMessage.Metered (tableParser messageTable) (transcript messageLines)) :=
  stream_unmetered (tableParser_json (by decide +kernel)) messageLines_stream _

/-- The body of the message is metered; of the stream only the output is found. -/
theorem message_stream_lost :
    ∃ fromSlice, JsonParser fromSlice ∧ ∃ sent, ∃ start delta : Value, ∃ middle closing,
      sampleMessage.IsStream fromSlice sent start delta middle closing ∧
      ∃ fields counts, sampleMessage.IsBody fields counts ∧
      ∃ body, fromSlice body = some (.object fields) ∧ sampleMessage.Metered fromSlice body ∧
      ¬sampleMessage.Metered fromSlice (transcript sent) ∧
      extractTokenUsage fromSlice (transcript sent) = ⟨none, some 7, none, none⟩ ∧
      extractResponseId fromSlice (transcript sent) = none := by
  have hid : extractResponseId (tableParser messageTable) (transcript messageLines) = none := by
    decide +kernel
  have hbody : sampleMessage.IsBody sampleFields sampleCounts :=
    ⟨rfl, rfl, rfl, rfl, rfl, by decide⟩
  have hmetered : sampleMessage.Metered (tableParser messageTable) (messageText (.object sampleFields)) := by
    refine body_metered hbody (by decide) ?_ rfl rfl
    show InI64 (12 + 7)
    decide
  refine ⟨tableParser messageTable, tableParser_json (by decide +kernel), messageLines, _, _, _, _,
    messageLines_stream, sampleFields, sampleCounts, hbody, _, rfl, hmetered, ?_, ?_, hid⟩
  · intro h
    have hfound := h.2.2.2.2
    rw [hid] at hfound
    cases hfound
  · decide +kernel

end AiGateway.Api
