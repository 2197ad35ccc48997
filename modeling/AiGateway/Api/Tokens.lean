import AiGateway.Core.Json
import AiGateway.Library.MachineInt

/-!
# Token usage of a response body (`gateway-api/src/tokens.rs`)

The JSON parser is the parameter `fromSlice`, which stands for
`serde_json::from_slice::<Value>`; a failed parse is `none`.
-/

namespace AiGateway.Api
open AiGateway.Core AiGateway.Library.MachineInt

structure TokenUsage where
  prompt : Option Int
  completion : Option Int
  cached : Option Int
  total : Option Int
  deriving DecidableEq, Repr

namespace TokenUsage

def default : TokenUsage := ⟨none, none, none, none⟩

def totalTokens (u : TokenUsage) : Option Int :=
  match u.total with
  | some t => some t
  | none =>
    match u.prompt, u.completion with
    | some p, some c => some (wrap64 (p + c))
    | _, _ => none

def merge (usage u : TokenUsage) : TokenUsage :=
  ⟨u.prompt.or usage.prompt, u.completion.or usage.completion, u.cached.or usage.cached,
    u.total.or usage.total⟩

theorem default_merge (u : TokenUsage) : default.merge u = u := by
  simp [merge, default]

theorem merge_default (u : TokenUsage) : u.merge default = u := by
  simp [merge, default]

theorem merge_assoc (u v w : TokenUsage) : (u.merge v).merge w = u.merge (v.merge w) := by
  simp [merge, Option.or_assoc]

end TokenUsage

def usageObject (v : Value) : Option (List (String × Value)) :=
  ((v.get "usage").bind Value.asObject).or
    (((v.get "response").bind (·.get "usage")).bind Value.asObject)

def fromValue (v : Value) : TokenUsage :=
  match usageObject v with
  | none => .default
  | some usage =>
    let field := fun name => usage.lookup name
    let detail := fun name => ((field name).bind (·.get "cached_tokens")).bind Value.asI64
    { prompt := ((field "prompt_tokens").or (field "input_tokens")).bind Value.asI64
      completion := ((field "completion_tokens").or (field "output_tokens")).bind Value.asI64
      cached := ((detail "prompt_tokens_details").or (detail "input_tokens_details")).or
        ((field "cache_read_input_tokens").bind Value.asI64)
      total := (field "total_tokens").bind Value.asI64 }

def idFromValue (v : Value) : Option String :=
  let nonEmptyId := fun value : Value => value.asStr.filter (· ≠ "")
  ((v.get "id").bind nonEmptyId).or (((v.get "response").bind (·.get "id")).bind nonEmptyId)

def isBlank (b : UInt8) : Bool := b == 32 || b == 9 || b == 13

def trimAscii (s : Bytes) : Bytes :=
  ((s.dropWhile isBlank).reverse.dropWhile isBlank).reverse

/-- The line's payload behind `data: `, unless it is `[DONE]`. -/
def dataPayload (line : Bytes) : Option Bytes :=
  let line := trimAscii line
  if (asBytes "data: ").isPrefixOf line then
    let payload := line.drop 6
    if payload = asBytes "[DONE]" then none else some payload
  else none

/-- `split(|b| *b == b'\n')`: the lines of a body, at least one. -/
def lines : Bytes → List Bytes
  | [] => [[]]
  | b :: rest =>
    if b = 10 then [] :: lines rest
    else
      match lines rest with
      | line :: more => (b :: line) :: more
      | [] => [[b]]

section
variable (fromSlice : Bytes → Option Value)

def dataValues (body : Bytes) : List Value :=
  (lines body).filterMap fun line => (dataPayload line).bind fromSlice

def extractTokenUsage (body : Bytes) : TokenUsage :=
  if body.isEmpty then .default
  else
    match fromSlice body with
    | some v => fromValue v
    | none => (dataValues fromSlice body).foldl (fun usage v => usage.merge (fromValue v)) .default

def extractResponseId (body : Bytes) : Option String :=
  if body.isEmpty then none
  else
    match fromSlice body with
    | some v => idFromValue v
    | none => (dataValues fromSlice body).findSome? idFromValue

end

/-! ### Bodies without a `data:` line -/

theorem lines_subset {body line : Bytes} (h : line ∈ lines body) : line ⊆ body := by
  induction body generalizing line with
  | nil =>
    rw [lines, List.mem_singleton] at h
    rw [h]
    exact List.Subset.refl _
  | cons b rest ih =>
    rw [lines] at h
    split at h
    · rcases List.mem_cons.mp h with rfl | hrest
      · exact List.nil_subset _
      · exact List.subset_cons_of_subset b (ih hrest)
    · split at h
      · rename_i line' more hlines
        rcases List.mem_cons.mp h with rfl | hrest
        · refine List.cons_subset_cons b (ih ?_)
          rw [hlines]
          exact List.mem_cons_self ..
        · refine List.subset_cons_of_subset b (ih ?_)
          rw [hlines]
          exact List.mem_cons_of_mem _ hrest
      · rename_i hlines
        rw [List.mem_singleton] at h
        rw [h]
        exact List.cons_subset_cons b (List.nil_subset _)

theorem trimAscii_subset (s : Bytes) : trimAscii s ⊆ s := by
  intro b hb
  rw [trimAscii, List.mem_reverse] at hb
  have hmid := (List.dropWhile_sublist isBlank).subset hb
  rw [List.mem_reverse] at hmid
  exact (List.dropWhile_sublist isBlank).subset hmid

theorem dataPayload_eq_none {line : Bytes} (h : (100 : UInt8) ∉ line) : dataPayload line = none := by
  simp only [dataPayload]
  split
  · rename_i hstart
    have hmem : (100 : UInt8) ∈ trimAscii line := by
      refine (List.isPrefixOf_iff_prefix.mp hstart).subset ?_
      decide
    exact absurd (trimAscii_subset line hmem) h
  · rfl

theorem dataValues_eq_nil (fromSlice : Bytes → Option Value) {body : Bytes}
    (h : (100 : UInt8) ∉ body) : dataValues fromSlice body = [] := by
  rw [dataValues, List.filterMap_eq_nil_iff]
  intro line hline
  rw [dataPayload_eq_none fun hmem => h (lines_subset hline hmem)]
  rfl

end AiGateway.Api
