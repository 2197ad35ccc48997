import AiGateway.Storage.MemoryLogs

/-!
# Recomputed costs in SQL (`sqlite/logs.rs:356-402`, `postgres/logs.rs:331-376`)

The `UPDATE` of a SQL store is the calculator written once more, without the clamps of the
cached and the completion tokens. It finds the provider of a row in the JSON text of the trace.
-/

namespace AiGateway.Storage
open AiGateway.Core AiGateway.Library.MachineInt

/-- What a path into JSON leads to; a number equals no text. -/
inductive SqlScalar where
  | text (s : String)
  | number
  deriving DecidableEq

/-- The JSON functions of a database: the value of a stored text, and the text of a value. -/
structure SqlJson where
  read : String → Value
  text : Value → String

namespace LogBackend

/-- `json_extract` keeps numbers and makes them of booleans; `->>` makes a text of everything. -/
def scalar (json : SqlJson) : LogBackend → Value → Option SqlScalar
  | _, .null => none
  | _, .string s => some (.text s)
  | .sqlite, .bool _ => some .number
  | .sqlite, .number _ => some .number
  | .postgres, .bool b => some (.text (if b then "true" else "false"))
  | _, v => some (.text (json.text v))

/-- `$.attempts[#-1].provider`, and `-> 'attempts' -> -1 ->> 'provider'`. -/
def attemptProvider (json : SqlJson) (backend : LogBackend) (metadata : Value) : Option SqlScalar :=
  ((((metadata.get "attempts").bind Value.asArray).bind List.getLast?).bind fun x =>
    x.get "provider").bind (backend.scalar json)

/-- The `COALESCE` of the `WHERE` clause. -/
def provider (json : SqlJson) (backend : LogBackend) (row : LogRow) : Option SqlScalar :=
  (row.fallbackUsed.map .text).or
    ((row.metadata.bind fun text => backend.attemptProvider json (json.read text)).or
      (row.logNamespace.map .text))

def selects (json : SqlJson) (backend : LogBackend) (provider model : String)
    (fromTs toTs : Option Int) (row : LogRow) : Bool :=
  backend.provider json row = some (.text provider) && row.model = some model &&
    ((row.promptTokens.isSome || row.completionTokens.isSome) &&
      fromTs.all (· ≤ row.requestTs) && toTs.all (row.requestTs ≤ ·))

/-- Beyond 64 bits SQLite subtracts reals, and Postgres fails. -/
def subtracts : LogBackend → LogRow → Bool
  | .sqlite, _ => true
  | .postgres, row => InI64 (row.promptTokens.getD 0 - row.cachedTokens.getD 0)

end LogBackend

namespace LogRow

def newCost (inputPer1k cachedInputPer1k outputPer1k : ℚ) (row : LogRow) : ℚ :=
  let prompt := row.promptTokens.getD 0
  let cached := row.cachedTokens.getD 0
  let completion := row.completionTokens.getD 0
  round6 (((max (prompt - cached) 0 : Int) * inputPer1k + cached * cachedInputPer1k
    + completion * outputPer1k) / 1000)

def recost (inputPer1k cachedInputPer1k outputPer1k : ℚ) (row : LogRow) : LogRow :=
  let cost := row.newCost inputPer1k cachedInputPer1k outputPer1k
  { row with wouldHaveCostUsd := some cost, costUsd := some (if row.cached ≠ 0 then 0 else cost) }

end LogRow

/-- `recompute_costs` of a SQL store; no result is an error. -/
def SqlLogStore.recomputeCosts (backend : LogBackend) (json : SqlJson) (table : List LogRow)
    (provider model : String) (inputPer1k cachedInputPer1k outputPer1k : ℚ)
    (fromTs toTs : Option Int) : Option (List LogRow × ℕ) :=
  let hit := backend.selects json provider model fromTs toTs
  if (table.filter hit).all backend.subtracts then
    some (table.map fun row =>
      if hit row then row.recost inputPer1k cachedInputPer1k outputPer1k else row, table.countP hit)
  else none

/-- The metadata of a record: a trace whose attempts name their providers, or nothing. -/
def ProxyTrace (metadata : Option Value) : Prop :=
  ∀ v, metadata = some v → ∃ attempts, v = .object [("attempts", .array attempts)] ∧
    ∀ a ∈ attempts, ∃ provider, a.get "provider" = some (.string provider)

/-! ### The rows -/

section
variable {backend : LogBackend} {json : SqlJson} {toJson : Value → String} {r : RequestLogRecord}

theorem attemptProvider_trace {v : Value} (h : ProxyTrace (some v)) :
    backend.attemptProvider json v =
      ((((((v.get "attempts").bind Value.asArray).bind List.getLast?).bind fun x =>
        x.get "provider").bind Value.asStr).map SqlScalar.text) := by
  obtain ⟨attempts, hv, hall⟩ := h v rfl
  have hattempts : (v.get "attempts").bind Value.asArray = some attempts := by
    rw [hv]
    rfl
  unfold LogBackend.attemptProvider
  rw [hattempts, Option.bind_some]
  cases hlast : attempts.getLast? with
  | none => rfl
  | some last =>
    obtain ⟨provider, hprovider⟩ := hall last (List.mem_of_getLast? hlast)
    rw [Option.bind_some, hprovider]
    cases backend <;> rfl

theorem provider_toRow (hread : ∀ v, r.metadata = some v → json.read (toJson v) = v)
    (htrace : ProxyTrace r.metadata) :
    backend.provider json (r.toRow toJson) = r.resolveProvider.map SqlScalar.text := by
  have hattempt : ((r.metadata.map toJson).bind fun text =>
      backend.attemptProvider json (json.read text)) =
        (((((r.metadata.bind fun m => m.get "attempts").bind Value.asArray).bind
          List.getLast?).bind fun x => x.get "provider").bind Value.asStr).map SqlScalar.text := by
    cases hmeta : r.metadata with
    | none => rfl
    | some v =>
      rw [hmeta] at htrace
      rw [Option.map_some, Option.bind_some, hread v hmeta, Option.bind_some,
        attemptProvider_trace htrace]
  show (r.fallbackUsed.map _).or (((r.metadata.map toJson).bind _).or (r.logNamespace.map _)) = _
  rw [hattempt]
  unfold RequestLogRecord.resolveProvider
  rw [Option.map_or, Option.map_or, Option.or_assoc]

theorem selects_toRow (hread : ∀ v, r.metadata = some v → json.read (toJson v) = v)
    (htrace : ProxyTrace r.metadata) (provider model : String) (fromTs toTs : Option Int) :
    backend.selects json provider model fromTs toTs (r.toRow toJson) =
      (r.resolveProvider = some provider && r.model = some model &&
        MemoryLogStore.swept fromTs toTs r) := by
  have hprovider : decide (backend.provider json (r.toRow toJson) = some (.text provider)) =
      decide (r.resolveProvider = some provider) := by
    rw [provider_toRow hread htrace]
    cases r.resolveProvider with
    | none => rfl
    | some p => simp
  unfold LogBackend.selects
  rw [hprovider]
  rfl

/-! ### The costs -/

theorem round6_intCast (n : Int) : round6 (n : ℚ) = n := by
  have hhalf : ⌊(1 / 2 : ℚ)⌋ = 0 := by
    rw [Int.floor_eq_zero_iff]
    constructor <;> norm_num
  have hround : (CostNumber.round ((n * 1000000 : Int) : ℚ) : ℚ) = (n * 1000000 : Int) := by
    rw [round_rat]
    congr 1
    split
    · rw [Int.floor_intCast_add, hhalf, add_zero]
    · rw [← Int.cast_neg, Int.floor_intCast_add, hhalf, add_zero, neg_neg]
  unfold round6
  rw [ofCount_rat, ← Int.cast_mul, hround, Int.cast_mul]
  exact mul_div_cancel_right₀ _ (by norm_num)

theorem nonneg_of_round6_max {n : Int} (h : round6 (n : ℚ) = round6 ((max n 0 : Int) : ℚ)) :
    0 ≤ n := by
  rw [round6_intCast, round6_intCast, Int.cast_inj] at h
  omega

/-- The counts that the `UPDATE` does not clamp. -/
def RequestLogRecord.Unclamped (r : RequestLogRecord) : Prop :=
  0 ≤ r.cachedTokens.getD 0 ∧ 0 ≤ r.completionTokens.getD 0

def RequestLogRecord.Subtracts (r : RequestLogRecord) : Prop :=
  InI64 (r.promptTokens.getD 0 - r.cachedTokens.getD 0)

theorem recost_toRow (hfits : r.Subtracts) (h : r.Unclamped) (a b c : ℚ) :
    (r.toRow toJson).recost a b c = (MemoryLogStore.recost a b c r).toRow toJson := by
  have hcost : (r.toRow toJson).newCost a b c = round6
      ((max (wrap64 (r.promptTokens.getD 0 - r.cachedTokens.getD 0)) 0 : Int) * a / 1000
        + (max (r.cachedTokens.getD 0) 0 : Int) * b / 1000
        + (max (r.completionTokens.getD 0) 0 : Int) * c / 1000) := by
    rw [wrap64_of_inI64 hfits, max_eq_left h.1, max_eq_left h.2, ← add_div, ← add_div]
    rfl
  unfold LogRow.recost MemoryLogStore.recost
  rw [hcost]
  cases hcached : r.cached <;> simp [RequestLogRecord.toRow, hcached]

/-- At the price of a dollar for each token of a kind, the sign of the count shows. -/
theorem unclamped_of_recost
    (h : ∀ a b c : ℚ,
      (r.toRow toJson).recost a b c = (MemoryLogStore.recost a b c r).toRow toJson) :
    r.Unclamped := by
  have hcosts : ∀ a b c : ℚ, (r.toRow toJson).newCost a b c = round6
      ((max (wrap64 (r.promptTokens.getD 0 - r.cachedTokens.getD 0)) 0 : Int) * a / 1000
        + (max (r.cachedTokens.getD 0) 0 : Int) * b / 1000
        + (max (r.completionTokens.getD 0) 0 : Int) * c / 1000) := fun a b c =>
    Option.some.inj (congrArg LogRow.wouldHaveCostUsd (h a b c))
  have hone : ∀ n : Int, (n : ℚ) * 1000 / 1000 = n := by
    intro n
    exact mul_div_cancel_right₀ _ (by norm_num)
  constructor
  · have hcached := hcosts 0 1000 0
    unfold LogRow.newCost at hcached
    simp only [mul_zero, zero_div, zero_add, add_zero, hone] at hcached
    exact nonneg_of_round6_max hcached
  · have hcompletion := hcosts 0 0 1000
    unfold LogRow.newCost at hcompletion
    simp only [mul_zero, zero_div, zero_add, hone] at hcompletion
    exact nonneg_of_round6_max hcompletion

end

/-! ### The update -/

def RequestLogRecord.selectedBy (provider model : String) (fromTs toTs : Option Int)
    (r : RequestLogRecord) : Bool :=
  r.resolveProvider = some provider && r.model = some model && MemoryLogStore.swept fromTs toTs r

def RequestLogRecord.charged (e : PricingEntry) (r : RequestLogRecord) : RequestLogRecord :=
  let cost := (applyPrice e (r.promptTokens.getD 0) (r.completionTokens.getD 0)
    (r.cachedTokens.getD 0)).costUsd
  { r with wouldHaveCostUsd := some cost, costUsd := some (if r.cached then 0 else cost) }

/-- The `UPDATE` does what the memory store and the calculator do. -/
structure MirrorsCalculator (backend : LogBackend) (json : SqlJson) (toJson : Value → String)
    (records : List RequestLogRecord) : Prop where
  store : ∀ provider model a b c fromTs toTs,
    let after := MemoryLogStore.recomputeCosts records provider model a b c fromTs toTs
    SqlLogStore.recomputeCosts backend json (records.map (RequestLogRecord.toRow toJson)) provider
      model a b c fromTs toTs = some (after.1.map (RequestLogRecord.toRow toJson), after.2)
  calculator : ∀ provider model e fromTs toTs,
    SqlLogStore.recomputeCosts backend json (records.map (RequestLogRecord.toRow toJson)) provider
      model (rate e.inputPer1k) (rate (e.cachedInputPer1k.getD e.inputPer1k)) (rate e.outputPer1k)
      fromTs toTs =
    some (records.map fun r => RequestLogRecord.toRow toJson
      (if r.selectedBy provider model fromTs toTs then r.charged e else r),
      records.countP (RequestLogRecord.selectedBy provider model fromTs toTs))

section
variable {backend : LogBackend} {json : SqlJson} {toJson : Value → String}
  {records : List RequestLogRecord}

theorem recomputeCosts_toRow
    (hread : ∀ r ∈ records, ∀ v, r.metadata = some v → json.read (toJson v) = v)
    (htrace : ∀ r ∈ records, ProxyTrace r.metadata) (hfits : ∀ r ∈ records, r.Subtracts)
    (provider model : String) (a b c : ℚ) (fromTs toTs : Option Int) :
    SqlLogStore.recomputeCosts backend json (records.map (RequestLogRecord.toRow toJson)) provider
      model a b c fromTs toTs =
    some (records.map fun r => if r.selectedBy provider model fromTs toTs then
        (r.toRow toJson).recost a b c else r.toRow toJson,
      records.countP (RequestLogRecord.selectedBy provider model fromTs toTs)) := by
  have hselects : ∀ r ∈ records, backend.selects json provider model fromTs toTs
      (r.toRow toJson) = r.selectedBy provider model fromTs toTs := fun r hr =>
    selects_toRow (hread r hr) (htrace r hr) provider model fromTs toTs
  have hsubtracts : ((records.map (RequestLogRecord.toRow toJson)).filter
      (backend.selects json provider model fromTs toTs)).all backend.subtracts = true := by
    rw [List.all_eq_true]
    intro row hrow
    obtain ⟨r, hr, rfl⟩ := List.mem_map.mp (List.mem_filter.mp hrow).1
    cases backend with
    | sqlite => rfl
    | postgres => exact decide_eq_true (hfits r hr)
  unfold SqlLogStore.recomputeCosts
  simp only
  rw [if_pos hsubtracts, List.map_map, List.countP_map]
  congr 2
  · apply List.map_congr_left
    intro r hr
    show (if backend.selects json provider model fromTs toTs (r.toRow toJson) = true then _ else _)
      = _
    rw [hselects r hr]
  · apply List.countP_congr
    intro r hr
    show backend.selects json provider model fromTs toTs (r.toRow toJson) = true ↔ _
    rw [hselects r hr]

theorem MirrorsCalculator.unclamped
    (hread : ∀ r ∈ records, ∀ v, r.metadata = some v → json.read (toJson v) = v)
    (htrace : ∀ r ∈ records, ProxyTrace r.metadata) (hfits : ∀ r ∈ records, r.Subtracts)
    (h : MirrorsCalculator backend json toJson records) {r : RequestLogRecord} (hr : r ∈ records)
    (hcounted : r.promptTokens.isSome ∨ r.completionTokens.isSome)
    (hprovider : r.resolveProvider.isSome) (hmodel : r.model.isSome) : r.Unclamped := by
  obtain ⟨provider, hprovider⟩ := Option.isSome_iff_exists.mp hprovider
  obtain ⟨model, hmodel⟩ := Option.isSome_iff_exists.mp hmodel
  have hselected : r.selectedBy provider model none none = true := by
    have hswept : MemoryLogStore.swept none none r = true := by
      simp only [MemoryLogStore.swept, Option.all_none, Bool.and_true, Bool.or_eq_true]
      exact hcounted
    unfold RequestLogRecord.selectedBy
    rw [hprovider, hmodel, hswept]
    simp
  apply @unclamped_of_recost toJson
  intro a b c
  have hstore := h.store provider model a b c none none
  simp only [recomputeCosts_toRow hread htrace hfits] at hstore
  have hrows := congrArg Prod.fst (Option.some.inj hstore)
  simp only [MemoryLogStore.recomputeCosts, List.map_map] at hrows
  have hrow := List.map_eq_map_iff.mp hrows r hr
  simp only [Function.comp_apply, hselected, if_true] at hrow
  exact hrow.trans (congrArg (RequestLogRecord.toRow toJson) (if_pos hselected))

/-- The `UPDATE` mirrors the calculator exactly when no row that it can find has a negative count
of cached or completion tokens. -/
theorem mirrorsCalculator_iff
    (hread : ∀ r ∈ records, ∀ v, r.metadata = some v → json.read (toJson v) = v)
    (htrace : ∀ r ∈ records, ProxyTrace r.metadata) (hfits : ∀ r ∈ records, r.Subtracts) :
    MirrorsCalculator backend json toJson records ↔
      ∀ r ∈ records, (r.promptTokens.isSome ∨ r.completionTokens.isSome) →
        r.resolveProvider.isSome → r.model.isSome →
          0 ≤ r.cachedTokens.getD 0 ∧ 0 ≤ r.completionTokens.getD 0 := by
  have hsql := @recomputeCosts_toRow backend json toJson records hread htrace hfits
  constructor
  · intro h r hr hcounted hprovider hmodel
    exact h.unclamped hread htrace hfits hr hcounted hprovider hmodel
  · intro h
    have hstore : ∀ provider model a b c fromTs toTs,
        let after := MemoryLogStore.recomputeCosts records provider model a b c fromTs toTs
        SqlLogStore.recomputeCosts backend json (records.map (RequestLogRecord.toRow toJson))
          provider model a b c fromTs toTs =
            some (after.1.map (RequestLogRecord.toRow toJson), after.2) := by
      intro provider model a b c fromTs toTs
      simp only [hsql, MemoryLogStore.recomputeCosts, List.map_map]
      congr 2
      apply List.map_congr_left
      intro r hr
      show (if r.selectedBy provider model fromTs toTs = true then _ else _) =
        RequestLogRecord.toRow toJson (if r.selectedBy provider model fromTs toTs = true then
          MemoryLogStore.recost a b c r else r)
      split
      · rename_i hselected
        unfold RequestLogRecord.selectedBy at hselected
        rw [Bool.and_eq_true, Bool.and_eq_true, decide_eq_true_eq, decide_eq_true_eq] at hselected
        obtain ⟨⟨hprovider, hmodel⟩, hswept⟩ := hselected
        have hcounted : r.promptTokens.isSome ∨ r.completionTokens.isSome := by
          simp only [MemoryLogStore.swept, Bool.and_eq_true, Bool.or_eq_true] at hswept
          exact hswept.1.1
        exact recost_toRow (hfits r hr) (h r hr hcounted (by rw [hprovider]; rfl)
          (by rw [hmodel]; rfl)) a b c
      · rfl
    refine ⟨hstore, fun provider model e fromTs toTs => ?_⟩
    rw [hstore]
    simp only [MemoryLogStore.recomputeCosts, List.map_map]
    rfl

end

def hitTrace : Value :=
  .object [("attempts", .array [.object [("outcome", .string "cache_hit"),
    ("provider", .string "openai")]])]

def hitTraceText : String :=
  "\x7b\"attempts\":[\x7b\"outcome\":\"cache_hit\",\"provider\":\"openai\"\x7d]\x7d"

def tracedJson : SqlJson := ⟨fun _ => hitTrace, fun _ => hitTraceText⟩

def tracedRecord (prompt cached completion : Int) : RequestLogRecord :=
  { plainRecord "r1" none with
    model := some "gpt-4o"
    promptTokens := some prompt
    cachedTokens := some cached
    completionTokens := some completion
    metadata := some hitTrace }

theorem tracedRecord_written {prompt cached completion : Int} :
    ∀ r ∈ [tracedRecord prompt cached completion],
      (∀ v, r.metadata = some v → tracedJson.read hitTraceText = v) ∧ ProxyTrace r.metadata := by
  intro r hr
  rw [List.mem_singleton.mp hr]
  constructor
  · intro v hv
    cases hv
    rfl
  · intro v hv
    cases hv
    refine ⟨_, rfl, ?_⟩
    intro a ha
    rw [List.mem_singleton.mp ha]
    exact ⟨"openai", rfl⟩

theorem mirrorsCalculator_cachedHit :
    MirrorsCalculator .postgres tracedJson (fun _ => hitTraceText) [tracedRecord 1000 200 10] := by
  refine (mirrorsCalculator_iff (fun r hr => (tracedRecord_written r hr).1)
    (fun r hr => (tracedRecord_written r hr).2) ?_).mpr ?_
  · intro r hr
    rw [List.mem_singleton.mp hr]
    unfold RequestLogRecord.Subtracts
    decide
  · intro r hr _ _ _
    rw [List.mem_singleton.mp hr]
    decide

/-- An answer that reports `-5` cached tokens. -/
theorem negative_cached_differs :
    ¬ MirrorsCalculator .sqlite tracedJson (fun _ => hitTraceText) [tracedRecord 0 (-5) 0] ∧
      ¬ MirrorsCalculator .postgres tracedJson (fun _ => hitTraceText) [tracedRecord 0 (-5) 0] := by
  have hfits : ∀ r ∈ [tracedRecord 0 (-5) 0], r.Subtracts := by
    intro r hr
    rw [List.mem_singleton.mp hr]
    unfold RequestLogRecord.Subtracts
    decide
  have hnot : ∀ backend, ¬ MirrorsCalculator backend tracedJson (fun _ => hitTraceText)
      [tracedRecord 0 (-5) 0] := by
    intro backend h
    have hsign := h.unclamped (fun r hr => (tracedRecord_written r hr).1)
      (fun r hr => (tracedRecord_written r hr).2) hfits (List.mem_singleton.mpr rfl)
      (Or.inl rfl) rfl rfl
    exact absurd hsign.1 (by decide)
  exact ⟨hnot .sqlite, hnot .postgres⟩

end AiGateway.Storage
