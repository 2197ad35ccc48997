import AiGateway.Library.SqlRows
import AiGateway.Storage.LogBackends

/-!
# The columns of a log record (`sqlite/logs.rs:62-190`, `sqlite/logs.rs:457-519`)

`flush_batch` binds the columns of a record by position, `get_by_id` and `query` read them by
name. The table is that of `migrations/sqlite/20260514000001_init.sql:59-87`. `toJson` and
`fromStr` are `serde_json::to_string` and `from_str`; `nullText` is what `try_get` makes of a
`NULL` when a text is asked for.
-/

namespace AiGateway.Storage
open AiGateway.Core AiGateway.Library.MachineInt AiGateway.Library.Runs AiGateway.Library.SqlRows

def requestLogsColumns : List SqlColumn :=
  [⟨"id", false, .null⟩, ⟨"project_id", true, .null⟩, ⟨"gateway_key_id", false, .null⟩,
    ⟨"namespace", false, .null⟩, ⟨"model", false, .null⟩, ⟨"endpoint", false, .null⟩,
    ⟨"request_ts", true, .null⟩, ⟨"duration_ms", false, .null⟩, ⟨"upstream_ms", false, .null⟩,
    ⟨"ttfb_ms", false, .null⟩, ⟨"status", true, .null⟩, ⟨"http_status", false, .null⟩,
    ⟨"cached", true, .integer 0⟩, ⟨"retry_count", true, .integer 0⟩,
    ⟨"fallback_used", false, .null⟩, ⟨"prompt_tokens", false, .null⟩,
    ⟨"completion_tokens", false, .null⟩, ⟨"cached_tokens", false, .null⟩,
    ⟨"total_tokens", false, .null⟩, ⟨"cost_usd", false, .null⟩,
    ⟨"would_have_cost_usd", false, .null⟩, ⟨"metadata", false, .null⟩,
    ⟨"client_ip", false, .null⟩, ⟨"user_agent", false, .null⟩, ⟨"error_message", false, .null⟩,
    ⟨"request_body", false, .null⟩, ⟨"response_body", false, .null⟩]

def insertColumns : List String :=
  ["id", "project_id", "gateway_key_id", "namespace", "model", "endpoint",
    "request_ts", "duration_ms", "upstream_ms", "ttfb_ms",
    "status", "http_status", "cached", "retry_count", "fallback_used",
    "prompt_tokens", "completion_tokens", "cached_tokens", "total_tokens",
    "cost_usd", "would_have_cost_usd", "metadata",
    "client_ip", "user_agent", "error_message",
    "request_body", "response_body"]

/-- The `push_bind`s of `flush_batch`. -/
def RequestLogRecord.binds (toJson : Value → String) (rec : RequestLogRecord) : List SqlValue :=
  [SqlType.text.encode rec.id,
    SqlType.text.encode rec.projectId,
    SqlType.textOrNull.encode rec.gatewayKeyId,
    SqlType.textOrNull.encode rec.logNamespace,
    SqlType.textOrNull.encode rec.model,
    SqlType.textOrNull.encode rec.endpoint,
    SqlType.integer.encode rec.requestTs,
    SqlType.integerOrNull.encode rec.durationMs,
    SqlType.integerOrNull.encode rec.upstreamMs,
    SqlType.integerOrNull.encode rec.ttfbMs,
    SqlType.text.encode rec.status,
    SqlType.integerOrNull.encode rec.httpStatus,
    SqlType.integer.encode (if rec.cached then 1 else 0),
    SqlType.integer.encode rec.retryCount,
    SqlType.textOrNull.encode rec.fallbackUsed,
    SqlType.integerOrNull.encode rec.promptTokens,
    SqlType.integerOrNull.encode rec.completionTokens,
    SqlType.integerOrNull.encode rec.cachedTokens,
    SqlType.integerOrNull.encode rec.totalTokens,
    SqlType.realOrNull.encode rec.costUsd,
    SqlType.realOrNull.encode rec.wouldHaveCostUsd,
    SqlType.textOrNull.encode (rec.metadata.map toJson),
    SqlType.textOrNull.encode rec.clientIp,
    SqlType.textOrNull.encode rec.userAgent,
    SqlType.textOrNull.encode rec.errorMessage,
    SqlType.textOrNull.encode rec.requestBody,
    SqlType.textOrNull.encode rec.responseBody]

def RequestLogRecord.inserted (toJson : Value → String) (rec : RequestLogRecord) : SqlRow :=
  insertRow requestLogsColumns insertColumns (rec.binds toJson)

def SqliteLogStore.flushBatch (toJson : Value → String) (table : List SqlRow)
    (buf : List RequestLogRecord) : List SqlRow :=
  if buf.isEmpty then table
  else insertRows requestLogsColumns "id" table (buf.map (RequestLogRecord.inserted toJson))

/-- A `Row::get` panics, or the metadata is no JSON. -/
inductive ReadError where
  | panicked (column : String)
  | json
  deriving DecidableEq

def rowGet {α : Type} (t : SqlType α) (row : SqlRow) (column : String) : Except ReadError α :=
  match getColumn t row column with
  | some a => .ok a
  | none => .error (.panicked column)

section
variable (fromStr : String → Option Value) (nullText : Option String)

def tryGetText (row : SqlRow) (column : String) : Option String :=
  (row.lookup column).bind fun
    | .text s => some s
    | .null => nullText
    | _ => none

def readMetadata (row : SqlRow) : Except ReadError (Option Value) :=
  match tryGetText nullText row "metadata" with
  | some s =>
    if s = "" then .ok none
    else
      match fromStr s with
      | some v => .ok (some v)
      | none => .error .json
  | none => .ok none

def readRecord (r : SqlRow) : Except ReadError RequestLogRecord := do
  let metadata ← readMetadata fromStr nullText r
  return {
    id := ← rowGet .text r "id"
    projectId := ← rowGet .text r "project_id"
    gatewayKeyId := ← rowGet .textOrNull r "gateway_key_id"
    logNamespace := ← rowGet .textOrNull r "namespace"
    model := ← rowGet .textOrNull r "model"
    endpoint := ← rowGet .textOrNull r "endpoint"
    requestTs := ← rowGet .integer r "request_ts"
    durationMs := ← rowGet .integerOrNull r "duration_ms"
    upstreamMs := ← rowGet .integerOrNull r "upstream_ms"
    ttfbMs := ← rowGet .integerOrNull r "ttfb_ms"
    status := ← rowGet .text r "status"
    httpStatus := (← rowGet .integerOrNull r "http_status").map asI32
    cached := (← rowGet .integer r "cached") ≠ 0
    retryCount := asI32 (← rowGet .integer r "retry_count")
    fallbackUsed := ← rowGet .textOrNull r "fallback_used"
    promptTokens := ← rowGet .integerOrNull r "prompt_tokens"
    completionTokens := ← rowGet .integerOrNull r "completion_tokens"
    cachedTokens := ← rowGet .integerOrNull r "cached_tokens"
    totalTokens := ← rowGet .integerOrNull r "total_tokens"
    costUsd := ← rowGet .realOrNull r "cost_usd"
    wouldHaveCostUsd := ← rowGet .realOrNull r "would_have_cost_usd"
    metadata := metadata
    clientIp := ← rowGet .textOrNull r "client_ip"
    userAgent := ← rowGet .textOrNull r "user_agent"
    errorMessage := ← rowGet .textOrNull r "error_message"
    requestBody := ← rowGet .textOrNull r "request_body"
    responseBody := ← rowGet .textOrNull r "response_body" }

/-- `SELECT * FROM request_logs WHERE id = ?` -/
def SqliteLogStore.getById (table : List SqlRow) (id : String) :
    Except ReadError (Option RequestLogRecord) :=
  match table.find? fun row => row.lookup "id" = some (.text id) with
  | some row => (readRecord fromStr nullText row).map some
  | none => .ok none

end

/-! ### The query -/

def selectColumns : List String :=
  ["id", "project_id", "gateway_key_id", "namespace", "model", "endpoint",
    "request_ts", "duration_ms", "status", "http_status", "cached", "retry_count",
    "prompt_tokens", "completion_tokens", "cost_usd", "request_body"]

def LogQuery.sqlFilters (q : LogQuery) (row : SqlRow) : Bool :=
  q.projectId.all (fun v => columnEq "project_id" (.text v) row) &&
    q.gatewayKeyId.all (fun v => columnEq "gateway_key_id" (.text v) row) &&
    q.logNamespace.all (fun v => columnEq "namespace" (.text v) row) &&
    q.model.all (fun v => columnEq "model" (.text v) row) &&
    q.status.all (fun v => columnEq "status" (.text v) row) &&
    q.fromTs.all (fun v => columnGe "request_ts" (.integer v) row) &&
    q.toTs.all (fun v => columnLe "request_ts" (.integer v) row)

def LogQuery.sqlCursor (q : LogQuery) (row : SqlRow) : Bool :=
  (q.cursor.bind parseCursor).all fun (ts, id) =>
    columnLt "request_ts" (.integer ts) row ||
      columnEq "request_ts" (.integer ts) row && columnLt "id" (.text id) row

def readRequestLogRow (r : SqlRow) : Except ReadError RequestLogRow := do
  return {
    id := ← rowGet .text r "id"
    projectId := ← rowGet .text r "project_id"
    gatewayKeyId := ← rowGet .textOrNull r "gateway_key_id"
    logNamespace := ← rowGet .textOrNull r "namespace"
    model := ← rowGet .textOrNull r "model"
    endpoint := ← rowGet .textOrNull r "endpoint"
    requestTs := ← rowGet .integer r "request_ts"
    durationMs := ← rowGet .integerOrNull r "duration_ms"
    status := ← rowGet .text r "status"
    httpStatus := (← rowGet .integerOrNull r "http_status").map asI32
    cached := (← rowGet .integer r "cached") ≠ 0
    retryCount := asI32 (← rowGet .integer r "retry_count")
    promptTokens := ← rowGet .integerOrNull r "prompt_tokens"
    completionTokens := ← rowGet .integerOrNull r "completion_tokens"
    costUsd := ← rowGet .realOrNull r "cost_usd"
    requestBody := ← rowGet .textOrNull r "request_body" }

/-- `query` with its statement and its row mapping column by column. -/
def SqliteLogStore.queryColumns (table : List SqlRow) (q : LogQuery) :
    Except ReadError (Page RequestLogRow) := do
  let rows := ((table.filter fun row => q.sqlFilters row && q.sqlCursor row).insertionSort
    fun a b => descending a b ["request_ts", "id"] = true).take (q.effectiveLimit + 1)
  let items ← ((rows.take q.effectiveLimit).map (select selectColumns)).mapM readRequestLogRow
  return {
    items
    nextCursor := if q.effectiveLimit < rows.length then
        items.getLast?.map fun r => encodeCursor r.requestTs r.id
      else none }

/-! ### The row that is stored -/

/-- The columns of a row under their own names. -/
def LogRow.stored (row : LogRow) : SqlRow :=
  [("id", SqlType.text.encode row.id),
    ("project_id", SqlType.text.encode row.projectId),
    ("gateway_key_id", SqlType.textOrNull.encode row.gatewayKeyId),
    ("namespace", SqlType.textOrNull.encode row.logNamespace),
    ("model", SqlType.textOrNull.encode row.model),
    ("endpoint", SqlType.textOrNull.encode row.endpoint),
    ("request_ts", SqlType.integer.encode row.requestTs),
    ("duration_ms", SqlType.integerOrNull.encode row.durationMs),
    ("upstream_ms", SqlType.integerOrNull.encode row.upstreamMs),
    ("ttfb_ms", SqlType.integerOrNull.encode row.ttfbMs),
    ("status", SqlType.text.encode row.status),
    ("http_status", SqlType.integerOrNull.encode row.httpStatus),
    ("cached", SqlType.integer.encode row.cached),
    ("retry_count", SqlType.integer.encode row.retryCount),
    ("fallback_used", SqlType.textOrNull.encode row.fallbackUsed),
    ("prompt_tokens", SqlType.integerOrNull.encode row.promptTokens),
    ("completion_tokens", SqlType.integerOrNull.encode row.completionTokens),
    ("cached_tokens", SqlType.integerOrNull.encode row.cachedTokens),
    ("total_tokens", SqlType.integerOrNull.encode row.totalTokens),
    ("cost_usd", SqlType.realOrNull.encode row.costUsd),
    ("would_have_cost_usd", SqlType.realOrNull.encode row.wouldHaveCostUsd),
    ("metadata", SqlType.textOrNull.encode row.metadata),
    ("client_ip", SqlType.textOrNull.encode row.clientIp),
    ("user_agent", SqlType.textOrNull.encode row.userAgent),
    ("error_message", SqlType.textOrNull.encode row.errorMessage),
    ("request_body", SqlType.textOrNull.encode row.requestBody),
    ("response_body", SqlType.textOrNull.encode row.responseBody)]

/-- Every value that is bound ends up in the column it is meant for. -/
theorem inserted_eq (toJson : Value → String) (rec : RequestLogRecord) :
    rec.inserted toJson = (rec.toRow toJson).stored := by
  rfl

/-- A column that holds the encoded value is read as the value. -/
theorem rowGet_eq {α : Type} {t : SqlType α} {row : SqlRow} {column : String} {a : α}
    (h : row.lookup column = some (t.encode a)) : rowGet t row column = .ok a := by
  rw [rowGet, getColumn_eq h]

theorem rowGet_select {α : Type} {names : List String} {column : String} (h : column ∈ names)
    (t : SqlType α) (row : SqlRow) : rowGet t (select names row) column = rowGet t row column := by
  rw [rowGet, getColumn, lookup_select, if_pos h]
  rfl

theorem readRequestLogRow_stored (row : LogRow) :
    readRequestLogRow (select selectColumns row.stored) = .ok (SqliteLogStore.read row) := by
  have hget : ∀ {α : Type} (t : SqlType α) (column : String) (a : α), column ∈ selectColumns →
      row.stored.lookup column = some (t.encode a) →
      rowGet t (select selectColumns row.stored) column = .ok a :=
    fun t column a hcolumn h => (rowGet_select hcolumn t row.stored).trans (rowGet_eq h)
  unfold readRequestLogRow
  rw [hget .text "id" row.id (by decide) rfl,
    hget .text "project_id" row.projectId (by decide) rfl,
    hget .textOrNull "gateway_key_id" row.gatewayKeyId (by decide) rfl,
    hget .textOrNull "namespace" row.logNamespace (by decide) rfl,
    hget .textOrNull "model" row.model (by decide) rfl,
    hget .textOrNull "endpoint" row.endpoint (by decide) rfl,
    hget .integer "request_ts" row.requestTs (by decide) rfl,
    hget .integerOrNull "duration_ms" row.durationMs (by decide) rfl,
    hget .text "status" row.status (by decide) rfl,
    hget .integerOrNull "http_status" row.httpStatus (by decide) rfl,
    hget .integer "cached" row.cached (by decide) rfl,
    hget .integer "retry_count" row.retryCount (by decide) rfl,
    hget .integerOrNull "prompt_tokens" row.promptTokens (by decide) rfl,
    hget .integerOrNull "completion_tokens" row.completionTokens (by decide) rfl,
    hget .realOrNull "cost_usd" row.costUsd (by decide) rfl,
    hget .textOrNull "request_body" row.requestBody (by decide) rfl]
  rfl

section
variable {toJson : Value → String} {fromStr : String → Option Value} {nullText : Option String}

/-- The metadata come back when they are read as they were printed. -/
theorem readMetadata_inserted (hnull : nullText = none ∨ nullText = some "")
    (hempty : fromStr "" = none) {rec : RequestLogRecord}
    (hjson : ∀ v, rec.metadata = some v → fromStr (toJson v) = some v) :
    readMetadata fromStr nullText (rec.toRow toJson).stored = .ok rec.metadata := by
  have hlookup : (rec.toRow toJson).stored.lookup "metadata" =
      some (SqlType.textOrNull.encode (rec.metadata.map toJson)) := rfl
  unfold readMetadata tryGetText
  rw [hlookup]
  cases hmetadata : rec.metadata with
  | none =>
    rcases hnull with hnull | hnull
    · rw [hnull]
      rfl
    · rw [hnull]
      rfl
  | some v =>
    have hparse := hjson v hmetadata
    have hprinted : toJson v ≠ "" := by
      intro h
      rw [h, hempty] at hparse
      cases hparse
    show (if toJson v = "" then _ else _) = _
    rw [if_neg hprinted, hparse]

theorem readRecord_inserted {rec : RequestLogRecord}
    (hmetadata : readMetadata fromStr nullText (rec.toRow toJson).stored = .ok rec.metadata)
    (hstatus : ∀ status ∈ rec.httpStatus, InI32 status) (hretry : InI32 rec.retryCount) :
    readRecord fromStr nullText (rec.toRow toJson).stored = .ok rec := by
  have hhttp : rec.httpStatus.map asI32 = rec.httpStatus := by
    cases hcode : rec.httpStatus with
    | none => rfl
    | some status => exact congrArg some (asI32_of_inI32 (hstatus status hcode))
  have hcached : decide ((if rec.cached then (1 : Int) else 0) ≠ 0) = rec.cached := by
    cases rec.cached with
    | false => rfl
    | true => rfl
  have hget : ∀ {α : Type} (t : SqlType α) (column : String) (a : α),
      (rec.toRow toJson).stored.lookup column = some (t.encode a) →
      rowGet t (rec.toRow toJson).stored column = .ok a := fun t column a h => rowGet_eq h
  unfold readRecord
  rw [hmetadata, hget .text "id" rec.id rfl,
    hget .text "project_id" rec.projectId rfl,
    hget .textOrNull "gateway_key_id" rec.gatewayKeyId rfl,
    hget .textOrNull "namespace" rec.logNamespace rfl,
    hget .textOrNull "model" rec.model rfl,
    hget .textOrNull "endpoint" rec.endpoint rfl,
    hget .integer "request_ts" rec.requestTs rfl,
    hget .integerOrNull "duration_ms" rec.durationMs rfl,
    hget .integerOrNull "upstream_ms" rec.upstreamMs rfl,
    hget .integerOrNull "ttfb_ms" rec.ttfbMs rfl,
    hget .text "status" rec.status rfl,
    hget .integerOrNull "http_status" rec.httpStatus rfl,
    hget .integer "cached" (if rec.cached then 1 else 0) rfl,
    hget .integer "retry_count" rec.retryCount rfl,
    hget .textOrNull "fallback_used" rec.fallbackUsed rfl,
    hget .integerOrNull "prompt_tokens" rec.promptTokens rfl,
    hget .integerOrNull "completion_tokens" rec.completionTokens rfl,
    hget .integerOrNull "cached_tokens" rec.cachedTokens rfl,
    hget .integerOrNull "total_tokens" rec.totalTokens rfl,
    hget .realOrNull "cost_usd" rec.costUsd rfl,
    hget .realOrNull "would_have_cost_usd" rec.wouldHaveCostUsd rfl,
    hget .textOrNull "client_ip" rec.clientIp rfl,
    hget .textOrNull "user_agent" rec.userAgent rfl,
    hget .textOrNull "error_message" rec.errorMessage rfl,
    hget .textOrNull "request_body" rec.requestBody rfl,
    hget .textOrNull "response_body" rec.responseBody rfl]
  show Except.ok { rec with
    httpStatus := rec.httpStatus.map asI32
    cached := decide ((if rec.cached then (1 : Int) else 0) ≠ 0)
    retryCount := asI32 rec.retryCount } = _
  rw [hhttp, hcached, asI32_of_inI32 hretry]

end

/-! ### The table -/

theorem stored_ids (rows : List LogRow) :
    (rows.map LogRow.stored).map (List.lookup "id") =
      (rows.map LogRow.id).map fun id => some (.text id) := by
  rw [List.map_map, List.map_map]
  rfl

theorem accepts_stored (table : LogTable) (rows : List LogRow) :
    accepts requestLogsColumns "id" (table.rows.map LogRow.stored) (rows.map LogRow.stored) =
      LogBackend.sqlite.insertable table.rows rows := by
  have hvalues : ((rows.map LogRow.stored).all fun row => requestLogsColumns.all fun c =>
      !c.notNull || row.lookup c.name != some .null) = true := by
    rw [List.all_eq_true]
    intro row hrow
    obtain ⟨row, -, rfl⟩ := List.mem_map.mp hrow
    rfl
  have hids : ((table.rows ++ rows).map LogRow.id).Nodup ↔
      (rows.map LogRow.id).Nodup ∧ ∀ row ∈ rows, row.id ∉ table.rows.map LogRow.id := by
    rw [List.map_append, List.nodup_append']
    constructor
    · rintro ⟨-, hrows, hdisjoint⟩
      exact ⟨hrows, fun row hrow hold => hdisjoint hold (List.mem_map_of_mem hrow)⟩
    · rintro ⟨hrows, hfresh⟩
      refine ⟨table.ids, hrows, fun id hold hnew => ?_⟩
      obtain ⟨row, hrow, rfl⟩ := List.mem_map.mp hnew
      exact hfresh row hrow hold
  have hinj : Function.Injective fun id : String => some (SqlValue.text id) := by
    intro a b h
    injection h with h
    injection h
  rw [accepts, hvalues, Bool.true_and, ← List.map_append, stored_ids,
    LogBackend.insertable, Bool.eq_iff_iff, decide_eq_true_eq, List.nodup_map_iff hinj, hids]
  simp only [LogBackend.storable, List.all_eq_true, Bool.and_eq_true, decide_eq_true_eq,
    implies_true, true_and]

/-- The batch goes in as its rows do. -/
theorem flushBatch_stored (toJson : Value → String) (table : LogTable)
    (buf : List RequestLogRecord) :
    SqliteLogStore.flushBatch toJson (table.rows.map LogRow.stored) buf =
      (LogBackend.sqlite.insert table.rows (buf.map (RequestLogRecord.toRow toJson))).map
        LogRow.stored := by
  have hrows : buf.map (RequestLogRecord.inserted toJson) =
      (buf.map (RequestLogRecord.toRow toJson)).map LogRow.stored := by
    rw [List.map_map]
    exact List.map_congr_left fun rec _ => inserted_eq toJson rec
  unfold SqliteLogStore.flushBatch insertRows LogBackend.insert
  rw [hrows, accepts_stored]
  cases buf with
  | nil =>
    have hsame : table.rows ++ ([] : List LogRow) = table.rows := List.append_nil _
    show table.rows.map LogRow.stored = _
    rw [List.map_nil, hsame, ite_self]
  | cons rec buf =>
    rw [apply_ite (List.map LogRow.stored), List.map_append]
    rfl

/-- What the worker's table becomes is what the columns become. -/
theorem worker_flushBatch_stored {toJson : Value → String} {existing : LogTable} {s : LogStore}
    (h : Reaches (LogStore.step .sqlite toJson) Always (.init existing.rows) s)
    (hts : ∀ rec ∈ s.accepted, InI64 rec.requestTs) :
    (s.flushBatch .sqlite toJson).requestLogs.map LogRow.stored =
      SqliteLogStore.flushBatch toJson (s.requestLogs.map LogRow.stored) s.buf := by
  obtain ⟨table, htable⟩ := LogStore.requestLogs_isTable h hts
  rw [← htable, flushBatch_stored, htable]
  unfold LogStore.flushBatch
  split
  · rename_i hempty
    rw [List.isEmpty_iff.mp hempty, List.map_nil, LogBackend.insert, List.append_nil, ite_self]
  · rfl

theorem getById_stored (fromStr : String → Option Value) (nullText : Option String)
    {rows : List LogRow} (hids : (rows.map LogRow.id).Nodup) {row : LogRow} (hrow : row ∈ rows) :
    SqliteLogStore.getById fromStr nullText (rows.map LogRow.stored) row.id =
      (readRecord fromStr nullText row.stored).map some := by
  have hthis : ∀ r : LogRow, decide (r.stored.lookup "id" = some (.text row.id)) = true ↔
      r.id = row.id := by
    intro r
    rw [decide_eq_true_eq]
    constructor
    · intro h
      injection h with h
      injection h
    · intro h
      rw [← h]
      rfl
  unfold SqliteLogStore.getById
  rw [List.find?_map]
  cases hfound : rows.find? ((fun r => decide (r.lookup "id" = some (.text row.id))) ∘
      LogRow.stored) with
  | none =>
    have hnot := List.find?_eq_none.mp hfound row hrow
    exact absurd ((hthis row).mpr rfl) hnot
  | some r =>
    have hfits := List.find?_some hfound
    have hid := (hthis r).mp hfits
    have hsame : r = row := List.inj_on_of_nodup_map hids (List.mem_of_find?_eq_some hfound) hrow hid
    rw [hsame]
    rfl

/-! ### The query on the columns -/

theorem sqlFilters_stored (q : LogQuery) (row : LogRow) :
    q.sqlFilters row.stored = q.filters row := by
  have hproject : ∀ v, columnEq "project_id" (.text v) row.stored = decide (row.projectId = v) :=
    columnEq_text rfl
  have hkey : ∀ v, columnEq "gateway_key_id" (.text v) row.stored =
      decide (row.gatewayKeyId = some v) := columnEq_textOrNull rfl
  have hnamespace : ∀ v, columnEq "namespace" (.text v) row.stored =
      decide (row.logNamespace = some v) := columnEq_textOrNull rfl
  have hmodel : ∀ v, columnEq "model" (.text v) row.stored = decide (row.model = some v) :=
    columnEq_textOrNull rfl
  have hstatus : ∀ v, columnEq "status" (.text v) row.stored = decide (row.status = v) :=
    columnEq_text rfl
  have hfrom : ∀ v, columnGe "request_ts" (.integer v) row.stored = decide (v ≤ row.requestTs) :=
    columnGe_integer rfl
  have hto : ∀ v, columnLe "request_ts" (.integer v) row.stored = decide (row.requestTs ≤ v) :=
    columnLe_integer rfl
  unfold LogQuery.sqlFilters LogQuery.filters
  simp only [hproject, hkey, hnamespace, hmodel, hstatus, hfrom, hto]

theorem sqlCursor_stored (q : LogQuery) (row : LogRow) :
    q.sqlCursor row.stored = q.belowCursor row := by
  have hts : row.stored.lookup "request_ts" = some (SqlType.integer.encode row.requestTs) := rfl
  have hid : row.stored.lookup "id" = some (SqlType.text.encode row.id) := rfl
  unfold LogQuery.sqlCursor LogQuery.belowCursor
  cases q.cursor.bind parseCursor with
  | none => rfl
  | some position =>
    obtain ⟨ts, id⟩ := position
    rw [Option.all_some, Option.all_some, belowPosition]
    show (columnLt "request_ts" (.integer ts) row.stored ||
      columnEq "request_ts" (.integer ts) row.stored && columnLt "id" (.text id) row.stored) = _
    rw [columnLt_integer hts, columnEq_integer hts, columnLt_text hid, ← Bool.decide_and,
      ← Bool.decide_or]

theorem descending_stored (a b : LogRow) :
    descending a.stored b.stored ["request_ts", "id"] = true ↔ a.Before b := by
  show (SqlValue.lt (.integer b.requestTs) (.integer a.requestTs) ||
    !SqlValue.lt (.integer a.requestTs) (.integer b.requestTs) &&
      (SqlValue.lt (.text b.id) (.text a.id) ||
        !SqlValue.lt (.text a.id) (.text b.id) && true)) = true ↔ _
  rw [lt_integer, lt_integer, lt_text, lt_text, LogRow.Before]
  simp only [Bool.or_eq_true, Bool.and_eq_true, Bool.not_eq_true', decide_eq_true_eq,
    decide_eq_false_iff_not, and_true, not_lt]
  constructor
  · rintro (hlt | ⟨hle, hid⟩)
    · exact .inl hlt
    · have hid' : b.id ≤ a.id := hid.elim le_of_lt fun h => h
      rcases lt_or_eq_of_le hle with hlt | heq
      · exact .inl hlt
      · exact .inr ⟨heq, hid'⟩
  · rintro (hlt | ⟨heq, hid⟩)
    · exact .inl hlt
    · exact .inr ⟨heq.le, .inr hid⟩

theorem queryColumns_stored (rows : List LogRow) (q : LogQuery) :
    SqliteLogStore.queryColumns (rows.map LogRow.stored) q = .ok (SqliteLogStore.query rows q) := by
  have hfilter : (rows.map LogRow.stored).filter (fun row => q.sqlFilters row && q.sqlCursor row) =
      (rows.filter fun row => q.filters row && q.belowCursor row).map LogRow.stored := by
    rw [List.filter_map]
    refine congrArg _ (List.filter_congr fun row _ => ?_)
    show (q.sqlFilters row.stored && q.sqlCursor row.stored) = _
    rw [sqlFilters_stored, sqlCursor_stored]
  have hsort : ∀ found : List LogRow, (found.map LogRow.stored).insertionSort
      (fun a b => descending a b ["request_ts", "id"] = true) =
      (found.insertionSort LogRow.Before).map LogRow.stored := fun found =>
    (List.map_insertionSort _ _ LogRow.stored _ fun a _ b _ => (descending_stored a b).symm).symm
  have hread : ∀ found : List LogRow, ((found.map LogRow.stored).map (select selectColumns)).mapM
      readRequestLogRow = .ok (found.map SqliteLogStore.read) := by
    intro found
    rw [List.map_map]
    exact mapM_ok readRequestLogRow_stored found
  unfold SqliteLogStore.queryColumns SqliteLogStore.query queryRows
  simp only
  rw [hfilter, hsort, ← List.map_take, ← List.map_take, hread, List.length_map]
  rfl

/-! ### A record there and back -/

/-- A batch of distinct new ids goes in. -/
theorem flushBatch_fresh (toJson : Value → String) {table : LogTable} {batch : LogRecords}
    (hfresh : ∀ rec ∈ batch.records, rec.id ∉ table.rows.map LogRow.id) :
    SqliteLogStore.flushBatch toJson (table.rows.map LogRow.stored) batch.records =
        (table.rows ++ batch.table toJson).map LogRow.stored ∧
      ((table.rows ++ batch.table toJson).map LogRow.id).Nodup := by
  have hbatch : ((batch.table toJson).map LogRow.id).Nodup := by
    rw [LogRecords.table, List.map_map]
    exact batch.ids
  have hnew : ∀ row ∈ batch.table toJson, row.id ∉ table.rows.map LogRow.id := by
    intro row hrow
    obtain ⟨rec, hrec, rfl⟩ := List.mem_map.mp hrow
    exact hfresh rec hrec
  have hins : LogBackend.sqlite.insertable table.rows (batch.table toJson) = true := by
    simp only [LogBackend.insertable, LogBackend.storable, Bool.and_eq_true, List.all_eq_true,
      decide_eq_true_eq, implies_true, true_and]
    exact ⟨hbatch, hnew⟩
  constructor
  · have hinsert : LogBackend.sqlite.insert table.rows (batch.table toJson) =
        table.rows ++ batch.table toJson := if_pos hins
    rw [flushBatch_stored, ← LogRecords.table, hinsert]
  · rw [List.map_append]
    refine table.ids.append hbatch fun id hold hin => ?_
    obtain ⟨row, hrow, rfl⟩ := List.mem_map.mp hin
    exact hnew row hrow hold

/-- The items of a page are the first rows of the listing, as they are read. -/
theorem query_items (rows : List LogRow) (q : LogQuery) :
    (SqliteLogStore.query rows q).items =
      (((rows.filter fun row => q.filters row && q.belowCursor row).insertionSort
        LogRow.Before).take q.effectiveLimit).map SqliteLogStore.read := by
  unfold SqliteLogStore.query queryRows
  simp only
  rw [List.take_take, Nat.min_eq_left (Nat.le_succ _)]

/-- A record that a batch of distinct new ids brings in is read back as it was, and listed as its
projection. -/
theorem record_survives {toJson : Value → String} {fromStr : String → Option Value}
    {nullText : Option String} (hnull : nullText = none ∨ nullText = some "")
    (hempty : fromStr "" = none) (table : LogTable) (batch : LogRecords)
    (hfresh : ∀ rec ∈ batch.records, rec.id ∉ table.rows.map LogRow.id)
    {rec : RequestLogRecord} (hrec : rec ∈ batch.records)
    (hjson : ∀ v, rec.metadata = some v → fromStr (toJson v) = some v) :
    let after := SqliteLogStore.flushBatch toJson (table.rows.map LogRow.stored) batch.records
    SqliteLogStore.getById fromStr nullText after rec.id = .ok (some rec) ∧
      ∀ q, ∃ page, SqliteLogStore.queryColumns after q = .ok page ∧
        (∀ item ∈ page.items, item.id = rec.id → item = rec.toRequestLogRow) ∧
        (rec.toRow toJson ∈ (((table.rows ++ batch.table toJson).filter fun row =>
            q.filters row && q.belowCursor row).insertionSort LogRow.Before).take
              q.effectiveLimit ↔
          rec.toRequestLogRow ∈ page.items) := by
  intro after
  obtain ⟨hafter, hids⟩ := flushBatch_fresh toJson hfresh
  have hrow : rec.toRow toJson ∈ table.rows ++ batch.table toJson :=
    List.mem_append_right _ (List.mem_map_of_mem hrec)
  constructor
  · have hread := readRecord_inserted (readMetadata_inserted hnull hempty hjson)
      (batch.statuses rec hrec) (batch.retries rec hrec)
    have hfound := getById_stored fromStr nullText hids hrow
    rw [hread] at hfound
    rw [show after = _ from hafter]
    exact hfound
  · intro q
    have hprojection : SqliteLogStore.read (rec.toRow toJson) = rec.toRequestLogRow :=
      sqlite_read_toRow hrec
    have hlisted : ∀ row ∈ (((table.rows ++ batch.table toJson).filter fun row =>
        q.filters row && q.belowCursor row).insertionSort LogRow.Before).take q.effectiveLimit,
        row.id = rec.id → row = rec.toRow toJson := by
      intro row hmem hid
      have hin := List.mem_of_mem_filter ((List.mem_insertionSort _).mp (List.mem_of_mem_take hmem))
      exact List.inj_on_of_nodup_map hids hin hrow hid
    refine ⟨SqliteLogStore.query (table.rows ++ batch.table toJson) q, ?_, ?_, ?_⟩
    · rw [show after = _ from hafter]
      exact queryColumns_stored _ q
    · intro item hitem hid
      rw [query_items] at hitem
      obtain ⟨row, hmem, rfl⟩ := List.mem_map.mp hitem
      rw [hlisted row hmem hid]
      exact hprojection
    · rw [query_items]
      constructor
      · intro hmem
        exact List.mem_map.mpr ⟨_, hmem, hprojection⟩
      · intro hitem
        obtain ⟨row, hmem, heq⟩ := List.mem_map.mp hitem
        rw [← hlisted row hmem (congrArg RequestLogRow.id heq)]
        exact hmem

/-- Every column is there, the metadata are a JSON `null`. -/
def fullRecord : RequestLogRecord :=
  { id := "r1", projectId := "p1", gatewayKeyId := some "k1", logNamespace := some "openai"
    model := some "gpt-4o", endpoint := some "/v1/chat/completions", requestTs := 1
    durationMs := some 2, upstreamMs := some 3, ttfbMs := some 4, status := "success"
    httpStatus := some 200, cached := true, retryCount := 5, fallbackUsed := some "azure"
    promptTokens := some 6, completionTokens := some 7, cachedTokens := some 8
    totalTokens := some 13, costUsd := some (1 / 4), wouldHaveCostUsd := some (1 / 2)
    metadata := some .null, clientIp := some "10.0.0.1", userAgent := some "curl"
    errorMessage := some "", requestBody := some "{}", responseBody := some "[]" }

def fullBatch : LogRecords where
  records := [fullRecord, plainRecord "r2" none]
  ids := by decide
  timestamps := by decide
  statuses := by decide
  retries := by decide

theorem record_survives_full :
    SqliteLogStore.getById (fun s => if s = "null" then some .null else none) (some "")
        (SqliteLogStore.flushBatch (fun _ => "null")
          ([(plainRecord "r0" none).toRow fun _ => "null"].map LogRow.stored) fullBatch.records)
        "r1" = .ok (some fullRecord) := by
  have hjson : ∀ v, fullRecord.metadata = some v →
      (if "null" = "null" then some Value.null else none) = some v := by
    intro v hv
    cases hv
    rfl
  exact (record_survives (.inr rfl) rfl
    ⟨[(plainRecord "r0" none).toRow fun _ => "null"], by decide, by decide⟩ fullBatch
    (by decide) (List.mem_cons_self ..) hjson).1

end AiGateway.Storage
