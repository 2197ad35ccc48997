import AiGateway.Core.Json
import AiGateway.Library.Runs
import Mathlib.Data.List.Nodup

/-!
# The batched log writers (`sqlite/logs.rs:415-519`, `postgres/logs.rs:389-477`)

`append` puts a record into a bounded channel; one worker takes the commands out
in order, collects records in a buffer and hands the buffer to one multi-row
`INSERT` when it is full, on a flush, on an interval tick and at shutdown. The
two backends differ in their constants and in what a text column can store. The
state keeps the history of accepted records and of the batches handed over. The
`serde_json::to_string` of the metadata column is the parameter `toJson`. The
record is `models.rs:68-96`.
-/

namespace AiGateway.Storage
open AiGateway.Core AiGateway.Library.Runs

/-- The costs are the doubles of the code, or the numbers that these stand for. -/
structure RequestLogRecord (κ : Type := ℚ) where
  id : String
  projectId : String
  gatewayKeyId : Option String
  logNamespace : Option String
  model : Option String
  endpoint : Option String
  requestTs : Int
  durationMs : Option Int
  upstreamMs : Option Int
  ttfbMs : Option Int
  status : String
  httpStatus : Option Int
  cached : Bool
  retryCount : Int
  fallbackUsed : Option String
  promptTokens : Option Int
  completionTokens : Option Int
  cachedTokens : Option Int
  totalTokens : Option Int
  costUsd : Option κ
  wouldHaveCostUsd : Option κ
  metadata : Option Value
  clientIp : Option String
  userAgent : Option String
  errorMessage : Option String
  requestBody : Option String
  responseBody : Option String

structure LogRow where
  id : String
  projectId : String
  gatewayKeyId : Option String
  logNamespace : Option String
  model : Option String
  endpoint : Option String
  requestTs : Int
  durationMs : Option Int
  upstreamMs : Option Int
  ttfbMs : Option Int
  status : String
  httpStatus : Option Int
  cached : Int
  retryCount : Int
  fallbackUsed : Option String
  promptTokens : Option Int
  completionTokens : Option Int
  cachedTokens : Option Int
  totalTokens : Option Int
  costUsd : Option ℚ
  wouldHaveCostUsd : Option ℚ
  metadata : Option String
  clientIp : Option String
  userAgent : Option String
  errorMessage : Option String
  requestBody : Option String
  responseBody : Option String
  deriving DecidableEq

inductive LogBackend where
  | sqlite
  | postgres
  deriving DecidableEq

def LogBackend.batchMaxRows : LogBackend → ℕ
  | .sqlite => 200
  | .postgres => 500

def LogBackend.channelCapacity : LogBackend → ℕ
  | .sqlite => 4096
  | .postgres => 8192

def RequestLogRecord.toRow (toJson : Value → String) (rec : RequestLogRecord) : LogRow :=
  { id := rec.id
    projectId := rec.projectId
    gatewayKeyId := rec.gatewayKeyId
    logNamespace := rec.logNamespace
    model := rec.model
    endpoint := rec.endpoint
    requestTs := rec.requestTs
    durationMs := rec.durationMs
    upstreamMs := rec.upstreamMs
    ttfbMs := rec.ttfbMs
    status := rec.status
    httpStatus := rec.httpStatus
    cached := if rec.cached then 1 else 0
    retryCount := rec.retryCount
    fallbackUsed := rec.fallbackUsed
    promptTokens := rec.promptTokens
    completionTokens := rec.completionTokens
    cachedTokens := rec.cachedTokens
    totalTokens := rec.totalTokens
    costUsd := rec.costUsd
    wouldHaveCostUsd := rec.wouldHaveCostUsd
    metadata := rec.metadata.map toJson
    clientIp := rec.clientIp
    userAgent := rec.userAgent
    errorMessage := rec.errorMessage
    requestBody := rec.requestBody
    responseBody := rec.responseBody }

def LogRow.texts (row : LogRow) : List String :=
  [row.id, row.projectId, row.status] ++
    [row.gatewayKeyId, row.logNamespace, row.model, row.endpoint, row.fallbackUsed, row.metadata,
      row.clientIp, row.userAgent, row.errorMessage, row.requestBody, row.responseBody].flatMap (·.toList)

/-- The backend accepts the row's own values: Postgres `TEXT` has no NUL. -/
def LogBackend.storable : LogBackend → LogRow → Bool
  | .sqlite, _ => true
  | .postgres, row => row.texts.all fun text => text.toList.all fun c => c.toNat ≠ 0

def LogBackend.insertable (backend : LogBackend) (table rows : List LogRow) : Bool :=
  rows.all backend.storable && decide ((rows.map LogRow.id).Nodup) &&
    rows.all fun row => decide (row.id ∉ table.map LogRow.id)

/-- A multi-row `INSERT`, which is atomic; its error is only logged. -/
def LogBackend.insert (backend : LogBackend) (table rows : List LogRow) : List LogRow :=
  if backend.insertable table rows then table ++ rows else table

inductive Cmd where
  | record (rec : RequestLogRecord)
  | flush

structure LogStore where
  queue : List Cmd
  closed : Bool
  buf : List RequestLogRecord
  requestLogs : List LogRow
  stopped : Bool
  -- every record the channel accepted, in order
  accepted : List RequestLogRecord
  -- every batch handed to `INSERT`, in order
  batches : List (List RequestLogRecord)

inductive LogEvent where
  | append (rec : RequestLogRecord)
  | requestFlush
  -- the worker takes the next command, or finds the channel closed
  | receive
  | tick
  -- the last sender is dropped
  | close

section
variable (backend : LogBackend) (toJson : Value → String)

def LogStore.flushBatch (s : LogStore) : LogStore :=
  if s.buf.isEmpty then s
  else
    { s with
      buf := []
      requestLogs := backend.insert s.requestLogs (s.buf.map (RequestLogRecord.toRow toJson))
      batches := s.batches ++ [s.buf] }

def LogStore.handle (s : LogStore) : Cmd → LogStore
  | .record rec =>
    let s := { s with buf := s.buf ++ [rec] }
    if backend.batchMaxRows ≤ s.buf.length then s.flushBatch backend toJson else s
  | .flush => s.flushBatch backend toJson

def LogStore.step (s : LogStore) : LogEvent → Option LogStore
  | .append rec =>
    if s.closed ∨ s.stopped then none
    else if s.queue.length < backend.channelCapacity then
      some { s with queue := s.queue ++ [.record rec], accepted := s.accepted ++ [rec] }
    else some s
  | .requestFlush =>
    if s.closed ∨ s.stopped ∨ backend.channelCapacity ≤ s.queue.length then none
    else some { s with queue := s.queue ++ [.flush] }
  | .receive =>
    match s.queue with
    | cmd :: rest =>
      if s.stopped then none else some (({ s with queue := rest }).handle backend toJson cmd)
    | [] =>
      if s.closed ∧ ¬s.stopped then
        some { s.flushBatch backend toJson with stopped := true }
      else none
  -- the select is biased: a tick is only served while there is nothing to receive
  | .tick =>
    if s.queue.isEmpty ∧ ¬s.closed ∧ ¬s.stopped then some (s.flushBatch backend toJson) else none
  | .close => some { s with closed := true }

end

def LogStore.init (existing : List LogRow) : LogStore := ⟨[], false, [], existing, false, [], []⟩

/-! ### Batches and the table -/

def recordsOf (queue : List Cmd) : List RequestLogRecord :=
  queue.filterMap fun
    | .record rec => some rec
    | .flush => none

theorem recordsOf_append (queue queue' : List Cmd) :
    recordsOf (queue ++ queue') = recordsOf queue ++ recordsOf queue' := by
  simp [recordsOf]

section
variable (backend : LogBackend) (toJson : Value → String)

def tableAfter (existing : List LogRow) (batches : List (List RequestLogRecord)) : List LogRow :=
  batches.foldl (fun table batch => backend.insert table (batch.map (RequestLogRecord.toRow toJson)))
    existing

/-- What every run keeps: records leave the channel in order into batches, and
the table is what the batches made of it. -/
structure Ledger (existing : List LogRow) (s : LogStore) : Prop where
  fifo : s.accepted = s.batches.flatten ++ s.buf ++ recordsOf s.queue
  table : s.requestLogs = tableAfter backend toJson existing s.batches

end

section
variable {backend : LogBackend} {toJson : Value → String} {existing : List LogRow} {s t : LogStore}

theorem tableAfter_append (batches batches' : List (List RequestLogRecord)) :
    tableAfter backend toJson existing (batches ++ batches') =
      tableAfter backend toJson (tableAfter backend toJson existing batches) batches' := by
  simp [tableAfter]

theorem tableAfter_cons (batch : List RequestLogRecord) (batches : List (List RequestLogRecord)) :
    tableAfter backend toJson existing (batch :: batches) =
      tableAfter backend toJson
        (backend.insert existing (batch.map (RequestLogRecord.toRow toJson))) batches := rfl

theorem Ledger.flushBatch (h : Ledger backend toJson existing s) :
    Ledger backend toJson existing (s.flushBatch backend toJson) := by
  simp only [LogStore.flushBatch]
  split
  · exact h
  · refine ⟨?_, ?_⟩
    · simp [h.fifo]
    · simp [h.table, tableAfter]

theorem flushBatch_buf (s : LogStore) : (s.flushBatch backend toJson).buf = [] := by
  simp only [LogStore.flushBatch]
  split
  · rename_i hempty
    simpa using hempty
  · rfl

theorem flushBatch_accepted (s : LogStore) :
    (s.flushBatch backend toJson).accepted = s.accepted ∧
      (s.flushBatch backend toJson).queue = s.queue := by
  simp only [LogStore.flushBatch]
  split
  · exact ⟨rfl, rfl⟩
  · exact ⟨rfl, rfl⟩

theorem Ledger.handle {cmd : Cmd} {rest : List Cmd} (h : Ledger backend toJson existing s)
    (hq : s.queue = cmd :: rest) :
    Ledger backend toJson existing (({ s with queue := rest }).handle backend toJson cmd) := by
  have hfifo := h.fifo
  rw [hq] at hfifo
  cases cmd with
  | record rec =>
    have hbuf : Ledger backend toJson existing { s with queue := rest, buf := s.buf ++ [rec] } := by
      refine ⟨?_, h.table⟩
      rw [hfifo]
      simp [recordsOf]
    simp only [LogStore.handle]
    split
    · exact hbuf.flushBatch
    · exact hbuf
  | flush => exact Ledger.flushBatch ⟨by rw [hfifo]; simp [recordsOf], h.table⟩

theorem Ledger.step {ev : LogEvent} (h : Ledger backend toJson existing s)
    (hstep : s.step backend toJson ev = some t) : Ledger backend toJson existing t := by
  cases ev with
  | append rec =>
    simp only [LogStore.step] at hstep
    split at hstep
    · cases hstep
    · split at hstep
      · cases hstep
        refine ⟨?_, h.table⟩
        rw [recordsOf_append, h.fifo]
        simp [recordsOf]
      · cases hstep
        exact h
  | requestFlush =>
    simp only [LogStore.step] at hstep
    split at hstep
    · cases hstep
    · cases hstep
      refine ⟨?_, h.table⟩
      rw [recordsOf_append, h.fifo]
      simp [recordsOf]
  | receive =>
    simp only [LogStore.step] at hstep
    split at hstep
    · rename_i cmd rest hq
      split at hstep
      · cases hstep
      · cases hstep
        exact h.handle hq
    · split at hstep
      · cases hstep
        exact ⟨h.flushBatch.fifo, h.flushBatch.table⟩
      · cases hstep
  | tick =>
    simp only [LogStore.step] at hstep
    split at hstep
    · cases hstep
      exact h.flushBatch
    · cases hstep
  | close =>
    cases hstep
    exact ⟨h.fifo, h.table⟩

theorem Ledger.of_reaches
    (h : Reaches (LogStore.step backend toJson) Always (.init existing) s) :
    Ledger backend toJson existing s :=
  h.invariant ⟨rfl, rfl⟩ fun _ _ _ hs _ hstep => hs.step hstep

/-- The record's own id occurs nowhere else and its own fields are storable. -/
def RequestLogRecord.Sound (backend : LogBackend) (toJson : Value → String)
    (existing : List LogRow) (accepted : List RequestLogRecord) (rec : RequestLogRecord) : Prop :=
  (accepted.map RequestLogRecord.id).count rec.id = 1 ∧ rec.id ∉ existing.map LogRow.id ∧
    backend.storable (rec.toRow toJson) = true

/-- Every batch that holds a sound record was insertable as a whole: all its rows
storable, their ids distinct and not yet in the table. -/
def CleanBatches (backend : LogBackend) (toJson : Value → String) (existing : List LogRow)
    (accepted : List RequestLogRecord) (batches : List (List RequestLogRecord)) : Prop :=
  ∀ before batch later, batches = before ++ batch :: later →
    (∃ rec ∈ batch, rec.Sound backend toJson existing accepted) →
    backend.insertable (tableAfter backend toJson existing before)
      (batch.map (RequestLogRecord.toRow toJson)) = true

theorem insert_subset (table rows : List LogRow) : table ⊆ backend.insert table rows := by
  simp only [LogBackend.insert]
  split
  · exact List.subset_append_left _ _
  · exact List.Subset.refl _

theorem tableAfter_subset (batches : List (List RequestLogRecord)) :
    existing ⊆ tableAfter backend toJson existing batches := by
  induction batches generalizing existing with
  | nil => exact List.Subset.refl _
  | cons batch batches ih => exact List.Subset.trans (insert_subset _ _) ih

theorem tableAfter_ids {batches : List (List RequestLogRecord)} {id : String}
    (h : id ∈ (tableAfter backend toJson existing batches).map LogRow.id) :
    id ∈ existing.map LogRow.id ∨ id ∈ batches.flatten.map RequestLogRecord.id := by
  induction batches generalizing existing with
  | nil => exact .inl h
  | cons batch batches ih =>
    rcases ih h with hin | hlater
    · simp only [LogBackend.insert] at hin
      split at hin
      · rw [List.map_append, List.mem_append] at hin
        rcases hin with hold | hnew
        · exact .inl hold
        · right
          simp only [List.map_map] at hnew
          rw [List.flatten_cons, List.map_append]
          exact List.mem_append_left _ hnew
      · exact .inl hin
    · right
      rw [List.flatten_cons, List.map_append]
      exact List.mem_append_right _ hlater

/-- A batch that goes in brings its rows, one that does not brings nothing. -/
theorem mem_tableAfter_iff {accepted : List RequestLogRecord}
    {before later : List (List RequestLogRecord)} {batch : List RequestLogRecord}
    {rec : RequestLogRecord} {tail : List RequestLogRecord} (hmem : rec ∈ batch)
    (haccepted : accepted = (before ++ batch :: later).flatten ++ tail)
    (hsound : rec.Sound backend toJson existing accepted) :
    rec.toRow toJson ∈ tableAfter backend toJson existing (before ++ batch :: later) ↔
      backend.insertable (tableAfter backend toJson existing before)
        (batch.map (RequestLogRecord.toRow toJson)) = true := by
  rw [tableAfter_append]
  constructor
  · intro hin
    by_contra hnot
    have hskip : tableAfter backend toJson (tableAfter backend toJson existing before)
        (batch :: later) = tableAfter backend toJson existing (before ++ later) := by
      rw [tableAfter_append, tableAfter_cons, LogBackend.insert, if_neg hnot]
    rw [hskip] at hin
    have hid : rec.id ∈ (tableAfter backend toJson existing (before ++ later)).map LogRow.id :=
      List.mem_map.mpr ⟨_, hin, rfl⟩
    -- the id would be in the table on account of another record
    rcases tableAfter_ids hid with hold | hother
    · exact hsound.2.1 hold
    · have hown : 0 < (batch.map RequestLogRecord.id).count rec.id :=
        List.count_pos_iff.mpr (List.mem_map_of_mem hmem)
      have hdup := List.count_pos_iff.mpr hother
      have hone := hsound.1
      simp only [haccepted, List.flatten_append, List.flatten_cons, List.map_append,
        List.count_append] at hone hdup
      omega
  · intro hin
    rw [tableAfter_cons, LogBackend.insert, if_pos hin]
    refine tableAfter_subset later ?_
    exact List.mem_append_right _ (List.mem_map_of_mem hmem)

/-- When the worker has served a flush, every sound record accepted before it is
in the table exactly when every batch with a sound record was clean. -/
theorem flush_isolates_iff {rest : List Cmd} {before : List RequestLogRecord}
    (h : Reaches (LogStore.step backend toJson) Always (.init existing) s)
    (hq : s.queue = .flush :: rest) (hbefore : s.accepted = before ++ recordsOf rest)
    (ht : s.step backend toJson .receive = some t) :
    (∀ rec ∈ before, rec.Sound backend toJson existing t.accepted →
        rec.toRow toJson ∈ t.requestLogs) ↔
      CleanBatches backend toJson existing t.accepted t.batches := by
  have hledger := (Ledger.of_reaches h).step ht
  obtain ⟨hbuf, hqueue, hacc⟩ : t.buf = [] ∧ t.queue = rest ∧ t.accepted = s.accepted := by
    simp only [LogStore.step, hq] at ht
    split at ht
    · cases ht
    · cases ht
      simp only [LogStore.handle]
      exact ⟨flushBatch_buf _, (flushBatch_accepted _).2, (flushBatch_accepted _).1⟩
  have hfifo : t.accepted = t.batches.flatten ++ recordsOf rest := by
    rw [hledger.fifo, hbuf, hqueue, List.append_nil]
  have hflat : before = t.batches.flatten := by
    rw [hacc, hbefore] at hfifo
    exact List.append_cancel_right hfifo
  rw [hledger.table, hflat]
  constructor
  · rintro hall pre batch later hbatches ⟨rec, hmem, hsound⟩
    rw [hbatches] at hall hfifo
    refine (mem_tableAfter_iff hmem hfifo hsound).mp (hall rec ?_ hsound)
    simp [hmem]
  · intro hclean rec hrec hsound
    obtain ⟨batch, hbatch, hmem⟩ := List.mem_flatten.mp hrec
    obtain ⟨pre, later, hbatches⟩ := List.append_of_mem hbatch
    have hins := hclean pre batch later hbatches ⟨rec, hmem, hsound⟩
    rw [hbatches] at hfifo ⊢
    exact (mem_tableAfter_iff hmem hfifo hsound).mpr hins

end

def plainRecord (id : String) (requestBody : Option String) : RequestLogRecord :=
  { id := id, projectId := "p1", gatewayKeyId := none, logNamespace := none, model := none
    endpoint := none, requestTs := 0, durationMs := none, upstreamMs := none, ttfbMs := none
    status := "success", httpStatus := some 200, cached := false, retryCount := 0
    fallbackUsed := none, promptTokens := none, completionTokens := none, cachedTokens := none
    totalTokens := none, costUsd := none, wouldHaveCostUsd := none, metadata := none
    clientIp := none, userAgent := none, errorMessage := none, requestBody := requestBody
    responseBody := none }

def flushWaiting (records : List RequestLogRecord) : LogStore :=
  ⟨[.flush], false, records, [], false, records, []⟩

def neighbours : List RequestLogRecord := [plainRecord "r1" none, plainRecord "r2" (some "[]")]

/-- Both records of the batch are sound, and both get into the table. -/
theorem flush_isolates_neighbours :
    Reaches (LogStore.step .sqlite fun _ => "null") Always (.init []) (flushWaiting neighbours) ∧
      ∃ t, (flushWaiting neighbours).step .sqlite (fun _ => "null") .receive = some t ∧
        t.batches = [neighbours] ∧
        CleanBatches .sqlite (fun _ => "null") [] t.accepted t.batches ∧
        ∀ rec ∈ neighbours, rec.Sound .sqlite (fun _ => "null") [] t.accepted ∧
          rec.toRow (fun _ => "null") ∈ t.requestLogs := by
  have hreach : Reaches (LogStore.step .sqlite fun _ => "null") Always (.init [])
      (flushWaiting neighbours) :=
    Reaches.of_run (neighbours.map .append ++ [.receive, .receive, .requestFlush]) .start rfl
  have hclean : CleanBatches .sqlite (fun _ => "null") [] neighbours [neighbours] := by
    rintro pre batch later hsplit -
    have hlen := congrArg List.length hsplit
    simp only [List.length_append, List.length_cons, List.length_nil] at hlen
    obtain rfl : pre = [] := List.length_eq_zero_iff.mp (by omega)
    cases hsplit
    decide
  obtain ⟨t, ht⟩ : ∃ t, (flushWaiting neighbours).step .sqlite (fun _ => "null") .receive = some t :=
    ⟨_, rfl⟩
  have hbatches : t.batches = [neighbours] := by
    cases ht
    rfl
  have haccepted : t.accepted = neighbours := by
    cases ht
    rfl
  have hiff : (∀ rec ∈ neighbours, rec.Sound .sqlite (fun _ => "null") [] t.accepted →
        rec.toRow (fun _ => "null") ∈ t.requestLogs) ↔
      CleanBatches .sqlite (fun _ => "null") [] t.accepted t.batches :=
    flush_isolates_iff hreach rfl rfl ht
  rw [hbatches, haccepted] at hiff
  refine ⟨hreach, t, ht, hbatches, ?_, ?_⟩
  · rwa [hbatches, haccepted]
  intro rec hrec
  rw [haccepted]
  have hsound : rec.Sound .sqlite (fun _ => "null") [] neighbours := by
    rcases List.mem_pair.mp hrec with rfl | rfl
    · exact ⟨by decide, by decide, rfl⟩
    · exact ⟨by decide, by decide, rfl⟩
  exact ⟨hsound, hiff.mpr hclean rec hrec hsound⟩

def repeatedId : List RequestLogRecord :=
  [plainRecord "r1" none, plainRecord "r1" none, plainRecord "r2" none]

def nulBody : List RequestLogRecord :=
  [plainRecord "r1" (some (String.ofList [Char.ofNat 0])), plainRecord "r2" none]

/-- On either backend one bad record takes the sound record `r2` with it. -/
theorem flush_drops_neighbour :
    (∃ t, Reaches (LogStore.step .sqlite fun _ => "null") Always (.init []) t ∧
        t.accepted = repeatedId ∧ t.queue = [] ∧ t.buf = [] ∧
        (plainRecord "r2" none).Sound .sqlite (fun _ => "null") [] t.accepted ∧
        (plainRecord "r2" none).toRow (fun _ => "null") ∉ t.requestLogs) ∧
      ∃ t, Reaches (LogStore.step .postgres fun _ => "null") Always (.init []) t ∧
        t.accepted = nulBody ∧ t.queue = [] ∧ t.buf = [] ∧
        (plainRecord "r2" none).Sound .postgres (fun _ => "null") [] t.accepted ∧
        (plainRecord "r2" none).toRow (fun _ => "null") ∉ t.requestLogs := by
  refine ⟨⟨_, Reaches.of_run (repeatedId.map .append ++
      [.receive, .receive, .receive, .requestFlush, .receive]) .start rfl, rfl, rfl, rfl, ?_, ?_⟩,
    ⟨_, Reaches.of_run (nulBody.map .append ++
      [.receive, .receive, .requestFlush, .receive]) .start rfl, rfl, rfl, rfl, ?_, ?_⟩⟩
  · exact ⟨by decide, by decide, rfl⟩
  · decide
  · exact ⟨by decide, by decide, by decide⟩
  · decide

end AiGateway.Storage
