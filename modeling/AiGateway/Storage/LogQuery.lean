import AiGateway.Library.Decimal
import AiGateway.Library.Keyset
import AiGateway.Storage.LogBatch
import Mathlib.Data.List.Sort
import Mathlib.Data.String.Basic

/-!
# Log queries page by page (`sqlite/logs.rs:62-138`, `521-529`, `models.rs:98-151`)

`query` lists the rows that pass the filters, newest first, and cuts the listing into
pages with a cursor that is the text of the last row's timestamp and id. `TEXT` columns
compare byte by byte, which is code point by code point in UTF-8, as `String` does.
-/

namespace AiGateway.Storage
open AiGateway.Core AiGateway.Library.Decimal AiGateway.Library.Keyset AiGateway.Library.MachineInt
open AiGateway.Library.Runs

structure LogQuery where
  projectId : Option String
  gatewayKeyId : Option String
  logNamespace : Option String
  model : Option String
  status : Option String
  fromTs : Option Int
  toTs : Option Int
  limit : UInt32
  cursor : Option String

structure RequestLogRow where
  id : String
  projectId : String
  gatewayKeyId : Option String
  logNamespace : Option String
  model : Option String
  endpoint : Option String
  requestTs : Int
  durationMs : Option Int
  status : String
  httpStatus : Option Int
  cached : Bool
  retryCount : Int
  promptTokens : Option Int
  completionTokens : Option Int
  costUsd : Option ℚ
  requestBody : Option String
  deriving DecidableEq

structure Page (α : Type) where
  items : List α
  nextCursor : Option String
  deriving DecidableEq

def LogQuery.effectiveLimit (q : LogQuery) : ℕ := if q.limit = 0 then 50 else min q.limit.toNat 500

/-- The `WHERE` clauses of the filters; a `NULL` column equals nothing. -/
def LogQuery.filters (q : LogQuery) (row : LogRow) : Bool :=
  q.projectId.all (fun v => row.projectId = v) &&
    q.gatewayKeyId.all (fun v => row.gatewayKeyId = some v) &&
    q.logNamespace.all (fun v => row.logNamespace = some v) &&
    q.model.all (fun v => row.model = some v) &&
    q.status.all (fun v => row.status = v) &&
    q.fromTs.all (fun v => v ≤ row.requestTs) &&
    q.toTs.all (fun v => row.requestTs ≤ v)

/-- `str::split_once` -/
def splitOnce (sep : Char) (s : String) : Option (String × String) :=
  match s.toList.dropWhile (· ≠ sep) with
  | [] => none
  | _ :: rest => some (String.ofList (s.toList.takeWhile (· ≠ sep)), String.ofList rest)

def encodeCursor (ts : Int) (id : String) : String := toString ts ++ ":" ++ id

def parseCursor (c : String) : Option (Int × String) := do
  let (ts, id) ← splitOnce ':' c
  let ts ← parseI64 ts
  return (ts, id)

/-- The `WHERE` clause of the cursor. -/
def belowPosition (ts : Int) (id : String) : Int × String → Bool
  | (cursorTs, cursorId) => decide (ts < cursorTs ∨ ts = cursorTs ∧ id < cursorId)

def LogQuery.belowCursor (q : LogQuery) (row : LogRow) : Bool :=
  (q.cursor.bind parseCursor).all (belowPosition row.requestTs row.id)

/-- `ORDER BY request_ts DESC, id DESC` -/
def LogRow.Before (a b : LogRow) : Prop :=
  b.requestTs < a.requestTs ∨ b.requestTs = a.requestTs ∧ b.id ≤ a.id

instance : DecidableRel LogRow.Before := fun a b => by
  unfold LogRow.Before
  infer_instance

/-- `query` of a SQL backend, with its cursor clause and its reading of a row. -/
def queryRows (clause : LogRow → Bool) (read : LogRow → RequestLogRow) (table : List LogRow)
    (q : LogQuery) : Page RequestLogRow :=
  let rows := ((table.filter fun row => q.filters row && clause row).insertionSort
    LogRow.Before).take (q.effectiveLimit + 1)
  let items := (rows.take q.effectiveLimit).map read
  { items
    nextCursor := if q.effectiveLimit < rows.length then
        items.getLast?.map fun r => encodeCursor r.requestTs r.id
      else none }

def SqliteLogStore.read (row : LogRow) : RequestLogRow :=
  { id := row.id
    projectId := row.projectId
    gatewayKeyId := row.gatewayKeyId
    logNamespace := row.logNamespace
    model := row.model
    endpoint := row.endpoint
    requestTs := row.requestTs
    durationMs := row.durationMs
    status := row.status
    httpStatus := row.httpStatus.map asI32
    cached := decide (row.cached ≠ 0)
    retryCount := asI32 row.retryCount
    promptTokens := row.promptTokens
    completionTokens := row.completionTokens
    costUsd := row.costUsd
    requestBody := row.requestBody }

def SqliteLogStore.query (table : List LogRow) (q : LogQuery) : Page RequestLogRow :=
  queryRows q.belowCursor SqliteLogStore.read table q

/-- The rows of `request_logs`: `id` is the primary key, `request_ts` an `i64`. -/
structure LogTable where
  rows : List LogRow
  ids : (rows.map LogRow.id).Nodup
  timestamps : ∀ row ∈ rows, InI64 row.requestTs

def SqliteLogStore.fetch (table : LogTable) (q : LogQuery) (cursor : Option String) :
    List RequestLogRow × Option String :=
  let page := SqliteLogStore.query table.rows { q with cursor }
  (page.items, page.nextCursor)

/-- `query` over and over, each time with the cursor that came with the page before. -/
def SqliteLogStore.readPages (table : LogTable) (q : LogQuery) (fuel : ℕ) :
    Option (List (List RequestLogRow)) :=
  readAll (SqliteLogStore.fetch table q) fuel q.cursor

/-- An `INSERT` leaves a table of that kind. -/
def LogTable.insert (backend : LogBackend) (table : LogTable) (rows : List LogRow)
    (h : ∀ row ∈ rows, InI64 row.requestTs) : LogTable where
  rows := backend.insert table.rows rows
  ids := by
    unfold LogBackend.insert
    split
    · rename_i hins
      simp only [LogBackend.insertable, Bool.and_eq_true, decide_eq_true_eq, List.all_eq_true] at hins
      obtain ⟨⟨-, hdistinct⟩, hfresh⟩ := hins
      rw [List.map_append]
      refine table.ids.append hdistinct fun id hold hnew => ?_
      obtain ⟨row, hrow, rfl⟩ := List.mem_map.mp hnew
      exact hfresh row hrow hold
    · exact table.ids
  timestamps := by
    intro row hrow
    unfold LogBackend.insert at hrow
    split at hrow
    · rcases List.mem_append.mp hrow with hold | hnew
      · exact table.timestamps row hold
      · exact h row hnew
    · exact table.timestamps row hrow

theorem LogTable.of_batches {backend : LogBackend} {toJson : Value → String} (table : LogTable)
    {batches : List (List RequestLogRecord)}
    (h : ∀ rec ∈ batches.flatten, InI64 rec.requestTs) :
    ∃ after : LogTable, after.rows = tableAfter backend toJson table.rows batches := by
  induction batches generalizing table with
  | nil => exact ⟨table, rfl⟩
  | cons batch batches ih =>
    have hbatch : ∀ row ∈ batch.map (RequestLogRecord.toRow toJson), InI64 row.requestTs := by
      intro row hrow
      obtain ⟨rec, hrec, rfl⟩ := List.mem_map.mp hrow
      exact h rec (List.mem_append_left _ hrec)
    exact ih (table.insert backend _ hbatch) fun rec hrec => h rec (List.mem_append_right _ hrec)

/-- Whatever the writer did, its table can be read. -/
theorem LogStore.requestLogs_isTable {backend : LogBackend} {toJson : Value → String}
    {existing : LogTable} {s : LogStore}
    (h : Reaches (LogStore.step backend toJson) Always (.init existing.rows) s)
    (hts : ∀ rec ∈ s.accepted, InI64 rec.requestTs) :
    ∃ table : LogTable, table.rows = s.requestLogs := by
  have hledger := Ledger.of_reaches h
  rw [hledger.table]
  refine existing.of_batches fun rec hrec => hts rec ?_
  rw [hledger.fifo]
  exact List.mem_append_left _ (List.mem_append_left _ hrec)

/-! ### Cursors -/

theorem splitOnce_append {sep : Char} {s : String} (h : sep ∉ s.toList) (rest : String) :
    splitOnce sep (s ++ String.singleton sep ++ rest) = some (s, rest) := by
  have htext : (s ++ String.singleton sep ++ rest).toList = s.toList ++ sep :: rest.toList := by
    simp
  have hother : ∀ c ∈ s.toList, decide (c ≠ sep) = true := by
    intro c hc
    exact decide_eq_true fun heq => h (heq ▸ hc)
  have hdrop : (s.toList ++ sep :: rest.toList).dropWhile (· ≠ sep) = sep :: rest.toList := by
    rw [List.dropWhile_append_of_pos hother]
    simp
  have htake : (s.toList ++ sep :: rest.toList).takeWhile (· ≠ sep) = s.toList := by
    rw [List.takeWhile_append_of_pos hother]
    simp
  simp only [splitOnce, htext, hdrop, htake, String.ofList_toList]

theorem parseCursor_encodeCursor {ts : Int} (h : InI64 ts) (id : String) :
    parseCursor (encodeCursor ts id) = some (ts, id) := by
  have hcolon : ':' ∉ (toString ts).toList := notMem_toString_int rfl (by decide) ts
  have hsplit : splitOnce ':' (encodeCursor ts id) = some (toString ts, id) :=
    splitOnce_append hcolon id
  simp only [parseCursor, hsplit, parseI64_toString h, Option.bind_eq_bind, Option.bind_some,
    Option.pure_def]

/-! ### The listing -/

/-- `Before` without ties -/
def LogRow.Above (a b : LogRow) : Prop :=
  b.requestTs < a.requestTs ∨ b.requestTs = a.requestTs ∧ b.id < a.id

instance : Std.Total LogRow.Before where
  total a b := by
    rcases lt_trichotomy a.requestTs b.requestTs with hlt | heq | hgt
    · exact .inr (.inl hlt)
    · rcases le_total a.id b.id with hle | hge
      · exact .inr (.inr ⟨heq, hle⟩)
      · exact .inl (.inr ⟨heq.symm, hge⟩)
    · exact .inl (.inl hgt)

instance : IsTrans LogRow LogRow.Before where
  trans a b c hab hbc := by
    rcases hab with hab | ⟨hab, hid⟩
    · rcases hbc with hbc | ⟨hbc, -⟩
      · exact .inl (hbc.trans hab)
      · exact .inl (hbc ▸ hab)
    · rcases hbc with hbc | ⟨hbc, hid'⟩
      · exact .inl (hab ▸ hbc)
      · exact .inr ⟨hbc.trans hab, hid'.trans hid⟩

theorem LogRow.Above.asymm {a b : LogRow} (h : a.Above b) : ¬b.Above a := by
  rintro (hlt | ⟨heq, hid⟩)
  · rcases h with hlt' | ⟨heq, -⟩
    · exact lt_asymm hlt hlt'
    · exact hlt.ne heq.symm
  · rcases h with hlt' | ⟨-, hid'⟩
    · exact hlt'.ne heq.symm
    · exact lt_asymm hid hid'

theorem sorted_above {rows : List LogRow} (h : (rows.map LogRow.id).Nodup) :
    (rows.insertionSort LogRow.Before).Pairwise LogRow.Above := by
  have hsorted := List.pairwise_insertionSort LogRow.Before rows
  have hids : ((rows.insertionSort LogRow.Before).map LogRow.id).Nodup :=
    ((List.perm_insertionSort LogRow.Before rows).map LogRow.id).nodup_iff.mpr h
  have hne := List.pairwise_map.mp hids
  refine (hsorted.and hne).imp ?_
  rintro a b ⟨hlt | ⟨heq, hle⟩, hid⟩
  · exact .inl hlt
  · exact .inr ⟨heq, lt_of_le_of_ne hle fun h => hid h.symm⟩

/-- A listing is determined by its rows. -/
theorem eq_of_above {rows rows' : List LogRow} (h : rows.Pairwise LogRow.Above)
    (h' : rows'.Pairwise LogRow.Above) (hperm : rows.Perm rows') : rows = rows' :=
  hperm.eq_of_pairwise (fun _ _ _ _ hab hba => absurd hba hab.asymm) h h'

theorem sorted_filter {rows : List LogRow} (h : (rows.map LogRow.id).Nodup) (p : LogRow → Bool) :
    (rows.filter p).insertionSort LogRow.Before = (rows.insertionSort LogRow.Before).filter p := by
  have hids : ((rows.filter p).map LogRow.id).Nodup := h.sublist (List.filter_sublist.map _)
  refine eq_of_above (sorted_above hids) ((sorted_above h).filter p) ?_
  have hleft := List.perm_insertionSort LogRow.Before (rows.filter p)
  have hright := (List.perm_insertionSort LogRow.Before rows).filter p
  exact hleft.trans hright.symm

/-! ### All pages -/

def RequestLogRow.cursor (r : RequestLogRow) : String := encodeCursor r.requestTs r.id

def belowCursorOf (cursor : String) (r : RequestLogRow) : Bool :=
  (parseCursor cursor).all (belowPosition r.requestTs r.id)

def LogTable.listing (table : LogTable) (q : LogQuery) : List LogRow :=
  (table.rows.filter fun row => q.filters row && q.belowCursor row).insertionSort LogRow.Before

theorem queryRows_page (clause : LogRow → Bool) (read : LogRow → RequestLogRow)
    (table : List LogRow) (q : LogQuery) :
    ((queryRows clause read table q).items, (queryRows clause read table q).nextCursor) =
      page q.effectiveLimit RequestLogRow.cursor
        ((((table.filter fun row => q.filters row && clause row).insertionSort
          LogRow.Before).map read).take (q.effectiveLimit + 1)) := by
  simp only [queryRows, page, List.map_take, List.length_take, List.length_map]
  rfl

theorem LogQuery.effectiveLimit_pos (q : LogQuery) : 0 < q.effectiveLimit := by
  unfold LogQuery.effectiveLimit
  split
  · decide
  · rename_i hlimit
    have hpos : 0 < q.limit.toNat := by
      refine Nat.pos_of_ne_zero fun h => hlimit ?_
      exact UInt32.toNat_inj.mp h
    omega

theorem LogTable.mem_listing {table : LogTable} {q : LogQuery} {row : LogRow} :
    row ∈ table.listing q ↔
      row ∈ table.rows ∧ q.filters row = true ∧ q.belowCursor row = true := by
  rw [LogTable.listing, List.mem_insertionSort, List.mem_filter, Bool.and_eq_true]

theorem LogTable.listing_above (table : LogTable) (q : LogQuery) :
    (table.listing q).Pairwise LogRow.Above :=
  sorted_above (table.ids.sublist (List.filter_sublist.map _))

theorem belowCursorOf_cursor {a : LogRow} (h : InI64 a.requestTs) (b : LogRow) :
    belowCursorOf (SqliteLogStore.read a).cursor (SqliteLogStore.read b) = true ↔ a.Above b := by
  have hparse : parseCursor (SqliteLogStore.read a).cursor = some (a.requestTs, a.id) :=
    parseCursor_encodeCursor h a.id
  simp only [belowCursorOf, hparse, Option.all_some, belowPosition, decide_eq_true_eq]
  rfl

theorem LogTable.listing_keyset (table : LogTable) (q : LogQuery) :
    Listing belowCursorOf RequestLogRow.cursor ((table.listing q).map SqliteLogStore.read) := by
  have habove := table.listing_above q
  have hts : ∀ row ∈ table.listing q, InI64 row.requestTs :=
    fun row hrow => table.timestamps row (LogTable.mem_listing.mp hrow).1
  refine ⟨?_, ?_, ?_⟩
  · rw [List.pairwise_map]
    refine habove.imp_of_mem fun ha _ hab => ?_
    exact (belowCursorOf_cursor (hts _ ha) _).mpr hab
  · rw [List.pairwise_map]
    refine habove.imp_of_mem fun _ hb hab => ?_
    rw [← Bool.not_eq_true, belowCursorOf_cursor (hts _ hb)]
    exact hab.asymm
  · intro r hr
    obtain ⟨row, hrow, rfl⟩ := List.mem_map.mp hr
    rw [← Bool.not_eq_true, belowCursorOf_cursor (hts _ hrow)]
    exact fun h => h.asymm h

/-- What is below a row of the listing is below the cursor the listing began with. -/
theorem LogQuery.belowCursor_of_above {q : LogQuery} {a b : LogRow}
    (ha : q.belowCursor a = true) (hab : a.Above b) : q.belowCursor b = true := by
  unfold LogQuery.belowCursor at ha ⊢
  cases hcursor : q.cursor.bind parseCursor with
  | none => rfl
  | some cursor =>
    obtain ⟨ts, id⟩ := cursor
    rw [hcursor] at ha
    simp only [Option.all_some, belowPosition, decide_eq_true_eq] at ha ⊢
    rcases hab with hlt | ⟨heq, hid⟩
    · rcases ha with hlt' | ⟨heq', -⟩
      · exact .inl (hlt.trans hlt')
      · exact .inl (heq' ▸ hlt)
    · rcases ha with hlt' | ⟨heq', hid'⟩
      · exact .inl (heq ▸ hlt')
      · exact .inr ⟨heq.trans heq', hid.trans hid'⟩

/-- The query with a row's cursor finds the rows of the listing that are below it. -/
theorem LogTable.listing_below (table : LogTable) {q : LogQuery} {a : LogRow}
    (ha : a ∈ table.listing q) :
    (table.listing { q with cursor := some (SqliteLogStore.read a).cursor }).map
        SqliteLogStore.read =
      ((table.listing q).map SqliteLogStore.read).filter
        (belowCursorOf (SqliteLogStore.read a).cursor) := by
  obtain ⟨hmem, -, hcursor⟩ := LogTable.mem_listing.mp ha
  have hids := table.ids.sublist
    ((List.filter_sublist (p := fun row => q.filters row && q.belowCursor row)).map LogRow.id)
  have hclause : ∀ row, ({ q with cursor := some (SqliteLogStore.read a).cursor } :
      LogQuery).belowCursor row = belowCursorOf (SqliteLogStore.read a).cursor
        (SqliteLogStore.read row) := fun row => rfl
  have hfilter : (table.rows.filter fun row =>
        ({ q with cursor := some (SqliteLogStore.read a).cursor } : LogQuery).filters row &&
          ({ q with cursor := some (SqliteLogStore.read a).cursor } : LogQuery).belowCursor row) =
      (table.rows.filter fun row => q.filters row && q.belowCursor row).filter
        (belowCursorOf (SqliteLogStore.read a).cursor ∘ SqliteLogStore.read) := by
    rw [List.filter_filter]
    refine List.filter_congr fun row _ => ?_
    rw [hclause, Bool.eq_iff_iff, Bool.and_eq_true, Bool.and_eq_true, Bool.and_eq_true]
    constructor
    · intro h
      have habove := (belowCursorOf_cursor (table.timestamps a hmem) row).mp h.2
      exact ⟨h.2, h.1, LogQuery.belowCursor_of_above hcursor habove⟩
    · intro h
      exact ⟨h.2.1, h.1⟩
  rw [LogTable.listing, hfilter, sorted_filter hids, List.filter_map]
  rfl

/-- Following the cursors of `query` ends, and the pages hold, each row once and newest
first, the rows that pass the filters below the cursor begun with; every page before the
last is full. -/
theorem pagination_complete (table : LogTable) (q : LogQuery) :
    ∃ (rows : List LogRow) (pages : List (List RequestLogRow)),
      rows.Perm (table.rows.filter fun row => q.filters row && q.belowCursor row) ∧
      rows.Pairwise LogRow.Above ∧
      (∀ fuel, table.rows.length < fuel → SqliteLogStore.readPages table q fuel = some pages) ∧
      pages.flatten = rows.map SqliteLogStore.read ∧
      ∀ items ∈ pages.dropLast, items.length = q.effectiveLimit := by
  have hperm := List.perm_insertionSort LogRow.Before
    (table.rows.filter fun row => q.filters row && q.belowCursor row)
  have hlen : ((table.listing q).map SqliteLogStore.read).length ≤ table.rows.length := by
    rw [List.length_map]
    exact hperm.length_eq ▸ List.length_filter_le _ _
  have hfirst : SqliteLogStore.fetch table q q.cursor =
      page q.effectiveLimit RequestLogRow.cursor
        (((table.listing q).map SqliteLogStore.read).take (q.effectiveLimit + 1)) :=
    queryRows_page q.belowCursor SqliteLogStore.read table.rows q
  have hnext : ∀ r ∈ (table.listing q).map SqliteLogStore.read,
      SqliteLogStore.fetch table q (some r.cursor) = page q.effectiveLimit RequestLogRow.cursor
        ((((table.listing q).map SqliteLogStore.read).filter (belowCursorOf r.cursor)).take
          (q.effectiveLimit + 1)) := by
    intro r hr
    obtain ⟨row, hrow, rfl⟩ := List.mem_map.mp hr
    rw [← table.listing_below hrow]
    exact queryRows_page _ SqliteLogStore.read table.rows _
  obtain ⟨pages, hread, hflat, hfull⟩ :=
    readAll_listing (table.listing_keyset q) q.effectiveLimit_pos hfirst hnext
  exact ⟨table.listing q, pages, hperm, table.listing_above q,
    fun fuel hfuel => hread fuel (Nat.lt_of_le_of_lt hlen hfuel), hflat, hfull⟩

end AiGateway.Storage
