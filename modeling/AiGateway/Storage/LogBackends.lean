import AiGateway.Library.StableSort
import AiGateway.Storage.LogQuery

/-!
# The log queries of the other backends (`postgres/logs.rs:57-121`, `memory/mod.rs:355-397`)

`PostgresLogStore::query` has no cursor clause. `MemoryLogStore::query` has neither a
cursor nor a filter on the key, sorts by the timestamp alone, which keeps the stored
order within a timestamp, and gives no cursor.
-/

namespace AiGateway.Storage
open AiGateway.Core AiGateway.Library.MachineInt AiGateway.Library.StableSort

/-- The `INTEGER` and `BOOLEAN` columns of Postgres are read as `i32` and `bool`. -/
def PostgresLogStore.read (row : LogRow) : RequestLogRow :=
  { id := row.id
    projectId := row.projectId
    gatewayKeyId := row.gatewayKeyId
    logNamespace := row.logNamespace
    model := row.model
    endpoint := row.endpoint
    requestTs := row.requestTs
    durationMs := row.durationMs
    status := row.status
    httpStatus := row.httpStatus
    cached := decide (row.cached ≠ 0)
    retryCount := row.retryCount
    promptTokens := row.promptTokens
    completionTokens := row.completionTokens
    costUsd := row.costUsd
    requestBody := row.requestBody }

def PostgresLogStore.query (table : List LogRow) (q : LogQuery) : Page RequestLogRow :=
  queryRows (fun _ => true) PostgresLogStore.read table q

def RequestLogRecord.toRequestLogRow (rec : RequestLogRecord) : RequestLogRow :=
  { id := rec.id
    projectId := rec.projectId
    gatewayKeyId := rec.gatewayKeyId
    logNamespace := rec.logNamespace
    model := rec.model
    endpoint := rec.endpoint
    requestTs := rec.requestTs
    durationMs := rec.durationMs
    status := rec.status
    httpStatus := rec.httpStatus
    cached := rec.cached
    retryCount := rec.retryCount
    promptTokens := rec.promptTokens
    completionTokens := rec.completionTokens
    costUsd := rec.costUsd
    requestBody := rec.requestBody }

def LogQuery.memoryFilters (q : LogQuery) (rec : RequestLogRecord) : Bool :=
  q.projectId.all (fun v => v = rec.projectId) &&
    q.logNamespace.all (fun v => rec.logNamespace = some v) &&
    q.model.all (fun v => rec.model = some v) &&
    q.status.all (fun v => rec.status = v) &&
    q.fromTs.all (fun v => v ≤ rec.requestTs) &&
    q.toTs.all (fun v => rec.requestTs ≤ v)

def MemoryLogStore.query (records : List RequestLogRecord) (q : LogQuery) : Page RequestLogRow :=
  let rows := (records.filter q.memoryFilters).map RequestLogRecord.toRequestLogRow
  { items := (sortDesc RequestLogRow.requestTs rows).take q.effectiveLimit
    nextCursor := none }

/-- Records as they were appended: `id` is unique, the numbers are `i64` and `i32`. -/
structure LogRecords where
  records : List RequestLogRecord
  ids : (records.map RequestLogRecord.id).Nodup
  timestamps : ∀ rec ∈ records, InI64 rec.requestTs
  statuses : ∀ rec ∈ records, ∀ status ∈ rec.httpStatus, InI32 status
  retries : ∀ rec ∈ records, InI32 rec.retryCount

/-- The table of a SQL backend with these records. -/
def LogRecords.table (s : LogRecords) (toJson : Value → String) : List LogRow :=
  s.records.map (RequestLogRecord.toRow toJson)

/-! ### When they agree -/

def LogQuery.keyFilter (q : LogQuery) (rec : RequestLogRecord) : Bool :=
  q.gatewayKeyId.all fun v => rec.gatewayKeyId = some v

def LogQuery.wants (q : LogQuery) (rec : RequestLogRecord) : Bool :=
  q.memoryFilters rec && q.keyFilter rec

def LogQuery.recordBelow (q : LogQuery) (rec : RequestLogRecord) : Bool :=
  (q.cursor.bind parseCursor).all (belowPosition rec.requestTs rec.id)

/-- How many records pass the other filters and are newer, or as new and stored before. -/
def LogQuery.ahead (q : LogQuery) (before : List RequestLogRecord) (rec : RequestLogRecord)
    (after : List RequestLogRecord) : ℕ :=
  before.countP (fun r => decide (rec.requestTs ≤ r.requestTs) && q.memoryFilters r) +
    after.countP (fun r => decide (rec.requestTs < r.requestTs) && q.memoryFilters r)

structure LogRecords.Suits (s : LogRecords) (q : LogQuery) : Prop where
  /-- every record that passes the filters is below the cursor -/
  cursor : ∀ rec ∈ s.records, q.wants rec = true → q.recordBelow rec = true
  /-- of the records that pass the other filters the first page has those of the key -/
  key : ∀ before rec after, s.records = before ++ rec :: after → q.memoryFilters rec = true →
    (q.keyFilter rec = true ↔ q.ahead before rec after < q.effectiveLimit)
  /-- within a timestamp the ids fall -/
  ties : s.records.Pairwise fun a b => q.wants a = true → q.wants b = true →
    a.requestTs = b.requestTs → b.id < a.id

/-! ### The queries as pages of one listing -/

def RequestLogRecord.Before (a b : RequestLogRecord) : Prop :=
  b.requestTs < a.requestTs ∨ b.requestTs = a.requestTs ∧ b.id ≤ a.id

/-- `Before` without ties -/
def RequestLogRecord.Above (a b : RequestLogRecord) : Prop :=
  b.requestTs < a.requestTs ∨ b.requestTs = a.requestTs ∧ b.id < a.id

instance : DecidableRel RequestLogRecord.Before := fun a b => by
  unfold RequestLogRecord.Before
  infer_instance

def LogRecords.listing (s : LogRecords) (q : LogQuery) : List RequestLogRecord :=
  (s.records.filter q.wants).insertionSort RequestLogRecord.Before

def LogQuery.pageOf (q : LogQuery) (listing : List RequestLogRecord) : Page RequestLogRow :=
  let page := Library.Keyset.page q.effectiveLimit RequestLogRow.cursor
    ((listing.map RequestLogRecord.toRequestLogRow).take (q.effectiveLimit + 1))
  { items := page.1
    nextCursor := page.2 }

section
variable {toJson : Value → String} {s : LogRecords} {q : LogQuery}

theorem filters_toRow (q : LogQuery) (rec : RequestLogRecord) :
    q.filters (rec.toRow toJson) = q.wants rec := by
  have hproject : q.projectId.all (fun v => decide ((rec.toRow toJson).projectId = v)) =
      q.projectId.all (fun v => decide (v = rec.projectId)) := by
    congr 1
    funext v
    exact decide_eq_decide.mpr eq_comm
  rw [LogQuery.filters, hproject, LogQuery.wants, LogQuery.memoryFilters, Bool.eq_iff_iff]
  simp only [Bool.and_eq_true]
  constructor
  · rintro ⟨⟨⟨⟨⟨⟨hp, hk⟩, hn⟩, hm⟩, hs⟩, hf⟩, ht⟩
    exact ⟨⟨⟨⟨⟨⟨hp, hn⟩, hm⟩, hs⟩, hf⟩, ht⟩, hk⟩
  · rintro ⟨⟨⟨⟨⟨⟨hp, hn⟩, hm⟩, hs⟩, hf⟩, ht⟩, hk⟩
    exact ⟨⟨⟨⟨⟨⟨hp, hk⟩, hn⟩, hm⟩, hs⟩, hf⟩, ht⟩

theorem postgres_read_toRow (rec : RequestLogRecord) :
    PostgresLogStore.read (rec.toRow toJson) = rec.toRequestLogRow := by
  have hcached : decide ((if rec.cached then (1 : Int) else 0) ≠ 0) = rec.cached := by
    cases rec.cached with
    | false => rfl
    | true => rfl
  have hread : PostgresLogStore.read (rec.toRow toJson) = { rec.toRequestLogRow with
      cached := decide ((if rec.cached then (1 : Int) else 0) ≠ 0) } := rfl
  rw [hread, hcached]
  rfl

theorem sqlite_read_toRow {rec : RequestLogRecord} (hrec : rec ∈ s.records) :
    SqliteLogStore.read (rec.toRow toJson) = rec.toRequestLogRow := by
  have hstatus : rec.httpStatus.map asI32 = rec.httpStatus := by
    cases hhttp : rec.httpStatus with
    | none => rfl
    | some status => exact congrArg some (asI32_of_inI32 (s.statuses rec hrec status hhttp))
  have hretry : asI32 rec.retryCount = rec.retryCount := asI32_of_inI32 (s.retries rec hrec)
  have hread : SqliteLogStore.read (rec.toRow toJson) =
      { PostgresLogStore.read (rec.toRow toJson) with
        httpStatus := rec.httpStatus.map asI32
        retryCount := asI32 rec.retryCount } := rfl
  rw [hread, postgres_read_toRow, hstatus, hretry]
  rfl

theorem LogRecords.table_ids (s : LogRecords) (toJson : Value → String) (p : LogRow → Bool) :
    (((s.table toJson).filter p).map LogRow.id).Nodup := by
  have hall : ((s.table toJson).map LogRow.id).Nodup := by
    rw [LogRecords.table, List.map_map]
    exact s.ids
  exact hall.sublist (List.filter_sublist.map _)

/-- Records are listed as their rows are. -/
theorem LogRecords.listing_toRow (s : LogRecords) (toJson : Value → String) (q : LogQuery) :
    (s.listing q).map (RequestLogRecord.toRow toJson) =
      ((s.table toJson).filter fun row => q.filters row).insertionSort LogRow.Before := by
  have hbefore : ∀ a b : RequestLogRecord,
      a.Before b ↔ (a.toRow toJson).Before (b.toRow toJson) := fun _ _ => Iff.rfl
  have hwanted : ((s.table toJson).filter fun row => q.filters row) =
      (s.records.filter q.wants).map (RequestLogRecord.toRow toJson) := by
    rw [LogRecords.table, List.filter_map]
    exact congrArg _ (List.filter_congr fun rec _ => filters_toRow q rec)
  rw [hwanted]
  exact List.map_insertionSort RequestLogRecord.Before LogRow.Before _ _
    fun a _ b _ => hbefore a b

theorem LogRecords.mem_listing {rec : RequestLogRecord} :
    rec ∈ s.listing q ↔ rec ∈ s.records ∧ q.wants rec = true := by
  rw [LogRecords.listing, List.mem_insertionSort, List.mem_filter]

theorem LogRecords.listing_above (s : LogRecords) (q : LogQuery) :
    (s.listing q).Pairwise RequestLogRecord.Above := by
  have habove := sorted_above (s.table_ids (fun _ => "") fun row => q.filters row)
  rw [← s.listing_toRow] at habove
  exact (List.pairwise_map.mp habove).imp fun hab => hab

theorem LogRecords.eq_of_id {a b : RequestLogRecord} (ha : a ∈ s.records) (hb : b ∈ s.records)
    (hid : a.id = b.id) : a = b :=
  List.inj_on_of_nodup_map s.ids ha hb hid

theorem queryRows_records (clause : LogRow → Bool) (read : LogRow → RequestLogRow)
    (hread : ∀ rec ∈ s.records, read (rec.toRow toJson) = rec.toRequestLogRow) :
    queryRows clause read (s.table toJson) q =
      q.pageOf ((s.listing q).filter fun rec => clause (rec.toRow toJson)) := by
  have hrows : ((s.table toJson).filter fun row => q.filters row && clause row).insertionSort
      LogRow.Before =
      (((s.listing q).filter fun rec => clause (rec.toRow toJson)).map
        (RequestLogRecord.toRow toJson)) := by
    have hcomm : ((s.table toJson).filter fun row => q.filters row && clause row) =
        ((s.table toJson).filter fun row => q.filters row).filter clause := by
      rw [List.filter_filter]
      exact List.filter_congr fun row _ => Bool.and_comm ..
    rw [hcomm, sorted_filter (s.table_ids toJson _), ← s.listing_toRow, List.filter_map]
    rfl
  have hmem : ∀ rec ∈ (s.listing q).filter fun rec => clause (rec.toRow toJson),
      (read ∘ RequestLogRecord.toRow toJson) rec = rec.toRequestLogRow :=
    fun rec hrec => hread rec (LogRecords.mem_listing.mp (List.mem_filter.mp hrec).1).1
  have hpage := queryRows_page clause read (s.table toJson) q
  rw [hrows, List.map_map, List.map_congr_left hmem] at hpage
  have hitems := congrArg Prod.fst hpage
  have hcursor := congrArg Prod.snd hpage
  simp only at hitems hcursor
  rw [LogQuery.pageOf, ← hitems, ← hcursor]

theorem sqlite_query_eq : SqliteLogStore.query (s.table toJson) q =
    q.pageOf ((s.listing q).filter q.recordBelow) :=
  queryRows_records _ _ fun _ hrec => sqlite_read_toRow hrec

theorem postgres_query_eq : PostgresLogStore.query (s.table toJson) q = q.pageOf (s.listing q) := by
  have hread : ∀ rec ∈ s.records, PostgresLogStore.read (rec.toRow toJson) = rec.toRequestLogRow :=
    fun rec _ => postgres_read_toRow rec
  have hquery := queryRows_records (q := q) (fun _ => true) PostgresLogStore.read hread
  rwa [List.filter_eq_self.mpr fun _ _ => rfl] at hquery

theorem pageOf_items (listing : List RequestLogRecord) : (q.pageOf listing).items =
    (listing.take q.effectiveLimit).map RequestLogRecord.toRequestLogRow := by
  simp only [LogQuery.pageOf, Library.Keyset.page, List.take_take,
    Nat.min_eq_left (Nat.le_succ q.effectiveLimit), List.map_take]

theorem pageOf_ids (listing : List RequestLogRecord) :
    (q.pageOf listing).items.map RequestLogRow.id =
      (listing.take q.effectiveLimit).map RequestLogRecord.id := by
  rw [pageOf_items, List.map_map]
  rfl

theorem pageOf_last_iff (listing : List RequestLogRecord) :
    (q.pageOf listing).nextCursor = none ↔ listing.length ≤ q.effectiveLimit := by
  have hlen : (listing.map RequestLogRecord.toRequestLogRow).length = listing.length :=
    List.length_map _
  by_cases hlast : listing.length ≤ q.effectiveLimit
  · have hfound : ((listing.map RequestLogRecord.toRequestLogRow).take
        (q.effectiveLimit + 1)).length ≤ q.effectiveLimit := by
      rw [List.length_take]
      omega
    rw [LogQuery.pageOf, Library.Keyset.page_last hfound]
    exact iff_of_true rfl hlast
  · obtain ⟨front, row, -, -, hpage⟩ := Library.Keyset.page_more RequestLogRow.cursor
      q.effectiveLimit_pos (hlen.symm ▸ Nat.lt_of_not_le hlast)
    rw [LogQuery.pageOf, hpage]
    exact iff_of_false (Option.some_ne_none _) hlast

theorem LogQuery.recordBelow_of_above {a b : RequestLogRecord}
    (ha : q.recordBelow a = true) (hab : a.Above b) : q.recordBelow b = true := by
  have hrow : ∀ rec : RequestLogRecord,
      q.recordBelow rec = q.belowCursor (rec.toRow fun _ => "") := fun _ => rfl
  rw [hrow] at ha ⊢
  exact LogQuery.belowCursor_of_above ha hab

/-- Without the cursor clause the page is the same when the cursor cuts nothing off. -/
theorem postgres_agrees_iff (toJson : Value → String) (s : LogRecords) (q : LogQuery) :
    PostgresLogStore.query (s.table toJson) q = SqliteLogStore.query (s.table toJson) q ↔
      ∀ rec ∈ s.records, q.wants rec = true → q.recordBelow rec = true := by
  rw [postgres_query_eq, sqlite_query_eq]
  constructor
  · intro hpage rec hrec hwants
    have hids := congrArg (fun p : Page RequestLogRow => p.items.map RequestLogRow.id) hpage
    simp only [pageOf_ids] at hids
    have hmem : rec ∈ s.listing q := LogRecords.mem_listing.mpr ⟨hrec, hwants⟩
    have habove := s.listing_above q
    obtain ⟨n, hn⟩ := Nat.exists_eq_succ_of_ne_zero q.effectiveLimit_pos.ne'
    cases hlist : s.listing q with
    | nil =>
      rw [hlist] at hmem
      cases hmem
    | cons top rest =>
      -- the newest record is on both pages, and all others are below it
      have htop : q.recordBelow top = true := by
        cases hfilter : (s.listing q).filter q.recordBelow with
        | nil =>
          rw [hfilter, hlist, hn] at hids
          cases hids
        | cons b rest' =>
          rw [hfilter, hlist, hn, List.take_succ_cons, List.take_succ_cons, List.map_cons,
            List.map_cons, List.cons.injEq] at hids
          have hb : b ∈ (s.listing q).filter q.recordBelow := by
            rw [hfilter]
            exact List.mem_cons_self ..
          have htop : top ∈ s.listing q := by
            rw [hlist]
            exact List.mem_cons_self ..
          obtain ⟨hb, hbelow⟩ := List.mem_filter.mp hb
          have heq := s.eq_of_id (LogRecords.mem_listing.mp htop).1
            (LogRecords.mem_listing.mp hb).1 hids.1
          exact heq ▸ hbelow
      rw [hlist] at hmem habove
      rcases List.mem_cons.mp hmem with heq | hrest
      · exact heq ▸ htop
      · exact LogQuery.recordBelow_of_above htop ((List.pairwise_cons.mp habove).1 rec hrest)
  · intro hbelow
    have hall : (s.listing q).filter q.recordBelow = s.listing q := by
      refine List.filter_eq_self.mpr fun rec hrec => ?_
      obtain ⟨hmem, hwants⟩ := LogRecords.mem_listing.mp hrec
      exact hbelow rec hmem hwants
    rw [hall]

/-! ### The memory store -/

/-- The records in the order of the memory store, before its page is cut off. -/
def LogRecords.newest (s : LogRecords) (q : LogQuery) : List RequestLogRecord :=
  sortDesc RequestLogRecord.requestTs (s.records.filter q.memoryFilters)

theorem LogRecords.nodup (s : LogRecords) : s.records.Nodup := s.ids.of_map _

theorem LogRecords.newest_nodup (s : LogRecords) (q : LogQuery) : (s.newest q).Nodup :=
  (sortDesc_perm _ _).nodup_iff.mpr (s.nodup.filter _)

theorem LogRecords.mem_newest {rec : RequestLogRecord} :
    rec ∈ s.newest q ↔ rec ∈ s.records ∧ q.memoryFilters rec = true := by
  rw [LogRecords.newest, (sortDesc_perm _ _).mem_iff, List.mem_filter]

theorem LogRecords.eq_of_ids {l l' : List RequestLogRecord} (hl : l ⊆ s.records)
    (hl' : l' ⊆ s.records) (h : l.map RequestLogRecord.id = l'.map RequestLogRecord.id) :
    l = l' := by
  induction l generalizing l' with
  | nil =>
    rw [List.map_nil] at h
    exact (List.map_eq_nil_iff.mp h.symm).symm
  | cons a l ih =>
    obtain ⟨b, l₂, rfl, hid, hids⟩ := List.map_eq_cons_iff.mp h.symm
    obtain ⟨ha, hl⟩ := List.cons_subset.mp hl
    obtain ⟨hb, hl₂⟩ := List.cons_subset.mp hl'
    rw [s.eq_of_id ha hb hid.symm, ih hl hl₂ hids.symm]

theorem memory_query_eq (s : LogRecords) (q : LogQuery) : MemoryLogStore.query s.records q =
    ⟨((s.newest q).take q.effectiveLimit).map RequestLogRecord.toRequestLogRow, none⟩ := by
  have hdesc : ∀ a b : RequestLogRecord, Desc RequestLogRecord.requestTs a b ↔
      Desc RequestLogRow.requestTs a.toRequestLogRow b.toRequestLogRow := fun _ _ => Iff.rfl
  have hsort : sortDesc RequestLogRow.requestTs
      ((s.records.filter q.memoryFilters).map RequestLogRecord.toRequestLogRow) =
      (s.newest q).map RequestLogRecord.toRequestLogRow :=
    (List.map_insertionSort _ _ RequestLogRecord.toRequestLogRow _ fun a _ b _ => hdesc a b).symm
  rw [MemoryLogStore.query, hsort, List.map_take]

theorem memory_page_iff (s : LogRecords) (q : LogQuery) :
    MemoryLogStore.query s.records q = q.pageOf (s.listing q) ↔
      (s.newest q).take q.effectiveLimit = s.listing q := by
  rw [memory_query_eq]
  constructor
  · intro hpage
    have hnone : (q.pageOf (s.listing q)).nextCursor = none := hpage ▸ rfl
    have hshort := (pageOf_last_iff _).mp hnone
    have hids := congrArg (fun p : Page RequestLogRow => p.items.map RequestLogRow.id) hpage
    simp only [pageOf_ids, List.take_of_length_le hshort, List.map_map] at hids
    refine s.eq_of_ids ?_ ?_ hids
    · exact fun rec hrec => (LogRecords.mem_newest.mp (List.mem_of_mem_take hrec)).1
    · exact fun rec hrec => (LogRecords.mem_listing.mp hrec).1
  · intro hlist
    have hshort : (s.listing q).length ≤ q.effectiveLimit := by
      rw [← hlist]
      exact List.length_take_le _ _
    have hitems := pageOf_items (q := q) (s.listing q)
    have hcursor := (pageOf_last_iff (q := q) (s.listing q)).mpr hshort
    rw [List.take_of_length_le hshort] at hitems
    rw [hlist, ← hitems, ← hcursor]

theorem LogRecords.newest_position {before after : List RequestLogRecord} {rec : RequestLogRecord}
    (h : s.records = before ++ rec :: after) (hrec : q.memoryFilters rec = true) (n : ℕ) :
    rec ∈ (s.newest q).take n ↔ q.ahead before rec after < n := by
  have hfilter : s.records.filter q.memoryFilters =
      before.filter q.memoryFilters ++ rec :: after.filter q.memoryFilters := by
    rw [h, List.filter_append, List.filter_cons, if_pos hrec]
  obtain ⟨front, back, hsort, hlen⟩ := sortDesc_position RequestLogRecord.requestTs
    (before.filter q.memoryFilters) (after.filter q.memoryFilters) rec
  rw [List.countP_filter, List.countP_filter] at hlen
  have hnewest : s.newest q = front ++ rec :: back := by
    rw [LogRecords.newest, hfilter, hsort]
  have hnodup := s.newest_nodup q
  rw [hnewest] at hnodup ⊢
  rw [mem_take_iff hnodup, hlen]
  rfl

theorem LogRecords.pair_newest {a b : RequestLogRecord} (h : [a, b].Sublist s.records)
    (ha : q.memoryFilters a = true) (hb : q.memoryFilters b = true)
    (hts : b.requestTs ≤ a.requestTs) : [a, b].Sublist (s.newest q) := by
  have hfilter := h.filter q.memoryFilters
  have hpair : [a, b].filter q.memoryFilters = [a, b] :=
    List.filter_eq_self.mpr (by simp [ha, hb])
  rw [hpair] at hfilter
  exact pair_sublist_sortDesc hfilter hts

theorem LogRecords.ties_of_newest {s : LogRecords} {q : LogQuery}
    (hlist : (s.newest q).take q.effectiveLimit = s.listing q) {a b : RequestLogRecord}
    (hsub : [a, b].Sublist s.records) (ha : q.wants a = true) (hb : q.wants b = true)
    (hts : a.requestTs = b.requestTs) : b.id < a.id := by
  have hpair := LogRecords.pair_newest hsub (Bool.and_eq_true_iff.mp ha).1
    (Bool.and_eq_true_iff.mp hb).1 hts.ge
  have hne : a ≠ b := by
    have hnodup := hsub.nodup s.nodup
    simpa using hnodup
  have ha' : a ∈ s.listing q := LogRecords.mem_listing.mpr ⟨hsub.subset (by simp), ha⟩
  have hb' : b ∈ s.listing q := LogRecords.mem_listing.mpr ⟨hsub.subset (by simp), hb⟩
  rcases pair_sublist_or ha' hb' hne with hab | hba
  · rcases List.pairwise_iff_forall_sublist.mp (s.listing_above q) hab with hlt | ⟨-, hid⟩
    · exact absurd hts hlt.ne'
    · exact hid
  · rw [← hlist] at hba
    have hback := hba.trans (List.take_sublist _ _)
    exact absurd hback (pair_sublist_asymm (s.newest_nodup q) hpair)

theorem LogRecords.mem_newest_take {s : LogRecords} {q : LogQuery}
    (hkey : ∀ before rec after, s.records = before ++ rec :: after → q.memoryFilters rec = true →
      (q.keyFilter rec = true ↔ q.ahead before rec after < q.effectiveLimit))
    (rec : RequestLogRecord) :
    rec ∈ (s.newest q).take q.effectiveLimit ↔ rec ∈ s.listing q := by
  rw [LogRecords.mem_listing, LogQuery.wants, Bool.and_eq_true]
  constructor
  · intro htake
    obtain ⟨hrec, hfilters⟩ := LogRecords.mem_newest.mp (List.mem_of_mem_take htake)
    obtain ⟨before, after, hsplit⟩ := List.append_of_mem hrec
    have hahead := (LogRecords.newest_position hsplit hfilters _).mp htake
    exact ⟨hrec, hfilters, (hkey before rec after hsplit hfilters).mpr hahead⟩
  · rintro ⟨hrec, hfilters, hrecKey⟩
    obtain ⟨before, after, hsplit⟩ := List.append_of_mem hrec
    have hahead := (hkey before rec after hsplit hfilters).mp hrecKey
    exact (LogRecords.newest_position hsplit hfilters _).mpr hahead

/-- When the stored order agrees with the ids, the newest records come in the SQL order. -/
theorem LogRecords.newest_take_above {s : LogRecords} {q : LogQuery}
    (hmem : ∀ rec ∈ (s.newest q).take q.effectiveLimit, rec ∈ s.listing q)
    (hties : s.records.Pairwise fun a b => q.wants a = true → q.wants b = true →
      a.requestTs = b.requestTs → b.id < a.id) :
    ((s.newest q).take q.effectiveLimit).Pairwise RequestLogRecord.Above := by
  refine List.pairwise_iff_forall_sublist.mpr fun {a b} htake => ?_
  have hpair := htake.trans (List.take_sublist _ _)
  have hdesc : b.requestTs ≤ a.requestTs :=
    List.pairwise_iff_forall_sublist.mp (sortDesc_desc _ _) hpair
  obtain ⟨ha, hwa⟩ := LogRecords.mem_listing.mp (hmem a (htake.subset (by simp)))
  obtain ⟨hb, hwb⟩ := LogRecords.mem_listing.mp (hmem b (htake.subset (by simp)))
  rcases lt_or_eq_of_le hdesc with hlt | heq
  · exact .inl hlt
  · have hne : a ≠ b := by
      have hnodup := hpair.nodup (s.newest_nodup q)
      simpa using hnodup
    rcases pair_sublist_or ha hb hne with hab | hba
    · have hids := List.pairwise_iff_forall_sublist.mp hties hab
      exact .inr ⟨heq, hids hwa hwb heq.symm⟩
    · have hba' := LogRecords.pair_newest hba (Bool.and_eq_true_iff.mp hwb).1
        (Bool.and_eq_true_iff.mp hwa).1 heq.ge
      exact absurd hba' (pair_sublist_asymm (s.newest_nodup q) hpair)

/-- The first page of the memory store is the listing of the key's records. -/
theorem newest_take_iff (s : LogRecords) (q : LogQuery) :
    (s.newest q).take q.effectiveLimit = s.listing q ↔
      (∀ before rec after, s.records = before ++ rec :: after → q.memoryFilters rec = true →
        (q.keyFilter rec = true ↔ q.ahead before rec after < q.effectiveLimit)) ∧
      s.records.Pairwise fun a b => q.wants a = true → q.wants b = true →
        a.requestTs = b.requestTs → b.id < a.id := by
  constructor
  · intro hlist
    refine ⟨?_, List.pairwise_iff_forall_sublist.mpr ?_⟩
    · intro before rec after hrecords hrec
      have hmem : rec ∈ s.records := by
        rw [hrecords]
        exact List.mem_append_right _ (List.mem_cons_self ..)
      rw [← LogRecords.newest_position hrecords hrec, hlist, LogRecords.mem_listing,
        LogQuery.wants, hrec, Bool.true_and]
      exact ⟨fun hkey => ⟨hmem, hkey⟩, fun hkey => hkey.2⟩
    · intro a b hsub ha hb hts
      exact LogRecords.ties_of_newest hlist hsub ha hb hts
  · rintro ⟨hkey, hties⟩
    have hmem := LogRecords.mem_newest_take hkey
    have habove := LogRecords.newest_take_above (fun rec hrec => (hmem rec).mp hrec) hties
    have hlisting : (s.listing q).Nodup :=
      (List.perm_insertionSort _ _).nodup_iff.mpr (s.nodup.filter _)
    have hperm : ((s.newest q).take q.effectiveLimit).Perm (s.listing q) :=
      (List.perm_ext_iff_of_nodup ((s.newest_nodup q).sublist (List.take_sublist _ _))
        hlisting).mpr hmem
    refine hperm.eq_of_pairwise (fun a b _ _ hab hba => ?_) habove (s.listing_above q)
    exact absurd hba (LogRow.Above.asymm (a := a.toRow fun _ => "") (b := b.toRow fun _ => "") hab)

/-- The three stores answer a query alike exactly when it suits the records. -/
theorem backends_agree_iff (toJson : Value → String) (s : LogRecords) (q : LogQuery) :
    MemoryLogStore.query s.records q = SqliteLogStore.query (s.table toJson) q ∧
        PostgresLogStore.query (s.table toJson) q = SqliteLogStore.query (s.table toJson) q ↔
      s.Suits q := by
  have hmemory := memory_page_iff s q
  have hlisted : PostgresLogStore.query (s.table toJson) q = q.pageOf (s.listing q) :=
    postgres_query_eq
  rw [newest_take_iff, ← hlisted] at hmemory
  have hpostgres := postgres_agrees_iff toJson s q
  constructor
  · rintro ⟨hmem, hpg⟩
    obtain ⟨hkey, hties⟩ := hmemory.mp (hmem.trans hpg.symm)
    exact ⟨hpostgres.mp hpg, hkey, hties⟩
  · intro hsuits
    have hpg := hpostgres.mpr hsuits.cursor
    exact ⟨(hmemory.mpr ⟨hsuits.key, hsuits.ties⟩).trans hpg, hpg⟩

end

def twoRecords : LogRecords where
  records := [{ plainRecord "r1" none with requestTs := 1 }, { plainRecord "r2" none with requestTs := 2 }]
  ids := by decide
  timestamps := by decide
  statuses := by decide
  retries := by decide

/-- The second page of one record, with the cursor that came with the first. -/
def secondPage : LogQuery :=
  { projectId := none, gatewayKeyId := none, logNamespace := none, model := none, status := none
    fromTs := none, toTs := none, limit := 1, cursor := some "2:r2" }

/-- Postgres gives the first page again, with the same cursor, and so does the memory
store, without one. -/
theorem backends_differ :
    (SqliteLogStore.query (twoRecords.table fun _ => "null") secondPage).items.map RequestLogRow.id =
        ["r1"] ∧
      (PostgresLogStore.query (twoRecords.table fun _ => "null") secondPage).items.map
        RequestLogRow.id = ["r2"] ∧
      (PostgresLogStore.query (twoRecords.table fun _ => "null") secondPage).nextCursor =
        secondPage.cursor ∧
      (MemoryLogStore.query twoRecords.records secondPage).items.map RequestLogRow.id = ["r2"] ∧
      ¬(MemoryLogStore.query twoRecords.records secondPage =
          SqliteLogStore.query (twoRecords.table fun _ => "null") secondPage ∧
        PostgresLogStore.query (twoRecords.table fun _ => "null") secondPage =
          SqliteLogStore.query (twoRecords.table fun _ => "null") secondPage) := by
  decide

end AiGateway.Storage
