import AiGateway.Storage.LogQuery
import AiGateway.Storage.LogWorker
import AiGateway.Storage.SqlCosts
import Mathlib.Data.Prod.Lex

/-!
# Logs that are read while they are written (`sqlite/logs.rs`)

The worker of the log store, its table, the repricing updates and clients that page through the
table with cursors, one statement at a time. An update waits for the write lock, which the worker
holds around its `INSERT`. A client sends the cursor of a page back for the next one.
-/

namespace AiGateway.Storage
open AiGateway.Core AiGateway.Library.Keyset AiGateway.Library.MachineInt AiGateway.Library.Runs

/-- The row without its two costs, the columns that an update writes. -/
def LogRow.uncosted (row : LogRow) : LogRow := { row with costUsd := none, wouldHaveCostUsd := none }

def RequestLogRow.uncosted (row : RequestLogRow) : RequestLogRow := { row with costUsd := none }

/-- The worker waits for an `INSERT`. -/
def LogWorker.inserting (w : LogWorker) : Bool :=
  match w.phase with
  | .inserting _ => true
  | _ => false

/-- A client that pages through a query. -/
structure LogReader where
  query : LogQuery
  -- the rows that the table held when the client began
  due : List LogRow
  items : List RequestLogRow
  cursor : Option String
  finished : Bool

/-- The next page of a client. -/
def LogReader.turn (r : LogReader) (table : List LogRow) : LogReader :=
  let page := SqliteLogStore.query table { r.query with cursor := r.cursor }
  { r with
    items := r.items ++ page.items
    cursor := page.nextCursor.or r.cursor
    finished := page.nextCursor.isNone }

structure LogPipeline where
  worker : LogWorker
  requestLogs : List LogRow
  -- the `INSERT` that the worker waits for has executed
  executed : Bool
  readers : List LogReader

inductive PipelineMove where
  | worker (ev : WorkerEvent)
  -- the `INSERT` of the batch in hand, or its failure, which is only logged
  | execute (fails : Bool)
  | recompute (provider model : String) (inputPer1k cachedInputPer1k outputPer1k : ℚ)
      (fromTs toTs : Option Int)
  | list (q : LogQuery)
  | nextPage (i : ℕ)

namespace LogPipeline
variable (toJson : Value → String) (json : SqlJson)

def init (existing : List LogRow) : LogPipeline := ⟨.init, existing, false, []⟩

def batch (s : LogPipeline) : List RequestLogRecord := s.worker.handed.getLast?.getD []

def recompute (s : LogPipeline) (provider model : String)
    (inputPer1k cachedInputPer1k outputPer1k : ℚ) (fromTs toTs : Option Int) : List LogRow :=
  match SqlLogStore.recomputeCosts .sqlite json s.requestLogs provider model inputPer1k
    cachedInputPer1k outputPer1k fromTs toTs with
  | some (table, _) => table
  | none => s.requestLogs

def step (s : LogPipeline) : PipelineMove → Option LogPipeline
  | .worker ev =>
    match ev with
    -- the worker goes on when its statement has returned
    | .inserted => if s.executed then (s.worker.step .sqlite ev).map fun worker =>
        { s with worker, executed := false } else none
    | _ => (s.worker.step .sqlite ev).map fun worker => { s with worker }
  | .execute fails =>
    if s.worker.inserting ∧ ¬s.executed then some { s with
      requestLogs := if fails then s.requestLogs
        else LogBackend.sqlite.insert s.requestLogs (s.batch.map (RequestLogRecord.toRow toJson))
      executed := true }
    else none
  | .recompute provider model a b c fromTs toTs =>
    if s.worker.inserting then none
    else some { s with requestLogs := s.recompute json provider model a b c fromTs toTs }
  | .list q => some { s with readers := s.readers ++ [⟨q, s.requestLogs, [], q.cursor, false⟩] }
  | .nextPage i =>
    match s.readers[i]? with
    | some r => if r.finished then none
      else some { s with readers := s.readers.set i (r.turn s.requestLogs) }
    | none => none

/-- `request_ts` is an `i64`. -/
def Typed : LogPipeline → PipelineMove → Prop
  | _, .worker (.append rec) => InI64 rec.requestTs
  | _, _ => True

/-! ### The table -/

theorem uncosted_fields {row row' : LogRow} (h : row'.uncosted = row.uncosted) :
    row'.id = row.id ∧ row'.requestTs = row.requestTs ∧
      (∀ q : LogQuery, q.filters row' = q.filters row) ∧
      (SqliteLogStore.read row').uncosted = (SqliteLogStore.read row).uncosted := by
  have hid := congrArg LogRow.id h
  have hts := congrArg LogRow.requestTs h
  have hfilters : ∀ q : LogQuery, q.filters row'.uncosted = q.filters row.uncosted := by
    intro q
    rw [h]
  have hread := congrArg (fun row => (SqliteLogStore.read row).uncosted) h
  exact ⟨hid, hts, hfilters, hread⟩

section
variable {toJson : Value → String} {json : SqlJson} {s t : LogPipeline}

/-- Each row is still there, but for its costs. -/
def Carries (table table' : List LogRow) : Prop :=
  ∀ row ∈ table, ∃ row' ∈ table', row'.uncosted = row.uncosted

theorem Carries.refl (table : List LogRow) : Carries table table := fun row h => ⟨row, h, rfl⟩

theorem Carries.trans {table table' table'' : List LogRow} (h : Carries table table')
    (h' : Carries table' table'') : Carries table table'' := by
  intro row hrow
  obtain ⟨row', hrow', heq⟩ := h row hrow
  obtain ⟨row'', hrow'', heq'⟩ := h' row' hrow'
  exact ⟨row'', hrow'', heq'.trans heq⟩

theorem recompute_map (json : SqlJson) (s : LogPipeline) (provider model : String) (a b c : ℚ)
    (fromTs toTs : Option Int) : ∃ f : LogRow → LogRow, (∀ row, (f row).uncosted = row.uncosted) ∧
      s.recompute json provider model a b c fromTs toTs = s.requestLogs.map f := by
  unfold recompute
  split
  · rename_i table count h
    simp only [SqlLogStore.recomputeCosts] at h
    split at h
    · cases h
      refine ⟨_, fun row => ?_, rfl⟩
      split
      · rfl
      · rfl
    · cases h
  · exact ⟨id, fun _ => rfl, (List.map_id _).symm⟩

/-- A row that was there, or that comes from a record the channel accepted. -/
def Logged (toJson : Value → String) (existing : List LogRow) (accepted : List RequestLogRecord)
    (row : LogRow) : Prop :=
  row ∈ existing ∨ ∃ rec ∈ accepted, row = rec.toRow toJson

theorem Logged.mono {existing : List LogRow} {accepted accepted' : List RequestLogRecord}
    {row : LogRow} (h : Logged toJson existing accepted row) (haccepted : accepted <+: accepted') :
    Logged toJson existing accepted' row := by
  rcases h with hold | ⟨rec, hrec, heq⟩
  · exact .inl hold
  · exact .inr ⟨rec, haccepted.subset hrec, heq⟩

/-- What every run keeps of the worker and its table. -/
structure Kept (toJson : Value → String) (existing : List LogRow) (s : LogPipeline) : Prop where
  worker : s.worker.Ordered .sqlite
  typed : ∀ rec ∈ s.worker.accepted, InI64 rec.requestTs
  ids : (s.requestLogs.map LogRow.id).Nodup
  timestamps : ∀ row ∈ s.requestLogs, InI64 row.requestTs
  logged : ∀ row ∈ s.requestLogs, ∃ source, Logged toJson existing s.worker.accepted source ∧
    source.uncosted = row.uncosted

theorem Kept.batch_subset {existing : List LogRow} (h : Kept toJson existing s) :
    s.batch ⊆ s.worker.accepted := by
  intro rec hrec
  unfold batch at hrec
  rw [h.worker.kept.fifo, List.append_assoc]
  refine List.mem_append_left _ ?_
  cases hlast : s.worker.handed.getLast? with
  | none =>
    rw [hlast] at hrec
    cases hrec
  | some last =>
    rw [hlast] at hrec
    exact List.mem_flatten.mpr ⟨last, List.mem_of_getLast? hlast, hrec⟩

end

/-! ### Moves of the worker -/

section
variable {w w' : LogWorker}

theorem flushThen_effect (w : LogWorker) (next : AfterBatch) :
    (w.flushThen next).handed = w.handed ∧ (w.flushThen next).inserting = false := by
  unfold LogWorker.flushThen
  split
  · cases next with
    | select => exact ⟨rfl, rfl⟩
    | answer reply => exact ⟨rfl, rfl⟩
    | exit => exact ⟨rfl, rfl⟩
  · exact ⟨rfl, rfl⟩

theorem handle_effect (cmd : WorkerCmd) (hidle : w.inserting = false) :
    (w.handle .sqlite cmd).accepted = w.accepted ∧ (w.handle .sqlite cmd).handed = w.handed ∧
      (w.handle .sqlite cmd).inserting = false := by
  cases cmd with
  | record rec =>
    simp only [LogWorker.handle]
    split
    · exact ⟨(LogWorker.flushThen_channel _ _).2, flushThen_effect _ _⟩
    · exact ⟨rfl, rfl, hidle⟩
  | flush reply => exact ⟨(LogWorker.flushThen_channel _ _).2, flushThen_effect _ _⟩

/-- Only an append adds to the accepted records; only the lock hands a batch to an `INSERT`. -/
theorem worker_effect {ev : WorkerEvent} (h : w.step .sqlite ev = some w') :
    (w'.accepted = w.accepted ∨ ∃ rec, ev = .append rec ∧ w'.accepted = w.accepted ++ [rec]) ∧
      (ev = .locked ∧ w.inserting = false ∧ w'.inserting = true ∧ w'.handed = w.handed ++ [w.buf] ∨
        ev = .inserted ∧ w.inserting = true ∧ w'.inserting = false ∧ w'.handed = w.handed ∨
        ev ≠ .inserted ∧ w'.inserting = w.inserting ∧ w'.handed = w.handed) := by
  cases ev with
  | append rec =>
    simp only [LogWorker.step] at h
    split at h
    · cases h
    · split at h
      · cases h
        exact ⟨.inr ⟨rec, rfl, rfl⟩, .inr (.inr ⟨by simp, rfl, rfl⟩)⟩
      · cases h
        exact ⟨.inl rfl, .inr (.inr ⟨by simp, rfl, rfl⟩)⟩
  | flush =>
    simp only [LogWorker.step] at h
    split at h
    · cases h
    · cases h
      exact ⟨.inl rfl, .inr (.inr ⟨by simp, rfl, rfl⟩)⟩
  | receive =>
    simp only [LogWorker.step] at h
    split at h
    · rename_i hphase
      have hidle : w.inserting = false := by rw [LogWorker.inserting, hphase]
      unfold LogWorker.receive at h
      split at h
      · rename_i cmd rest hqueue
        cases h
        obtain ⟨haccepted, hhanded, hstill⟩ :=
          handle_effect (w := { w with queue := rest }) cmd hidle
        exact ⟨.inl haccepted, .inr (.inr ⟨by simp, hstill.trans hidle.symm, hhanded⟩)⟩
      · split at h
        · cases h
          obtain ⟨hhanded, hstill⟩ := flushThen_effect w .exit
          exact ⟨.inl (LogWorker.flushThen_channel _ _).2,
            .inr (.inr ⟨by simp, hstill.trans hidle.symm, hhanded⟩)⟩
        · cases h
    · cases h
  | tick =>
    simp only [LogWorker.step] at h
    split at h
    · rename_i hphase
      have hidle : w.inserting = false := by rw [LogWorker.inserting, hphase]
      cases h
      obtain ⟨hhanded, hstill⟩ := flushThen_effect w .select
      exact ⟨.inl (LogWorker.flushThen_channel _ _).2,
        .inr (.inr ⟨by simp, hstill.trans hidle.symm, hhanded⟩)⟩
    · cases h
  | locked =>
    simp only [LogWorker.step] at h
    split at h
    · rename_i next hphase
      have hidle : w.inserting = false := by rw [LogWorker.inserting, hphase]
      cases h
      exact ⟨.inl rfl, .inl ⟨rfl, hidle, rfl, rfl⟩⟩
    · cases h
  | inserted =>
    simp only [LogWorker.step] at h
    split at h
    · rename_i next hphase
      have hbusy : w.inserting = true := by rw [LogWorker.inserting, hphase]
      cases h
      refine ⟨.inl (LogWorker.after_channel _ _).2, .inr (.inl ⟨rfl, hbusy, ?_⟩)⟩
      cases next with
      | select => exact ⟨rfl, rfl⟩
      | answer reply => exact ⟨rfl, rfl⟩
      | exit => exact ⟨rfl, rfl⟩
    · cases h
  | close =>
    cases h
    exact ⟨.inl rfl, .inr (.inr ⟨by simp, rfl, rfl⟩)⟩

theorem accepted_mono {ev : WorkerEvent} (h : w.step .sqlite ev = some w') :
    w.accepted <+: w'.accepted := by
  obtain hsame | ⟨rec, -, hmore⟩ := (worker_effect h).1
  · rw [hsame]
  · rw [hmore]
    exact List.prefix_append _ _

end

/-! ### Moves of the pipeline -/

section
variable {toJson : Value → String} {json : SqlJson} {existing : LogTable} {s t : LogPipeline}

theorem step_worker {ev : WorkerEvent} (h : s.step toJson json (.worker ev) = some t) :
    s.worker.step .sqlite ev = some t.worker ∧ t.requestLogs = s.requestLogs ∧
      t.readers = s.readers ∧
        (ev = .inserted ∧ s.executed = true ∧ t.executed = false ∨
          ev ≠ .inserted ∧ t.executed = s.executed) := by
  cases ev with
  | inserted =>
    simp only [step] at h
    split at h
    · rename_i hexecuted
      obtain ⟨w, hw, rfl⟩ := Option.map_eq_some_iff.mp h
      exact ⟨hw, rfl, rfl, .inl ⟨rfl, hexecuted, rfl⟩⟩
    · cases h
  | append | flush | receive | tick | locked | close =>
    simp only [step] at h
    obtain ⟨w, hw, rfl⟩ := Option.map_eq_some_iff.mp h
    exact ⟨hw, rfl, rfl, .inr ⟨by simp, rfl⟩⟩

theorem insert_cases (table rows : List LogRow) :
    LogBackend.sqlite.insert table rows = table ∨
      LogBackend.sqlite.insert table rows = table ++ rows ∧ (rows.map LogRow.id).Nodup ∧
        ∀ row ∈ rows, row.id ∉ table.map LogRow.id := by
  unfold LogBackend.insert
  split
  · rename_i h
    simp only [LogBackend.insertable, Bool.and_eq_true, decide_eq_true_eq, List.all_eq_true] at h
    exact .inr ⟨rfl, h.1.2, h.2⟩
  · exact .inl rfl

theorem Kept.init (toJson : Value → String) (existing : LogTable) :
    Kept toJson existing.rows (.init existing.rows) := by
  refine ⟨LogWorker.Ordered.init, ?_, existing.ids, existing.timestamps, ?_⟩
  · intro rec hrec
    cases hrec
  · intro row hrow
    exact ⟨row, .inl hrow, rfl⟩

theorem Kept.insert (h : Kept toJson existing.rows s)
    (hnew : t.worker = s.worker) (htable : t.requestLogs =
      LogBackend.sqlite.insert s.requestLogs (s.batch.map (RequestLogRecord.toRow toJson))) :
    Kept toJson existing.rows t := by
  have hbatch := h.batch_subset
  rcases insert_cases s.requestLogs (s.batch.map (RequestLogRecord.toRow toJson)) with
    hsame | ⟨hmore, hdistinct, hfresh⟩
  · rw [hsame] at htable
    exact ⟨hnew ▸ h.worker, hnew ▸ h.typed, htable ▸ h.ids, htable ▸ h.timestamps,
      hnew ▸ htable ▸ h.logged⟩
  · rw [hmore] at htable
    refine ⟨hnew ▸ h.worker, hnew ▸ h.typed, ?_, ?_, ?_⟩
    · rw [htable, List.map_append]
      refine h.ids.append hdistinct fun id hold hid => ?_
      obtain ⟨row, hrow, rfl⟩ := List.mem_map.mp hid
      exact hfresh row hrow hold
    · intro row hrow
      rw [htable] at hrow
      rcases List.mem_append.mp hrow with hold | hrow
      · exact h.timestamps row hold
      · obtain ⟨rec, hrec, rfl⟩ := List.mem_map.mp hrow
        exact h.typed rec (hbatch hrec)
    · intro row hrow
      rw [htable] at hrow
      rw [hnew]
      rcases List.mem_append.mp hrow with hold | hrow
      · exact h.logged row hold
      · obtain ⟨rec, hrec, rfl⟩ := List.mem_map.mp hrow
        exact ⟨_, .inr ⟨rec, hbatch hrec, rfl⟩, rfl⟩

theorem Kept.map (h : Kept toJson existing.rows s) {f : LogRow → LogRow}
    (hf : ∀ row, (f row).uncosted = row.uncosted) (hnew : t.worker = s.worker)
    (htable : t.requestLogs = s.requestLogs.map f) : Kept toJson existing.rows t := by
  have hid : ∀ row, (f row).id = row.id := fun row => (uncosted_fields (hf row)).1
  have hts : ∀ row, (f row).requestTs = row.requestTs := fun row => (uncosted_fields (hf row)).2.1
  refine ⟨hnew ▸ h.worker, hnew ▸ h.typed, ?_, ?_, ?_⟩
  · rw [htable, List.map_map, show LogRow.id ∘ f = LogRow.id from funext hid]
    exact h.ids
  · intro row hrow
    rw [htable] at hrow
    obtain ⟨old, hold, rfl⟩ := List.mem_map.mp hrow
    rw [hts]
    exact h.timestamps old hold
  · intro row hrow
    rw [htable] at hrow
    obtain ⟨old, hold, rfl⟩ := List.mem_map.mp hrow
    obtain ⟨source, hsource, heq⟩ := h.logged old hold
    exact ⟨source, hnew ▸ hsource, heq.trans (hf old).symm⟩

/-- Whatever happens the rows stay, and the records that the channel accepted. -/
theorem Kept.step (h : Kept toJson existing.rows s) {m : PipelineMove} (hm : Typed s m)
    (hstep : s.step toJson json m = some t) :
    Kept toJson existing.rows t ∧ Carries s.requestLogs t.requestLogs ∧
      s.worker.accepted <+: t.worker.accepted := by
  cases m with
  | worker ev =>
    obtain ⟨hworker, htable, -⟩ := step_worker hstep
    have haccepted := accepted_mono hworker
    refine ⟨⟨h.worker.step hworker, ?_, htable ▸ h.ids, htable ▸ h.timestamps, ?_⟩,
      htable ▸ .refl _, haccepted⟩
    · obtain hsame | ⟨rec, rfl, hmore⟩ := (worker_effect hworker).1
      · rw [hsame]
        exact h.typed
      · rw [hmore]
        intro rec' hrec'
        rcases List.mem_append.mp hrec' with hold | hnew
        · exact h.typed rec' hold
        · cases List.mem_singleton.mp hnew
          exact hm
    · intro row hrow
      rw [htable] at hrow
      obtain ⟨source, hsource, heq⟩ := h.logged row hrow
      exact ⟨source, hsource.mono haccepted, heq⟩
  | execute fails =>
    simp only [LogPipeline.step] at hstep
    split at hstep
    · cases hstep
      cases fails with
      | true =>
        exact ⟨⟨h.worker, h.typed, h.ids, h.timestamps, h.logged⟩, .refl _, List.prefix_rfl⟩
      | false =>
        refine ⟨h.insert rfl rfl, ?_, List.prefix_rfl⟩
        intro row hrow
        exact ⟨row, insert_subset _ _ hrow, rfl⟩
    · cases hstep
  | recompute provider model a b c fromTs toTs =>
    simp only [LogPipeline.step] at hstep
    split at hstep
    · cases hstep
    · cases hstep
      obtain ⟨f, hf, hmap⟩ := recompute_map json s provider model a b c fromTs toTs
      refine ⟨h.map hf rfl hmap, ?_, List.prefix_rfl⟩
      intro row hrow
      exact ⟨f row, by rw [hmap]; exact List.mem_map_of_mem hrow, hf row⟩
  | list q =>
    cases hstep
    exact ⟨⟨h.worker, h.typed, h.ids, h.timestamps, h.logged⟩, .refl _, List.prefix_rfl⟩
  | nextPage i =>
    simp only [LogPipeline.step] at hstep
    split at hstep
    · split at hstep
      · cases hstep
      · cases hstep
        exact ⟨⟨h.worker, h.typed, h.ids, h.timestamps, h.logged⟩, .refl _, List.prefix_rfl⟩
    · cases hstep

/-- Without an update the rows stay as they are, and new ones are rows of accepted records. -/
theorem Kept.step_rows (h : Kept toJson existing.rows s) {m : PipelineMove}
    (hm : ∀ provider model a b c fromTs toTs, m ≠ .recompute provider model a b c fromTs toTs)
    (hstep : s.step toJson json m = some t) :
    s.requestLogs ⊆ t.requestLogs ∧ ∀ row ∈ t.requestLogs, row ∈ s.requestLogs ∨
      ∃ rec ∈ t.worker.accepted, row = rec.toRow toJson := by
  cases m with
  | worker ev =>
    rw [(step_worker hstep).2.1]
    exact ⟨List.Subset.refl _, fun row hrow => .inl hrow⟩
  | execute fails =>
    simp only [LogPipeline.step] at hstep
    split at hstep
    · cases hstep
      cases fails with
      | true => exact ⟨List.Subset.refl _, fun row hrow => .inl hrow⟩
      | false =>
        refine ⟨insert_subset _ _, fun row hrow => ?_⟩
        rcases insert_cases s.requestLogs (s.batch.map (RequestLogRecord.toRow toJson)) with
          hsame | ⟨hmore, -⟩
        · exact .inl (hsame ▸ hrow)
        · replace hrow : row ∈ s.requestLogs ++ s.batch.map (RequestLogRecord.toRow toJson) :=
            hmore ▸ hrow
          rcases List.mem_append.mp hrow with hold | hnew
          · exact .inl hold
          · obtain ⟨rec, hrec, rfl⟩ := List.mem_map.mp hnew
            exact .inr ⟨rec, h.batch_subset hrec, rfl⟩
    · cases hstep
  | recompute provider model a b c fromTs toTs => exact absurd rfl (hm provider model a b c fromTs toTs)
  | list q =>
    cases hstep
    exact ⟨List.Subset.refl _, fun row hrow => .inl hrow⟩
  | nextPage i =>
    simp only [LogPipeline.step] at hstep
    split at hstep
    · split at hstep
      · cases hstep
      · cases hstep
        exact ⟨List.Subset.refl _, fun row hrow => .inl hrow⟩
    · cases hstep

end

end LogPipeline

def emptyLogs : LogTable := ⟨[], List.nodup_nil, fun _ h => by cases h⟩

end AiGateway.Storage
