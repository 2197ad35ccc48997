import AiGateway.Storage.LogPipeline
import Mathlib.Data.Int.ConditionallyCompleteOrder

/-!
# Pages of a log that grows

A cursor names the last row of its page, and the rows behind it stay behind it whatever is inserted
or repriced. So a client gets no row twice and, when it has the last page, each row that was
there when it began.
-/

namespace AiGateway.Storage
open AiGateway.Core AiGateway.Library.Keyset AiGateway.Library.MachineInt AiGateway.Library.Runs
open LogPipeline

/-- Newest first, and by id among rows of one time. -/
def RequestLogRow.position (r : RequestLogRow) : Int ×ₗ String := toLex (r.requestTs, r.id)

namespace LogReader

def walk (r : LogReader) : Walk RequestLogRow (Int ×ₗ String) where
  read := r.items
  bound := (r.cursor.bind parseCursor).map toLex
  finished := r.finished

/-- The rows that the client is to get. -/
def Due (r : LogReader) (row : LogRow) : Prop :=
  row ∈ r.due ∧ r.query.filters row = true ∧ r.query.belowCursor row = true

structure Kept (toJson : Value → String) (existing : List LogRow) (s : LogPipeline)
    (r : LogReader) : Prop where
  walk : r.walk.Sound RequestLogRow.position fun p =>
    ∃ row, r.Due row ∧ (SqliteLogStore.read row).position = p
  carried : Carries r.due s.requestLogs
  logged : ∀ item ∈ r.items, ∃ source, Logged toJson existing s.worker.accepted source ∧
    r.query.filters source = true ∧ item.uncosted = (SqliteLogStore.read source).uncosted
  faithful : ∀ item ∈ r.items, ∀ row, r.Due row → row.id = item.id →
    item.uncosted = (SqliteLogStore.read row).uncosted

section
variable {toJson : Value → String} {existing : List LogRow} {s t : LogPipeline} {r : LogReader}

theorem position_lt (a b : LogRow) :
    (SqliteLogStore.read b).position < (SqliteLogStore.read a).position ↔ a.Above b :=
  Prod.Lex.toLex_lt_toLex

theorem behind_iff (cursor : Option String) (q : LogQuery) (row : LogRow) :
    Behind ((cursor.bind parseCursor).map toLex) (SqliteLogStore.read row).position ↔
      ({ q with cursor } : LogQuery).belowCursor row = true := by
  unfold LogQuery.belowCursor Behind
  cases hcursor : cursor.bind parseCursor with
  | none => simp
  | some p =>
    obtain ⟨ts, id⟩ := p
    simp only [Option.map_some, Option.some.injEq, forall_eq', Option.all_some, belowPosition,
      decide_eq_true_eq]
    exact Prod.Lex.toLex_lt_toLex

theorem Kept.mono (h : r.Kept toJson existing s) (htable : Carries s.requestLogs t.requestLogs)
    (haccepted : s.worker.accepted <+: t.worker.accepted) : r.Kept toJson existing t := by
  refine ⟨h.walk, h.carried.trans htable, ?_, h.faithful⟩
  intro item hitem
  obtain ⟨source, hsource, hrest⟩ := h.logged item hitem
  exact ⟨source, hsource.mono haccepted, hrest⟩

/-- A client that begins. -/
theorem Kept.begin (toJson : Value → String) (existing : List LogRow) (s : LogPipeline)
    (q : LogQuery) : Kept toJson existing s ⟨q, s.requestLogs, [], q.cursor, false⟩ := by
  refine ⟨⟨List.Pairwise.nil, ?_, ?_⟩, .refl _, ?_, ?_⟩
  · intro _ a ha
    cases ha
  · rintro p ⟨row, ⟨-, -, hbelow⟩, rfl⟩
    exact .inr ⟨rfl, (behind_iff q.cursor q row).mpr hbelow⟩
  · intro item hitem
    cases hitem
  · intro item hitem
    cases hitem

/-- The cursor of a page, read back, is the position of its last row. -/
theorem nextCursor_position {found : List RequestLogRow} {limit : ℕ} (cursor : Option String)
    (hts : ∀ item ∈ found, InI64 item.requestTs) :
    (((page limit RequestLogRow.cursor found).2.or cursor).bind parseCursor).map toLex =
      (page limit RequestLogRow.position found).2.or ((cursor.bind parseCursor).map toLex) := by
  simp only [page]
  split
  · cases hlast : (found.take limit).getLast? with
    | none => rfl
    | some item =>
      have hmem : item ∈ found := List.mem_of_mem_take (List.mem_of_getLast? hlast)
      have hparse : parseCursor item.cursor = some (item.requestTs, item.id) :=
        parseCursor_encodeCursor (hts item hmem) item.id
      simp [hparse, RequestLogRow.position]
  · rfl

/-- What the next page is cut from. -/
def listing (r : LogReader) (table : LogTable) : List RequestLogRow :=
  (table.listing { r.query with cursor := r.cursor }).map SqliteLogStore.read

theorem query_page (r : LogReader) (table : LogTable) :
    let found := page r.query.effectiveLimit RequestLogRow.cursor
      ((r.listing table).take (r.query.effectiveLimit + 1))
    let page := SqliteLogStore.query table.rows { r.query with cursor := r.cursor }
    page.items = found.1 ∧ page.nextCursor = found.2 := by
  have hpage := queryRows_page ({ r.query with cursor := r.cursor } : LogQuery).belowCursor
    SqliteLogStore.read table.rows { r.query with cursor := r.cursor }
  exact ⟨congrArg Prod.fst hpage, congrArg Prod.snd hpage⟩

theorem page_isNone {κ κ' : Type} (key : RequestLogRow → κ) (key' : RequestLogRow → κ') (limit : ℕ)
    (found : List RequestLogRow) :
    (page limit key found).2.isNone = (page limit key' found).2.isNone := by
  simp only [page]
  split
  · rw [Option.isNone_map, Option.isNone_map]
  · rfl

theorem turn_walk (r : LogReader) (table : LogTable) :
    (r.turn table.rows).walk = r.walk.turn RequestLogRow.position r.query.effectiveLimit
      ((r.listing table).take (r.query.effectiveLimit + 1)) := by
  have hts : ∀ item ∈ (r.listing table).take (r.query.effectiveLimit + 1), InI64 item.requestTs := by
    intro item hitem
    obtain ⟨row, hrow, rfl⟩ := List.mem_map.mp (List.mem_of_mem_take hitem)
    exact table.timestamps row (LogTable.mem_listing.mp hrow).1
  obtain ⟨hitems, hnext⟩ := query_page r table
  unfold walk turn Walk.turn
  simp only [hitems, hnext, Walk.mk.injEq]
  exact ⟨rfl, nextCursor_position r.cursor hts, page_isNone _ _ _ _⟩

theorem mem_turn_items {table : LogTable} {item : RequestLogRow}
    (h : item ∈ (r.turn table.rows).items) :
    item ∈ r.items ∨ ∃ row ∈ table.rows, r.query.filters row = true ∧
      item = SqliteLogStore.read row := by
  rcases List.mem_append.mp h with hold | hnew
  · exact .inl hold
  · rw [(query_page r table).1] at hnew
    obtain ⟨row, hrow, heq⟩ := List.mem_map.mp (List.mem_of_mem_take (List.mem_of_mem_take hnew))
    obtain ⟨hmem, hfilters, -⟩ := LogTable.mem_listing.mp hrow
    exact .inr ⟨row, hmem, hfilters, heq.symm⟩

theorem Kept.turn (h : r.Kept toJson existing s) (hpipeline : LogPipeline.Kept toJson existing s)
    (hopen : r.finished = false) : (r.turn s.requestLogs).Kept toJson existing s := by
  have htable : ∃ table : LogTable, table.rows = s.requestLogs :=
    ⟨⟨s.requestLogs, hpipeline.ids, hpipeline.timestamps⟩, rfl⟩
  obtain ⟨table, htable⟩ := htable
  have hcarried := h.carried
  rw [← htable] at hcarried ⊢
  refine ⟨?_, ?_, ?_, ?_⟩
  · rw [turn_walk]
    refine Walk.Sound.turn h.walk hopen r.query.effectiveLimit_pos ?_ ?_ ?_
    · refine List.pairwise_map.mpr ((table.listing_above _).imp fun habove => ?_)
      exact (position_lt _ _).mpr habove
    · intro item hitem
      obtain ⟨row, hrow, rfl⟩ := List.mem_map.mp hitem
      exact (behind_iff r.cursor r.query row).mpr (LogTable.mem_listing.mp hrow).2.2
    · rintro p ⟨row, ⟨hdue, hfilters, -⟩, rfl⟩ hahead
      obtain ⟨row', hmem, heq⟩ := hcarried row hdue
      obtain ⟨hid, hts, hsame, -⟩ := uncosted_fields heq
      have hposition : (SqliteLogStore.read row').position = (SqliteLogStore.read row).position := by
        unfold RequestLogRow.position
        rw [show (SqliteLogStore.read row').id = _ from hid,
          show (SqliteLogStore.read row').requestTs = _ from hts]
        rfl
      refine ⟨_, List.mem_map_of_mem (LogTable.mem_listing.mpr ⟨hmem, ?_, ?_⟩), hposition⟩
      · exact (hsame r.query).trans hfilters
      · exact (behind_iff r.cursor r.query row').mp (hposition ▸ hahead)
  · exact htable ▸ h.carried
  · intro item hitem
    rcases mem_turn_items hitem with hold | ⟨row, hrow, hfilters, rfl⟩
    · exact h.logged item hold
    · obtain ⟨source, hsource, heq⟩ := hpipeline.logged row (htable ▸ hrow)
      obtain ⟨-, -, hsame, hread⟩ := uncosted_fields heq
      exact ⟨source, hsource, (hsame r.query).trans hfilters, hread.symm⟩
  · intro item hitem row hdue hid
    rcases mem_turn_items hitem with hold | ⟨row', hrow', -, rfl⟩
    · exact h.faithful item hold row hdue hid
    · obtain ⟨row'', hrow'', heq⟩ := hcarried row hdue.1
      obtain ⟨hid'', -, -, hread⟩ := uncosted_fields heq
      have hsame : row'' = row' :=
        List.inj_on_of_nodup_map table.ids hrow'' hrow' (hid''.trans hid)
      exact hsame ▸ hread

end

end LogReader

section
variable {toJson : Value → String} {json : SqlJson} {existing : LogTable} {s t : LogPipeline}

theorem readers_step (h : LogPipeline.Kept toJson existing.rows s)
    (hreaders : ∀ r ∈ s.readers, r.Kept toJson existing.rows s) {m : PipelineMove}
    (hm : Typed s m) (hstep : s.step toJson json m = some t) :
    ∀ r ∈ t.readers, r.Kept toJson existing.rows t := by
  obtain ⟨-, htable, haccepted⟩ := h.step hm hstep
  have hold : ∀ r ∈ s.readers, r.Kept toJson existing.rows t :=
    fun r hr => (hreaders r hr).mono htable haccepted
  cases m with
  | worker ev =>
    rw [(step_worker hstep).2.2.1]
    exact hold
  | execute fails =>
    simp only [LogPipeline.step] at hstep
    split at hstep
    · cases hstep
      exact hold
    · cases hstep
  | recompute provider model a b c fromTs toTs =>
    simp only [LogPipeline.step] at hstep
    split at hstep
    · cases hstep
    · cases hstep
      exact hold
  | list q =>
    cases hstep
    intro r hr
    rcases List.mem_append.mp hr with hin | hnew
    · exact hold r hin
    · cases List.mem_singleton.mp hnew
      exact .begin toJson existing.rows _ q
  | nextPage i =>
    simp only [LogPipeline.step] at hstep
    split at hstep
    · rename_i r hi
      split at hstep
      · cases hstep
      · rename_i hopen
        cases hstep
        intro r' hr'
        rcases List.mem_or_eq_of_mem_set hr' with hin | rfl
        · exact hold r' hin
        · have hr := hreaders r (List.mem_of_getElem? hi)
          exact (hr.turn h (Bool.not_eq_true _ ▸ hopen)).mono htable haccepted
    · cases hstep

theorem kept_of_reaches
    (hrun : Reaches (LogPipeline.step toJson json) Typed (.init existing.rows) s) :
    LogPipeline.Kept toJson existing.rows s ∧ ∀ r ∈ s.readers, r.Kept toJson existing.rows s := by
  induction hrun with
  | start =>
    refine ⟨.init toJson existing, fun r hr => ?_⟩
    cases hr
  | next m _ hm hstep ih =>
    obtain ⟨hs, hreaders⟩ := ih
    exact ⟨(hs.step hm hstep).1, readers_step hs hreaders hm hstep⟩

/-- Whatever is appended, inserted and repriced between its pages, a client gets its rows newest
first and none twice, each of them logged and, but for its cost, as it was logged; when it has
finished it has every row that it asked for and that was there when it began. -/
theorem pages_once
    (hrun : Reaches (LogPipeline.step toJson json) Typed (.init existing.rows) s) {r : LogReader}
    (hr : r ∈ s.readers) :
    r.items.Pairwise (fun a b => b.position < a.position) ∧
      (∀ item ∈ r.items, ∃ source, Logged toJson existing.rows s.worker.accepted source ∧
        r.query.filters source = true ∧ item.uncosted = (SqliteLogStore.read source).uncosted) ∧
      (r.finished = true → ∀ row, r.Due row →
        ∃ item ∈ r.items, item.uncosted = (SqliteLogStore.read row).uncosted) := by
  obtain ⟨-, hreaders⟩ := kept_of_reaches hrun
  have hreader := hreaders r hr
  refine ⟨hreader.walk.sorted, hreader.logged, ?_⟩
  intro hfinished row hdue
  rcases hreader.walk.complete _ ⟨row, hdue, rfl⟩ with ⟨item, hitem, hposition⟩ | ⟨hunfinished, -⟩
  · have hid : row.id = item.id := (congrArg (fun p => (ofLex p).2) hposition).symm
    exact ⟨item, hitem, hreader.faithful item hitem row hdue hid⟩
  · exact Bool.noConfusion (hfinished.symm.trans hunfinished)

end

def everyRow : LogQuery :=
  { projectId := none, gatewayKeyId := none, logNamespace := none, model := none, status := none
    fromTs := none, toTs := none, limit := 1, cursor := none }

/-- The moves that bring records into the table. -/
def appended (ids : List String) : List PipelineMove :=
  ids.map (fun id => .worker (.append (plainRecord id none))) ++
    ids.map (fun _ => .worker .receive) ++
      [.worker .tick, .worker .locked, .execute false, .worker .inserted]

def pagedRun : List PipelineMove :=
  appended ["r1", "r2"] ++ [.list everyRow, .nextPage 0] ++ appended ["r3"] ++ [.nextPage 0]

/-- A record is inserted between the two pages. -/
theorem pages_once_growing : ∃ s r, run (LogPipeline.step (fun _ => "null") tracedJson)
      (.init emptyLogs.rows) pagedRun = some s ∧ r ∈ s.readers ∧ r.finished = true ∧
      r.items.map RequestLogRow.id = ["r2", "r1"] ∧ s.requestLogs.length = 3 ∧
      ∀ row, r.Due row → ∃ item ∈ r.items, item.uncosted = (SqliteLogStore.read row).uncosted := by
  obtain ⟨s, hs, hat⟩ := Option.map_eq_some_iff.mp
    (show (run (LogPipeline.step (fun _ => "null") tracedJson) (.init emptyLogs.rows) pagedRun).map
      (fun s => (s.readers.map fun r => (r.finished, r.items.map RequestLogRow.id),
        s.requestLogs.length)) = some ([(true, ["r2", "r1"])], 3) by decide +kernel)
  have htyped : ∀ m ∈ pagedRun, ∀ s, Typed s m := by
    simp [pagedRun, appended, Typed, plainRecord, InI64]
  obtain ⟨hreaders, hrows⟩ := Prod.mk.inj hat
  obtain ⟨r, hr, hpages⟩ := List.mem_map.mp (hreaders ▸ List.mem_singleton_self _)
  obtain ⟨hfinished, hids⟩ := Prod.mk.inj hpages
  obtain ⟨-, -, hall⟩ := pages_once (Reaches.of_guarded_run _ htyped .start hs) hr
  exact ⟨s, r, hs, hr, hfinished, hids, hrows, hall hfinished⟩

end AiGateway.Storage
