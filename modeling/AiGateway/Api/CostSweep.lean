import AiGateway.Api.Recompute
import AiGateway.Storage.FlushedLogs

/-!
# A sweep over a log that grows (`routes/admin/pricing.rs:138-192`, `sqlite/logs.rs:317-402`)

The sweep flushes the log, takes the live catalog, asks for the keys of the rows and updates key by
key. Requests are logged meanwhile, batches inserted and other catalogs published.
-/

namespace AiGateway.Storage.SqlLogStore

def costKey (json : SqlJson) (row : LogRow) : Option (SqlScalar × String) :=
  match LogBackend.sqlite.provider json row, row.model with
  | some provider, some model => some (provider, model)
  | _, _ => none

/-- `distinct_cost_keys`, in some order; a provider that is no text is no `String`. -/
def distinctCostKeys (json : SqlJson) (table : List LogRow) (fromTs toTs : Option Int) :
    List (SqlScalar × String) :=
  ((table.filter fun row => (row.promptTokens.isSome || row.completionTokens.isSome) &&
    fromTs.all (· ≤ row.requestTs) && toTs.all (row.requestTs ≤ ·)).filterMap (costKey json)).dedup

end AiGateway.Storage.SqlLogStore

namespace AiGateway.Api
open AiGateway.Core AiGateway.Storage AiGateway.Library AiGateway.Library.Runs
open AiGateway.Storage.LogPipeline AiGateway.Library.MachineInt

def costKeyTexts (keys : List (String × String)) : List (SqlScalar × String) :=
  keys.map fun key => (.text key.1, key.2)

inductive SweepPhase where
  | idle
  -- the answer to its flush is due
  | flushing (reply : ℕ)
  | listing (catalog : PricingCatalog)
  | repricing (catalog : PricingCatalog) (todo : List (String × String))
      (response : RecomputeResponse)
  | done (catalog : PricingCatalog) (response : RecomputeResponse)

structure CostSweep where
  pipeline : LogPipeline
  -- the live catalog
  catalog : PricingCatalog
  phase : SweepPhase
  -- the records accepted when the sweep began, and the table when it asked for the keys
  before : List RequestLogRecord
  listed : List LogRow

inductive SweepMove where
  | pipeline (m : PipelineMove)
  | publish (catalog : PricingCatalog)
  | begin
  | flushed
  | list (keys : List (String × String))
  | next
  -- a statement of the sweep fails
  | fail

namespace CostSweep
variable (toJson : Value → String) (json : SqlJson) (body : RecomputeBody)

def init (existing : List LogRow) (catalog : PricingCatalog) : CostSweep :=
  ⟨.init existing, catalog, .idle, [], []⟩

/-- The update of one key. -/
def reprice (s : CostSweep) (catalog : PricingCatalog) (key : String × String)
    (todo : List (String × String)) (response : RecomputeResponse) : Option CostSweep :=
  match catalog.lookup key.1 key.2 with
  | none => some { s with phase := .repricing catalog todo { response with
      modelsWithoutPrice := response.modelsWithoutPrice ++ [key.1 ++ "/" ++ key.2] } }
  | some e =>
    if s.pipeline.worker.inserting then none
    else (SqlLogStore.recomputeCosts .sqlite json s.pipeline.requestLogs key.1 key.2
      (rate e.inputPer1k) (rate (e.cachedInputPer1k.getD e.inputPer1k)) (rate e.outputPer1k)
      body.fromTs body.toTs).map fun result =>
        { s with
          pipeline := { s.pipeline with requestLogs := result.1 }
          phase := .repricing catalog todo { response with
            updatedRows := response.updatedRows + result.2
            modelsMatched := response.modelsMatched + 1 } }

def step (s : CostSweep) : SweepMove → Option CostSweep
  | .pipeline m => (s.pipeline.step toJson json m).map fun pipeline => { s with pipeline }
  | .publish catalog => some { s with catalog }
  | .begin =>
    match s.phase with
    | .idle | .done _ _ => (s.pipeline.step toJson json (.worker .flush)).map fun pipeline =>
      { s with
        pipeline
        phase := .flushing s.pipeline.worker.flushes.length
        before := s.pipeline.worker.accepted }
    | _ => none
  | .flushed =>
    match s.phase with
    | .flushing reply =>
      if s.pipeline.worker.flushes[reply]?.any FlushCall.acked then
        some { s with phase := .listing s.catalog }
      else none
    | _ => none
  | .list keys =>
    match s.phase with
    | .listing catalog =>
      if (costKeyTexts keys).Perm (SqlLogStore.distinctCostKeys json s.pipeline.requestLogs
        body.fromTs body.toTs) then
        some { s with
          phase := .repricing catalog keys ⟨0, 0, []⟩
          listed := s.pipeline.requestLogs }
      else none
    | _ => none
  | .next =>
    match s.phase with
    | .repricing catalog [] response => some { s with phase := .done catalog response }
    | .repricing catalog (key :: todo) response => s.reprice json body catalog key todo response
    | _ => none
  | .fail => some { s with phase := .idle }

/-- No other update once the sweep has its keys. -/
def Allows : SweepPhase → PipelineMove → Prop
  | .repricing _ _ _, .recompute _ _ _ _ _ _ _ => False
  | .done _ _, .recompute _ _ _ _ _ _ _ => False
  | _, _ => True

def Alone (existing : List LogRow) (s : CostSweep) : SweepMove → Prop
  | .pipeline m => LogPipeline.Sound existing s.pipeline m ∧ Allows s.phase m
  | _ => True

/-! ### Keys and prices of a row -/

def Selects (key : String × String) (row : LogRow) : Prop :=
  LogBackend.sqlite.selects json key.1 key.2 body.fromTs body.toTs row = true

def recostAt (e : PricingEntry) (row : LogRow) : LogRow :=
  row.recost (rate e.inputPer1k) (rate (e.cachedInputPer1k.getD e.inputPer1k)) (rate e.outputPer1k)

/-- Counts that the `UPDATE` does not price otherwise than the calculator. -/
structure PlainCounts (row : LogRow) : Prop where
  fits : InI64 (row.promptTokens.getD 0 - row.cachedTokens.getD 0)
  cached : 0 ≤ row.cachedTokens.getD 0
  completion : 0 ≤ row.completionTokens.getD 0

/-- The row with the cost that the calculator computes. -/
def charged (e : PricingEntry) (row : LogRow) : LogRow :=
  let cost := (applyPrice e (row.promptTokens.getD 0) (row.completionTokens.getD 0)
    (row.cachedTokens.getD 0)).costUsd
  { row with wouldHaveCostUsd := some cost, costUsd := some (if row.cached ≠ 0 then 0 else cost) }

/-- The row is `old` at another price. -/
structure PricedRow (e : PricingEntry) (old row : LogRow) : Prop where
  uncosted : row.uncosted = old.uncosted
  charged : PlainCounts old → row = charged e old

section
variable {toJson : Value → String} {json : SqlJson} {body : RecomputeBody}

theorem selects_congr {row row' : LogRow} (h : row'.uncosted = row.uncosted)
    (key : String × String) : Selects json body key row' ↔ Selects json body key row := by
  have hsame : Selects json body key row'.uncosted ↔ Selects json body key row.uncosted := by
    rw [h]
  exact hsame

theorem recostAt_congr {row row' : LogRow} (h : row'.uncosted = row.uncosted) (e : PricingEntry) :
    recostAt e row' = recostAt e row := by
  have hsame : recostAt e row'.uncosted = recostAt e row.uncosted := by
    rw [h]
  exact hsame

theorem recostAt_uncosted (e : PricingEntry) (row : LogRow) :
    (recostAt e row).uncosted = row.uncosted := rfl

theorem recostAt_charged {row : LogRow} (h : PlainCounts row) (e : PricingEntry) :
    recostAt e row = charged e row := by
  have hcost : row.newCost (rate e.inputPer1k) (rate (e.cachedInputPer1k.getD e.inputPer1k))
      (rate e.outputPer1k) = (applyPrice e (row.promptTokens.getD 0) (row.completionTokens.getD 0)
        (row.cachedTokens.getD 0)).costUsd := by
    unfold LogRow.newCost applyPrice
    simp only
    rw [wrap64_of_inI64 h.fits, max_eq_left h.cached, max_eq_left h.completion, ofCount_rat,
      ofCount_rat, ofCount_rat, ofCount_rat, ← add_div, ← add_div]
    rfl
  unfold recostAt LogRow.recost charged
  rw [hcost]

theorem pricedRow_recostAt (e : PricingEntry) (row : LogRow) : PricedRow e row (recostAt e row) :=
  ⟨recostAt_uncosted e row, fun h => recostAt_charged h e⟩

theorem selects_key {key : String × String} {row : LogRow} (h : Selects json body key row) :
    SqlLogStore.costKey json row = some (.text key.1, key.2) := by
  simp only [Selects, LogBackend.selects, Bool.and_eq_true, decide_eq_true_eq] at h
  simp only [SqlLogStore.costKey, h.1.1, h.1.2]

theorem selects_unique {key key' : String × String} {row : LogRow} (h : Selects json body key row)
    (h' : Selects json body key' row) : key = key' := by
  have hkeys := (selects_key h).symm.trans (selects_key h')
  simp only [Option.some.injEq, Prod.mk.injEq, SqlScalar.text.injEq] at hkeys
  exact Prod.ext hkeys.1 hkeys.2

/-- Each key of a row is listed. -/
theorem selects_listed {key : String × String} {row : LogRow} {table : List LogRow}
    {keys : List (String × String)} (h : Selects json body key row) (hrow : row ∈ table)
    (hkeys : (costKeyTexts keys).Perm
      (SqlLogStore.distinctCostKeys json table body.fromTs body.toTs)) : key ∈ keys := by
  have hmem : (SqlScalar.text key.1, key.2) ∈ costKeyTexts keys := by
    rw [hkeys.mem_iff, SqlLogStore.distinctCostKeys, List.mem_dedup, List.mem_filterMap]
    refine ⟨row, List.mem_filter.mpr ⟨hrow, ?_⟩, selects_key h⟩
    simp only [Selects, LogBackend.selects, Bool.and_eq_true] at h
    simp only [Bool.and_eq_true]
    exact h.2
  obtain ⟨key', hkey', heq⟩ := List.mem_map.mp hmem
  simp only [Prod.mk.injEq, SqlScalar.text.injEq] at heq
  exact Prod.ext heq.1 heq.2 ▸ hkey'

end

/-! ### What a sweep keeps -/

section
variable (existing : LogTable)

/-- The row that the sweep makes of `old`. -/
def Swept (catalog : PricingCatalog) (old row : LogRow) : Prop :=
  row = old ∨ ∃ key e, Selects json body key old ∧ catalog.lookup key.1 key.2 = some e ∧
    row = recostAt e old

/-- The sweep has been at the rows whose key is not to do. -/
structure Progress (catalog : PricingCatalog) (todo : List (String × String))
    (withoutPrice : List String) (s : CostSweep) : Prop where
  flushed : ∀ rec ∈ s.before, ∃ row ∈ s.listed, row.uncosted = (rec.toRow toJson).uncosted
  priced : ∀ row ∈ s.listed, ∃ row' ∈ s.pipeline.requestLogs, row'.uncosted = row.uncosted ∧
    ∀ key e, Selects json body key row → catalog.lookup key.1 key.2 = some e →
      key ∈ todo ∨ row' = recostAt e row
  unpriced : ∀ row ∈ s.listed, ∀ key, Selects json body key row →
    catalog.lookup key.1 key.2 = none → key ∈ todo ∨ key.1 ++ "/" ++ key.2 ∈ withoutPrice
  origin : ∀ row ∈ s.pipeline.requestLogs, ∃ old,
    (old ∈ s.listed ∨ ∃ rec ∈ s.pipeline.worker.accepted, old = rec.toRow toJson) ∧
      Swept json body catalog old row

def SweepPhase.Holds (s : CostSweep) : SweepPhase → Prop
  | .idle => True
  | .flushing reply => ∃ call, s.pipeline.worker.flushes[reply]? = some call ∧
    s.before = call.before
  | .listing _ => ∀ rec ∈ s.before, ∃ row ∈ s.pipeline.requestLogs,
    row.uncosted = (rec.toRow toJson).uncosted
  | .repricing catalog todo response =>
    Progress toJson json body catalog todo response.modelsWithoutPrice s
  | .done catalog response => Progress toJson json body catalog [] response.modelsWithoutPrice s

structure Kept (s : CostSweep) : Prop where
  pipeline : LogPipeline.Kept toJson existing.rows s.pipeline
  landed : Landed toJson existing.rows s.pipeline
  phase : SweepPhase.Holds toJson json body s s.phase

end

section
variable {toJson : Value → String} {json : SqlJson} {body : RecomputeBody} {existing : LogTable}
  {s t : CostSweep} {catalog : PricingCatalog} {key : String × String}
  {todo : List (String × String)} {response : RecomputeResponse} {withoutPrice : List String}

theorem Swept.uncosted {old row : LogRow} (h : Swept json body catalog old row) :
    row.uncosted = old.uncosted := by
  rcases h with rfl | ⟨key, e, -, -, rfl⟩
  · rfl
  · rfl

/-- Inserts between two statements of the sweep. -/
theorem Progress.pipeline (h : Progress toJson json body catalog todo withoutPrice s)
    (hlisted : t.listed = s.listed) (hbefore : t.before = s.before)
    (haccepted : s.pipeline.worker.accepted <+: t.pipeline.worker.accepted)
    (hkept : s.pipeline.requestLogs ⊆ t.pipeline.requestLogs)
    (hnew : ∀ row ∈ t.pipeline.requestLogs, row ∈ s.pipeline.requestLogs ∨
      ∃ rec ∈ t.pipeline.worker.accepted, row = rec.toRow toJson) :
    Progress toJson json body catalog todo withoutPrice t := by
  refine ⟨?_, ?_, ?_, ?_⟩
  · rw [hbefore, hlisted]
    exact h.flushed
  · rw [hlisted]
    intro row hrow
    obtain ⟨row', hrow', hrest⟩ := h.priced row hrow
    exact ⟨row', hkept hrow', hrest⟩
  · rw [hlisted]
    exact h.unpriced
  · rw [hlisted]
    intro row hrow
    rcases hnew row hrow with hold | ⟨rec, hrec, rfl⟩
    · obtain ⟨old, hsource | ⟨rec, hrec, heq⟩, hswept⟩ := h.origin row hold
      · exact ⟨old, .inl hsource, hswept⟩
      · exact ⟨old, .inr ⟨rec, haccepted.subset hrec, heq⟩, hswept⟩
    · exact ⟨_, .inr ⟨rec, hrec, rfl⟩, .inl rfl⟩

/-- A key without a price is reported. -/
theorem Progress.skip (h : Progress toJson json body catalog (key :: todo) withoutPrice s)
    (hlookup : catalog.lookup key.1 key.2 = none) (hlisted : t.listed = s.listed)
    (hbefore : t.before = s.before) (hpipeline : t.pipeline = s.pipeline) :
    Progress toJson json body catalog todo (withoutPrice ++ [key.1 ++ "/" ++ key.2]) t := by
  refine ⟨hbefore ▸ hlisted ▸ h.flushed, ?_, ?_, hlisted ▸ hpipeline ▸ h.origin⟩
  · rw [hlisted, hpipeline]
    intro row hrow
    obtain ⟨row', hrow', hsame, hpriced⟩ := h.priced row hrow
    refine ⟨row', hrow', hsame, fun key' e hselects hprice => ?_⟩
    rcases hpriced key' e hselects hprice with hmem | hdone
    · rcases List.mem_cons.mp hmem with rfl | htodo
      · cases hlookup.symm.trans hprice
      · exact .inl htodo
    · exact .inr hdone
  · rw [hlisted]
    intro row hrow key' hselects hnone
    rcases h.unpriced row hrow key' hselects hnone with hmem | hreported
    · rcases List.mem_cons.mp hmem with rfl | htodo
      · exact .inr (List.mem_append_right _ (List.mem_singleton_self _))
      · exact .inl htodo
    · exact .inr (List.mem_append_left _ hreported)

/-- The update of a key reprices the rows that the key selects. -/
theorem Progress.update (h : Progress toJson json body catalog (key :: todo) withoutPrice s)
    {e : PricingEntry} (hlookup : catalog.lookup key.1 key.2 = some e)
    (hlisted : t.listed = s.listed) (hbefore : t.before = s.before)
    (hworker : t.pipeline.worker = s.pipeline.worker)
    (htable : t.pipeline.requestLogs = s.pipeline.requestLogs.map fun row =>
      if LogBackend.sqlite.selects json key.1 key.2 body.fromTs body.toTs row then recostAt e row
      else row) :
    Progress toJson json body catalog todo withoutPrice t := by
  refine ⟨hbefore ▸ hlisted ▸ h.flushed, ?_, ?_, ?_⟩
  · rw [hlisted, htable]
    intro row hrow
    obtain ⟨row', hrow', hsame, hpriced⟩ := h.priced row hrow
    refine ⟨_, List.mem_map_of_mem hrow', ?_, ?_⟩
    · split
      · exact hsame
      · exact hsame
    · intro key' e' hselects hprice
      split
      · rename_i hhit
        have hkey : key' = key := selects_unique hselects ((selects_congr hsame key).mp hhit)
        subst hkey
        cases hlookup.symm.trans hprice
        exact .inr (recostAt_congr hsame e)
      · rename_i hmiss
        rcases hpriced key' e' hselects hprice with hmem | hdone
        · rcases List.mem_cons.mp hmem with rfl | htodo
          · exact absurd ((selects_congr hsame key').mpr hselects) hmiss
          · exact .inl htodo
        · exact .inr hdone
  · rw [hlisted]
    intro row hrow key' hselects hnone
    rcases h.unpriced row hrow key' hselects hnone with hmem | hreported
    · rcases List.mem_cons.mp hmem with rfl | htodo
      · cases hlookup.symm.trans hnone
      · exact .inl htodo
    · exact .inr hreported
  · rw [hlisted, htable, hworker]
    intro row hrow
    obtain ⟨row', hrow', rfl⟩ := List.mem_map.mp hrow
    obtain ⟨old, hsource, hswept⟩ := h.origin row' hrow'
    refine ⟨old, hsource, ?_⟩
    split
    · rename_i hhit
      refine .inr ⟨key, e, (selects_congr hswept.uncosted key).mp hhit, hlookup, ?_⟩
      exact recostAt_congr hswept.uncosted e
    · exact hswept

/-! ### Steps -/

theorem SweepPhase.Holds.pipeline {phase : SweepPhase} {m : PipelineMove}
    (h : SweepPhase.Holds toJson json body s phase)
    (hkept : LogPipeline.Kept toJson existing.rows s.pipeline)
    (hm : LogPipeline.Sound existing.rows s.pipeline m)
    (halone : Allows phase m)
    (hstep : s.pipeline.step toJson json m = some t.pipeline) (hlisted : t.listed = s.listed)
    (hbefore : t.before = s.before) : SweepPhase.Holds toJson json body t phase := by
  obtain ⟨-, htable, haccepted⟩ := hkept.step hm.typed hstep
  have hprogress : ∀ {catalog todo withoutPrice},
      (∀ provider model a b c fromTs toTs, m ≠ .recompute provider model a b c fromTs toTs) →
      Progress toJson json body catalog todo withoutPrice s →
        Progress toJson json body catalog todo withoutPrice t := by
    intro catalog todo withoutPrice hne h
    obtain ⟨hsubset, hnew⟩ := hkept.step_rows hne hstep
    exact h.pipeline hlisted hbefore haccepted hsubset hnew
  cases phase with
  | idle => trivial
  | flushing reply =>
    obtain ⟨call, hcall, heq⟩ := h
    obtain ⟨call', hcall', hsame⟩ := step_flushes hstep hcall
    exact ⟨call', hcall', hbefore.trans (heq.trans hsame.symm)⟩
  | listing catalog =>
    intro rec hrec
    obtain ⟨row, hrow, heq⟩ := h rec (hbefore ▸ hrec)
    obtain ⟨row', hrow', heq'⟩ := htable row hrow
    exact ⟨row', hrow', heq'.trans heq⟩
  | repricing catalog todo response =>
    refine hprogress ?_ h
    rintro provider model a b c fromTs toTs rfl
    exact halone
  | done catalog response =>
    refine hprogress ?_ h
    rintro provider model a b c fromTs toTs rfl
    exact halone

theorem sqlite_recomputeCosts (json : SqlJson) (body : RecomputeBody) (table : List LogRow)
    (key : String × String) (e : PricingEntry) :
    ∃ updated, SqlLogStore.recomputeCosts .sqlite json table key.1 key.2 (rate e.inputPer1k)
      (rate (e.cachedInputPer1k.getD e.inputPer1k)) (rate e.outputPer1k) body.fromTs body.toTs =
        some (table.map fun row => if LogBackend.sqlite.selects json key.1 key.2 body.fromTs
          body.toTs row then recostAt e row else row, updated) := by
  have hall : ∀ rows : List LogRow, rows.all LogBackend.sqlite.subtracts = true :=
    fun rows => List.all_eq_true.mpr fun _ _ => rfl
  simp only [SqlLogStore.recomputeCosts, hall, if_true]
  exact ⟨_, rfl⟩

theorem Kept.reprice (h : Kept toJson json body existing s)
    (hphase : s.phase = .repricing catalog (key :: todo) response)
    (hstep : s.reprice json body catalog key todo response = some t) :
    Kept toJson json body existing t := by
  have hprogress := h.phase
  rw [hphase] at hprogress
  unfold CostSweep.reprice at hstep
  split at hstep
  · rename_i hlookup
    cases hstep
    exact ⟨h.pipeline, h.landed, hprogress.skip hlookup rfl rfl rfl⟩
  · rename_i e hlookup
    split at hstep
    · cases hstep
    · obtain ⟨updated, hresult⟩ :=
        sqlite_recomputeCosts json body s.pipeline.requestLogs key e
      rw [hresult] at hstep
      cases hstep
      have hsame : ∀ row : LogRow, (if LogBackend.sqlite.selects json key.1 key.2 body.fromTs
          body.toTs row then recostAt e row else row).uncosted = row.uncosted := by
        intro row
        split
        · rfl
        · rfl
      refine ⟨h.pipeline.map hsame rfl rfl, h.landed.carried rfl rfl ?_ ?_,
        hprogress.update hlookup rfl rfl rfl rfl⟩
      · dsimp only
        rw [List.map_map]
        exact List.map_congr_left fun row _ => (uncosted_fields (hsame row)).1
      · intro row hrow
        exact ⟨_, List.mem_map_of_mem hrow, hsame row⟩

theorem Kept.step (h : Kept toJson json body existing s) {m : SweepMove}
    (hm : Alone existing.rows s m) (hstep : s.step toJson json body m = some t) :
    Kept toJson json body existing t := by
  cases m with
  | pipeline m =>
    obtain ⟨hsound, halone⟩ := hm
    obtain ⟨pipeline, hpipeline, rfl⟩ := Option.map_eq_some_iff.mp hstep
    exact ⟨(h.pipeline.step hsound.typed hpipeline).1, h.landed.step h.pipeline hsound hpipeline,
      h.phase.pipeline h.pipeline hsound halone hpipeline rfl rfl⟩
  | publish catalog =>
    cases hstep
    refine ⟨h.pipeline, h.landed, ?_⟩
    have hphase := h.phase
    cases hcase : s.phase with
    | idle => trivial
    | flushing reply =>
      rw [hcase] at hphase
      exact hphase
    | listing catalog =>
      rw [hcase] at hphase
      exact hphase
    | repricing catalog todo response =>
      rw [hcase] at hphase
      exact ⟨hphase.flushed, hphase.priced, hphase.unpriced, hphase.origin⟩
    | done catalog response =>
      rw [hcase] at hphase
      exact ⟨hphase.flushed, hphase.priced, hphase.unpriced, hphase.origin⟩
  | begin =>
    have hbegin : ∀ pipeline, s.pipeline.step toJson json (.worker .flush) = some pipeline →
        Kept toJson json body existing
          { s with
            pipeline
            phase := .flushing s.pipeline.worker.flushes.length
            before := s.pipeline.worker.accepted } := by
      intro pipeline hpipeline
      have hsound : LogPipeline.Sound existing.rows s.pipeline (.worker .flush) := trivial
      refine ⟨(h.pipeline.step hsound.typed hpipeline).1,
        h.landed.step h.pipeline hsound hpipeline, ⟨s.pipeline.worker.accepted, false⟩, ?_, rfl⟩
      have hflush := (step_worker hpipeline).1
      simp only [LogWorker.step] at hflush
      split at hflush
      · cases hflush
      · dsimp only
        rw [← Option.some.inj hflush]
        exact List.getElem?_concat_length
    simp only [CostSweep.step] at hstep
    split at hstep
    · obtain ⟨pipeline, hpipeline, rfl⟩ := Option.map_eq_some_iff.mp hstep
      exact hbegin pipeline hpipeline
    · obtain ⟨pipeline, hpipeline, rfl⟩ := Option.map_eq_some_iff.mp hstep
      exact hbegin pipeline hpipeline
    · cases hstep
  | flushed =>
    simp only [CostSweep.step] at hstep
    split at hstep
    · rename_i reply hphase
      split at hstep
      · rename_i hacked
        cases hstep
        obtain ⟨call, hcall, hbefore⟩ : SweepPhase.Holds toJson json body s (.flushing reply) :=
          hphase ▸ h.phase
        rw [hcall] at hacked
        refine ⟨h.pipeline, h.landed, fun rec hrec => h.landed.rows rec ?_⟩
        have hmem : call ∈ s.pipeline.worker.flushes := List.mem_of_getElem? hcall
        exact h.landed.answered call hmem hacked (hbefore ▸ hrec)
      · cases hstep
    · cases hstep
  | list keys =>
    simp only [CostSweep.step] at hstep
    split at hstep
    · rename_i catalog hphase
      split at hstep
      · rename_i hkeys
        cases hstep
        have hlisting : SweepPhase.Holds toJson json body s (.listing catalog) := hphase ▸ h.phase
        refine ⟨h.pipeline, h.landed, hlisting, ?_, ?_, ?_⟩
        · intro row hrow
          exact ⟨row, hrow, rfl, fun key e hselects _ => .inl (selects_listed hselects hrow hkeys)⟩
        · intro row hrow key hselects _
          exact .inl (selects_listed hselects hrow hkeys)
        · intro row hrow
          exact ⟨row, .inl hrow, .inl rfl⟩
      · cases hstep
    · cases hstep
  | next =>
    simp only [CostSweep.step] at hstep
    split at hstep
    · rename_i catalog response hphase
      cases hstep
      have hprogress : SweepPhase.Holds toJson json body s (.repricing catalog [] response) :=
        hphase ▸ h.phase
      exact ⟨h.pipeline, h.landed, hprogress.flushed, hprogress.priced, hprogress.unpriced,
        hprogress.origin⟩
    · rename_i catalog key todo response hphase
      exact h.reprice hphase hstep
    · cases hstep
  | fail =>
    cases hstep
    exact ⟨h.pipeline, h.landed, trivial⟩

/-- When a sweep is done, each record that was accepted before it began has the price of its
catalog, or is reported to have none; no other row is touched, whatever is logged meanwhile. -/
theorem sweep_prices_flushed {catalog₀ : PricingCatalog}
    (hrun : Reaches (CostSweep.step toJson json body) (Alone existing.rows)
      (.init existing.rows catalog₀) s) (hdone : s.phase = .done catalog response) :
    (∀ rec ∈ s.before, ∀ key, Selects json body key (rec.toRow toJson) →
      (∀ e, catalog.lookup key.1 key.2 = some e →
        ∃ row ∈ s.pipeline.requestLogs, PricedRow e (rec.toRow toJson) row) ∧
      (catalog.lookup key.1 key.2 = none →
        key.1 ++ "/" ++ key.2 ∈ response.modelsWithoutPrice)) ∧
      ∀ row ∈ s.pipeline.requestLogs, ∃ old,
        (old ∈ s.listed ∨ ∃ rec ∈ s.pipeline.worker.accepted, old = rec.toRow toJson) ∧
          (row = old ∨ ∃ key e, Selects json body key old ∧
            catalog.lookup key.1 key.2 = some e ∧ PricedRow e old row) := by
  have hinit : Kept toJson json body existing (.init existing.rows catalog₀) :=
    ⟨.init toJson existing, .init toJson existing.rows, trivial⟩
  have hkept : Kept toJson json body existing s :=
    hrun.invariant hinit fun _ _ _ hs hm hstep => hs.step hm hstep
  have hprogress : SweepPhase.Holds toJson json body s (.done catalog response) :=
    hdone ▸ hkept.phase
  constructor
  · intro rec hrec key hselects
    obtain ⟨row, hrow, hsame⟩ := hprogress.flushed rec hrec
    have hselected := (selects_congr hsame key).mpr hselects
    constructor
    · intro e hprice
      obtain ⟨row', hrow', -, hpriced⟩ := hprogress.priced row hrow
      rcases hpriced key e hselected hprice with hnever | hdone
      · cases hnever
      · rw [recostAt_congr hsame] at hdone
        exact ⟨row', hrow', hdone ▸ pricedRow_recostAt e _⟩
    · intro hnone
      rcases hprogress.unpriced row hrow key hselected hnone with hnever | hreported
      · cases hnever
      · exact hreported
  · intro row hrow
    obtain ⟨old, hsource, hswept⟩ := hprogress.origin row hrow
    refine ⟨old, hsource, ?_⟩
    rcases hswept with hsame | ⟨key, e, hselects, hprice, hrecosted⟩
    · exact .inl hsame
    · exact .inr ⟨key, e, hselects, hprice, hrecosted ▸ pricedRow_recostAt e old⟩

end

def sampleBody : RecomputeBody := ⟨none, none⟩

def sampleStep (s : CostSweep) (m : SweepMove) : Option CostSweep :=
  s.step (fun _ => hitTraceText) tracedJson sampleBody m

def loggedOnce : SweepMove := .pipeline (.worker (.append (tracedRecord 1000 200 10)))

/-- A record waits in the channel when the sweep begins, and a catalog is published meanwhile. -/
def sampleSweep : List SweepMove :=
  [.begin, .pipeline (.worker .receive), .pipeline (.worker .receive), .pipeline (.worker .locked),
    .pipeline (.execute false), .pipeline (.worker .inserted), .flushed, .publish {},
    .list [("openai", "gpt-4o")], .next, .next]

def outcome (s : CostSweep) : Option (PricingCatalog × RecomputeResponse) :=
  match s.phase with
  | .done catalog response => some (catalog, response)
  | _ => none

theorem done_of_outcome {s : CostSweep} {catalog : PricingCatalog} {response : RecomputeResponse}
    (h : s.outcome = some (catalog, response)) : s.phase = .done catalog response := by
  unfold outcome at h
  split at h
  · rename_i hphase
    cases h
    exact hphase
  · cases h

theorem sampleSweep_alone : ∀ m ∈ sampleSweep, ∀ s, Alone [] s m := by
  have hworker : ∀ phase ev, Allows phase (.worker ev) := by
    intro phase ev
    cases phase with
    | _ => trivial
  have hexecute : ∀ phase fails, Allows phase (.execute fails) := by
    intro phase fails
    cases phase with
    | _ => trivial
  simp [sampleSweep, Alone, LogPipeline.Sound, hworker, hexecute]

theorem sweep_prices_flushed_queued : ∃ s, run sampleStep (.init [] halfDollarCatalog)
      (loggedOnce :: sampleSweep) = some s ∧
      charged ⟨"openai", "gpt-4o", F64.ofRatio false 1 2, F64.ofRatio false 1 2, none⟩
        ((tracedRecord 1000 200 10).toRow fun _ => hitTraceText) ∈ s.pipeline.requestLogs := by
  obtain ⟨s, hs, hat⟩ := Option.map_eq_some_iff.mp
    (show (run sampleStep (.init [] halfDollarCatalog) (loggedOnce :: sampleSweep)).map
      (fun s => (s.outcome, s.before)) =
        some (some (halfDollarCatalog, ⟨1, 1, []⟩), [tracedRecord 1000 200 10]) from rfl)
  obtain ⟨houtcome, hbefore⟩ := Prod.mk.inj hat
  have hlogged : Reaches sampleStep (Alone emptyLogs.rows)
      (.init emptyLogs.rows halfDollarCatalog) _ :=
    .next loggedOnce .start ⟨⟨by decide, by decide, by decide⟩, trivial⟩ rfl
  have hrun : Reaches (CostSweep.step (fun _ => hitTraceText) tracedJson sampleBody)
      (Alone emptyLogs.rows) (.init emptyLogs.rows halfDollarCatalog) s :=
    Reaches.of_guarded_run sampleSweep sampleSweep_alone hlogged hs
  obtain ⟨hall, -⟩ := sweep_prices_flushed hrun (done_of_outcome houtcome)
  have hrec : tracedRecord 1000 200 10 ∈ s.before := by
    rw [hbefore]
    exact List.mem_singleton_self _
  have hselects : Selects tracedJson sampleBody ("openai", "gpt-4o")
      ((tracedRecord 1000 200 10).toRow fun _ => hitTraceText) := rfl
  have hcounts : PlainCounts ((tracedRecord 1000 200 10).toRow fun _ => hitTraceText) :=
    ⟨by decide, by decide, by decide⟩
  obtain ⟨row, hrow, hpriced⟩ := (hall _ hrec _ hselects).1
    ⟨"openai", "gpt-4o", F64.ofRatio false 1 2, F64.ofRatio false 1 2, none⟩ (by decide +kernel)
  exact ⟨s, hs, hpriced.charged hcounts ▸ hrow⟩

end CostSweep

end AiGateway.Api
