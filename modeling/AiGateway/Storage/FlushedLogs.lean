import AiGateway.Storage.LogPipeline

/-!
# What a flush promises

When a flush returns, each record that the channel accepted before it is in the table, as long as
ids are new and no `INSERT` fails.
-/

namespace AiGateway.Storage
open AiGateway.Core AiGateway.Library.MachineInt AiGateway.Library.Runs

namespace LogPipeline

/-- The ids of the records are new, and no `INSERT` fails. -/
def Sound (existing : List LogRow) : LogPipeline → PipelineMove → Prop
  | s, .worker (.append rec) => InI64 rec.requestTs ∧ rec.id ∉ existing.map LogRow.id ∧
    rec.id ∉ s.worker.accepted.map RequestLogRecord.id
  | _, .execute fails => fails = false
  | _, _ => True

theorem Sound.typed {existing : List LogRow} {s : LogPipeline} {m : PipelineMove}
    (h : Sound existing s m) : Typed s m := by
  cases m with
  | worker ev =>
    cases ev with
    | append rec => exact h.1
    | _ => trivial
  | _ => trivial

/-- The batches whose `INSERT` has executed. -/
def landed (s : LogPipeline) : List (List RequestLogRecord) :=
  if s.worker.inserting ∧ ¬s.executed then s.worker.handed.dropLast else s.worker.handed

structure Landed (toJson : Value → String) (existing : List LogRow) (s : LogPipeline) : Prop where
  busy : s.executed = true → s.worker.inserting = true
  fresh : (s.worker.accepted.map RequestLogRecord.id).Nodup
  new : ∀ rec ∈ s.worker.accepted, rec.id ∉ existing.map LogRow.id
  ids : ∀ id ∈ s.requestLogs.map LogRow.id,
    id ∈ existing.map LogRow.id ∨ id ∈ s.landed.flatten.map RequestLogRecord.id
  rows : ∀ rec ∈ s.landed.flatten, ∃ row ∈ s.requestLogs,
    row.uncosted = (rec.toRow toJson).uncosted
  answered : ∀ call ∈ s.worker.flushes, call.acked = true → call.before ⊆ s.landed.flatten

section
variable {toJson : Value → String} {json : SqlJson} {existing : LogTable} {s t : LogPipeline}
  {w w' : LogWorker}

/-- A flush is answered when the worker stands between two of its statements. -/
inductive FlushStep (w w' : LogWorker) : Prop where
  | same (h : w'.flushes = w.flushes)
  | called (h : w'.flushes = w.flushes ++ [⟨w.accepted, false⟩])
  | answered (reply : ℕ) (hidle : w'.inserting = false)
      (h : w'.flushes = w.flushes.modify reply fun call => { call with acked := true })

theorem flushStep_after (next : AfterBatch) : FlushStep w (w.after next) := by
  cases next with
  | select => exact .same rfl
  | answer reply => exact .answered reply rfl rfl
  | exit => exact .same rfl

theorem flushStep_flushThen (next : AfterBatch) : FlushStep w (w.flushThen next) := by
  unfold LogWorker.flushThen
  split
  · exact flushStep_after next
  · exact .same rfl

theorem flushStep {ev : WorkerEvent} (h : w.step .sqlite ev = some w') : FlushStep w w' := by
  cases ev with
  | append rec =>
    simp only [LogWorker.step] at h
    split at h
    · cases h
    · split at h
      · cases h
        exact .same rfl
      · cases h
        exact .same rfl
  | flush =>
    simp only [LogWorker.step] at h
    split at h
    · cases h
    · cases h
      exact .called rfl
  | receive =>
    simp only [LogWorker.step] at h
    split at h
    · unfold LogWorker.receive at h
      split at h
      · rename_i cmd rest hqueue
        cases h
        cases cmd with
        | record rec =>
          simp only [LogWorker.handle]
          split
          · cases flushStep_flushThen (w := { w with queue := rest, buf := w.buf ++ [rec] })
              .select with
            | same h => exact .same h
            | called h => exact .called h
            | answered reply hidle h => exact .answered reply hidle h
          · exact .same rfl
        | flush reply =>
          cases flushStep_flushThen (w := { w with queue := rest }) (.answer reply) with
          | same h => exact .same h
          | called h => exact .called h
          | answered reply hidle h => exact .answered reply hidle h
      · split at h
        · cases h
          exact flushStep_flushThen .exit
        · cases h
    · cases h
  | tick =>
    simp only [LogWorker.step] at h
    split at h
    · cases h
      exact flushStep_flushThen .select
    · cases h
  | locked =>
    simp only [LogWorker.step] at h
    split at h
    · cases h
      exact .same rfl
    · cases h
  | inserted =>
    simp only [LogWorker.step] at h
    split at h
    · cases h
      exact flushStep_after _
    · cases h
  | close =>
    cases h
    exact .same rfl

theorem acked_step {ev : WorkerEvent} (h : w.step .sqlite ev = some w')
    (hbusy : w'.inserting = true) : ∀ call ∈ w'.flushes, call.acked = true → call ∈ w.flushes := by
  intro call hcall hacked
  cases flushStep h with
  | same h => exact h ▸ hcall
  | called h =>
    rw [h] at hcall
    rcases List.mem_append.mp hcall with hold | hnew
    · exact hold
    · cases List.mem_singleton.mp hnew
      cases hacked
  | answered reply hidle h => exact Bool.noConfusion (hbusy.symm.trans hidle)

/-- A call keeps its number and what it was called behind. -/
theorem flush_kept {ev : WorkerEvent} (h : w.step .sqlite ev = some w') {i : ℕ} {call : FlushCall}
    (hcall : w.flushes[i]? = some call) :
    ∃ call', w'.flushes[i]? = some call' ∧ call'.before = call.before := by
  cases flushStep h with
  | same h => exact ⟨call, h ▸ hcall, rfl⟩
  | called h =>
    refine ⟨call, ?_, rfl⟩
    rw [h]
    rw [List.getElem?_append_left (List.getElem?_eq_some_iff.mp hcall).1, hcall]
  | answered reply hidle h =>
    rw [h, List.getElem?_modify, hcall]
    split
    · exact ⟨_, rfl, rfl⟩
    · exact ⟨_, rfl, rfl⟩

theorem landed_of_idle (h : s.worker.inserting = false) : s.landed = s.worker.handed := by
  unfold landed
  rw [if_neg (by simp [h])]

theorem landed_executed (h : s.executed = true) : s.landed = s.worker.handed := by
  unfold landed
  rw [if_neg (by simp [h])]

theorem Landed.init (toJson : Value → String) (existing : List LogRow) :
    Landed toJson existing (.init existing) := by
  refine ⟨nofun, List.nodup_nil, ?_, fun id hid => .inl hid, ?_, ?_⟩
  · intro rec hrec
    cases hrec
  · intro rec hrec
    cases hrec
  · intro call hcall
    cases hcall

theorem Landed.worker (hkept : Kept toJson existing.rows s) (h : Landed toJson existing.rows s)
    {ev : WorkerEvent} (hev : Sound existing.rows s (.worker ev))
    (hstep : s.step toJson json (.worker ev) = some t) : Landed toJson existing.rows t := by
  obtain ⟨hworker, htable, -, hexecuted⟩ := step_worker hstep
  have hlanded : t.landed = s.landed ∧ (t.executed = true → t.worker.inserting = true) := by
    obtain ⟨rfl, hidle, hbusy, hmore⟩ | ⟨rfl, -, hidle, hsame⟩ | ⟨hev, hphase, hsame⟩ :=
      (worker_effect hworker).2
    · obtain ⟨hnever, -⟩ | ⟨-, hexecuted⟩ := hexecuted
      · cases hnever
      · have hnot : s.executed = false := by
          by_contra hexec
          exact Bool.noConfusion (hidle.symm.trans (h.busy (Bool.not_eq_false _ ▸ hexec)))
        refine ⟨?_, fun _ => hbusy⟩
        rw [landed_of_idle hidle, landed, if_pos ⟨hbusy, by simp [hexecuted, hnot]⟩, hmore,
          List.dropLast_concat]
    · obtain ⟨-, hexec, hnot⟩ | ⟨hne, -⟩ := hexecuted
      · refine ⟨?_, fun hexec' => Bool.noConfusion (hnot.symm.trans hexec')⟩
        rw [landed_executed hexec, landed_of_idle hidle, hsame]
      · exact absurd rfl hne
    · obtain ⟨heq, -⟩ | ⟨-, hexecuted⟩ := hexecuted
      · exact absurd heq hev
      · refine ⟨?_, ?_⟩
        · unfold landed
          rw [hphase, hexecuted, hsame]
        · rw [hphase, hexecuted]
          exact h.busy
  obtain ⟨hlanded, hbusy⟩ := hlanded
  have haccepted : (t.worker.accepted.map RequestLogRecord.id).Nodup ∧
      ∀ rec ∈ t.worker.accepted, rec.id ∉ existing.rows.map LogRow.id := by
    obtain hsame | ⟨rec, rfl, hmore⟩ := (worker_effect hworker).1
    · rw [hsame]
      exact ⟨h.fresh, h.new⟩
    · obtain ⟨-, hnew, hfresh⟩ := hev
      rw [hmore]
      constructor
      · rw [List.map_append]
        refine h.fresh.append (List.nodup_singleton _) fun id hold hid => ?_
        cases List.mem_singleton.mp hid
        exact hfresh hold
      · intro rec' hrec'
        rcases List.mem_append.mp hrec' with hold | hself
        · exact h.new rec' hold
        · cases List.mem_singleton.mp hself
          exact hnew
  refine ⟨hbusy, haccepted.1, haccepted.2, ?_, ?_, ?_⟩
  · rw [htable, hlanded]
    exact h.ids
  · rw [htable, hlanded]
    exact h.rows
  · intro call hcall hacked
    cases hidle : t.worker.inserting with
    | false =>
      rw [landed_of_idle hidle]
      exact ((hkept.worker.step hworker).kept.answered call hcall hacked).subset
    | true =>
      rw [hlanded]
      exact h.answered call (acked_step hworker hidle call hcall hacked) hacked

theorem handed_split (s : LogPipeline) :
    s.worker.handed.flatten = s.worker.handed.dropLast.flatten ++ s.batch := by
  unfold batch
  rcases List.eq_nil_or_concat s.worker.handed with hnil | ⟨front, last, hconcat⟩
  · rw [hnil]
    rfl
  · rw [hconcat, List.concat_eq_append, List.dropLast_concat, List.getLast?_concat,
      List.flatten_append, List.flatten_singleton]
    rfl

/-- New ids go in. -/
theorem Landed.insertable (hkept : Kept toJson existing.rows s)
    (h : Landed toJson existing.rows s) (hlanded : s.landed = s.worker.handed.dropLast) :
    LogBackend.sqlite.insertable s.requestLogs (s.batch.map (RequestLogRecord.toRow toJson)) =
      true := by
  have hfresh := h.fresh
  rw [hkept.worker.kept.fifo, handed_split, List.append_assoc, List.append_assoc,
    List.map_append, List.map_append] at hfresh
  obtain ⟨-, hrest, hearlier⟩ := List.nodup_append.mp hfresh
  have hdistinct := (List.nodup_append.mp hrest).1
  have hids : (s.batch.map (RequestLogRecord.toRow toJson)).map LogRow.id =
      s.batch.map RequestLogRecord.id := by
    rw [List.map_map]
    rfl
  simp only [LogBackend.insertable, Bool.and_eq_true, decide_eq_true_eq, List.all_eq_true, hids]
  refine ⟨⟨fun _ _ => rfl, hdistinct⟩, ?_⟩
  intro row hrow hin
  obtain ⟨rec, hrec, rfl⟩ := List.mem_map.mp hrow
  rcases h.ids _ hin with hold | hbefore
  · exact h.new rec (hkept.batch_subset hrec) hold
  · rw [hlanded] at hbefore
    exact hearlier _ hbefore _ (List.mem_append_left _ (List.mem_map_of_mem hrec)) rfl

theorem Landed.execute (hkept : Kept toJson existing.rows s) (h : Landed toJson existing.rows s)
    (hbusy : s.worker.inserting = true) (hwaits : s.executed = false) (htable : t.requestLogs =
      LogBackend.sqlite.insert s.requestLogs (s.batch.map (RequestLogRecord.toRow toJson)))
    (hworker : t.worker = s.worker) (hexecuted : t.executed = true) :
    Landed toJson existing.rows t := by
  have hbefore : s.landed = s.worker.handed.dropLast := by
    unfold landed
    rw [if_pos ⟨hbusy, by simp [hwaits]⟩]
  have hafter : t.landed.flatten = s.landed.flatten ++ s.batch := by
    rw [landed_executed hexecuted, hworker, hbefore, handed_split]
  have hgrown : t.requestLogs =
      s.requestLogs ++ s.batch.map (RequestLogRecord.toRow toJson) := by
    rw [htable, LogBackend.insert, if_pos (h.insertable hkept hbefore)]
  refine ⟨fun _ => hworker ▸ hbusy, hworker ▸ h.fresh, hworker ▸ h.new, ?_, ?_, ?_⟩
  · intro id hid
    rw [hgrown, List.map_append] at hid
    rw [hafter, List.map_append]
    rcases List.mem_append.mp hid with hold | hnew
    · rcases h.ids id hold with hfirst | hlanded
      · exact .inl hfirst
      · exact .inr (List.mem_append_left _ hlanded)
    · rw [List.map_map] at hnew
      exact .inr (List.mem_append_right _ hnew)
  · intro rec hrec
    rw [hafter] at hrec
    rw [hgrown]
    rcases List.mem_append.mp hrec with hold | hnew
    · obtain ⟨row, hrow, heq⟩ := h.rows rec hold
      exact ⟨row, List.mem_append_left _ hrow, heq⟩
    · exact ⟨_, List.mem_append_right _ (List.mem_map_of_mem hnew), rfl⟩
  · intro call hcall hacked
    rw [hafter]
    rw [hworker] at hcall
    exact fun rec hrec => List.mem_append_left _ (h.answered call hcall hacked hrec)

theorem Landed.carried (h : Landed toJson existing.rows s) (hworker : t.worker = s.worker)
    (hexecuted : t.executed = s.executed)
    (hids : t.requestLogs.map LogRow.id = s.requestLogs.map LogRow.id)
    (htable : Carries s.requestLogs t.requestLogs) : Landed toJson existing.rows t := by
  have hlanded : t.landed = s.landed := by
    unfold landed
    rw [hworker, hexecuted]
  refine ⟨?_, hworker ▸ h.fresh, hworker ▸ h.new, ?_, ?_, ?_⟩
  · rw [hworker, hexecuted]
    exact h.busy
  · rw [hids, hlanded]
    exact h.ids
  · intro rec hrec
    obtain ⟨row, hrow, heq⟩ := h.rows rec (hlanded ▸ hrec)
    obtain ⟨row', hrow', heq'⟩ := htable row hrow
    exact ⟨row', hrow', heq'.trans heq⟩
  · rw [hworker, hlanded]
    exact h.answered

theorem Landed.step (hkept : Kept toJson existing.rows s) (h : Landed toJson existing.rows s)
    {m : PipelineMove} (hm : Sound existing.rows s m) (hstep : s.step toJson json m = some t) :
    Landed toJson existing.rows t := by
  have htable := (hkept.step hm.typed hstep).2.1
  cases m with
  | worker ev => exact h.worker hkept hm hstep
  | execute fails =>
    simp only [LogPipeline.step] at hstep
    split at hstep
    · rename_i hwaits
      cases hm
      cases hstep
      exact h.execute hkept hwaits.1 (by simpa using hwaits.2) rfl rfl rfl
    · cases hstep
  | recompute provider model a b c fromTs toTs =>
    simp only [LogPipeline.step] at hstep
    split at hstep
    · cases hstep
    · cases hstep
      obtain ⟨f, hf, hmap⟩ := recompute_map json s provider model a b c fromTs toTs
      refine h.carried rfl rfl ?_ htable
      change (s.recompute json provider model a b c fromTs toTs).map LogRow.id = _
      rw [hmap, List.map_map]
      exact List.map_congr_left fun row _ => (uncosted_fields (hf row)).1
  | list q =>
    cases hstep
    exact h.carried rfl rfl rfl htable
  | nextPage i =>
    simp only [LogPipeline.step] at hstep
    split at hstep
    · split at hstep
      · cases hstep
      · cases hstep
        exact h.carried rfl rfl rfl htable
    · cases hstep

theorem step_flushes {m : PipelineMove} (hstep : s.step toJson json m = some t) {i : ℕ}
    {call : FlushCall} (hcall : s.worker.flushes[i]? = some call) :
    ∃ call', t.worker.flushes[i]? = some call' ∧ call'.before = call.before := by
  cases m with
  | worker ev => exact flush_kept (step_worker hstep).1 hcall
  | execute fails =>
    simp only [LogPipeline.step] at hstep
    split at hstep
    · cases hstep
      exact ⟨call, hcall, rfl⟩
    · cases hstep
  | recompute provider model a b c fromTs toTs =>
    simp only [LogPipeline.step] at hstep
    split at hstep
    · cases hstep
    · cases hstep
      exact ⟨call, hcall, rfl⟩
  | list q =>
    cases hstep
    exact ⟨call, hcall, rfl⟩
  | nextPage i =>
    simp only [LogPipeline.step] at hstep
    split at hstep
    · split at hstep
      · cases hstep
      · cases hstep
        exact ⟨call, hcall, rfl⟩
    · cases hstep

end

end LogPipeline

end AiGateway.Storage
