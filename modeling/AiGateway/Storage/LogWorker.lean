import AiGateway.Storage.LogBatch
import Mathlib.Data.List.Infix

/-!
# The worker of the log store, await by await (`sqlite/logs.rs:48-60`, `404-519`)

`LogStore` serves a command in one move. Here the worker also waits: for the write
lock, and for its `INSERT` to return, while appends and flush calls go on and the
interval ticks. A flush marker carries the number of its call, so that the answer is
sent to the call that waits for it. The `pending_flush` of the source is drained at two
places and filled nowhere, so it stays empty and is left out.
-/

namespace AiGateway.Storage
open AiGateway.Core AiGateway.Library.Runs

inductive WorkerCmd where
  | record (rec : RequestLogRecord)
  | flush (reply : ℕ)

def WorkerCmd.erase : WorkerCmd → Cmd
  | .record rec => .record rec
  | .flush _ => .flush

def queuedRecords (queue : List WorkerCmd) : List RequestLogRecord :=
  recordsOf (queue.map WorkerCmd.erase)

/-- What the worker does when the batch in hand is written. -/
inductive AfterBatch where
  | select
  | answer (reply : ℕ)
  | exit

inductive WorkerPhase where
  | selecting
  -- `write_lock.lock().await`, with the batch still in the buffer
  | locking (next : AfterBatch)
  -- the buffer is drained into the `INSERT`, which executes
  | inserting (next : AfterBatch)
  | stopped

structure FlushCall where
  -- the records accepted before its marker was enqueued
  before : List RequestLogRecord
  acked : Bool

structure LogWorker where
  queue : List WorkerCmd
  closed : Bool
  buf : List RequestLogRecord
  phase : WorkerPhase
  -- every record the channel accepted, in order
  accepted : List RequestLogRecord
  -- every batch handed to `INSERT`, in order
  handed : List (List RequestLogRecord)
  flushes : List FlushCall

inductive WorkerEvent where
  | append (rec : RequestLogRecord)
  | flush
  | receive
  | tick
  | locked
  | inserted
  | close

def LogWorker.init : LogWorker := ⟨[], false, [], .selecting, [], [], []⟩

def LogWorker.answer (s : LogWorker) (reply : ℕ) : LogWorker :=
  { s with flushes := s.flushes.modify reply fun call => { call with acked := true } }

def LogWorker.after (s : LogWorker) : AfterBatch → LogWorker
  | .select => { s with phase := .selecting }
  | .answer reply => { s.answer reply with phase := .selecting }
  | .exit => { s with phase := .stopped }

/-- `flush_batch` behind its caller's test for an empty buffer. -/
def LogWorker.flushThen (s : LogWorker) (next : AfterBatch) : LogWorker :=
  if s.buf.isEmpty then s.after next else { s with phase := .locking next }

section
variable (backend : LogBackend)

def LogWorker.handle (s : LogWorker) : WorkerCmd → LogWorker
  | .record rec =>
    let s := { s with buf := s.buf ++ [rec] }
    if backend.batchMaxRows ≤ s.buf.length then s.flushThen .select else s
  | .flush reply => s.flushThen (.answer reply)

def LogWorker.receive (s : LogWorker) : Option LogWorker :=
  match s.queue with
  | cmd :: rest => some (({ s with queue := rest }).handle backend cmd)
  | [] => if s.closed then some (s.flushThen .exit) else none

def LogWorker.step (s : LogWorker) : WorkerEvent → Option LogWorker
  | .append rec =>
    if s.closed then none
    else if s.queue.length < backend.channelCapacity then
      some { s with queue := s.queue ++ [.record rec], accepted := s.accepted ++ [rec] }
    else some s
  | .flush =>
    -- `send` waits while the channel is full
    if s.closed ∨ backend.channelCapacity ≤ s.queue.length then none
    else some { s with
      queue := s.queue ++ [.flush s.flushes.length]
      flushes := s.flushes ++ [⟨s.accepted, false⟩] }
  | .receive =>
    match s.phase with
    | .selecting => s.receive backend
    | _ => none
  -- the select asks the channel first, but a command may arrive behind its back
  | .tick =>
    match s.phase with
    | .selecting => some (s.flushThen .select)
    | _ => none
  | .locked =>
    match s.phase with
    | .locking next => some { s with buf := [], handed := s.handed ++ [s.buf], phase := .inserting next }
    | _ => none
  | .inserted =>
    match s.phase with
    | .inserting next => some (s.after next)
    | _ => none
  | .close => some { s with closed := true }

end

theorem queuedRecords_append (queue queue' : List WorkerCmd) :
    queuedRecords (queue ++ queue') = queuedRecords queue ++ queuedRecords queue' := by
  rw [queuedRecords, List.map_append, recordsOf_append]
  rfl

theorem queuedRecords_append_record (queue : List WorkerCmd) (rec : RequestLogRecord) :
    queuedRecords (queue ++ [.record rec]) = queuedRecords queue ++ [rec] :=
  queuedRecords_append queue [.record rec]

theorem queuedRecords_append_flush (queue : List WorkerCmd) (reply : ℕ) :
    queuedRecords (queue ++ [.flush reply]) = queuedRecords queue :=
  (queuedRecords_append queue [.flush reply]).trans (List.append_nil _)

theorem queuedRecords_record (rec : RequestLogRecord) (queue : List WorkerCmd) :
    queuedRecords (.record rec :: queue) = rec :: queuedRecords queue := rfl

theorem queuedRecords_flush (reply : ℕ) (queue : List WorkerCmd) :
    queuedRecords (.flush reply :: queue) = queuedRecords queue := rfl

/-! ### What the worker keeps -/

/-- What is promised to whoever waits for the batch in hand. -/
def AfterBatch.Holds (s : LogWorker) : AfterBatch → Prop
  | .select => True
  | .answer reply => ∃ call, s.flushes[reply]? = some call ∧ call.before <+: s.handed.flatten ++ s.buf
  | .exit => s.queue = [] ∧ s.closed = true

def WorkerPhase.Holds (backend : LogBackend) (s : LogWorker) : WorkerPhase → Prop
  | .selecting => s.buf.length < backend.batchMaxRows
  | .locking next =>
    0 < s.buf.length ∧ s.buf.length ≤ backend.batchMaxRows ∧ next.Holds s
  | .inserting next => s.buf = [] ∧ next.Holds s
  | .stopped => s.buf = [] ∧ s.queue = [] ∧ s.closed = true

structure LogWorker.Kept (backend : LogBackend) (s : LogWorker) : Prop where
  fifo : s.accepted = s.handed.flatten ++ s.buf ++ queuedRecords s.queue
  sizes : ∀ batch ∈ s.handed, 0 < batch.length ∧ batch.length ≤ backend.batchMaxRows
  -- behind a marker wait the records accepted after it
  markers : ∀ earlier reply later, s.queue = earlier ++ .flush reply :: later →
    ∃ call, s.flushes[reply]? = some call ∧ s.accepted = call.before ++ queuedRecords later
  answered : ∀ call ∈ s.flushes, call.acked = true → call.before <+: s.handed.flatten

structure LogWorker.Ordered (backend : LogBackend) (s : LogWorker) : Prop where
  kept : s.Kept backend
  phase : s.phase.Holds backend s

section
variable {backend : LogBackend} {s t : LogWorker}

theorem batchMaxRows_pos (backend : LogBackend) : 0 < backend.batchMaxRows := by
  cases backend with
  | sqlite => decide
  | postgres => decide

theorem LogWorker.Ordered.init : LogWorker.Ordered backend .init := by
  have hmarkers : ∀ earlier reply later, ([] : List WorkerCmd) = earlier ++ .flush reply :: later →
      ∃ call : FlushCall, ([] : List FlushCall)[reply]? = some call ∧
        [] = call.before ++ queuedRecords later := by
    intro earlier reply later h
    cases earlier with
    | nil => cases h
    | cons cmd earlier => cases h
  refine ⟨⟨rfl, ?_, hmarkers, ?_⟩, batchMaxRows_pos backend⟩
  · intro batch hbatch
    cases hbatch
  · intro call hcall
    cases hcall

theorem LogWorker.Kept.answer (h : s.Kept backend) {reply : ℕ} {call : FlushCall}
    (hcall : s.flushes[reply]? = some call) (hbefore : call.before <+: s.handed.flatten) :
    (s.answer reply).Kept backend := by
  refine ⟨h.fifo, h.sizes, ?_, ?_⟩
  · intro earlier reply' later hqueue
    obtain ⟨call', hget, haccepted⟩ := h.markers earlier reply' later hqueue
    refine ⟨if reply = reply' then { call' with acked := true } else call', ?_, ?_⟩
    · simp only [LogWorker.answer, List.getElem?_modify, hget, Option.map_eq_map, Option.map_some]
    · split
      · exact haccepted
      · exact haccepted
  · intro call' hmem hacked
    obtain ⟨i, hi⟩ := List.mem_iff_getElem?.mp hmem
    simp only [LogWorker.answer, List.getElem?_modify, Option.map_eq_map,
      Option.map_eq_some_iff] at hi
    obtain ⟨old, hold, heq⟩ := hi
    by_cases hi' : reply = i
    · rw [← hi', hcall, Option.some.injEq] at hold
      rw [if_pos hi', ← hold] at heq
      exact heq ▸ hbefore
    · rw [if_neg hi'] at heq
      exact h.answered call' (heq ▸ List.mem_of_getElem? hold) hacked

theorem LogWorker.Kept.after (h : s.Kept backend) {next : AfterBatch} (hnext : next.Holds s)
    (hbuf : s.buf = []) : (s.after next).Ordered backend := by
  have hroom : s.buf.length < backend.batchMaxRows := by
    rw [hbuf]
    exact batchMaxRows_pos backend
  cases next with
  | select => exact ⟨⟨h.fifo, h.sizes, h.markers, h.answered⟩, hroom⟩
  | answer reply =>
    obtain ⟨call, hcall, hbefore⟩ := hnext
    rw [hbuf, List.append_nil] at hbefore
    have hanswer := h.answer hcall hbefore
    exact ⟨⟨hanswer.fifo, hanswer.sizes, hanswer.markers, hanswer.answered⟩, hroom⟩
  | exit => exact ⟨⟨h.fifo, h.sizes, h.markers, h.answered⟩, hbuf, hnext.1, hnext.2⟩

theorem LogWorker.Kept.flushThen (h : s.Kept backend) (next : AfterBatch) (hnext : next.Holds s)
    (hlen : s.buf.length ≤ backend.batchMaxRows) : (s.flushThen next).Ordered backend := by
  unfold LogWorker.flushThen
  split
  · rename_i hempty
    exact h.after hnext (List.isEmpty_iff.mp hempty)
  · rename_i hbuf
    have hpos : 0 < s.buf.length := by
      rw [List.isEmpty_iff] at hbuf
      exact List.length_pos_of_ne_nil hbuf
    refine ⟨⟨h.fifo, h.sizes, h.markers, h.answered⟩, hpos, hlen, ?_⟩
    cases next with
    | select => trivial
    | answer reply => exact hnext
    | exit => exact hnext

theorem LogWorker.Kept.take {cmd : WorkerCmd} {rest : List WorkerCmd}
    (h : s.Kept backend) (hselecting : s.phase = .selecting) (hqueue : s.queue = cmd :: rest)
    (hroom : s.buf.length < backend.batchMaxRows) :
    (({ s with queue := rest }).handle backend cmd).Ordered backend := by
  have hmarkers : ∀ earlier reply later, rest = earlier ++ .flush reply :: later →
      ∃ call, s.flushes[reply]? = some call ∧ s.accepted = call.before ++ queuedRecords later := by
    intro earlier reply later hrest
    exact h.markers (cmd :: earlier) reply later (by rw [hqueue, hrest]; rfl)
  have hfifo := h.fifo
  rw [hqueue] at hfifo
  cases cmd with
  | record rec =>
    rw [queuedRecords_record] at hfifo
    have hkept : LogWorker.Kept backend { s with queue := rest, buf := s.buf ++ [rec] } := by
      refine ⟨?_, h.sizes, hmarkers, h.answered⟩
      rw [hfifo]
      simp only [List.append_assoc, List.cons_append, List.nil_append]
    have hlen : (s.buf ++ [rec]).length = s.buf.length + 1 := List.length_append
    simp only [LogWorker.handle]
    split
    · refine hkept.flushThen .select trivial ?_
      change (s.buf ++ [rec]).length ≤ _
      omega
    · rename_i hfull
      refine ⟨⟨hkept.fifo, hkept.sizes, hkept.markers, hkept.answered⟩, ?_⟩
      rw [hselecting]
      exact Nat.lt_of_not_le hfull
  | flush reply =>
    rw [queuedRecords_flush] at hfifo
    obtain ⟨call, hcall, haccepted⟩ := h.markers [] reply rest hqueue
    have hbefore : call.before = s.handed.flatten ++ s.buf := by
      rw [haccepted] at hfifo
      exact List.append_cancel_right hfifo
    have hkept : LogWorker.Kept backend { s with queue := rest } :=
      ⟨hfifo, h.sizes, hmarkers, h.answered⟩
    refine hkept.flushThen (.answer reply) ?_ hroom.le
    exact ⟨call, hcall, hbefore ▸ List.prefix_rfl⟩

theorem snoc_eq_split {queue earlier later : List WorkerCmd} {last cmd : WorkerCmd}
    (h : queue ++ [last] = earlier ++ cmd :: later) :
    (later = [] ∧ cmd = last) ∨
      ∃ later', later = later' ++ [last] ∧ queue = earlier ++ cmd :: later' := by
  induction later using List.reverseRecOn with
  | nil =>
    obtain ⟨-, hlast⟩ := List.append_inj' h rfl
    exact .inl ⟨rfl, (List.singleton_inj.mp hlast).symm⟩
  | append_singleton later' last' _ =>
    rw [← List.cons_append, ← List.append_assoc] at h
    obtain ⟨hqueue, hlast⟩ := List.append_inj' h rfl
    exact .inr ⟨later', by rw [List.singleton_inj.mp hlast], hqueue⟩

/-- A step of the other parties takes nothing back from what is promised. -/
theorem AfterBatch.Holds.mono {next : AfterBatch} (h : next.Holds s)
    (hexit : s.queue = [] → s.closed = true → t.queue = [] ∧ t.closed = true)
    (hhanded : t.handed = s.handed) (hbuf : t.buf = s.buf) (hcalls : s.flushes <+: t.flushes) :
    next.Holds t := by
  cases next with
  | select => trivial
  | answer reply =>
    obtain ⟨call, hcall, hbefore⟩ := h
    refine ⟨call, ?_, ?_⟩
    · obtain ⟨calls, hcalls⟩ := hcalls
      rw [← hcalls, List.getElem?_append_left (List.getElem?_eq_some_iff.mp hcall).1, hcall]
    · rw [hhanded, hbuf]
      exact hbefore
  | exit => exact hexit h.1 h.2

theorem WorkerPhase.Holds.mono {phase : WorkerPhase} (h : phase.Holds backend s)
    (hexit : s.queue = [] → s.closed = true → t.queue = [] ∧ t.closed = true)
    (hhanded : t.handed = s.handed) (hbuf : t.buf = s.buf) (hcalls : s.flushes <+: t.flushes) :
    phase.Holds backend t := by
  cases phase with
  | selecting =>
    change t.buf.length < _
    rw [hbuf]
    exact h
  | locking next =>
    obtain ⟨hpos, hlen, hnext⟩ := h
    refine ⟨?_, ?_, hnext.mono hexit hhanded hbuf hcalls⟩
    · rw [hbuf]
      exact hpos
    · rw [hbuf]
      exact hlen
  | inserting next => exact ⟨hbuf.trans h.1, h.2.mono hexit hhanded hbuf hcalls⟩
  | stopped => exact ⟨hbuf.trans h.1, hexit h.2.1 h.2.2⟩

theorem LogWorker.Ordered.append (h : s.Ordered backend) (hopen : s.closed = false)
    (rec : RequestLogRecord) :
    LogWorker.Ordered backend
      { s with queue := s.queue ++ [.record rec], accepted := s.accepted ++ [rec] } := by
  have hfifo := h.kept.fifo
  refine ⟨⟨?_, h.kept.sizes, ?_, h.kept.answered⟩, h.phase.mono ?_ rfl rfl List.prefix_rfl⟩
  · change s.accepted ++ [rec] = _ ++ queuedRecords (s.queue ++ [.record rec])
    rw [queuedRecords_append_record, hfifo, List.append_assoc _ _ [rec]]
  · intro earlier reply later hqueue
    rcases snoc_eq_split hqueue with ⟨-, hcmd⟩ | ⟨later', hlater, hqueue'⟩
    · cases hcmd
    · obtain ⟨call, hcall, haccepted⟩ := h.kept.markers earlier reply later' hqueue'
      refine ⟨call, hcall, ?_⟩
      change s.accepted ++ [rec] = _
      rw [hlater, queuedRecords_append_record, haccepted, List.append_assoc]
  · intro _ hclosed
    cases hopen.symm.trans hclosed

theorem LogWorker.Ordered.flush (h : s.Ordered backend) (hopen : s.closed = false) :
    LogWorker.Ordered backend { s with
      queue := s.queue ++ [.flush s.flushes.length]
      flushes := s.flushes ++ [⟨s.accepted, false⟩] } := by
  refine ⟨⟨?_, h.kept.sizes, ?_, ?_⟩, h.phase.mono ?_ rfl rfl (List.prefix_append _ _)⟩
  · change s.accepted = _ ++ queuedRecords (s.queue ++ [.flush s.flushes.length])
    rw [queuedRecords_append_flush]
    exact h.kept.fifo
  · intro earlier reply later hqueue
    rcases snoc_eq_split hqueue with ⟨hlater, hcmd⟩ | ⟨later', hlater, hqueue'⟩
    · cases hcmd
      refine ⟨⟨s.accepted, false⟩, List.getElem?_concat_length .., ?_⟩
      rw [hlater]
      exact (List.append_nil _).symm
    · obtain ⟨call, hcall, haccepted⟩ := h.kept.markers earlier reply later' hqueue'
      have hin := (List.getElem?_eq_some_iff.mp hcall).1
      refine ⟨call, (List.getElem?_append_left hin).trans hcall, ?_⟩
      rw [hlater, queuedRecords_append_flush]
      exact haccepted
  · intro call hmem hacked
    rw [List.mem_append, List.mem_singleton] at hmem
    rcases hmem with hold | hnew
    · exact h.kept.answered call hold hacked
    · rw [hnew] at hacked
      cases hacked
  · intro _ hclosed
    cases hopen.symm.trans hclosed

theorem LogWorker.Ordered.locked (h : s.Ordered backend) {next : AfterBatch}
    (hphase : s.phase = .locking next) :
    LogWorker.Ordered backend
      { s with buf := [], handed := s.handed ++ [s.buf], phase := .inserting next } := by
  have hlocking := h.phase
  rw [hphase] at hlocking
  obtain ⟨hpos, hlen, hnext⟩ := hlocking
  have hflat : (s.handed ++ [s.buf]).flatten = s.handed.flatten ++ s.buf := by
    rw [List.flatten_append, List.flatten_singleton]
  refine ⟨⟨?_, ?_, h.kept.markers, ?_⟩, rfl, ?_⟩
  · change s.accepted = (s.handed ++ [s.buf]).flatten ++ [] ++ _
    rw [hflat, List.append_nil]
    exact h.kept.fifo
  · intro batch hbatch
    rw [List.mem_append, List.mem_singleton] at hbatch
    rcases hbatch with hold | hnew
    · exact h.kept.sizes batch hold
    · exact hnew ▸ ⟨hpos, hlen⟩
  · intro call hmem hacked
    change _ <+: (s.handed ++ [s.buf]).flatten
    rw [hflat]
    exact (h.kept.answered call hmem hacked).trans (List.prefix_append _ _)
  · cases next with
    | select => trivial
    | answer reply =>
      obtain ⟨call, hcall, hbefore⟩ := hnext
      refine ⟨call, hcall, ?_⟩
      change _ <+: (s.handed ++ [s.buf]).flatten ++ []
      rw [hflat, List.append_nil]
      exact hbefore
    | exit => exact hnext

theorem LogWorker.Ordered.receive (h : s.Ordered backend) (hselecting : s.phase = .selecting)
    (hstep : s.receive backend = some t) : t.Ordered backend := by
  have hroom := h.phase
  rw [hselecting] at hroom
  unfold LogWorker.receive at hstep
  cases hqueue : s.queue with
  | nil =>
    simp only [hqueue] at hstep
    split at hstep
    · rename_i hclosed
      cases hstep
      exact h.kept.flushThen .exit ⟨hqueue, hclosed⟩ (Nat.le_of_lt hroom)
    · cases hstep
  | cons cmd rest =>
    simp only [hqueue, Option.some.injEq] at hstep
    exact hstep ▸ h.kept.take hselecting hqueue hroom

theorem LogWorker.Ordered.step (h : s.Ordered backend) {ev : WorkerEvent}
    (hstep : s.step backend ev = some t) : t.Ordered backend := by
  cases ev with
  | append rec =>
    simp only [LogWorker.step] at hstep
    split at hstep
    · cases hstep
    · rename_i hopen
      split at hstep
      · cases hstep
        exact h.append (Bool.not_eq_true _ ▸ hopen) rec
      · cases hstep
        exact h
  | flush =>
    simp only [LogWorker.step] at hstep
    split at hstep
    · cases hstep
    · rename_i hopen
      cases hstep
      rw [not_or] at hopen
      exact h.flush (Bool.not_eq_true _ ▸ hopen.1)
  | receive =>
    simp only [LogWorker.step] at hstep
    split at hstep
    · rename_i hphase
      exact h.receive hphase hstep
    · cases hstep
  | tick =>
    simp only [LogWorker.step] at hstep
    split at hstep
    · rename_i hphase
      have hroom := h.phase
      rw [hphase] at hroom
      cases hstep
      exact h.kept.flushThen .select trivial (Nat.le_of_lt hroom)
    · cases hstep
  | locked =>
    simp only [LogWorker.step] at hstep
    split at hstep
    · rename_i hphase
      cases hstep
      exact h.locked hphase
    · cases hstep
  | inserted =>
    simp only [LogWorker.step] at hstep
    split at hstep
    · rename_i hphase
      have hnext := h.phase
      rw [hphase] at hnext
      cases hstep
      exact h.kept.after hnext.2 hnext.1
    · cases hstep
  | close =>
    cases hstep
    have hphase : s.phase.Holds backend { s with closed := true } :=
      h.phase.mono (fun hqueue _ => ⟨hqueue, rfl⟩) rfl rfl List.prefix_rfl
    exact ⟨⟨h.kept.fifo, h.kept.sizes, h.kept.markers, h.kept.answered⟩, hphase⟩

theorem LogWorker.Ordered.of_reaches
    (h : Reaches (LogWorker.step backend) Always .init s) : s.Ordered backend :=
  h.invariant .init fun _ _ _ hs _ hstep => hs.step hstep

/-! ### The drain on shutdown -/

def AfterBatch.rank : AfterBatch → ℕ
  | .select => 4
  | .answer _ => 4
  | .exit => 1

def WorkerPhase.rank : WorkerPhase → ℕ
  | .selecting => 3
  | .locking next => next.rank + 1
  | .inserting next => next.rank
  | .stopped => 0

/-- Falls with every move of the worker itself. -/
def LogWorker.todo (s : LogWorker) : ℕ := 4 * s.queue.length + s.phase.rank

theorem LogWorker.after_todo (s : LogWorker) (next : AfterBatch) :
    (s.after next).todo < 4 * s.queue.length + next.rank := by
  cases next with
  | select => exact Nat.lt_succ_self _
  | answer reply => exact Nat.lt_succ_self _
  | exit => exact Nat.lt_succ_self _

theorem LogWorker.flushThen_todo (s : LogWorker) (next : AfterBatch) :
    (s.flushThen next).todo ≤ 4 * s.queue.length + next.rank + 1 := by
  unfold LogWorker.flushThen
  split
  · exact (s.after_todo next).le.trans (Nat.le_succ _)
  · exact Nat.le_refl _

theorem LogWorker.flushThen_channel (s : LogWorker) (next : AfterBatch) :
    (s.flushThen next).closed = s.closed ∧ (s.flushThen next).accepted = s.accepted := by
  unfold LogWorker.flushThen
  split
  · cases next with
    | select => exact ⟨rfl, rfl⟩
    | answer reply => exact ⟨rfl, rfl⟩
    | exit => exact ⟨rfl, rfl⟩
  · exact ⟨rfl, rfl⟩

theorem LogWorker.after_channel (s : LogWorker) (next : AfterBatch) :
    (s.after next).closed = s.closed ∧ (s.after next).accepted = s.accepted := by
  cases next with
  | select => exact ⟨rfl, rfl⟩
  | answer reply => exact ⟨rfl, rfl⟩
  | exit => exact ⟨rfl, rfl⟩

theorem LogWorker.handle_moves (backend : LogBackend) (s : LogWorker)
    (hselecting : s.phase = .selecting) (cmd : WorkerCmd) :
    ((s.handle backend cmd).closed = s.closed ∧ (s.handle backend cmd).accepted = s.accepted) ∧
      (s.handle backend cmd).todo ≤ 4 * s.queue.length + 5 := by
  cases cmd with
  | record rec =>
    simp only [LogWorker.handle]
    split
    · exact ⟨LogWorker.flushThen_channel _ _, LogWorker.flushThen_todo _ _⟩
    · refine ⟨⟨rfl, rfl⟩, ?_⟩
      simp only [LogWorker.todo, hselecting, WorkerPhase.rank]
      omega
  | flush reply => exact ⟨LogWorker.flushThen_channel _ _, LogWorker.flushThen_todo _ _⟩

/-- Behind a closed channel the worker always has a move, and moves towards its end. -/
theorem LogWorker.worker_moves (backend : LogBackend) (s : LogWorker) (hclosed : s.closed = true)
    (hphase : s.phase ≠ .stopped) :
    ∃ ev t, s.step backend ev = some t ∧ t.closed = true ∧ t.accepted = s.accepted ∧
      t.todo < s.todo := by
  cases hp : s.phase with
  | selecting =>
    have htodo : s.todo = 4 * s.queue.length + 3 := by
      rw [LogWorker.todo, hp]
      rfl
    cases hqueue : s.queue with
    | nil =>
      have hstep : s.step backend .receive = some (s.flushThen .exit) := by
        simp only [LogWorker.step, hp, LogWorker.receive, hqueue, hclosed, if_true]
      have hless := s.flushThen_todo .exit
      obtain ⟨hclosed', haccepted⟩ := s.flushThen_channel .exit
      refine ⟨_, _, hstep, hclosed'.trans hclosed, haccepted, ?_⟩
      rw [htodo]
      exact Nat.lt_of_le_of_lt hless (Nat.lt_succ_self _)
    | cons cmd rest =>
      have hstep : s.step backend .receive =
          some (({ s with queue := rest }).handle backend cmd) := by
        simp only [LogWorker.step, hp, LogWorker.receive, hqueue]
      have hlen : s.queue.length = rest.length + 1 := by
        rw [hqueue, List.length_cons]
      obtain ⟨hchannel, hless⟩ := LogWorker.handle_moves backend { s with queue := rest } hp cmd
      refine ⟨_, _, hstep, hchannel.1.trans hclosed, hchannel.2, ?_⟩
      simp only at hless
      omega
  | locking next =>
    have hstep : s.step backend .locked = some
        { s with buf := [], handed := s.handed ++ [s.buf], phase := .inserting next } := by
      simp only [LogWorker.step, hp]
    refine ⟨_, _, hstep, hclosed, rfl, ?_⟩
    simp only [LogWorker.todo, hp, WorkerPhase.rank]
    omega
  | inserting next =>
    obtain ⟨hclosed', haccepted⟩ := s.after_channel next
    have htodo : s.todo = 4 * s.queue.length + next.rank := by
      rw [LogWorker.todo, hp]
      rfl
    refine ⟨.inserted, s.after next, by simp only [LogWorker.step, hp], hclosed'.trans hclosed,
      haccepted, ?_⟩
    exact htodo ▸ s.after_todo next
  | stopped => exact absurd hp hphase

theorem LogWorker.drains (backend : LogBackend) {s : LogWorker} (hclosed : s.closed = true) :
    ∃ t, Reaches (LogWorker.step backend) Always s t ∧ t.phase = .stopped ∧
      t.accepted = s.accepted := by
  induction hn : s.todo using Nat.strong_induction_on generalizing s with
  | _ n ih =>
    by_cases hphase : s.phase = .stopped
    · exact ⟨s, .start, hphase, rfl⟩
    · obtain ⟨ev, u, hstep, hclosed', haccepted, htodo⟩ := s.worker_moves backend hclosed hphase
      obtain ⟨t, hreach, hstopped, hsame⟩ := ih u.todo (hn ▸ htodo) hclosed' rfl
      refine ⟨t, ?_, hstopped, hsame.trans haccepted⟩
      exact Reaches.trans (.next ev .start trivial hstep) hreach

end

/-! ### The moves of `LogStore` are moves of the worker -/

structure LogWorker.Matches (s : LogStore) (w : LogWorker) : Prop where
  queue : s.queue = w.queue.map WorkerCmd.erase
  closed : s.closed = w.closed
  buf : s.buf = w.buf
  accepted : s.accepted = w.accepted
  batches : s.batches = w.handed

/-- The worker stands between two of its moves, and all the rest is the same. -/
structure LogWorker.Refines (s : LogStore) (w : LogWorker) : Prop where
  same : w.Matches s
  phase : w.phase = if s.stopped then .stopped else .selecting

def AfterBatch.phase : AfterBatch → WorkerPhase
  | .select => .selecting
  | .answer _ => .selecting
  | .exit => .stopped

section
variable {backend : LogBackend} {toJson : Value → String} {s t : LogStore} {w : LogWorker}

theorem LogWorker.Matches.after (h : w.Matches s) (next : AfterBatch) :
    (w.after next).Matches s ∧ (w.after next).phase = next.phase := by
  cases next with
  | select => exact ⟨⟨h.queue, h.closed, h.buf, h.accepted, h.batches⟩, rfl⟩
  | answer reply => exact ⟨⟨h.queue, h.closed, h.buf, h.accepted, h.batches⟩, rfl⟩
  | exit => exact ⟨⟨h.queue, h.closed, h.buf, h.accepted, h.batches⟩, rfl⟩

/-- The worker gets the lock and its `INSERT` returns before anything else happens. -/
theorem LogWorker.Matches.flushThen (backend : LogBackend) (toJson : Value → String)
    (h : w.Matches s) (next : AfterBatch) :
    ∃ w', Reaches (LogWorker.step backend) Always (w.flushThen next) w' ∧
      w'.Matches (s.flushBatch backend toJson) ∧ w'.phase = next.phase := by
  unfold LogWorker.flushThen LogStore.flushBatch
  by_cases hempty : s.buf.isEmpty = true
  · rw [if_pos hempty, if_pos (h.buf ▸ hempty)]
    exact ⟨_, .start, h.after next⟩
  · rw [if_neg hempty, if_neg (h.buf ▸ hempty)]
    have hreach : Reaches (LogWorker.step backend) Always { w with phase := .locking next } _ :=
      Reaches.of_run [.locked, .inserted] .start rfl
    have hsame : LogWorker.Matches
        { s with
          buf := []
          requestLogs := backend.insert s.requestLogs (s.buf.map (RequestLogRecord.toRow toJson))
          batches := s.batches ++ [s.buf] }
        { w with buf := [], handed := w.handed ++ [w.buf], phase := .inserting next } := by
      refine ⟨h.queue, h.closed, rfl, h.accepted, ?_⟩
      change s.batches ++ [s.buf] = w.handed ++ [w.buf]
      rw [h.batches, h.buf]
    exact ⟨_, hreach, hsame.after next⟩

theorem LogStore.flushBatch_stopped (s : LogStore) :
    (s.flushBatch backend toJson).stopped = s.stopped := by
  unfold LogStore.flushBatch
  split
  · rfl
  · rfl

theorem LogWorker.Matches.refines_selecting (h : w.Matches s) (hphase : w.phase = .selecting)
    (hlive : s.stopped = false) : w.Refines s := by
  refine ⟨h, ?_⟩
  rw [hphase, hlive]
  rfl

theorem LogWorker.Matches.handle (h : w.Matches s) (hlive : s.stopped = false)
    (hselecting : w.phase = .selecting) (cmd : WorkerCmd) :
    ∃ w', Reaches (LogWorker.step backend) Always (w.handle backend cmd) w' ∧
      w'.Refines (s.handle backend toJson cmd.erase) := by
  cases cmd with
  | record rec =>
    have hbuf : LogWorker.Matches { s with buf := s.buf ++ [rec] } { w with buf := w.buf ++ [rec] } :=
      ⟨h.queue, h.closed, congrArg (· ++ [rec]) h.buf, h.accepted, h.batches⟩
    simp only [LogWorker.handle, LogStore.handle, WorkerCmd.erase, h.buf]
    rw [h.buf] at hbuf
    split
    · obtain ⟨w', hreach, hsame, hphase⟩ := hbuf.flushThen backend toJson .select
      exact ⟨w', hreach, hsame.refines_selecting hphase ((LogStore.flushBatch_stopped _).trans hlive)⟩
    · exact ⟨_, .start, hbuf.refines_selecting hselecting hlive⟩
  | flush reply =>
    obtain ⟨w', hreach, hsame, hphase⟩ := h.flushThen backend toJson (.answer reply)
    exact ⟨w', hreach, hsame.refines_selecting hphase ((LogStore.flushBatch_stopped _).trans hlive)⟩

theorem LogWorker.Refines.selecting (h : w.Refines s) (hlive : s.stopped = false) :
    w.phase = .selecting := by
  rw [h.phase, hlive]
  rfl

/-- The worker takes a command and carries it out before anything else happens. -/
theorem LogWorker.Refines.takes (h : w.Refines s) (hlive : s.stopped = false) {cmd : Cmd}
    {rest : List Cmd} (hqueue : s.queue = cmd :: rest) :
    ∃ w', Reaches (LogWorker.step backend) Always w w' ∧
      w'.Refines (({ s with queue := rest }).handle backend toJson cmd) := by
  have hselecting := h.selecting hlive
  rw [h.same.queue] at hqueue
  obtain ⟨wcmd, wrest, hwqueue, rfl, rfl⟩ := List.map_eq_cons_iff.mp hqueue
  have hw : w.step backend .receive = some (({ w with queue := wrest }).handle backend wcmd) := by
    simp only [LogWorker.step, hselecting, LogWorker.receive, hwqueue]
  have hsame : LogWorker.Matches { s with queue := wrest.map WorkerCmd.erase }
      { w with queue := wrest } :=
    ⟨rfl, h.same.closed, h.same.buf, h.same.accepted, h.same.batches⟩
  obtain ⟨w', hreach, hrefines⟩ := hsame.handle hlive hselecting wcmd
  exact ⟨w', Reaches.trans (.next _ .start trivial hw) hreach, hrefines⟩

theorem LogWorker.Refines.ends (h : w.Refines s) (hlive : s.stopped = false)
    (hclosed : s.closed = true) (hqueue : s.queue = []) :
    ∃ w', Reaches (LogWorker.step backend) Always w w' ∧
      w'.Refines { s.flushBatch backend toJson with stopped := true } := by
  have hselecting := h.selecting hlive
  rw [h.same.queue, List.map_eq_nil_iff] at hqueue
  have hw : w.step backend .receive = some (w.flushThen .exit) := by
    simp only [LogWorker.step, hselecting, LogWorker.receive, hqueue]
    rw [if_pos (h.same.closed ▸ hclosed)]
  obtain ⟨w', hreach, hsame, hphase⟩ := h.same.flushThen backend toJson .exit
  refine ⟨w', Reaches.trans (.next _ .start trivial hw) hreach, ?_, hphase⟩
  exact ⟨hsame.queue, hsame.closed, hsame.buf, hsame.accepted, hsame.batches⟩

theorem LogWorker.Refines.ticks (h : w.Refines s) (hlive : s.stopped = false) :
    ∃ w', Reaches (LogWorker.step backend) Always w w' ∧
      w'.Refines (s.flushBatch backend toJson) := by
  have hw : w.step backend .tick = some (w.flushThen .select) := by
    simp only [LogWorker.step, h.selecting hlive]
  obtain ⟨w', hreach, hsame, hphase⟩ := h.same.flushThen backend toJson .select
  have hlive' : (s.flushBatch backend toJson).stopped = false :=
    (LogStore.flushBatch_stopped s).trans hlive
  exact ⟨w', Reaches.trans (.next _ .start trivial hw) hreach,
    hsame.refines_selecting hphase hlive'⟩

theorem LogWorker.Refines.step (h : w.Refines s) {ev : LogEvent}
    (hstep : s.step backend toJson ev = some t) :
    ∃ w', Reaches (LogWorker.step backend) Always w w' ∧ w'.Refines t := by
  have hlen : s.queue.length = w.queue.length := by
    rw [h.same.queue, List.length_map]
  cases ev with
  | append rec =>
    simp only [LogStore.step] at hstep
    split at hstep
    · cases hstep
    · rename_i hopen
      split at hstep
      · rename_i hroom
        cases hstep
        have hw : w.step backend (.append rec) = some
            { w with queue := w.queue ++ [.record rec], accepted := w.accepted ++ [rec] } := by
          simp only [LogWorker.step]
          rw [if_neg (h.same.closed ▸ (not_or.mp hopen).1), if_pos (hlen ▸ hroom)]
        refine ⟨_, .next _ .start trivial hw, ⟨?_, h.same.closed, h.same.buf, ?_, h.same.batches⟩,
          h.phase⟩
        · change s.queue ++ [Cmd.record rec] = (w.queue ++ [WorkerCmd.record rec]).map WorkerCmd.erase
          rw [h.same.queue, List.map_append]
          rfl
        · exact congrArg (· ++ [rec]) h.same.accepted
      · cases hstep
        exact ⟨w, .start, h⟩
  | requestFlush =>
    simp only [LogStore.step] at hstep
    split at hstep
    · cases hstep
    · rename_i hopen
      cases hstep
      simp only [not_or] at hopen
      have hw : w.step backend .flush = some { w with
          queue := w.queue ++ [.flush w.flushes.length]
          flushes := w.flushes ++ [⟨w.accepted, false⟩] } := by
        simp only [LogWorker.step]
        rw [if_neg (not_or.mpr ⟨h.same.closed ▸ hopen.1, hlen ▸ hopen.2.2⟩)]
      refine ⟨_, .next _ .start trivial hw, ⟨?_, h.same.closed, h.same.buf, h.same.accepted,
        h.same.batches⟩, h.phase⟩
      change s.queue ++ [Cmd.flush] =
        (w.queue ++ [WorkerCmd.flush w.flushes.length]).map WorkerCmd.erase
      rw [h.same.queue, List.map_append]
      rfl
  | receive =>
    simp only [LogStore.step] at hstep
    split at hstep
    · rename_i cmd rest hqueue
      split at hstep
      · cases hstep
      · rename_i hlive
        cases hstep
        exact h.takes (Bool.not_eq_true _ ▸ hlive) hqueue
    · rename_i hqueue
      split at hstep
      · rename_i hend
        cases hstep
        exact h.ends (Bool.not_eq_true _ ▸ hend.2) hend.1 hqueue
      · cases hstep
  | tick =>
    simp only [LogStore.step] at hstep
    split at hstep
    · rename_i hidle
      cases hstep
      exact h.ticks (Bool.not_eq_true _ ▸ hidle.2.2)
    · cases hstep
  | close =>
    cases hstep
    exact ⟨_, .next .close .start trivial rfl, ⟨h.same.queue, rfl, h.same.buf, h.same.accepted,
      h.same.batches⟩, h.phase⟩

/-- Every run of `LogStore` is one of the worker in which nothing comes between the start
and the end of a batch. -/
theorem LogStore.reaches_worker {existing : List LogRow}
    (h : Reaches (LogStore.step backend toJson) Always (.init existing) s) :
    ∃ w, Reaches (LogWorker.step backend) Always .init w ∧ w.Refines s := by
  induction h with
  | start => exact ⟨.init, .start, ⟨rfl, rfl, rfl, rfl, rfl⟩, rfl⟩
  | next ev _ _ hstep ih =>
    obtain ⟨w, hreach, hrefines⟩ := ih
    obtain ⟨w', hnext, hrefines'⟩ := hrefines.step hstep
    exact ⟨w', hreach.trans hnext, hrefines'⟩

end

/-- On SQLite, whatever the callers do and whenever the interval ticks: the records the
channel accepted are, in order, those of the batches handed to `INSERT`, of the buffer and
of the queue, and only the batches are left when the worker ends, which it does once the
channel is closed; a batch has between 1 and 200 rows; an answered flush has every record
accepted before its marker among the batches. -/
theorem batches_exactly_once {s : LogWorker}
    (h : Reaches (LogWorker.step .sqlite) Always .init s) :
    s.accepted = s.handed.flatten ++ s.buf ++ queuedRecords s.queue ∧
      (s.phase = .stopped → s.handed.flatten = s.accepted) ∧
      (s.closed = true → ∃ t, Reaches (LogWorker.step .sqlite) Always s t ∧ t.phase = .stopped ∧
        t.handed.flatten = s.accepted) ∧
      (∀ batch ∈ s.handed, 1 ≤ batch.length ∧ batch.length ≤ 200) ∧
      ∀ call ∈ s.flushes, call.acked = true → call.before <+: s.handed.flatten := by
  have hordered := LogWorker.Ordered.of_reaches h
  have hend : ∀ {t : LogWorker}, t.Ordered .sqlite → t.phase = .stopped →
      t.handed.flatten = t.accepted := by
    intro t ht hstopped
    have hphase := ht.phase
    rw [hstopped] at hphase
    obtain ⟨hbuf, hqueue, -⟩ := hphase
    rw [ht.kept.fifo, hbuf, hqueue, List.append_nil]
    exact (List.append_nil _).symm
  refine ⟨hordered.kept.fifo, hend hordered, ?_, hordered.kept.sizes, hordered.kept.answered⟩
  intro hclosed
  obtain ⟨t, hreach, hstopped, haccepted⟩ := LogWorker.drains .sqlite hclosed
  have ht := LogWorker.Ordered.of_reaches (h.trans hreach)
  exact ⟨t, hreach, hstopped, (hend ht hstopped).trans haccepted⟩

theorem batches_exactly_once_flushed :
    ∃ s, Reaches (LogWorker.step .sqlite) Always .init s ∧ s.closed = true ∧
      s.handed.map List.length = [2, 1] ∧ s.flushes.map FlushCall.acked = [true] ∧
      (s.phase = .stopped → s.handed.flatten = s.accepted) := by
  have hreach : Reaches (LogWorker.step .sqlite) Always .init _ :=
    Reaches.of_run [.append (plainRecord "r1" none), .append (plainRecord "r2" none), .receive,
      .flush, .receive, .receive, .append (plainRecord "r3" none), .locked, .inserted, .receive,
      .close, .receive, .locked, .inserted] .start rfl
  exact ⟨_, hreach, rfl, rfl, rfl, (batches_exactly_once hreach).2.1⟩

end AiGateway.Storage
