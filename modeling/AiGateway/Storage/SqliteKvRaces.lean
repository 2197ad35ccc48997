import AiGateway.Storage.SqliteKv
import AiGateway.Library.Runs

/-!
# Concurrent calls on one key of `SqliteKvStore` (`gateway-storage/src/sqlite/kv.rs:66-138`)

Every access of L1 and every SQL statement is one step; the write lock makes the
write statements steps as well. A put or delete takes its L1 step before its
statement, a get that misses L1 reads the row and refills L1 in two steps, and
calls run in any interleaving. The puts and deletes are numbered in the order in
which they start. Beside the two tiers the state keeps which of them wrote the
entry and the row, and how many have taken their L1 step.
-/

namespace AiGateway.Storage
open AiGateway.Core AiGateway.Library.Runs

inductive WriteCall where
  | put (value : Bytes) (ttl : Duration)
  | delete

/-- The L1 step of a call. -/
def WriteCall.l1 (key : String) (s : SqliteKvStore) : WriteCall → SqliteKvStore
  | .put value _ => s.l1Insert key value
  | .delete => s.l1Remove key

/-- The statement of a call that took its time at `now`. -/
def WriteCall.l2 (key : String) (now : ℕ) (s : SqliteKvStore) : WriteCall → SqliteKvStore
  | .put value ttl =>
    { s with
      kvCache := Function.update s.kvCache key
        (some (SqliteKvStore.upsert (s.kvCache key) value (SqliteKvStore.expiry now ttl.asMillis)
          now)) }
  | .delete => s.deleteRow key

theorem put_eq_steps (s : SqliteKvStore) (key : String) (value : Bytes) (ttl : Duration) :
    s.put key value ttl =
      (WriteCall.put value ttl).l2 key s.now ((WriteCall.put value ttl).l1 key s) := rfl

theorem delete_eq_steps (s : SqliteKvStore) (key : String) :
    s.delete key = WriteCall.delete.l2 key s.now (WriteCall.delete.l1 key s) := rfl

inductive WritePhase where
  | started
  | l1Done
  -- with the number that the next call gets
  | returned (next : ℕ)
  deriving DecidableEq

structure Writer where
  call : WriteCall
  now : ℕ
  phase : WritePhase

inductive ReadPhase where
  | started
  | l1Missed
  -- the row and its writer; whether no call was between its two steps; the L1 steps so far
  | fetched (row : KvRow) (writer : ℕ) (quiet : Bool) (l1Steps : ℕ)
  | expired
  | returned (answer : Option (Bytes × ℕ))

/-- A get, with the puts and deletes that had returned when it started. -/
structure Reader where
  finished : List ℕ
  phase : ReadPhase

structure KvRace where
  store : SqliteKvStore
  writers : List Writer
  readers : List Reader
  l1By : ℕ
  rowBy : ℕ
  l1Steps : ℕ

def KvRace.new : KvRace := ⟨.new, [], [], 0, 0, 0⟩

def Writer.hasReturned (w : Writer) : Bool :=
  match w.phase with
  | .returned _ => true
  | _ => false

def KvRace.finished (s : KvRace) : List ℕ :=
  (List.range s.writers.length).filter fun p => (s.writers[p]?).any Writer.hasReturned

def KvRace.quiet (s : KvRace) : Bool := s.writers.all fun w => w.phase ≠ .l1Done

def KvRace.setReader (s : KvRace) (g : ℕ) (reader : Reader) : KvRace :=
  { s with readers := s.readers.set g reader }

inductive KvAction where
  | startWrite (call : WriteCall)
  | writeL1 (i : ℕ)
  | writeL2 (i : ℕ)
  | startGet
  | getL1 (g : ℕ)
  | getL2 (g : ℕ)
  | refill (g : ℕ)
  | clean (g : ℕ) (cleaned : Bool)
  | evict (picked : List String)
  | l1Evict
  | tick (ms : ℕ)

def kvStep (key : String) (s : KvRace) : KvAction → Option KvRace
  | .startWrite call => some { s with writers := s.writers ++ [⟨call, s.store.now, .started⟩] }
  | .writeL1 i =>
    match s.writers[i]? with
    | some ⟨call, now, .started⟩ =>
      some { s with
        store := call.l1 key s.store
        writers := s.writers.set i ⟨call, now, .l1Done⟩
        l1By := i
        l1Steps := s.l1Steps + 1 }
    | _ => none
  | .writeL2 i =>
    match s.writers[i]? with
    | some ⟨call, now, .l1Done⟩ =>
      some { s with
        store := call.l2 key now s.store
        writers := s.writers.set i ⟨call, now, .returned s.writers.length⟩
        rowBy := i }
    | _ => none
  | .startGet => some { s with readers := s.readers ++ [⟨s.finished, .started⟩] }
  | .getL1 g =>
    match s.readers[g]? with
    | some ⟨finished, .started⟩ =>
      match s.store.l1Get key with
      | some v => some (s.setReader g ⟨finished, .returned (some (v, s.l1By))⟩)
      | none => some (s.setReader g ⟨finished, .l1Missed⟩)
    | _ => none
  | .getL2 g =>
    match s.readers[g]? with
    | some ⟨finished, .l1Missed⟩ =>
      match s.store.kvCache key with
      | some row => some (s.setReader g ⟨finished, .fetched row s.rowBy s.quiet s.l1Steps⟩)
      | none => some (s.setReader g ⟨finished, .returned none⟩)
    | _ => none
  | .refill g =>
    match s.readers[g]? with
    | some ⟨finished, .fetched row writer _ _⟩ =>
      if row.expiresAt < s.store.now then some (s.setReader g ⟨finished, .expired⟩)
      else
        some ({ s with store := s.store.l1Insert key row.value, l1By := writer }.setReader g
          ⟨finished, .returned (some (row.value, writer))⟩)
    | _ => none
  | .clean g cleaned =>
    match s.readers[g]? with
    | some ⟨finished, .expired⟩ =>
      some ({ s with store := if cleaned then s.store.deleteRow key else s.store }.setReader g
        ⟨finished, .returned none⟩)
    | _ => none
  | .evict picked => some { s with store := s.store.evict picked }
  | .l1Evict => some { s with store := s.store.l1Remove key }
  | .tick ms => some { s with store := { s.store with now := s.store.now + ms } }

/-- A get that nothing interrupts is `SqliteKvStore.get`. -/
theorem get_eq_steps (key : String) (s : KvRace) (cleaned : Bool) :
    ∃ actions t writer, run (kvStep key) s actions = some t ∧
      t.store = (s.store.get key cleaned).2 ∧
      t.readers = s.readers ++
        [⟨s.finished, .returned ((s.store.get key cleaned).1.map fun v => (v, writer))⟩] := by
  have hlast : ∀ reader : Reader, (s.readers ++ [reader])[s.readers.length]? = some reader :=
    fun reader => List.getElem?_concat_length
  have hset : ∀ reader reader' : Reader, (s.readers ++ [reader]).set s.readers.length reader' =
      s.readers ++ [reader'] := by
    intro reader reader'
    rw [List.set_append_right _ _ (le_refl _), Nat.sub_self]
    rfl
  unfold SqliteKvStore.get
  cases hl1 : s.store.l1Get key with
  | some v =>
    refine ⟨[.startGet, .getL1 s.readers.length],
      { s with readers := s.readers ++ [⟨s.finished, .returned (some (v, s.l1By))⟩] }, s.l1By,
      ?_, rfl, rfl⟩
    simp only [run, kvStep, Option.bind_some, hlast, hl1, KvRace.setReader, hset]
  | none =>
    cases hrow : s.store.kvCache key with
    | none =>
      refine ⟨[.startGet, .getL1 s.readers.length, .getL2 s.readers.length],
        { s with readers := s.readers ++ [⟨s.finished, .returned none⟩] }, 0, ?_, rfl, rfl⟩
      simp only [run, kvStep, Option.bind_some, hlast, hl1, hrow, KvRace.setReader, hset]
    | some row =>
      by_cases hexp : row.expiresAt < s.store.now
      · simp only [if_pos hexp]
        refine ⟨[.startGet, .getL1 s.readers.length, .getL2 s.readers.length,
          .refill s.readers.length, .clean s.readers.length cleaned],
          { s with
            store := if cleaned then s.store.deleteRow key else s.store
            readers := s.readers ++ [⟨s.finished, .returned none⟩] }, 0, ?_, rfl, rfl⟩
        simp only [run, kvStep, Option.bind_some, hlast, hl1, hrow, KvRace.setReader, hset,
          if_pos hexp]
      · simp only [if_neg hexp]
        refine ⟨[.startGet, .getL1 s.readers.length, .getL2 s.readers.length,
          .refill s.readers.length],
          { s with
            store := s.store.l1Insert key row.value
            readers := s.readers ++ [⟨s.finished, .returned (some (row.value, s.rowBy))⟩]
            l1By := s.rowBy }, s.rowBy, ?_, rfl, rfl⟩
        simp only [run, kvStep, Option.bind_some, hlast, hl1, hrow, KvRace.setReader, hset,
          if_neg hexp]

/-! ### Earlier calls -/

def KvRace.PastL1 (s : KvRace) (p : ℕ) : Prop :=
  ∃ w, s.writers[p]? = some w ∧ w.phase ≠ .started

def KvRace.Finished (s : KvRace) (p : ℕ) : Prop :=
  ∃ w next, s.writers[p]? = some w ∧ w.phase = .returned next

def KvRace.Wrote (s : KvRace) (q : ℕ) (value : Bytes) : Prop :=
  ∃ w ttl, s.writers[q]? = some w ∧ w.call = .put value ttl

/-- Two readings of "earlier": returned before the other call started, or started before it. -/
inductive Before where
  | returned
  | started
  deriving DecidableEq

def KvRace.Earlier (s : KvRace) (q p : ℕ) : Before → Prop
  | .returned => ∃ w next, s.writers[q]? = some w ∧ w.phase = .returned next ∧ next ≤ p
  | .started => q < p

/-- No get answers with the value of a put that is earlier than a put or delete that had
returned when the get started. -/
def NoStaleRead (before : Before) (s : KvRace) : Prop :=
  ∀ reader ∈ s.readers, ∀ value q, reader.phase = .returned (some (value, q)) →
    s.Wrote q value ∧ ∀ p ∈ reader.finished, s.Finished p ∧ ¬ s.Earlier q p before

/-- No put or delete was between its two steps when a refilled row was read, and none took its
L1 step since. Where a put counts as earlier once it started earlier, the calls also take
their steps in the order of their starts. -/
def Undisturbed (before : Before) (s : KvRace) : KvAction → Prop
  | .refill g =>
    ∀ finished row writer quiet l1Steps,
      s.readers[g]? = some ⟨finished, .fetched row writer quiet l1Steps⟩ →
        row.expiresAt < s.store.now ∨ (quiet = true ∧ l1Steps = s.l1Steps)
  | .writeL1 i => before = .started → ∀ p, s.PastL1 p → p < i
  | .writeL2 i => before = .started → ∀ p, s.Finished p → p < i
  | _ => True

theorem KvRace.Finished.pastL1 {s : KvRace} {p : ℕ} (h : s.Finished p) : s.PastL1 p := by
  obtain ⟨w, next, hw, hphase⟩ := h
  refine ⟨w, hw, ?_⟩
  rw [hphase]
  intro h
  cases h

theorem KvRace.PastL1.lt {s : KvRace} {p : ℕ} (h : s.PastL1 p) : p < s.writers.length := by
  obtain ⟨w, hw, -⟩ := h
  exact (List.getElem?_eq_some_iff.mp hw).1

theorem mem_finished {s : KvRace} {p : ℕ} : p ∈ s.finished ↔ s.Finished p := by
  unfold KvRace.finished KvRace.Finished
  rw [List.mem_filter, List.mem_range, Option.any_eq_true]
  constructor
  · intro hfinished
    obtain ⟨-, w, hw, hret⟩ := hfinished
    unfold Writer.hasReturned at hret
    split at hret
    · rename_i next hphase
      exact ⟨w, next, hw, hphase⟩
    · cases hret
  · intro hfinished
    obtain ⟨w, next, hw, hphase⟩ := hfinished
    refine ⟨(List.getElem?_eq_some_iff.mp hw).1, w, hw, ?_⟩
    unfold Writer.hasReturned
    rw [hphase]

theorem quiet_finished {s : KvRace} (h : s.quiet = true) {p : ℕ} (hp : s.PastL1 p) :
    s.Finished p := by
  obtain ⟨w, hw, hphase⟩ := hp
  have hmid : w.phase ≠ .l1Done := by
    have hall := List.all_eq_true.mp h w (List.mem_of_getElem? hw)
    exact of_decide_eq_true hall
  cases hcase : w.phase with
  | started => exact absurd hcase hphase
  | l1Done => exact absurd hcase hmid
  | returned next => exact ⟨w, next, hw, hcase⟩

/-! ### What a step keeps -/

/-- The calls go on: what was written and who returned stays, and no call becomes earlier than
one that has taken its L1 step. -/
structure Advances (s t : KvRace) : Prop where
  wrote : ∀ q value, s.Wrote q value → t.Wrote q value
  finished : ∀ p, s.Finished p → t.Finished p
  earlier : ∀ before q p, s.PastL1 p → t.Earlier q p before → s.Earlier q p before

theorem Advances.of_writers {s t : KvRace} (h : t.writers = s.writers) : Advances s t := by
  refine ⟨?_, ?_, ?_⟩
  · intro q value hq
    unfold KvRace.Wrote
    rw [h]
    exact hq
  · intro p hp
    unfold KvRace.Finished
    rw [h]
    exact hp
  · intro before q p _ hqp
    cases before with
    | started => exact hqp
    | returned =>
      unfold KvRace.Earlier at hqp
      rw [h] at hqp
      exact hqp

theorem pastL1_congr {s t : KvRace} (h : t.writers = s.writers) {p : ℕ} :
    t.PastL1 p ↔ s.PastL1 p := by
  unfold KvRace.PastL1
  rw [h]

theorem finished_congr {s t : KvRace} (h : t.writers = s.writers) {p : ℕ} :
    t.Finished p ↔ s.Finished p := by
  unfold KvRace.Finished
  rw [h]

/-- A call that moved on to `phase` by its own step. -/
def KvRace.Moves (s t : KvRace) (i : ℕ) (call : WriteCall) (now : ℕ) (old phase : WritePhase) :
    Prop :=
  s.writers[i]? = some ⟨call, now, old⟩ ∧ t.writers = s.writers.set i ⟨call, now, phase⟩

section
variable {s t : KvRace} {i now : ℕ} {call : WriteCall} {old phase : WritePhase}

theorem KvRace.Moves.self (h : s.Moves t i call now old phase) :
    t.writers[i]? = some ⟨call, now, phase⟩ := by
  rw [h.2]
  exact List.getElem?_set_self (List.getElem?_eq_some_iff.mp h.1).1

theorem KvRace.Moves.other (h : s.Moves t i call now old phase) {p : ℕ} (hp : p ≠ i) :
    t.writers[p]? = s.writers[p]? := by
  rw [h.2]
  exact List.getElem?_set_ne (Ne.symm hp)

theorem KvRace.Moves.wrote (h : s.Moves t i call now old phase) {q : ℕ} {value : Bytes}
    (hq : s.Wrote q value) : t.Wrote q value := by
  obtain ⟨w, ttl, hw, hcall⟩ := hq
  by_cases hqi : q = i
  · subst hqi
    rw [h.1] at hw
    cases hw
    exact ⟨_, ttl, h.self, hcall⟩
  · exact ⟨w, ttl, (h.other hqi).trans hw, hcall⟩

theorem KvRace.Moves.toL1 (h : s.Moves t i call now .started .l1Done) :
    Advances s t ∧ (∀ p, t.PastL1 p → p = i ∨ s.PastL1 p) ∧
      (∀ p, t.Finished p → s.Finished p) := by
  refine ⟨⟨fun q value => h.wrote, ?_, ?_⟩, ?_, ?_⟩
  · intro p hp
    obtain ⟨w, next, hw, hphase⟩ := hp
    by_cases hpi : p = i
    · subst hpi
      rw [h.1] at hw
      cases hw
      cases hphase
    · exact ⟨w, next, (h.other hpi).trans hw, hphase⟩
  · intro before q p _ hqp
    cases before with
    | started => exact hqp
    | returned =>
      obtain ⟨w, next, hw, hphase, hnext⟩ := hqp
      by_cases hqi : q = i
      · subst hqi
        rw [h.self] at hw
        cases hw
        cases hphase
      · exact ⟨w, next, (h.other hqi).symm.trans hw, hphase, hnext⟩
  · intro p hp
    obtain ⟨w, hw, hphase⟩ := hp
    by_cases hpi : p = i
    · exact .inl hpi
    · exact .inr ⟨w, (h.other hpi).symm.trans hw, hphase⟩
  · intro p hp
    obtain ⟨w, next, hw, hphase⟩ := hp
    by_cases hpi : p = i
    · subst hpi
      rw [h.self] at hw
      cases hw
      cases hphase
    · exact ⟨w, next, (h.other hpi).symm.trans hw, hphase⟩

theorem KvRace.Moves.toL2 (h : s.Moves t i call now .l1Done (.returned s.writers.length)) :
    Advances s t ∧ (∀ p, t.PastL1 p → s.PastL1 p) ∧
      (∀ p, t.Finished p → p = i ∨ s.Finished p) := by
  have hpast : s.PastL1 i := ⟨_, h.1, fun h => by cases h⟩
  refine ⟨⟨fun q value => h.wrote, ?_, ?_⟩, ?_, ?_⟩
  · intro p hp
    obtain ⟨w, next, hw, hphase⟩ := hp
    by_cases hpi : p = i
    · subst hpi
      exact ⟨_, _, h.self, rfl⟩
    · exact ⟨w, next, (h.other hpi).trans hw, hphase⟩
  · intro before q p hp hqp
    cases before with
    | started => exact hqp
    | returned =>
      obtain ⟨w, next, hw, hphase, hnext⟩ := hqp
      by_cases hqi : q = i
      · subst hqi
        rw [h.self] at hw
        cases hw
        cases hphase
        have hlt := hp.lt
        omega
      · exact ⟨w, next, (h.other hqi).symm.trans hw, hphase, hnext⟩
  · intro p hp
    obtain ⟨w, hw, hphase⟩ := hp
    by_cases hpi : p = i
    · exact hpi ▸ hpast
    · exact ⟨w, (h.other hpi).symm.trans hw, hphase⟩
  · intro p hp
    obtain ⟨w, next, hw, hphase⟩ := hp
    by_cases hpi : p = i
    · exact .inl hpi
    · exact .inr ⟨w, next, (h.other hpi).symm.trans hw, hphase⟩

end

/-- A call that has just taken its L1 step is not earlier than one that took it before. -/
theorem KvRace.Moves.l1_not_earlier {s t : KvRace} {i now p : ℕ} {call : WriteCall}
    {before : Before} (h : s.Moves t i call now .started .l1Done)
    (horder : before = .started → ∀ p, s.PastL1 p → p < i) (hp : t.PastL1 p) :
    ¬ t.Earlier i p before := by
  intro hearlier
  cases before with
  | returned =>
    obtain ⟨w, next, hw, hphase, -⟩ := hearlier
    rw [h.self] at hw
    cases hw
    cases hphase
  | started =>
    have hlt : i < p := hearlier
    rcases h.toL1.2.1 p hp with hpi | hold
    · omega
    · have hp' := horder rfl p hold
      omega

/-- A call that has just returned is not earlier than one that returned before. -/
theorem KvRace.Moves.l2_not_earlier {s t : KvRace} {i now p : ℕ} {call : WriteCall}
    {before : Before} (h : s.Moves t i call now .l1Done (.returned s.writers.length))
    (horder : before = .started → ∀ p, s.Finished p → p < i) (hp : t.Finished p) :
    ¬ t.Earlier i p before := by
  intro hearlier
  cases before with
  | returned =>
    obtain ⟨w, next, hw, hphase, hnext⟩ := hearlier
    rw [h.self] at hw
    cases hw
    cases hphase
    have hlt := (h.toL2.2.1 p hp.pastL1).lt
    omega
  | started =>
    have hlt : i < p := hearlier
    rcases h.toL2.2.2 p hp with hpi | hold
    · omega
    · have hp' := horder rfl p hold
      omega

theorem startWrite_advances (s : KvRace) (call : WriteCall) {t : KvRace}
    (h : t.writers = s.writers ++ [⟨call, s.store.now, .started⟩]) :
    Advances s t ∧ (∀ p, t.PastL1 p → s.PastL1 p) ∧ (∀ p, t.Finished p → s.Finished p) := by
  have hold : ∀ {p : ℕ} {w : Writer}, s.writers[p]? = some w → t.writers[p]? = some w := by
    intro p w hw
    rw [h, List.getElem?_append_left (List.getElem?_eq_some_iff.mp hw).1]
    exact hw
  have hnew : ∀ {p : ℕ} {w : Writer}, t.writers[p]? = some w → w.phase ≠ .started → s.writers[p]? = some w := by
    intro p w hw hphase
    rw [h] at hw
    by_cases hp : p < s.writers.length
    · rw [List.getElem?_append_left hp] at hw
      exact hw
    · rw [List.getElem?_append_right (Nat.le_of_not_lt hp), List.getElem?_singleton] at hw
      split at hw
      · cases hw
        exact absurd rfl hphase
      · cases hw
  refine ⟨⟨?_, ?_, ?_⟩, ?_, ?_⟩
  · intro q value hq
    obtain ⟨w, ttl, hw, hcall⟩ := hq
    exact ⟨w, ttl, hold hw, hcall⟩
  · intro p hp
    obtain ⟨w, next, hw, hphase⟩ := hp
    exact ⟨w, next, hold hw, hphase⟩
  · intro before q p _ hqp
    cases before with
    | started => exact hqp
    | returned =>
      obtain ⟨w, next, hw, hphase, hnext⟩ := hqp
      exact ⟨w, next, hnew hw (by rw [hphase]; intro h; cases h), hphase, hnext⟩
  · intro p hp
    obtain ⟨w, hw, hphase⟩ := hp
    exact ⟨w, hnew hw hphase, hphase⟩
  · intro p hp
    obtain ⟨w, next, hw, hphase⟩ := hp
    exact ⟨w, next, hnew hw (by rw [hphase]; intro h; cases h), hphase⟩

/-! ### The invariant -/

def L1Ok (key : String) (before : Before) (s : KvRace) : Prop :=
  ∀ e, s.store.l1 key = some e →
    s.Wrote s.l1By e.value ∧ ∀ p, s.PastL1 p → ¬ s.Earlier s.l1By p before

def RowOk (key : String) (before : Before) (s : KvRace) : Prop :=
  ∀ row, s.store.kvCache key = some row →
    s.Wrote s.rowBy row.value ∧ ∀ p, s.Finished p → ¬ s.Earlier s.rowBy p before

def ReaderOk (before : Before) (s : KvRace) (reader : Reader) : Prop :=
  (∀ p ∈ reader.finished, s.Finished p) ∧
    match reader.phase with
    | .fetched row writer quiet l1Steps =>
      s.Wrote writer row.value ∧ (∀ p ∈ reader.finished, ¬ s.Earlier writer p before) ∧
        l1Steps ≤ s.l1Steps ∧
        (quiet = true → l1Steps = s.l1Steps → ∀ p, s.PastL1 p →
          s.Finished p ∧ ¬ s.Earlier writer p before)
    | .returned (some (value, q)) =>
      s.Wrote q value ∧ ∀ p ∈ reader.finished, ¬ s.Earlier q p before
    | _ => True

structure RaceInv (key : String) (before : Before) (s : KvRace) : Prop where
  l1 : L1Ok key before s
  row : RowOk key before s
  readers : ∀ reader ∈ s.readers, ReaderOk before s reader

section
variable {key : String} {before : Before} {s t : KvRace}

theorem L1Ok.keep (h : L1Ok key before s) (hadv : Advances s t) (hby : t.l1By = s.l1By)
    (hpast : ∀ p, t.PastL1 p → s.PastL1 p)
    (hl1 : ∀ e, t.store.l1 key = some e → s.store.l1 key = some e) : L1Ok key before t := by
  intro e he
  obtain ⟨hwrote, hfresh⟩ := h e (hl1 e he)
  rw [hby]
  refine ⟨hadv.wrote _ _ hwrote, ?_⟩
  intro p hp hearlier
  exact hfresh p (hpast p hp) (hadv.earlier before _ p (hpast p hp) hearlier)

theorem RowOk.keep (h : RowOk key before s) (hadv : Advances s t) (hby : t.rowBy = s.rowBy)
    (hfin : ∀ p, t.Finished p → s.Finished p)
    (hrow : ∀ row, t.store.kvCache key = some row → s.store.kvCache key = some row) :
    RowOk key before t := by
  intro row hr
  obtain ⟨hwrote, hfresh⟩ := h row (hrow row hr)
  rw [hby]
  refine ⟨hadv.wrote _ _ hwrote, ?_⟩
  intro p hp hearlier
  exact hfresh p (hfin p hp) (hadv.earlier before _ p (hfin p hp).pastL1 hearlier)

/-- A reader keeps what it knows, unless a call takes its L1 step; then it has no claim to its
row being the latest. -/
theorem ReaderOk.keep {reader : Reader} (h : ReaderOk before s reader) (hadv : Advances s t)
    (hsteps : (t.l1Steps = s.l1Steps ∧ ∀ p, t.PastL1 p → s.PastL1 p) ∨ s.l1Steps < t.l1Steps) :
    ReaderOk before t reader := by
  obtain ⟨hfin, hphase⟩ := h
  have hfresh : ∀ {q}, (∀ p ∈ reader.finished, ¬ s.Earlier q p before) →
      ∀ p ∈ reader.finished, ¬ t.Earlier q p before := by
    intro q hq p hp hearlier
    exact hq p hp (hadv.earlier before q p (hfin p hp).pastL1 hearlier)
  refine ⟨fun p hp => hadv.finished p (hfin p hp), ?_⟩
  split at hphase
  · obtain ⟨hwrote, hnot, hle, hquiet⟩ := hphase
    refine ⟨hadv.wrote _ _ hwrote, hfresh hnot, ?_, ?_⟩
    · rcases hsteps with hsteps | hsteps
      · omega
      · omega
    · intro hq heq p hp
      rcases hsteps with ⟨hsame, hpast⟩ | hsteps
      · obtain ⟨hfinished, hearlier⟩ := hquiet hq (heq.trans hsame) p (hpast p hp)
        refine ⟨hadv.finished p hfinished, ?_⟩
        intro he
        exact hearlier (hadv.earlier before _ p (hpast p hp) he)
      · omega
  · exact ⟨hadv.wrote _ _ hphase.1, hfresh hphase.2⟩
  · trivial

/-- A step that leaves the puts and deletes alone. -/
theorem RaceInv.keep (h : RaceInv key before s) (hwriters : t.writers = s.writers)
    (hl1 : L1Ok key before t) (hrow : RowOk key before t) (hsteps : t.l1Steps = s.l1Steps)
    (hreaders : ∀ reader ∈ t.readers, reader ∈ s.readers ∨ ReaderOk before t reader) :
    RaceInv key before t := by
  refine ⟨hl1, hrow, ?_⟩
  intro reader hmem
  rcases hreaders reader hmem with hold | hnew
  · apply (h.readers reader hold).keep (.of_writers hwriters)
    exact .inl ⟨hsteps, fun p => (pastL1_congr hwriters).mp⟩
  · exact hnew

theorem RaceInv.setReader (h : RaceInv key before s) (g : ℕ) {reader : Reader}
    (hreader : ReaderOk before s reader) : RaceInv key before (s.setReader g reader) := by
  refine RaceInv.keep (t := s.setReader g reader) h rfl h.l1 h.row rfl ?_
  intro reader' hmem
  rcases List.mem_or_eq_of_mem_set hmem with hold | rfl
  · exact .inl hold
  · exact .inr hreader

/-- A step on the store that only loses entries and rows. -/
theorem RaceInv.lose (h : RaceInv key before s) {store : SqliteKvStore}
    (hl1 : ∀ e, store.l1 key = some e → s.store.l1 key = some e)
    (hrow : ∀ row, store.kvCache key = some row → s.store.kvCache key = some row) :
    RaceInv key before { s with store } := by
  refine h.keep rfl ?_ ?_ rfl ?_
  · exact h.l1.keep (.of_writers rfl) rfl (fun p => (pastL1_congr rfl).mp) hl1
  · exact h.row.keep (.of_writers rfl) rfl (fun p => (finished_congr rfl).mp) hrow
  · intro reader hmem
    exact .inl hmem

theorem ReaderOk.of_mem (h : RaceInv key before s) {g : ℕ} {reader : Reader}
    (hg : s.readers[g]? = some reader) : ReaderOk before s reader :=
  h.readers reader (List.mem_of_getElem? hg)

theorem RaceInv.startWrite (h : RaceInv key before s) (call : WriteCall) :
    RaceInv key before
      { s with writers := s.writers ++ [⟨call, s.store.now, .started⟩] } := by
  obtain ⟨hadv, hpast, hfin⟩ := startWrite_advances s call
    (t := { s with writers := s.writers ++ [⟨call, s.store.now, .started⟩] }) rfl
  refine ⟨h.l1.keep hadv rfl hpast fun _ he => he, h.row.keep hadv rfl hfin fun _ hr => hr, ?_⟩
  intro reader hmem
  exact (h.readers reader hmem).keep hadv (.inl ⟨rfl, hpast⟩)

theorem RaceInv.writeL1 (h : RaceInv key before s) {i now : ℕ} {call : WriteCall}
    (hi : s.writers[i]? = some ⟨call, now, .started⟩)
    (horder : before = .started → ∀ p, s.PastL1 p → p < i) :
    RaceInv key before
      { s with
        store := call.l1 key s.store
        writers := s.writers.set i ⟨call, now, .l1Done⟩
        l1By := i
        l1Steps := s.l1Steps + 1 } := by
  generalize ht : ({ s with
        store := call.l1 key s.store
        writers := s.writers.set i ⟨call, now, .l1Done⟩
        l1By := i
        l1Steps := s.l1Steps + 1 } : KvRace) = t
  have hmoves : s.Moves t i call now .started .l1Done := ⟨hi, by rw [← ht]⟩
  obtain ⟨hadv, hpast, hfin⟩ := hmoves.toL1
  refine ⟨?_, ?_, ?_⟩
  · intro e he
    have hby : t.l1By = i := by rw [← ht]
    rw [hby]
    refine ⟨?_, ?_⟩
    · cases call with
      | put value ttl =>
        rw [← ht] at he
        simp only [WriteCall.l1, SqliteKvStore.l1Insert, Function.update_self,
          Option.some.injEq] at he
        exact ⟨_, ttl, hmoves.self, by rw [← he]⟩
      | delete =>
        rw [← ht] at he
        simp [WriteCall.l1, SqliteKvStore.l1Remove] at he
    · intro p hp
      exact hmoves.l1_not_earlier horder hp
  · refine h.row.keep hadv (by rw [← ht]) hfin ?_
    intro row hrow
    rw [← ht] at hrow
    cases call with
    | put value ttl => exact hrow
    | delete => exact hrow
  · intro reader hmem
    have hreaders : t.readers = s.readers := by rw [← ht]
    rw [hreaders] at hmem
    apply (h.readers reader hmem).keep hadv
    right
    rw [← ht]
    exact Nat.lt_succ_self _

theorem RaceInv.writeL2 (h : RaceInv key before s) {i now : ℕ} {call : WriteCall}
    (hi : s.writers[i]? = some ⟨call, now, .l1Done⟩)
    (horder : before = .started → ∀ p, s.Finished p → p < i) :
    RaceInv key before
      { s with
        store := call.l2 key now s.store
        writers := s.writers.set i ⟨call, now, .returned s.writers.length⟩
        rowBy := i } := by
  generalize ht : ({ s with
        store := call.l2 key now s.store
        writers := s.writers.set i ⟨call, now, .returned s.writers.length⟩
        rowBy := i } : KvRace) = t
  have hmoves : s.Moves t i call now .l1Done (.returned s.writers.length) := ⟨hi, by rw [← ht]⟩
  obtain ⟨hadv, hpast, hfin⟩ := hmoves.toL2
  refine ⟨?_, ?_, ?_⟩
  · refine h.l1.keep hadv (by rw [← ht]) hpast ?_
    intro e he
    rw [← ht] at he
    cases call with
    | put value ttl => exact he
    | delete => exact he
  · intro row hrow
    have hby : t.rowBy = i := by rw [← ht]
    rw [hby]
    refine ⟨?_, ?_⟩
    · cases call with
      | put value ttl =>
        rw [← ht] at hrow
        simp only [WriteCall.l2, Function.update_self, Option.some.injEq] at hrow
        exact ⟨_, ttl, hmoves.self, by rw [← hrow, upsert_value]⟩
      | delete =>
        rw [← ht] at hrow
        simp [WriteCall.l2, SqliteKvStore.deleteRow] at hrow
    · intro p hp
      exact hmoves.l2_not_earlier horder hp
  · intro reader hmem
    have hreaders : t.readers = s.readers := by rw [← ht]
    rw [hreaders] at hmem
    apply (h.readers reader hmem).keep hadv
    left
    refine ⟨by rw [← ht], hpast⟩

theorem RaceInv.startGet (h : RaceInv key before s) :
    RaceInv key before { s with readers := s.readers ++ [⟨s.finished, .started⟩] } := by
  refine RaceInv.keep (t := { s with readers := s.readers ++ [⟨s.finished, .started⟩] }) h rfl
    h.l1 h.row rfl ?_
  intro reader hmem
  rcases List.mem_append.mp hmem with hold | hnew
  · exact .inl hold
  · right
    rw [List.mem_singleton.mp hnew]
    exact ⟨fun p => mem_finished.mp, trivial⟩

theorem RaceInv.clean (h : RaceInv key before s) {g : ℕ} {finished : List ℕ}
    (hg : s.readers[g]? = some ⟨finished, .expired⟩) (cleaned : Bool) :
    RaceInv key before
      ({ s with store := if cleaned then s.store.deleteRow key else s.store }.setReader g
        ⟨finished, .returned none⟩) := by
  have hfin := (ReaderOk.of_mem h hg).1
  apply RaceInv.setReader
  · apply h.lose
    · intro e he
      cases cleaned with
      | true => exact he
      | false => exact he
    · intro row hrow
      cases cleaned with
      | true => simp [SqliteKvStore.deleteRow] at hrow
      | false => exact hrow
  · exact ⟨hfin, trivial⟩

theorem RaceInv.evict (h : RaceInv key before s) (picked : List String) :
    RaceInv key before { s with store := s.store.evict picked } := by
  refine h.lose (fun e he => he) ?_
  intro row hrow
  simp only [SqliteKvStore.evict] at hrow
  split at hrow
  · rename_i hold
    split at hrow
    · cases hrow
    · rw [hold, hrow]
  · cases hrow

/-- The answer of L1 was not written by a call earlier than one that had returned. -/
theorem RaceInv.l1Answer (h : RaceInv key before s) {finished : List ℕ} {value : Bytes}
    (hfin : ∀ p ∈ finished, s.Finished p) (hget : s.store.l1Get key = some value) :
    ReaderOk before s ⟨finished, .returned (some (value, s.l1By))⟩ := by
  unfold SqliteKvStore.l1Get at hget
  cases he : s.store.l1 key with
  | none =>
    rw [he] at hget
    cases hget
  | some e =>
    simp only [he] at hget
    split at hget
    · obtain ⟨hwrote, hfresh⟩ := h.l1 e he
      cases hget
      exact ⟨hfin, hwrote, fun p hp => hfresh p (hfin p hp).pastL1⟩
    · cases hget

theorem RaceInv.rowAnswer (h : RaceInv key before s) {finished : List ℕ} {row : KvRow}
    (hfin : ∀ p ∈ finished, s.Finished p) (hrow : s.store.kvCache key = some row) :
    ReaderOk before s ⟨finished, .fetched row s.rowBy s.quiet s.l1Steps⟩ := by
  obtain ⟨hwrote, hfresh⟩ := h.row row hrow
  refine ⟨hfin, hwrote, fun p hp => hfresh p (hfin p hp), le_refl _, ?_⟩
  intro hquiet _ p hp
  have hfinished := quiet_finished hquiet hp
  exact ⟨hfinished, hfresh p hfinished⟩

/-- An undisturbed refill puts the latest value into L1. -/
theorem RaceInv.refill (h : RaceInv key before s) {g l1Steps writer : ℕ} {finished : List ℕ}
    {row : KvRow} {quiet : Bool}
    (hg : s.readers[g]? = some ⟨finished, .fetched row writer quiet l1Steps⟩)
    (hquiet : quiet = true ∧ l1Steps = s.l1Steps) :
    RaceInv key before
      ({ s with store := s.store.l1Insert key row.value, l1By := writer }.setReader g
        ⟨finished, .returned (some (row.value, writer))⟩) := by
  obtain ⟨hfin, hwrote, hnot, -, hlatest⟩ := ReaderOk.of_mem h hg
  apply RaceInv.setReader
  · refine RaceInv.keep
      (t := { s with store := s.store.l1Insert key row.value, l1By := writer }) h rfl ?_ h.row rfl ?_
    · intro e he
      simp only [SqliteKvStore.l1Insert, Function.update_self, Option.some.injEq] at he
      rw [← he]
      exact ⟨hwrote, fun p hp => (hlatest hquiet.1 hquiet.2 p hp).2⟩
    · intro reader hmem
      exact .inl hmem
  · exact ⟨hfin, hwrote, hnot⟩

end

theorem raceInv_step {key : String} {before : Before} (s t : KvRace) (a : KvAction)
    (h : RaceInv key before s) (hguard : Undisturbed before s a) (hstep : kvStep key s a = some t) :
    RaceInv key before t := by
  cases a with
  | startWrite call =>
    cases hstep
    exact h.startWrite call
  | writeL1 i =>
    simp only [kvStep] at hstep
    split at hstep
    · rename_i hi
      cases hstep
      exact h.writeL1 hi hguard
    · cases hstep
  | writeL2 i =>
    simp only [kvStep] at hstep
    split at hstep
    · rename_i hi
      cases hstep
      exact h.writeL2 hi hguard
    · cases hstep
  | startGet =>
    cases hstep
    exact h.startGet
  | getL1 g =>
    simp only [kvStep] at hstep
    split at hstep
    · rename_i hg
      have hfin := (ReaderOk.of_mem h hg).1
      split at hstep
      · rename_i hget
        cases hstep
        exact h.setReader g (h.l1Answer hfin hget)
      · cases hstep
        exact h.setReader g ⟨hfin, trivial⟩
    · cases hstep
  | getL2 g =>
    simp only [kvStep] at hstep
    split at hstep
    · rename_i hg
      have hfin := (ReaderOk.of_mem h hg).1
      split at hstep
      · rename_i hrow
        cases hstep
        exact h.setReader g (h.rowAnswer hfin hrow)
      · cases hstep
        exact h.setReader g ⟨hfin, trivial⟩
    · cases hstep
  | refill g =>
    simp only [kvStep] at hstep
    split at hstep
    · rename_i hg
      split at hstep
      · cases hstep
        exact h.setReader g ⟨(ReaderOk.of_mem h hg).1, trivial⟩
      · rename_i hlive
        cases hstep
        rcases hguard _ _ _ _ _ hg with hexp | hquiet
        · exact absurd hexp hlive
        · exact h.refill hg hquiet
    · cases hstep
  | clean g cleaned =>
    simp only [kvStep] at hstep
    split at hstep
    · rename_i hg
      cases hstep
      exact h.clean hg cleaned
    · cases hstep
  | evict picked =>
    cases hstep
    exact h.evict picked
  | l1Evict =>
    cases hstep
    refine h.lose ?_ fun row hrow => hrow
    intro e he
    simp [SqliteKvStore.l1Remove] at he
  | tick ms =>
    cases hstep
    exact h.lose (fun e he => he) fun row hrow => hrow

theorem raceInv_new (key : String) (before : Before) : RaceInv key before .new := by
  refine ⟨?_, ?_, ?_⟩
  · intro e he
    cases he
  · intro row hrow
    cases hrow
  · intro reader hmem
    cases hmem

/-- Whatever the interleaving, as long as no refill is disturbed, a get that starts after a put
or delete has returned does not answer with the value of an earlier put. -/
theorem no_stale_read {key : String} {before : Before} {s : KvRace}
    (hr : Reaches (kvStep key) (Undisturbed before) .new s) : NoStaleRead before s := by
  have hinv : RaceInv key before s := hr.invariant (raceInv_new key before) raceInv_step
  intro reader hmem value q hphase
  obtain ⟨hfin, hanswer⟩ := hinv.readers reader hmem
  rw [hphase] at hanswer
  exact ⟨hanswer.1, fun p hp => ⟨hfin p hp, hanswer.2 p hp⟩⟩

def sampleWrite (value : Bytes) : KvAction := .startWrite (.put value ⟨3600, 0⟩)

/-- A put, an eviction, a get that refills L1, and a get that L1 answers. -/
theorem no_stale_read_sample :
    ∃ s, Reaches (kvStep "k") (Undisturbed .started) .new s ∧
      s.readers = [⟨[0], .returned (some ([7], 0))⟩, ⟨[0], .returned (some ([7], 0))⟩] ∧
      NoStaleRead .started s := by
  have hstart : Reaches (kvStep "k") (Undisturbed .started) .new .new := .start
  have hwrite := hstart.next (sampleWrite [7]) trivial rfl
  have hl1 := hwrite.next (.writeL1 0) (by
    intro _ p hp
    obtain ⟨w, hw, hphase⟩ := hp
    rw [List.mem_singleton.mp (List.mem_of_getElem? hw)] at hphase
    exact absurd rfl hphase) rfl
  have hl2 := hl1.next (.writeL2 0) (by
    intro _ p hp
    obtain ⟨w, next, hw, hphase⟩ := hp
    rw [List.mem_singleton.mp (List.mem_of_getElem? hw)] at hphase
    cases hphase) rfl
  have hget := (((hl2.next KvAction.l1Evict trivial rfl).next KvAction.startGet trivial rfl).next (KvAction.getL1 0)
    trivial rfl).next (KvAction.getL2 0) trivial rfl
  have hrefill := hget.next (.refill 0) (by
    intro finished row writer quiet l1Steps hg
    cases hg
    exact .inr ⟨rfl, rfl⟩) rfl
  have hagain := (hrefill.next KvAction.startGet trivial rfl).next (KvAction.getL1 1) trivial rfl
  exact ⟨_, hagain, rfl, no_stale_read hagain⟩

/-- A get has read the row of the first put when the second put starts and returns; its refill
then puts the first value back into L1, and the next get answers with it. -/
theorem refill_restores_overwritten :
    ∃ s, Reaches (kvStep "k") Always .new s ∧ s.Wrote 0 [0] ∧ s.Wrote 1 [1] ∧
      s.writers.length = 2 ∧ s.Earlier 0 1 .returned ∧ s.Earlier 0 1 .started ∧
      s.readers[1]? = some ⟨[0, 1], .returned (some ([0], 0))⟩ ∧
      ¬ NoStaleRead .returned s ∧ ¬ NoStaleRead .started s := by
  have hstart : Reaches (kvStep "k") Always .new .new := .start
  have hfirst := ((hstart.next (sampleWrite [0]) trivial rfl).next (.writeL1 0) trivial rfl).next
    (.writeL2 0) trivial rfl
  have hread := (((hfirst.next .l1Evict trivial rfl).next .startGet trivial rfl).next (.getL1 0)
    trivial rfl).next (.getL2 0) trivial rfl
  have hsecond := ((hread.next (sampleWrite [1]) trivial rfl).next (.writeL1 1) trivial rfl).next
    (.writeL2 1) trivial rfl
  have hrefill := hsecond.next (.refill 0) trivial rfl
  have hget := (hrefill.next .startGet trivial rfl).next (.getL1 1) trivial rfl
  refine ⟨_, hget, ⟨_, _, rfl, rfl⟩, ⟨_, _, rfl, rfl⟩, rfl, ⟨_, _, rfl, rfl, le_refl 1⟩,
    Nat.zero_lt_one, rfl, ?_, ?_⟩
  · intro hfresh
    exact ((hfresh _ (List.mem_of_getElem? (i := 1) rfl) _ _ rfl).2 1 (by decide)).2
      ⟨_, _, rfl, rfl, le_refl 1⟩
  · intro hfresh
    exact ((hfresh _ (List.mem_of_getElem? (i := 1) rfl) _ _ rfl).2 1 (by decide)).2 Nat.zero_lt_one
end AiGateway.Storage
