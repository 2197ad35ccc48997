import AiGateway.Core.Json
import AiGateway.Library.MachineInt
import AiGateway.Library.TtlStore

/-!
# `SqliteKvStore` (`gateway-storage/src/sqlite/kv.rs`)

Two tiers: a moka map in front (L1) and the table `kv_cache` (L2). L1 keeps bare
values with one fixed lifetime of 24 hours; the lifetime of a put is a column of
its L2 row. The clock is the millisecond clock of both tiers. Statements on the
pool are taken to succeed, except those whose errors the code ignores: the
clean-up of an expired row and the evictor may do nothing.
-/

namespace AiGateway.Storage
open AiGateway.Library.MachineInt AiGateway.Library.TtlStore AiGateway.Core

structure Duration where
  secs : UInt64
  nanos : UInt32
  deriving DecidableEq

def Duration.asMillis (d : Duration) : ℕ := d.secs.toNat * 1000 + d.nanos.toNat / 1000000

structure KvRow where
  value : Bytes
  expiresAt : Int
  sizeBytes : Int
  hitCount : Int
  lastAccessedAt : Int
  createdAt : Int

structure L1Entry where
  value : Bytes
  insertedAt : ℕ

structure SqliteKvStore where
  now : ℕ
  l1 : String → Option L1Entry
  kvCache : String → Option KvRow

def l1TimeToLive : ℕ := 86400000

namespace SqliteKvStore

def new : SqliteKvStore := ⟨0, fun _ => none, fun _ => none⟩

/-- `l1.get`: moka hides an entry whose time to live has passed. -/
def l1Get (s : SqliteKvStore) (key : String) : Option Bytes :=
  match s.l1 key with
  | some e => if s.now < e.insertedAt + l1TimeToLive then some e.value else none
  | none => none

def l1Insert (s : SqliteKvStore) (key : String) (value : Bytes) : SqliteKvStore :=
  { s with l1 := Function.update s.l1 key (some ⟨value, s.now⟩) }

def l1Remove (s : SqliteKvStore) (key : String) : SqliteKvStore :=
  { s with l1 := Function.update s.l1 key none }

def deleteRow (s : SqliteKvStore) (key : String) : SqliteKvStore :=
  { s with kvCache := Function.update s.kvCache key none }

/-- `KvStore::get`; `cleaned` says whether the clean-up of an expired row succeeds. -/
def get (s : SqliteKvStore) (key : String) (cleaned : Bool) : Option Bytes × SqliteKvStore :=
  match s.l1Get key with
  | some v => (some v, s)
  | none =>
    match s.kvCache key with
    | some row =>
      if row.expiresAt < s.now then (none, if cleaned then s.deleteRow key else s)
      else (some row.value, s.l1Insert key row.value)
    | none => (none, s)

/-- `expires_at` of a put: `now + ttl.as_millis().min(i64::MAX as u128) as i64`. -/
def expiry (now ttlMillis : ℕ) : Int := wrap64 (now + (min ttlMillis 9223372036854775807 : ℕ))

def upsert (old : Option KvRow) (value : Bytes) (expiresAt now : Int) : KvRow :=
  match old with
  | none => ⟨value, expiresAt, value.length, 0, now, now⟩
  | some row =>
    { row with
      value := value, expiresAt := expiresAt, sizeBytes := value.length, lastAccessedAt := now }

def put (s : SqliteKvStore) (key : String) (value : Bytes) (ttl : Duration) : SqliteKvStore :=
  let s := s.l1Insert key value
  { s with
    kvCache := Function.update s.kvCache key
      (some (upsert (s.kvCache key) value (expiry s.now ttl.asMillis) s.now)) }

def delete (s : SqliteKvStore) (key : String) : SqliteKvStore :=
  (s.l1Remove key).deleteRow key

/-- A tick of the evictor: of the rows it picks, those that have expired go. -/
def evict (s : SqliteKvStore) (picked : List String) : SqliteKvStore :=
  { s with
    kvCache := fun key =>
      match s.kvCache key with
      | some row => if key ∈ picked ∧ row.expiresAt < s.now then none else some row
      | none => none }

end SqliteKvStore

inductive KvEvent where
  | put (key : String) (value : Bytes) (ttl : Duration)
  | get (key : String) (cleaned : Bool)
  | delete (key : String)
  | evict (picked : List String)
  -- L1 gives up an entry for lack of capacity
  | l1Evict (key : String)
  | tick (ms : ℕ)

def SqliteKvStore.step (s : SqliteKvStore) : KvEvent → SqliteKvStore
  | .put key value ttl => s.put key value ttl
  | .get key cleaned => (s.get key cleaned).2
  | .delete key => s.delete key
  | .evict picked => s.evict picked
  | .l1Evict key => s.l1Remove key
  | .tick ms => { s with now := s.now + ms }

def SqliteKvStore.after (events : List KvEvent) : SqliteKvStore :=
  events.foldl SqliteKvStore.step .new

/-- The same event on the ideal store: only puts, deletes and time count. -/
def idealStep (s : Store String Bytes) : KvEvent → Store String Bytes
  | .put key value ttl => s.put key value ttl.asMillis
  | .delete key => s.delete key
  | .tick ms => s.tick ms
  | _ => s

def idealAfter (events : List KvEvent) : Store String Bytes := events.foldl idealStep empty

/-! ### Both tiers hold the latest put -/

open SqliteKvStore

/-- What every run keeps: either tier holds a value of the latest undeleted put,
a row carries that put's expiry, and a row goes missing only after it expired. -/
structure Tracks (s : SqliteKvStore) (ideal : Store String Bytes) : Prop where
  now : s.now = ideal.now
  l1 : ∀ key e, s.l1 key = some e → ∃ w, ideal.entries key = some w ∧ w.value = e.value
  row : ∀ key row, s.kvCache key = some row →
    ∃ w, ideal.entries key = some w ∧ w.value = row.value ∧
      row.expiresAt = expiry w.storedAt w.ttl
  kept : ∀ key w, ideal.entries key = some w →
    (∃ row, s.kvCache key = some row) ∨ expiry w.storedAt w.ttl < s.now

theorem upsert_value (old : Option KvRow) (value : Bytes) (expiresAt now : Int) :
    (upsert old value expiresAt now).value = value := by
  cases old <;> rfl

theorem upsert_expiresAt (old : Option KvRow) (value : Bytes) (expiresAt now : Int) :
    (upsert old value expiresAt now).expiresAt = expiresAt := by
  cases old <;> rfl

theorem Tracks.put {s : SqliteKvStore} {ideal : Store String Bytes} (h : Tracks s ideal)
    (key : String) (value : Bytes) (ttl : Duration) :
    Tracks (s.put key value ttl) (ideal.put key value ttl.asMillis) := by
  refine ⟨h.now, ?_, ?_, ?_⟩
  · intro k e he
    by_cases hk : k = key
    · subst hk
      simp only [SqliteKvStore.put, l1Insert, Function.update_self, Option.some.injEq] at he
      exact ⟨_, put_self .., by rw [← he]⟩
    · simp only [SqliteKvStore.put, l1Insert, Function.update_of_ne hk] at he
      rw [put_of_ne _ _ _ hk]
      exact h.l1 k e he
  · intro k row hrow
    by_cases hk : k = key
    · subst hk
      simp only [SqliteKvStore.put, l1Insert, Function.update_self, Option.some.injEq] at hrow
      refine ⟨_, put_self .., ?_, ?_⟩
      · rw [← hrow, upsert_value]
      · rw [← hrow, upsert_expiresAt, h.now]
    · simp only [SqliteKvStore.put, l1Insert, Function.update_of_ne hk] at hrow
      rw [put_of_ne _ _ _ hk]
      exact h.row k row hrow
  · intro k w hw
    by_cases hk : k = key
    · subst hk
      exact .inl ⟨_, Function.update_self ..⟩
    · rw [put_of_ne _ _ _ hk] at hw
      simpa only [SqliteKvStore.put, l1Insert, Function.update_of_ne hk] using h.kept k w hw

theorem Tracks.delete {s : SqliteKvStore} {ideal : Store String Bytes} (h : Tracks s ideal)
    (key : String) : Tracks (s.delete key) (ideal.delete key) := by
  refine ⟨h.now, ?_, ?_, ?_⟩
  · intro k e he
    by_cases hk : k = key
    · subst hk
      simp [SqliteKvStore.delete, l1Remove, deleteRow] at he
    · simp only [SqliteKvStore.delete, l1Remove, deleteRow, Function.update_of_ne hk] at he
      rw [delete_of_ne _ hk]
      exact h.l1 k e he
  · intro k row hrow
    by_cases hk : k = key
    · subst hk
      simp [SqliteKvStore.delete, l1Remove, deleteRow] at hrow
    · simp only [SqliteKvStore.delete, l1Remove, deleteRow, Function.update_of_ne hk] at hrow
      rw [delete_of_ne _ hk]
      exact h.row k row hrow
  · intro k w hw
    by_cases hk : k = key
    · subst hk
      simp at hw
    · rw [delete_of_ne _ hk] at hw
      simpa only [SqliteKvStore.delete, l1Remove, deleteRow, Function.update_of_ne hk] using
        h.kept k w hw

theorem Tracks.l1Remove {s : SqliteKvStore} {ideal : Store String Bytes} (h : Tracks s ideal)
    (key : String) : Tracks (s.l1Remove key) ideal := by
  refine ⟨h.now, ?_, h.row, h.kept⟩
  intro k e he
  by_cases hk : k = key
  · subst hk
    simp [SqliteKvStore.l1Remove] at he
  · simp only [SqliteKvStore.l1Remove, Function.update_of_ne hk] at he
    exact h.l1 k e he

theorem Tracks.dropExpired {s : SqliteKvStore} {ideal : Store String Bytes} (h : Tracks s ideal)
    (rows : String → Option KvRow)
    (hsub : ∀ key row, rows key = some row → s.kvCache key = some row)
    (hgone : ∀ key row, s.kvCache key = some row → rows key = some row ∨ row.expiresAt < s.now) :
    Tracks { s with kvCache := rows } ideal := by
  refine ⟨h.now, h.l1, ?_, ?_⟩
  · intro k row hrow
    exact h.row k row (hsub k row hrow)
  · intro k w hw
    rcases h.kept k w hw with ⟨row, hrow⟩ | hexp
    · rcases hgone k row hrow with hkeep | hexp
      · exact .inl ⟨row, hkeep⟩
      · obtain ⟨w', hw', -, hat⟩ := h.row k row hrow
        rw [hw] at hw'
        cases hw'
        exact .inr (hat ▸ hexp)
    · exact .inr hexp

theorem Tracks.evict {s : SqliteKvStore} {ideal : Store String Bytes} (h : Tracks s ideal)
    (picked : List String) : Tracks (s.evict picked) ideal := by
  refine h.dropExpired _ ?_ ?_
  · intro k row hrow
    cases hk : s.kvCache k with
    | none => simp [hk] at hrow
    | some row' =>
      simp only [hk] at hrow
      split at hrow
      · cases hrow
      · exact hrow
  · intro k row hrow
    simp only [hrow]
    split
    · rename_i hexp
      exact .inr hexp.2
    · exact .inl rfl

theorem Tracks.get {s : SqliteKvStore} {ideal : Store String Bytes} (h : Tracks s ideal)
    (key : String) (cleaned : Bool) : Tracks (s.get key cleaned).2 ideal := by
  simp only [SqliteKvStore.get]
  split
  · exact h
  · split
    · rename_i row hrow
      split
      · rename_i hexp
        cases cleaned with
        | false => exact h
        | true =>
          refine h.dropExpired _ ?_ ?_
          · intro k row' hk
            by_cases hkey : k = key
            · subst hkey
              simp at hk
            · rwa [Function.update_of_ne hkey] at hk
          · intro k row' hk
            by_cases hkey : k = key
            · subst hkey
              rw [hrow] at hk
              cases hk
              exact .inr hexp
            · exact .inl (by rwa [Function.update_of_ne hkey])
      · -- the refill takes the row's value into L1
        refine ⟨h.now, ?_, h.row, h.kept⟩
        intro k e he
        by_cases hk : k = key
        · subst hk
          simp only [l1Insert, Function.update_self, Option.some.injEq] at he
          obtain ⟨w, hw, hval, -⟩ := h.row k row hrow
          exact ⟨w, hw, by rw [hval, ← he]⟩
        · simp only [l1Insert, Function.update_of_ne hk] at he
          exact h.l1 k e he
    · exact h

theorem Tracks.step {s : SqliteKvStore} {ideal : Store String Bytes} (h : Tracks s ideal)
    (ev : KvEvent) : Tracks (s.step ev) (idealStep ideal ev) := by
  cases ev with
  | put key value ttl => exact h.put key value ttl
  | get key cleaned => exact h.get key cleaned
  | delete key => exact h.delete key
  | evict picked => exact h.evict picked
  | l1Evict key => exact h.l1Remove key
  | tick ms =>
    refine ⟨congrArg (· + ms) h.now, h.l1, h.row, ?_⟩
    intro k w hw
    rcases h.kept k w hw with hrow | hexp
    · exact .inl hrow
    · refine .inr ?_
      simp only [SqliteKvStore.step]
      omega

theorem tracks_after (events : List KvEvent) : Tracks (after events) (idealAfter events) := by
  have hfrom : ∀ s ideal, Tracks s ideal →
      Tracks (events.foldl SqliteKvStore.step s) (events.foldl idealStep ideal) := by
    induction events with
    | nil => exact fun s ideal h => h
    | cons ev events ih => exact fun s ideal h => ih _ _ (h.step ev)
  refine hfrom _ _ ⟨rfl, ?_, ?_, ?_⟩
  · intro key e he
    cases he
  · intro key row hrow
    cases hrow
  · intro key w hw
    cases hw

/-! ### When a get is sound -/

theorem expiry_le (now ttl : ℕ) : expiry now ttl ≤ now + ttl := by
  have hle := @wrap64_le (now + (min ttl 9223372036854775807 : ℕ)) (by omega)
  simp only [expiry]
  omega

theorem expiry_of_fits {now ttl : ℕ} (h : now + ttl < 9223372036854775808) :
    expiry now ttl = now + ttl := by
  rw [expiry, wrap64_of_inI64]
  · omega
  · simp only [InI64]
    omega

/-- An L1 answer for `key` is backed by a row that has not expired, or the expiry
instant of the latest put is beyond `i64::MAX`. -/
def L1Covered (s : SqliteKvStore) (ideal : Store String Bytes) (key : String) : Prop :=
  ∀ v, s.l1Get key = some v →
    (∃ row, s.kvCache key = some row ∧ s.now ≤ row.expiresAt) ∨
      ∃ w, ideal.entries key = some w ∧ 9223372036854775808 ≤ w.storedAt + w.ttl

theorem Tracks.l1Get {s : SqliteKvStore} {ideal : Store String Bytes} (h : Tracks s ideal)
    {key : String} {v : Bytes} (hv : s.l1Get key = some v) :
    ∃ w, ideal.entries key = some w ∧ w.value = v := by
  simp only [SqliteKvStore.l1Get] at hv
  split at hv
  · rename_i e he
    split at hv
    · cases hv
      exact h.l1 key e he
    · cases hv
  · cases hv

theorem Tracks.row_live {s : SqliteKvStore} {ideal : Store String Bytes} (h : Tracks s ideal)
    {key : String} {row : KvRow} (hrow : s.kvCache key = some row) (hlive : s.now ≤ row.expiresAt) :
    ideal.Answers key row.value := by
  obtain ⟨w, hw, hval, hat⟩ := h.row key row hrow
  refine ⟨w, hw, hval, ?_⟩
  have hle := expiry_le w.storedAt w.ttl
  have hnow := h.now
  simp only [Entry.Live]
  omega

/-- After any run, a get answers only with the latest undeleted put within its
lifetime, exactly when L1 is covered by L2 at that moment. -/
theorem sqliteKv_get_sound_iff (events : List KvEvent) (key : String) (cleaned : Bool)
    (hclock : (after events).now < 9223372036854775808) :
    (∀ v, ((after events).get key cleaned).1 = some v → (idealAfter events).Answers key v) ↔
      L1Covered (after events) (idealAfter events) key := by
  have h := tracks_after events
  constructor
  · intro hsound v hv
    have hget : ((after events).get key cleaned).1 = some v := by
      simp only [SqliteKvStore.get, hv]
    obtain ⟨w, hw, -, hlive⟩ := hsound v hget
    by_cases hfits : w.storedAt + w.ttl < 9223372036854775808
    · -- the put's expiry is exact, so its row is still there
      have hexp := expiry_of_fits hfits
      simp only [Entry.Live, ← h.now] at hlive
      rcases h.kept key w hw with ⟨row, hrow⟩ | hgone
      · obtain ⟨w', hw', -, hat⟩ := h.row key row hrow
        rw [hw] at hw'
        cases hw'
        exact .inl ⟨row, hrow, by omega⟩
      · omega
    · exact .inr ⟨w, hw, by omega⟩
  · intro hcov v hget
    simp only [SqliteKvStore.get] at hget
    split at hget
    · rename_i v' hv'
      cases hget
      obtain ⟨w, hw, hval⟩ := h.l1Get hv'
      rcases hcov v hv' with ⟨row, hrow, hlive⟩ | ⟨w', hw', hbeyond⟩
      · obtain ⟨w', hw', hrowval, hl⟩ := h.row_live hrow hlive
        rw [hw] at hw'
        cases hw'
        exact ⟨w, hw, hval, hl⟩
      · rw [hw] at hw'
        cases hw'
        refine ⟨w, hw, hval, ?_⟩
        have hnow := h.now
        simp only [Entry.Live]
        omega
    · split at hget
      · rename_i row hrow
        split at hget
        · cases hget
        · rename_i hlive
          cases hget
          exact h.row_live hrow (by omega)
      · cases hget

def putThenWait : List KvEvent := [.put "k" [1] ⟨1, 0⟩, .tick 2000]

theorem sqliteKv_get_sound_inTime :
    (after (putThenWait.take 1)).now < 9223372036854775808 ∧
      ((∀ v, ((after (putThenWait.take 1)).get "k" true).1 = some v →
          (idealAfter (putThenWait.take 1)).Answers "k" v) ↔
        L1Covered (after (putThenWait.take 1)) (idealAfter (putThenWait.take 1)) "k") :=
  ⟨by decide, sqliteKv_get_sound_iff _ "k" true (by decide)⟩

/-- L1 still answers a second after the put's lifetime has passed. -/
theorem sqliteKv_get_stale :
    ((after putThenWait).get "k" true).1 = some [1] ∧
      ¬(idealAfter putThenWait).Answers "k" [1] := by
  refine ⟨by decide, ?_⟩
  rintro ⟨w, hw, -, hlive⟩
  cases hw
  simp only [Entry.Live] at hlive
  exact absurd hlive (by decide)

end AiGateway.Storage
