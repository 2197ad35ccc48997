import AiGateway.Api.RequestLog
import AiGateway.Storage.MemoryKv

/-!
# A time to live from the client (`gateway-api/src/routes/proxy.rs:419-512`)

The seconds of `X-Gateway-Cache-Ttl` reach `kv.put` unchecked. The two stores add them to a
clock each; where the sum panics, the task ends before it settles the request.
-/

namespace AiGateway.Api
open AiGateway.Core AiGateway.Storage AiGateway.Library.MachineInt

/-- A call of the task behind the end of the stream. -/
inductive TaskStep where
  | put (ttl : UInt64)
  | reconcileTokens (actual : Int)
  | recordCost (cost : ℚ)
  | submitLog (record : RequestLogRecord)

section
variable (c : ProxyCall) (l : LogEnv) (log : LogBuilder) (ctx : StreamContext)
  (response : ForwardResponse)

/-- The calls that settle the request. -/
def settleSteps (ended : StreamEnd) : List TaskStep :=
  let cost := ended.priced.bind fun usage => log.record.model.bind fun model =>
    l.cost ctx.upstreamProvider model usage
  .reconcileTokens ended.actualTokens :: ((cost.map TaskStep.recordCost).toList ++
    (taskRecords c { l with putReturns := fun _ => true } log ctx response).map .submitLog)

/-- The calls of the task in order; a stream error leads straight to the log, and a put that
panics is the last call. -/
def taskSteps : List TaskStep :=
  match streamTask c.env.fromSlice ctx c.env.clientOpen c.env.finishedAtMs response.body with
  | none => (taskRecords c l log ctx response).map .submitLog
  | some ended =>
    match ended.cacheWrite with
    | some (_, _, ttl) =>
      .put ttl :: if l.putReturns ttl then settleSteps c l log ctx response ended else []
    | none => settleSteps c l log ctx response ended

def TaskStep.record : TaskStep → Option RequestLogRecord
  | .submitLog record => some record
  | _ => none

theorem settleSteps_records (ended : StreamEnd) :
    (settleSteps c l log ctx response ended).filterMap TaskStep.record =
      taskRecords c { l with putReturns := fun _ => true } log ctx response := by
  have hmap : ∀ records : List RequestLogRecord,
      (records.map TaskStep.submitLog).filterMap TaskStep.record = records := by
    intro records
    rw [List.filterMap_map]
    exact List.filterMap_some
  unfold settleSteps
  simp only [List.filterMap_cons, TaskStep.record, List.filterMap_append, hmap]
  cases ended.priced.bind fun usage => log.record.model.bind fun model =>
    l.cost ctx.upstreamProvider model usage <;> rfl

/-- The records among the calls are those of the task. -/
theorem taskSteps_records :
    (taskSteps c l log ctx response).filterMap TaskStep.record =
      taskRecords c l log ctx response := by
  unfold taskSteps streamTask
  cases hloop : captureLoop ctx.cacheShouldWrite c.env.clientOpen 0 response.body .start with
  | mk capture failed =>
    cases failed with
    | some e =>
      simp only [List.filterMap_map]
      exact List.filterMap_some
    | none =>
      simp only
      cases hwrite : (finishStream c.env.fromSlice ctx c.env.finishedAtMs capture).cacheWrite with
      | none =>
        simp only [settleSteps_records, taskRecords, hloop, hwrite]
      | some write =>
        obtain ⟨key, payload, ttl⟩ := write
        simp only [List.filterMap_cons, TaskStep.record]
        cases hreturns : l.putReturns ttl with
        | true =>
          simp only [if_true, settleSteps_records, taskRecords, hloop, hwrite, hreturns]
        | false =>
          simp only [taskRecords, hloop, hwrite, hreturns, Bool.false_eq_true, if_false,
            List.filterMap_nil]

end

/-! ### Both stores -/

def memoryPutReturns (instant : Instant) (ttl : UInt64) : Bool :=
  (instant.checkedAdd ⟨ttl, 0⟩).isSome

/-- A put of that time to live, at `now` milliseconds of the wall clock and at `instant` of the
monotonic one: both expiries are computed without overflow and are not before the clock, the
entry can be read at once, from either tier of the SQLite store, and the task goes on. -/
structure TtlHarmless (ttl : UInt64) (now : ℕ) (instant : Instant) : Prop where
  sqliteFits : InI64 (now + (min (Duration.asMillis ⟨ttl, 0⟩) 9223372036854775807 : ℕ))
  sqliteNotEarlier : (now : Int) ≤ SqliteKvStore.expiry now (Duration.asMillis ⟨ttl, 0⟩)
  sqliteReadable : 1 ≤ ttl → ∀ (s : SqliteKvStore) key value cleaned, s.now = now →
    ((s.put key value ⟨ttl, 0⟩).get key cleaned).1 = some value ∧
      (((s.put key value ⟨ttl, 0⟩).l1Remove key).get key cleaned).1 = some value
  memoryFits : ∃ exp, instant.checkedAdd ⟨ttl, 0⟩ = some exp ∧ instant ≤ exp
  memoryReadable : 1 ≤ ttl → ∀ (s : MemoryKvStore) key value,
    ∃ s', s.put instant key value ⟨ttl, 0⟩ = some s' ∧ (s'.get instant key).1 = some value
  taskContinues : ∀ (c : ProxyCall) (l : LogEnv) log ctx (response : ForwardResponse) ended key
      payload, l.putReturns = memoryPutReturns instant →
    streamTask c.env.fromSlice ctx c.env.clientOpen c.env.finishedAtMs response.body =
      some ended → ended.cacheWrite = some (key, payload, ttl) →
    taskSteps c l log ctx response = .put ttl :: settleSteps c l log ctx response ended

theorem asMillis_secs (ttl : UInt64) : Duration.asMillis ⟨ttl, 0⟩ = ttl.toNat * 1000 := by
  unfold Duration.asMillis
  rw [UInt32.toNat_zero, Nat.zero_div, Nat.add_zero]

theorem sqlite_readable {ttl : UInt64} {s : SqliteKvStore} (key : String) (value : Bytes)
    (cleaned : Bool)
    (hexp : (s.now : Int) ≤ SqliteKvStore.expiry s.now (Duration.asMillis ⟨ttl, 0⟩)) :
    ((s.put key value ⟨ttl, 0⟩).get key cleaned).1 = some value ∧
      (((s.put key value ⟨ttl, 0⟩).l1Remove key).get key cleaned).1 = some value := by
  constructor
  · have hl1 : (s.put key value ⟨ttl, 0⟩).l1Get key = some value := by
      simp [SqliteKvStore.put, SqliteKvStore.l1Insert, SqliteKvStore.l1Get, l1TimeToLive]
    simp only [SqliteKvStore.get, hl1]
  · have hl1 : ((s.put key value ⟨ttl, 0⟩).l1Remove key).l1Get key = none := by
      simp [SqliteKvStore.l1Remove, SqliteKvStore.l1Get]
    have hrow : ∃ row, ((s.put key value ⟨ttl, 0⟩).l1Remove key).kvCache key = some row ∧
        row.value = value ∧
        row.expiresAt = SqliteKvStore.expiry s.now (Duration.asMillis ⟨ttl, 0⟩) :=
      ⟨_, Function.update_self .., upsert_value .., upsert_expiresAt ..⟩
    obtain ⟨row, hrow, hvalue, hexpires⟩ := hrow
    have hlive : ¬row.expiresAt < (((s.put key value ⟨ttl, 0⟩).l1Remove key).now : Int) := by
      rw [hexpires]
      exact not_lt.mpr hexp
    simp only [SqliteKvStore.get, hl1, hrow, if_neg hlive, hvalue]

/-- A time to live is harmless exactly when the sum with the wall clock in milliseconds stays
below `2^63` (at clock zero the clamp alone keeps it there), and that with the seconds of the
monotonic clock does. -/
theorem ttlHarmless_iff (ttl : UInt64) (now : ℕ) (hnow : now < 9223372036854775808)
    (instant : Instant) :
    TtlHarmless ttl now instant ↔
      (now = 0 ∨ now + ttl.toNat * 1000 < 9223372036854775808) ∧
        instant.secs + ttl.toNat < 9223372036854775808 := by
  constructor
  · intro h
    obtain ⟨exp, hexp, -⟩ := h.memoryFits
    refine ⟨?_, (Instant.checkedAdd_secs_iff instant ttl).mp ⟨exp, hexp⟩⟩
    have hfits := h.sqliteFits
    rw [asMillis_secs] at hfits
    unfold InI64 at hfits
    omega
  · rintro ⟨hsqlite, hmemory⟩
    have hfits : InI64 (now + (min (Duration.asMillis ⟨ttl, 0⟩) 9223372036854775807 : ℕ)) := by
      rw [asMillis_secs]
      unfold InI64
      omega
    have hlater : (now : Int) ≤ SqliteKvStore.expiry now (Duration.asMillis ⟨ttl, 0⟩) := by
      unfold SqliteKvStore.expiry
      rw [wrap64_of_inI64 hfits]
      omega
    obtain ⟨exp, hexp⟩ := (Instant.checkedAdd_secs_iff instant ttl).mpr hmemory
    refine ⟨hfits, hlater, ?_, ⟨exp, hexp, Instant.le_of_checkedAdd hexp⟩, ?_, ?_⟩
    · intro _ s key value cleaned hclock
      exact sqlite_readable key value cleaned (hclock ▸ hlater)
    · intro hpos s key value
      have hput : s.put instant key value ⟨ttl, 0⟩ = some ⟨s.state.insert key (value, exp)⟩ := by
        unfold MemoryKvStore.put
        rw [hexp]
        rfl
      exact ⟨_, hput, MemoryKvStore.get_put hput hpos⟩
    · intro c l log ctx response ended key payload hreturns htask hwrite
      have hput : l.putReturns ttl = true := by
        rw [hreturns]
        unfold memoryPutReturns
        rw [hexp]
        rfl
      unfold taskSteps
      simp only [htask, hwrite, hput, if_true]

theorem ttlHarmless_hour : TtlHarmless 3600 1700000000000 ⟨86400, 0, by decide, by decide⟩ :=
  (ttlHarmless_iff 3600 1700000000000 (by decide) _).mpr (by decide)

/-- The header may carry the largest `u64`; neither store can add it, and over the memory store
nothing follows the put. -/
theorem ttl_breaks_task :
    (CachePolicy.fromHeaders [("x-gateway-cache-ttl", asBytes "18446744073709551615")] true 3600
        false).map CachePolicy.ttl = some 18446744073709551615 ∧
      ¬TtlHarmless 18446744073709551615 1700000000000 ⟨86400, 0, by decide, by decide⟩ ∧
      SqliteKvStore.expiry 1700000000000 (Duration.asMillis ⟨18446744073709551615, 0⟩) < 0 ∧
      memoryPutReturns ⟨86400, 0, by decide, by decide⟩ 18446744073709551615 = false := by
  refine ⟨by decide +kernel, ?_, by decide +kernel, by decide +kernel⟩
  intro h
  exact absurd h.sqliteFits (by decide +kernel)

end AiGateway.Api
