import AiGateway.Library.Programs
import AiGateway.Storage.MemoryKv

/-!
# The key-value stores call by call (`gateway-storage/src/traits.rs:93-101`)

The three implementations of `KvStore`, with `RedisKvStore` (`redis/kv.rs`), behind one
interface. A `get` or `put` is a program: what stands between two of its awaits is one statement,
which takes no time, and the programs of other calls run in between. A statement may fail, and may
have been carried out all the same. What a store holds and what its programs still have to write
comes from the puts that have begun.
-/

namespace AiGateway.Storage
open AiGateway.Core AiGateway.Library AiGateway.Library.Programs

/-- What becomes of a statement: whether it is carried out, and whether its answer arrives. -/
structure Fate where
  done : Bool
  answered : Bool
  detail : String

/-- A put that has begun: who makes it, and when the first of its statements was carried out. -/
structure KvWrite where
  writer : ℕ
  key : String
  value : Bytes
  ttl : Duration
  beganAt : ℕ

/-- Some write put the value under the key, and `inTime` holds of it. -/
def FromWrite (writes : List KvWrite) (key : String) (value : Bytes) (inTime : KvWrite → Prop) :
    Prop :=
  ∃ w ∈ writes, w.key = key ∧ w.value = value ∧ inTime w

section
variable {writes writes' : List KvWrite} {key : String} {value : Bytes}
  {inTime inTime' : KvWrite → Prop}

theorem FromWrite.mono (h : FromWrite writes key value inTime) (hsub : writes ⊆ writes')
    (himp : ∀ w, inTime w → inTime' w) : FromWrite writes' key value inTime' := by
  obtain ⟨w, hw, hkey, hvalue, htime⟩ := h
  exact ⟨w, hsub hw, hkey, hvalue, himp w htime⟩

theorem FromWrite.later (h : FromWrite writes key value inTime) (w : KvWrite) :
    FromWrite (writes ++ [w]) key value inTime :=
  h.mono (List.subset_append_left ..) fun _ hw => hw

theorem FromWrite.last {w : KvWrite} (h : inTime w) :
    FromWrite (writes ++ [w]) w.key w.value inTime :=
  ⟨w, List.mem_append_right _ (List.mem_singleton.mpr rfl), rfl, rfl, h⟩

end

/-- A key-value store on its own clock. `Internal` are the moves that it makes by itself or
that time makes. -/
structure KvBackend where
  State : Type
  Internal : Type
  Statement : Type
  Answer : Statement → Type
  new : State
  now : State → ℕ
  -- `none`: the call panics
  exec : (q : Statement) → Fate → State → Option (Answer q × State)
  get : String → Fallible Statement Answer String (Option Bytes)
  put : String → Bytes → Duration → Fallible Statement Answer String Unit
  internal : State → Internal → Option State
  -- a time to live in units of the clock
  lifetime : Duration → ℕ
  -- how long a value may be answered with beyond its time to live
  overstay : ℕ
  Backed : List KvWrite → State → Prop
  now_exec : ∀ {q fate s a t}, exec q fate s = some (a, t) → now t = now s
  now_internal : ∀ {s e t}, internal s e = some t → now s ≤ now t
  backed_new : Backed [] new
  backed_internal : ∀ {writes s e t}, Backed writes s → internal s e = some t → Backed writes t
  get_upholds : ∀ writes key, Program.Upholds exec (· ⊆ ·) Backed (fun writes s found =>
    ∀ value, found = .ok (some value) → FromWrite writes key value fun w =>
      now s ≤ w.beganAt + lifetime w.ttl + overstay) writes (get key)
  put_begins : ∀ {writes s fate key value ttl q next a t}, put key value ttl = .exec q next →
    Backed writes s → exec q fate s = some (a, t) → ∀ writer,
      Backed (writes ++ [⟨writer, key, value, ttl, now s⟩]) t ∧
        Program.Upholds exec (· ⊆ ·) Backed (fun _ _ _ => True)
          (writes ++ [⟨writer, key, value, ttl, now s⟩]) (next a)

/-! ### Stores of single commands -/

/-- A call that is one command. -/
inductive KvCommand where
  | get (key : String)
  | put (key : String) (value : Bytes) (ttl : Duration)

def KvCommand.Answer : KvCommand → Type
  | .get _ => Except String (Option Bytes)
  | .put .. => Except String Unit

def KvCommand.send (q : KvCommand) : Program KvCommand KvCommand.Answer q.Answer := .exec q .ret

/-! ### `RedisKvStore` -/

structure RedisKvStore where
  now : ℕ
  -- the value and the millisecond up to which it lives
  keys : String → Option (Bytes × ℕ)

namespace RedisKvStore

def new : RedisKvStore := ⟨0, fun _ => none⟩

def get (s : RedisKvStore) (key : String) : Option Bytes :=
  match s.keys key with
  | some (value, expireAt) => if s.now ≤ expireAt then some value else none
  | none => none

def lifetime (ttl : Duration) : ℕ := max ttl.secs.toNat 1 * 1000

/-- `SETEX` refuses a moment of expiry outside `i64`. -/
def setEx (s : RedisKvStore) (key : String) (value : Bytes) (ttl : Duration) : Option RedisKvStore :=
  if s.now + lifetime ttl < 9223372036854775808 then
    some { s with keys := Function.update s.keys key (some (value, s.now + lifetime ttl)) }
  else none

def exec (q : KvCommand) (fate : Fate) (s : RedisKvStore) : q.Answer × RedisKvStore :=
  match q with
  | .get key =>
    (if fate.done && fate.answered then .ok (s.get key) else .error ("redis get: " ++ fate.detail), s)
  | .put key value ttl =>
    if fate.done then
      match s.setEx key value ttl with
      | some t =>
        (if fate.answered then .ok () else .error ("redis set: " ++ fate.detail), t)
      | none => (.error ("redis set: " ++ fate.detail), s)
    else (.error ("redis set: " ++ fate.detail), s)

/-- Every value kept was written under its key, and goes when its time to live is over. -/
def Backed (writes : List KvWrite) (s : RedisKvStore) : Prop :=
  ∀ key value expireAt, s.keys key = some (value, expireAt) →
    FromWrite writes key value fun w => expireAt ≤ w.beganAt + lifetime w.ttl

variable {writes : List KvWrite} {s : RedisKvStore}

theorem exec_now (q : KvCommand) (fate : Fate) (s : RedisKvStore) : (exec q fate s).2.now = s.now := by
  cases q with
  | get key => rfl
  | put key value ttl =>
    simp only [exec, setEx]
    split
    · split
      · rename_i hset
        split at hset
        · cases hset
          rfl
        · cases hset
      · rfl
    · rfl

theorem Backed.get_found (h : Backed writes s) {key : String} {value : Bytes}
    (hget : s.get key = some value) :
    FromWrite writes key value fun w => s.now ≤ w.beganAt + lifetime w.ttl := by
  unfold RedisKvStore.get at hget
  split at hget
  · rename_i v expireAt hkey
    split at hget
    · rename_i hlive
      cases hget
      exact (h key _ expireAt hkey).mono (List.Subset.refl _) fun _ hw => hlive.trans hw
    · cases hget
  · cases hget

theorem Backed.setEx (h : Backed writes s) {t : RedisKvStore} {key : String} {value : Bytes}
    {ttl : Duration} (hset : s.setEx key value ttl = some t) (writer : ℕ) :
    Backed (writes ++ [⟨writer, key, value, ttl, s.now⟩]) t := by
  unfold RedisKvStore.setEx at hset
  split at hset
  · cases hset
    intro k v expireAt hk
    by_cases hkey : k = key
    · subst hkey
      simp only [Function.update_self, Option.some.injEq, Prod.mk.injEq] at hk
      obtain ⟨rfl, rfl⟩ := hk
      exact FromWrite.last (w := ⟨writer, k, value, ttl, s.now⟩) (Nat.le_refl _)
    · simp only [Function.update_of_ne hkey] at hk
      exact (h k v expireAt hk).later _
  · cases hset

theorem Backed.later (h : Backed writes s) (w : KvWrite) : Backed (writes ++ [w]) s :=
  fun key value expireAt hkey => (h key value expireAt hkey).later w

theorem Backed.put (h : Backed writes s) (key : String) (value : Bytes) (ttl : Duration)
    (fate : Fate) (writer : ℕ) :
    Backed (writes ++ [⟨writer, key, value, ttl, s.now⟩]) (exec (.put key value ttl) fate s).2 := by
  simp only [exec]
  split
  · split
    · rename_i hset
      exact h.setEx hset writer
    · exact h.later _
  · exact h.later _

end RedisKvStore

def redisKv : KvBackend where
  State := RedisKvStore
  Internal := ℕ
  Statement := KvCommand
  Answer := KvCommand.Answer
  new := .new
  now := RedisKvStore.now
  exec q fate s := some (s.exec q fate)
  get key := KvCommand.send (.get key)
  put key value ttl := KvCommand.send (.put key value ttl)
  internal s ms := some { s with now := s.now + ms }
  lifetime := RedisKvStore.lifetime
  overstay := 0
  Backed := RedisKvStore.Backed
  now_exec := by
    intro q fate s a t hexec
    rw [← RedisKvStore.exec_now q fate s, Option.some.inj hexec]
  now_internal := by
    intro s ms t hinternal
    cases hinternal
    exact Nat.le_add_right _ _
  backed_new := by
    intro key value expireAt hkey
    cases hkey
  backed_internal := by
    intro writes s ms t h hinternal
    cases hinternal
    exact h
  get_upholds := by
    intro _ key writes s fate a t _ h hexec
    cases hexec
    refine ⟨h, ?_, trivial⟩
    intro found hret value hfound
    have hget : (if fate.done && fate.answered then Except.ok (s.get key)
        else .error ("redis get: " ++ fate.detail)) = .ok (some value) :=
      (Program.ret.inj hret).trans hfound
    split at hget
    · exact (h.get_found (Except.ok.inj hget)).mono (List.Subset.refl _) fun _ hw =>
        Nat.le_add_right_of_le hw
    · cases hget
  put_begins := by
    intro writes s fate key value ttl q next a t hput h hexec writer
    cases hput
    have ht : (RedisKvStore.exec (.put key value ttl) fate s).2 = t :=
      congrArg Prod.snd (Option.some.inj hexec)
    rw [← ht]
    exact ⟨h.put key value ttl fate writer, trivial⟩

/-! ### `MemoryKvStore` -/

/-- The store with its clock, which counts from `origin`. -/
structure ClockedMemoryKv (origin : Instant) where
  now : Instant
  since : origin ≤ now
  store : MemoryKvStore

namespace ClockedMemoryKv
variable {origin : Instant}

def elapsed (s : ClockedMemoryKv origin) : ℕ := (s.now.inNanos - origin.inNanos).toNat

def lifetime (ttl : Duration) : ℕ := ttl.secs.toNat * 1000000000 + ttl.nanos.toNat

def exec (q : KvCommand) (s : ClockedMemoryKv origin) : Option (q.Answer × ClockedMemoryKv origin) :=
  match q with
  | .get key => some (.ok (s.store.get s.now key).1, { s with store := (s.store.get s.now key).2 })
  | .put key value ttl =>
    (s.store.put s.now key value ttl).map fun store => (.ok (), { s with store })

def moveClock (s : ClockedMemoryKv origin) (now : Instant) : Option (ClockedMemoryKv origin) :=
  if h : s.now ≤ now then some ⟨now, Int.le_trans s.since h, s.store⟩ else none

def Backed (writes : List KvWrite) (s : ClockedMemoryKv origin) : Prop :=
  ∀ key value exp, s.store.state.lookup key = some (value, exp) →
    FromWrite writes key value fun w =>
      exp.inNanos = origin.inNanos + (w.beganAt + lifetime w.ttl : ℕ)

variable {writes : List KvWrite} {s t : ClockedMemoryKv origin}

theorem elapsed_eq (s : ClockedMemoryKv origin) :
    s.now.inNanos = origin.inNanos + (s.elapsed : ℕ) := by
  have h := (Instant.le_iff _ _).mp s.since
  unfold elapsed
  omega

theorem exec_now {q : KvCommand} {a : q.Answer} (h : s.exec q = some (a, t)) : t.now = s.now := by
  cases q with
  | get key =>
    cases h
    rfl
  | put key value ttl =>
    obtain ⟨store, -, hstore⟩ := Option.map_eq_some_iff.mp h
    cases hstore
    rfl

theorem Backed.erase (h : Backed writes s) (key : String) :
    Backed writes { s with store := ⟨s.store.state.erase key⟩ } := by
  intro k value exp hk
  by_cases hkey : k = key
  · subst hkey
    simp at hk
  · exact h k value exp (by simpa [hkey] using hk)

theorem Backed.get (h : Backed writes s) (key : String) :
    Backed writes { s with store := (s.store.get s.now key).2 } := by
  unfold MemoryKvStore.get
  split
  · split
    · exact h
    · exact h.erase key
  · exact h

theorem Backed.get_found (h : Backed writes s) {key : String} {value : Bytes}
    (hget : (s.store.get s.now key).1 = some value) :
    FromWrite writes key value fun w => s.elapsed ≤ w.beganAt + lifetime w.ttl := by
  unfold MemoryKvStore.get at hget
  split at hget
  · rename_i v exp hlookup
    split at hget
    · rename_i hlt
      cases hget
      refine (h key _ exp hlookup).mono (List.Subset.refl _) ?_
      intro w hexp
      have hlive := (Instant.lt_iff _ _).mp hlt
      have hnow := s.elapsed_eq
      omega
    · cases hget
  · cases hget

theorem Backed.put (h : Backed writes s) {key : String} {value : Bytes} {ttl : Duration}
    {store : MemoryKvStore} (hput : s.store.put s.now key value ttl = some store) (writer : ℕ) :
    Backed (writes ++ [⟨writer, key, value, ttl, s.elapsed⟩]) { s with store } := by
  obtain ⟨exp, hexp, rfl⟩ := Option.map_eq_some_iff.mp hput
  have hnanos := Instant.checkedAdd_inNanos hexp
  have hnow := s.elapsed_eq
  intro k v exp' hk
  by_cases hkey : k = key
  · subst hkey
    simp only [Finmap.lookup_insert, Option.some.injEq, Prod.mk.injEq] at hk
    obtain ⟨rfl, rfl⟩ := hk
    refine FromWrite.last (w := ⟨writer, k, value, ttl, s.elapsed⟩) ?_
    simp only [lifetime]
    omega
  · exact (h k v exp' (by simpa [Finmap.lookup_insert_of_ne _ hkey] using hk)).later _

theorem elapsed_le_of_moveClock {now : Instant} (hmove : s.moveClock now = some t) :
    s.elapsed ≤ t.elapsed := by
  unfold ClockedMemoryKv.moveClock at hmove
  split at hmove
  · rename_i hle
    cases hmove
    have hlater := (Instant.le_iff _ _).mp hle
    simp only [elapsed]
    omega
  · cases hmove

theorem Backed.moveClock (h : Backed writes s) {now : Instant} (hmove : s.moveClock now = some t) :
    Backed writes t := by
  unfold ClockedMemoryKv.moveClock at hmove
  split at hmove
  · cases hmove
    exact h
  · cases hmove

end ClockedMemoryKv

/-- A put may panic; nothing else fails. -/
def memoryKv (origin : Instant) : KvBackend where
  State := ClockedMemoryKv origin
  Internal := Instant
  Statement := KvCommand
  Answer := KvCommand.Answer
  new := ⟨origin, Int.le_refl _, .new⟩
  now := ClockedMemoryKv.elapsed
  exec q _ s := s.exec q
  get key := KvCommand.send (.get key)
  put key value ttl := KvCommand.send (.put key value ttl)
  internal := ClockedMemoryKv.moveClock
  lifetime := ClockedMemoryKv.lifetime
  overstay := 0
  Backed := ClockedMemoryKv.Backed
  now_exec h := by
    unfold ClockedMemoryKv.elapsed
    rw [ClockedMemoryKv.exec_now h]
  now_internal := ClockedMemoryKv.elapsed_le_of_moveClock
  backed_new := by
    intro key value exp hlookup
    simp [MemoryKvStore.new] at hlookup
  backed_internal h hmove := h.moveClock hmove
  get_upholds := by
    intro _ key writes s fate a t _ h hexec
    cases hexec
    refine ⟨h.get key, ?_, trivial⟩
    intro found hret value hfound
    have hget := (Program.ret.inj hret).trans hfound
    exact (h.get_found (Except.ok.inj hget)).mono (List.Subset.refl _) fun _ hw =>
      Nat.le_add_right_of_le hw
  put_begins := by
    intro writes s fate key value ttl q next a t hput h hexec writer
    cases hput
    obtain ⟨store, hstore, ht⟩ := Option.map_eq_some_iff.mp hexec
    cases ht
    exact ⟨h.put hstore writer, trivial⟩

/-! ### `SqliteKvStore` -/

namespace SqliteKvStore

inductive Statement where
  | l1Get (key : String)
  | selectRow (key : String)
  -- the clock is read, and L1 refilled if the row is still alive
  | refill (key : String) (row : KvRow)
  | deleteRow (key : String)
  -- the clock is read, and the value put into L1
  | l1Put (key : String) (value : Bytes)
  | upsertRow (key : String) (value : Bytes) (expiresAt now : Int)

def Statement.Answer : Statement → Type
  | .l1Get _ => Option Bytes
  | .selectRow _ => Except String (Option KvRow)
  | .refill .. => Bool
  | .deleteRow _ => Unit
  | .l1Put .. => ℕ
  | .upsertRow .. => Except String Unit

def exec (q : Statement) (fate : Fate) (s : SqliteKvStore) : q.Answer × SqliteKvStore :=
  match q with
  | .l1Get key => (s.l1Get key, s)
  | .selectRow key => (if fate.answered then .ok (s.kvCache key) else .error fate.detail, s)
  | .refill key row => if row.expiresAt < s.now then (false, s) else (true, s.l1Insert key row.value)
  | .deleteRow key => ((), if fate.done then s.deleteRow key else s)
  | .l1Put key value => (s.now, s.l1Insert key value)
  | .upsertRow key value expiresAt now =>
    (if fate.answered then .ok () else .error fate.detail,
      if fate.done then
        { s with
          kvCache :=
            Function.update s.kvCache key (some (upsert (s.kvCache key) value expiresAt now)) }
      else s)

abbrev Calls (α : Type) := Fallible Statement Statement.Answer String α

def afterRefill (key : String) (row : KvRow) : Bool → Calls (Option Bytes)
  | true => .ret (.ok (some row.value))
  | false => .exec (.deleteRow key) fun _ => .ret (.ok none)

def afterSelect (key : String) : Except String (Option KvRow) → Calls (Option Bytes)
  | .error e => .ret (.error e)
  | .ok none => .ret (.ok none)
  | .ok (some row) => .exec (.refill key row) (afterRefill key row)

def afterL1 (key : String) : Option Bytes → Calls (Option Bytes)
  | some value => .ret (.ok (some value))
  | none => .exec (.selectRow key) (afterSelect key)

def getCalls (key : String) : Calls (Option Bytes) := .exec (.l1Get key) (afterL1 key)

/-- `expires_at` is that of the clock read at first. -/
def putCalls (key : String) (value : Bytes) (ttl : Duration) : Calls Unit :=
  .exec (.l1Put key value) fun (now : ℕ) =>
    .exec (.upsertRow key value (expiry now ttl.asMillis) now) .ret

abbrev Steps (q : Statement) (fate : Fate) (s : SqliteKvStore) :
    Option (q.Answer × SqliteKvStore) := some (exec q fate s)

/-- A get that nothing interrupts is the one of a single step. -/
theorem getCalls_alone (s : SqliteKvStore) (key : String) (cleaned : Bool) (detail : String) :
    Program.alone Steps ⟨cleaned, true, detail⟩ (getCalls key) s =
      some (.ok (s.get key cleaned).1, (s.get key cleaned).2) := by
  generalize hfate : Fate.mk cleaned true detail = fate
  have hl1 : Program.alone Steps fate (getCalls key) s =
      Program.alone Steps fate (afterL1 key (s.l1Get key)) s := rfl
  have hselect : Program.alone Steps fate (afterL1 key none) s =
      Program.alone Steps fate (afterSelect key (.ok (s.kvCache key))) s := by
    rw [← hfate]
    rfl
  have hrefill : ∀ row, Program.alone Steps fate (afterSelect key (.ok (some row))) s =
      (Steps (.refill key row) fate s).bind fun r =>
        Program.alone Steps fate (afterRefill key row r.1) r.2 := fun _ => rfl
  rw [hl1]
  unfold SqliteKvStore.get
  cases s.l1Get key with
  | some value => rfl
  | none =>
    rw [hselect]
    cases s.kvCache key with
    | none => rfl
    | some row =>
      rw [hrefill row, ← hfate]
      simp only [Steps, exec]
      split
      · rfl
      · rfl

theorem putCalls_alone (s : SqliteKvStore) (key : String) (value : Bytes) (ttl : Duration)
    (detail : String) :
    Program.alone Steps ⟨true, true, detail⟩ (putCalls key value ttl) s =
      some (.ok (), s.put key value ttl) := rfl

/-! ### Where its values come from -/

def RowBacked (writes : List KvWrite) (key : String) (row : KvRow) : Prop :=
  FromWrite writes key row.value fun w => row.expiresAt ≤ (w.beganAt + w.ttl.asMillis : ℕ)

/-- L1 took every entry at a put of its key, or while the row of that put was alive. -/
structure Backed (writes : List KvWrite) (s : SqliteKvStore) : Prop where
  l1 : ∀ key e, s.l1 key = some e →
    FromWrite writes key e.value fun w => e.insertedAt ≤ w.beganAt + w.ttl.asMillis
  row : ∀ key row, s.kvCache key = some row → RowBacked writes key row

variable {writes : List KvWrite} {s : SqliteKvStore}

theorem Backed.later (h : Backed writes s) (w : KvWrite) : Backed (writes ++ [w]) s :=
  ⟨fun key e he => (h.l1 key e he).later w, fun key row hrow => (h.row key row hrow).later w⟩

theorem Backed.l1Insert (h : Backed writes s) {key : String} {value : Bytes}
    (hvalue : FromWrite writes key value fun w => s.now ≤ w.beganAt + w.ttl.asMillis) :
    Backed writes (s.l1Insert key value) := by
  refine ⟨?_, h.row⟩
  intro k e he
  by_cases hk : k = key
  · subst hk
    simp only [SqliteKvStore.l1Insert, Function.update_self, Option.some.injEq] at he
    subst he
    exact hvalue
  · simp only [SqliteKvStore.l1Insert, Function.update_of_ne hk] at he
    exact h.l1 k e he

theorem Backed.upsert (h : Backed writes s) {key : String} {row : KvRow}
    (hrow : RowBacked writes key row) :
    Backed writes { s with kvCache := Function.update s.kvCache key (some row) } := by
  refine ⟨h.l1, ?_⟩
  intro k r hr
  by_cases hk : k = key
  · subst hk
    simp only [Function.update_self, Option.some.injEq] at hr
    subst hr
    exact hrow
  · simp only [Function.update_of_ne hk] at hr
    exact h.row k r hr

/-- Entries and rows may go, and the clock on. -/
theorem Backed.lose (h : Backed writes s) {t : SqliteKvStore}
    (hl1 : ∀ key e, t.l1 key = some e → s.l1 key = some e)
    (hrow : ∀ key row, t.kvCache key = some row → s.kvCache key = some row) : Backed writes t :=
  ⟨fun key e he => h.l1 key e (hl1 key e he), fun key row hr => h.row key row (hrow key row hr)⟩

theorem Backed.deleteRow (h : Backed writes s) (key : String) : Backed writes (s.deleteRow key) := by
  refine h.lose (fun _ _ he => he) ?_
  intro k row hrow
  by_cases hk : k = key
  · subst hk
    simp [SqliteKvStore.deleteRow] at hrow
  · simpa [SqliteKvStore.deleteRow, Function.update_of_ne hk] using hrow

theorem Backed.l1Remove (h : Backed writes s) (key : String) : Backed writes (s.l1Remove key) := by
  refine h.lose ?_ fun _ _ hrow => hrow
  intro k e he
  by_cases hk : k = key
  · subst hk
    simp [SqliteKvStore.l1Remove] at he
  · simpa [SqliteKvStore.l1Remove, Function.update_of_ne hk] using he

theorem Backed.evict (h : Backed writes s) (picked : List String) :
    Backed writes (s.evict picked) := by
  refine h.lose (fun _ _ he => he) ?_
  intro k row hrow
  simp only [SqliteKvStore.evict] at hrow
  split at hrow
  · rename_i r hr
    split at hrow
    · cases hrow
    · rw [hr, hrow]
  · cases hrow

theorem Backed.l1_found (h : Backed writes s) {key : String} {value : Bytes}
    (hget : s.l1Get key = some value) : FromWrite writes key value fun w =>
      s.now ≤ w.beganAt + w.ttl.asMillis + l1TimeToLive := by
  unfold l1Get at hget
  split at hget
  · rename_i e he
    split at hget
    · rename_i hlive
      cases hget
      exact (h.l1 key e he).mono (List.Subset.refl _) fun w hw => by omega
    · cases hget
  · cases hget

/-! ### What its calls do -/

/-- What a get may return. -/
def Found (key : String) (writes : List KvWrite) (s : SqliteKvStore)
    (found : Except String (Option Bytes)) : Prop :=
  ∀ value, found = .ok (some value) → FromWrite writes key value fun w =>
    s.now ≤ w.beganAt + w.ttl.asMillis + l1TimeToLive

theorem afterRefill_upholds (writes : List KvWrite) (key : String) (row : KvRow) (alive : Bool) :
    Program.Upholds Steps (· ⊆ ·) Backed (Found key) writes (afterRefill key row alive) := by
  cases alive with
  | true => trivial
  | false =>
    intro writes s fate u t _ h hexec
    have hgone : (if fate.done then s.deleteRow key else s) = t :=
      congrArg Prod.snd (Option.some.inj hexec)
    refine ⟨?_, ?_, trivial⟩
    · rw [← hgone]
      split
      · exact h.deleteRow key
      · exact h
    · intro found hret value hfound
      cases (Program.ret.inj hret).trans hfound

theorem afterSelect_upholds {writes : List KvWrite} {key : String}
    {answer : Except String (Option KvRow)}
    (hrow : ∀ row, answer = .ok (some row) → RowBacked writes key row) :
    Program.Upholds Steps (· ⊆ ·) Backed (Found key) writes (afterSelect key answer) := by
  match answer with
  | .error e => trivial
  | .ok none => trivial
  | .ok (some row) =>
    intro writes' s fate alive t hsub h hexec
    have hwrite : RowBacked writes' key row := (hrow row rfl).mono hsub fun _ hw => hw
    simp only [Steps, exec] at hexec
    split at hexec
    · cases hexec
      refine ⟨h, ?_, afterRefill_upholds ..⟩
      intro found hret
      cases hret
    · rename_i hlive
      cases hexec
      refine ⟨h.l1Insert (hwrite.mono (List.Subset.refl _) fun w hw => by omega), ?_, trivial⟩
      intro found hret value hfound
      cases (Program.ret.inj hret).trans hfound
      exact hwrite.mono (List.Subset.refl _) fun w hw => by
        simp only [l1Insert]
        omega

theorem afterSelect_ne (key : String) (answer : Except String (Option KvRow)) (value : Bytes) :
    afterSelect key answer ≠ .ret (.ok (some value)) := by
  intro h
  match answer with
  | .error e => cases h
  | .ok none => cases h
  | .ok (some row) => cases h

theorem afterL1_upholds (writes : List KvWrite) (key : String) (found : Option Bytes) :
    Program.Upholds Steps (· ⊆ ·) Backed (Found key) writes (afterL1 key found) := by
  cases found with
  | some value => trivial
  | none =>
    intro writes s fate answer t _ h hexec
    have hanswer : (if fate.answered then Except.ok (s.kvCache key) else .error fate.detail) =
        answer := congrArg Prod.fst (Option.some.inj hexec)
    have hsame : s = t := congrArg Prod.snd (Option.some.inj hexec)
    subst hsame
    refine ⟨h, ?_, afterSelect_upholds ?_⟩
    · intro found hret value hfound
      rw [hfound] at hret
      exact (afterSelect_ne _ _ _ hret).elim
    · intro row hrow
      have hrow := hanswer.trans hrow
      split at hrow
      · exact h.row key row (Except.ok.inj hrow)
      · cases hrow

theorem getCalls_upholds (writes : List KvWrite) (key : String) :
    Program.Upholds Steps (· ⊆ ·) Backed (Found key) writes (getCalls key) := by
  intro writes s fate answer t _ h hexec
  cases hexec
  refine ⟨h, ?_, afterL1_upholds ..⟩
  intro found hret value hfound
  cases hl1 : s.l1Get key with
  | some v =>
    rw [hl1] at hret
    cases (Program.ret.inj hret).trans hfound
    exact h.l1_found hl1
  | none =>
    rw [hl1] at hret
    cases hret

/-- The row of a put lives no longer than its time to live, counted from when it began. -/
theorem upsert_upholds {writes : List KvWrite} {w : KvWrite} (hw : w ∈ writes) :
    Program.Upholds Steps (· ⊆ ·) Backed (fun _ _ _ => True) writes
      (.exec (.upsertRow w.key w.value (expiry w.beganAt w.ttl.asMillis) w.beganAt) .ret) := by
  intro writes' s fate a t hsub h hexec
  have hstore : (if fate.done then
      { s with
        kvCache := Function.update s.kvCache w.key (some (upsert (s.kvCache w.key) w.value
          (expiry w.beganAt w.ttl.asMillis) w.beganAt)) }
      else s) = t := congrArg Prod.snd (Option.some.inj hexec)
  have hexpiry := expiry_le w.beganAt w.ttl.asMillis
  refine ⟨?_, fun _ _ => trivial, trivial⟩
  rw [← hstore]
  split
  · refine h.upsert ⟨w, hsub hw, rfl, (upsert_value ..).symm, ?_⟩
    rw [upsert_expiresAt]
    omega
  · exact h

theorem exec_now {q : Statement} {fate : Fate} {s t : SqliteKvStore} {a : q.Answer}
    (h : Steps q fate s = some (a, t)) : t.now = s.now := by
  have ht : (exec q fate s).2 = t := congrArg Prod.snd (Option.some.inj h)
  rw [← ht]
  cases q with
  | l1Get key => rfl
  | selectRow key => rfl
  | refill key row =>
    simp only [exec]
    split
    · rfl
    · rfl
  | deleteRow key =>
    simp only [exec]
    split
    · rfl
    · rfl
  | l1Put key value => rfl
  | upsertRow key value expiresAt now =>
    simp only [exec]
    split
    · rfl
    · rfl

end SqliteKvStore

inductive SqliteKvInternal where
  | tick (ms : ℕ)
  | evict (picked : List String)
  | l1Evict (key : String)

def SqliteKvInternal.event : SqliteKvInternal → KvEvent
  | .tick ms => .tick ms
  | .evict picked => .evict picked
  | .l1Evict key => .l1Evict key

/-- L1 may answer for a day more. -/
def sqliteKv : KvBackend where
  State := SqliteKvStore
  Internal := SqliteKvInternal
  Statement := SqliteKvStore.Statement
  Answer := SqliteKvStore.Statement.Answer
  new := .new
  now := SqliteKvStore.now
  exec := SqliteKvStore.Steps
  get := SqliteKvStore.getCalls
  put := SqliteKvStore.putCalls
  internal s e := some (s.step e.event)
  lifetime := Duration.asMillis
  overstay := l1TimeToLive
  Backed := SqliteKvStore.Backed
  now_exec := SqliteKvStore.exec_now
  now_internal := by
    intro s e t hinternal
    cases hinternal
    cases e with
    | tick ms => exact Nat.le_add_right _ _
    | evict picked => exact Nat.le_refl _
    | l1Evict key => exact Nat.le_refl _
  backed_new := by
    refine ⟨?_, ?_⟩
    · intro key e he
      cases he
    · intro key row hrow
      cases hrow
  backed_internal := by
    intro writes s e t h hinternal
    cases hinternal
    cases e with
    | tick ms => exact h.lose (fun _ _ he => he) fun _ _ hrow => hrow
    | evict picked => exact h.evict picked
    | l1Evict key => exact h.l1Remove key
  get_upholds := SqliteKvStore.getCalls_upholds
  put_begins := by
    intro writes s fate key value ttl q next a t hput h hexec writer
    cases hput
    cases hexec
    refine ⟨(h.later _).l1Insert ?_, SqliteKvStore.upsert_upholds
      (w := ⟨writer, key, value, ttl, s.now⟩) ?_⟩
    · exact FromWrite.last (w := ⟨writer, key, value, ttl, s.now⟩) (Nat.le_add_right _ _)
    · exact List.mem_append_right _ (List.mem_singleton.mpr rfl)

end AiGateway.Storage
