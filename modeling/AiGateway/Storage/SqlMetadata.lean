import AiGateway.Library.Programs
import AiGateway.Library.SqlTables
import AiGateway.Storage.MemoryMetadata

/-!
# Gateway keys in SQL (`sqlite/metadata.rs`, `postgres/metadata.rs`, `migrations/`)

Each method is a program of the statements it sends. Both backends send the same statements;
SQLite holds the write lock of its process around those of a writing method, Postgres has no lock.
A statement can fail, before or after it took effect.
-/

namespace AiGateway.Storage
open AiGateway.Core AiGateway.Library AiGateway.Library.Programs

structure Project where
  id : String
  name : String
  createdAt : Int
  deriving DecidableEq, Repr

/-- A row of `gateway_keys`; the scopes are a JSON array. -/
structure KeyColumns where
  id : String
  projectId : String
  name : String
  keyPrefix : String
  hash : Bytes
  last4 : String
  scopes : String
  status : KeyStatus
  expiresAt : Option Int
  lastUsedAt : Option Int
  createdAt : Int
  revokedAt : Option Int
  origin : KeyOrigin
  deriving DecidableEq, Repr

/-- `serde_json` on lists of strings. -/
structure ScopesCodec where
  toString : List String → Except String String
  fromStr : String → Except String (List String)
  fromStr_toString : ∀ scopes text, toString scopes = .ok text → fromStr text = .ok scopes

/-- `StorageError`, as far as these stores return it. -/
inductive SqlError where
  | database (detail : String)
  | serialization (detail : String)
  | notFound
  | conflict (msg : String)
  deriving DecidableEq, Repr

def SqlError.text : SqlError → String
  | .database detail => "database error: " ++ detail
  | .serialization detail => "serialization error: " ++ detail
  | .notFound => "not found"
  | .conflict msg => "conflict: " ++ msg

/-- The columns of a row whose scopes have the text `scopes`. -/
def GatewayKeyRow.columns (row : GatewayKeyRow) (scopes : String) : KeyColumns :=
  { id := row.id
    projectId := row.projectId
    name := row.name
    keyPrefix := row.keyPrefix
    hash := row.hash
    last4 := row.last4
    scopes := scopes
    status := row.status
    expiresAt := row.expiresAt
    lastUsedAt := row.lastUsedAt
    createdAt := row.createdAt
    revokedAt := row.revokedAt
    origin := row.origin }

/-- The row of these columns, whose scopes are `scopes`. -/
def KeyColumns.row (r : KeyColumns) (scopes : List String) : GatewayKeyRow :=
  { id := r.id
    projectId := r.projectId
    name := r.name
    keyPrefix := r.keyPrefix
    hash := r.hash
    last4 := r.last4
    scopes := scopes
    status := r.status
    expiresAt := r.expiresAt
    lastUsedAt := r.lastUsedAt
    createdAt := r.createdAt
    revokedAt := r.revokedAt
    origin := r.origin }

def rowToGatewayKey (codec : ScopesCodec) (r : KeyColumns) : Except SqlError GatewayKeyRow :=
  match codec.fromStr r.scopes with
  | .error detail => .error (.serialization detail)
  | .ok scopes => .ok (r.row scopes)

theorem rowToGatewayKey_columns {codec : ScopesCodec} {row : GatewayKeyRow} {scopes : String}
    (h : codec.toString row.scopes = .ok scopes) :
    rowToGatewayKey codec (row.columns scopes) = .ok row := by
  simp [rowToGatewayKey, GatewayKeyRow.columns, KeyColumns.row, codec.fromStr_toString _ _ h]

/-- The tables, and whether the write lock is taken. -/
structure SqlMetadataStore where
  projects : SqlTable String Project Project.id
  keys : SqlTable String KeyColumns KeyColumns.id
  locked : Bool
  -- `REFERENCES projects(id)`
  references : ∀ row ∈ keys.rows, (projects.find row.projectId).isSome

namespace SqlMetadataStore

def empty : SqlMetadataStore where
  projects := .empty
  keys := .empty
  locked := false
  references := by
    intro row h
    cases h

/-- The row under an id. -/
def keyRow (s : SqlMetadataStore) (id : String) : Option KeyColumns := s.keys.find id

/-! ### Statements -/

def setLocked (s : SqlMetadataStore) (locked : Bool) : SqlMetadataStore := { s with locked := locked }

def insertProject (s : SqlMetadataStore) (p : Project) : Option (Unit × SqlMetadataStore) :=
  if h : s.projects.find p.id = none then
    some ((),
      { projects := s.projects.add p h
        keys := s.keys
        locked := s.locked
        references := by
          intro row hrow
          rw [SqlTable.find_add]
          split
          · rfl
          · exact s.references row hrow })
  else none

def insertKey (s : SqlMetadataStore) (row : KeyColumns) : Option (Unit × SqlMetadataStore) :=
  if h : s.keys.find row.id = none ∧ (s.projects.find row.projectId).isSome then
    some ((),
      { projects := s.projects
        keys := s.keys.add row h.1
        locked := s.locked
        references := by
          intro r hr
          rcases List.mem_append.mp hr with hold | hnew
          · exact s.references r hold
          · cases List.mem_singleton.mp hnew
            exact h.2 })
  else none

/-- `UPDATE … WHERE id = ?`, with the rows it affects. -/
def updateKey (s : SqlMetadataStore) (id : String) (f : KeyColumns → KeyColumns)
    (hid : ∀ r, (f r).id = r.id) (hproject : ∀ r, (f r).projectId = r.projectId) :
    ℕ × SqlMetadataStore :=
  ((s.keyRow id).toList.length,
    { projects := s.projects
      keys := s.keys.update (fun r => if r.id = id then f r else r) (by
        intro r
        split
        · exact hid r
        · rfl)
      locked := s.locked
      references := by
        intro r hr
        obtain ⟨old, hold, rfl⟩ := List.mem_map.mp hr
        have hkept : (if old.id = id then f old else old).projectId = old.projectId := by
          split
          · exact hproject old
          · rfl
        rw [hkept]
        exact s.references old hold })

def setRevoked (s : SqlMetadataStore) (id : String) (now : Int) : ℕ × SqlMetadataStore :=
  s.updateKey id (fun r => { r with status := .revoked, revokedAt := some now })
    (fun _ => rfl) fun _ => rfl

def setLastUsed (s : SqlMetadataStore) (id : String) (ts : Int) : ℕ × SqlMetadataStore :=
  s.updateKey id (fun r => { r with lastUsedAt := some ts }) (fun _ => rfl) fun _ => rfl

/-- The `DO UPDATE` of a seeded key: `created_at`, `last_used_at` and `origin` stay. -/
def KeyColumns.seeded (excluded old : KeyColumns) : KeyColumns :=
  { old with
    projectId := excluded.projectId
    name := excluded.name
    keyPrefix := excluded.keyPrefix
    hash := excluded.hash
    last4 := excluded.last4
    scopes := excluded.scopes
    status := .active
    expiresAt := excluded.expiresAt
    revokedAt := none }

/-- `INSERT … ON CONFLICT(id) DO UPDATE`. -/
def upsertKey (s : SqlMetadataStore) (row : KeyColumns) : Option (Unit × SqlMetadataStore) :=
  if h : (s.projects.find row.projectId).isSome then
    if hnew : s.keys.find row.id = none then s.insertKey row
    else some ((),
      { projects := s.projects
        keys := s.keys.update (fun r => if r.id = row.id then KeyColumns.seeded row r else r) (by
          intro r
          split
          · rfl
          · rfl)
        locked := s.locked
        references := by
          intro r hr
          obtain ⟨old, hold, rfl⟩ := List.mem_map.mp hr
          split
          · exact h
          · exact s.references old hold })
  else none

/-- The rows that `prune_seeded_keys_not_in` deletes. -/
def prunable (projectId : String) (keepIds : List String) (r : KeyColumns) : Bool :=
  r.projectId = projectId ∧ r.origin = .config ∧ r.id ∉ keepIds

def deleteSeeded (s : SqlMetadataStore) (projectId : String) (keepIds : List String) :
    ℕ × SqlMetadataStore :=
  ((s.keys.rows.filter (prunable projectId keepIds)).length,
    { projects := s.projects
      keys := s.keys.delete (prunable projectId keepIds)
      locked := s.locked
      references := fun r hr => s.references r (List.mem_of_mem_filter hr) })

/-! ### What the statements leave under an id -/

section
variable {s t : SqlMetadataStore}

theorem keyRow_id {id : String} {row : KeyColumns} (h : s.keyRow id = some row) : row.id = id :=
  SqlTable.key_of_find h

theorem keyRow_updateKey {id : String} {f : KeyColumns → KeyColumns} {hid : ∀ r, (f r).id = r.id}
    {hproject : ∀ r, (f r).projectId = r.projectId} (id' : String) :
    (s.updateKey id f hid hproject).2.keyRow id' =
      if id' = id then (s.keyRow id').map f else s.keyRow id' := by
  simp only [keyRow, updateKey, SqlTable.find_update]
  cases hrow : s.keys.find id' with
  | none => simp
  | some row =>
    have hkey : row.id = id' := SqlTable.key_of_find hrow
    simp only [Option.map_some, hkey]
    split
    · rfl
    · rfl

theorem keyRow_insertKey {row : KeyColumns} (h : s.insertKey row = some ((), t)) (id : String) :
    s.keyRow row.id = none ∧ t.keyRow id = if id = row.id then some row else s.keyRow id := by
  unfold insertKey at h
  split at h
  · rename_i hnew
    cases h
    exact ⟨hnew.1, SqlTable.find_add hnew.1 id⟩
  · cases h

theorem keyRow_upsertKey {row : KeyColumns} (h : s.upsertKey row = some ((), t)) (id : String) :
    t.keyRow id = if id = row.id then some ((s.keyRow row.id).elim row (KeyColumns.seeded row))
      else s.keyRow id := by
  unfold upsertKey at h
  split at h
  · split at h
    · rename_i hnone
      have hold : s.keyRow row.id = none := hnone
      rw [(keyRow_insertKey h id).2, hold]
      rfl
    · rename_i hsome
      cases h
      simp only [keyRow, SqlTable.find_update]
      by_cases hid : id = row.id
      · subst hid
        rw [if_pos rfl]
        cases hold : s.keys.find row.id with
        | none => exact absurd hold hsome
        | some old =>
          have hkey : old.id = row.id := SqlTable.key_of_find hold
          simp [hkey]
      · rw [if_neg hid]
        cases hold : s.keys.find id with
        | none => rfl
        | some old =>
          have hkey : old.id = id := SqlTable.key_of_find hold
          simp [hkey, hid]
  · cases h

theorem keyRow_deleteSeeded {projectId : String} {keepIds : List String} {id : String}
    {row : KeyColumns} : (s.deleteSeeded projectId keepIds).2.keyRow id = some row ↔
      s.keyRow id = some row ∧ prunable projectId keepIds row = false :=
  SqlTable.find_delete

theorem keyRow_insertProject {p : Project} (h : s.insertProject p = some ((), t)) (id : String) :
    t.keyRow id = s.keyRow id := by
  unfold insertProject at h
  split at h
  · cases h
    rfl
  · cases h

end

end SqlMetadataStore

/-! ### Statements -/

/-- What a statement meets: the clock it binds, whether it fails (and took effect all the same), the
text of a failure and where a walk over the rows starts. -/
structure SqlEnv where
  clock : Int
  fault : Option Bool
  detail : String
  order : ℕ

inductive Statement where
  -- `write_lock.lock()` and the end of its guard
  | lock
  | unlock
  | now
  | selectProject (id : String)
  | insertProject (id name : String)
  | insertKey (row : KeyColumns)
  | selectKey (id : String)
  | selectKeyByHash (hash : Bytes)
  | selectKeysByProject (projectId : String)
  | selectOrigin (id : String)
  | setRevoked (id : String)
  | setLastUsed (id : String) (ts : Int)
  | upsertKey (row : KeyColumns)
  | deleteSeeded (projectId : String) (keepIds : List String)

/-- What a statement answers; the statements that bind `now_ms()` tell the time, and updates and
deletions how many rows they affect. -/
def Statement.Answer : Statement → Type
  | .lock => Unit
  | .unlock => Unit
  | .now => Int
  | .selectProject _ => Except SqlError (Option Project)
  | .insertProject _ _ => Except SqlError Int
  | .insertKey _ => Except SqlError Int
  | .selectKey _ => Except SqlError (Option KeyColumns)
  | .selectKeyByHash _ => Except SqlError (Option KeyColumns)
  | .selectKeysByProject _ => Except SqlError (List KeyColumns)
  | .selectOrigin _ => Except SqlError (Option KeyOrigin)
  | .setRevoked _ => Except SqlError ℕ
  | .setLastUsed _ _ => Except SqlError ℕ
  | .upsertKey _ => Except SqlError Unit
  | .deleteSeeded _ _ => Except SqlError ℕ

def SqlEnv.read {α : Type} (env : SqlEnv) (a : α) : Except SqlError α :=
  match env.fault with
  | none => .ok a
  | some _ => .error (.database env.detail)

/-- `none` is a row that a constraint refuses. -/
def SqlEnv.write {α : Type} (env : SqlEnv) (s : SqlMetadataStore)
    (result : Option (α × SqlMetadataStore)) : Except SqlError α × SqlMetadataStore :=
  match result with
  | none => (.error (.database env.detail), s)
  | some (a, t) =>
    match env.fault with
    | none => (.ok a, t)
    | some true => (.error (.database env.detail), t)
    | some false => (.error (.database env.detail), s)

namespace SqlMetadataStore

def exec : (q : Statement) → SqlEnv → SqlMetadataStore → Option (q.Answer × SqlMetadataStore)
  | .lock, _, s => if s.locked then none else some ((), s.setLocked true)
  | .unlock, _, s => some ((), s.setLocked false)
  | .now, env, s => some (env.clock, s)
  | .selectProject id, env, s => some (env.read (s.projects.find id), s)
  | .insertProject id name, env, s =>
    some (env.write s ((s.insertProject ⟨id, name, env.clock⟩).map fun r => (env.clock, r.2)))
  | .insertKey row, env, s =>
    some (env.write s ((s.insertKey { row with createdAt := env.clock }).map
      fun r => (env.clock, r.2)))
  | .selectKey id, env, s => some (env.read (s.keyRow id), s)
  | .selectKeyByHash hash, env, s =>
    some (env.read ((s.keys.rows.rotate env.order).find? fun r => r.hash = hash), s)
  | .selectKeysByProject projectId, env, s =>
    some (env.read (((s.keys.rows.rotate env.order).filter fun r => r.projectId = projectId).mergeSort
      fun a b => b.createdAt ≤ a.createdAt), s)
  | .selectOrigin id, env, s => some (env.read ((s.keyRow id).map KeyColumns.origin), s)
  | .setRevoked id, env, s => some (env.write s (some (s.setRevoked id env.clock)))
  | .setLastUsed id ts, env, s => some (env.write s (some (s.setLastUsed id ts)))
  | .upsertKey row, env, s =>
    some (env.write s (s.upsertKey { row with createdAt := env.clock }))
  | .deleteSeeded projectId keepIds, env, s =>
    some (env.write s (some (s.deleteSeeded projectId keepIds)))

/-- What a statement makes of the row under an id. -/
inductive RowStep (env : SqlEnv) (id : String) :
    Statement → Option KeyColumns → Option KeyColumns → Prop where
  | same (q : Statement) (old : Option KeyColumns) : RowStep env id q old old
  | inserted (row : KeyColumns) (hid : row.id = id) :
      RowStep env id (.insertKey row) none (some { row with createdAt := env.clock })
  | revoked (old : KeyColumns) : RowStep env id (.setRevoked id) (some old)
      (some { old with status := .revoked, revokedAt := some env.clock })
  | touched (ts : Int) (old : KeyColumns) : RowStep env id (.setLastUsed id ts) (some old)
      (some { old with lastUsedAt := some ts })
  | seeded (row : KeyColumns) (hid : row.id = id) (old : Option KeyColumns) :
      RowStep env id (.upsertKey row) old (some (old.elim { row with createdAt := env.clock }
        (KeyColumns.seeded { row with createdAt := env.clock })))
  | pruned (projectId : String) (keepIds : List String) (old : KeyColumns)
      (h : prunable projectId keepIds old = true) :
      RowStep env id (.deleteSeeded projectId keepIds) (some old) none

theorem read_ok {α : Type} {env : SqlEnv} {a b : α} (h : env.read a = .ok b) : b = a := by
  unfold SqlEnv.read at h
  split at h
  · exact (Except.ok.inj h).symm
  · cases h

theorem write_cases {α : Type} {env : SqlEnv} {s t : SqlMetadataStore}
    {result : Option (α × SqlMetadataStore)} {a : Except SqlError α}
    (h : env.write s result = (a, t)) :
    (t = s ∧ ∃ e, a = .error e) ∨ ∃ b, result = some (b, t) ∧ ∀ b', a = .ok b' → b' = b := by
  unfold SqlEnv.write at h
  split at h
  · cases h
    exact Or.inl ⟨rfl, _, rfl⟩
  · split at h
    · cases h
      exact Or.inr ⟨_, rfl, fun _ h => (Except.ok.inj h).symm⟩
    · cases h
      exact Or.inr ⟨_, rfl, fun _ h => by cases h⟩
    · cases h
      exact Or.inl ⟨rfl, _, rfl⟩

theorem rowStep_updateKey {s : SqlMetadataStore} {q : Statement} {env : SqlEnv} {id id' : String}
    {f : KeyColumns → KeyColumns} {hid : ∀ r, (f r).id = r.id}
    {hproject : ∀ r, (f r).projectId = r.projectId}
    (h : id' = id → ∀ old, RowStep env id' q (some old) (some (f old))) :
    RowStep env id' q (s.keyRow id') ((s.updateKey id f hid hproject).2.keyRow id') := by
  rw [keyRow_updateKey]
  split
  · rename_i heq
    cases s.keyRow id' with
    | none => exact .same q none
    | some old => exact h heq old
  · exact .same q _

theorem exec_row {q : Statement} {env : SqlEnv} {s t : SqlMetadataStore} {a : q.Answer}
    (h : exec q env s = some (a, t)) (id : String) :
    RowStep env id q (s.keyRow id) (t.keyRow id) := by
  cases q with
  | lock =>
    simp only [exec] at h
    split at h
    · cases h
    · cases h
      exact .same _ _
  | unlock | now | selectProject | selectKey | selectKeyByHash | selectKeysByProject
  | selectOrigin =>
    cases h
    exact .same _ _
  | insertProject projectId name =>
    obtain ⟨rfl, -⟩ | ⟨b, hresult, -⟩ := write_cases (Option.some.inj h)
    · exact .same _ _
    · obtain ⟨⟨_, t'⟩, hinsert, hb⟩ := Option.map_eq_some_iff.mp hresult
      cases hb
      rw [keyRow_insertProject hinsert]
      exact .same _ _
  | insertKey row =>
    obtain ⟨rfl, -⟩ | ⟨b, hresult, -⟩ := write_cases (Option.some.inj h)
    · exact .same _ _
    · obtain ⟨⟨_, t'⟩, hinsert, hb⟩ := Option.map_eq_some_iff.mp hresult
      cases hb
      obtain ⟨hnone, hrow⟩ := keyRow_insertKey hinsert id
      rw [hrow]
      split
      · rename_i hid
        rw [hid, hnone]
        exact .inserted row rfl
      · exact .same _ _
  | setRevoked id' =>
    obtain ⟨rfl, -⟩ | ⟨b, hresult, -⟩ := write_cases (Option.some.inj h)
    · exact .same _ _
    · have ht : t = (s.setRevoked id' env.clock).2 := by rw [Option.some.inj hresult]
      rw [ht]
      refine rowStep_updateKey ?_
      rintro rfl old
      exact .revoked old
  | setLastUsed id' ts =>
    obtain ⟨rfl, -⟩ | ⟨b, hresult, -⟩ := write_cases (Option.some.inj h)
    · exact .same _ _
    · have ht : t = (s.setLastUsed id' ts).2 := by rw [Option.some.inj hresult]
      rw [ht]
      refine rowStep_updateKey ?_
      rintro rfl old
      exact .touched ts old
  | upsertKey row =>
    obtain ⟨rfl, -⟩ | ⟨⟨⟩, hresult, -⟩ := write_cases (Option.some.inj h)
    · exact .same _ _
    · rw [keyRow_upsertKey hresult]
      split
      · rename_i hid
        have hid' : id = row.id := hid
        subst hid'
        exact .seeded row rfl _
      · exact .same _ _
  | deleteSeeded projectId keepIds =>
    obtain ⟨rfl, -⟩ | ⟨b, hresult, -⟩ := write_cases (Option.some.inj h)
    · exact .same _ _
    · have ht : t = (s.deleteSeeded projectId keepIds).2 := by rw [Option.some.inj hresult]
      have hrow : ∀ row, t.keyRow id = some row ↔
          s.keyRow id = some row ∧ prunable projectId keepIds row = false := by
        rw [ht]
        exact fun _ => keyRow_deleteSeeded
      cases hnew : t.keyRow id with
      | some row =>
        rw [((hrow row).mp hnew).1]
        exact .same _ _
      | none =>
        cases hold : s.keyRow id with
        | none => exact .same _ _
        | some old =>
          refine .pruned projectId keepIds old ?_
          by_contra hkept
          cases hnew.symm.trans ((hrow old).mpr ⟨hold, by simpa using hkept⟩)

end SqlMetadataStore

/-! ### Methods -/

inductive SqlBackend where
  | sqlite
  | postgres
  deriving DecidableEq, Repr

abbrev Db (α : Type) := Fallible Statement Statement.Answer SqlError α

/-- Only SQLite takes the lock. -/
def withWriteLock {ρ : Type} (backend : SqlBackend) (body : Program Statement Statement.Answer ρ) :
    Program Statement Statement.Answer ρ :=
  match backend with
  | .postgres => body
  | .sqlite => Program.exec .lock fun _ =>
    Program.bind body fun r => Program.exec .unlock fun _ => .ret r

def query (q : Statement) : Program Statement Statement.Answer q.Answer := .exec q .ret

namespace SqlMetadataStore
variable (backend : SqlBackend) (codec : ScopesCodec)

def createProject (id name : String) : Db Project := do
  let createdAt ← (withWriteLock backend (query (.insertProject id name)) : Db Int)
  return ⟨id, name, createdAt⟩

def getProject (id : String) : Db (Option Project) := query (.selectProject id)

-- the statement binds its own `created_at`
def createKey (k : NewGatewayKey) : Db GatewayKeyRow :=
  match codec.toString k.scopes with
  | .error detail => throw (.serialization detail)
  | .ok scopes => do
    let row := (MemoryMetadataStore.newRow k 0).columns scopes
    let createdAt ← (withWriteLock backend (query (.insertKey row)) : Db Int)
    return MemoryMetadataStore.newRow k createdAt

def decoded (row : Option KeyColumns) : Except SqlError (Option GatewayKeyRow) :=
  match row with
  | none => .ok none
  | some r => (rowToGatewayKey codec r).map some

def getKey (id : String) : Db (Option GatewayKeyRow) := do
  let row ← (query (.selectKey id) : Db (Option KeyColumns))
  Program.ret (decoded codec row)

def findKeyByHash (hash : Bytes) : Db (Option GatewayKeyRow) := do
  let row ← (query (.selectKeyByHash hash) : Db (Option KeyColumns))
  Program.ret (decoded codec row)

def listKeys (projectId : String) : Db (List GatewayKeyRow) := do
  let rows ← (query (.selectKeysByProject projectId) : Db (List KeyColumns))
  Program.ret (rows.mapM (rowToGatewayKey codec))

def revokeKey (id : String) : Db Unit := do
  let affected ← (withWriteLock backend (query (.setRevoked id)) : Db ℕ)
  if affected = 0 then throw .notFound else pure ()

def touchKeyLastUsed (id : String) (ts : Int) : Db Unit := do
  let _ ← (withWriteLock backend (query (.setLastUsed id ts)) : Db ℕ)
  return ()

/-- The writes of `upsert_seeded_key`, behind its check. -/
def writeSeeded (k : NewGatewayKey) (scopes : String) : Db GatewayKeyRow := do
  let row := (MemoryMetadataStore.newRow { k with origin := .config } 0).columns scopes
  let _ ← (query (.upsertKey row) : Db Unit)
  let written ← (query (.selectKey k.id) : Db (Option KeyColumns))
  match written with
  | none => throw (.database
      "no rows returned by a query that expected to return at least one row")
  | some r => Program.ret (rowToGatewayKey codec r)

def checkedWrite (k : NewGatewayKey) (scopes : String) : Db GatewayKeyRow := do
  let existing ← (query (.selectOrigin k.id) : Db (Option KeyOrigin))
  if existing.any fun origin => origin ≠ .config then
    throw (.conflict ("gateway key '" ++ k.id ++
      "' is admin-managed; rename the config-seeded key"))
  else writeSeeded codec k scopes

def upsertSeededKey (k : NewGatewayKey) : Db GatewayKeyRow :=
  match codec.toString k.scopes with
  | .error detail => throw (.serialization detail)
  | .ok scopes => withWriteLock backend (checkedWrite codec k scopes)

def pruneSeededKeysNotIn (projectId : String) (keepIds : List String) : Db ℕ :=
  withWriteLock backend (query (.deleteSeeded projectId keepIds))

end SqlMetadataStore

/-! ### Kinds of statements -/

def Statement.reads : Statement → Bool
  | .now | .selectProject _ | .selectKey _ | .selectKeyByHash _ | .selectKeysByProject _
  | .selectOrigin _ => true
  | _ => false

theorem exec_reads {q : Statement} {env : SqlEnv} {s t : SqlMetadataStore} {a : q.Answer}
    (hq : q.reads = true) (h : SqlMetadataStore.exec q env s = some (a, t)) : t = s := by
  cases q with
  | now | selectProject | selectKey | selectKeyByHash | selectKeysByProject | selectOrigin =>
    cases h
    rfl
  | _ => cases hq

theorem insertKey_locked {s t : SqlMetadataStore} {row : KeyColumns}
    (h : s.insertKey row = some ((), t)) : t.locked = s.locked := by
  unfold SqlMetadataStore.insertKey at h
  split at h
  · cases h
    rfl
  · cases h

/-- Only `lock` and `unlock` move the lock. -/
theorem exec_locked {q : Statement} {env : SqlEnv} {s t : SqlMetadataStore} {a : q.Answer}
    (hlock : q ≠ .lock) (hunlock : q ≠ .unlock)
    (h : SqlMetadataStore.exec q env s = some (a, t)) : t.locked = s.locked := by
  cases q with
  | lock => exact absurd rfl hlock
  | unlock => exact absurd rfl hunlock
  | now | selectProject | selectKey | selectKeyByHash | selectKeysByProject | selectOrigin =>
    rw [exec_reads rfl h]
  | insertProject id name =>
    obtain ⟨rfl, -⟩ | ⟨b, hresult, -⟩ := SqlMetadataStore.write_cases (Option.some.inj h)
    · rfl
    · obtain ⟨⟨_, t'⟩, hinsert, hb⟩ := Option.map_eq_some_iff.mp hresult
      cases hb
      unfold SqlMetadataStore.insertProject at hinsert
      split at hinsert
      · cases hinsert
        rfl
      · cases hinsert
  | insertKey row =>
    obtain ⟨rfl, -⟩ | ⟨b, hresult, -⟩ := SqlMetadataStore.write_cases (Option.some.inj h)
    · rfl
    · obtain ⟨⟨_, t'⟩, hinsert, hb⟩ := Option.map_eq_some_iff.mp hresult
      cases hb
      exact insertKey_locked hinsert
  | setRevoked id =>
    obtain ⟨rfl, -⟩ | ⟨b, hresult, -⟩ := SqlMetadataStore.write_cases (Option.some.inj h)
    · rfl
    · rw [show t = (s.setRevoked id env.clock).2 by rw [Option.some.inj hresult]]
      rfl
  | setLastUsed id ts =>
    obtain ⟨rfl, -⟩ | ⟨b, hresult, -⟩ := SqlMetadataStore.write_cases (Option.some.inj h)
    · rfl
    · rw [show t = (s.setLastUsed id ts).2 by rw [Option.some.inj hresult]]
      rfl
  | upsertKey row =>
    obtain ⟨rfl, -⟩ | ⟨⟨⟩, hresult, -⟩ := SqlMetadataStore.write_cases (Option.some.inj h)
    · rfl
    · unfold SqlMetadataStore.upsertKey at hresult
      split at hresult
      · split at hresult
        · exact insertKey_locked hresult
        · cases hresult
          rfl
      · cases hresult
  | deleteSeeded projectId keepIds =>
    obtain ⟨rfl, -⟩ | ⟨b, hresult, -⟩ := SqlMetadataStore.write_cases (Option.some.inj h)
    · rfl
    · rw [show t = (s.deleteSeeded projectId keepIds).2 by rw [Option.some.inj hresult]]
      rfl

end AiGateway.Storage
