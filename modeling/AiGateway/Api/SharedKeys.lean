import AiGateway.Api.SeedKeys
import AiGateway.Storage.SqlMetadata

/-!
# Replicas that share the key tables

`seed_keys.rs`, `routes/admin/keys.rs`, `auth.rs` and the boot of `main.rs` over a SQL store. Any
number of calls run at once and interleave at each statement. The touch that an accepted request
leaves behind is a call of its own.
-/

namespace AiGateway.Api
open AiGateway.Core AiGateway.Storage AiGateway.Library AiGateway.Library.Runs
open AiGateway.Library.Programs SqlMetadataStore

namespace SharedKeys

structure Deployment where
  backend : SqlBackend
  codec : ScopesCodec
  deriveHash : String → Bytes
  defaultProjectId : String

abbrev Steps (ε α : Type) := Fallible Statement Statement.Answer ε α

section
variable (d : Deployment)

/-! ### Boot and reload -/

def seedDefaultProject : Db Unit := do
  let existing ← getProject d.defaultProjectId
  if existing.isNone then
    let _ ← createProject d.backend d.defaultProjectId d.defaultProjectId
    return ()
  else return ()

def upsertAll : List SeedKeys.ToUpsert → Steps String Unit
  | [] => pure ()
  | e :: rest => do
    let _ ← Fallible.mapErr
      (fun err => "upsert gateway_keys[id=" ++ e.key.id ++ "] failed: " ++ err.text)
      (upsertSeededKey d.backend d.codec (SeedKeys.seededKey d.deriveHash d.defaultProjectId e))
    upsertAll rest

def pruneAll : List (String × List String) → Steps String Unit
  | [] => pure ()
  | e :: rest => do
    let _ ← Fallible.mapErr
      (fun err => "prune seeded keys for project '" ++ e.1 ++ "' failed: " ++ err.text)
      (pruneSeededKeysNotIn d.backend e.1 e.2)
    pruneAll rest

/-- The prune of the default project when no declared key is in it. -/
def pruneDefault (keys : List GatewayKeyConfig) : Steps String Unit :=
  if SeedKeys.usesDefault d.defaultProjectId keys then pure ()
  else do
    let _ ← Fallible.mapErr
      (fun err => "prune seeded keys for default project failed: " ++ SqlError.text err)
      (pruneSeededKeysNotIn d.backend d.defaultProjectId [])
    return ()

/-- `seed_keys::apply`; `order` is how `by_project` iterates. -/
def apply (env : String → Option String) (keys : List GatewayKeyConfig)
    (order : List (String × List String)) : Steps String Unit :=
  match SeedKeys.resolveKeys env keys with
  | .error e => throw e
  | .ok toUpsert => do
    upsertAll d toUpsert
    pruneAll d order
    pruneDefault d keys

def boot (env : String → Option String) (keys : List GatewayKeyConfig)
    (order : List (String × List String)) : Steps String Unit := do
  Fallible.mapErr SqlError.text (seedDefaultProject d)
  apply d env keys order

/-! ### Admin routes and authentication -/

def createKey (req : CreateKeyRequest) (id secret : String) : Steps ApiError CreateKeyResponse :=
  match KeyEnv.parse req.env with
  | none => throw (.badRequest ("invalid env '" ++ req.env ++ "', expected live or test"))
  | some env => do
    let plaintext := generatedPlaintext env secret
    let row ← Fallible.mapErr (fun err => ApiError.storage (SqlError.text err))
      (SqlMetadataStore.createKey d.backend d.codec
        { id := id
          projectId := req.projectId.getD d.defaultProjectId
          name := req.name
          keyPrefix := env.start
          hash := d.deriveHash plaintext
          last4 := Core.last4 plaintext
          scopes := req.scopes
          expiresAt := req.expiresAt
          origin := .admin })
    return { id := row.id
             name := row.name
             keyPrefix := row.keyPrefix
             last4 := row.last4
             secret := plaintext
             createdAt := row.createdAt }

def revokeKey (id : String) : Steps ApiError Unit := do
  let existing ← Fallible.mapErr (fun err => ApiError.storage (SqlError.text err))
    (SqlMetadataStore.getKey d.codec id)
  if existing.any fun row => row.origin = .config then
    throw (.badRequest ("key '" ++ id ++
      "' is managed by the config file; remove it from gateway_keys[] to revoke"))
  else
    Fallible.mapErr (fun err => ApiError.storage (SqlError.text err))
      (SqlMetadataStore.revokeKey d.backend id)

/-- What `from_request_parts` makes of the row it found, when its clock shows `now`. -/
def accept (row : GatewayKeyRow) (now : Int) : Except ApiError GatewayKeyPrincipal :=
  if !GatewayKeyRow.unexpired row now then .error .unauthorized
  else .ok { keyId := row.id, projectId := row.projectId }

def authorize : Option GatewayKeyRow → Steps ApiError GatewayKeyPrincipal
  | none => throw .unauthorized
  | some row =>
    if row.status ≠ .active then throw .unauthorized
    else Program.exec .now fun now => .ret (accept row now)

def authenticate (headers : HeaderMap) : Steps ApiError GatewayKeyPrincipal :=
  match (extractBearer headers).filter fun token => (parseGatewayKey token).isSome with
  | none => throw .unauthorized
  | some token => do
    let found ← Fallible.mapErr (fun err => ApiError.storage (SqlError.text err))
      (SqlMetadataStore.findKeyByHash d.codec (d.deriveHash token))
    authorize found

/-! ### Calls -/

inductive Call where
  | boot (env : String → Option String) (keys : List GatewayKeyConfig)
      (order : List (String × List String))
  | reload (env : String → Option String) (keys : List GatewayKeyConfig)
      (order : List (String × List String))
  | create (req : CreateKeyRequest) (id secret : String)
  | revoke (id : String)
  | list (projectId : String)
  | authenticate (headers : HeaderMap)
  | touch (id : String) (ts : Int)

inductive Outcome where
  | seeded (r : Except String Unit)
  | created (r : Except ApiError CreateKeyResponse)
  | revoked (r : Except ApiError Unit)
  | listed (r : Except SqlError (List GatewayKeyRow))
  | principal (r : Except ApiError GatewayKeyPrincipal)
  | touched

def code : Call → Program Statement Statement.Answer Outcome
  | .boot env keys order => Program.bind (boot d env keys order) fun r => .ret (.seeded r)
  | .reload env keys order => Program.bind (apply d env keys order) fun r => .ret (.seeded r)
  | .create req id secret => Program.bind (createKey d req id secret) fun r => .ret (.created r)
  | .revoke id => Program.bind (revokeKey d id) fun r => .ret (.revoked r)
  | .list projectId => Program.bind (listKeys d.codec projectId) fun r => .ret (.listed r)
  | .authenticate headers => Program.bind (authenticate d headers) fun r => .ret (.principal r)
  | .touch id ts => Program.bind (touchKeyLastUsed d.backend id ts) fun _ => .ret .touched

/-- The writes that a method sends alone under the lock. -/
inductive Writes (codec : ScopesCodec) : Statement → Prop where
  | insertProject (id name : String) : Writes codec (.insertProject id name)
  | insertKey (k : NewGatewayKey) (scopes : String) (h : codec.toString k.scopes = .ok scopes) :
      Writes codec (.insertKey ((MemoryMetadataStore.newRow k 0).columns scopes))
  | setRevoked (id : String) : Writes codec (.setRevoked id)
  | setLastUsed (id : String) (ts : Int) : Writes codec (.setLastUsed id ts)
  | deleteSeeded (projectId : String) (keepIds : List String) :
      Writes codec (.deleteSeeded projectId keepIds)

/-- What single statements, writes under the lock and seeded keys have, and `bind` keeps, every
call has. -/
theorem code_induction (Φ : {α : Type} → Program Statement Statement.Answer α → Prop)
    (hret : ∀ {α : Type} (a : α), Φ (.ret a))
    (hbind : ∀ {α β : Type} (p : Program Statement Statement.Answer α)
      (f : α → Program Statement Statement.Answer β), Φ p → (∀ a, Φ (f a)) → Φ (p.bind f))
    (hread : ∀ q, q.reads = true → Φ (query q))
    (hwrite : ∀ q, Writes d.codec q → Φ (withWriteLock d.backend (query q)))
    (hseed : ∀ k, Φ (upsertSeededKey d.backend d.codec k)) (call : Call) : Φ (code d call) := by
  have herr : ∀ {ε α β : Type} (p : Steps ε α) (f : α → Steps ε β), Φ p → (∀ a, Φ (f a)) →
      Φ (p >>= f : Steps ε β) := by
    intro ε α β p f hp hf
    refine hbind p _ hp ?_
    intro r
    cases r with
    | ok a => exact hf a
    | error e => exact hret _
  have hmap : ∀ {ε ε' α : Type} (f : ε → ε') (p : Steps ε α), Φ p → Φ (p.mapErr f) :=
    fun f p hp => hbind p _ hp fun _ => hret _
  have hite : ∀ {ε α : Type} (c : Prop) [hc : Decidable c] (p q : Steps ε α), Φ p → Φ q →
      Φ (if c then p else q : Steps ε α) := by
    intro ε α c hc p q hp hq
    cases hc with
    | isTrue h => exact hp
    | isFalse h => exact hq
  have hupserts : ∀ toUpsert, Φ (upsertAll d toUpsert) := by
    intro toUpsert
    induction toUpsert with
    | nil => exact hret _
    | cons e rest ih => exact herr _ _ (hmap _ _ (hseed _)) fun _ => ih
  have hprunes : ∀ order, Φ (pruneAll d order) := by
    intro order
    induction order with
    | nil => exact hret _
    | cons e rest ih => exact herr _ _ (hmap _ _ (hwrite _ (.deleteSeeded _ _))) fun _ => ih
  have hdefault : ∀ keys, Φ (pruneDefault d keys) := by
    intro keys
    exact hite _ _ _ (hret _) (herr _ _ (hmap _ _ (hwrite _ (.deleteSeeded _ _))) fun _ =>
      hret _)
  have happly : ∀ env keys order, Φ (apply d env keys order) := by
    intro env keys order
    unfold apply
    split
    · exact hret _
    · exact herr _ _ (hupserts _) fun _ => herr _ _ (hprunes _) fun _ => hdefault _
  cases call with
  | boot env keys order =>
    refine hbind _ _ (herr _ _ (hmap _ _ ?_) fun _ => happly _ _ _) fun _ => hret _
    exact herr _ _ (hread _ rfl) fun existing =>
      hite _ _ _ (herr _ _ (herr _ _ (hwrite _ (.insertProject _ _)) fun _ => hret _) fun _ => hret _)
        (hret _)
  | reload env keys order => exact hbind _ _ (happly _ _ _) fun _ => hret _
  | create req id secret =>
    refine hbind _ _ ?_ fun _ => hret _
    unfold createKey
    split
    · exact hret _
    · refine herr _ _ (hmap _ _ ?_) fun _ => hret _
      unfold SqlMetadataStore.createKey
      split
      · exact hret _
      · rename_i scopes hscopes
        exact herr _ _ (hwrite _ (.insertKey _ scopes hscopes)) fun _ => hret _
  | revoke id =>
    have hrevoke : Φ (SqlMetadataStore.revokeKey d.backend id) :=
      herr _ _ (hwrite _ (.setRevoked _)) fun _ => hite _ _ _ (hret _) (hret _)
    exact hbind _ _ (herr _ _ (hmap _ _ (herr _ _ (hread _ rfl) fun _ => hret _)) fun _ =>
      hite _ _ _ (hret _) (hmap _ _ hrevoke)) fun _ => hret _
  | list projectId => exact hbind _ _ (herr _ _ (hread _ rfl) fun _ => hret _) fun _ => hret _
  | authenticate headers =>
    refine hbind _ _ ?_ fun _ => hret _
    unfold authenticate
    split
    · exact hret _
    · refine herr _ _ (hmap _ _ (herr _ _ (hread _ rfl) fun _ => hret _)) fun found => ?_
      cases found with
      | none => exact hret _
      | some row =>
        exact hite _ _ _ (hret _) (hbind (query .now) _ (hread _ rfl) fun _ => hret _)
  | touch id ts =>
    exact hbind _ _ (herr _ _ (hwrite _ (.setLastUsed _ _)) fun _ => hret _) fun _ => hret _

end

abbrev Keys := Pool SqlMetadataStore Call Statement Statement.Answer Outcome

abbrev step (d : Deployment) : Keys → Pool.Move Call SqlEnv → Option Keys :=
  Pool.step exec (code d)

/-! ### Sample replicas -/

def sampleScopes : ScopesCodec where
  toString scopes := if scopes = [] then .ok "[]" else .error "other scopes"
  fromStr text := if text = "[]" then .ok [] else .error "another text"
  fromStr_toString := by
    intro scopes text h
    split at h
    · rename_i hscopes
      cases h
      rw [hscopes, if_pos rfl]
    · cases h

def sampleDeployment (backend : SqlBackend) : Deployment where
  backend := backend
  codec := sampleScopes
  deriveHash := asBytes
  defaultProjectId := "default"

def sampleTables : SqlMetadataStore :=
  ((SqlMetadataStore.empty.insertProject ⟨"default", "default", 0⟩).map Prod.snd).getD .empty

def sampleTurn (i : ℕ) : Pool.Move Call SqlEnv := .turn i ⟨5, none, "", 0⟩

end SharedKeys

end AiGateway.Api
