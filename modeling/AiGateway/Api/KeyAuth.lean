import AiGateway.Storage.MemoryMetadata
import AiGateway.Api.RateLimit
import AiGateway.Library.Runs

/-!
# Admin key routes and authentication (`routes/admin/keys.rs`, `auth.rs:66-109`)

`deriveHash` is the keyed BLAKE3 hash of a secret under the master key. A key
route checks the row and then writes it with two calls of the store, so the runs
below are runs of single store calls and every interleaving of the routes is one
of them. The touch of `last_used_at` that follows an authenticated request is a
call of its own.
-/

namespace AiGateway.Api
open AiGateway.Core AiGateway.Storage AiGateway.Library AiGateway.Library.Runs
open MemoryMetadataStore

structure GatewayKeyPrincipal where
  keyId : String
  projectId : String
  deriving DecidableEq, Repr

def extractBearer (headers : HeaderMap) : Option String :=
  match (headers.text "authorization").bind fun s => stripStart s "Bearer " with
  | none => none
  | some rest => if trim rest = "" then none else some (trim rest)

/-- `exp <= now` rejects. -/
def GatewayKeyRow.unexpired (row : GatewayKeyRow) (now : Int) : Bool :=
  row.expiresAt.all fun exp => now < exp

/-- `GatewayKeyPrincipal::from_request_parts`; `order` is how the key map iterates. -/
def gatewayKeyPrincipal (deriveHash : String → Bytes) (order : List (String × GatewayKeyRow))
    (now : Int) (headers : HeaderMap) : Except ApiError GatewayKeyPrincipal :=
  match extractBearer headers with
  | none => .error .unauthorized
  | some token =>
    match parseGatewayKey token with
    | none => .error .unauthorized
    | some _ =>
      match findKeyByHash order (deriveHash token) with
      | none => .error .unauthorized
      | some row =>
        if row.status ≠ .active then .error .unauthorized
        else if !GatewayKeyRow.unexpired row now then .error .unauthorized
        else .ok { keyId := row.id, projectId := row.projectId }

/-- What an accepted request proves about the row of its key. -/
structure Authenticates (deriveHash : String → Bytes) (s : MemoryMetadataStore) (now : Int)
    (headers : HeaderMap) (p : GatewayKeyPrincipal) (row : GatewayKeyRow) : Prop where
  stored : s.getKey p.keyId = some row
  project : row.projectId = p.projectId
  active : row.status = .active
  unexpired : row.expiresAt = none ∨ ∃ exp, row.expiresAt = some exp ∧ now < exp
  hashed : ∃ token, extractBearer headers = some token ∧ row.hash = deriveHash token

theorem findKeyByHash_stored {s : MemoryMetadataStore} {order : List (String × GatewayKeyRow)}
    (horder : HashMap.Iterates s.keys order) {hash : Bytes} {row : GatewayKeyRow}
    (h : findKeyByHash order hash = some row) : s.getKey row.id = some row ∧ row.hash = hash := by
  unfold findKeyByHash at h
  have hhash : row.hash = hash := by simpa using List.find?_some h
  obtain ⟨e, he, hrow⟩ := List.mem_map.mp (List.mem_of_find?_eq_some h)
  have hlookup : s.getKey e.1 = some e.2 := horder.mem.mp he
  rw [hrow] at hlookup
  rw [getKey_id hlookup]
  exact ⟨hlookup, hhash⟩

theorem gatewayKeyPrincipal_ok {deriveHash : String → Bytes}
    {order : List (String × GatewayKeyRow)} {now : Int} {headers : HeaderMap}
    {p : GatewayKeyPrincipal} (h : gatewayKeyPrincipal deriveHash order now headers = .ok p) :
    ∃ token row, extractBearer headers = some token ∧
      findKeyByHash order (deriveHash token) = some row ∧ row.status = .active ∧
      GatewayKeyRow.unexpired row now = true ∧ p = ⟨row.id, row.projectId⟩ := by
  unfold gatewayKeyPrincipal at h
  split at h
  · cases h
  · rename_i token htoken
    split at h
    · cases h
    · split at h
      · cases h
      · rename_i row hrow
        split at h
        · cases h
        · rename_i hactive
          split at h
          · cases h
          · rename_i hexp
            cases h
            exact ⟨token, row, htoken, hrow, not_not.mp hactive, by simpa using hexp, rfl⟩

theorem gatewayKeyPrincipal_authenticates {deriveHash : String → Bytes} {s : MemoryMetadataStore}
    {order : List (String × GatewayKeyRow)} (horder : HashMap.Iterates s.keys order) {now : Int}
    {headers : HeaderMap} {p : GatewayKeyPrincipal}
    (h : gatewayKeyPrincipal deriveHash order now headers = .ok p) :
    ∃ row, Authenticates deriveHash s now headers p row := by
  obtain ⟨token, row, htoken, hfound, hactive, hexp, hp⟩ := gatewayKeyPrincipal_ok h
  obtain ⟨hstored, hhash⟩ := findKeyByHash_stored horder hfound
  subst hp
  refine ⟨row, hstored, rfl, hactive, ?_, token, htoken, hhash⟩
  cases hcase : row.expiresAt with
  | none => exact Or.inl rfl
  | some exp =>
    refine Or.inr ⟨exp, rfl, ?_⟩
    simpa [GatewayKeyRow.unexpired, hcase] using hexp

/-! ### Admin routes -/

structure CreateKeyRequest where
  name : String
  env : String := "live"
  projectId : Option String := none
  scopes : List String := []
  expiresAt : Option Int := none

structure CreateKeyResponse where
  id : String
  name : String
  keyPrefix : String
  last4 : String
  secret : String
  createdAt : Int

namespace AdminKeys

/-- `create_key`; `id` is the new UUID and `secret` the random part of the key. -/
def createKey (deriveHash : String → Bytes) (defaultProjectId : String) (req : CreateKeyRequest)
    (id secret : String) (now : Int) (s : MemoryMetadataStore) :
    Except ApiError CreateKeyResponse × MemoryMetadataStore :=
  match KeyEnv.parse req.env with
  | none => (.error (.badRequest ("invalid env '" ++ req.env ++ "', expected live or test")), s)
  | some env =>
    let plaintext := generatedPlaintext env secret
    let result := s.createKey
      { id := id
        projectId := req.projectId.getD defaultProjectId
        name := req.name
        keyPrefix := env.start
        hash := deriveHash plaintext
        last4 := Core.last4 plaintext
        scopes := req.scopes
        expiresAt := req.expiresAt
        origin := .admin } now
    (.ok { id := result.1.id
           name := result.1.name
           keyPrefix := result.1.keyPrefix
           last4 := result.1.last4
           secret := plaintext
           createdAt := result.1.createdAt }, result.2)

/-- `revoke_key` when nothing comes between its two store calls. -/
def revokeKey (id : String) (now : Int) (s : MemoryMetadataStore) :
    Except ApiError Unit × MemoryMetadataStore :=
  if (s.getKey id).any fun existing => existing.origin = .config then
    (.error (.badRequest ("key '" ++ id ++
      "' is managed by the config file; remove it from gateway_keys[] to revoke")), s)
  else
    match s.revokeKey id now with
    | (.ok (), s') => (.ok (), s')
    | (.error e, s') => (.error (.storage e.text), s')

end AdminKeys

/-! ### Runs of store calls -/

inductive KeyCall where
  | createKey (k : NewGatewayKey) (now : Int)
  | revokeKey (id : String) (now : Int)
  | upsertSeededKey (k : NewGatewayKey) (now : Int)
  | pruneSeededKeysNotIn (projectId : String) (keepIds : List String)
  | touchKeyLastUsed (id : String) (ts : Int)

/-- A key is created under an id that no row has. -/
def keyStep (s : MemoryMetadataStore) : KeyCall → Option MemoryMetadataStore
  | .createKey k now => if (s.getKey k.id).isSome then none else some (s.createKey k now).2
  | .revokeKey id now => some (s.revokeKey id now).2
  | .upsertSeededKey k now => some (s.upsertSeededKey k now).2
  | .pruneSeededKeysNotIn projectId keepIds => some (s.pruneSeededKeysNotIn projectId keepIds)
  | .touchKeyLastUsed id ts => some (s.touchKeyLastUsed id ts)

/-- The row of `id` is an admin key that has been revoked. -/
def RevokedAdmin (id : String) (s : MemoryMetadataStore) : Prop :=
  ∃ row, s.getKey id = some row ∧ row.status = .revoked ∧ row.origin = .admin

theorem RevokedAdmin.putKey_of_ne {id : String} {s : MemoryMetadataStore} {row : GatewayKeyRow}
    (h : RevokedAdmin id s) (hne : id ≠ row.id) : RevokedAdmin id (s.putKey row) := by
  obtain ⟨old, hold, hs, ho⟩ := h
  refine ⟨old, ?_, hs, ho⟩
  rw [getKey_putKey, if_neg hne]
  exact hold

/-- A rewrite that keeps the status and the origin of what it finds. -/
theorem RevokedAdmin.putKey_update {id id' : String} {s : MemoryMetadataStore}
    {old row : GatewayKeyRow} (h : RevokedAdmin id s) (hold : s.getKey id' = some old)
    (hid : row.id = old.id) (hstatus : old.status = .revoked → row.status = .revoked)
    (horigin : row.origin = old.origin) : RevokedAdmin id (s.putKey row) := by
  by_cases heq : id = row.id
  · obtain ⟨cur, hcur, hs, ho⟩ := h
    have hsame : id' = id := by rw [heq, hid, getKey_id hold]
    rw [hsame, hcur] at hold
    cases hold
    refine ⟨row, ?_, hstatus hs, horigin.trans ho⟩
    rw [getKey_putKey, if_pos heq]
  · exact h.putKey_of_ne heq

theorem keyStep_keeps_revoked {id : String} {s t : MemoryMetadataStore} {call : KeyCall}
    (h : RevokedAdmin id s) (hstep : keyStep s call = some t) : RevokedAdmin id t := by
  cases call with
  | createKey k now =>
    simp only [keyStep] at hstep
    split at hstep
    · cases hstep
    · rename_i hfresh
      cases hstep
      refine h.putKey_of_ne fun heq => hfresh ?_
      obtain ⟨row, hrow, -⟩ := h
      have hrow' : s.getKey k.id = some row := by
        rw [← hrow]
        exact congrArg s.getKey heq.symm
      rw [hrow']
      rfl
  | revokeKey id' now =>
    cases hstep
    unfold MemoryMetadataStore.revokeKey
    split
    · rename_i k hk
      exact h.putKey_update hk rfl (fun _ => rfl) rfl
    · exact h
  | upsertSeededKey k now =>
    cases hstep
    unfold MemoryMetadataStore.upsertSeededKey
    split
    · exact h
    · rename_i howned
      refine h.putKey_of_ne fun heq => howned ?_
      obtain ⟨row, hrow, -, ho⟩ := h
      have hrow' : s.getKey k.id = some row := by
        rw [← hrow]
        exact congrArg s.getKey heq.symm
      simp [adminOwned, hrow', ho]
  | pruneSeededKeysNotIn projectId keepIds =>
    cases hstep
    obtain ⟨row, hrow, hs, ho⟩ := h
    refine ⟨row, ?_, hs, ho⟩
    refine getKey_prune.mpr ⟨hrow, ?_⟩
    simp [pruned, ho]
  | touchKeyLastUsed id' ts =>
    cases hstep
    unfold MemoryMetadataStore.touchKeyLastUsed
    split
    · rename_i k hk
      exact h.putKey_update hk rfl (fun hs => hs) rfl
    · exact h

theorem run_keeps_revoked {id : String} {s t : MemoryMetadataStore} (h : RevokedAdmin id s)
    (hr : Reaches keyStep Always s t) : RevokedAdmin id t :=
  hr.invariant h fun _ _ _ hinv _ hstep => keyStep_keeps_revoked hinv hstep

/-- A revoked admin key stays a revoked admin key whatever is called later, and at
any time a request passes only under an active, unexpired row with its hash. -/
theorem admin_revocation_permanent (deriveHash : String → Bytes) {s t : MemoryMetadataStore}
    (hr : Reaches keyStep Always s t) :
    (∀ id, RevokedAdmin id s → RevokedAdmin id t) ∧
      ∀ order, HashMap.Iterates t.keys order → ∀ now headers p,
        gatewayKeyPrincipal deriveHash order now headers = .ok p →
          ∃ row, Authenticates deriveHash t now headers p row := by
  refine ⟨?_, ?_⟩
  · intro id hrevoked
    exact run_keeps_revoked hrevoked hr
  · intro order horder now headers p hp
    exact gatewayKeyPrincipal_authenticates horder hp

def sampleKey (id : String) : NewGatewayKey :=
  { id := id
    projectId := "default"
    name := id
    keyPrefix := prefixTest
    hash := asBytes (prefixTest ++ id)
    last4 := last4 (prefixTest ++ id)
    scopes := []
    expiresAt := none
    origin := .admin }

/-- Two admin keys, the first of them revoked. -/
def sampleStore : MemoryMetadataStore :=
  (((empty.createKey (sampleKey "a") 0).2.createKey (sampleKey "b") 1).2.revokeKey "a" 2).2

def sampleRevokedRow : GatewayKeyRow :=
  { newRow (sampleKey "a") 0 with status := .revoked, revokedAt := some 2 }

theorem admin_revocation_permanent_sample :
    RevokedAdmin "a" (sampleStore.pruneSeededKeysNotIn "default" []) ∧
      ∃ row, Authenticates asBytes (sampleStore.pruneSeededKeysNotIn "default" []) 5
        [("authorization", asBytes "Bearer sk-gw-test-b")] ⟨"b", "default"⟩ row := by
  have hrun : Reaches keyStep Always sampleStore (sampleStore.pruneSeededKeysNotIn "default" []) :=
    .next (.pruneSeededKeysNotIn "default" []) .start trivial rfl
  obtain ⟨hkeeps, hauth⟩ := admin_revocation_permanent asBytes hrun
  refine ⟨hkeeps "a" ⟨sampleRevokedRow, by decide +kernel, rfl, rfl⟩, ?_⟩
  refine hauth [("a", sampleRevokedRow), ("b", newRow (sampleKey "b") 1)] ?_ 5 _ _ ?_
  · unfold HashMap.Iterates
    decide +kernel
  · decide +kernel

end AiGateway.Api
