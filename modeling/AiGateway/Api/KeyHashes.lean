import AiGateway.Api.SeedKeys

/-!
# One key for one hash

`find_key_by_hash` takes the first row of an unordered map, so a token names one
key only while no two rows share a hash. Neither validation nor the store checks
that. A new admin key has a random secret; a seeded key has whatever the
configuration says. The history beside the store is the list of secrets used so far.
-/

namespace AiGateway.Api
open AiGateway.Core AiGateway.Storage AiGateway.Library AiGateway.Library.Runs
open MemoryMetadataStore

namespace SeedKeys

structure KeyHistory where
  store : MemoryMetadataStore
  secrets : List String

def KeyHistory.start : KeyHistory := ⟨.empty, []⟩

/-- The secrets that an operation brings in. -/
def KeyOp.secrets : KeyOp → List String
  | .create req _ secret _ =>
    ((KeyEnv.parse req.env).map fun env => generatedPlaintext env secret).toList
  | .seed config env _ _ =>
    config.gatewayKeys.filterMap fun k => (k.resolveSecret env).toOption
  | _ => []

def historyStep (deriveHash : String → Bytes) (defaultProjectId : String) (h : KeyHistory)
    (op : KeyOp) : Option KeyHistory :=
  (keyOp deriveHash defaultProjectId h.store op).map fun s => ⟨s, op.secrets ++ h.secrets⟩

/-- A created key has a new id and a secret that was not used before; seeding is
called with a validated configuration. -/
def FreshKeys (defaultProjectId : String) (h : KeyHistory) (op : KeyOp) : Prop :=
  Seedable defaultProjectId h.store op ∧
    match op with
    | .create _ id _ _ => h.store.getKey id = none ∧ ∀ secret ∈ op.secrets, secret ∉ h.secrets
    | _ => True

/-- A row that a call of `apply` neither writes nor prunes. -/
def LeftInPlace (defaultProjectId : String) (env : String → Option String)
    (keys : List GatewayKeyConfig) (s : MemoryMetadataStore) (row : GatewayKeyRow) : Prop :=
  s.getKey row.id = some row ∧ row.id ∉ (writes env s keys).map ToUpsert.id ∧
    ((writes env s keys).map ToUpsert.key = keys → row.origin = .config →
      ¬ Named defaultProjectId keys row.projectId)

/-- The secrets a call of `apply` writes differ from each other and from those of the
rows it leaves in place. -/
def DistinctSecrets (deriveHash : String → Bytes) (defaultProjectId : String) (h : KeyHistory)
    (op : KeyOp) : Prop :=
  FreshKeys defaultProjectId h op ∧
    match op with
    | .seed config env _ _ =>
      ∀ e ∈ writes env h.store config.gatewayKeys,
        (∀ e' ∈ writes env h.store config.gatewayKeys, e.plaintext = e'.plaintext →
          e.id = e'.id) ∧
        ∀ row, LeftInPlace defaultProjectId env config.gatewayKeys h.store row →
          row.hash ≠ deriveHash e.plaintext
    | _ => True

def UniqueHashes (s : MemoryMetadataStore) : Prop :=
  ∀ id id' row row', s.getKey id = some row → s.getKey id' = some row' → row.hash = row'.hash →
    id = id'

/-- What a history keeps: hashes are unique and come from secrets in use. -/
structure HashInv (deriveHash : String → Bytes) (h : KeyHistory) : Prop where
  unique : UniqueHashes h.store
  known : ∀ id row, h.store.getKey id = some row → ∃ secret ∈ h.secrets, row.hash = deriveHash secret

/-! ### The iteration order -/

theorem findKeyByHash_eq {s : MemoryMetadataStore} (hunique : UniqueHashes s)
    {order order' : List (String × GatewayKeyRow)} (horder : HashMap.Iterates s.keys order)
    (horder' : HashMap.Iterates s.keys order') {hash : Bytes} {row : GatewayKeyRow}
    (hfound : findKeyByHash order hash = some row) : findKeyByHash order' hash = some row := by
  obtain ⟨hstored, hhash⟩ := findKeyByHash_stored horder hfound
  cases hother : findKeyByHash order' hash with
  | none =>
    unfold findKeyByHash at hother
    rw [List.find?_eq_none] at hother
    have hmem : row ∈ order'.map Prod.snd :=
      List.mem_map.mpr ⟨(row.id, row), horder'.mem.mpr hstored, rfl⟩
    exact absurd (decide_eq_true hhash) (hother row hmem)
  | some row' =>
    obtain ⟨hstored', hhash'⟩ := findKeyByHash_stored horder' hother
    have hid : row.id = row'.id :=
      hunique _ _ _ _ hstored hstored' (hhash.trans hhash'.symm)
    rw [hid, hstored'] at hstored
    exact hstored

theorem findKeyByHash_order {s : MemoryMetadataStore} (hunique : UniqueHashes s)
    {order order' : List (String × GatewayKeyRow)} (horder : HashMap.Iterates s.keys order)
    (horder' : HashMap.Iterates s.keys order') (hash : Bytes) :
    findKeyByHash order hash = findKeyByHash order' hash := by
  cases hfound : findKeyByHash order hash with
  | some row => exact (findKeyByHash_eq hunique horder horder' hfound).symm
  | none =>
    cases hother : findKeyByHash order' hash with
    | none => rfl
    | some row =>
      rw [findKeyByHash_eq hunique horder' horder hother] at hfound
      cases hfound

theorem gatewayKeyPrincipal_order {s : MemoryMetadataStore} (hunique : UniqueHashes s)
    {order order' : List (String × GatewayKeyRow)} (horder : HashMap.Iterates s.keys order)
    (horder' : HashMap.Iterates s.keys order') (deriveHash : String → Bytes) (now : Int)
    (headers : HeaderMap) :
    gatewayKeyPrincipal deriveHash order now headers =
      gatewayKeyPrincipal deriveHash order' now headers := by
  unfold gatewayKeyPrincipal
  simp only [findKeyByHash_order hunique horder horder']

/-! ### One step -/

section
variable {deriveHash : String → Bytes} {defaultProjectId : String}

/-- A rewrite of a row that keeps its id and its hash. -/
theorem HashInv.putKey_update {h : KeyHistory} (hinv : HashInv deriveHash h) {id : String}
    {old row : GatewayKeyRow} (hold : h.store.getKey id = some old) (hid : row.id = old.id)
    (hhash : row.hash = old.hash) : HashInv deriveHash ⟨h.store.putKey row, h.secrets⟩ := by
  have hsame : row.id = id := hid.trans (getKey_id hold)
  -- every row of the new store has the hash of the old row under its id
  have hback : ∀ id' row', (h.store.putKey row).getKey id' = some row' →
      ∃ old', h.store.getKey id' = some old' ∧ row'.hash = old'.hash := by
    intro id' row' hrow'
    rw [getKey_putKey] at hrow'
    split at hrow'
    · rename_i heq
      cases hrow'
      exact ⟨old, by rw [heq, hsame, hold], hhash⟩
    · exact ⟨row', hrow', rfl⟩
  refine ⟨?_, ?_⟩
  · intro id₁ id₂ row₁ row₂ h₁ h₂ heq
    obtain ⟨old₁, hold₁, hh₁⟩ := hback id₁ row₁ h₁
    obtain ⟨old₂, hold₂, hh₂⟩ := hback id₂ row₂ h₂
    exact hinv.unique id₁ id₂ old₁ old₂ hold₁ hold₂ (hh₁.symm.trans (heq.trans hh₂))
  · intro id' row' hrow'
    obtain ⟨old', hold', hh'⟩ := hback id' row' hrow'
    obtain ⟨secret, hmem, hsecret⟩ := hinv.known id' old' hold'
    exact ⟨secret, hmem, hh'.trans hsecret⟩

theorem HashInv.revoke {h : KeyHistory} (hinv : HashInv deriveHash h) (id : String) (now : Int) :
    HashInv deriveHash ⟨(AdminKeys.revokeKey id now h.store).2, h.secrets⟩ := by
  unfold AdminKeys.revokeKey MemoryMetadataStore.revokeKey
  cases hk : h.store.getKey id with
  | none => exact hinv
  | some k =>
    by_cases horigin : k.origin = .config
    · simp only [Option.any_some, horigin, decide_true, if_true]
      exact hinv
    · simp only [Option.any_some, horigin, decide_false, Bool.false_eq_true, if_false]
      exact hinv.putKey_update hk rfl rfl

theorem HashInv.touch {h : KeyHistory} (hinv : HashInv deriveHash h) (id : String) (ts : Int) :
    HashInv deriveHash ⟨h.store.touchKeyLastUsed id ts, h.secrets⟩ := by
  unfold MemoryMetadataStore.touchKeyLastUsed
  split
  · rename_i k hk
    exact hinv.putKey_update hk rfl rfl
  · exact hinv

/-- A new row whose secret was never used. -/
theorem HashInv.putKey_fresh (hinj : Function.Injective deriveHash) {h : KeyHistory}
    (hinv : HashInv deriveHash h) {row : GatewayKeyRow} {secret : String}
    (hhash : row.hash = deriveHash secret) (hfresh : secret ∉ h.secrets) :
    HashInv deriveHash ⟨h.store.putKey row, secret :: h.secrets⟩ := by
  have hother : ∀ id' row', h.store.getKey id' = some row' → row'.hash ≠ row.hash := by
    intro id' row' hrow' heq
    obtain ⟨used, hused, hh⟩ := hinv.known id' row' hrow'
    have hsame : used = secret := hinj (hh.symm.trans (heq.trans hhash))
    exact hfresh (hsame ▸ hused)
  refine ⟨?_, ?_⟩
  · intro id₁ id₂ row₁ row₂ h₁ h₂ heq
    change (h.store.putKey row).getKey id₁ = some row₁ at h₁
    change (h.store.putKey row).getKey id₂ = some row₂ at h₂
    rw [getKey_putKey] at h₁ h₂
    split at h₁
    · rename_i heq₁
      cases h₁
      split at h₂
      · rename_i heq₂
        rw [heq₁, heq₂]
      · exact absurd heq.symm (hother id₂ row₂ h₂)
    · split at h₂
      · cases h₂
        exact absurd heq (hother id₁ row₁ h₁)
      · exact hinv.unique id₁ id₂ row₁ row₂ h₁ h₂ heq
  · intro id' row' hrow'
    change (h.store.putKey row).getKey id' = some row' at hrow'
    rw [getKey_putKey] at hrow'
    split at hrow'
    · cases hrow'
      exact ⟨secret, List.mem_cons_self, hhash⟩
    · obtain ⟨used, hused, hh⟩ := hinv.known id' row' hrow'
      exact ⟨used, List.mem_cons_of_mem _ hused, hh⟩

theorem HashInv.create (hinj : Function.Injective deriveHash) {h : KeyHistory}
    (hinv : HashInv deriveHash h) {req : CreateKeyRequest} {id secret : String} {now : Int}
    (hfresh : ∀ used ∈ (KeyOp.create req id secret now).secrets, used ∉ h.secrets) :
    HashInv deriveHash
      ⟨(AdminKeys.createKey deriveHash defaultProjectId req id secret now h.store).2,
        (KeyOp.create req id secret now).secrets ++ h.secrets⟩ := by
  cases henv : KeyEnv.parse req.env with
  | none =>
    simp only [KeyOp.secrets, AdminKeys.createKey, henv, Option.map_none, Option.toList_none,
      List.nil_append]
    exact hinv
  | some env =>
    simp only [KeyOp.secrets, henv, Option.map_some, Option.toList_some, List.mem_singleton,
      forall_eq] at hfresh
    simp only [KeyOp.secrets, AdminKeys.createKey, henv, Option.map_some, Option.toList_some,
      List.singleton_append]
    exact hinv.putKey_fresh hinj rfl hfresh

end

/-! ### Seeding -/

section
variable {deriveHash : String → Bytes} {defaultProjectId : String} {env : String → Option String}
  {now : ℕ → Int} {order : List (String × List String)} {keys : List GatewayKeyConfig}
  {s s' : MemoryMetadataStore}

/-- A call that writes every declared key succeeds. -/
theorem apply_ok_of_writes {result : Except String Unit}
    (hnodup : (keys.map GatewayKeyConfig.id).Nodup)
    (h : apply deriveHash defaultProjectId env now order keys s = (result, s'))
    (hall : (writes env s keys).map ToUpsert.key = keys) : result = .ok () := by
  unfold apply at h
  unfold writes at hall
  split at h
  · rename_i e hresolved
    simp only [hresolved, List.map_nil] at hall
    rw [← hall] at hresolved
    cases hresolved
  · rename_i toUpsert hresolved
    simp only [hresolved] at hall
    obtain ⟨hok, -, -⟩ := upsertAll_spec deriveHash defaultProjectId now s toUpsert
      ((toUpsert_ids hresolved).symm ▸ hnodup)
    have hlength : (written s toUpsert).length = toUpsert.length := by
      rw [← List.length_map ToUpsert.key, hall, ← (resolveKeys_ok hresolved).1, List.length_map]
    have hupserts := hok.mpr ((List.takeWhile_sublist _).eq_of_length hlength)
    split at h
    · rename_i e s₁ herr
      rw [herr] at hupserts
      cases hupserts
    · cases h
      rfl

theorem writes_secret {e : ToUpsert} (he : e ∈ writes env s keys) :
    e.plaintext ∈ keys.filterMap fun k => (k.resolveSecret env).toOption := by
  unfold writes at he
  split at he
  · cases he
  · rename_i toUpsert hresolved
    obtain ⟨hkeys, hsecrets⟩ := resolveKeys_ok hresolved
    have hmem : e ∈ toUpsert := (List.takeWhile_sublist _).subset he
    refine List.mem_filterMap.mpr ⟨e.key, ?_, ?_⟩
    · rw [← hkeys]
      exact List.mem_map_of_mem hmem
    · rw [hsecrets e hmem]
      rfl

/-- A row after the call was written by it or left in place. -/
theorem apply_row {result : Except String Unit} (hnodup : (keys.map GatewayKeyConfig.id).Nodup)
    (horder : HashMap.Iterates (byProject defaultProjectId keys) order)
    (h : apply deriveHash defaultProjectId env now order keys s = (result, s')) {id : String}
    {row : GatewayKeyRow} (hrow : s'.getKey id = some row) :
    (∃ e ∈ writes env s keys, e.id = id ∧ row.hash = deriveHash e.plaintext) ∨
      LeftInPlace defaultProjectId env keys s row := by
  obtain ⟨hrows, hframe⟩ := apply_frame hnodup horder h
  by_cases hid : id ∈ (writes env s keys).map ToUpsert.id
  · obtain ⟨e, he, heid⟩ := List.mem_map.mp hid
    obtain ⟨row', hrow', hseeds⟩ := hrows e he
    rw [heid, hrow] at hrow'
    cases hrow'
    exact Or.inl ⟨e, he, heid, hseeds.hash⟩
  · obtain ⟨hold, hkept⟩ := hframe id row hid hrow
    have hrid := getKey_id hold
    refine Or.inr ⟨hrid ▸ hold, hrid ▸ hid, ?_⟩
    intro hall
    exact hkept (apply_ok_of_writes hnodup h hall)

end

theorem HashInv.seed {deriveHash : String → Bytes} {defaultProjectId : String}
    (hinj : Function.Injective deriveHash) {h : KeyHistory} (hinv : HashInv deriveHash h)
    {config : AppConfig} {env : String → Option String} {now : ℕ → Int}
    {order : List (String × List String)}
    (hdistinct : DistinctSecrets deriveHash defaultProjectId h (.seed config env now order)) :
    HashInv deriveHash
      ⟨(apply deriveHash defaultProjectId env now order config.gatewayKeys h.store).2,
        (KeyOp.seed config env now order).secrets ++ h.secrets⟩ := by
  obtain ⟨⟨⟨hvalid, horder⟩, -⟩, hsecrets⟩ := hdistinct
  generalize hcall :
    apply deriveHash defaultProjectId env now order config.gatewayKeys h.store = call
  obtain ⟨result, s'⟩ := call
  have hcases : ∀ id row, s'.getKey id = some row → _ :=
    fun id row hrow => apply_row hvalid.ids_nodup horder hcall hrow
  refine ⟨?_, ?_⟩
  · intro id₁ id₂ row₁ row₂ h₁ h₂ heq
    rcases hcases id₁ row₁ h₁ with ⟨e₁, he₁, hid₁, hh₁⟩ | hleft₁
    · rcases hcases id₂ row₂ h₂ with ⟨e₂, he₂, hid₂, hh₂⟩ | hleft₂
      · have hplain : e₁.plaintext = e₂.plaintext := hinj (hh₁.symm.trans (heq.trans hh₂))
        rw [← hid₁, ← hid₂]
        exact (hsecrets e₁ he₁).1 e₂ he₂ hplain
      · exact absurd (heq.symm.trans hh₁) ((hsecrets e₁ he₁).2 row₂ hleft₂)
    · rcases hcases id₂ row₂ h₂ with ⟨e₂, he₂, hid₂, hh₂⟩ | hleft₂
      · exact absurd (heq.trans hh₂) ((hsecrets e₂ he₂).2 row₁ hleft₁)
      · have hids := hinv.unique _ _ _ _ hleft₁.1 hleft₂.1 heq
        rw [← getKey_id h₁, ← getKey_id h₂]
        exact hids
  · intro id row hrow
    rcases hcases id row hrow with ⟨e, he, -, hh⟩ | hleft
    · exact ⟨e.plaintext, List.mem_append_left _ (writes_secret he), hh⟩
    · obtain ⟨secret, hmem, hh⟩ := hinv.known _ _ hleft.1
      exact ⟨secret, List.mem_append_right _ hmem, hh⟩

theorem historyStep_inv {deriveHash : String → Bytes} {defaultProjectId : String}
    (hinj : Function.Injective deriveHash) {h t : KeyHistory} {op : KeyOp}
    (hinv : HashInv deriveHash h) (hguard : DistinctSecrets deriveHash defaultProjectId h op)
    (hstep : historyStep deriveHash defaultProjectId h op = some t) : HashInv deriveHash t := by
  cases op with
  | create req id secret now =>
    cases hstep
    exact hinv.create hinj hguard.1.2.2
  | revoke id now =>
    cases hstep
    exact hinv.revoke id now
  | touch id ts =>
    cases hstep
    exact hinv.touch id ts
  | seed config env now order =>
    cases hstep
    exact hinv.seed hinj hguard

theorem HashInv.start (deriveHash : String → Bytes) : HashInv deriveHash KeyHistory.start := by
  refine ⟨?_, ?_⟩
  · intro id id' row row' hrow
    cases hrow
  · intro id row hrow
    cases hrow

/-- While the configurations bring in no secret twice, a hash names one row, and what a
token authenticates as does not depend on the order of the map. -/
theorem hash_names_one_key {deriveHash : String → Bytes} (hinj : Function.Injective deriveHash)
    (defaultProjectId : String) {h : KeyHistory}
    (hr : Reaches (historyStep deriveHash defaultProjectId)
      (DistinctSecrets deriveHash defaultProjectId) .start h) :
    UniqueHashes h.store ∧ ∀ order order', HashMap.Iterates h.store.keys order →
      HashMap.Iterates h.store.keys order' →
        (∀ hash, findKeyByHash order hash = findKeyByHash order' hash) ∧
        ∀ now headers, gatewayKeyPrincipal deriveHash order now headers =
          gatewayKeyPrincipal deriveHash order' now headers := by
  have hinv : HashInv deriveHash h := hr.invariant (HashInv.start deriveHash)
    fun _ _ _ hinv hguard hstep => historyStep_inv hinj hinv hguard hstep
  refine ⟨hinv.unique, ?_⟩
  intro order order' horder horder'
  refine ⟨findKeyByHash_order hinv.unique horder horder', ?_⟩
  intro now headers
  exact gatewayKeyPrincipal_order hinv.unique horder horder' deriveHash now headers

/-- An admin key, created before the first configuration is seeded. -/
def sampleCreated : MemoryMetadataStore :=
  (AdminKeys.createKey asBytes "default" { name := "ops" } "ops" "0" 0 .empty).2

def sampleCreatedRow : GatewayKeyRow :=
  newRow
    { id := "ops"
      projectId := "default"
      name := "ops"
      keyPrefix := prefixLive
      hash := asBytes "sk-gw-live-0"
      last4 := "ve-0"
      scopes := []
      expiresAt := none
      origin := .admin } 0

theorem sampleCreated_iterates :
    HashMap.Iterates sampleCreated.keys [("ops", sampleCreatedRow)] := by
  unfold HashMap.Iterates
  decide +kernel

theorem hash_names_one_key_sample :
    UniqueHashes (apply asBytes "default" (fun _ => none) (fun _ => 1) [("team", ["a"])]
      [sampleDeclared "a" "team"] sampleCreated).2 := by
  have hcreate : Reaches (historyStep asBytes "default") (DistinctSecrets asBytes "default")
      .start ⟨sampleCreated, ["sk-gw-live-0"]⟩ := by
    refine .next (.create { name := "ops" } "ops" "0" 0) .start ⟨⟨trivial, rfl, ?_⟩, trivial⟩ ?_
    · intro secret _ hmem
      cases hmem
    · rfl
  have hwrites : writes (fun _ => none) sampleCreated [sampleDeclared "a" "team"] =
      [⟨sampleDeclared "a" "team", "sk-gw-live-a", prefixLive⟩] := by decide +kernel
  have hseed := hcreate.next (.seed (sampleConfig [sampleDeclared "a" "team"]) (fun _ => none)
    (fun _ => 1) [("team", ["a"])]) ?_ rfl
  · exact (hash_names_one_key asBytes_injective "default" hseed).1
  · refine ⟨⟨⟨sampleConfig_validated (by decide +kernel), ?_⟩, trivial⟩, ?_⟩
    · unfold HashMap.Iterates
      decide +kernel
    · change ∀ e ∈ writes (fun _ => none) sampleCreated [sampleDeclared "a" "team"], _
      intro e he
      change (∀ e' ∈ writes (fun _ => none) sampleCreated [sampleDeclared "a" "team"], _) ∧ _
      rw [hwrites] at he ⊢
      cases List.mem_singleton.mp he
      refine ⟨?_, ?_⟩
      · intro e' he' _
        cases List.mem_singleton.mp he'
        rfl
      · intro row hleft
        have hrow := List.mem_singleton.mp (sampleCreated_iterates.mem.mpr hleft.1)
        rw [(Prod.mk.inj hrow).2]
        decide +kernel

/-- Two declared keys with one secret: the map's order decides whose request it is. -/
theorem shared_secret_depends_on_order :
    ∃ h order order', Function.Injective asBytes ∧
      Reaches (historyStep asBytes "default") (FreshKeys "default") .start h ∧
      HashMap.Iterates h.store.keys order ∧ HashMap.Iterates h.store.keys order' ∧
      ¬ UniqueHashes h.store ∧
      gatewayKeyPrincipal asBytes order 5 [("authorization", asBytes "Bearer sk-gw-live-a")] =
        .ok ⟨"a", "team"⟩ ∧
      gatewayKeyPrincipal asBytes order' 5 [("authorization", asBytes "Bearer sk-gw-live-a")] =
        .ok ⟨"b", "team"⟩ := by
  let shared := { sampleDeclared "b" "team" with secret := "sk-gw-live-a" }
  let rowB := empty.seededRow (seededKey asBytes "default" ⟨shared, "sk-gw-live-a", prefixLive⟩) 0
  let op : KeyOp := .seed (sampleConfig [sampleDeclared "a" "team", shared]) (fun _ => none)
    (fun _ => 0) [("team", ["a", "b"])]
  let store := (apply asBytes "default" (fun _ => none) (fun _ => 0) [("team", ["a", "b"])]
    [sampleDeclared "a" "team", shared] .empty).2
  refine ⟨⟨store, op.secrets ++ []⟩, [("a", sampleRow), ("b", rowB)],
    [("b", rowB), ("a", sampleRow)], asBytes_injective, ?_, ?_, ?_, ?_, ?_, ?_⟩
  · refine .next op .start ⟨⟨sampleConfig_validated (by decide +kernel), ?_⟩, trivial⟩ rfl
    unfold HashMap.Iterates
    decide +kernel
  · unfold HashMap.Iterates
    decide +kernel
  · unfold HashMap.Iterates
    decide +kernel
  · intro hunique
    have hids := hunique "a" "b" sampleRow rowB (by decide +kernel) (by decide +kernel) rfl
    exact absurd hids (by decide)
  · decide +kernel
  · decide +kernel

end SeedKeys

end AiGateway.Api
