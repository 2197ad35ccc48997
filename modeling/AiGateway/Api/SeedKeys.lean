import AiGateway.Api.Config
import AiGateway.Api.KeyAuth

/-!
# Seeding gateway keys from the configuration (`gateway-api/src/seed_keys.rs:9-103`)

`apply` resolves every declared secret, writes the declared keys in list order and
prunes project by project. Only the projects of the declared keys and the default
project are pruned. An error leaves what was written before it. The hash map
`by_project` is walked in the order `order`; `now n` is the clock when `n` keys are
left to write after the current one.
-/

namespace AiGateway.Api
open AiGateway.Core AiGateway.Storage AiGateway.Library AiGateway.Library.Runs
open MemoryMetadataStore

namespace SeedKeys

/-- A declared key with its plaintext and the prefix of the plaintext. -/
structure ToUpsert where
  key : GatewayKeyConfig
  plaintext : String
  keyPrefix : String
  deriving DecidableEq

def ToUpsert.id (e : ToUpsert) : String := e.key.id

def resolveKeys (env : String → Option String) :
    List GatewayKeyConfig → Except String (List ToUpsert)
  | [] => .ok []
  | k :: keys =>
    match k.resolveSecret env with
    | .error e => .error ("gateway_keys[id=" ++ k.id ++ "].secret could not be resolved: " ++ e)
    | .ok plaintext =>
      match parseGatewayKey plaintext with
      | none => .error ("gateway_keys[id=" ++ k.id ++
          "].secret must start with 'sk-gw-live-' or 'sk-gw-test-'")
      | some keyPrefix =>
        match resolveKeys env keys with
        | .error e => .error e
        | .ok rest => .ok (⟨k, plaintext, keyPrefix⟩ :: rest)

/-- `by_project`: the declared ids of each project that has one. -/
def byProject (defaultProjectId : String) (keys : List GatewayKeyConfig) :
    HashMap String (List String) :=
  keys.foldl (fun m k =>
    let projectId := k.project defaultProjectId
    m.insert projectId ((m.lookup projectId).getD [] ++ [k.id])) ∅

def seededKey (deriveHash : String → Bytes) (defaultProjectId : String) (e : ToUpsert) :
    NewGatewayKey :=
  { id := e.key.id
    projectId := e.key.project defaultProjectId
    name := e.key.name
    keyPrefix := e.keyPrefix
    hash := deriveHash e.plaintext
    last4 := last4 e.plaintext
    scopes := e.key.scopes
    expiresAt := none
    origin := .config }

def upsertAll (deriveHash : String → Bytes) (defaultProjectId : String) (now : ℕ → Int) :
    List ToUpsert → MemoryMetadataStore → Except String Unit × MemoryMetadataStore
  | [], s => (.ok (), s)
  | e :: rest, s =>
    match s.upsertSeededKey (seededKey deriveHash defaultProjectId e) (now rest.length) with
    | (.ok _, s') => upsertAll deriveHash defaultProjectId now rest s'
    | (.error err, s') =>
      (.error ("upsert gateway_keys[id=" ++ e.key.id ++ "] failed: " ++ err.text), s')

def pruneAll (order : List (String × List String)) (s : MemoryMetadataStore) :
    MemoryMetadataStore :=
  order.foldl (fun s e => s.pruneSeededKeysNotIn e.1 e.2) s

/-- Some declared key is in the default project. -/
def usesDefault (defaultProjectId : String) (keys : List GatewayKeyConfig) : Bool :=
  keys.any fun k => k.project defaultProjectId = defaultProjectId

/-- The prunes of `apply`; `prune_seeded_keys_not_in` never fails on this store. -/
def prune (defaultProjectId : String) (order : List (String × List String))
    (keys : List GatewayKeyConfig) (s : MemoryMetadataStore) : MemoryMetadataStore :=
  if usesDefault defaultProjectId keys then pruneAll order s
  else (pruneAll order s).pruneSeededKeysNotIn defaultProjectId []

def apply (deriveHash : String → Bytes) (defaultProjectId : String) (env : String → Option String)
    (now : ℕ → Int) (order : List (String × List String)) (keys : List GatewayKeyConfig)
    (s : MemoryMetadataStore) : Except String Unit × MemoryMetadataStore :=
  match resolveKeys env keys with
  | .error e => (.error e, s)
  | .ok toUpsert =>
    match upsertAll deriveHash defaultProjectId now toUpsert s with
    | (.error e, s') => (.error e, s')
    | (.ok (), s') => (.ok (), prune defaultProjectId order keys s')

/-! ### First pass -/

theorem resolveKeys_ok {env : String → Option String} {keys : List GatewayKeyConfig}
    {toUpsert : List ToUpsert} (h : resolveKeys env keys = .ok toUpsert) :
    toUpsert.map ToUpsert.key = keys ∧
      ∀ e ∈ toUpsert, e.key.resolveSecret env = .ok e.plaintext := by
  induction keys generalizing toUpsert with
  | nil =>
    cases h
    exact ⟨rfl, fun e he => absurd he List.not_mem_nil⟩
  | cons k keys ih =>
    unfold resolveKeys at h
    split at h
    · cases h
    · rename_i plaintext hsecret
      split at h
      · cases h
      · split at h
        · cases h
        · rename_i rest hrest
          cases h
          obtain ⟨hkeys, hsecrets⟩ := ih hrest
          refine ⟨?_, ?_⟩
          · rw [List.map_cons, hkeys]
          · intro e he
            rcases List.mem_cons.mp he with heq | htail
            · rw [heq]
              exact hsecret
            · exact hsecrets e htail

def idsOf (defaultProjectId projectId : String) (keys : List GatewayKeyConfig) : List String :=
  (keys.filter fun k => k.project defaultProjectId = projectId).map GatewayKeyConfig.id

theorem idsOf_cons (defaultProjectId projectId : String) (k : GatewayKeyConfig)
    (keys : List GatewayKeyConfig) :
    idsOf defaultProjectId projectId (k :: keys) =
      if k.project defaultProjectId = projectId then k.id :: idsOf defaultProjectId projectId keys
      else idsOf defaultProjectId projectId keys := by
  unfold idsOf
  rw [List.filter_cons]
  by_cases hk : k.project defaultProjectId = projectId
  · rw [if_pos (decide_eq_true hk), if_pos hk, List.map_cons]
  · rw [if_neg (by simpa using hk), if_neg hk]

theorem byProject_foldl (defaultProjectId projectId : String) (keys : List GatewayKeyConfig)
    (m : HashMap String (List String)) :
    (keys.foldl (fun m k =>
      let projectId := k.project defaultProjectId
      m.insert projectId ((m.lookup projectId).getD [] ++ [k.id])) m).lookup projectId =
      if idsOf defaultProjectId projectId keys = [] then m.lookup projectId
      else some ((m.lookup projectId).getD [] ++ idsOf defaultProjectId projectId keys) := by
  induction keys generalizing m with
  | nil => rfl
  | cons k keys ih =>
    rw [List.foldl_cons, ih, idsOf_cons]
    simp only [HashMap.lookup_insert_cases]
    by_cases hk : k.project defaultProjectId = projectId
    · rw [if_pos hk.symm, if_pos hk, if_neg (List.cons_ne_nil _ _)]
      rw [← hk, Option.getD_some, List.append_assoc, List.singleton_append]
      split
      · rename_i hnil
        rw [hnil]
      · rfl
    · rw [if_neg (Ne.symm hk), if_neg hk]

theorem byProject_lookup (defaultProjectId projectId : String) (keys : List GatewayKeyConfig) :
    (byProject defaultProjectId keys).lookup projectId =
      if idsOf defaultProjectId projectId keys = [] then none
      else some (idsOf defaultProjectId projectId keys) := by
  unfold byProject
  rw [byProject_foldl]
  rfl

/-! ### Second pass -/

/-- The row that a declared key gets. -/
structure Seeds (deriveHash : String → Bytes) (defaultProjectId : String) (e : ToUpsert)
    (row : GatewayKeyRow) : Prop where
  project : row.projectId = e.key.project defaultProjectId
  name : row.name = e.key.name
  scopes : row.scopes = e.key.scopes
  hash : row.hash = deriveHash e.plaintext
  status : row.status = .active
  origin : row.origin = .config

/-- The declared keys before the first one whose id an admin key has. -/
def written (s : MemoryMetadataStore) (toUpsert : List ToUpsert) : List ToUpsert :=
  toUpsert.takeWhile fun e => !s.adminOwned e.id

theorem adminOwned_putKey_of_ne {s : MemoryMetadataStore} {row : GatewayKeyRow} {id : String}
    (hne : id ≠ row.id) : (s.putKey row).adminOwned id = s.adminOwned id := by
  unfold adminOwned
  rw [getKey_putKey, if_neg hne]

theorem written_putKey {s : MemoryMetadataStore} {row : GatewayKeyRow} {toUpsert : List ToUpsert}
    (hfresh : row.id ∉ toUpsert.map ToUpsert.id) :
    written (s.putKey row) toUpsert = written s toUpsert := by
  unfold written
  induction toUpsert with
  | nil => rfl
  | cons e rest ih =>
    have hne : e.id ≠ row.id := fun heq => hfresh (heq ▸ List.mem_cons_self)
    have hrest : row.id ∉ rest.map ToUpsert.id := fun hmem => hfresh (List.mem_cons_of_mem _ hmem)
    rw [List.takeWhile_cons, List.takeWhile_cons, adminOwned_putKey_of_ne hne, ih hrest]

theorem written_owned {s : MemoryMetadataStore} {e : ToUpsert} {rest : List ToUpsert}
    (howned : s.adminOwned e.id = true) : written s (e :: rest) = [] := by
  unfold written
  rw [List.takeWhile_cons, howned]
  rfl

theorem written_cons {s : MemoryMetadataStore} {e : ToUpsert} {rest : List ToUpsert}
    (howned : s.adminOwned e.id = false) : written s (e :: rest) = e :: written s rest := by
  unfold written
  rw [List.takeWhile_cons, howned]
  rfl

section
variable (deriveHash : String → Bytes) (defaultProjectId : String) (now : ℕ → Int)

theorem seededRow_seeds (s : MemoryMetadataStore) (e : ToUpsert) (at_ : Int) :
    Seeds deriveHash defaultProjectId e
      (s.seededRow (seededKey deriveHash defaultProjectId e) at_) where
  project := rfl
  name := rfl
  scopes := rfl
  hash := rfl
  status := rfl
  origin := rfl

/-- The pass stops at the id of an admin key. -/
theorem upsertAll_owned {s : MemoryMetadataStore} {e : ToUpsert}
    (howned : s.adminOwned e.id = true) (rest : List ToUpsert) :
    ∃ err, upsertAll deriveHash defaultProjectId now (e :: rest) s = (.error err, s) := by
  have howned' : s.adminOwned (seededKey deriveHash defaultProjectId e).id = true := howned
  rw [upsertAll]
  unfold MemoryMetadataStore.upsertSeededKey
  rw [if_pos howned']
  exact ⟨_, rfl⟩

/-- It writes the row of any other, and goes on. -/
theorem upsertAll_free {s : MemoryMetadataStore} {e : ToUpsert}
    (howned : s.adminOwned e.id = false) (rest : List ToUpsert) :
    upsertAll deriveHash defaultProjectId now (e :: rest) s =
      upsertAll deriveHash defaultProjectId now rest (s.putKey
        (s.seededRow (seededKey deriveHash defaultProjectId e) (now rest.length))) := by
  have howned' : ¬s.adminOwned (seededKey deriveHash defaultProjectId e).id = true := by
    intro h
    cases howned.symm.trans h
  rw [upsertAll]
  unfold MemoryMetadataStore.upsertSeededKey
  rw [if_neg howned']

/-- The second pass writes the keys of `written` and nothing else, and succeeds when
these are all. -/
theorem upsertAll_spec (s : MemoryMetadataStore) (toUpsert : List ToUpsert)
    (hnodup : (toUpsert.map ToUpsert.id).Nodup) :
    ((upsertAll deriveHash defaultProjectId now toUpsert s).1 = .ok () ↔
        written s toUpsert = toUpsert) ∧
      (∀ e ∈ written s toUpsert, ∃ row,
        (upsertAll deriveHash defaultProjectId now toUpsert s).2.getKey e.id = some row ∧
          Seeds deriveHash defaultProjectId e row) ∧
      ∀ id, id ∉ (written s toUpsert).map ToUpsert.id →
        (upsertAll deriveHash defaultProjectId now toUpsert s).2.getKey id = s.getKey id := by
  induction toUpsert generalizing s with
  | nil => exact ⟨⟨fun _ => rfl, fun _ => rfl⟩, fun e he => absurd he List.not_mem_nil, fun _ _ => rfl⟩
  | cons e rest ih =>
    rw [List.map_cons, List.nodup_cons] at hnodup
    cases howned : s.adminOwned e.id with
    | true =>
      obtain ⟨err, hstop⟩ := upsertAll_owned deriveHash defaultProjectId now howned rest
      rw [written_owned howned, hstop]
      refine ⟨⟨?_, ?_⟩, ?_, ?_⟩
      · intro h
        cases h
      · intro h
        cases h
      · intro e' he'
        cases he'
      · intro id _
        rfl
    | false =>
      rw [upsertAll_free deriveHash defaultProjectId now howned]
      generalize hrow : s.seededRow (seededKey deriveHash defaultProjectId e) (now rest.length) = row
      have hid : row.id = e.id := by
        rw [← hrow]
        rfl
      have hseeds : Seeds deriveHash defaultProjectId e row := by
        rw [← hrow]
        exact seededRow_seeds deriveHash defaultProjectId s e _
      have hfresh : row.id ∉ rest.map ToUpsert.id := hid ▸ hnodup.1
      have hcons : written s (e :: rest) = e :: written (s.putKey row) rest := by
        rw [written_putKey hfresh, written_cons howned]
      obtain ⟨hok, hrows, hframe⟩ := ih (s.putKey row) hnodup.2
      have hsub : ∀ id, id ∈ (written (s.putKey row) rest).map ToUpsert.id →
          id ∈ rest.map ToUpsert.id := by
        intro id hmem
        exact ((List.takeWhile_sublist _).map ToUpsert.id).subset hmem
      rw [hcons]
      refine ⟨?_, ?_, ?_⟩
      · refine hok.trans ⟨fun h => ?_, fun h => ?_⟩
        · rw [h]
        · exact (List.cons.inj h).2
      · intro e' he'
        rcases List.mem_cons.mp he' with heq | htail
        · refine ⟨row, ?_, heq ▸ hseeds⟩
          have hkeep := hframe e.id fun hmem => hnodup.1 (hsub _ hmem)
          rw [heq]
          refine hkeep.trans ?_
          rw [getKey_putKey, if_pos hid.symm]
        · exact hrows e' htail
      · intro id hid'
        rw [List.map_cons, List.mem_cons, not_or] at hid'
        refine (hframe id hid'.2).trans ?_
        rw [getKey_putKey, if_neg fun h => hid'.1 (h.trans hid)]

end

/-! ### Third pass -/

theorem getKey_pruneAll {order : List (String × List String)} {s : MemoryMetadataStore}
    {id : String} {row : GatewayKeyRow} :
    (pruneAll order s).getKey id = some row ↔
      s.getKey id = some row ∧ ∀ e ∈ order, pruned e.1 e.2 row = false := by
  induction order generalizing s with
  | nil =>
    refine ⟨fun h => ⟨h, fun e he => absurd he List.not_mem_nil⟩, fun h => h.1⟩
  | cons e rest ih =>
    refine ih.trans ?_
    rw [getKey_prune, and_assoc, List.forall_mem_cons]

theorem getKey_prune_iff {defaultProjectId : String} {order : List (String × List String)}
    {keys : List GatewayKeyConfig} {s : MemoryMetadataStore} {id : String} {row : GatewayKeyRow} :
    (prune defaultProjectId order keys s).getKey id = some row ↔
      s.getKey id = some row ∧ (∀ e ∈ order, pruned e.1 e.2 row = false) ∧
        (usesDefault defaultProjectId keys = false → pruned defaultProjectId [] row = false) := by
  unfold prune
  split
  · rename_i huses
    rw [getKey_pruneAll, huses]
    simp
  · rename_i huses
    rw [getKey_prune, getKey_pruneAll, Bool.eq_false_of_not_eq_true huses]
    simp [and_assoc]

/-- The projects that `apply` prunes. -/
def Named (defaultProjectId : String) (keys : List GatewayKeyConfig) (projectId : String) : Prop :=
  projectId = defaultProjectId ∨ ∃ k ∈ keys, k.project defaultProjectId = projectId

theorem mem_idsOf {defaultProjectId projectId id : String} {keys : List GatewayKeyConfig} :
    id ∈ idsOf defaultProjectId projectId keys ↔
      ∃ k ∈ keys, k.project defaultProjectId = projectId ∧ k.id = id := by
  unfold idsOf
  simp [and_assoc]

theorem idsOf_eq_nil {defaultProjectId projectId : String} {keys : List GatewayKeyConfig} :
    idsOf defaultProjectId projectId keys = [] ↔
      ¬ ∃ k ∈ keys, k.project defaultProjectId = projectId := by
  unfold idsOf
  simp

theorem usesDefault_eq_false {defaultProjectId : String} {keys : List GatewayKeyConfig} :
    usesDefault defaultProjectId keys = false ↔
      ¬ ∃ k ∈ keys, k.project defaultProjectId = defaultProjectId := by
  unfold usesDefault
  simp

/-- What the prunes keep: rows the config does not own, declared ids under their
declared project, and projects that are not pruned. -/
theorem kept_iff {defaultProjectId : String} {keys : List GatewayKeyConfig}
    {order : List (String × List String)}
    (horder : HashMap.Iterates (byProject defaultProjectId keys) order) (row : GatewayKeyRow) :
    ((∀ e ∈ order, pruned e.1 e.2 row = false) ∧
      (usesDefault defaultProjectId keys = false → pruned defaultProjectId [] row = false)) ↔
      (row.origin = .config → Named defaultProjectId keys row.projectId →
        row.id ∈ idsOf defaultProjectId row.projectId keys) := by
  have hlookup := byProject_lookup defaultProjectId row.projectId keys
  constructor
  · rintro ⟨horders, hdefault⟩ horigin hnamed
    by_cases hids : idsOf defaultProjectId row.projectId keys = []
    · -- the project has no declared key, so it is the default one and is pruned empty
      have hnone := idsOf_eq_nil.mp hids
      rcases hnamed with hproject | hex
      · have huses := usesDefault_eq_false.mpr (hproject ▸ hnone)
        have hkept := hdefault huses
        simp [pruned, hproject, horigin] at hkept
      · exact absurd hex hnone
    · rw [if_neg hids] at hlookup
      have hkept := horders _ (horder.mem.mpr hlookup)
      simpa [pruned, horigin] using hkept
  · intro hkeep
    refine ⟨?_, ?_⟩
    · rintro ⟨projectId, ids⟩ hmem
      have hentry := horder.mem.mp hmem
      by_contra hpruned
      obtain ⟨hproject, horigin, hid⟩ : row.projectId = projectId ∧ row.origin = .config ∧
          row.id ∉ ids := by simpa [pruned] using hpruned
      rw [← hproject, hlookup] at hentry
      split at hentry
      · cases hentry
      · rename_i hids
        cases hentry
        exact hid (hkeep horigin (Or.inr (not_not.mp (mt idsOf_eq_nil.mpr hids))))
    · intro huses
      by_contra hpruned
      obtain ⟨hproject, horigin⟩ : row.projectId = defaultProjectId ∧ row.origin = .config := by
        simpa [pruned] using hpruned
      obtain ⟨k, hk, hkp, -⟩ := mem_idsOf.mp (hkeep horigin (Or.inl hproject))
      exact usesDefault_eq_false.mp huses ⟨k, hk, hkp.trans hproject⟩

/-! ### The whole call -/

/-- The keys a call writes before it returns. -/
def writes (env : String → Option String) (s : MemoryMetadataStore) (keys : List GatewayKeyConfig) :
    List ToUpsert :=
  match resolveKeys env keys with
  | .error _ => []
  | .ok toUpsert => written s toUpsert

section
variable {deriveHash : String → Bytes} {defaultProjectId : String} {env : String → Option String}
  {now : ℕ → Int} {order : List (String × List String)} {keys : List GatewayKeyConfig}
  {s s' : MemoryMetadataStore}

theorem toUpsert_ids {toUpsert : List ToUpsert} (h : resolveKeys env keys = .ok toUpsert) :
    toUpsert.map ToUpsert.id = keys.map GatewayKeyConfig.id := by
  rw [← (resolveKeys_ok h).1, List.map_map]
  rfl

/-- A successful call: the declared keys are written, and the other rows are kept
unless the config owns them and their project is pruned. -/
theorem apply_ok (hnodup : (keys.map GatewayKeyConfig.id).Nodup)
    (horder : HashMap.Iterates (byProject defaultProjectId keys) order)
    (h : apply deriveHash defaultProjectId env now order keys s = (.ok (), s')) :
    (∃ toUpsert, resolveKeys env keys = .ok toUpsert ∧ writes env s keys = toUpsert) ∧
      (∀ e ∈ writes env s keys, ∃ row,
        s'.getKey e.id = some row ∧ Seeds deriveHash defaultProjectId e row) ∧
      ∀ id, id ∉ keys.map GatewayKeyConfig.id → ∀ row,
        s'.getKey id = some row ↔ s.getKey id = some row ∧
          (row.origin = .config → ¬ Named defaultProjectId keys row.projectId) := by
  unfold apply at h
  split at h
  · cases h
  · rename_i toUpsert hresolved
    have hids := toUpsert_ids hresolved
    obtain ⟨hok, hrows, hframe⟩ :=
      upsertAll_spec deriveHash defaultProjectId now s toUpsert (hids ▸ hnodup)
    split at h
    · cases h
    · rename_i s₁ hupserts
      cases h
      rw [hupserts] at hok hrows hframe
      have hall : written s toUpsert = toUpsert := hok.mp rfl
      have hwrites : writes env s keys = toUpsert := by
        unfold writes
        rw [hresolved]
        exact hall
      rw [hall] at hrows hframe
      refine ⟨⟨toUpsert, hresolved, hwrites⟩, ?_, ?_⟩
      · intro e he
        rw [hwrites] at he
        obtain ⟨row, hrow, hseeds⟩ := hrows e he
        refine ⟨row, getKey_prune_iff.mpr ⟨hrow, ?_⟩, hseeds⟩
        refine (kept_iff horder row).mpr fun _ _ => mem_idsOf.mpr ⟨e.key, ?_, ?_, ?_⟩
        · rw [← (resolveKeys_ok hresolved).1]
          exact List.mem_map_of_mem he
        · exact hseeds.project.symm
        · exact (getKey_id hrow).symm
      · intro id hid row
        rw [getKey_prune_iff, hframe id (hids ▸ hid), and_congr_right_iff]
        intro hrow
        rw [kept_iff horder row]
        have hout : row.id ∉ idsOf defaultProjectId row.projectId keys := by
          intro hmem
          obtain ⟨k, hk, -, hkid⟩ := mem_idsOf.mp hmem
          exact hid ((hkid.trans (getKey_id hrow)) ▸ List.mem_map_of_mem hk)
        exact ⟨fun hkeep ho hn => hout (hkeep ho hn), fun hkeep ho hn => absurd hn (hkeep ho)⟩

/-- Every call, failed ones included: what it writes, and what it leaves as it was. -/
theorem apply_frame (hnodup : (keys.map GatewayKeyConfig.id).Nodup)
    (horder : HashMap.Iterates (byProject defaultProjectId keys) order)
    {result : Except String Unit}
    (h : apply deriveHash defaultProjectId env now order keys s = (result, s')) :
    (∀ e ∈ writes env s keys, ∃ row,
      s'.getKey e.id = some row ∧ Seeds deriveHash defaultProjectId e row) ∧
      ∀ id row, id ∉ (writes env s keys).map ToUpsert.id → s'.getKey id = some row →
        s.getKey id = some row ∧ (result = .ok () → row.origin = .config →
          ¬ Named defaultProjectId keys row.projectId) := by
  cases result with
  | ok u =>
    obtain ⟨⟨toUpsert, hresolved, hwrites⟩, hrows, hframe⟩ := apply_ok hnodup horder h
    refine ⟨hrows, ?_⟩
    intro id row hid hrow
    rw [hwrites, toUpsert_ids hresolved] at hid
    obtain ⟨hold, hkept⟩ := (hframe id hid row).mp hrow
    exact ⟨hold, fun _ => hkept⟩
  | error e =>
    unfold apply at h
    unfold writes
    split at h
    · rename_i hresolved
      cases h
      refine ⟨fun e he => absurd he List.not_mem_nil, ?_⟩
      intro id row _ hrow
      exact ⟨hrow, fun hok => by cases hok⟩
    · rename_i toUpsert hresolved
      obtain ⟨-, hrows, hframe⟩ := upsertAll_spec deriveHash defaultProjectId now s toUpsert
        ((toUpsert_ids hresolved).symm ▸ hnodup)
      split at h
      · rename_i e' s₁ hupserts
        cases h
        rw [hupserts] at hrows hframe
        refine ⟨hrows, ?_⟩
        intro id row hid hrow
        exact ⟨(hframe id hid).symm.trans hrow, fun hok => by cases hok⟩
      · cases h

end

/-! ### Runs of admin routes and seeding -/

inductive KeyOp where
  | create (req : CreateKeyRequest) (id secret : String) (now : Int)
  | revoke (id : String) (now : Int)
  | touch (id : String) (ts : Int)
  | seed (config : AppConfig) (env : String → Option String) (now : ℕ → Int)
      (order : List (String × List String))

def keyOp (deriveHash : String → Bytes) (defaultProjectId : String) (s : MemoryMetadataStore) :
    KeyOp → Option MemoryMetadataStore
  | .create req id secret now =>
    some (AdminKeys.createKey deriveHash defaultProjectId req id secret now s).2
  | .revoke id now => some (AdminKeys.revokeKey id now s).2
  | .touch id ts => some (s.touchKeyLastUsed id ts)
  | .seed config env now order =>
    some (apply deriveHash defaultProjectId env now order config.gatewayKeys s).2

/-- Seeding is called with a validated configuration. -/
def Seedable (defaultProjectId : String) (_ : MemoryMetadataStore) : KeyOp → Prop
  | .seed config _ _ order =>
    config.Validated ∧ HashMap.Iterates (byProject defaultProjectId config.gatewayKeys) order
  | _ => True

/-- The rows of the config are the declared keys, and a key that was dropped from the
list authenticates no request. -/
structure SeededExactly (deriveHash : String → Bytes) (defaultProjectId : String)
    (env : String → Option String) (keys : List GatewayKeyConfig)
    (before after : MemoryMetadataStore) : Prop where
  ids : ∀ id, (∃ row, after.getKey id = some row ∧ row.origin = .config) ↔
    id ∈ keys.map GatewayKeyConfig.id
  rows : ∀ k ∈ keys, ∃ row plaintext, after.getKey k.id = some row ∧
    k.resolveSecret env = .ok plaintext ∧ row.hash = deriveHash plaintext ∧
    row.origin = .config ∧ row.status = .active ∧
    row.projectId = k.project defaultProjectId ∧ row.name = k.name ∧ row.scopes = k.scopes
  dropped : ∀ id row, before.getKey id = some row → row.origin = .config →
    id ∉ keys.map GatewayKeyConfig.id → ∀ order, HashMap.Iterates after.keys order →
      ∀ now headers p, gatewayKeyPrincipal deriveHash order now headers = .ok p → p.keyId ≠ id

/-- Seeding is exact, whatever the store holds, if and only if every row of the config that
is no longer declared is in the default project or in the project of a declared key. -/
theorem seeding_exact_iff (deriveHash : String → Bytes) (defaultProjectId : String)
    {s s' : MemoryMetadataStore}
    {config : AppConfig} (hvalid : config.Validated) {env : String → Option String} {now : ℕ → Int}
    {order : List (String × List String)}
    (horder : HashMap.Iterates (byProject defaultProjectId config.gatewayKeys) order)
    (hok : apply deriveHash defaultProjectId env now order config.gatewayKeys s = (.ok (), s')) :
    SeededExactly deriveHash defaultProjectId env config.gatewayKeys s s' ↔
      ∀ id row, s.getKey id = some row → row.origin = .config →
        id ∉ config.gatewayKeys.map GatewayKeyConfig.id →
          row.projectId = defaultProjectId ∨
            ∃ k ∈ config.gatewayKeys, k.project defaultProjectId = row.projectId := by
  obtain ⟨⟨toUpsert, hresolved, hwrites⟩, hrows, hframe⟩ :=
    apply_ok hvalid.ids_nodup horder hok
  rw [hwrites] at hrows
  obtain ⟨hkeys, hsecrets⟩ := resolveKeys_ok hresolved
  have hdeclared : ∀ k ∈ config.gatewayKeys, ∃ row plaintext, s'.getKey k.id = some row ∧
      k.resolveSecret env = .ok plaintext ∧ row.hash = deriveHash plaintext ∧
      row.origin = .config ∧ row.status = .active ∧
      row.projectId = k.project defaultProjectId ∧ row.name = k.name ∧ row.scopes = k.scopes := by
    intro k hk
    rw [← hkeys] at hk
    obtain ⟨e, he, rfl⟩ := List.mem_map.mp hk
    obtain ⟨row, hrow, hseeds⟩ := hrows e he
    exact ⟨row, e.plaintext, hrow, hsecrets e he, hseeds.hash, hseeds.origin, hseeds.status,
      hseeds.project, hseeds.name, hseeds.scopes⟩
  constructor
  · intro hexact id row hrow horigin hdropped
    by_contra hnot
    have hleft := (hframe id hdropped row).mpr ⟨hrow, fun _ => hnot⟩
    exact hdropped ((hexact.ids id).mp ⟨row, hleft, horigin⟩)
  · intro hnamed
    have hids : ∀ id, (∃ row, s'.getKey id = some row ∧ row.origin = .config) ↔
        id ∈ config.gatewayKeys.map GatewayKeyConfig.id := by
      intro id
      constructor
      · rintro ⟨row, hrow, horigin⟩
        by_contra hdropped
        obtain ⟨hold, hkept⟩ := (hframe id hdropped row).mp hrow
        exact hkept horigin (hnamed id row hold horigin hdropped)
      · intro hmem
        obtain ⟨k, hk, rfl⟩ := List.mem_map.mp hmem
        obtain ⟨row, -, hrow, -, -, horigin, -⟩ := hdeclared k hk
        exact ⟨row, hrow, horigin⟩
    refine ⟨hids, hdeclared, ?_⟩
    intro id row hrow horigin hdropped order' horder' now' headers p hp heq
    obtain ⟨row', hauth⟩ := gatewayKeyPrincipal_authenticates horder' hp
    have hstored := hauth.stored
    rw [heq] at hstored
    obtain ⟨hold, hkept⟩ := (hframe id hdropped row').mp hstored
    cases hrow.symm.trans hold
    exact hkept horigin (hnamed id row hrow horigin hdropped)

def sampleConfig (keys : List GatewayKeyConfig) : AppConfig :=
  { storageProfile := .memory, gatewayKeys := keys }

def sampleDeclared (id projectId : String) : GatewayKeyConfig :=
  { id := id, name := id, projectId := some projectId, secret := prefixLive ++ id, scopes := [] }

/-- The store after a first configuration declared one key of the project `team`. -/
def sampleSeeded : MemoryMetadataStore :=
  (apply asBytes "default" (fun _ => none) (fun _ => 0) [("team", ["a"])]
    [sampleDeclared "a" "team"] .empty).2

def sampleRow : GatewayKeyRow :=
  empty.seededRow
    (seededKey asBytes "default" ⟨sampleDeclared "a" "team", "sk-gw-live-a", prefixLive⟩) 0

theorem sampleConfig_validated {keys : List GatewayKeyConfig}
    (h : validateGatewayKeys [] keys = .ok ()) : (sampleConfig keys).Validated :=
  ⟨[], rfl, h⟩

theorem sampleSeeded_reaches :
    Reaches (keyOp asBytes "default") (Seedable "default") .empty sampleSeeded := by
  refine .next (.seed (sampleConfig [sampleDeclared "a" "team"]) (fun _ => none) (fun _ => 0)
    [("team", ["a"])]) .start ⟨sampleConfig_validated ?_, ?_⟩ rfl
  · decide +kernel
  · unfold HashMap.Iterates
    decide +kernel

theorem sampleSeeded_iterates : HashMap.Iterates sampleSeeded.keys [("a", sampleRow)] := by
  unfold HashMap.Iterates
  decide +kernel

theorem seeding_exact_sample :
    SeededExactly asBytes "default" (fun _ => none) [sampleDeclared "b" "team"] sampleSeeded
      (apply asBytes "default" (fun _ => none) (fun _ => 1) [("team", ["b"])]
        [sampleDeclared "b" "team"] sampleSeeded).2 := by
  have hvalid : (sampleConfig [sampleDeclared "b" "team"]).Validated :=
    sampleConfig_validated (by decide +kernel)
  have horder : HashMap.Iterates (byProject "default" [sampleDeclared "b" "team"])
      [("team", ["b"])] := by
    unfold HashMap.Iterates
    decide +kernel
  have hok : apply asBytes "default" (fun _ => none) (fun _ => 1) [("team", ["b"])]
      [sampleDeclared "b" "team"] sampleSeeded = (.ok (), _) := Prod.ext (by decide +kernel) rfl
  refine (seeding_exact_iff asBytes "default" hvalid horder hok).mpr ?_
  intro id row hrow _ _
  have hmem := sampleSeeded_iterates.mem.mpr hrow
  cases List.mem_singleton.mp hmem
  exact Or.inr ⟨sampleDeclared "b" "team", List.mem_singleton.mpr rfl, rfl⟩

/-- The last key of a project that the list no longer mentions stays and authenticates. -/
theorem dropped_project_keeps_key :
    ∃ s s', Reaches (keyOp asBytes "default") (Seedable "default") .empty s ∧
      (sampleConfig []).Validated ∧ HashMap.Iterates (byProject "default" []) [] ∧
      apply asBytes "default" (fun _ => none) (fun _ => 1) [] (sampleConfig []).gatewayKeys s =
        (.ok (), s') ∧
      ¬ SeededExactly asBytes "default" (fun _ => none) (sampleConfig []).gatewayKeys s s' ∧
      ∃ order, HashMap.Iterates s'.keys order ∧ gatewayKeyPrincipal asBytes order 5
        [("authorization", asBytes "Bearer sk-gw-live-a")] = .ok ⟨"a", "team"⟩ := by
  refine ⟨sampleSeeded, _, sampleSeeded_reaches, sampleConfig_validated rfl, rfl,
    Prod.ext (by decide +kernel) rfl, ?_, [("a", sampleRow)], ?_, ?_⟩
  · intro hexact
    have hmem := (hexact.ids "a").mp ⟨sampleRow, by decide +kernel, rfl⟩
    cases hmem
  · unfold HashMap.Iterates
    decide +kernel
  · decide +kernel

end SeedKeys

end AiGateway.Api
