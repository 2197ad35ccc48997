import AiGateway.Api.SqliteKeys

/-!
# Replicas that seed the same configuration

At boot and at each reload every replica writes the declared keys and prunes the others, while
requests and admin calls go on. No statement of these calls takes back what a seeding wrote.
-/

namespace AiGateway.Api
open AiGateway.Core AiGateway.Storage AiGateway.Library AiGateway.Library.Runs
open AiGateway.Library.Programs SqlMetadataStore

namespace SharedKeys
open SeedKeys (ToUpsert idsOf Named)

/-- The row of a declared key. -/
structure DeclaredRow (d : Deployment) (e : ToUpsert) (row : KeyColumns) : Prop where
  project : row.projectId = e.key.project d.defaultProjectId
  name : row.name = e.key.name
  keyPrefix : row.keyPrefix = e.keyPrefix
  hash : row.hash = d.deriveHash e.plaintext
  last4 : row.last4 = last4 e.plaintext
  scopes : d.codec.toString e.key.scopes = .ok row.scopes
  status : row.status = .active
  expiresAt : row.expiresAt = none
  revokedAt : row.revokedAt = none
  origin : row.origin = .config

def Declared (d : Deployment) (e : ToUpsert) (row : Option KeyColumns) : Prop :=
  ∃ r, row = some r ∧ DeclaredRow d e r

/-- What every replica applies: a configuration whose ids are distinct and whose secrets resolve. -/
structure Seeding (d : Deployment) where
  env : String → Option String
  keys : List GatewayKeyConfig
  toUpsert : List ToUpsert
  distinct : (keys.map GatewayKeyConfig.id).Nodup
  resolved : SeedKeys.resolveKeys env keys = .ok toUpsert

section
variable {d : Deployment} (c : Seeding d)

def Seeding.ids : List String := c.keys.map GatewayKeyConfig.id

theorem Seeding.key_mem {e : ToUpsert} (he : e ∈ c.toUpsert) : e.key ∈ c.keys := by
  rw [← (SeedKeys.resolveKeys_ok c.resolved).1]
  exact List.mem_map_of_mem he

theorem Seeding.id_mem {e : ToUpsert} (he : e ∈ c.toUpsert) : e.id ∈ c.ids :=
  List.mem_map_of_mem (c.key_mem he)

theorem Seeding.eq_of_id {e e' : ToUpsert} (he : e ∈ c.toUpsert) (he' : e' ∈ c.toUpsert)
    (hid : e.id = e'.id) : e = e' := by
  have hnodup : (c.toUpsert.map ToUpsert.id).Nodup := by
    have hids : c.toUpsert.map ToUpsert.id = c.keys.map GatewayKeyConfig.id := by
      rw [← (SeedKeys.resolveKeys_ok c.resolved).1, List.map_map]
      rfl
    rw [hids]
    exact c.distinct
  exact List.inj_on_of_nodup_map hnodup he he' hid

theorem Seeding.mem_idsOf {e : ToUpsert} (he : e ∈ c.toUpsert) :
    e.id ∈ idsOf d.defaultProjectId (e.key.project d.defaultProjectId) c.keys :=
  SeedKeys.mem_idsOf.mpr ⟨e.key, c.key_mem he, rfl, rfl⟩

/-- What a statement may do to the row of an id: a declared row stays as declared, no admin key
comes under a declared id, and no row of the config comes to a project that does not declare it. -/
structure Seeding.RowKept (id : String) (old new : Option KeyColumns) : Prop where
  declared : ∀ e ∈ c.toUpsert, e.id = id → Declared d e old → Declared d e new
  free : ∀ e ∈ c.toUpsert, e.id = id → NotAdmin old → NotAdmin new
  config : ∀ row, new = some row → row.origin = .config →
    (∃ row', old = some row' ∧ row'.origin = .config ∧ row'.projectId = row.projectId) ∨
      id ∈ idsOf d.defaultProjectId row.projectId c.keys

def Seeding.Keeps (s t : SqlMetadataStore) : Prop :=
  ∀ id, c.RowKept id (s.keyRow id) (t.keyRow id)

theorem Seeding.RowKept.refl (id : String) (row : Option KeyColumns) : c.RowKept id row row where
  declared _ _ _ h := h
  free _ _ _ h := h
  config row' hrow horigin := Or.inl ⟨row', hrow, horigin, rfl⟩

/-- The statements of the replicas, and what their senders know of the rows. -/
inductive Sends (c : Seeding d) (s : SqlMetadataStore) : Statement → Prop where
  | other (q : Statement) (hq : q.reads = true ∨ q = .lock ∨ q = .unlock) : Sends c s q
  | project (id name : String) : Sends c s (.insertProject id name)
  | touch (id : String) (ts : Int) : Sends c s (.setLastUsed id ts)
  | create (row : KeyColumns) (hid : row.id ∉ c.ids) (horigin : row.origin = .admin) :
      Sends c s (.insertKey row)
  | revoke (id : String) (hid : id ∉ c.ids) : Sends c s (.setRevoked id)
  | upsert (e : ToUpsert) (he : e ∈ c.toUpsert) (row : KeyColumns) (hid : row.id = e.id)
      (hrow : DeclaredRow d e row) (hfree : NotAdmin (s.keyRow e.id)) : Sends c s (.upsertKey row)
  | prune (projectId : String) :
      Sends c s (.deleteSeeded projectId (idsOf d.defaultProjectId projectId c.keys))

/-- The row that an upsert leaves where no admin key is. -/
theorem seeded_declared {e : ToUpsert} {row : KeyColumns} (hrow : DeclaredRow d e row)
    (now : Int) {old : Option KeyColumns} (hfree : NotAdmin old) :
    DeclaredRow d e (old.elim { row with createdAt := now }
      (KeyColumns.seeded { row with createdAt := now })) := by
  obtain ⟨h1, h2, h3, h4, h5, h6, h7, h8, h9, h10⟩ := hrow
  cases old with
  | none => exact ⟨h1, h2, h3, h4, h5, h6, h7, h8, h9, h10⟩
  | some r => exact ⟨h1, h2, h3, h4, h5, h6, rfl, h8, rfl, hfree r rfl⟩

theorem Sends.keeps {s t : SqlMetadataStore} {q : Statement} {env : SqlEnv} {a : q.Answer}
    (h : Sends c s q) (hexec : SqlMetadataStore.exec q env s = some (a, t)) : c.Keeps s t := by
  intro id
  have hstep := exec_row hexec id
  generalize hold : s.keyRow id = old at hstep
  generalize t.keyRow id = new at hstep
  cases hstep with
  | same => exact .refl c id _
  | inserted row hid =>
    cases h with
    | other q hq => simp [Statement.reads] at hq
    | create row hnew horigin =>
      refine ⟨?_, ?_, ?_⟩
      · rintro e - - ⟨r, hr, -⟩
        cases hr
      · intro e he heq _
        exact absurd (c.id_mem he) (heq ▸ hid ▸ hnew)
      · intro r hr hconfig
        cases hr
        cases horigin.symm.trans hconfig
  | revoked r =>
    cases h with
    | other q hq => simp [Statement.reads] at hq
    | revoke _ hnew =>
      refine ⟨?_, ?_, ?_⟩
      · intro e he heq
        exact absurd (c.id_mem he) (heq ▸ hnew)
      · intro e he heq
        exact absurd (c.id_mem he) (heq ▸ hnew)
      · intro r' hr' hconfig
        cases hr'
        exact Or.inl ⟨r, rfl, hconfig, rfl⟩
  | touched ts r =>
    refine ⟨?_, ?_, ?_⟩
    · rintro e - - ⟨r', hr', hrow⟩
      cases hr'
      obtain ⟨h1, h2, h3, h4, h5, h6, h7, h8, h9, h10⟩ := hrow
      exact ⟨_, rfl, h1, h2, h3, h4, h5, h6, h7, h8, h9, h10⟩
    · intro e _ _ hfree r' hr'
      cases hr'
      exact hfree r rfl
    · intro r' hr' hconfig
      cases hr'
      exact Or.inl ⟨r, rfl, hconfig, rfl⟩
  | seeded row hid =>
    cases h with
    | other q hq => simp [Statement.reads] at hq
    | upsert e he row hid' hrow hfree =>
      obtain rfl : e.id = id := hid'.symm.trans hid
      rw [hold] at hfree
      have hnew := seeded_declared hrow env.clock hfree
      refine ⟨?_, ?_, ?_⟩
      · intro e' he' heq _
        rw [c.eq_of_id he' he heq]
        exact ⟨_, rfl, hnew⟩
      · intro _ _ _ _ r hr
        rw [← Option.some.inj hr]
        exact hnew.origin
      · intro r hr _
        right
        rw [← Option.some.inj hr, hnew.project]
        exact c.mem_idsOf he
  | pruned projectId keepIds r hr =>
    cases h with
    | other q hq => simp [Statement.reads] at hq
    | prune =>
      refine ⟨?_, ?_, ?_⟩
      · rintro e he heq ⟨r', hr', hrow⟩
        cases hr'
        have hkey : r.id = id := keyRow_id hold
        simp only [prunable, decide_eq_true_eq] at hr
        obtain ⟨hproject, -, hnot⟩ := hr
        refine absurd (c.mem_idsOf he) ?_
        rw [← hrow.project, hproject, heq, ← hkey]
        exact hnot
      · intro _ _ _ _ r' hr'
        cases hr'
      · intro r' hr'
        cases hr'

/-! ### Assertions that every statement keeps -/

def Stays (c : Seeding d) (P : SqlMetadataStore → Prop) : Prop := Pool.Stable c.Keeps P

theorem stays_declared {e : ToUpsert} (he : e ∈ c.toUpsert) :
    Stays c fun s => Declared d e (s.keyRow e.id) :=
  fun _ _ hkeeps h => (hkeeps e.id).declared e he rfl h

theorem stays_free {e : ToUpsert} (he : e ∈ c.toUpsert) :
    Stays c fun s => NotAdmin (s.keyRow e.id) :=
  fun _ _ hkeeps h => (hkeeps e.id).free e he rfl h

/-- The config has no row in the project but the declared ones. -/
def Pruned (c : Seeding d) (projectId : String) (s : SqlMetadataStore) : Prop :=
  ∀ id row, s.keyRow id = some row → row.origin = .config → row.projectId = projectId →
    id ∈ idsOf d.defaultProjectId projectId c.keys

theorem stays_pruned (projectId : String) : Stays c (Pruned c projectId) := by
  intro s t hkeeps h id row hrow horigin hproject
  obtain ⟨row', hrow', horigin', hsame⟩ | hdeclared := (hkeeps id).config row hrow horigin
  · exact h id row' hrow' horigin' (hsame.trans hproject)
  · rw [← hproject]
    exact hdeclared

theorem Stays.and {P R : SqlMetadataStore → Prop} (hP : Stays c P) (hR : Stays c R) :
    Stays c fun s => P s ∧ R s :=
  fun s t hst h => ⟨hP s t hst h.1, hR s t hst h.2⟩

theorem Stays.imp {p : Prop} {P : SqlMetadataStore → Prop} (hP : Stays c P) :
    Stays c fun s => p → P s :=
  fun s t hst h hp => hP s t hst (h hp)

theorem Stays.forall {ι : Type} {p : ι → Prop} {P : ι → SqlMetadataStore → Prop}
    (hP : ∀ i, p i → Stays c (P i)) : Stays c fun s => ∀ i, p i → P i s :=
  fun s t hst h i hi => hP i hi s t hst (h i hi)

theorem stays_true : Stays c fun _ => True := fun _ _ _ _ => trivial

/-- From `pre` the program sends what the replicas send, and its result `r` comes with `post r`. -/
abbrev Follows (c : Seeding d) {ρ : Type} (pre : SqlMetadataStore → Prop)
    (p : Program Statement Statement.Answer ρ) (post : ρ → SqlMetadataStore → Prop) : Prop :=
  Pool.Meets SqlMetadataStore.exec (fun _ => false) (fun _ => c.Keeps) false pre p false post

theorem follows_exec {ρ : Type} {pre : SqlMetadataStore → Prop} {q : Statement}
    {next : q.Answer → Program Statement Statement.Answer ρ} {post : ρ → SqlMetadataStore → Prop}
    (mid : q.Answer → SqlMetadataStore → Prop) (hstays : ∀ a, Stays c (mid a))
    (hsends : ∀ s, pre s → Sends c s q)
    (hmid : ∀ s env a t, pre s → SqlMetadataStore.exec q env s = some (a, t) → mid a t)
    (hnext : ∀ a, Follows c (mid a) (next a) post) : Follows c pre (.exec q next) post :=
  .exec false mid hstays
    (fun s env a t hpre hexec =>
      ⟨(hsends s hpre).keeps c hexec, rfl, hmid s env a t hpre hexec⟩) hnext

/-- A statement after which nothing is claimed. -/
theorem follows_send {ρ : Type} {pre : SqlMetadataStore → Prop} {q : Statement}
    {next : q.Answer → Program Statement Statement.Answer ρ} {post : ρ → SqlMetadataStore → Prop}
    (hsends : ∀ s, pre s → Sends c s q)
    (hnext : ∀ a, Follows c (fun _ => True) (next a) post) : Follows c pre (.exec q next) post :=
  follows_exec c (fun _ _ => True) (fun _ => stays_true c) hsends (fun _ _ _ _ _ _ => trivial) hnext

theorem withWriteLock_follows {ρ : Type} {backend : SqlBackend} {pre : SqlMetadataStore → Prop}
    {body : Program Statement Statement.Answer ρ} {post : ρ → SqlMetadataStore → Prop}
    (h : Follows c pre body post) (hpre : Stays c pre) (hpost : ∀ r, Stays c (post r)) :
    Follows c pre (withWriteLock backend body) post := by
  cases backend with
  | postgres => exact h
  | sqlite =>
    refine follows_exec c (fun _ => pre) (fun _ => hpre) (fun _ _ => .other _ (Or.inr (Or.inl rfl)))
      ?_ fun _ => Pool.Meets.bind h fun r => ?_
    · intro s env a t hs hexec
      exact hpre s t ((Sends.other (c := c) .lock (Or.inr (Or.inl rfl))).keeps c hexec) hs
    · refine follows_exec c (fun _ => post r) (fun _ => hpost r)
        (fun _ _ => .other _ (Or.inr (Or.inr rfl))) ?_ fun _ => .ret fun _ h => h
      intro s env a t hs hexec
      exact hpost r s t ((Sends.other (c := c) .unlock (Or.inr (Or.inr rfl))).keeps c hexec) hs

/-- A successful result comes with `P`. -/
abbrev Gets (c : Seeding d) {ε α : Type} (pre : SqlMetadataStore → Prop) (p : Steps ε α)
    (P : SqlMetadataStore → Prop) : Prop :=
  Follows c pre p fun r s => ∀ a, r = .ok a → P s

theorem gets_throw {ε α : Type} {pre P : SqlMetadataStore → Prop} {e : ε} :
    Gets (α := α) c pre (Program.ret (.error e)) P :=
  .ret fun _ _ _ h => by cases h

theorem Gets.mapErr {ε ε' α : Type} {f : ε → ε'} {pre P : SqlMetadataStore → Prop}
    {p : Steps ε α} (h : Gets c pre p P) : Gets c pre (p.mapErr f) P := by
  refine Pool.Meets.mapErr (h.strengthen ?_)
  intro r s hP a ha
  cases r with
  | ok b => exact hP b rfl
  | error e => cases ha

theorem Gets.andThen {ε α β : Type} {pre P R : SqlMetadataStore → Prop} {p : Steps ε α}
    {f : α → Steps ε β} (hp : Gets c pre p P) (hf : ∀ a, Gets c P (f a) R) :
    Gets c pre (p >>= f : Steps ε β) R := by
  refine Pool.Meets.andThen hp ?_ fun _ _ _ _ h => by cases h
  intro a
  exact (hf a).weaken fun s h => h a rfl

theorem Gets.frame {ε α : Type} {pre P R : SqlMetadataStore → Prop} {p : Steps ε α}
    (h : Gets c pre p R) (hP : Stays c P) :
    Gets c (fun s => pre s ∧ P s) p fun s => R s ∧ P s :=
  (Pool.Meets.frame h fun _ => hP).strengthen fun _ _ hs a ha => ⟨hs.1 a ha, hs.2⟩

/-! ### What a seeding leaves -/

theorem writeSeeded_gets {e : ToUpsert} (he : e ∈ c.toUpsert) {scopes : String}
    (hscopes : d.codec.toString e.key.scopes = .ok scopes) :
    Gets c (fun s => NotAdmin (s.keyRow e.id))
      (writeSeeded d.codec (SeedKeys.seededKey d.deriveHash d.defaultProjectId e) scopes)
      fun s => Declared d e (s.keyRow e.id) := by
  have hrow : DeclaredRow d e ((MemoryMetadataStore.newRow
      { SeedKeys.seededKey d.deriveHash d.defaultProjectId e with origin := .config } 0).columns
        scopes) := ⟨rfl, rfl, rfl, rfl, rfl, hscopes, rfl, rfl, rfl, rfl⟩
  have hdeclared := stays_declared c he
  refine follows_exec c (fun a s => ∀ b, a = .ok b → Declared d e (s.keyRow e.id)) ?_ ?_ ?_ ?_
  · exact fun a => Stays.forall c fun b _ => hdeclared
  · exact fun s hfree => .upsert e he _ rfl hrow hfree
  · rintro s env a t hfree hexec b rfl
    obtain ⟨-, _, herr⟩ | ⟨⟨⟩, hresult, -⟩ := write_cases (Option.some.inj hexec)
    · cases herr
    · have hnew := (keyRow_upsertKey hresult e.id).trans (if_pos rfl)
      exact ⟨_, hnew, seeded_declared hrow env.clock hfree⟩
  · intro a
    cases a with
    | error e => exact gets_throw c
    | ok _ =>
      refine follows_exec c (fun _ s => Declared d e (s.keyRow e.id)) (fun _ => hdeclared)
        (fun _ _ => .other _ (Or.inl rfl)) ?_ fun a => ?_
      · intro s env a t hs hexec
        rw [exec_reads rfl hexec]
        exact hs _ rfl
      · cases a with
        | error e => exact gets_throw c
        | ok written =>
          cases written with
          | none => exact gets_throw c
          | some r => exact .ret fun _ h _ _ => h

theorem upsertSeededKey_gets {e : ToUpsert} (he : e ∈ c.toUpsert) :
    Gets c (fun _ => True) (upsertSeededKey d.backend d.codec
      (SeedKeys.seededKey d.deriveHash d.defaultProjectId e))
      fun s => Declared d e (s.keyRow e.id) := by
  unfold upsertSeededKey
  cases hscopes : d.codec.toString
      (SeedKeys.seededKey d.deriveHash d.defaultProjectId e).scopes with
  | error detail => exact gets_throw c
  | ok scopes =>
    refine withWriteLock_follows c ?_ (stays_true c)
      fun r => Stays.forall c fun _ _ => stays_declared c he
    refine follows_exec c (fun a s => ∀ origin, a = .ok origin → origin ≠ some .admin →
      NotAdmin (s.keyRow e.id)) ?_ (fun _ _ => .other _ (Or.inl rfl)) ?_ ?_
    · exact fun a => Stays.forall c fun _ _ => Stays.imp c (stays_free c he)
    · rintro s env a t - hexec origin rfl hne r hr
      have hread := read_ok (congrArg Prod.fst (Option.some.inj hexec))
      rw [exec_reads rfl hexec] at hr
      have horigin : origin = some r.origin := by
        rw [hread]
        exact congrArg (Option.map KeyColumns.origin) hr
      rw [horigin] at hne
      cases hcase : r.origin with
      | admin => exact absurd (congrArg some hcase) hne
      | config => rfl
    · intro a
      cases a with
      | error e => exact gets_throw c
      | ok existing =>
        change Gets c _ (if existing.any (fun origin => origin ≠ .config) then _ else _ : Db _) _
        split
        · exact gets_throw c
        · rename_i hfree
          refine (writeSeeded_gets c he hscopes).weaken fun s hs => hs existing rfl ?_
          rintro rfl
          exact hfree rfl

theorem upsertAll_gets (toUpsert : List ToUpsert) (hsub : ∀ e ∈ toUpsert, e ∈ c.toUpsert) :
    Gets c (fun _ => True) (upsertAll d toUpsert)
      fun s => ∀ e ∈ toUpsert, Declared d e (s.keyRow e.id) := by
  induction toUpsert with
  | nil => exact .ret fun _ _ _ _ e he => by cases he
  | cons e rest ih =>
    have he := hsub e List.mem_cons_self
    refine Gets.andThen c (Gets.mapErr c (upsertSeededKey_gets c he)) fun _ => ?_
    have hrest := ih fun e' he' => hsub e' (List.mem_cons_of_mem _ he')
    refine ((Gets.frame c hrest (stays_declared c he)).weaken fun s hs => ⟨trivial, hs⟩).strengthen
      fun r s hs a ha => ?_
    obtain ⟨hall, hhead⟩ := hs a ha
    exact List.forall_mem_cons.mpr ⟨hhead, hall⟩

theorem prune_gets (projectId : String) :
    Gets c (fun _ => True) (pruneSeededKeysNotIn d.backend projectId
      (idsOf d.defaultProjectId projectId c.keys)) (Pruned c projectId) := by
  refine withWriteLock_follows c ?_ (stays_true c)
    fun r => Stays.forall c fun _ _ => stays_pruned c projectId
  refine follows_exec c (fun a s => ∀ n, a = .ok n → Pruned c projectId s) ?_
    (fun _ _ => .prune projectId) ?_ fun a => .ret fun _ h => h
  · exact fun a => Stays.forall c fun _ _ => stays_pruned c projectId
  · rintro s env a t - hexec n rfl id row hrow horigin hproject
    obtain ⟨-, _, herr⟩ | ⟨b, hresult, -⟩ := write_cases (Option.some.inj hexec)
    · cases herr
    · have ht : t = (s.deleteSeeded projectId (idsOf d.defaultProjectId projectId c.keys)).2 := by
        rw [Option.some.inj hresult]
      rw [ht, keyRow_deleteSeeded] at hrow
      obtain ⟨hold, hkept⟩ := hrow
      have hid : row.id = id := keyRow_id hold
      by_contra hnot
      simp [prunable, horigin, hproject, hid, hnot] at hkept

theorem pruneAll_gets (order : List (String × List String))
    (hids : ∀ e ∈ order, e.2 = idsOf d.defaultProjectId e.1 c.keys) :
    Gets c (fun _ => True) (pruneAll d order) fun s => ∀ e ∈ order, Pruned c e.1 s := by
  induction order with
  | nil => exact .ret fun _ _ _ _ e he => by cases he
  | cons e rest ih =>
    have hprune := prune_gets c e.1
    rw [← hids e List.mem_cons_self] at hprune
    refine Gets.andThen c (Gets.mapErr c hprune) fun _ => ?_
    have hrest := ih fun e' he' => hids e' (List.mem_cons_of_mem _ he')
    refine ((Gets.frame c hrest (stays_pruned c e.1)).weaken fun s hs => ⟨trivial, hs⟩).strengthen
      fun r s hs a ha => ?_
    obtain ⟨hall, hhead⟩ := hs a ha
    exact List.forall_mem_cons.mpr ⟨hhead, hall⟩

theorem pruneDefault_gets :
    Gets c (fun _ => True) (pruneDefault d c.keys) fun s =>
      SeedKeys.usesDefault d.defaultProjectId c.keys = false → Pruned c d.defaultProjectId s := by
  unfold pruneDefault
  cases huses : SeedKeys.usesDefault d.defaultProjectId c.keys with
  | true => exact .ret fun _ _ _ _ h => by cases h
  | false =>
    have hnone : idsOf d.defaultProjectId d.defaultProjectId c.keys = [] :=
      SeedKeys.idsOf_eq_nil.mpr (SeedKeys.usesDefault_eq_false.mp huses)
    have hprune := prune_gets c d.defaultProjectId
    rw [hnone] at hprune
    exact Gets.andThen c (Gets.mapErr c hprune) fun _ => .ret fun _ hs _ _ _ => hs

/-- The declared rows are as declared, and the config has no other row in their projects and in the
default project. -/
structure Settled (c : Seeding d) (s : SqlMetadataStore) : Prop where
  rows : ∀ e ∈ c.toUpsert, Declared d e (s.keyRow e.id)
  only : ∀ projectId, Named d.defaultProjectId c.keys projectId → Pruned c projectId s

theorem apply_gets {order : List (String × List String)}
    (horder : HashMap.Iterates (SeedKeys.byProject d.defaultProjectId c.keys) order) :
    Gets c (fun _ => True) (apply d c.env c.keys order) (Settled c) := by
  unfold apply
  rw [c.resolved]
  have hlookup := fun projectId ids => (horder.mem (k := projectId) (v := ids)).trans
    (by rw [SeedKeys.byProject_lookup])
  have hids : ∀ e ∈ order, e.2 = idsOf d.defaultProjectId e.1 c.keys := by
    intro e he
    have hsome := (hlookup e.1 e.2).mp he
    split at hsome
    · cases hsome
    · exact (Option.some.inj hsome).symm
  have hrows : Stays c fun s => ∀ e ∈ c.toUpsert, Declared d e (s.keyRow e.id) :=
    Stays.forall c fun e he => stays_declared c he
  have hpruned : Stays c fun s => ∀ e ∈ order, Pruned c e.1 s :=
    Stays.forall c fun e _ => stays_pruned c e.1
  refine Gets.andThen c (upsertAll_gets c c.toUpsert fun _ he => he) fun _ => ?_
  refine Gets.andThen c (((Gets.frame c (pruneAll_gets c order hids) hrows).weaken
    fun s hs => ⟨trivial, hs⟩)) fun _ => ?_
  refine ((Gets.frame c (pruneDefault_gets c) (Stays.and c hpruned hrows)).weaken
    fun s hs => ⟨trivial, hs⟩).strengthen fun r s hs a ha => ?_
  obtain ⟨hdefault, hall, hdeclared⟩ := hs a ha
  refine ⟨hdeclared, ?_⟩
  intro projectId hnamed
  by_cases hkeys : ∃ k ∈ c.keys, k.project d.defaultProjectId = projectId
  · have hmem : (projectId, idsOf d.defaultProjectId projectId c.keys) ∈ order := by
      rw [hlookup, if_neg]
      exact fun hnil => SeedKeys.idsOf_eq_nil.mp hnil hkeys
    exact hall _ hmem
  · rcases hnamed with rfl | hdeclares
    · exact hdefault (SeedKeys.usesDefault_eq_false.mpr hkeys)
    · exact absurd hdeclares hkeys

/-! ### The other calls -/

abbrev Quiet (c : Seeding d) {ρ : Type} (p : Program Statement Statement.Answer ρ) : Prop :=
  Follows c (fun _ => True) p fun _ _ => True

theorem quiet_ret {ρ : Type} {a : ρ} : Quiet c (Program.ret a) := .ret fun _ _ => trivial

theorem quiet_query {q : Statement} (hq : ∀ s, Sends c s q) : Quiet c (query q) :=
  follows_send c (fun s _ => hq s) fun _ => quiet_ret c

theorem quiet_write {backend : SqlBackend} {q : Statement} (hq : ∀ s, Sends c s q) :
    Quiet c (withWriteLock backend (query q)) :=
  withWriteLock_follows c (quiet_query c hq) (stays_true c) fun _ => stays_true c

theorem Quiet.andThen {ε α β : Type} {p : Steps ε α} {f : α → Steps ε β} (hp : Quiet c p)
    (hf : ∀ a, Quiet c (f a)) : Quiet c (p >>= f : Steps ε β) :=
  Pool.Meets.andThen hp hf fun _ _ _ => trivial

theorem Quiet.mapErr {ε ε' α : Type} {f : ε → ε'} {p : Steps ε α} (hp : Quiet c p) :
    Quiet c (p.mapErr f) :=
  Pool.Meets.mapErr hp

theorem Quiet.ite {ε α : Type} {b : Prop} [hb : Decidable b] {p p' : Steps ε α} (hp : Quiet c p)
    (hp' : Quiet c p') : Quiet c (if b then p else p' : Steps ε α) := by
  cases hb with
  | isTrue h => exact hp
  | isFalse h => exact hp'

theorem seedDefaultProject_quiet : Quiet c (seedDefaultProject d) := by
  refine Quiet.andThen c (quiet_query c fun _ => .other _ (Or.inl rfl)) fun _ => Quiet.ite c ?_ ?_
  · exact Quiet.andThen c (Quiet.andThen c (quiet_write c fun _ => .project _ _)
      fun _ => quiet_ret c) fun _ => quiet_ret c
  · exact quiet_ret c

theorem createKey_quiet {req : CreateKeyRequest} {id secret : String} (hid : id ∉ c.ids) :
    Quiet c (createKey d req id secret) := by
  unfold createKey
  split
  · exact quiet_ret c
  · refine Quiet.andThen c (Quiet.mapErr c ?_) fun _ => quiet_ret c
    unfold SqlMetadataStore.createKey
    split
    · exact quiet_ret c
    · exact Quiet.andThen c (quiet_write c fun _ => .create _ hid rfl) fun _ => quiet_ret c

theorem revokeKey_quiet {id : String} (hid : id ∉ c.ids) : Quiet c (revokeKey d id) := by
  have hrevoke : Quiet c (SqlMetadataStore.revokeKey d.backend id) :=
    Quiet.andThen c (quiet_write c fun _ => .revoke id hid)
      fun _ => Quiet.ite c (quiet_ret c) (quiet_ret c)
  refine Quiet.andThen c (Quiet.mapErr c (Quiet.andThen c (quiet_query c fun _ => .other _
    (Or.inl rfl)) fun _ => quiet_ret c)) fun _ => Quiet.ite c (quiet_ret c) (Quiet.mapErr c hrevoke)

/-- A declared key is not revoked by a call that starts when its row is as declared. -/
theorem revokeKey_declared (e : ToUpsert) :
    Follows c (fun s => Declared d e (s.keyRow e.id)) (revokeKey d e.id) fun _ _ => True := by
  have hget : Follows c (fun s => Declared d e (s.keyRow e.id))
      (SqlMetadataStore.getKey d.codec e.id) fun r _ => ∀ existing, r = .ok existing →
        existing.any (fun row => row.origin = .config) = true := by
    refine follows_exec c (fun a _ => ∀ row, a = .ok row → Declared d e row)
      (fun _ _ _ _ h => h) (fun _ _ => .other _ (Or.inl rfl)) ?_ fun a => ?_
    · rintro s env a t hs hexec row rfl
      rw [read_ok (congrArg Prod.fst (Option.some.inj hexec))]
      exact hs
    · cases a with
      | error e => exact .ret fun _ _ _ h => by cases h
      | ok row =>
        refine .ret fun s hdeclared existing hexisting => ?_
        obtain ⟨r, rfl, hrow⟩ := hdeclared row rfl
        replace hexisting : decoded d.codec (some r) = .ok existing := hexisting
        simp only [decoded, rowToGatewayKey, d.codec.fromStr_toString _ _ hrow.scopes,
          Except.map] at hexisting
        cases hexisting
        simp [KeyColumns.row, hrow.origin]
  have hmapped : Follows c (fun s => Declared d e (s.keyRow e.id))
      (Fallible.mapErr (fun err => ApiError.storage (SqlError.text err))
        (SqlMetadataStore.getKey d.codec e.id)) fun r _ => ∀ existing, r = .ok existing →
          existing.any (fun row => row.origin = .config) = true := by
    refine Pool.Meets.mapErr (hget.strengthen fun r s h existing hexisting => ?_)
    cases r with
    | ok row =>
      cases hexisting
      exact h _ rfl
    | error err => cases hexisting
  refine Pool.Meets.andThen hmapped ?_ fun _ _ _ => trivial
  intro existing
  cases hany : existing.any fun row => row.origin = .config with
  | true =>
    exact .ret fun _ _ => trivial
  | false =>
    refine Pool.Meets.absurd fun s hs => ?_
    cases hany.symm.trans (hs existing rfl)

theorem list_quiet (projectId : String) : Quiet c (listKeys d.codec projectId) :=
  Quiet.andThen c (quiet_query c fun _ => .other _ (Or.inl rfl)) fun _ => quiet_ret c

theorem authenticate_quiet (headers : HeaderMap) : Quiet c (authenticate d headers) := by
  unfold authenticate
  split
  · exact quiet_ret c
  · refine Quiet.andThen c (Quiet.mapErr c (Quiet.andThen c (quiet_query c fun _ => .other _
      (Or.inl rfl)) fun _ => quiet_ret c)) fun found => ?_
    cases found with
    | none => exact quiet_ret c
    | some row =>
      exact Quiet.ite c (quiet_ret c) (follows_send c (fun _ _ => .other _ (Or.inl rfl))
        fun _ => quiet_ret c)

theorem touch_quiet (id : String) (ts : Int) : Quiet c (touchKeyLastUsed d.backend id ts) :=
  Quiet.andThen c (quiet_write c fun _ => .touch id ts) fun _ => quiet_ret c

/-! ### Convergence -/

/-- The replicas seed the one configuration. No admin key gets a declared id, and a declared key is
revoked only by calls that start when its row is as declared. -/
def SameConfig (c : Seeding d) (s : Keys) : Pool.Move Call SqlEnv → Prop
  | .start (.boot env keys order) | .start (.reload env keys order) => env = c.env ∧ keys = c.keys ∧
      HashMap.Iterates (SeedKeys.byProject d.defaultProjectId keys) order
  | .start (.create _ id _) => id ∉ c.ids
  | .start (.revoke id) => id ∉ c.ids ∨
      ∃ e ∈ c.toUpsert, e.id = id ∧ Declared d e (s.store.keyRow e.id)
  | _ => True

/-- What a call promises. -/
def Promise (c : Seeding d) (_ : Call) (out : Outcome) (s : SqlMetadataStore) : Prop :=
  out = .seeded (.ok ()) → Settled c s

theorem SameConfig.ready {s : Keys} {m : Pool.Move Call SqlEnv} (h : SameConfig c s m) :
    s.Ready SqlMetadataStore.exec (code d) (fun _ => false) (fun _ => c.Keeps) (Promise c) m := by
  have hother : ∀ {α : Type} {p : Program Statement Statement.Answer α} {f : α → Outcome} {call}
      {pre : SqlMetadataStore → Prop}, Stays c pre → pre s.store →
      (∀ a, f a ≠ .seeded (.ok ())) → Follows c pre p (fun _ _ => True) →
      Pool.Goes SqlMetadataStore.exec (fun _ => false) (fun _ => c.Keeps) false
        (Program.bind p fun r => .ret (f r)) (Promise c call) s.store :=
    fun hstays hpre hf hp => ⟨_, hstays, hpre, Pool.Meets.bind hp fun a =>
      .ret fun _ _ h => absurd h (hf a)⟩
  cases m with
  | turn i env => trivial
  | start call =>
    cases call with
    | boot env keys order =>
      obtain ⟨rfl, rfl, horder⟩ := h
      have hboot : Gets c (fun _ => True) (boot d c.env c.keys order) (Settled c) :=
        Pool.Meets.andThen (Quiet.mapErr c (seedDefaultProject_quiet c))
          (fun _ => apply_gets c horder) fun _ _ _ _ h => by cases h
      refine ⟨_, stays_true c, trivial, Pool.Meets.bind hboot fun r => .ret fun s hs hout => ?_⟩
      exact hs () (Outcome.seeded.inj hout)
    | reload env keys order =>
      obtain ⟨rfl, rfl, horder⟩ := h
      refine ⟨_, stays_true c, trivial,
        Pool.Meets.bind (apply_gets c horder) fun r => .ret fun s hs hout => ?_⟩
      exact hs () (Outcome.seeded.inj hout)
    | create req id secret =>
      exact hother (stays_true c) trivial (fun _ h => by cases h) (createKey_quiet c h)
    | revoke id =>
      obtain hid | ⟨e, he, rfl, hdeclared⟩ := h
      · exact hother (stays_true c) trivial (fun _ h => by cases h) (revokeKey_quiet c hid)
      · exact hother (stays_declared c he) hdeclared (fun _ h => by cases h)
          (revokeKey_declared c e)
    | list projectId =>
      exact hother (stays_true c) trivial (fun _ h => by cases h) (list_quiet c projectId)
    | authenticate headers =>
      exact hother (stays_true c) trivial (fun _ h => by cases h) (authenticate_quiet c headers)
    | touch id ts =>
      exact hother (f := fun _ => .touched) (stays_true c) trivial (fun _ h => by cases h)
        (touch_quiet c id ts)

/-- Once a seeding has succeeded the keys are settled, and they stay so whatever the replicas do
that seed the same configuration. -/
theorem seeding_converges {s₀ : SqlMetadataStore} {s : Keys}
    (hr : Reaches (step d) (SameConfig c) ⟨s₀, []⟩ s) {call : Call}
    (hdone : (call, Program.ret (.seeded (.ok ()))) ∈ s.running) : Settled c s.store := by
  obtain ⟨hkept, -⟩ := (Pool.Kept.start rfl).reaches (fun _ _ h => h)
    (fun s id => .refl c id _) (fun _ _ h => SameConfig.ready c h) hr
  exact hkept.returned hdone rfl

end

def sampleSeeding : Seeding (sampleDeployment .postgres) where
  env := fun _ => none
  keys := [SeedKeys.sampleDeclared "k" "default"]
  toUpsert := [⟨SeedKeys.sampleDeclared "k" "default", "sk-gw-live-k", prefixLive⟩]
  distinct := by decide
  resolved := by decide +kernel

def sampleReload : Pool.Move Call SqlEnv :=
  .start (.reload sampleSeeding.env sampleSeeding.keys [("default", ["k"])])

theorem sampleReload_same (s : Keys) : SameConfig sampleSeeding s sampleReload := by
  refine ⟨rfl, rfl, ?_⟩
  unfold HashMap.Iterates
  decide +kernel

def succeeded : Program Statement Statement.Answer Outcome → Bool
  | .ret (.seeded (.ok ())) => true
  | _ => false

theorem mem_of_succeeded {s : Keys} (h : s.running.any (fun e => succeeded e.2) = true) :
    ∃ call, (call, Program.ret (.seeded (.ok ()))) ∈ s.running := by
  obtain ⟨⟨call, p⟩, he, hp⟩ := List.any_eq_true.mp h
  unfold succeeded at hp
  split at hp
  · rename_i hret
    dsimp only at hret
    exact ⟨call, hret ▸ he⟩
  · cases hp

def refused : Program Statement Statement.Answer Outcome → Bool
  | .ret (.revoked (.error _)) => true
  | _ => false

def seedingTwice : List (Pool.Move Call SqlEnv) :=
  [sampleReload, sampleReload] ++ [0, 1, 0, 1, 0, 1, 0].map sampleTurn

theorem seedingTwice_same : ∀ m ∈ seedingTwice, ∀ s, SameConfig sampleSeeding s m := by
  intro m hm s
  rcases List.mem_append.mp hm with hstart | hturn
  · simp only [List.mem_cons, List.not_mem_nil, or_false, or_self] at hstart
    exact hstart ▸ sampleReload_same s
  · obtain ⟨i, -, rfl⟩ := List.mem_map.mp hturn
    trivial

/-- Two replicas seed at the same time. When the first is done, the second has a statement to go and
a revocation of the declared key starts, which is refused. -/
theorem seeding_converges_two : ∃ s t u, Reaches (step (sampleDeployment .postgres))
    (SameConfig sampleSeeding) ⟨sampleTables, []⟩ s ∧ Settled sampleSeeding s.store ∧
    step (sampleDeployment .postgres) s (.start (.revoke "k")) = some t ∧
    Reaches (step (sampleDeployment .postgres)) (SameConfig sampleSeeding) t u ∧
    u.running.any (fun e => refused e.2) = true ∧ Settled sampleSeeding u.store := by
  obtain ⟨u, hu, hends⟩ := Option.map_eq_some_iff.mp
    (show (((run (step (sampleDeployment .postgres)) ⟨sampleTables, []⟩ seedingTwice).filter
      fun s => s.running.any fun e => succeeded e.2).bind fun s =>
        (step (sampleDeployment .postgres) s (.start (.revoke "k"))).bind fun t =>
          run (step (sampleDeployment .postgres)) t ([2, 1].map sampleTurn)).map (fun u =>
            (u.running.any (fun e => succeeded e.2), u.running.any fun e => refused e.2)) =
      some (true, true) by decide +kernel)
  obtain ⟨s, hs, hrest⟩ := Option.bind_eq_some_iff.mp hu
  obtain ⟨hs, hdone⟩ := Option.filter_eq_some_iff.mp hs
  obtain ⟨t, ht, hu⟩ := Option.bind_eq_some_iff.mp hrest
  obtain ⟨hdone', hrefused⟩ := Prod.mk.inj hends
  have hr := Reaches.of_guarded_run _ seedingTwice_same .start hs
  obtain ⟨call, hcall⟩ := mem_of_succeeded hdone
  have hsettled := seeding_converges sampleSeeding hr hcall
  -- the row of the key is now as declared, so the revocation may start
  have hguard : SameConfig sampleSeeding s (.start (.revoke "k")) :=
    .inr ⟨_, List.mem_singleton_self _, rfl, hsettled.rows _ (List.mem_singleton_self _)⟩
  have htu : Reaches (step (sampleDeployment .postgres)) (SameConfig sampleSeeding) t u := by
    refine Reaches.of_guarded_run _ ?_ .start hu
    intro m hm _
    obtain ⟨i, -, rfl⟩ := List.mem_map.mp hm
    trivial
  obtain ⟨call', hcall'⟩ := mem_of_succeeded hdone'
  exact ⟨s, t, u, hr, hsettled, ht, htu, hrefused,
    seeding_converges sampleSeeding ((hr.next _ hguard ht).trans htu) hcall'⟩

end SharedKeys

end AiGateway.Api
