import AiGateway.Api.KeyRevocation

/-!
# The SQLite tables and the in-memory store

In every run on SQLite the key table holds the rows of a state that the in-memory store reaches by
whole calls of its methods, and a read answers what the in-memory store would.
-/

namespace AiGateway.Storage.MemoryMetadataStore

/-- `order` is how `keys` iterates. -/
def listKeys (order : List (String × GatewayKeyRow)) (projectId : String) : List GatewayKeyRow :=
  (order.map Prod.snd).filter fun k => k.projectId = projectId

end AiGateway.Storage.MemoryMetadataStore

namespace AiGateway.Api
open AiGateway.Core AiGateway.Storage AiGateway.Library AiGateway.Library.Runs
open AiGateway.Library.Programs SqlMetadataStore

namespace SharedKeys

/-- A row of the table and the row of the store under the same id. -/
inductive RowTracks (codec : ScopesCodec) : Option KeyColumns → Option GatewayKeyRow → Prop where
  | none : RowTracks codec none none
  | some (row : GatewayKeyRow) (scopes : String) (h : codec.toString row.scopes = .ok scopes) :
      RowTracks codec (some (row.columns scopes)) (some row)

def Tracks (codec : ScopesCodec) (s : SqlMetadataStore) (m : MemoryMetadataStore) : Prop :=
  ∀ id, RowTracks codec (s.keyRow id) (m.getKey id)

section
variable {codec : ScopesCodec} {s t : SqlMetadataStore} {m : MemoryMetadataStore}

/-! ### Writes -/

/-- A write to the row of one id, on both sides. -/
theorem Tracks.put (h : Tracks codec s m) {row : GatewayKeyRow} {scopes : String}
    (hscopes : codec.toString row.scopes = .ok scopes)
    (hself : t.keyRow row.id = some (row.columns scopes))
    (hother : ∀ id, id ≠ row.id → t.keyRow id = s.keyRow id) : Tracks codec t (m.putKey row) := by
  intro id
  rw [MemoryMetadataStore.getKey_putKey]
  split
  · rename_i hid
    rw [hid, hself]
    exact .some row scopes hscopes
  · rename_i hid
    rw [hother id hid]
    exact h id

theorem Tracks.same (h : Tracks codec s m) (hrow : ∀ id, t.keyRow id = s.keyRow id) :
    Tracks codec t m := by
  intro id
  rw [hrow id]
  exact h id

/-- An update of the row under `id`, when the in-memory store has `row` there. -/
theorem Tracks.update (h : Tracks codec s m) {id : String} {f : KeyColumns → KeyColumns}
    {g : GatewayKeyRow → GatewayKeyRow} {hid : ∀ r, (f r).id = r.id}
    {hproject : ∀ r, (f r).projectId = r.projectId} (hg : ∀ row, (g row).id = row.id)
    (hscopes : ∀ row, (g row).scopes = row.scopes)
    (hfg : ∀ (row : GatewayKeyRow) scopes, f (row.columns scopes) = (g row).columns scopes)
    {row : GatewayKeyRow} (hrow : m.getKey id = some row) :
    Tracks codec (s.updateKey id f hid hproject).2 (m.putKey (g row)) := by
  have hsame : row.id = id := MemoryMetadataStore.getKey_id hrow
  have htracks := h id
  rw [hrow] at htracks
  generalize hold : s.keyRow id = old at htracks
  cases htracks with
  | some _ scopes hcodec =>
    have hsaved : codec.toString (g row).scopes = .ok scopes :=
      (congrArg codec.toString (hscopes row)).trans hcodec
    refine h.put hsaved ?_ ?_
    · rw [hg, hsame, keyRow_updateKey, if_pos rfl, hold, ← hfg]
      rfl
    · intro id' hne
      rw [keyRow_updateKey, if_neg]
      rw [← hsame, ← hg]
      exact hne

/-- An update finds no row when the in-memory store has none. -/
theorem Tracks.absent (h : Tracks codec s m) {id : String} {f : KeyColumns → KeyColumns}
    {hid : ∀ r, (f r).id = r.id} {hproject : ∀ r, (f r).projectId = r.projectId}
    (hnone : m.getKey id = none) : Tracks codec (s.updateKey id f hid hproject).2 m := by
  have htracks := h id
  rw [hnone] at htracks
  refine h.same fun id' => ?_
  rw [keyRow_updateKey]
  split
  · rename_i heq
    rw [heq]
    generalize s.keyRow id = old at htracks
    cases htracks with
    | none => rfl
  · rfl

theorem Tracks.prune (h : Tracks codec s m) {projectId : String} {keepIds : List String} :
    Tracks codec (s.deleteSeeded projectId keepIds).2
      (m.pruneSeededKeysNotIn projectId keepIds) := by
  intro id
  have htracks := h id
  have hsql : ∀ r, (s.deleteSeeded projectId keepIds).2.keyRow id = some r ↔ _ :=
    fun r => keyRow_deleteSeeded
  have hmemory : ∀ r, (m.pruneSeededKeysNotIn projectId keepIds).getKey id = some r ↔ _ :=
    fun r => MemoryMetadataStore.getKey_prune
  generalize (s.deleteSeeded projectId keepIds).2.keyRow id = left at hsql ⊢
  generalize (m.pruneSeededKeysNotIn projectId keepIds).getKey id = right at hmemory ⊢
  generalize s.keyRow id = old at hsql htracks
  generalize m.getKey id = row at hmemory htracks
  cases htracks with
  | none =>
    have hleft : left = none := Option.eq_none_iff_forall_ne_some.mpr fun r hr => by
      cases ((hsql r).mp hr).1
    have hright : right = none := Option.eq_none_iff_forall_ne_some.mpr fun r hr => by
      cases ((hmemory r).mp hr).1
    rw [hleft, hright]
    exact .none
  | some row scopes hcodec =>
    cases hgone : MemoryMetadataStore.pruned projectId keepIds row with
    | false =>
      rw [(hsql _).mpr ⟨rfl, hgone⟩, (hmemory _).mpr ⟨rfl, hgone⟩]
      exact .some row scopes hcodec
    | true =>
      have hleft : left = none := Option.eq_none_iff_forall_ne_some.mpr fun r hr => by
        obtain ⟨heq, hkept⟩ := (hsql r).mp hr
        cases heq
        exact Bool.noConfusion (hgone.symm.trans hkept)
      have hright : right = none := Option.eq_none_iff_forall_ne_some.mpr fun r hr => by
        obtain ⟨heq, hkept⟩ := (hmemory r).mp hr
        cases heq
        exact Bool.noConfusion (hgone.symm.trans hkept)
      rw [hleft, hright]
      exact .none

/-- Each write that is sent alone is one call of the in-memory store, or none. -/
theorem Tracks.write (h : Tracks codec s m) {q : Statement} (hq : Writes codec q) {env : SqlEnv}
    {a : q.Answer} (hexec : SqlMetadataStore.exec q env s = some (a, t)) :
    ∃ m', Reaches keyStep Always m m' ∧ Tracks codec t m' := by
  cases hq with
  | insertProject id name =>
    refine ⟨m, .start, h.same fun id' => ?_⟩
    have hrow := exec_row hexec id'
    generalize s.keyRow id' = old, t.keyRow id' = new at hrow
    cases hrow with
    | same => rfl
  | insertKey k scopes hscopes =>
    obtain ⟨rfl, -⟩ | ⟨b, hresult, -⟩ := write_cases (Option.some.inj hexec)
    · exact ⟨m, .start, h⟩
    · obtain ⟨⟨_, t'⟩, hinsert, hb⟩ := Option.map_eq_some_iff.mp hresult
      cases hb
      have hrow := keyRow_insertKey hinsert
      have hfresh : m.getKey k.id = none := by
        have hempty : s.keyRow k.id = none := (hrow k.id).1
        have htracks := h k.id
        rw [hempty] at htracks
        generalize m.getKey k.id = row at htracks
        cases htracks with
        | none => rfl
      refine ⟨m.putKey (MemoryMetadataStore.newRow k env.clock),
        .next (.createKey k env.clock) .start trivial ?_,
        h.put hscopes ((hrow k.id).2.trans (if_pos rfl))
          fun id hne => (hrow id).2.trans (if_neg hne)⟩
      simp [keyStep, hfresh, MemoryMetadataStore.createKey]
  | setRevoked id =>
    obtain ⟨rfl, -⟩ | ⟨b, hresult, -⟩ := write_cases (Option.some.inj hexec)
    · exact ⟨m, .start, h⟩
    · have ht : t = (s.setRevoked id env.clock).2 := by rw [Option.some.inj hresult]
      rw [ht]
      refine ⟨(m.revokeKey id env.clock).2,
        .next (.revokeKey id env.clock) .start trivial rfl, ?_⟩
      unfold MemoryMetadataStore.revokeKey
      split
      · rename_i row hrow
        exact h.update (g := fun row => { row with status := .revoked, revokedAt := some env.clock })
          (fun _ => rfl) (fun _ => rfl) (fun _ _ => rfl) hrow
      · rename_i hnone
        exact h.absent hnone
  | setLastUsed id ts =>
    obtain ⟨rfl, -⟩ | ⟨b, hresult, -⟩ := write_cases (Option.some.inj hexec)
    · exact ⟨m, .start, h⟩
    · have ht : t = (s.setLastUsed id ts).2 := by rw [Option.some.inj hresult]
      rw [ht]
      refine ⟨m.touchKeyLastUsed id ts, .next (.touchKeyLastUsed id ts) .start trivial rfl, ?_⟩
      unfold MemoryMetadataStore.touchKeyLastUsed
      split
      · rename_i row hrow
        exact h.update (g := fun row => { row with lastUsedAt := some ts })
          (fun _ => rfl) (fun _ => rfl) (fun _ _ => rfl) hrow
      · rename_i hnone
        exact h.absent hnone
  | deleteSeeded projectId keepIds =>
    obtain ⟨rfl, -⟩ | ⟨b, hresult, -⟩ := write_cases (Option.some.inj hexec)
    · exact ⟨m, .start, h⟩
    · have ht : t = (s.deleteSeeded projectId keepIds).2 := by rw [Option.some.inj hresult]
      rw [ht]
      exact ⟨m.pruneSeededKeysNotIn projectId keepIds,
        .next (.pruneSeededKeysNotIn projectId keepIds) .start trivial rfl, h.prune⟩

/-- A seeded key is written where no admin key is. -/
theorem Tracks.seed (h : Tracks codec s m) {k : NewGatewayKey} {scopes : String}
    (hscopes : codec.toString k.scopes = .ok scopes) (hfree : NotAdmin (s.keyRow k.id))
    {env : SqlEnv} {a : Except SqlError Unit}
    (hexec : SqlMetadataStore.exec (.upsertKey (seededColumns k scopes)) env s = some (a, t)) :
    ∃ m', Reaches keyStep Always m m' ∧ Tracks codec t m' := by
  obtain ⟨rfl, -⟩ | ⟨⟨⟩, hresult, -⟩ := write_cases (Option.some.inj hexec)
  · exact ⟨m, .start, h⟩
  · have hrow := keyRow_upsertKey hresult
    have hold := h k.id
    have howned : m.adminOwned k.id = false := by
      unfold MemoryMetadataStore.adminOwned
      generalize hkeyRow : s.keyRow k.id = old at hold
      generalize m.getKey k.id = row at hold
      cases hold with
      | none => rfl
      | some row scopes hcodec =>
        have horigin : row.origin = .config := hfree _ hkeyRow
        simp [horigin]
    refine ⟨m.putKey (m.seededRow k env.clock),
      .next (.upsertSeededKey k env.clock) .start trivial ?_, h.put hscopes ?_
        fun id hne => (hrow id).trans (if_neg hne)⟩
    · simp [keyStep, MemoryMetadataStore.upsertSeededKey, howned]
    · refine (hrow k.id).trans ((if_pos rfl).trans ?_)
      change some ((s.keyRow k.id).elim _ (KeyColumns.seeded
        { seededColumns k scopes with createdAt := env.clock })) = _
      unfold MemoryMetadataStore.seededRow
      generalize hkeyRow : s.keyRow k.id = old at hold hfree
      generalize hgetKey : m.getKey k.id = row at hold
      cases hold with
      | none => rfl
      | some row scopes' hcodec =>
        have horigin : row.origin = .config := hfree _ rfl
        have hid : row.id = k.id := MemoryMetadataStore.getKey_id hgetKey
        simp [KeyColumns.seeded, GatewayKeyRow.columns, horigin, hid, seededColumns,
          MemoryMetadataStore.newRow]

/-! ### Reads -/

/-- The row that columns with readable scopes hold. -/
def valueOf (codec : ScopesCodec) (r : KeyColumns) : GatewayKeyRow :=
  r.row ((codec.fromStr r.scopes).toOption.getD [])

theorem Tracks.stored (h : Tracks codec s m) {r : KeyColumns} (hr : r ∈ s.keys.rows) :
    m.getKey r.id = some (valueOf codec r) ∧ rowToGatewayKey codec r = .ok (valueOf codec r) := by
  have htracks := h r.id
  rw [show s.keyRow r.id = some r from SqlTable.find_of_mem hr] at htracks
  generalize m.getKey r.id = old at htracks
  cases htracks with
  | some row scopes hcodec =>
    have hvalue : valueOf codec (row.columns scopes) = row := by
      simp [valueOf, GatewayKeyRow.columns, KeyColumns.row, codec.fromStr_toString _ _ hcodec,
        Except.toOption]
    rw [hvalue]
    exact ⟨rfl, rowToGatewayKey_columns hcodec⟩

/-- A walk over the table, as one over the map. -/
def walk (codec : ScopesCodec) (rows : List KeyColumns) : List (String × GatewayKeyRow) :=
  rows.map fun r => (r.id, valueOf codec r)

theorem walk_snd (codec : ScopesCodec) (rows : List KeyColumns) :
    (walk codec rows).map Prod.snd = rows.map (valueOf codec) := by
  rw [walk, List.map_map]
  rfl

theorem Tracks.iterates (h : Tracks codec s m) (n : ℕ) :
    HashMap.Iterates m.keys (walk codec (s.keys.rows.rotate n)) := by
  refine HashMap.iterates_of_mem ?_ fun id row => ?_
  · rw [walk, List.map_map]
    change ((s.keys.rows.rotate n).map KeyColumns.id).Nodup
    rw [List.map_rotate, List.nodup_rotate]
    exact s.keys.distinct
  · simp only [walk, List.mem_map, List.mem_rotate]
    constructor
    · rintro ⟨r, hr, heq⟩
      cases heq
      exact (h.stored hr).1
    · intro hrow
      have hgetKey : m.getKey id = some row := hrow
      have htracks := h id
      rw [hgetKey] at htracks
      generalize hkeyRow : s.keyRow id = old at htracks
      cases htracks with
      | some _ scopes hcodec =>
        have hmem : row.columns scopes ∈ s.keys.rows := SqlTable.mem_of_find hkeyRow
        have hid : (row.columns scopes).id = id := MemoryMetadataStore.getKey_id hgetKey
        have hvalue := (h.stored hmem).1
        rw [hid, hgetKey] at hvalue
        exact ⟨_, hmem, by rw [hid, ← Option.some.inj hvalue]⟩

/-- What a statement answers, beside the in-memory store. -/
def Answers (codec : ScopesCodec) (m : MemoryMetadataStore) : (q : Statement) → q.Answer → Prop
  | .selectKey id, a => ∀ row, a = .ok row → decoded codec row = .ok (m.getKey id)
  | .selectKeyByHash hash, a => ∀ row, a = .ok row →
    ∃ order, HashMap.Iterates m.keys order ∧
      decoded codec row = .ok (MemoryMetadataStore.findKeyByHash order hash)
  | .selectKeysByProject projectId, a => ∀ rows, a = .ok rows →
    ∃ order listed, HashMap.Iterates m.keys order ∧
      rows.mapM (rowToGatewayKey codec) = .ok listed ∧
      listed.Perm (MemoryMetadataStore.listKeys order projectId) ∧
      listed.Pairwise fun a b => b.createdAt ≤ a.createdAt
  | .selectOrigin id, a => ∀ origin, a = .ok origin →
    origin = (m.getKey id).map GatewayKeyRow.origin
  | .setRevoked id, a => ∀ affected, a = .ok affected → (affected = 0 ↔ m.getKey id = none)
  | _, _ => True

theorem Tracks.decoded (h : Tracks codec s m) (id : String) :
    decoded codec (s.keyRow id) = .ok (m.getKey id) := by
  have htracks := h id
  generalize s.keyRow id = old, m.getKey id = row at htracks
  cases htracks with
  | none => rfl
  | some row scopes hcodec =>
    simp [SqlMetadataStore.decoded, rowToGatewayKey_columns hcodec, Except.map]

theorem mapM_stored {rows : List KeyColumns}
    (h : ∀ r ∈ rows, rowToGatewayKey codec r = .ok (valueOf codec r)) :
    rows.mapM (rowToGatewayKey codec) = .ok (rows.map (valueOf codec)) := by
  induction rows with
  | nil => rfl
  | cons r rows ih =>
    rw [List.mapM_cons, h r (List.mem_cons_self ..), ih fun r hr => h r (List.mem_cons_of_mem _ hr)]
    rfl

theorem Tracks.findKeyByHash (h : Tracks codec s m) (n : ℕ) (hash : Bytes) :
    SqlMetadataStore.decoded codec ((s.keys.rows.rotate n).find? fun r => r.hash = hash) =
      .ok (MemoryMetadataStore.findKeyByHash (walk codec (s.keys.rows.rotate n)) hash) := by
  have hsame : (fun r => decide ((valueOf codec r).hash = hash)) =
      fun r : KeyColumns => decide (r.hash = hash) := rfl
  rw [MemoryMetadataStore.findKeyByHash, walk_snd, List.find?_map, Function.comp_def, hsame]
  cases hfound : (s.keys.rows.rotate n).find? fun r => r.hash = hash with
  | none => rfl
  | some r =>
    have hmem : r ∈ s.keys.rows := List.mem_rotate.mp (List.mem_of_find?_eq_some hfound)
    simp [SqlMetadataStore.decoded, (h.stored hmem).2, Except.map]

theorem Tracks.listKeys (h : Tracks codec s m) (n : ℕ) (projectId : String) {rows : List KeyColumns}
    (hrows : rows.Perm ((s.keys.rows.rotate n).filter fun r => r.projectId = projectId)) :
    rows.mapM (rowToGatewayKey codec) = .ok (rows.map (valueOf codec)) ∧
      (rows.map (valueOf codec)).Perm
        (MemoryMetadataStore.listKeys (walk codec (s.keys.rows.rotate n)) projectId) := by
  constructor
  · refine mapM_stored fun r hr => ?_
    have hmem := List.mem_of_mem_filter (hrows.mem_iff.mp hr)
    exact (h.stored (List.mem_rotate.mp hmem)).2
  · rw [MemoryMetadataStore.listKeys, walk_snd, List.filter_map]
    exact hrows.map _

theorem Tracks.affected (h : Tracks codec s m) (id : String) :
    (s.keyRow id).toList.length = 0 ↔ m.getKey id = none := by
  have htracks := h id
  generalize s.keyRow id = old, m.getKey id = row at htracks
  cases htracks with
  | none => simp
  | some row scopes hcodec => simp

theorem Tracks.answers (h : Tracks codec s m) {q : Statement} {env : SqlEnv} {a : q.Answer}
    (hexec : SqlMetadataStore.exec q env s = some (a, t)) : Answers codec m q a := by
  cases q with
  | selectKey id =>
    rintro row rfl
    rw [read_ok (congrArg Prod.fst (Option.some.inj hexec))]
    exact h.decoded id
  | selectKeyByHash hash =>
    rintro row rfl
    rw [read_ok (congrArg Prod.fst (Option.some.inj hexec))]
    exact ⟨_, h.iterates env.order, h.findKeyByHash env.order hash⟩
  | selectKeysByProject projectId =>
    rintro rows rfl
    have hread := read_ok (congrArg Prod.fst (Option.some.inj hexec))
    have hperm : rows.Perm
        ((s.keys.rows.rotate env.order).filter fun r => r.projectId = projectId) :=
      hread ▸ List.mergeSort_perm _ _
    have hsorted : rows.Pairwise fun a b => decide (b.createdAt ≤ a.createdAt) = true := by
      rw [hread]
      refine List.pairwise_mergeSort ?_ ?_ _
      · intro a b c hab hbc
        simp only [decide_eq_true_eq] at hab hbc ⊢
        omega
      · intro a b
        simp only [Bool.or_eq_true, decide_eq_true_eq]
        omega
    obtain ⟨hmapM, hlisted⟩ := h.listKeys env.order projectId hperm
    refine ⟨_, _, h.iterates env.order, hmapM, hlisted, List.pairwise_map.mpr ?_⟩
    exact hsorted.imp fun hab => of_decide_eq_true hab
  | selectOrigin id =>
    rintro origin rfl
    rw [read_ok (congrArg Prod.fst (Option.some.inj hexec))]
    have htracks := h id
    generalize s.keyRow id = old, m.getKey id = row at htracks
    cases htracks with
    | none => rfl
    | some row scopes hcodec => rfl
  | setRevoked id =>
    rintro affected rfl
    obtain ⟨-, e, he⟩ | ⟨b, hresult, hb⟩ := write_cases (Option.some.inj hexec)
    · cases he
    · have hcount : affected = (s.keyRow id).toList.length :=
        (hb affected rfl).trans (congrArg Prod.fst (Option.some.inj hresult)).symm
      rw [hcount]
      exact h.affected id
  | _ => trivial

end

/-! ### Runs -/

/-- Whatever the calls on SQLite do, the in-memory store can follow them, and answers alike. -/
theorem sqlite_refines_memory {d : Deployment} (hbackend : d.backend = .sqlite)
    {s₀ : SqlMetadataStore} (hfree : s₀.locked = false) {s t : Keys}
    (hs : Reaches (step d) Always ⟨s₀, []⟩ s) {m : MemoryMetadataStore}
    (hm : Tracks d.codec s.store m) (ht : Reaches (step d) Always s t) :
    ∃ m', Reaches keyStep Always m m' ∧ Tracks d.codec t.store m' ∧
      ∀ q env a u, SqlMetadataStore.exec q env t.store = some (a, u) → Answers d.codec m' q a := by
  have hfollows : ∀ {v w : SqlMetadataStore},
      (∀ m, Tracks d.codec v m → ∃ m', Reaches keyStep Always m m' ∧ Tracks d.codec w m') →
      (∃ m', Reaches keyStep Always m m' ∧ Tracks d.codec v m') →
        ∃ m', Reaches keyStep Always m m' ∧ Tracks d.codec w m' := by
    rintro v w hnext ⟨m₁, hreach, htracks⟩
    obtain ⟨m₂, hmore, htracks'⟩ := hnext m₁ htracks
    exact ⟨m₂, hreach.trans hmore, htracks'⟩
  obtain ⟨m', hreach, htracks⟩ := sqlite_keeps hbackend hfree
    (P := fun v => ∃ m', Reaches keyStep Always m m' ∧ Tracks d.codec v m')
    (fun v w hkeys => hfollows fun m' h => ⟨m', .start, h.same fun id =>
      congrArg (fun keys => SqlTable.find keys id) hkeys⟩)
    (fun q env v a w hq h hexec => hfollows (fun m' h => h.write hq hexec) h)
    (fun k scopes env v a w hscopes h hfree hexec =>
      hfollows (fun m' h => h.seed hscopes hfree hexec) h)
    hs ht ⟨m, .start, hm⟩
  exact ⟨m', hreach, htracks, fun q env a u hexec => htracks.answers hexec⟩

def sampleCalls : List (Pool.Move Call SqlEnv) :=
  [.start (.create ⟨"laptop", "live", none, [], none⟩ "a" "secret"),
    .start (.reload (fun _ => none) [SeedKeys.sampleDeclared "k" "default"] [("default", ["k"])]),
    .start (.revoke "a")]

/-- The key "a" is made, a seeding writes the key "k" and the key "a" is revoked. -/
theorem sqlite_refines_memory_sample : ∃ t m', run (step (sampleDeployment .sqlite))
      ⟨sampleTables, []⟩ (sampleCalls ++ [0, 0, 2, 0, 1, 1, 1, 1, 1, 2, 2, 2].map sampleTurn) =
        some t ∧
      statusOf "a" t = some (.revoked, .admin) ∧ statusOf "k" t = some (.active, .config) ∧
        Reaches keyStep Always .empty m' ∧ Tracks sampleScopes t.store m' ∧
          ∀ q env a u, SqlMetadataStore.exec q env t.store = some (a, u) →
            Answers sampleScopes m' q a := by
  obtain ⟨t, ht, hat⟩ := Option.map_eq_some_iff.mp
    (show (run (step (sampleDeployment .sqlite)) ⟨sampleTables, []⟩
      (sampleCalls ++ [0, 0, 2, 0, 1, 1, 1, 1, 1, 2, 2, 2].map sampleTurn)).map
        (fun t => (statusOf "a" t, statusOf "k" t)) =
          some (some (.revoked, .admin), some (.active, .config)) by decide +kernel)
  have hempty : Tracks sampleScopes sampleTables .empty := fun _ => .none
  obtain ⟨m', hm'⟩ := sqlite_refines_memory (d := sampleDeployment .sqlite) rfl rfl .start hempty
    (Reaches.of_run _ .start ht)
  exact ⟨t, m', ht, congrArg Prod.fst hat, congrArg Prod.snd hat, hm'⟩

end SharedKeys

end AiGateway.Api
