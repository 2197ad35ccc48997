import AiGateway.Api.SqliteKeys

/-!
# Revocation while replicas share the key tables

`upsert_seeded_key` selects the origin of a row and then writes it. In between another replica can
create and revoke an admin key under the same id, and the write would make it active again. Under
the write lock of SQLite nothing comes in between.
-/

namespace AiGateway.Api
open AiGateway.Core AiGateway.Storage AiGateway.Library AiGateway.Library.Runs
open AiGateway.Library.Programs SqlMetadataStore

namespace SharedKeys

/-- The row of `id` is an admin key that has been revoked. -/
def RevokedRow (id : String) (s : SqlMetadataStore) : Prop :=
  ∃ row, s.keyRow id = some row ∧ row.status = .revoked ∧ row.origin = .admin

/-- The write of a seeded key under `id`. -/
def upserts (id : String) : Statement → Prop
  | .upsertKey row => row.id = id
  | _ => False

/-- The answer that lets it be written. -/
def sawNoAdmin (id : String) : (q : Statement) → q.Answer → Prop
  | .selectOrigin id', a => id' = id ∧ ∃ origin, a = .ok origin ∧ origin ≠ some KeyOrigin.admin
  | _, _ => False

section
variable {id : String} {q : Statement} {env : SqlEnv} {s t : SqlMetadataStore} {a : q.Answer}

theorem RevokedRow.exec (hq : ¬ upserts id q) (h : RevokedRow id s)
    (hexec : SqlMetadataStore.exec q env s = some (a, t)) : RevokedRow id t := by
  obtain ⟨row, hrow, hstatus, horigin⟩ := h
  have hstep := exec_row hexec id
  rw [hrow] at hstep
  unfold RevokedRow
  generalize t.keyRow id = new at hstep
  cases hstep with
  | same => exact ⟨row, rfl, hstatus, horigin⟩
  | revoked => exact ⟨_, rfl, rfl, horigin⟩
  | touched ts => exact ⟨_, rfl, hstatus, horigin⟩
  | seeded row' hid => exact absurd hid hq
  | pruned projectId keepIds old hold => simp [prunable, horigin] at hold

theorem RevokedRow.not_cleared (h : RevokedRow id s)
    (hexec : SqlMetadataStore.exec q env s = some (a, t)) : ¬ sawNoAdmin id q a := by
  obtain ⟨row, hrow, -, horigin⟩ := h
  intro hclear
  cases q with
  | selectOrigin id' =>
    obtain ⟨rfl, origin, rfl, hne⟩ := hclear
    have hread := read_ok (congrArg Prod.fst (Option.some.inj hexec))
    rw [hrow] at hread
    exact hne (hread.trans (congrArg some horigin))
  | _ => exact hclear

end

/-! ### The check before the write -/

section
variable {id : String} {backend : SqlBackend} {codec : ScopesCodec}

theorem withWriteLock_checked {ρ : Type} {body : Program Statement Statement.Answer ρ}
    (h : body.Checked (upserts id) (sawNoAdmin id) ∧ ¬ body.At (upserts id)) :
    (withWriteLock backend body).Checked (upserts id) (sawNoAdmin id) ∧
      ¬ (withWriteLock backend body).At (upserts id) := by
  cases backend with
  | postgres => exact h
  | sqlite =>
    refine ⟨fun _ => ⟨Program.Checked.bind h.1 ?_, ?_⟩, not_false⟩
    · exact fun _ => ⟨fun _ => ⟨trivial, False.elim⟩, not_false⟩
    · exact fun hat => absurd hat (Program.At.bind h.2 fun _ => not_false)

theorem upsertSeededKey_checked (k : NewGatewayKey) :
    (upsertSeededKey backend codec k).Checked (upserts id) (sawNoAdmin id) ∧
      ¬ (upsertSeededKey backend codec k).At (upserts id) := by
  unfold upsertSeededKey
  split
  · exact ⟨trivial, not_false⟩
  refine withWriteLock_checked ⟨?_, not_false⟩
  intro a
  cases a with
  | error e => exact ⟨trivial, False.elim⟩
  | ok existing =>
    change Program.Checked (upserts id) (sawNoAdmin id)
        (if existing.any (fun origin => origin ≠ .config) then _ else _ : Db GatewayKeyRow) ∧
      (Program.At (upserts id)
        (if existing.any (fun origin => origin ≠ .config) then _ else _ : Db GatewayKeyRow) → _)
    split
    · exact ⟨trivial, False.elim⟩
    · rename_i hfree
      refine ⟨?_, fun hid => ⟨hid, existing, rfl, ?_⟩⟩
      · intro a
        cases a with
        | error e => exact ⟨trivial, False.elim⟩
        | ok _ =>
          refine ⟨fun a => ?_, False.elim⟩
          cases a with
          | error e => exact ⟨trivial, False.elim⟩
          | ok written =>
            cases written with
            | none => exact ⟨trivial, False.elim⟩
            | some r => exact ⟨trivial, False.elim⟩
      · rintro rfl
        exact hfree rfl

theorem code_checked (d : Deployment) (call : Call) :
    (code d call).Checked (upserts id) (sawNoAdmin id) ∧ ¬ (code d call).At (upserts id) := by
  have hquery : ∀ q, ¬ upserts id q →
      (query q).Checked (upserts id) (sawNoAdmin id) ∧ ¬ (query q).At (upserts id) := by
    intro q hq
    exact ⟨fun _ => ⟨trivial, False.elim⟩, hq⟩
  refine code_induction d (fun p => p.Checked (upserts id) (sawNoAdmin id) ∧ ¬ p.At (upserts id))
    ?_ ?_ ?_ ?_ ?_ call
  · intro α a
    exact ⟨trivial, not_false⟩
  · intro α β p f hp hf
    exact ⟨hp.1.bind hf, Program.At.bind hp.2 fun a => (hf a).2⟩
  · intro q hq
    refine hquery q ?_
    cases q with
    | upsertKey row => cases hq
    | _ => exact not_false
  · intro q hq
    refine withWriteLock_checked (hquery q ?_)
    cases hq with
    | _ => exact not_false
  · intro k
    exact upsertSeededKey_checked k

end

/-! ### Requests -/

theorem rowToGatewayKey_ok {codec : ScopesCodec} {r : KeyColumns} {row : GatewayKeyRow}
    (h : rowToGatewayKey codec r = .ok row) :
    row.id = r.id ∧ row.projectId = r.projectId ∧ row.status = r.status := by
  unfold rowToGatewayKey at h
  split at h
  · cases h
  · cases h
    exact ⟨rfl, rfl, rfl⟩

theorem admit_canReturn {found : Option GatewayKeyRow} {p : GatewayKeyPrincipal}
    (h : Program.CanReturn (authorize found) (.ok p)) :
    ∃ row, found = some row ∧ row.status = .active ∧ p = ⟨row.id, row.projectId⟩ := by
  cases found with
  | none => cases h
  | some row =>
    obtain ⟨-, hthrow⟩ | ⟨hactive, now, hnow⟩ := Fallible.canReturn_ite h
    · cases hthrow
    · refine ⟨row, rfl, not_not.mp hactive, ?_⟩
      replace hnow : Except.ok p = accept row now := hnow
      unfold accept at hnow
      split at hnow
      · cases hnow
      · exact Except.ok.inj hnow

/-- A request is let through only as the key whose active row its look-up answered. -/
theorem authenticate_next (d : Deployment) (headers : HeaderMap) :
    (∃ a, code d (.authenticate headers) = .ret a) ∨
      ∃ token next, code d (.authenticate headers) =
          .exec (.selectKeyByHash (d.deriveHash token)) next ∧
        ∀ a p, (next a).CanReturn (.principal (.ok p)) →
          ∃ r, a = .ok (some r) ∧ p.keyId = r.id ∧ r.status = .active := by
  simp only [code, authenticate]
  split
  · exact Or.inl ⟨_, rfl⟩
  · rename_i token _
    refine Or.inr ⟨token, _, rfl, ?_⟩
    intro a p hreturn
    cases a with
    | error e => cases hreturn
    | ok found =>
      cases found with
      | none => cases hreturn
      | some r =>
        refine ⟨r, rfl, ?_⟩
        obtain ⟨res, hres, hp⟩ := Program.CanReturn.bind hreturn
        cases hp
        cases hrow : rowToGatewayKey d.codec r with
        | error e =>
          simp [Program.bind, decoded, hrow, Except.map, Except.mapError, Program.CanReturn] at hres
        | ok row =>
          simp only [Program.bind, decoded, hrow, Except.map, Except.mapError] at hres
          obtain ⟨row', hsome, hactive, hp⟩ := admit_canReturn hres
          cases hsome
          obtain ⟨hid, -, hstatus⟩ := rowToGatewayKey_ok hrow
          exact ⟨by rw [hp, hid], hstatus ▸ hactive⟩

theorem exec_selectKeyByHash {hash : Bytes} {env : SqlEnv} {s t : SqlMetadataStore} {r : KeyColumns}
    (h : SqlMetadataStore.exec (.selectKeyByHash hash) env s = some (.ok (some r), t)) :
    s.keyRow r.id = some r ∧ r.hash = hash := by
  have hfind := (read_ok (congrArg Prod.fst (Option.some.inj h))).symm
  have hmem := List.mem_of_find?_eq_some hfind
  rw [List.mem_rotate] at hmem
  exact ⟨SqlTable.find_of_mem hmem, by simpa using List.find?_some hfind⟩

/-- No request whose look-up comes next is let through as the key `id`. -/
def Denies (d : Deployment) (id : String) (t : Keys) : Prop :=
  ∀ i headers env u call rest p,
    t.running[i]? = some (.authenticate headers, code d (.authenticate headers)) →
      step d t (.turn i env) = some u → u.running[i]? = some (call, rest) →
        rest.CanReturn (.principal (.ok p)) → p.keyId ≠ id

theorem RevokedRow.denies {d : Deployment} {id : String} {t : Keys} (h : RevokedRow id t.store) :
    Denies d id t := by
  intro i headers env u call rest p hi hstep hrest hreturn heq
  obtain ⟨_, hmove, -⟩ | ⟨_, _, _, q, next, a, store, hmove, hq, hexec, rfl⟩ :=
    Pool.step_cases hstep
  · cases hmove
  · cases hmove
    have hlt := (List.getElem?_eq_some_iff.mp hi).1
    have hcode := congrArg Prod.snd (Option.some.inj (hi.symm.trans hq))
    have hnext := congrArg Prod.snd (Option.some.inj ((List.getElem?_set_self hlt).symm.trans hrest))
    dsimp only at hcode hnext
    rw [← hnext] at hreturn
    obtain ⟨b, hret⟩ | ⟨token, next', hlookup, hactive⟩ := authenticate_next d headers
    · cases hret.symm.trans hcode
    · cases hlookup.symm.trans hcode
      obtain ⟨r, rfl, hid, hstatus⟩ := hactive a p hreturn
      obtain ⟨row, hrow, hrevoked, -⟩ := h
      have hfound := (exec_selectKeyByHash hexec).1
      rw [← hid, heq, hrow] at hfound
      cases hfound
      cases hstatus.symm.trans hrevoked

/-- A revoked admin key stays revoked, and no later request is let through as it, whatever the
replicas do, if no seeding is about to write a key under its id. -/
theorem revocation_stays (d : Deployment) {id : String} {s₀ : SqlMetadataStore} {s t : Keys}
    (hs : Reaches (step d) Always ⟨s₀, []⟩ s) (hrevoked : RevokedRow id s.store)
    (hdue : ∀ e ∈ s.running, ¬ e.2.At (upserts id)) (ht : Reaches (step d) Always s t) :
    RevokedRow id t.store ∧ Denies d id t := by
  have hchecked : ∀ e ∈ s.running, e.2.Checked (upserts id) (sawNoAdmin id) :=
    Pool.checked_of_reaches (fun call => (code_checked d call).1) hs
  obtain ⟨hstill, -⟩ := Pool.check_then_act (P := RevokedRow id)
    (fun _ _ _ _ _ hq h hexec => h.exec hq hexec) (fun _ _ _ _ _ h hexec => h.not_cleared hexec)
    (code_checked d) hchecked hdue hrevoked ht
  exact ⟨hstill, hstill.denies⟩

/-- An admin creates and revokes a key, as the calls `i` and `i + 1` of a run on Postgres. -/
def createAndRevoke (i : ℕ) : List (Pool.Move Call SqlEnv) :=
  [.start (.create ⟨"laptop", "live", none, [], none⟩ "k" "secret"), sampleTurn i,
    .start (.revoke "k"), sampleTurn (i + 1), sampleTurn (i + 1)]

def sampleRun (moves : List (Pool.Move Call SqlEnv)) : Option Keys :=
  run (step (sampleDeployment .postgres)) ⟨sampleTables, []⟩ moves

def statusOf (id : String) (s : Keys) : Option (KeyStatus × KeyOrigin) :=
  (s.store.keyRow id).map fun row => (row.status, row.origin)

theorem revokedRow_of_status {id : String} {s : Keys}
    (h : statusOf id s = some (.revoked, .admin)) : RevokedRow id s.store := by
  obtain ⟨row, hrow, hpair⟩ := Option.map_eq_some_iff.mp h
  exact ⟨row, hrow, congrArg Prod.fst hpair, congrArg Prod.snd hpair⟩

def returned (s : Keys) : Bool :=
  s.running.all fun e =>
    match e.2 with
    | .ret _ => true
    | .exec _ _ => false

theorem not_at_of_returned {s : Keys} (h : returned s = true) {acts : Statement → Prop} :
    ∀ e ∈ s.running, ¬ e.2.At acts := by
  intro e he hat
  have hret := List.all_eq_true.mp h e he
  cases hp : e.2 with
  | ret a =>
    rw [hp] at hat
    exact hat
  | exec q next =>
    rw [hp] at hret
    cases hret

/-- A reload whose configuration declares the id, as the call `2`: it stops at the conflict. -/
def reloadDeclared : List (Pool.Move Call SqlEnv) :=
  [.start (.reload (fun _ => none) [SeedKeys.sampleDeclared "k" "default"] [("default", ["k"])]),
    sampleTurn 2]

theorem revocation_stays_sample : ∃ s t, sampleRun (createAndRevoke 0) = some s ∧
    run (step (sampleDeployment .postgres)) s reloadDeclared = some t ∧ returned t = true ∧
      RevokedRow "k" t.store ∧ Denies (sampleDeployment .postgres) "k" t := by
  obtain ⟨s, hs, hat⟩ := Option.map_eq_some_iff.mp
    (show (sampleRun (createAndRevoke 0)).map (fun s => (statusOf "k" s, returned s,
        (run (step (sampleDeployment .postgres)) s reloadDeclared).map returned)) =
      some (some (.revoked, .admin), true, some true) by decide +kernel)
  obtain ⟨t, ht, hreturned⟩ := Option.map_eq_some_iff.mp (congrArg (·.2.2) hat)
  exact ⟨s, t, hs, ht, hreturned, revocation_stays _ (Reaches.of_run _ .start hs)
    (revokedRow_of_status (congrArg (·.1) hat)) (not_at_of_returned (congrArg (·.2.1) hat))
    (Reaches.of_run _ .start ht)⟩

/-- A seeding that has checked the id before the admin key existed makes the revoked key active. -/
theorem revocation_undone : ∃ s t, Reaches (step (sampleDeployment .postgres)) Always
    ⟨sampleTables, []⟩ s ∧ RevokedRow "k" s.store ∧
      Reaches (step (sampleDeployment .postgres)) Always s t ∧
        statusOf "k" t = some (.active, .admin) := by
  obtain ⟨s, hs, hat⟩ := Option.map_eq_some_iff.mp
    (show (sampleRun ([.start (.reload (fun _ => none) [SeedKeys.sampleDeclared "k" "default"]
      [("default", ["k"])]), sampleTurn 0] ++ createAndRevoke 1)).map
        (fun s => (statusOf "k" s, (step (sampleDeployment .postgres) s (sampleTurn 0)).map
          (statusOf "k"))) = some (some (.revoked, .admin), some (some (.active, .admin))) by
      decide +kernel)
  obtain ⟨t, hstep, ht⟩ := Option.map_eq_some_iff.mp (congrArg Prod.snd hat)
  exact ⟨s, t, Reaches.of_run _ .start hs, revokedRow_of_status (congrArg Prod.fst hat),
    .next (sampleTurn 0) .start trivial hstep, ht⟩

/-! ### Under the write lock -/

/-- On SQLite a revoked admin key stays revoked in every continuation of every run. -/
theorem sqlite_revocation_permanent {d : Deployment} (hbackend : d.backend = .sqlite) {id : String}
    {s₀ : SqlMetadataStore} (hfree : s₀.locked = false) {s t : Keys}
    (hs : Reaches (step d) Always ⟨s₀, []⟩ s) (hrevoked : RevokedRow id s.store)
    (ht : Reaches (step d) Always s t) : RevokedRow id t.store ∧ Denies d id t := by
  have hkeys : ∀ s t : SqlMetadataStore, t.keys = s.keys → RevokedRow id s → RevokedRow id t := by
    rintro s t hkeys ⟨row, hrow, hrest⟩
    refine ⟨row, ?_, hrest⟩
    rw [← hrow]
    exact congrArg (fun keys => SqlTable.find keys id) hkeys
  have hwrite : ∀ q env (s : SqlMetadataStore) a t, Writes d.codec q → RevokedRow id s →
      SqlMetadataStore.exec q env s = some (a, t) → RevokedRow id t := by
    intro q env s a t hq h hexec
    refine h.exec ?_ hexec
    cases hq with
    | _ => exact not_false
  have hstill := sqlite_keeps hbackend hfree hkeys hwrite ?_ hs ht hrevoked
  · exact ⟨hstill, hstill.denies⟩
  · intro k scopes env s a t _ h hfree hexec
    refine h.exec ?_ hexec
    intro hid
    obtain ⟨row, hrow, -, horigin⟩ := h
    replace hid : k.id = id := hid
    cases horigin.symm.trans (hfree row (hid ▸ hrow))

/-- A seeding of the same id is under way. -/
theorem sqlite_revocation_permanent_sample : ∃ s t,
    run (step (sampleDeployment .sqlite)) ⟨sampleTables, []⟩
      [.start (.create ⟨"laptop", "live", none, [], none⟩ "k" "secret"), sampleTurn 0, sampleTurn 0,
        sampleTurn 0, .start (.revoke "k"), sampleTurn 1, sampleTurn 1, sampleTurn 1, sampleTurn 1,
        .start (.reload (fun _ => none) [SeedKeys.sampleDeclared "k" "default"]
          [("default", ["k"])]), sampleTurn 2] = some s ∧
      Reaches (step (sampleDeployment .sqlite)) Always s t ∧ RevokedRow "k" t.store ∧
        Denies (sampleDeployment .sqlite) "k" t := by
  obtain ⟨s, hs, hat⟩ := Option.map_eq_some_iff.mp
    (show (run (step (sampleDeployment .sqlite)) ⟨sampleTables, []⟩
      [.start (.create ⟨"laptop", "live", none, [], none⟩ "k" "secret"), sampleTurn 0, sampleTurn 0,
        sampleTurn 0, .start (.revoke "k"), sampleTurn 1, sampleTurn 1, sampleTurn 1, sampleTurn 1,
        .start (.reload (fun _ => none) [SeedKeys.sampleDeclared "k" "default"]
          [("default", ["k"])]), sampleTurn 2]).map (statusOf "k") =
      some (some (.revoked, .admin)) by decide +kernel)
  have ht : Reaches (step (sampleDeployment .sqlite)) Always s _ :=
    .next (.start (.touch "k" 9)) .start trivial rfl
  exact ⟨s, _, hs, ht, sqlite_revocation_permanent rfl rfl (Reaches.of_run _ .start hs)
    (revokedRow_of_status hat) ht⟩

end SharedKeys

end AiGateway.Api
