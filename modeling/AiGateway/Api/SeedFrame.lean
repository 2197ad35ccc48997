import AiGateway.Api.SeedKeys

/-!
# What a seeding leaves alone, and what a failed one leaves behind

`seed_keys::apply` writes row by row, so a call can stop in the middle and other calls of
the store can fall between its own. Rows of admin keys are not touched by any of its steps;
rows of the configuration are rewritten as soon as their turn comes.
-/

namespace AiGateway.Api
open AiGateway.Core AiGateway.Storage AiGateway.Library
open MemoryMetadataStore

namespace SeedKeys

/-! ### Admin rows -/

def adminRow (s : MemoryMetadataStore) (id : String) : Option GatewayKeyRow :=
  (s.getKey id).filter fun row => row.origin ≠ .config

theorem adminRow_eq_some {s : MemoryMetadataStore} {id : String} {row : GatewayKeyRow} :
    adminRow s id = some row ↔ s.getKey id = some row ∧ row.origin ≠ .config := by
  unfold adminRow
  rw [Option.filter_eq_some_iff, decide_eq_true_eq]

theorem adminRow_eq_none {s : MemoryMetadataStore} {id : String}
    (h : s.adminOwned id = false) : adminRow s id = none := by
  unfold adminRow
  unfold adminOwned at h
  cases hrow : s.getKey id with
  | none => rfl
  | some row =>
    rw [hrow, Option.any_some] at h
    rw [Option.filter_some, h]
    rfl

theorem adminRow_putKey (s : MemoryMetadataStore) (row : GatewayKeyRow) (id : String) :
    adminRow (s.putKey row) id =
      if id = row.id then (if row.origin ≠ .config then some row else none) else adminRow s id := by
  unfold adminRow
  rw [getKey_putKey]
  split
  · rw [Option.filter_some]
    simp only [decide_eq_true_eq]
  · rfl

theorem adminRow_upsertSeededKey (s : MemoryMetadataStore) (k : NewGatewayKey) (now : Int)
    (id : String) : adminRow (s.upsertSeededKey k now).2 id = adminRow s id := by
  unfold upsertSeededKey
  split
  · rfl
  · rename_i howned
    rw [adminRow_putKey]
    split
    · rename_i hid
      have hnone : adminRow s k.id = none := adminRow_eq_none (Bool.eq_false_of_not_eq_true howned)
      rw [hid]
      exact hnone.symm
    · rfl

theorem adminRow_prune (s : MemoryMetadataStore) (projectId : String) (keepIds : List String)
    (id : String) : adminRow (s.pruneSeededKeysNotIn projectId keepIds) id = adminRow s id := by
  refine Option.ext fun row => ?_
  rw [adminRow_eq_some, adminRow_eq_some, getKey_prune, and_right_comm, and_iff_left_iff_imp]
  rintro ⟨-, horigin⟩
  simp [pruned, horigin]

section
variable (deriveHash : String → Bytes) (defaultProjectId : String)

theorem adminRow_upsertAll (now : ℕ → Int) (toUpsert : List ToUpsert) (s : MemoryMetadataStore)
    (id : String) :
    adminRow (upsertAll deriveHash defaultProjectId now toUpsert s).2 id = adminRow s id := by
  induction toUpsert generalizing s with
  | nil => rfl
  | cons e rest ih =>
    have hstep := adminRow_upsertSeededKey s (seededKey deriveHash defaultProjectId e)
      (now rest.length) id
    unfold upsertAll
    split
    · rename_i s' hout
      rw [hout] at hstep
      exact (ih s').trans hstep
    · rename_i s' hout
      rw [hout] at hstep
      exact hstep

theorem adminRow_pruneAll (order : List (String × List String)) (s : MemoryMetadataStore)
    (id : String) : adminRow (pruneAll order s) id = adminRow s id := by
  unfold pruneAll
  induction order generalizing s with
  | nil => rfl
  | cons e rest ih => exact (ih _).trans (adminRow_prune s e.1 e.2 id)

theorem adminRow_apply (env : String → Option String) (now : ℕ → Int)
    (order : List (String × List String)) (keys : List GatewayKeyConfig)
    (s : MemoryMetadataStore) (id : String) :
    adminRow (apply deriveHash defaultProjectId env now order keys s).2 id = adminRow s id := by
  unfold apply
  split
  · rfl
  · rename_i toUpsert hresolved
    have hwrites := adminRow_upsertAll deriveHash defaultProjectId now toUpsert s id
    split
    · rename_i e s' hout
      rw [hout] at hwrites
      exact hwrites
    · rename_i s' hout
      rw [hout] at hwrites
      unfold prune
      split
      · exact (adminRow_pruneAll order s' id).trans hwrites
      · rw [adminRow_prune]
        exact (adminRow_pruneAll order s' id).trans hwrites

/-- A step of a run: a whole call of `apply`, or one call of the store. The calls of the
store are those of the admin routes, of authentication, and of an `apply` in progress. -/
inductive SeedRunStep where
  | apply (env : String → Option String) (now : ℕ → Int) (order : List (String × List String))
      (keys : List GatewayKeyConfig)
  | upsertSeededKey (k : NewGatewayKey) (now : Int)
  | pruneSeededKeysNotIn (projectId : String) (keepIds : List String)
  | createKey (k : NewGatewayKey) (now : Int)
  | revokeKey (id : String) (now : Int)
  | touchKeyLastUsed (id : String) (ts : Int)

def seedRunStep (s : MemoryMetadataStore) : SeedRunStep → MemoryMetadataStore
  | .apply env now order keys => (apply deriveHash defaultProjectId env now order keys s).2
  | .upsertSeededKey k now => (s.upsertSeededKey k now).2
  | .pruneSeededKeysNotIn projectId keepIds => s.pruneSeededKeysNotIn projectId keepIds
  | .createKey k now => (s.createKey k now).2
  | .revokeKey id now => (s.revokeKey id now).2
  | .touchKeyLastUsed id ts => s.touchKeyLastUsed id ts

/-- `create_key`, `revoke_key` or `touch_key_last_used` of that id. -/
def SeedRunStep.changes (id : String) : SeedRunStep → Bool
  | .createKey k _ => k.id = id
  | .revokeKey id' _ => id' = id
  | .touchKeyLastUsed id' _ => id' = id
  | _ => false

theorem adminRow_putKey_of_ne (s : MemoryMetadataStore) {row : GatewayKeyRow} {id : String}
    (hne : ¬row.id = id) : adminRow (s.putKey row) id = adminRow s id := by
  rw [adminRow_putKey, if_neg fun h => hne h.symm]

theorem adminRow_seedRunStep (s : MemoryMetadataStore) (step : SeedRunStep) (id : String)
    (hkeep : step.changes id = false) :
    adminRow (seedRunStep deriveHash defaultProjectId s step) id = adminRow s id := by
  cases step with
  | apply env now order keys =>
    exact adminRow_apply deriveHash defaultProjectId env now order keys s id
  | upsertSeededKey k now => exact adminRow_upsertSeededKey s k now id
  | pruneSeededKeysNotIn projectId keepIds => exact adminRow_prune s projectId keepIds id
  | createKey k now =>
    have hne : ¬k.id = id := of_decide_eq_false hkeep
    exact adminRow_putKey_of_ne s hne
  | revokeKey id' now =>
    have hne : ¬id' = id := of_decide_eq_false hkeep
    show adminRow (s.revokeKey id' now).2 id = adminRow s id
    unfold revokeKey
    split
    · rename_i row hrow
      exact adminRow_putKey_of_ne s (by simpa [getKey_id hrow] using hne)
    · rfl
  | touchKeyLastUsed id' ts =>
    have hne : ¬id' = id := of_decide_eq_false hkeep
    show adminRow (s.touchKeyLastUsed id' ts) id = adminRow s id
    unfold touchKeyLastUsed
    split
    · rename_i row hrow
      exact adminRow_putKey_of_ne s (by simpa [getKey_id hrow] using hne)
    · rfl

/-- No call of `apply`, failed or not, adds, changes or removes an admin row; over a run an
admin row changes only in a step that creates, revokes or touches its id. -/
theorem apply_keeps_adminRows :
    (∀ env now order keys s id,
      adminRow (apply deriveHash defaultProjectId env now order keys s).2 id = adminRow s id) ∧
    ∀ (steps : List SeedRunStep) s id, (∀ step ∈ steps, step.changes id = false) →
      adminRow (steps.foldl (seedRunStep deriveHash defaultProjectId) s) id = adminRow s id := by
  constructor
  · intro env now order keys s id
    exact adminRow_apply deriveHash defaultProjectId env now order keys s id
  · intro steps
    induction steps with
    | nil => exact fun s id _ => rfl
    | cons step rest ih =>
      intro s id hkeep
      have hrest := ih (seedRunStep deriveHash defaultProjectId s step) id
        fun step' hmem => hkeep step' (List.mem_cons_of_mem _ hmem)
      exact hrest.trans (adminRow_seedRunStep deriveHash defaultProjectId s step id
        (hkeep step (List.mem_cons_self ..)))

end

/- A seeding that writes `a` and then fails on `ops`, which an admin key has. -/
def adminOps : MemoryMetadataStore :=
  MemoryMetadataStore.empty.putKey ⟨"ops", "default", "ops", prefixLive, [], "", [], .active, none,
    none, 0, none, .admin⟩

def conflictingKeys : List GatewayKeyConfig :=
  [sampleDeclared "a" "default", sampleDeclared "ops" "default"]

theorem apply_keeps_adminRows_conflict :
    adminRow ([.apply (fun _ => none) (fun _ => 1) [("default", ["a", "ops"])] conflictingKeys,
        .touchKeyLastUsed "a" 5].foldl (seedRunStep asBytes "default") adminOps) "ops" =
      adminRow adminOps "ops" :=
  (apply_keeps_adminRows asBytes "default").2 _ adminOps "ops" (by simp [SeedRunStep.changes])

/-! ### What a failed call has written -/

/-- The row is the one that `upsert_seeded_key` makes of `k` with the times it had. -/
def StoredAs (s : MemoryMetadataStore) (k : NewGatewayKey) : Prop :=
  ∃ row, s.getKey k.id = some row ∧
    row = { newRow k row.createdAt with lastUsedAt := row.lastUsedAt }

/-- The last declaration of its id in a list. -/
def LastDeclared (es : List ToUpsert) (e : ToUpsert) : Prop :=
  ∃ pre post, es = pre ++ e :: post ∧ e.id ∉ post.map ToUpsert.id

theorem lastDeclared_exists {es : List ToUpsert} {id : String} (h : id ∈ es.map ToUpsert.id) :
    ∃ e, LastDeclared es e ∧ e.id = id := by
  induction es with
  | nil => cases h
  | cons e rest ih =>
    by_cases hrest : id ∈ rest.map ToUpsert.id
    · obtain ⟨e', ⟨pre, post, hsplit, hlast⟩, hid⟩ := ih hrest
      exact ⟨e', ⟨e :: pre, post, congrArg (e :: ·) hsplit, hlast⟩, hid⟩
    · have hid : id = e.id := by
        rw [List.map_cons, List.mem_cons] at h
        exact h.resolve_right hrest
      exact ⟨e, ⟨[], rest, rfl, hid ▸ hrest⟩, hid.symm⟩

theorem lastDeclared_cons {e e' : ToUpsert} {rest : List ToUpsert}
    (h : LastDeclared (e :: rest) e') :
    LastDeclared rest e' ∨ e' = e ∧ e.id ∉ rest.map ToUpsert.id := by
  obtain ⟨pre, post, hsplit, hlast⟩ := h
  cases pre with
  | nil =>
    cases hsplit
    exact Or.inr ⟨rfl, hlast⟩
  | cons e₁ pre =>
    cases hsplit
    exact Or.inl ⟨pre, post, rfl, hlast⟩

/-- Writing a row of the config over none or over one of the config leaves the owners of ids. -/
theorem adminOwned_putKey_config {s : MemoryMetadataStore} {row : GatewayKeyRow}
    (hconfig : row.origin = .config) (howned : s.adminOwned row.id = false) (id : String) :
    (s.putKey row).adminOwned id = s.adminOwned id := by
  by_cases hid : id = row.id
  · rw [hid, howned]
    unfold adminOwned
    rw [getKey_putKey, if_pos rfl, Option.any_some, hconfig]
    rfl
  · exact adminOwned_putKey_of_ne hid

theorem written_congr {s s' : MemoryMetadataStore} (h : ∀ id, s'.adminOwned id = s.adminOwned id)
    (es : List ToUpsert) : written s' es = written s es := by
  unfold written
  simp only [h]

section
variable (deriveHash : String → Bytes) (defaultProjectId : String) (now : ℕ → Int)

/-- The rows after the second pass: an id is left alone, or its row is that of its last
declaration with the times of the row that was there. -/
theorem upsertAll_getKey (toUpsert : List ToUpsert) (s : MemoryMetadataStore) :
    (∀ id, id ∉ (written s toUpsert).map ToUpsert.id →
      (upsertAll deriveHash defaultProjectId now toUpsert s).2.getKey id = s.getKey id) ∧
    ∀ e, LastDeclared (written s toUpsert) e → ∃ row,
      (upsertAll deriveHash defaultProjectId now toUpsert s).2.getKey e.id = some row ∧
      row = { newRow (seededKey deriveHash defaultProjectId e) row.createdAt with
        lastUsedAt := row.lastUsedAt } ∧
      ∀ old, s.getKey e.id = some old →
        row.createdAt = old.createdAt ∧ row.lastUsedAt = old.lastUsedAt := by
  induction toUpsert generalizing s with
  | nil =>
    refine ⟨fun id _ => rfl, ?_⟩
    rintro e ⟨pre, post, hsplit, -⟩
    cases pre <;> cases hsplit
  | cons e rest ih =>
    cases howned : s.adminOwned e.id with
    | true =>
      obtain ⟨err, hstop⟩ := upsertAll_owned deriveHash defaultProjectId now howned rest
      rw [written_owned howned, hstop]
      refine ⟨fun id _ => rfl, ?_⟩
      rintro e' ⟨pre, post, hsplit, -⟩
      cases pre <;> cases hsplit
    | false =>
      rw [upsertAll_free deriveHash defaultProjectId now howned]
      generalize hrow : s.seededRow (seededKey deriveHash defaultProjectId e) (now rest.length) = row
      have hid : row.id = e.id := by
        rw [← hrow]
        rfl
      have hconfig : row.origin = .config := by
        rw [← hrow]
        rfl
      have hwritten : written (s.putKey row) rest = written s rest :=
        written_congr (adminOwned_putKey_config hconfig (hid ▸ howned)) rest
      obtain ⟨hframe, hlast⟩ := ih (s.putKey row)
      rw [hwritten] at hframe hlast
      rw [written_cons howned]
      constructor
      · intro id hmem
        rw [List.map_cons, List.mem_cons, not_or] at hmem
        refine (hframe id hmem.2).trans ?_
        rw [getKey_putKey, if_neg fun h => hmem.1 (h.trans hid)]
      · intro e' he'
        rcases lastDeclared_cons he' with htail | ⟨rfl, hfresh⟩
        · obtain ⟨row', hrow', hshape, htimes⟩ := hlast e' htail
          refine ⟨row', hrow', hshape, fun old hold => ?_⟩
          by_cases hsame : e'.id = e.id
          · -- an earlier declaration of the id kept the times
            have hput : (s.putKey row).getKey e'.id = some row := by
              rw [getKey_putKey, if_pos (hsame.trans hid.symm)]
            obtain ⟨hcreated, hused⟩ := htimes row hput
            rw [hsame] at hold
            have hold' : s.getKey (seededKey deriveHash defaultProjectId e).id = some old := hold
            rw [hcreated, hused, ← hrow]
            simp [seededRow, hold']
          · refine htimes old ?_
            rw [getKey_putKey, if_neg fun h => hsame (h.trans hid)]
            exact hold
        · refine ⟨row, ?_, ?_, fun old hold => ?_⟩
          · refine (hframe e'.id hfresh).trans ?_
            rw [getKey_putKey, if_pos hid.symm]
          · rw [← hrow]
            rfl
          · have hold' : s.getKey (seededKey deriveHash defaultProjectId e').id = some old := hold
            rw [← hrow]
            simp [seededRow, hold']

theorem upsertAll_ok_iff (toUpsert : List ToUpsert) (s : MemoryMetadataStore) :
    (upsertAll deriveHash defaultProjectId now toUpsert s).1 = .ok () ↔
      ∀ e ∈ toUpsert, s.adminOwned e.id = false := by
  induction toUpsert generalizing s with
  | nil => exact ⟨fun _ e he => absurd he List.not_mem_nil, fun _ => rfl⟩
  | cons e rest ih =>
    cases howned : s.adminOwned e.id with
    | true =>
      obtain ⟨err, hstop⟩ := upsertAll_owned deriveHash defaultProjectId now howned rest
      rw [hstop]
      simp [howned]
    | false =>
      have hsame := @adminOwned_putKey_config s (s.seededRow
        (seededKey deriveHash defaultProjectId e) (now rest.length)) rfl howned
      rw [upsertAll_free deriveHash defaultProjectId now howned]
      refine (ih _).trans ?_
      simp only [hsame, List.forall_mem_cons, howned, true_and]

theorem upsertAll_unchanged_iff (toUpsert : List ToUpsert) (s : MemoryMetadataStore) :
    (upsertAll deriveHash defaultProjectId now toUpsert s).2.keys = s.keys ↔
      ∀ e, LastDeclared (written s toUpsert) e →
        StoredAs s (seededKey deriveHash defaultProjectId e) := by
  obtain ⟨hframe, hlast⟩ := upsertAll_getKey deriveHash defaultProjectId now toUpsert s
  constructor
  · intro hsame e he
    obtain ⟨row, hrow, hshape, -⟩ := hlast e he
    refine ⟨row, ?_, hshape⟩
    unfold getKey at hrow ⊢
    rw [← hsame]
    exact hrow
  · intro hstored
    refine Finmap.ext_lookup fun id => ?_
    by_cases hid : id ∈ (written s toUpsert).map ToUpsert.id
    · obtain ⟨e, he, rfl⟩ := lastDeclared_exists hid
      obtain ⟨row, hrow, hshape, htimes⟩ := hlast e he
      obtain ⟨old, hold, holdShape⟩ := hstored e he
      obtain ⟨hcreated, hused⟩ := htimes old hold
      have heq : row = old := by
        rw [hshape, hcreated, hused]
        exact holdShape.symm
      exact hrow.trans (heq ▸ hold.symm)
    · exact hframe id hid

/-- A call that fails leaves the rows as they were. -/
def AllOrNothing (env : String → Option String) (order : List (String × List String))
    (keys : List GatewayKeyConfig) (s : MemoryMetadataStore) : Prop :=
  ∀ e, (apply deriveHash defaultProjectId env now order keys s).1 = .error e →
    (apply deriveHash defaultProjectId env now order keys s).2.keys = s.keys

/-- When an admin key has a declared id, what is declared before that id is stored already. -/
def StoredBeforeConflict (env : String → Option String) (keys : List GatewayKeyConfig)
    (s : MemoryMetadataStore) : Prop :=
  ∀ toUpsert, resolveKeys env keys = .ok toUpsert → (∃ e ∈ toUpsert, s.adminOwned e.id = true) →
    ∀ e, LastDeclared (written s toUpsert) e → StoredAs s (seededKey deriveHash defaultProjectId e)

/-- The validation pass sees bad secrets and no conflicts, so a conflict is found behind
the writes of the keys before it. -/
theorem apply_allOrNothing_iff (env : String → Option String) (order : List (String × List String))
    (keys : List GatewayKeyConfig) (s : MemoryMetadataStore) :
    AllOrNothing deriveHash defaultProjectId now env order keys s ↔
      StoredBeforeConflict deriveHash defaultProjectId env keys s := by
  unfold AllOrNothing StoredBeforeConflict
  cases hresolved : resolveKeys env keys with
  | error e =>
    refine iff_of_true ?_ nofun
    intro e' _
    unfold apply
    rw [hresolved]
  | ok toUpsert =>
    have hok := upsertAll_ok_iff deriveHash defaultProjectId now toUpsert s
    have hsame := upsertAll_unchanged_iff deriveHash defaultProjectId now toUpsert s
    simp only [Except.ok.injEq, forall_eq', apply, hresolved]
    cases hout : upsertAll deriveHash defaultProjectId now toUpsert s with
    | mk result s' =>
      rw [hout] at hok hsame
      cases result with
      | ok u =>
        have hfree := hok.mp rfl
        refine iff_of_true nofun ?_
        rintro ⟨e, he, howned⟩
        cases (hfree e he).symm.trans howned
      | error e =>
        have hconflict : ∃ e ∈ toUpsert, s.adminOwned e.id = true := by
          by_contra hnone
          have hfree : ∀ e ∈ toUpsert, s.adminOwned e.id = false := fun e he =>
            Bool.eq_false_of_not_eq_true fun h => hnone ⟨e, he, h⟩
          cases hok.mpr hfree
        constructor
        · intro hall _
          exact hsame.mp (hall e rfl)
        · intro hstored _ _
          exact hsame.mpr (hstored hconflict)

end

theorem apply_half_applied :
    ¬AllOrNothing asBytes "default" (fun _ => 1) (fun _ => none) [("default", ["a", "ops"])]
      conflictingKeys adminOps := by
  intro hall
  have hfailed : (apply asBytes "default" (fun _ => none) (fun _ => 1) [("default", ["a", "ops"])]
      conflictingKeys adminOps).1 = .error ("upsert gateway_keys[id=ops] failed: " ++
        "conflict: gateway key 'ops' is admin-managed; rename the config-seeded key") := by
    decide +kernel
  -- the key in front of the conflict has a row now
  have ha := congrArg (fun keys : HashMap String GatewayKeyRow => (keys.lookup "a").isSome)
    (hall _ hfailed)
  revert ha
  decide +kernel

end SeedKeys

end AiGateway.Api
