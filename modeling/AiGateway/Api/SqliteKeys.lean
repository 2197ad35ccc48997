import AiGateway.Api.SharedKeys

/-!
# The write lock of SQLite

Programs outside the lock write no key. The check of a seeded key and its write are inside, so that
the check still holds when the row is written.
-/

namespace AiGateway.Api
open AiGateway.Core AiGateway.Storage AiGateway.Library AiGateway.Library.Runs
open AiGateway.Library.Programs SqlMetadataStore

namespace SharedKeys

def NotAdmin (row : Option KeyColumns) : Prop := ∀ r, row = some r → r.origin = .config

/-- What a seeding writes for `k`. -/
def seededColumns (k : NewGatewayKey) (scopes : String) : KeyColumns :=
  (MemoryMetadataStore.newRow { k with origin := .config } 0).columns scopes

/-- A program outside the lock writes no key, and one inside keeps `P`. -/
def underLock (P : SqlMetadataStore → Prop) : Bool → SqlMetadataStore → SqlMetadataStore → Prop
  | true, s, t => t.keys = s.keys
  | false, s, t => P s → P t

abbrev Locked (P : SqlMetadataStore → Prop) {ρ : Type} (held : Bool) (pre : SqlMetadataStore → Prop)
    (p : Program Statement Statement.Answer ρ) : Prop :=
  Pool.Meets SqlMetadataStore.exec SqlMetadataStore.locked (underLock P) held pre p held
    fun _ _ => True

section
variable {P : SqlMetadataStore → Prop}

theorem query_outside {q : Statement} (hq : q.reads = true) :
    Locked P false (fun _ => True) (query q) := by
  refine .exec false (fun _ _ => True) (fun _ _ _ _ _ => trivial) ?_ fun _ => .ret fun _ _ => trivial
  intro s env a t _ hexec
  rw [exec_reads hq hexec]
  exact ⟨rfl, rfl, trivial⟩

theorem exec_inside {pre : SqlMetadataStore → Prop} {q : Statement} {ρ : Type}
    {next : q.Answer → Program Statement Statement.Answer ρ} (hlock : q ≠ .lock)
    (hunlock : q ≠ .unlock)
    (hq : ∀ s env a t, pre s → P s → SqlMetadataStore.exec q env s = some (a, t) → P t)
    (hnext : ∀ a, Locked P true (fun _ => True) (next a)) :
    Locked P true pre (.exec q next) := by
  refine .exec true (fun _ _ => True) (fun _ _ _ _ _ => trivial) ?_ hnext
  intro s env a t hpre hexec
  exact ⟨fun h => hq s env a t hpre h hexec, exec_locked hlock hunlock hexec, trivial⟩

theorem withWriteLock_outside {ρ : Type} {body : Program Statement Statement.Answer ρ}
    (hkeys : ∀ s t : SqlMetadataStore, t.keys = s.keys → P s → P t)
    (h : Locked P true (fun _ => True) body) :
    Locked P false (fun _ => True) (withWriteLock .sqlite body) := by
  refine .exec true (fun _ _ => True) (fun _ _ _ _ _ => trivial) ?_ fun _ => ?_
  · intro s env a t _ hexec
    simp only [SqlMetadataStore.exec] at hexec
    split at hexec
    · cases hexec
    · rename_i hfree
      cases hexec
      exact ⟨rfl, ⟨by simpa using hfree, rfl⟩, trivial⟩
  · refine Pool.Meets.bind h fun _ => ?_
    refine .exec false (fun _ _ => True) (fun _ _ _ _ _ => trivial) ?_
      fun _ => .ret fun _ _ => trivial
    intro s env a t _ hexec
    cases hexec
    exact ⟨hkeys _ _ rfl, rfl, trivial⟩

theorem checkedWrite_inside {codec : ScopesCodec} {k : NewGatewayKey} {scopes : String}
    (hseed : ∀ env (s : SqlMetadataStore) a t, P s → NotAdmin (s.keyRow k.id) →
      SqlMetadataStore.exec (.upsertKey (seededColumns k scopes)) env s = some (a, t) → P t) :
    Locked P true (fun _ => True) (checkedWrite codec k scopes) := by
  refine .exec true (fun a s => ∀ origin, a = .ok origin → origin ≠ some .admin →
    NotAdmin (s.keyRow k.id)) ?_ ?_ ?_
  · intro a s t hkeys h origin ha hne
    have hrow : t.keyRow k.id = s.keyRow k.id :=
      congrArg (fun keys => SqlTable.find keys k.id) hkeys
    rw [hrow]
    exact h origin ha hne
  · intro s env a t _ hexec
    obtain rfl := exec_reads rfl hexec
    refine ⟨fun h => h, rfl, ?_⟩
    rintro origin rfl hne r hr
    have hread := read_ok (congrArg Prod.fst (Option.some.inj hexec))
    rw [hr] at hread
    cases hcase : r.origin with
    | admin => exact absurd (hread.trans (congrArg some hcase)) hne
    | config => rfl
  · intro a
    cases a with
    | error e => exact .ret fun _ _ => trivial
    | ok existing =>
      change Locked P true _ (if existing.any (fun origin => origin ≠ .config) then _ else _ : Db _)
      split
      · exact .ret fun _ _ => trivial
      · rename_i hfree
        refine exec_inside (fun h => by cases h) (fun h => by cases h) ?_ fun a => ?_
        · intro s env a t hpre hP hexec
          refine hseed env s a t hP (hpre existing rfl ?_) hexec
          rintro rfl
          exact hfree rfl
        · cases a with
          | error e => exact .ret fun _ _ => trivial
          | ok _ =>
            refine exec_inside (fun h => by cases h) (fun h => by cases h)
              (fun s env a t _ h hexec => exec_reads rfl hexec ▸ h) fun a => ?_
            cases a with
            | error e => exact .ret fun _ _ => trivial
            | ok written =>
              cases written with
              | none => exact .ret fun _ _ => trivial
              | some r => exact .ret fun _ _ => trivial

end

/-- What the single writes keep, and the write of a seeded key where no admin key is, every run on
SQLite keeps. -/
theorem sqlite_keeps {d : Deployment} (hbackend : d.backend = .sqlite) {s₀ : SqlMetadataStore}
    (hfree : s₀.locked = false) {P : SqlMetadataStore → Prop}
    (hkeys : ∀ s t : SqlMetadataStore, t.keys = s.keys → P s → P t)
    (hwrite : ∀ q env (s : SqlMetadataStore) a t, Writes d.codec q → P s →
      SqlMetadataStore.exec q env s = some (a, t) → P t)
    (hseed : ∀ k scopes env (s : SqlMetadataStore) a t, d.codec.toString k.scopes = .ok scopes →
      P s → NotAdmin (s.keyRow k.id) →
        SqlMetadataStore.exec (.upsertKey (seededColumns k scopes)) env s = some (a, t) → P t)
    {s t : Keys} (hs : Reaches (step d) Always ⟨s₀, []⟩ s) (ht : Reaches (step d) Always s t)
    (hP : P s.store) : P t.store := by
  have hcode : ∀ call, Locked P false (fun _ => True) (code d call) := by
    refine code_induction d (fun p => Locked P false (fun _ => True) p) ?_ ?_ ?_ ?_ ?_
    · exact fun a => .ret fun _ _ => trivial
    · exact fun p f hp hf => Pool.Meets.bind hp hf
    · exact fun q hq => query_outside hq
    · intro q hq
      rw [hbackend]
      refine withWriteLock_outside hkeys (exec_inside ?_ ?_ ?_ fun _ => .ret fun _ _ => trivial)
      · rintro rfl
        cases hq
      · rintro rfl
        cases hq
      · exact fun s env a t _ h hexec => hwrite q env s a t hq h hexec
    · intro k
      rw [hbackend]
      unfold upsertSeededKey
      split
      · exact .ret fun _ _ => trivial
      · rename_i scopes hscopes
        exact withWriteLock_outside hkeys (checkedWrite_inside fun env s a t h hfree hexec =>
          hseed k scopes env s a t hscopes h hfree hexec)
  have hready : ∀ (s : Keys) (m : Pool.Move Call SqlEnv), Always s m →
      s.Ready SqlMetadataStore.exec (code d) SqlMetadataStore.locked (underLock P)
        (fun _ _ _ => True) m := by
    intro s m _
    cases m with
    | start call => exact ⟨fun _ => True, fun _ _ _ _ => trivial, trivial, hcode call⟩
    | turn i env => trivial
  have hrefl : ∀ s, underLock P false s s := fun _ h => h
  obtain ⟨hkept, -⟩ := (Pool.Kept.start hfree).reaches hkeys hrefl hready hs
  exact (hkept.reaches hkeys hrefl hready ht).2 P (fun _ _ h => h) hP

end SharedKeys

end AiGateway.Api
