import AiGateway.Api.RateRuns

/-!
# Concurrency slots (`gateway-storage/src/memory/mod.rs:604-631`, `traits.rs:93-112`)

The runs of `Limiter` together with any other callers of `try_acquire_concurrency`,
with every permit ever handed out. A permit holds its release closure until `drop`
takes it. Whose it is and how often its closure has run are recorded beside it; the
code keeps neither.
-/

namespace AiGateway.Api
open AiGateway.Library.Runs AiGateway.Core AiGateway.Storage

structure PermitObject where
  -- the request that acquired it, `none` for any other caller
  owner : Option ℕ
  release : Option ConcurrencyPermit
  runs : ℕ
  deriving DecidableEq

def PermitObject.new (owner : Option ℕ) (permit : ConcurrencyPermit) : PermitObject :=
  ⟨owner, some permit, 0⟩

/-- `Drop`: the closure is taken out and run. -/
def PermitObject.drop (o : PermitObject) (store : MemoryCounterStore) :
    PermitObject × MemoryCounterStore :=
  match o.release with
  | some permit => (⟨o.owner, none, o.runs + 1⟩, store.release permit)
  | none => (o, store)

/-- The closure of a permit that request `i` still holds. -/
def PermitObject.heldBy (i : ℕ) (o : PermitObject) : Option ConcurrencyPermit :=
  if o.owner = some i then o.release else none

/-- A request drops its permits in the order in which it acquired them. -/
def dropFirst (i : ℕ) : List PermitObject → List PermitObject
  | [] => []
  | o :: os =>
    if (o.heldBy i).isSome then ⟨o.owner, none, o.runs + 1⟩ :: os else o :: dropFirst i os

def Phase.acquired? (store : MemoryCounterStore) : Phase → Option ConcurrencyPermit
  | .checking (.concurrency scope cap :: _) _ _ =>
    (store.tryAcquireConcurrency ("conc:" ++ scope) cap).1
  | _ => none

def Phase.dropped? : Phase → Option ConcurrencyPermit
  | .dropping (permit :: _) => some permit
  | _ => none

structure Slots where
  limiter : Limiter
  objects : List PermitObject

inductive SlotMove where
  | request (m : Move)
  | acquire (key : String) (max : UInt32)
  -- a caller that is not a request drops the `n`-th permit
  | drop (n : ℕ)

/-- The permits after a move of the requests. -/
def Slots.track (s : Slots) : Move → List PermitObject
  | .advance i =>
    match s.limiter.requests[i]? with
    | some phase =>
      (if phase.dropped?.isSome then dropFirst i s.objects else s.objects) ++
        ((phase.acquired? s.limiter.store).map (.new (some i))).toList
    | none => s.objects
  | _ => s.objects

def Slots.step (s : Slots) : SlotMove → Option Slots
  | .request m => (s.limiter.step m).map fun limiter => ⟨limiter, s.track m⟩
  | .acquire key max =>
    let (permit, store) := s.limiter.store.tryAcquireConcurrency key max
    some ⟨{ s.limiter with store }, s.objects ++ (permit.map (.new none)).toList⟩
  | .drop n =>
    match s.objects[n]? with
    | some o =>
      if o.owner = none then
        let (o, store) := o.drop s.limiter.store
        some ⟨{ s.limiter with store }, s.objects.set n o⟩
      else none
    | none => none

def Slots.init : Slots := ⟨.init, []⟩

/-- The number of live permits for a key. -/
def Slots.live (s : Slots) (key : String) : ℕ := (s.objects.filterMap PermitObject.release).count ⟨key⟩

/-- The permits that request `i` holds, oldest first. -/
def Slots.heldBy (s : Slots) (i : ℕ) : List ConcurrencyPermit :=
  s.objects.filterMap (PermitObject.heldBy i)

def Limiter.permitsOf (s : Limiter) (i : ℕ) : List ConcurrencyPermit :=
  (s.requests[i]?.map Phase.permits).getD []

/-- What every run keeps about the counts, the holders and the closures. -/
structure Slots.Exact (s : Slots) : Prop where
  count : ∀ key, s.limiter.store.concurrency key = s.live key
  held : ∀ i, s.heldBy i = s.limiter.permitsOf i
  once : ∀ o ∈ s.objects, o.runs = if o.release.isSome then 0 else 1
  inU32 : ∀ key, s.limiter.store.concurrency key < 4294967296

/-! ### What one operation does -/

theorem tryAcquire_isSome (store : MemoryCounterStore) (key : String) (max : UInt32) :
    (store.tryAcquireConcurrency key max).1.isSome = true ↔ store.concurrency key < max.toNat := by
  unfold MemoryCounterStore.tryAcquireConcurrency
  split
  · rename_i hfull
    exact ⟨fun h => (by cases h), fun h => absurd h (Nat.not_lt.mpr hfull)⟩
  · rename_i hroom
    exact ⟨fun _ => Nat.not_le.mp hroom, fun _ => rfl⟩

theorem tryAcquire_concurrency (store : MemoryCounterStore) (key : String) (max : UInt32)
    (k : String) :
    (store.tryAcquireConcurrency key max).2.concurrency k =
        store.concurrency k + (store.tryAcquireConcurrency key max).1.toList.count ⟨k⟩ ∧
      (store.concurrency k < 4294967296 →
        (store.tryAcquireConcurrency key max).2.concurrency k < 4294967296) := by
  unfold MemoryCounterStore.tryAcquireConcurrency
  split
  · exact ⟨rfl, id⟩
  · rename_i hroom
    have hmax := max.toNat_lt
    by_cases hk : k = key
    · subst hk
      simp only [Function.update_self, Option.toList_some, List.count_singleton_self]
      exact ⟨trivial, fun _ => by omega⟩
    · have hne : (⟨key⟩ : ConcurrencyPermit) ≠ ⟨k⟩ := by
        intro h
        cases h
        exact hk rfl
      simp only [Function.update_of_ne hk, Option.toList_some, List.count_singleton,
        beq_eq_false_iff_ne.mpr hne]
      exact ⟨rfl, id⟩

theorem tryAcquire_key {store : MemoryCounterStore} {key : String} {max : UInt32}
    {permit : ConcurrencyPermit} (h : (store.tryAcquireConcurrency key max).1 = some permit) :
    permit = ⟨key⟩ := by
  unfold MemoryCounterStore.tryAcquireConcurrency at h
  split at h
  · cases h
  · exact (Option.some.inj h).symm

/-- A store operation that hands out `permit` or refuses. -/
def Grants (store : MemoryCounterStore) (permit : Option ConcurrencyPermit)
    (store' : MemoryCounterStore) : Prop :=
  ∀ key, store'.concurrency key = store.concurrency key + permit.toList.count ⟨key⟩ ∧
    (store.concurrency key < 4294967296 → store'.concurrency key < 4294967296)

theorem grants_none {store store' : MemoryCounterStore}
    (h : store'.concurrency = store.concurrency) : Grants store none store' := by
  intro key
  rw [h]
  exact ⟨rfl, id⟩

/-- A check that takes no slot. -/
theorem Phase.advance_window {now : ℕ} {store store' : MemoryCounterStore} {check : LimitCheck}
    {rest : List LimitCheck} {permits : List ConcurrencyPermit} {reserved : List Reservation}
    {phase' : Phase} (hslot : check.permit? = [])
    (hprobe : (check.probe now store).2.concurrency = store.concurrency)
    (h : (Phase.checking (check :: rest) permits reserved).advance now store = some (phase', store')) :
    phase'.permits = permits ∧ Grants store none store' := by
  have hrefused : (check.refused now permits).permits = permits := by
    cases check <;> rfl
  rcases hresult : check.probe now store with ⟨exceeded, store₁⟩
  rw [hresult] at hprobe
  simp only [Phase.advance, hresult] at h
  cases exceeded with
  | false =>
    cases h
    simp only [Phase.permits, hslot, List.append_nil]
    exact ⟨trivial, grants_none hprobe⟩
  | true =>
    cases h
    exact ⟨hrefused, grants_none hprobe⟩

/-- A check of a request takes a permit if it is a concurrency check that passes. -/
theorem Phase.advance_check {now : ℕ} {store store' : MemoryCounterStore} {check : LimitCheck}
    {rest : List LimitCheck} {permits : List ConcurrencyPermit} {reserved : List Reservation}
    {phase' : Phase}
    (h : (Phase.checking (check :: rest) permits reserved).advance now store =
      some (phase', store')) :
    (Phase.checking (check :: rest) permits reserved).dropped? = none ∧
      phase'.permits = permits ++
        ((Phase.checking (check :: rest) permits reserved).acquired? store).toList ∧
      Grants store ((Phase.checking (check :: rest) permits reserved).acquired? store) store' := by
  cases check with
  | rpm scope cap =>
    obtain ⟨hpermits, hgrants⟩ := Phase.advance_window rfl rfl h
    exact ⟨rfl, hpermits.trans (List.append_nil _).symm, hgrants⟩
  | tpm scope cap =>
    obtain ⟨hpermits, hgrants⟩ := Phase.advance_window rfl rfl h
    exact ⟨rfl, hpermits.trans (List.append_nil _).symm, hgrants⟩
  | concurrency scope cap =>
    have hgrants := tryAcquire_concurrency store ("conc:" ++ scope) cap
    rcases htry : store.tryAcquireConcurrency ("conc:" ++ scope) cap with ⟨permit, store₁⟩
    simp only [Phase.advance, LimitCheck.probe, htry] at h
    simp only [htry] at hgrants
    simp only [Phase.dropped?, Phase.acquired?, htry, true_and]
    cases permit with
    | none =>
      cases h
      exact ⟨(List.append_nil _).symm, hgrants⟩
    | some permit =>
      have hkey : permit = ⟨"conc:" ++ scope⟩ := tryAcquire_key (by rw [htry])
      cases h
      exact ⟨by rw [hkey]; rfl, hgrants⟩

/-- What one move of a request does to the slots. -/
theorem Phase.advance_slots {now : ℕ} {store store' : MemoryCounterStore} {phase phase' : Phase}
    (h : phase.advance now store = some (phase', store')) :
    (phase.dropped? = none ∧ phase'.permits = phase.permits ++ (phase.acquired? store).toList ∧
        Grants store (phase.acquired? store) store') ∨
      ∃ permit, phase.dropped? = some permit ∧ phase.acquired? store = none ∧
        phase.permits = permit :: phase'.permits ∧ store' = store.release permit := by
  cases Phase.advance_cases h with
  | grant permits reserved => exact .inl ⟨rfl, (List.append_nil _).symm, grants_none rfl⟩
  | pass rest permits reserved hprobe => exact .inl (Phase.advance_check h)
  | refuse rest permits reserved hprobe => exact .inl (Phase.advance_check h)
  | rollBack own permits => exact .inl ⟨rfl, (List.append_nil _).symm, grants_none rfl⟩
  | settled actual permits => exact .inl ⟨rfl, (List.append_nil _).symm, grants_none rfl⟩
  | skip own rest permits hzero => exact .inl ⟨rfl, (List.append_nil _).symm, grants_none rfl⟩
  | settle own rest permits => exact .inl ⟨rfl, (List.append_nil _).symm, grants_none rfl⟩
  | finish => exact .inl ⟨rfl, (List.append_nil _).symm, grants_none rfl⟩
  | release permit permits => exact .inr ⟨permit, rfl, rfl, rfl, rfl⟩

theorem Limiter.permitsOf_set {s : Limiter} {i : ℕ} {phase : Phase} (h : s.requests[i]? = some phase)
    (store : MemoryCounterStore) (now : ℕ) (phase' : Phase) (j : ℕ) :
    Limiter.permitsOf ⟨store, now, s.requests.set i phase'⟩ j =
      if j = i then phase'.permits else s.permitsOf j := by
  have hlt := (List.getElem?_eq_some_iff.mp h).1
  unfold Limiter.permitsOf
  split
  · rename_i hj
    rw [hj, List.getElem?_set_self hlt]
    rfl
  · rename_i hj
    rw [List.getElem?_set_ne (Ne.symm hj)]

/-- A move of the requests that is no store operation leaves everyone's permits alone. -/
theorem Limiter.step_permits {s t : Limiter} {m : Move} (h : s.step m = some t) :
    (t.store = s.store ∧ (∀ j, t.permitsOf j = s.permitsOf j) ∧ ∀ i, m ≠ .advance i) ∨
      ∃ i phase phase', m = .advance i ∧ s.requests[i]? = some phase ∧
        phase.advance s.now s.store = some (phase', t.store) ∧
        ∀ j, t.permitsOf j = if j = i then phase'.permits else s.permitsOf j := by
  cases m with
  | tick ms =>
    cases h
    exact .inl ⟨rfl, fun _ => rfl, fun i hm => by cases hm⟩
  | arrive limits keyId projectId =>
    cases h
    refine .inl ⟨rfl, fun j => ?_, fun i hm => by cases hm⟩
    unfold Limiter.permitsOf
    rcases Nat.lt_trichotomy j s.requests.length with hlt | heq | hgt
    · rw [List.getElem?_append_left hlt]
    · rw [heq, List.getElem?_concat_length, List.getElem?_eq_none le_rfl]
      rfl
    · rw [List.getElem?_eq_none, List.getElem?_eq_none]
      · omega
      · rw [List.length_append, List.length_singleton]
        omega
  | advance i =>
    obtain ⟨phase, hphase, hrest⟩ := Option.bind_eq_some_iff.mp h
    obtain ⟨⟨phase', store⟩, hadv, ht⟩ := Option.bind_eq_some_iff.mp hrest
    cases ht
    exact .inr ⟨i, phase, phase', rfl, hphase, hadv, Limiter.permitsOf_set hphase _ _ _⟩
  | settle i actual =>
    simp only [Limiter.step] at h
    split at h
    · rename_i permits reserved hphase
      cases h
      refine .inl ⟨rfl, fun j => ?_, fun i hm => by cases hm⟩
      rw [Limiter.permitsOf_set hphase]
      split
      · rename_i hj
        rw [hj, Limiter.permitsOf, hphase]
        rfl
      · rfl
    · cases h
  | drop i =>
    obtain ⟨phase, hphase, ht⟩ := Option.bind_eq_some_iff.mp h
    cases ht
    refine .inl ⟨rfl, fun j => ?_, fun i hm => by cases hm⟩
    rw [Limiter.permitsOf_set hphase]
    split
    · rename_i hj
      rw [hj, Limiter.permitsOf, hphase]
      rfl
    · rfl

/-! ### The permits handed out -/

/-- The objects after one of them has been dropped. -/
structure Closes (objects objects' : List PermitObject) (owner : Option ℕ)
    (permit : ConcurrencyPermit) : Prop where
  live : ∀ p, (objects'.filterMap PermitObject.release).count p + [permit].count p =
    (objects.filterMap PermitObject.release).count p
  others : ∀ i, owner ≠ some i →
    objects'.filterMap (PermitObject.heldBy i) = objects.filterMap (PermitObject.heldBy i)
  once : (∀ o ∈ objects, o.runs = if o.release.isSome then 0 else 1) →
    ∀ o ∈ objects', o.runs = if o.release.isSome then 0 else 1

theorem closes_split (pre post : List PermitObject) {o : PermitObject} {permit : ConcurrencyPermit}
    (h : o.release = some permit) :
    Closes (pre ++ o :: post) (pre ++ ⟨o.owner, none, o.runs + 1⟩ :: post) o.owner permit where
  live := by
    intro p
    simp only [List.filterMap_append, List.filterMap_cons, h, List.count_append, List.count_cons,
      List.count_nil]
    omega
  others := by
    intro i hi
    simp only [List.filterMap_append, List.filterMap_cons, PermitObject.heldBy, if_neg hi]
  once := by
    intro honce o' ho'
    rcases List.mem_append.mp ho' with hpre | hrest
    · exact honce o' (List.mem_append_left _ hpre)
    · rcases List.mem_cons.mp hrest with heq | hpost
      · have hzero := honce o (List.mem_append_right _ (List.mem_cons_self ..))
        rw [h] at hzero
        rw [heq, hzero]
        rfl
      · exact honce o' (List.mem_append_right _ (List.mem_cons_of_mem _ hpost))

theorem dropFirst_closes {i : ℕ} {objects : List PermitObject} {permit : ConcurrencyPermit}
    {rest : List ConcurrencyPermit}
    (h : objects.filterMap (PermitObject.heldBy i) = permit :: rest) :
    Closes objects (dropFirst i objects) (some i) permit ∧
      (dropFirst i objects).filterMap (PermitObject.heldBy i) = rest := by
  have hsplit : ∃ pre o post, objects = pre ++ o :: post ∧ o.owner = some i ∧
      o.release = some permit ∧ pre.filterMap (PermitObject.heldBy i) = [] ∧
      post.filterMap (PermitObject.heldBy i) = rest ∧
      dropFirst i objects = pre ++ ⟨o.owner, none, o.runs + 1⟩ :: post := by
    induction objects with
    | nil => cases h
    | cons o os ih =>
      rw [List.filterMap_cons] at h
      cases hheld : o.heldBy i with
      | none =>
        rw [hheld] at h
        obtain ⟨pre, o', post, hos, howner, hrel, hpre, hpost, hdrop⟩ := ih h
        refine ⟨o :: pre, o', post, by rw [hos, List.cons_append], howner, hrel, ?_, hpost, ?_⟩
        · rw [List.filterMap_cons, hheld, hpre]
        · rw [dropFirst, hheld, hdrop]
          rfl
      | some p =>
        rw [hheld] at h
        simp only [List.cons.injEq] at h
        unfold PermitObject.heldBy at hheld
        split at hheld
        · rename_i howner
          refine ⟨[], o, os, rfl, howner, hheld.trans (congrArg some h.1), rfl, h.2, ?_⟩
          rw [dropFirst, PermitObject.heldBy, if_pos howner, hheld]
          rfl
        · cases hheld
  obtain ⟨pre, o, post, hobjects, howner, hrel, hpre, hpost, hdrop⟩ := hsplit
  refine ⟨?_, ?_⟩
  · rw [hdrop, hobjects, ← howner]
    exact closes_split _ _ hrel
  · simp only [hdrop, List.filterMap_append, List.filterMap_cons, PermitObject.heldBy, howner,
      if_true]
    rw [hpre, hpost, List.nil_append]

section
variable {owner : Option ℕ} {permit : Option ConcurrencyPermit} {objects : List PermitObject}

theorem live_handOut (p : ConcurrencyPermit) :
    ((objects ++ (permit.map (PermitObject.new owner)).toList).filterMap PermitObject.release).count p =
      (objects.filterMap PermitObject.release).count p + permit.toList.count p := by
  cases permit with
  | none => simp
  | some permit => simp [PermitObject.new]

theorem heldBy_handOut (i : ℕ) :
    (objects ++ (permit.map (PermitObject.new owner)).toList).filterMap (PermitObject.heldBy i) =
      objects.filterMap (PermitObject.heldBy i) ++ if owner = some i then permit.toList else [] := by
  cases permit with
  | none => simp
  | some permit =>
    by_cases howner : owner = some i
    · simp [PermitObject.new, PermitObject.heldBy, howner]
    · simp [PermitObject.new, PermitObject.heldBy, howner]

theorem once_handOut (h : ∀ o ∈ objects, o.runs = if o.release.isSome then 0 else 1) :
    ∀ o ∈ objects ++ (permit.map (PermitObject.new owner)).toList,
      o.runs = if o.release.isSome then 0 else 1 := by
  intro o ho
  rcases List.mem_append.mp ho with hold | hnew
  · exact h o hold
  · cases permit with
    | none => cases hnew
    | some permit =>
      rw [List.mem_singleton.mp hnew]
      rfl

end

theorem release_concurrency (store : MemoryCounterStore) (permit : ConcurrencyPermit) (key : String) :
    (store.release permit).concurrency key = store.concurrency key - [permit].count ⟨key⟩ := by
  exact store.releaseAll_concurrency [permit] key

/-! ### Runs -/

theorem Slots.Exact.closes {s : Slots} (h : s.Exact) {limiter : Limiter}
    {objects : List PermitObject} {owner : Option ℕ} {permit : ConcurrencyPermit}
    (hclose : Closes s.objects objects owner permit)
    (hstore : limiter.store = s.limiter.store.release permit)
    (hheld : ∀ i, objects.filterMap (PermitObject.heldBy i) = limiter.permitsOf i) :
    Slots.Exact ⟨limiter, objects⟩ where
  count := by
    intro key
    have hlive := hclose.live ⟨key⟩
    have hcount := h.count key
    rw [Slots.live] at hcount ⊢
    rw [hstore, release_concurrency]
    dsimp only
    omega
  held := hheld
  once := hclose.once h.once
  inU32 := by
    intro key
    have hlt := h.inU32 key
    rw [hstore, release_concurrency]
    omega

theorem Slots.Exact.handsOut {s : Slots} (h : s.Exact) {limiter : Limiter} {owner : Option ℕ}
    {permit : Option ConcurrencyPermit}
    (hgrants : Grants s.limiter.store permit limiter.store)
    (hheld : ∀ i, limiter.permitsOf i =
      s.limiter.permitsOf i ++ if owner = some i then permit.toList else []) :
    Slots.Exact ⟨limiter, s.objects ++ (permit.map (PermitObject.new owner)).toList⟩ where
  count := by
    intro key
    have hcount := h.count key
    unfold Slots.live at hcount ⊢
    rw [(hgrants key).1, live_handOut, hcount]
  held := by
    intro i
    have hs := h.held i
    unfold Slots.heldBy at hs ⊢
    rw [heldBy_handOut, hs, hheld i]
  once := once_handOut h.once
  inU32 := fun key => (hgrants key).2 (h.inU32 key)

theorem Slots.Exact.advance {s : Slots} (h : s.Exact) {i : ℕ} {phase phase' : Phase}
    {limiter : Limiter}
    (hphase : s.limiter.requests[i]? = some phase)
    (hadv : phase.advance s.limiter.now s.limiter.store = some (phase', limiter.store))
    (hheld : ∀ j, limiter.permitsOf j = if j = i then phase'.permits else s.limiter.permitsOf j) :
    Slots.Exact ⟨limiter, s.track (.advance i)⟩ := by
  have htrack : s.track (.advance i) =
      (if phase.dropped?.isSome then dropFirst i s.objects else s.objects) ++
        ((phase.acquired? s.limiter.store).map (.new (some i))).toList := by
    simp only [Slots.track, hphase]
  have hown : s.limiter.permitsOf i = phase.permits := by
    rw [Limiter.permitsOf, hphase]
    rfl
  rw [htrack]
  rcases Phase.advance_slots hadv with ⟨hdropped, hpermits, hgrants⟩ |
    ⟨permit, hdropped, hacquired, hpermits, hstore⟩
  · rw [hdropped]
    refine h.handsOut hgrants fun j => ?_
    rw [hheld j]
    by_cases hj : j = i
    · simp [hj, hown, hpermits]
    · have hne : ¬(some i = some j) := fun heq => hj (Option.some.inj heq).symm
      simp [hj, hne]
  · rw [hdropped, hacquired]
    have hfirst := dropFirst_closes ((h.held i).trans (hown.trans hpermits))
    simp only [Option.isSome_some, if_true, Option.map_none, Option.toList_none,
      List.append_nil]
    refine h.closes hfirst.1 hstore fun j => ?_
    rw [hheld j]
    by_cases hj : j = i
    · rw [if_pos hj, hj, hfirst.2]
    · rw [if_neg hj, hfirst.1.others j fun heq => hj (Option.some.inj heq).symm]
      exact h.held j

/-- A caller that is not a request drops one of its permits, perhaps again. -/
theorem Slots.Exact.drops {s : Slots} (h : s.Exact) {n : ℕ} {o : PermitObject}
    (ho : s.objects[n]? = some o) (howner : o.owner = none) :
    Slots.Exact ⟨{ s.limiter with store := (o.drop s.limiter.store).2 },
      s.objects.set n (o.drop s.limiter.store).1⟩ := by
  obtain ⟨hlt, hget⟩ := List.getElem?_eq_some_iff.mp ho
  have hsplit : s.objects = s.objects.take n ++ o :: s.objects.drop (n + 1) := by
    rw [← hget, List.getElem_cons_drop, List.take_append_drop]
  cases hrel : o.release with
  | none =>
    have hset : s.objects.set n o = s.objects := by
      rw [← hget, List.set_getElem_self]
    simp only [PermitObject.drop, hrel, hset]
    exact h
  | some permit =>
    have hset : s.objects.set n ⟨o.owner, none, o.runs + 1⟩ =
        s.objects.take n ++ ⟨o.owner, none, o.runs + 1⟩ :: s.objects.drop (n + 1) :=
      List.set_eq_take_append_cons_drop .. |>.trans (if_pos hlt)
    have hclose := closes_split (s.objects.take n) (s.objects.drop (n + 1)) hrel
    rw [← hsplit, ← hset] at hclose
    simp only [PermitObject.drop, hrel]
    refine h.closes hclose rfl fun i => ?_
    rw [hclose.others i (by rw [howner]; exact fun heq => by cases heq)]
    exact h.held i

theorem Slots.Exact.step {s t : Slots} {m : SlotMove} (h : s.Exact) (hstep : s.step m = some t) :
    t.Exact := by
  cases m with
  | request m =>
    obtain ⟨limiter, hlimiter, ht⟩ := Option.map_eq_some_iff.mp hstep
    subst ht
    rcases Limiter.step_permits hlimiter with ⟨hstore, hheld, hm⟩ |
      ⟨i, phase, phase', rfl, hphase, hadv, hheld⟩
    · have htrack : s.track m = s.objects := by
        cases m with
        | advance i => exact absurd rfl (hm i)
        | _ => rfl
      have hgrants : Grants s.limiter.store none limiter.store := by
        rw [hstore]
        exact grants_none rfl
      have hsame : ∀ i, limiter.permitsOf i = s.limiter.permitsOf i ++
          if none = some i then (none : Option ConcurrencyPermit).toList else [] :=
        fun i => by simp [hheld i]
      have hnone := h.handsOut hgrants hsame
      simpa [htrack] using hnone
    · exact h.advance hphase hadv hheld
  | acquire key max =>
    have hgrants := tryAcquire_concurrency s.limiter.store key max
    cases hstep
    exact h.handsOut hgrants fun i => by simp [Limiter.permitsOf]
  | drop n =>
    simp only [Slots.step] at hstep
    split at hstep
    · rename_i o ho
      split at hstep
      · rename_i howner
        cases hstep
        exact h.drops ho howner
      · cases hstep
    · cases hstep

theorem Slots.exact_of_reaches {s : Slots} (h : Reaches Slots.step Always .init s) : s.Exact := by
  refine h.invariant ?_ fun s t m hs _ hstep => hs.step hstep
  exact ⟨fun _ => rfl, fun _ => rfl, fun o ho => (by cases ho), fun _ => Nat.zero_lt_succ _⟩

/-- In every run the count of a key is the number of its live permits, an acquire
succeeds exactly when fewer than `max` of them are live, a permit's closure has run
once when it is no longer live and not at all before, and a closure that is still to
run finds a count that it can lower. Requests hold exactly the live permits that
`check_limits` has put into their hands. -/
theorem concurrency_slots_exact {s : Slots} (h : Reaches Slots.step Always .init s) :
    (∀ key, s.limiter.store.concurrency key = s.live key) ∧
      (∀ key max, (s.limiter.store.tryAcquireConcurrency key max).1.isSome = true ↔
        s.live key < max.toNat) ∧
      (∀ o ∈ s.objects, o.runs = if o.release.isSome then 0 else 1) ∧
      (∀ o ∈ s.objects, ∀ permit, o.release = some permit →
        (s.limiter.store.release permit).concurrency permit.key + 1 =
          s.limiter.store.concurrency permit.key) ∧
      (∀ i, s.heldBy i = s.limiter.permitsOf i) ∧
      ∀ key, s.limiter.store.concurrency key < 4294967296 := by
  have hexact := Slots.exact_of_reaches h
  refine ⟨hexact.count, ?_, hexact.once, ?_, hexact.held, hexact.inU32⟩
  · intro key max
    rw [tryAcquire_isSome, hexact.count key]
  · intro o ho permit hrel
    obtain ⟨key⟩ := permit
    have hpos : 0 < (s.objects.filterMap PermitObject.release).count ⟨key⟩ :=
      List.count_pos_iff.mpr (List.mem_filterMap.mpr ⟨o, ho, hrel⟩)
    have hcount := hexact.count key
    rw [Slots.live] at hcount
    dsimp only
    rw [release_concurrency, List.count_singleton_self]
    omega

def oneSlot : List LimitConfig := [⟨⟨"global", none, none⟩, none, none, some 1⟩]

/-- A request takes the only slot of its rule, another caller a slot of its own, and
the request ends. -/
theorem concurrency_slots_exact_sample :
    ∃ s, Reaches Slots.step Always .init s ∧
      s.objects = [⟨some 0, none, 1⟩, ⟨none, some ⟨"conc:global"⟩, 0⟩] ∧
      s.limiter.store.concurrency "conc:global" = s.live "conc:global" := by
  have hreach : Reaches Slots.step Always .init _ :=
    Reaches.of_run [.request (.arrive oneSlot "k1" "p1"), .request (.advance 0),
      .acquire "conc:global" 2, .request (.drop 0), .request (.advance 0)] .start rfl
  refine ⟨_, hreach, ?_, (concurrency_slots_exact hreach).1 "conc:global"⟩
  rfl

/-! ### The requests are calls of `check_limits` -/

theorem Slots.reaches_request {s : Slots} {t : Limiter}
    (h : Reaches Limiter.step Always s.limiter t) :
    ∃ objects, Reaches Slots.step Always s ⟨t, objects⟩ := by
  induction h with
  | start => exact ⟨s.objects, .start⟩
  | @next u v m _ _ hstep ih =>
    obtain ⟨objects, hreach⟩ := ih
    refine ⟨Slots.track ⟨u, objects⟩ m, .next (.request m) hreach trivial ?_⟩
    rw [Slots.step, hstep]
    rfl

def slotsOf : Except ApiError RatePermit → List ConcurrencyPermit
  | .ok permit => permit.concurrency
  | .error _ => []

theorem Limiter.Returned.permitsOf {s t : Limiter} {i : ℕ} {phase : Phase}
    {result : Except ApiError RatePermit × MemoryCounterStore} (h : s.Returned i result t)
    (hi : s.requests[i]? = some phase) : t.permitsOf i = slotsOf result.1 := by
  have hlt := (List.getElem?_eq_some_iff.mp hi).1
  obtain ⟨returned, store⟩ := result
  cases returned with
  | error e =>
    have hrequests : t.requests = s.requests.set i .done := h.2
    rw [Limiter.permitsOf, hrequests, List.getElem?_set_self hlt]
    rfl
  | ok permit =>
    obtain ⟨-, permits, reserved, hpermit, hrequests⟩ := h
    rw [Limiter.permitsOf, hrequests, List.getElem?_set_self hlt, ← hpermit]
    rfl

/-- A call of `check_limits` that is scheduled at the times of `clock` leaves its
request with the slots of the permit it returns, and with none after an error. -/
theorem Slots.reaches_checkLimits {clock : ℕ → ℕ} (hclock : Monotone clock) {s : Slots}
    (h : Reaches Slots.step Always .init s) (hnow : s.limiter.now ≤ clock 0)
    (limits : List LimitConfig) (keyId projectId : String) :
    ∃ t, Reaches Slots.step Always s t ∧
      t.limiter.store = (checkLimits clock s.limiter.store limits keyId projectId).2 ∧
      t.heldBy s.limiter.requests.length =
        slotsOf (checkLimits clock s.limiter.store limits keyId projectId).1 := by
  have harrive : Reaches Limiter.step Always s.limiter { s.limiter with
      requests := s.limiter.requests ++ [.checking (limitChecks limits keyId projectId) [] []] } :=
    .next (.arrive limits keyId projectId) .start trivial rfl
  have hlast := List.getElem?_concat_length
    (l := s.limiter.requests) (a := Phase.checking (limitChecks limits keyId projectId) [] [])
  obtain ⟨t, hcall, hreturned⟩ := Limiter.reaches_checkLoop hclock
    (limitChecks limits keyId projectId) 0 (s := { s.limiter with
      requests := s.limiter.requests ++ [.checking (limitChecks limits keyId projectId) [] []] })
    hlast hnow
  obtain ⟨objects, hreach⟩ := Slots.reaches_request (harrive.trans hcall)
  have hheld := (Slots.exact_of_reaches (h.trans hreach)).held s.limiter.requests.length
  exact ⟨⟨t, objects⟩, hreach, hreturned.1, hheld.trans (hreturned.permitsOf hlast)⟩

end AiGateway.Api
