import AiGateway.Library.Runs

/-!
# Programs that share a store

A program sends statements to a store and reads their answers. Programs run side by side and
interleave at each statement; what a statement meets besides the store comes with the move.
Three rules carry facts over such runs: an assertion that no statement of the others breaks is kept
by a program that goes on from it, an act that follows its check at once is not taken where the
check refuses it, and an invariant that speaks of a growing record holds for whatever the record
has become.
-/

namespace AiGateway.Library.Programs
open Runs

/-- `Q` are the statements and `A q` what `q` answers. -/
inductive Program (Q : Type) (A : Q → Type) (α : Type) where
  | ret (a : α)
  | exec (q : Q) (next : A q → Program Q A α)

namespace Program
variable {Q : Type} {A : Q → Type} {α β : Type}

def bind : Program Q A α → (α → Program Q A β) → Program Q A β
  | .ret a, f => f a
  | .exec q next, f => .exec q fun a => (next a).bind f

instance : Monad (Program Q A) where
  pure := .ret
  bind := bind

@[simp]
theorem pure_eq (a : α) : (pure a : Program Q A α) = .ret a := rfl

@[simp]
theorem bind_ret (a : α) (f : α → Program Q A β) : (ret a >>= f : Program Q A β) = f a := rfl

@[simp]
theorem bind_exec (q : Q) (next : A q → Program Q A α) (f : α → Program Q A β) :
    (exec q next >>= f : Program Q A β) = exec q fun a => next a >>= f := rfl

/-- Some answers make the program return `b`. -/
def CanReturn : Program Q A α → α → Prop
  | .ret a, b => b = a
  | .exec _ next, b => ∃ a, (next a).CanReturn b

theorem CanReturn.bind {p : Program Q A α} {f : α → Program Q A β} {b : β}
    (h : (p.bind f).CanReturn b) : ∃ a, p.CanReturn a ∧ (f a).CanReturn b := by
  induction p with
  | ret a => exact ⟨a, rfl, h⟩
  | exec q next ih =>
    obtain ⟨a, ha⟩ := h
    obtain ⟨c, hc, hb⟩ := ih a ha
    exact ⟨c, ⟨a, hc⟩, hb⟩

/-- The next statement is one of `acts`. -/
def At (acts : Q → Prop) : Program Q A α → Prop
  | .ret _ => False
  | .exec q _ => acts q

/-- An act comes only right after an answer that clears it. -/
def Checked (acts : Q → Prop) (clears : (q : Q) → A q → Prop) : Program Q A α → Prop
  | .ret _ => True
  | .exec q next => ∀ a, (next a).Checked acts clears ∧ ((next a).At acts → clears q a)

section
variable {acts : Q → Prop} {clears : (q : Q) → A q → Prop} {p : Program Q A α}
  {f : α → Program Q A β}

theorem At.bind (hp : ¬ p.At acts) (hf : ∀ a, ¬ (f a).At acts) : ¬ (p.bind f).At acts := by
  cases p with
  | ret a => exact hf a
  | exec q next => exact hp

theorem Checked.bind (hp : p.Checked acts clears)
    (hf : ∀ a, (f a).Checked acts clears ∧ ¬ (f a).At acts) : (p.bind f).Checked acts clears := by
  induction p with
  | ret a => exact (hf a).1
  | exec q next ih =>
    intro a
    obtain ⟨hnext, hclears⟩ := hp a
    refine ⟨ih a hnext, ?_⟩
    intro hat
    by_contra hnot
    exact At.bind (fun h => hnot (hclears h)) (fun b => (hf b).2) hat

end

/-! ### Invariants that look back on a record

Beside the store stands a record that only grows, such as of what the programs have begun, and
the invariant of the store speaks of it.
-/

section Record
variable {S E W : Type}

/-- Whatever the record is by then, each statement keeps the invariant, and `post` holds when
the program returns. -/
def Upholds (exec : (q : Q) → E → S → Option (A q × S)) (grows : W → W → Prop)
    (inv : W → S → Prop) (post : W → S → α → Prop) : W → Program Q A α → Prop
  | _, .ret _ => True
  | w, .exec q next => ∀ w' s env a t, grows w w' → inv w' s → exec q env s = some (a, t) →
      inv w' t ∧ (∀ b, next a = .ret b → post w' t b) ∧
        (next a).Upholds exec grows inv post w'

variable {exec : (q : Q) → E → S → Option (A q × S)} {grows : W → W → Prop} {inv : W → S → Prop}
  {post : W → S → α → Prop} {w w' : W}

theorem Upholds.later {p : Program Q A α} (h : p.Upholds exec grows inv post w)
    (htrans : ∀ v, grows w' v → grows w v) : p.Upholds exec grows inv post w' := by
  cases p with
  | ret a => trivial
  | exec q next =>
    intro v s env a t hv
    exact h v s env a t (htrans v hv)

end Record

/-- The program with nothing in between, each statement meeting `env`. -/
def alone {S E : Type} (exec : (q : Q) → E → S → Option (A q × S)) (env : E) :
    Program Q A α → S → Option (α × S)
  | .ret a, s => some (a, s)
  | .exec q next, s => (exec q env s).bind fun r => (next r.1).alone exec env r.2

end Program

/-! ### Programs that can fail -/

/-- A program in which an error ends what follows, as `?` does. -/
def Fallible (Q : Type) (A : Q → Type) (ε α : Type) : Type := Program Q A (Except ε α)

namespace Fallible
variable {Q : Type} {A : Q → Type} {ε α β : Type}

def bind (p : Fallible Q A ε α) (f : α → Fallible Q A ε β) : Fallible Q A ε β :=
  Program.bind p fun r =>
    match r with
    | .ok a => f a
    | .error e => .ret (.error e)

instance : Monad (Fallible Q A ε) where
  pure a := Program.ret (.ok a)
  bind := bind

instance : MonadExceptOf ε (Fallible Q A ε) where
  throw e := Program.ret (.error e)
  tryCatch p handle := Program.bind p fun r =>
    match r with
    | .ok a => .ret (.ok a)
    | .error e => handle e

/-- `map_err`. -/
def mapErr {ε' : Type} (f : ε → ε') (p : Fallible Q A ε α) : Fallible Q A ε' α :=
  Program.bind p fun r => .ret (r.mapError f)

theorem canReturn_ite {c : Prop} [hc : Decidable c] {p q : Fallible Q A ε α} {r : Except ε α}
    (h : Program.CanReturn (if c then p else q : Fallible Q A ε α) r) :
    c ∧ Program.CanReturn p r ∨ ¬ c ∧ Program.CanReturn q r := by
  cases hc with
  | isTrue hc => exact Or.inl ⟨hc, h⟩
  | isFalse hc => exact Or.inr ⟨hc, h⟩

end Fallible

/-- The store and the programs under way, each with the call that started it. -/
structure Pool (S C : Type) (Q : Type) (A : Q → Type) (α : Type) where
  store : S
  running : List (C × Program Q A α)

namespace Pool

inductive Move (C E : Type) where
  | start (call : C)
  -- program `i` sends its next statement
  | turn (i : ℕ) (env : E)

variable {S C Q E α : Type} {A : Q → Type}

/-- `exec` runs a statement, or is `none` while the statement waits. -/
def step (exec : (q : Q) → E → S → Option (A q × S)) (code : C → Program Q A α)
    (s : Pool S C Q A α) : Move C E → Option (Pool S C Q A α)
  | .start call => some { s with running := s.running ++ [(call, code call)] }
  | .turn i env =>
    match s.running[i]? with
    | some (call, .exec q next) =>
      (exec q env s.store).map fun r => ⟨r.2, s.running.set i (call, next r.1)⟩
    | _ => none

variable {exec : (q : Q) → E → S → Option (A q × S)} {code : C → Program Q A α}
  {s t : Pool S C Q A α}

theorem step_cases {m : Move C E} (h : s.step exec code m = some t) :
    (∃ call, m = .start call ∧ t = { s with running := s.running ++ [(call, code call)] }) ∨
      ∃ i env call q next a store, m = .turn i env ∧ s.running[i]? = some (call, .exec q next) ∧
        exec q env s.store = some (a, store) ∧
        t = ⟨store, s.running.set i (call, next a)⟩ := by
  cases m with
  | start call =>
    cases h
    exact Or.inl ⟨call, rfl, rfl⟩
  | turn i env =>
    simp only [step] at h
    split at h
    · rename_i call q next hi
      obtain ⟨⟨a, store⟩, hexec, ht⟩ := Option.map_eq_some_iff.mp h
      exact Or.inr ⟨i, env, call, q, next, a, store, rfl, hi, hexec, ht.symm⟩
    · cases h

/-! ### Assertions that the others keep

A lock is part of the store. `rely held` is what the other programs may do while a program holds
the lock or does not; what a program itself may do is the same relation for the others.
-/

def Stable (R : S → S → Prop) (P : S → Prop) : Prop := ∀ s t, R s t → P s → P t

/-- How a statement moves the lock when its program held it before and holds it after. -/
def Hands : Bool → Bool → Bool → Bool → Prop
  | false, true, before, after => before = false ∧ after = true
  | true, false, _, after => after = false
  | _, _, before, after => after = before

/-- From a store with `pre`, and whatever the others do between, the program sends only statements
that it may and returns with `post`. The flags say whether it holds the lock before and after. -/
inductive Meets (exec : (q : Q) → E → S → Option (A q × S)) (taken : S → Bool)
    (rely : Bool → S → S → Prop) :
    Bool → (S → Prop) → Program Q A α → Bool → (α → S → Prop) → Prop where
  | ret {held : Bool} {pre : S → Prop} {a : α} {post : α → S → Prop} (h : ∀ s, pre s → post a s) :
      Meets exec taken rely held pre (.ret a) held post
  | exec {held last : Bool} {pre : S → Prop} {q : Q} {next : A q → Program Q A α}
      {post : α → S → Prop} (held' : Bool) (mid : A q → S → Prop)
      (hstable : ∀ a, Stable (rely held') (mid a))
      (hexec : ∀ s env a t, pre s → exec q env s = some (a, t) →
        rely (!held) s t ∧ Hands held held' (taken s) (taken t) ∧ mid a t)
      (hnext : ∀ a, Meets exec taken rely held' (mid a) (next a) last post) :
      Meets exec taken rely held pre (.exec q next) last post

variable {taken : S → Bool} {rely : Bool → S → S → Prop}

theorem Meets.weaken {held last : Bool} {pre pre' : S → Prop} {p : Program Q A α}
    {post : α → S → Prop} (h : Meets exec taken rely held pre p last post)
    (hpre : ∀ s, pre' s → pre s) : Meets exec taken rely held pre' p last post := by
  cases h with
  | ret h => exact .ret fun s hs => h s (hpre s hs)
  | exec held' mid hstable hexec hnext =>
    exact .exec held' mid hstable (fun s env a t hs => hexec s env a t (hpre s hs)) hnext

theorem Meets.absurd {held : Bool} {pre : S → Prop} {p : Program Q A α} {post : α → S → Prop}
    (h : ∀ s, ¬ pre s) : Meets exec taken rely held pre p held post := by
  induction p generalizing pre with
  | ret a => exact .ret fun s hs => (h s hs).elim
  | exec q next ih =>
    refine .exec held (fun _ _ => False) (fun _ _ _ _ hs => hs) ?_ fun a => ih a fun _ hs => hs
    exact fun s _ _ _ hs => (h s hs).elim

theorem Meets.bind {β : Type} {held held' last : Bool} {pre : S → Prop} {p : Program Q A α}
    {f : α → Program Q A β} {mid : α → S → Prop} {post : β → S → Prop}
    (hp : Meets exec taken rely held pre p held' mid)
    (hf : ∀ a, Meets exec taken rely held' (mid a) (f a) last post) :
    Meets exec taken rely held pre (p.bind f) last post := by
  induction hp with
  | ret h => exact (hf _).weaken h
  | exec held'' mid' hstable hexec _ ih => exact .exec held'' mid' hstable hexec fun a => ih a hf

theorem Meets.strengthen {held last : Bool} {pre : S → Prop} {p : Program Q A α}
    {post post' : α → S → Prop} (h : Meets exec taken rely held pre p last post)
    (hpost : ∀ a s, post a s → post' a s) : Meets exec taken rely held pre p last post' := by
  induction h with
  | ret h => exact .ret fun s hs => hpost _ s (h s hs)
  | exec held' mid hstable hexec _ ih => exact .exec held' mid hstable hexec fun a => ih a hpost

/-- What all programs keep can be carried past a program. -/
theorem Meets.frame {held last : Bool} {pre P : S → Prop} {p : Program Q A α} {post : α → S → Prop}
    (h : Meets exec taken rely held pre p last post) (hP : ∀ held, Stable (rely held) P) :
    Meets exec taken rely held (fun s => pre s ∧ P s) p last fun a s => post a s ∧ P s := by
  induction h with
  | ret h => exact .ret fun s hs => ⟨h s hs.1, hs.2⟩
  | exec held' mid hstable hexec _ ih =>
    refine .exec held' (fun a s => mid a s ∧ P s) ?_ ?_ ih
    · intro a s t hst hs
      exact ⟨hstable a s t hst hs.1, hP _ s t hst hs.2⟩
    · intro s env a t hs hsend
      obtain ⟨hrely, hhands, hmid⟩ := hexec s env a t hs.1 hsend
      exact ⟨hrely, hhands, hmid, hP _ s t hrely hs.2⟩

theorem Meets.andThen {ε β γ : Type} {held held' : Bool} {pre : S → Prop} {p : Fallible Q A ε γ}
    {f : γ → Fallible Q A ε β} {mid : Except ε γ → S → Prop} {post : Except ε β → S → Prop}
    (hp : Meets exec taken rely held pre p held' mid)
    (hok : ∀ a, Meets exec taken rely held' (mid (.ok a)) (f a) held' post)
    (herr : ∀ e s, mid (.error e) s → post (.error e) s) :
    Meets exec taken rely held pre (p >>= f : Fallible Q A ε β) held' post := by
  refine Meets.bind hp ?_
  intro r
  cases r with
  | ok a => exact hok a
  | error e => exact .ret (herr e)

theorem Meets.mapErr {ε ε' γ : Type} {held held' : Bool} {pre : S → Prop} {p : Fallible Q A ε γ}
    {f : ε → ε'} {post : Except ε' γ → S → Prop}
    (hp : Meets exec taken rely held pre p held' fun r => post (r.mapError f)) :
    Meets exec taken rely held pre (p.mapErr f) held' post :=
  Meets.bind hp fun _ => .ret fun _ h => h

/-- The program goes on from an assertion that holds and that the others keep. -/
def Goes (exec : (q : Q) → E → S → Option (A q × S)) (taken : S → Bool)
    (rely : Bool → S → S → Prop) (held : Bool) (p : Program Q A α) (post : α → S → Prop) (s : S) :
    Prop :=
  ∃ pre, Stable (rely held) pre ∧ pre s ∧ Meets exec taken rely held pre p false post

theorem Goes.keep {held : Bool} {p : Program Q A α} {post : α → S → Prop} {s t : S}
    (h : Goes exec taken rely held p post s) (hst : rely held s t) :
    Goes exec taken rely held p post t := by
  obtain ⟨pre, hstable, hpre, hmeets⟩ := h
  exact ⟨pre, hstable, hstable _ _ hst hpre, hmeets⟩

/-- At most one program holds the lock, and each goes on. -/
def Kept (exec : (q : Q) → E → S → Option (A q × S)) (taken : S → Bool)
    (rely : Bool → S → S → Prop) (post : C → α → S → Prop) (s : Pool S C Q A α) : Prop :=
  ∃ holder : Option ℕ, taken s.store = holder.isSome ∧
    (∀ i, holder = some i → i < s.running.length) ∧ ∀ i call p, s.running[i]? = some (call, p) →
      Goes exec taken rely (holder = some i) p (post call) s.store

theorem Kept.start {post : C → α → S → Prop} {s₀ : S} (h : taken s₀ = false) :
    Kept exec taken rely post (⟨s₀, []⟩ : Pool S C Q A α) :=
  ⟨none, h, fun _ h => (by cases h), fun _ _ _ h => by cases h⟩

/-- The call can start. -/
def Ready (exec : (q : Q) → E → S → Option (A q × S)) (code : C → Program Q A α)
    (taken : S → Bool) (rely : Bool → S → S → Prop) (post : C → α → S → Prop)
    (s : Pool S C Q A α) : Move C E → Prop
  | .start call => Goes exec taken rely false (code call) (post call) s.store
  | .turn _ _ => True

section Rule
variable {post : C → α → S → Prop} (hweak : ∀ s t, rely true s t → rely false s t)
include hweak

theorem Kept.turn {i : ℕ} {call : C} {q : Q} {next : A q → Program Q A α} {env : E} {a : A q}
    {store : S} (h : s.Kept exec taken rely post) (hi : s.running[i]? = some (call, .exec q next))
    (hexec : exec q env s.store = some (a, store)) :
    rely false s.store store ∧
      Pool.Kept exec taken rely post ⟨store, s.running.set i (call, next a)⟩ := by
  obtain ⟨holder, htaken, hbound, hgoes⟩ := h
  obtain ⟨pre, -, hpre, hmeets⟩ := hgoes i call _ hi
  have hlt := (List.getElem?_eq_some_iff.mp hi).1
  generalize hheld : decide (holder = some i) = held at hmeets
  cases hmeets with
  | exec held' mid hstable hsends hnext =>
    obtain ⟨hrely, hhands, hmid⟩ := hsends _ _ _ _ hpre hexec
    have hself : Goes exec taken rely held' (next a) (post call) store :=
      ⟨mid a, hstable a, hmid, hnext a⟩
    -- the others keep their assertions when the step is one that they rely on
    have hothers : ∀ holder' : Option ℕ, taken store = holder'.isSome →
        (∀ j, holder' = some j → j < s.running.length) → decide (holder' = some i) = held' →
        (∀ j, j ≠ i → decide (holder' = some j) = decide (holder = some j) ∧
          rely (decide (holder = some j)) s.store store) →
        Pool.Kept exec taken rely post ⟨store, s.running.set i (call, next a)⟩ := by
      intro holder' htaken' hbound' hholder' hj
      refine ⟨holder', htaken', by simpa using hbound', ?_⟩
      intro j call' p hp
      dsimp only at hp
      by_cases hji : j = i
      · subst hji
        rw [List.getElem?_set_self hlt, Option.some.injEq, Prod.mk.injEq] at hp
        obtain ⟨rfl, rfl⟩ := hp
        rw [hholder']
        exact hself
      · rw [List.getElem?_set_ne (Ne.symm hji)] at hp
        rw [(hj j hji).1]
        exact (hgoes j call' p hp).keep (hj j hji).2
    cases held with
    | false =>
      have hnot : holder ≠ some i := of_decide_eq_false hheld
      refine ⟨hweak _ _ hrely, ?_⟩
      cases held' with
      | false =>
        refine hothers holder (hhands.trans htaken) hbound hheld ?_
        intro j _
        refine ⟨rfl, ?_⟩
        cases hcase : decide (holder = some j) with
        | true => exact hrely
        | false => exact hweak _ _ hrely
      | true =>
        obtain ⟨hbefore, hafter⟩ := hhands
        have hnone : holder = none := by
          rw [hbefore] at htaken
          simpa using htaken.symm
        refine hothers (some i) hafter (by simpa using hlt) (decide_eq_true rfl) ?_
        intro j hj
        rw [hnone]
        exact ⟨by simp [Ne.symm hj], hweak _ _ hrely⟩
    | true =>
      have hsome : holder = some i := of_decide_eq_true hheld
      refine ⟨hrely, ?_⟩
      have hj : ∀ j, j ≠ i → decide (holder = some j) = false := by
        intro j hj
        simp [hsome, Ne.symm hj]
      cases held' with
      | false =>
        refine hothers none hhands (fun _ h => by cases h) rfl ?_
        intro j hji
        rw [hj j hji]
        exact ⟨rfl, hrely⟩
      | true =>
        refine hothers holder (hhands.trans htaken) hbound hheld ?_
        intro j hji
        rw [hj j hji]
        exact ⟨rfl, hrely⟩

theorem Kept.step (hrefl : ∀ s, rely false s s) {m : Move C E} (h : s.Kept exec taken rely post)
    (hready : s.Ready exec code taken rely post m) (hstep : s.step exec code m = some t) :
    rely false s.store t.store ∧ t.Kept exec taken rely post := by
  obtain ⟨call, rfl, rfl⟩ | ⟨i, env, call, q, next, a, store, rfl, hi, hexec, rfl⟩ :=
    step_cases hstep
  · refine ⟨hrefl _, ?_⟩
    obtain ⟨holder, htaken, hbound, hgoes⟩ := h
    refine ⟨holder, htaken, ?_, ?_⟩
    · intro i hi
      simpa using Nat.lt_succ_of_lt (hbound i hi)
    · intro i call' p hp
      rcases Nat.lt_or_ge i s.running.length with hlt | hge
      · rw [List.getElem?_append_left hlt] at hp
        exact hgoes i call' p hp
      · have hnot : holder ≠ some i := fun hi => absurd (hbound i hi) (Nat.not_lt.mpr hge)
        have hmem : (call', p) ∈ [(call, code call)] :=
          List.mem_of_getElem? (List.getElem?_append_right hge ▸ hp)
        cases List.mem_singleton.mp hmem
        rw [decide_eq_false hnot]
        exact hready
  · exact h.turn hweak hi hexec

/-- The rule for runs: programs keep going on, and an assertion that all of them keep is kept. -/
theorem Kept.reaches (hrefl : ∀ s, rely false s s) (h : s.Kept exec taken rely post)
    {guard : Pool S C Q A α → Move C E → Prop}
    (hready : ∀ s m, guard s m → s.Ready exec code taken rely post m)
    (hr : Reaches (Pool.step exec code) guard s t) :
    t.Kept exec taken rely post ∧ ∀ P, Stable (rely false) P → P s.store → P t.store := by
  induction hr with
  | start => exact ⟨h, fun _ _ hs => hs⟩
  | next m _ hguard hstep ih =>
    obtain ⟨hkept, hstable⟩ := ih
    obtain ⟨hg, hkept'⟩ := hkept.step hweak hrefl (hready _ _ hguard) hstep
    exact ⟨hkept', fun P hP hs => hP _ _ hg (hstable P hP hs)⟩

end Rule

/-- What a program promises holds once it has returned. -/
theorem Kept.returned {post : C → α → S → Prop} (h : s.Kept exec taken rely post) {call : C}
    {a : α} (hmem : (call, .ret a) ∈ s.running) : post call a s.store := by
  obtain ⟨holder, -, -, hgoes⟩ := h
  obtain ⟨i, hi⟩ := List.mem_iff_getElem?.mp hmem
  obtain ⟨pre, -, hpre, hmeets⟩ := hgoes i call _ hi
  generalize decide (holder = some i) = held at hmeets
  cases hmeets with
  | ret h => exact h _ hpre

/-! ### Acts behind a check -/

section
variable {acts : Q → Prop} {clears : (q : Q) → A q → Prop}

theorem checked_of_reaches {guard : Pool S C Q A α → Move C E → Prop} {s₀ : S}
    (hcode : ∀ call, (code call).Checked acts clears)
    (hr : Reaches (step exec code) guard ⟨s₀, []⟩ s) :
    ∀ e ∈ s.running, e.2.Checked acts clears := by
  induction hr with
  | start =>
    intro e he
    cases he
  | next m _ _ hstep h =>
    intro e he
    obtain ⟨call, rfl, rfl⟩ | ⟨i, env, call, q, next, a, store, rfl, hi, -, rfl⟩ :=
      step_cases hstep
    · rcases List.mem_append.mp he with hold | hnew
      · exact h e hold
      · cases List.mem_singleton.mp hnew
        exact hcode call
    · rcases List.mem_or_eq_of_mem_set he with hold | rfl
      · exact h e hold
      · exact (h _ (List.mem_of_getElem? hi) a).1

/-- While `P` holds no answer clears an act. If no act is due and the other statements keep `P`,
then no act is taken later and `P` is kept. -/
theorem check_then_act {P : S → Prop}
    (hkeeps : ∀ q env s a t, ¬ acts q → P s → exec q env s = some (a, t) → P t)
    (hclears : ∀ q env s a t, P s → exec q env s = some (a, t) → ¬ clears q a)
    (hcode : ∀ call, (code call).Checked acts clears ∧ ¬ (code call).At acts)
    (hchecked : ∀ e ∈ s.running, e.2.Checked acts clears)
    (hdue : ∀ e ∈ s.running, ¬ e.2.At acts) (hP : P s.store)
    {guard : Pool S C Q A α → Move C E → Prop} (hr : Reaches (step exec code) guard s t) :
    P t.store ∧ ∀ e ∈ t.running, ¬ e.2.At acts := by
  have hinv : P t.store ∧ ∀ e ∈ t.running, e.2.Checked acts clears ∧ ¬ e.2.At acts := by
    induction hr with
    | start => exact ⟨hP, fun e he => ⟨hchecked e he, hdue e he⟩⟩
    | next m _ _ hstep ih =>
      obtain ⟨hs, hrun⟩ := ih
      obtain ⟨call, rfl, rfl⟩ | ⟨i, env, call, q, next, a, store, rfl, hi, hexec, rfl⟩ :=
        step_cases hstep
      · refine ⟨hs, ?_⟩
        intro e he
        rcases List.mem_append.mp he with hold | hnew
        · exact hrun e hold
        · cases List.mem_singleton.mp hnew
          exact hcode call
      · obtain ⟨hcheck, hnot⟩ := hrun _ (List.mem_of_getElem? hi)
        refine ⟨hkeeps _ _ _ _ _ hnot hs hexec, ?_⟩
        intro e he
        rcases List.mem_or_eq_of_mem_set he with hold | rfl
        · exact hrun e hold
        · exact ⟨(hcheck a).1, fun hat => hclears _ _ _ _ _ hs hexec ((hcheck a).2 hat)⟩
  exact ⟨hinv.1, fun e he => (hinv.2 e he).2⟩

end

end Pool

end AiGateway.Library.Programs
