import Mathlib.Data.List.Basic

/-!
# Runs of a partial deterministic machine

A machine is a step function `σ → α → Option σ`: the action says which of the
enabled moves is taken, so every interleaving is one action list. `Reaches`
collects the states of the runs whose steps all meet a guard on the state
before the step; with the guard `Always` these are all runs.
-/

namespace AiGateway.Library.Runs
variable {σ α : Type}

def Always : σ → α → Prop := fun _ _ => True

/-- States of guarded runs that start in `s₀`. -/
inductive Reaches (step : σ → α → Option σ) (guard : σ → α → Prop) (s₀ : σ) : σ → Prop where
  | start : Reaches step guard s₀ s₀
  | next {s t : σ} (a : α) : Reaches step guard s₀ s → guard s a → step s a = some t →
      Reaches step guard s₀ t

def run (step : σ → α → Option σ) : σ → List α → Option σ
  | s, [] => some s
  | s, a :: as => (step s a).bind fun t => run step t as

/-- The invariant rule: what the start has and every guarded step keeps holds in
every state reached. -/
theorem Reaches.invariant {step : σ → α → Option σ} {guard : σ → α → Prop} {s₀ s : σ}
    {Inv : σ → Prop} (hr : Reaches step guard s₀ s) (h0 : Inv s₀)
    (hstep : ∀ s t a, Inv s → guard s a → step s a = some t → Inv t) : Inv s := by
  induction hr with
  | start => exact h0
  | next a _ hg hs ih => exact hstep _ _ a ih hg hs

theorem Reaches.trans {step : σ → α → Option σ} {guard : σ → α → Prop} {s t u : σ}
    (hst : Reaches step guard s t) (htu : Reaches step guard t u) : Reaches step guard s u := by
  induction htu with
  | start => exact hst
  | next a _ hg hs ih => exact .next a ih hg hs

/-- A run goes on by one move. -/
theorem Reaches.move {step : σ → α → Option σ} {guard : σ → α → Prop} {s₀ s t : σ}
    (hr : Reaches step guard s₀ s) (a : α) (hguard : guard s a) (hstep : step s a = some t) :
    Reaches step guard s₀ t := .next a hr hguard hstep

theorem Reaches.of_run {step : σ → α → Option σ} {s₀ s t : σ} (as : List α)
    (hr : Reaches step Always s₀ s) (h : run step s as = some t) :
    Reaches step Always s₀ t := by
  induction as generalizing s with
  | nil =>
    simp only [run, Option.some.injEq] at h
    exact h ▸ hr
  | cons a as ih =>
    obtain ⟨u, hu, ht⟩ := Option.bind_eq_some_iff.mp h
    exact ih (.next a hr trivial hu) ht

/-- A run of moves that the guard allows in every state. -/
theorem Reaches.of_guarded_run {step : σ → α → Option σ} {guard : σ → α → Prop} {s₀ s t : σ}
    (as : List α) (hguard : ∀ a ∈ as, ∀ s, guard s a) (hr : Reaches step guard s₀ s)
    (h : run step s as = some t) : Reaches step guard s₀ t := by
  induction as generalizing s with
  | nil =>
    cases h
    exact hr
  | cons a as ih =>
    obtain ⟨u, hu, ht⟩ := Option.bind_eq_some_iff.mp h
    obtain ⟨ha, hrest⟩ := List.forall_mem_cons.mp hguard
    exact ih hrest (.next a hr (ha s) hu) ht

/-- The machine that refuses the moves its guard does not allow. -/
def guarded (step : σ → α → Option σ) (guard : σ → α → Prop) [∀ s a, Decidable (guard s a)] :
    σ → α → Option σ :=
  fun s a => if guard s a then step s a else none

theorem Reaches.of_guarded {step : σ → α → Option σ} {guard : σ → α → Prop}
    [∀ s a, Decidable (guard s a)] {s₀ s t : σ} (as : List α) (hr : Reaches step guard s₀ s)
    (h : run (guarded step guard) s as = some t) : Reaches step guard s₀ t := by
  induction as generalizing s with
  | nil =>
    cases h
    exact hr
  | cons a as ih =>
    obtain ⟨u, hu, ht⟩ := Option.bind_eq_some_iff.mp h
    obtain ⟨hg, hstep⟩ := Option.ite_none_right_eq_some.mp hu
    exact ih (.next a hr hg hstep) ht

/-- The machine with a list of notes on its moves, which it does not read. -/
def observe {β : Type} (step : σ → α → Option σ) (note : σ → α → List β) :
    σ × List β → α → Option (σ × List β)
  | (s, notes), a => (step s a).map fun t => (t, notes ++ note s a)

theorem Reaches.observe {β : Type} {step : σ → α → Option σ} {s t : σ}
    (h : Reaches step Always s t) (note : σ → α → List β) (notes : List β) :
    ∃ notes', Reaches (observe step note) Always (s, notes) (t, notes') := by
  induction h with
  | start => exact ⟨notes, .start⟩
  | @next u v a _ _ hstep ih =>
    obtain ⟨notes', hreach⟩ := ih
    refine ⟨notes' ++ note u a, .next a hreach trivial ?_⟩
    rw [Runs.observe, hstep]
    rfl

/-- `P` holds at every step of the run of a total machine. -/
def Along (step : σ → α → σ) (P : σ → α → Prop) : σ → List α → Prop
  | _, [] => True
  | s, a :: as => P s a ∧ Along step P (step s a) as

/-- Two properties of a step that agree under an invariant agree along every run whose steps
keep it. -/
theorem Along.iff_of_invariant {step : σ → α → σ} {Inv : σ → Prop} {allowed P Q : σ → α → Prop}
    (hstep : ∀ s a, Inv s → allowed s a → Inv (step s a))
    (hiff : ∀ s a, Inv s → allowed s a → (P s a ↔ Q s a)) (as : List α) {s : σ} (hs : Inv s)
    (hrun : Along step allowed s as) : Along step P s as ↔ Along step Q s as := by
  induction as generalizing s with
  | nil => exact Iff.rfl
  | cons a as ih =>
    have ha := hrun.1
    exact and_congr (hiff s a hs ha) (ih (hstep s a hs ha) hrun.2)

/-- A trace that interleaves the sequences of numbered parties. -/
def Interleaves {β : Type} (trace : List (ℕ × β)) (seqs : ℕ → List β) : Prop :=
  ∀ i, (trace.filter fun e => e.1 = i).map Prod.snd = seqs i

theorem Interleaves.mem {β : Type} {trace : List (ℕ × β)} {seqs : ℕ → List β}
    (h : Interleaves trace seqs) {i : ℕ} {b : β} : (i, b) ∈ trace ↔ b ∈ seqs i := by
  rw [← h i, List.mem_map]
  constructor
  · intro hmem
    exact ⟨(i, b), List.mem_filter.mpr ⟨hmem, decide_eq_true rfl⟩, rfl⟩
  · rintro ⟨⟨j, b'⟩, hmem, rfl⟩
    obtain ⟨hin, hj⟩ := List.mem_filter.mp hmem
    have hji : j = i := of_decide_eq_true hj
    exact hji ▸ hin

end AiGateway.Library.Runs
