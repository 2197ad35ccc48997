import Mathlib.Algebra.Ring.Int.Defs
import Mathlib.Data.List.Count
import Mathlib.Logic.Function.Basic
import Mathlib.Tactic.Ring

/-!
# Counters that are added to in turn

The same amount is added to the counter of one key after the other. A counter that is met `n`
times has grown by `n` amounts, and what each addition leaves is said of the start alone.
-/

namespace AiGateway.Library.Counters
variable {κ : Type} [DecidableEq κ]

def add (d : Int) (key : κ) (f : κ → Int) : κ → Int := Function.update f key (f key + d)

/-- Every addition, in turn, leaves a value for which `ok` holds. -/
def Each (ok : Int → Prop) (d : Int) : List κ → (κ → Int) → Prop
  | [], _ => True
  | key :: rest, f => ok (f key + d) ∧ Each ok d rest (add d key f)

theorem add_self (d : Int) (key : κ) (f : κ → Int) : add d key f key = f key + d :=
  Function.update_self ..

theorem add_of_ne (d : Int) {key other : κ} (f : κ → Int) (h : other ≠ key) :
    add d key f other = f other :=
  Function.update_of_ne h ..

theorem forall_count_cons [BEq κ] [LawfulBEq κ] {first : κ} {rest : List κ} {P : κ → ℕ → Prop} :
    (∀ key n, n < (first :: rest).count key → P key n) ↔
      P first 0 ∧ ∀ key n, n < rest.count key → P key (if key = first then n + 1 else n) := by
  constructor
  · intro h
    refine ⟨h first 0 (by rw [List.count_cons_self]; omega), ?_⟩
    intro key n hn
    by_cases hkey : key = first
    · subst hkey
      rw [if_pos rfl]
      exact h key (n + 1) (by rw [List.count_cons_self]; omega)
    · rw [if_neg hkey]
      exact h key n (by rw [List.count_cons_of_ne (fun heq => hkey heq.symm)]; exact hn)
  · intro h key n hn
    by_cases hkey : key = first
    · subst hkey
      rw [List.count_cons_self] at hn
      cases n with
      | zero => exact h.1
      | succ n =>
        have hlater := h.2 key n (by omega)
        rw [if_pos rfl] at hlater
        exact hlater
    · rw [List.count_cons_of_ne (fun heq => hkey heq.symm)] at hn
      have hother := h.2 key n hn
      rw [if_neg hkey] at hother
      exact hother

theorem each_iff [BEq κ] [LawfulBEq κ] {ok : Int → Prop} {d : Int} {keys : List κ} {f : κ → Int} :
    Each ok d keys f ↔ ∀ key n, n < keys.count key → ok (f key + (n + 1) * d) := by
  induction keys generalizing f with
  | nil =>
    constructor
    · intro _ key n hn
      cases hn
    · intro _
      trivial
  | cons first rest ih =>
    have hvalue : ∀ key (n : ℕ), add d first f key + (n + 1) * d =
        f key + ((if key = first then n + 1 else n : ℕ) + 1) * d := by
      intro key n
      by_cases hkey : key = first
      · rw [hkey, add_self, if_pos rfl]
        push_cast
        ring
      · rw [add_of_ne d f hkey, if_neg hkey]
    rw [Each, ih, @forall_count_cons κ _ _ _ first rest fun key n => ok (f key + (n + 1) * d),
      Nat.cast_zero, zero_add, one_mul]
    simp only [hvalue]

end AiGateway.Library.Counters
