import Mathlib.Algebra.BigOperators.Group.List.Basic
import Mathlib.Tactic.Ring

/-!
# Totals over a list of parties

A machine with many concurrent calls keeps them in a list and moves one of them
at a time. A measure of single parties then has a total, and moving one party
changes the total by what the move changes for that party.
-/

namespace AiGateway.Library.Parties
variable {α : Type}

/-- The measure `f` summed over all parties. -/
def total (f : α → ℕ) (parties : List α) : ℕ := (parties.map f).sum

@[simp] theorem total_nil (f : α → ℕ) : total f [] = 0 := rfl

@[simp] theorem total_cons (f : α → ℕ) (a : α) (as : List α) :
    total f (a :: as) = f a + total f as := by
  simp [total]

@[simp] theorem total_append (f : α → ℕ) (as bs : List α) :
    total f (as ++ bs) = total f as + total f bs := by
  simp [total]

theorem total_add (f g : α → ℕ) (parties : List α) :
    total (fun a => f a + g a) parties = total f parties + total g parties := by
  induction parties with
  | nil => rfl
  | cons p ps ih =>
    simp only [total_cons, ih]
    ring

theorem total_mono {f g : α → ℕ} {parties : List α} (h : ∀ a, f a ≤ g a) :
    total f parties ≤ total g parties := by
  induction parties with
  | nil => exact le_rfl
  | cons p ps ih =>
    rw [total_cons, total_cons]
    exact Nat.add_le_add (h p) ih

/-- Replacing party `i` exchanges its share of the total. -/
theorem total_set (f : α → ℕ) {parties : List α} {i : ℕ} {a : α} (h : parties[i]? = some a)
    (b : α) : total f (parties.set i b) + f a = total f parties + f b := by
  induction parties generalizing i with
  | nil => simp at h
  | cons p ps ih =>
    cases i with
    | zero =>
      simp only [List.getElem?_cons_zero, Option.some.injEq] at h
      subst h
      simp only [List.set_cons_zero, total_cons]
      ring
    | succ i =>
      simp only [List.getElem?_cons_succ] at h
      have hrest := ih h
      simp only [List.set_cons_succ, total_cons]
      omega

theorem le_total (f : α → ℕ) {parties : List α} {i : ℕ} {a : α} (h : parties[i]? = some a) :
    f a ≤ total f parties := by
  induction parties generalizing i with
  | nil => simp at h
  | cons p ps ih =>
    rw [total_cons]
    cases i with
    | zero =>
      simp only [List.getElem?_cons_zero, Option.some.injEq] at h
      rw [h]
      exact Nat.le_add_right _ _
    | succ i =>
      have hrest := ih (by simpa using h)
      omega

end AiGateway.Library.Parties
