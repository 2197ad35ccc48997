import Mathlib.Algebra.BigOperators.Group.List.Basic
import Mathlib.Data.List.Dedup
import Mathlib.Data.List.Forall2

/-!
# Rows grouped by a key

The groups of a list of rows share the rows among them, so that what is summed up group by group
is what is summed up over all rows. Of groups that each count for something none can be left out.
-/

namespace AiGateway.Library.GroupBy
variable {α β κ M : Type}

section
variable [DecidableEq κ]

def group (key : α → κ) (rows : List α) (k : κ) : List α := rows.filter fun row => key row = k

def keys (key : α → κ) (rows : List α) : List κ := (rows.map key).dedup

/-- `GROUP BY`: each key that occurs, with its rows. -/
def groups (key : α → κ) (rows : List α) : List (κ × List α) :=
  (keys key rows).map fun k => (k, group key rows k)

theorem length_groups (key : α → κ) (rows : List α) :
    (groups key rows).length = (keys key rows).length := by
  unfold groups
  rw [List.length_map]

theorem groups_ne_nil {key : α → κ} {rows : List α} {g : κ × List α}
    (hg : g ∈ groups key rows) : g.2 ≠ [] := by
  obtain ⟨k, hk, rfl⟩ := List.mem_map.mp hg
  obtain ⟨row, hrow, hkey⟩ := List.mem_map.mp (List.mem_dedup.mp hk)
  have hmem : row ∈ group key rows k := List.mem_filter.mpr ⟨hrow, decide_eq_true hkey⟩
  exact List.ne_nil_of_mem hmem

end

section
variable [AddCommMonoid M]

def total (f : α → M) (rows : List α) : M := (rows.map f).sum

theorem total_nil (f : α → M) : total f [] = 0 := List.sum_nil

theorem total_cons (f : α → M) (row : α) (rows : List α) :
    total f (row :: rows) = f row + total f rows := List.sum_cons

theorem total_append (f : α → M) (rows rows' : List α) :
    total f (rows ++ rows') = total f rows + total f rows' := by
  unfold total
  rw [List.map_append, List.sum_append]

theorem total_map (f : β → M) (g : α → β) (rows : List α) :
    total f (rows.map g) = total (fun row => f (g row)) rows := by
  unfold total
  rw [List.map_map]
  rfl

theorem total_perm (f : α → M) {rows rows' : List α} (h : rows.Perm rows') :
    total f rows = total f rows' := (h.map f).sum_eq

theorem total_filter_add (f : α → M) (p : α → Bool) (rows : List α) :
    total f (rows.filter p) + total f (rows.filter fun row => !p row) = total f rows := by
  rw [← total_append]
  exact total_perm f (List.filter_append_perm p rows)

theorem total_forall₂ {f : α → M} {g : β → M} {rows : List α} {rows' : List β}
    (h : List.Forall₂ (fun row row' => f row = g row') rows rows') :
    total f rows = total g rows' := by
  induction h with
  | nil => rfl
  | cons hrow _ ih => rw [total_cons, total_cons, hrow, ih]

variable [DecidableEq κ]

theorem total_keys (key : α → κ) (f : α → M) (rows : List α) {ks : List κ} (hks : ks.Nodup) :
    total (fun k => total f (group key rows k)) ks =
      total f (rows.filter fun row => key row ∈ ks) := by
  induction ks with
  | nil =>
    have hnone : rows.filter (fun row => key row ∈ ([] : List κ)) = [] := by
      rw [List.filter_eq_nil_iff]
      intro row _ hmem
      exact absurd (of_decide_eq_true hmem) List.not_mem_nil
    rw [hnone]
    rfl
  | cons k ks ih =>
    obtain ⟨hk, hks⟩ := List.nodup_cons.mp hks
    have hsplit := total_filter_add f (fun row => decide (key row = k))
      (rows.filter fun row => key row ∈ k :: ks)
    rw [List.filter_filter, List.filter_filter] at hsplit
    have hown : rows.filter (fun row => decide (key row = k) && decide (key row ∈ k :: ks)) =
        group key rows k := by
      apply List.filter_congr
      intro row _
      rw [← Bool.decide_and]
      refine decide_eq_decide.mpr ⟨fun h => h.1, fun h => ⟨h, ?_⟩⟩
      rw [h]
      exact List.mem_cons_self ..
    have hothers : rows.filter (fun row => !decide (key row = k) && decide (key row ∈ k :: ks)) =
        rows.filter fun row => key row ∈ ks := by
      apply List.filter_congr
      intro row _
      rw [← decide_not, ← Bool.decide_and]
      refine decide_eq_decide.mpr ⟨fun h => (List.mem_cons.mp h.2).resolve_left h.1, fun h => ?_⟩
      refine ⟨?_, List.mem_cons_of_mem _ h⟩
      intro heq
      exact hk (heq ▸ h)
    rw [hown, hothers] at hsplit
    rw [total_cons, ih hks, hsplit]

theorem total_keys_of_mem (key : α → κ) (f : α → M) {rows : List α} {ks : List κ}
    (hks : ks.Nodup) (hall : ∀ row ∈ rows, key row ∈ ks) :
    total (fun k => total f (group key rows k)) ks = total f rows := by
  have hfilter : rows.filter (fun row => key row ∈ ks) = rows := by
    rw [List.filter_eq_self]
    intro row hrow
    exact decide_eq_true (hall row hrow)
  rw [total_keys key f rows hks, hfilter]

/-- What is summed up group by group is what is summed up over all rows. -/
theorem total_groups (key : α → κ) (f : α → M) (rows : List α) :
    total (fun g => total f g.2) (groups key rows) = total f rows := by
  have hall : ∀ row ∈ rows, key row ∈ keys key rows := fun row hrow =>
    List.mem_dedup.mpr (List.mem_map_of_mem hrow)
  unfold groups
  rw [total_map]
  exact total_keys_of_mem key f (List.nodup_dedup _) hall

end

theorem total_one (rows : List α) : total (fun _ => 1) rows = rows.length := by
  induction rows with
  | nil => rfl
  | cons row rows ih =>
    rw [total_cons, ih, List.length_cons, Nat.add_comm]

theorem total_pos {f : α → ℕ} {rows : List α} (hne : rows ≠ []) (hf : ∀ row ∈ rows, 0 < f row) :
    0 < total f rows := by
  cases rows with
  | nil => exact absurd rfl hne
  | cons row rows =>
    have hrow := hf row (List.mem_cons_self ..)
    rw [total_cons]
    omega

/-- Groups that each count for something add up to all of them only if none is left out. -/
theorem total_take_eq_iff {f : α → ℕ} {rows : List α} (hf : ∀ row ∈ rows, 0 < f row) (n : ℕ) :
    total f (rows.take n) = total f rows ↔ rows.length ≤ n := by
  have hsplit := total_append f (rows.take n) (rows.drop n)
  rw [List.take_append_drop] at hsplit
  constructor
  · intro heq
    by_contra hlong
    have hne : rows.drop n ≠ [] := by
      intro hnil
      exact hlong (List.drop_eq_nil_iff.mp hnil)
    have hpos := total_pos hne fun row hrow => hf row (List.mem_of_mem_drop hrow)
    omega
  · intro hlen
    rw [List.take_of_length_le hlen]

end AiGateway.Library.GroupBy
