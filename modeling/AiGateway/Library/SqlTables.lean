import Mathlib.Data.List.Nodup

/-!
# Tables with a primary key

The rows of a table have different keys. Each statement has one lemma: what a lookup by key finds
after it. The order of the rows carries no meaning.
-/

namespace AiGateway.Library

structure SqlTable (κ ρ : Type) (key : ρ → κ) where
  rows : List ρ
  distinct : (rows.map key).Nodup

namespace SqlTable
variable {κ ρ : Type} [DecidableEq κ] {key : ρ → κ}

def empty : SqlTable κ ρ key := ⟨[], List.nodup_nil⟩

def find (t : SqlTable κ ρ key) (k : κ) : Option ρ := t.rows.find? fun r => key r = k

theorem key_of_find {t : SqlTable κ ρ key} {k : κ} {r : ρ} (h : t.find k = some r) : key r = k := by
  simpa using List.find?_some h

theorem mem_of_find {t : SqlTable κ ρ key} {k : κ} {r : ρ} (h : t.find k = some r) :
    r ∈ t.rows :=
  List.mem_of_find?_eq_some h

theorem find_of_mem {t : SqlTable κ ρ key} {r : ρ} (h : r ∈ t.rows) : t.find (key r) = some r := by
  obtain ⟨rows, distinct⟩ := t
  simp only [find]
  induction rows with
  | nil => cases h
  | cons r' rows ih =>
    obtain ⟨hhead, htail⟩ := List.nodup_cons.mp distinct
    rcases List.mem_cons.mp h with rfl | hmem
    · simp
    · have hne : key r' ≠ key r := fun heq => hhead (heq ▸ List.mem_map_of_mem hmem)
      rw [List.find?_cons_of_neg (by simpa using hne)]
      exact ih htail hmem

theorem find_iff {t : SqlTable κ ρ key} {k : κ} {r : ρ} :
    t.find k = some r ↔ r ∈ t.rows ∧ key r = k := by
  constructor
  · intro h
    exact ⟨mem_of_find h, key_of_find h⟩
  · rintro ⟨hmem, rfl⟩
    exact find_of_mem hmem

theorem notMem_of_find {t : SqlTable κ ρ key} {k : κ} (h : t.find k = none) :
    k ∉ t.rows.map key := by
  intro hmem
  obtain ⟨r, hr, rfl⟩ := List.mem_map.mp hmem
  rw [find_of_mem hr] at h
  cases h

/-- `INSERT` of a row with a new key. -/
def add (t : SqlTable κ ρ key) (r : ρ) (h : t.find (key r) = none) : SqlTable κ ρ key where
  rows := t.rows ++ [r]
  distinct := by
    rw [List.map_append, List.map_singleton, List.nodup_append]
    refine ⟨t.distinct, List.nodup_singleton _, ?_⟩
    intro k hk k' hk' heq
    rw [List.mem_singleton] at hk'
    subst hk' heq
    exact notMem_of_find h hk

theorem find_add {t : SqlTable κ ρ key} {r : ρ} (h : t.find (key r) = none) (k : κ) :
    (t.add r h).find k = if k = key r then some r else t.find k := by
  unfold find at h
  simp only [find, add, List.find?_append, List.find?_singleton, decide_eq_true_eq]
  by_cases hk : k = key r
  · subst hk
    simp [h]
  · rw [if_neg (Ne.symm hk), if_neg hk, Option.or_none]

/-- `UPDATE`; the rows that its condition leaves out are those that `f` maps to themselves. -/
def update (t : SqlTable κ ρ key) (f : ρ → ρ) (hf : ∀ r, key (f r) = key r) :
    SqlTable κ ρ key where
  rows := t.rows.map f
  distinct := by
    rw [List.map_map, show key ∘ f = key from funext hf]
    exact t.distinct

theorem find_update {t : SqlTable κ ρ key} {f : ρ → ρ} (hf : ∀ r, key (f r) = key r) (k : κ) :
    (t.update f hf).find k = (t.find k).map f := by
  simp only [find, update, List.find?_map]
  congr 2
  funext r
  simp [hf]

/-- `DELETE`. -/
def delete (t : SqlTable κ ρ key) (p : ρ → Bool) : SqlTable κ ρ key where
  rows := t.rows.filter fun r => !p r
  distinct := t.distinct.sublist (List.filter_sublist.map key)

theorem find_delete {t : SqlTable κ ρ key} {p : ρ → Bool} {k : κ} {r : ρ} :
    (t.delete p).find k = some r ↔ t.find k = some r ∧ p r = false := by
  simp only [find_iff, delete, List.mem_filter, Bool.not_eq_true']
  tauto

end SqlTable

end AiGateway.Library
