import Mathlib.Data.List.Nodup
import Mathlib.Data.List.Sort

/-!
# Stable sorting by a key, largest first

In the sorted list an element stands behind the elements with a larger key and behind
those with an equal key that stood before it.
-/

namespace AiGateway.Library.StableSort
variable {α κ : Type} [LinearOrder κ] (key : α → κ)

def Desc (a b : α) : Prop := key b ≤ key a

instance : DecidableRel (Desc key) := fun a b => inferInstanceAs (Decidable (key b ≤ key a))

instance : Std.Total (Desc key) where
  total a b := le_total (key b) (key a)

instance : IsTrans α (Desc key) where
  trans _ _ _ hab hbc := hbc.trans hab

/-- `sort_by(|a, b| key(b).cmp(&key(a)))` -/
def sortDesc (l : List α) : List α := l.insertionSort (Desc key)

theorem sortDesc_perm (l : List α) : (sortDesc key l).Perm l := List.perm_insertionSort _ _

theorem sortDesc_desc (l : List α) : (sortDesc key l).Pairwise (Desc key) :=
  List.pairwise_insertionSort _ _

section
variable {key} {l : List α}


theorem pair_sublist_sortDesc {a b : α} (h : [a, b].Sublist l) (hkey : key b ≤ key a) :
    [a, b].Sublist (sortDesc key l) :=
  List.pair_sublist_insertionSort hkey h

/-- Elements of one key keep their order. -/
theorem filter_sortDesc (l : List α) (k : κ) :
    (sortDesc key l).filter (fun a => key a = k) = l.filter (fun a => key a = k) := by
  have hkey : (l.filter fun a => key a = k).Pairwise (Desc key) := by
    refine List.pairwise_of_forall_mem_list fun a ha b hb => ?_
    have hak : key a = k := of_decide_eq_true (List.mem_filter.mp ha).2
    have hbk : key b = k := of_decide_eq_true (List.mem_filter.mp hb).2
    exact (hbk.trans hak.symm).le
  have hsub : (l.filter fun a => key a = k).Sublist (sortDesc key l) :=
    List.sublist_insertionSort hkey List.filter_sublist
  have hfilter := hsub.filter fun a => decide (key a = k)
  rw [List.filter_filter] at hfilter
  simp only [Bool.and_self] at hfilter
  refine (hfilter.eq_of_length ?_).symm
  exact ((sortDesc_perm key l).filter _).length_eq.symm

theorem desc_split (hl : l.Pairwise (Desc key)) (k : κ) :
    l = l.filter (fun a => k < key a) ++ l.filter (fun a => key a = k) ++
      l.filter (fun a => key a < k) := by
  induction l with
  | nil => rfl
  | cons a l ih =>
    obtain ⟨ha, hl⟩ := List.pairwise_cons.mp hl
    have hnone : ∀ p : α → Bool, (∀ b ∈ l, p b = false) → l.filter p = [] := by
      intro p hp
      refine List.filter_eq_nil_iff.mpr fun b hb => ?_
      rw [hp b hb]
      decide
    rcases lt_trichotomy (key a) k with hlt | heq | hgt
    · have hlater : ∀ b ∈ l, key b < k := fun b hb => lt_of_le_of_lt (ha b hb) hlt
      have hfirst := hnone (fun b => k < key b) fun b hb =>
        decide_eq_false (lt_asymm (hlater b hb))
      have hsecond := hnone (fun b => key b = k) fun b hb =>
        decide_eq_false (hlater b hb).ne
      have ih := ih hl
      rw [hfirst, hsecond] at ih
      simp only [List.filter_cons, decide_eq_false (lt_asymm hlt), decide_eq_false hlt.ne,
        decide_eq_true hlt, hfirst, hsecond, Bool.false_eq_true, if_false, if_true]
      exact congrArg _ ih
    · have hfirst := hnone (fun b => k < key b) fun b hb =>
        decide_eq_false (not_lt.mpr (heq ▸ ha b hb))
      have ih := ih hl
      rw [hfirst] at ih
      simp only [List.filter_cons, heq, lt_irrefl, decide_false, decide_true, hfirst,
        Bool.false_eq_true, if_false, if_true]
      exact congrArg _ ih
    · simp only [List.filter_cons, decide_eq_false (lt_asymm hgt), decide_eq_false hgt.ne',
        decide_eq_true hgt, Bool.false_eq_true, if_false, if_true]
      exact congrArg _ (ih hl)

theorem countP_le (l : List α) (k : κ) :
    l.countP (fun b => k ≤ key b) =
      l.countP (fun b => k < key b) + l.countP (fun b => key b = k) := by
  induction l with
  | nil => rfl
  | cons b l ih =>
    simp only [List.countP_cons, ih, decide_eq_true_eq]
    rcases lt_trichotomy k (key b) with hlt | heq | hgt
    · rw [if_pos hlt.le, if_pos hlt, if_neg hlt.ne']
      omega
    · rw [if_pos heq.le, if_neg heq.not_lt, if_pos heq.symm]
      omega
    · rw [if_neg (not_le.mpr hgt), if_neg (lt_asymm hgt), if_neg hgt.ne]
      omega

end

/-- Where an element of the list stands once it is sorted. -/
theorem sortDesc_position (before after : List α) (a : α) :
    ∃ front back, sortDesc key (before ++ a :: after) = front ++ a :: back ∧
      front.length = before.countP (fun b => key a ≤ key b) +
        after.countP (fun b => key a < key b) := by
  have hsplit := desc_split (sortDesc_desc key (before ++ a :: after)) (key a)
  have hmiddle : (before ++ a :: after).filter (fun b => key b = key a) =
      before.filter (fun b => key b = key a) ++ a :: after.filter (fun b => key b = key a) := by
    simp
  rw [filter_sortDesc, hmiddle, List.append_assoc, List.append_assoc, ← List.append_assoc,
    List.cons_append] at hsplit
  have hnewer : ((sortDesc key (before ++ a :: after)).filter fun b => key a < key b).length =
      before.countP (fun b => key a < key b) + after.countP (fun b => key a < key b) := by
    have hperm := (sortDesc_perm key (before ++ a :: after)).countP_eq
      fun b => decide (key a < key b)
    rw [← List.countP_eq_length_filter, hperm]
    simp
  refine ⟨_, _, hsplit, ?_⟩
  rw [List.length_append, hnewer, ← List.countP_eq_length_filter, countP_le]
  omega

/-! ### Pairs and prefixes of lists without repetition -/

theorem pair_sublist_or {l : List α} {a b : α} (ha : a ∈ l) (hb : b ∈ l) (hne : a ≠ b) :
    [a, b].Sublist l ∨ [b, a].Sublist l := by
  induction l with
  | nil => cases ha
  | cons c l ih =>
    rcases List.mem_cons.mp ha with rfl | ha'
    · rcases List.mem_cons.mp hb with rfl | hb'
      · exact absurd rfl hne
      · exact .inl ((List.singleton_sublist.mpr hb').cons_cons _)
    · rcases List.mem_cons.mp hb with rfl | hb'
      · exact .inr ((List.singleton_sublist.mpr ha').cons_cons _)
      · rcases ih ha' hb' with h | h
        · exact .inl (h.cons _)
        · exact .inr (h.cons _)

theorem pair_sublist_asymm {l : List α} (hl : l.Nodup) {a b : α} (h : [a, b].Sublist l) :
    ¬[b, a].Sublist l := by
  induction l with
  | nil => cases h
  | cons c l ih =>
    obtain ⟨hc, hl⟩ := List.nodup_cons.mp hl
    intro h'
    cases h with
    | cons _ h =>
      cases h' with
      | cons _ h' => exact ih hl h h'
      | cons_cons _ h' => exact hc (h.subset (by simp))
    | cons_cons _ h =>
      cases h' with
      | cons _ h' => exact hc (h'.subset (by simp))
      | cons_cons _ h' => exact hc (h'.subset (by simp))

theorem mem_take_iff {front back : List α} {a : α} (h : (front ++ a :: back).Nodup) (n : ℕ) :
    a ∈ (front ++ a :: back).take n ↔ front.length < n := by
  have hfront : a ∉ front := fun hmem =>
    (List.nodup_append.mp h).2.2 a hmem a (List.mem_cons_self ..) rfl
  constructor
  · intro hmem
    by_contra hshort
    rw [List.take_append_of_le_length (Nat.le_of_not_lt hshort)] at hmem
    exact hfront (List.mem_of_mem_take hmem)
  · intro hlong
    obtain ⟨k, hk⟩ := Nat.exists_eq_add_of_lt hlong
    rw [hk, Nat.add_assoc, List.take_length_add_append, List.take_succ_cons]
    exact List.mem_append_right _ (List.mem_cons_self ..)

end AiGateway.Library.StableSort
