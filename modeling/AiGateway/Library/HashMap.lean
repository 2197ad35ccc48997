import Mathlib.Data.Finmap

/-!
# Hash maps without an order

A hash map is a finite map. What a loop over it sees is a list of its entries in
some order; nothing is known about the order, so whoever iterates takes it as a
parameter and `Iterates` says that it belongs to the map.
-/

namespace AiGateway.Library

abbrev HashMap (κ υ : Type) := Finmap fun _ : κ => υ

namespace HashMap
variable {κ υ : Type} [DecidableEq κ]

/-- `order` lists every entry of the map once. -/
def Iterates (m : HashMap κ υ) (order : List (κ × υ)) : Prop :=
  (order.map fun e => (⟨e.1, e.2⟩ : Sigma fun _ : κ => υ) : Multiset _) = m.entries

omit [DecidableEq κ] in
theorem iterates_exists (m : HashMap κ υ) : ∃ order, Iterates m order := by
  obtain ⟨entries, hnodup⟩ := m
  induction entries using Quotient.inductionOn with
  | h l =>
    refine ⟨l.map fun e => (e.1, e.2), ?_⟩
    unfold Iterates
    rw [List.map_map]
    exact congrArg _ (List.map_id l)

/-- One of the orders in which a map can iterate. -/
noncomputable def someOrder (m : HashMap κ υ) : List (κ × υ) := (iterates_exists m).choose

omit [DecidableEq κ] in
theorem someOrder_iterates (m : HashMap κ υ) : Iterates m (someOrder m) :=
  (iterates_exists m).choose_spec

theorem Iterates.mem {m : HashMap κ υ} {order : List (κ × υ)} (h : Iterates m order) {k : κ}
    {v : υ} : (k, v) ∈ order ↔ m.lookup k = some v := by
  have hmem : (⟨k, v⟩ : Sigma fun _ : κ => υ) ∈ m.entries ↔ (k, v) ∈ order := by
    rw [← h, Multiset.mem_coe, List.mem_map]
    constructor
    · rintro ⟨e, he, heq⟩
      cases heq
      exact he
    · intro he
      exact ⟨(k, v), he, rfl⟩
  exact hmem.symm.trans Finmap.lookup_eq_some_iff.symm

omit [DecidableEq κ] in
theorem Iterates.nodup_keys {m : HashMap κ υ} {order : List (κ × υ)} (h : Iterates m order) :
    (order.map Prod.fst).Nodup := by
  have hkeys := m.nodupKeys
  rw [← h, Multiset.coe_nodupKeys, List.NodupKeys, List.keys, List.map_map] at hkeys
  exact hkeys

theorem iterates_of_mem {m : HashMap κ υ} {order : List (κ × υ)}
    (hnodup : (order.map Prod.fst).Nodup)
    (hmem : ∀ k v, (k, v) ∈ order ↔ m.lookup k = some v) : Iterates m order := by
  have hdistinct : (order.map fun e => (⟨e.1, e.2⟩ : Sigma fun _ : κ => υ)).Nodup := by
    refine List.Nodup.of_map Sigma.fst ?_
    rw [List.map_map]
    exact hnodup
  refine (Multiset.Nodup.ext (Multiset.coe_nodup.mpr hdistinct) m.nodup_entries).mpr ?_
  rintro ⟨k, v⟩
  rw [← Finmap.lookup_eq_some_iff, ← hmem, Multiset.mem_coe, List.mem_map]
  constructor
  · rintro ⟨e, he, heq⟩
    cases heq
    exact he
  · intro he
    exact ⟨(k, v), he, rfl⟩

theorem lookup_insert_cases (m : HashMap κ υ) (k k' : κ) (v : υ) :
    (m.insert k v).lookup k' = if k' = k then some v else m.lookup k' := by
  by_cases hk : k' = k
  · rw [hk, Finmap.lookup_insert, if_pos rfl]
  · rw [Finmap.lookup_insert_of_ne m hk, if_neg hk]

theorem lookup_erase_cases (m : HashMap κ υ) (k k' : κ) :
    (m.erase k).lookup k' = if k' = k then none else m.lookup k' := by
  by_cases hk : k' = k
  · rw [hk, Finmap.lookup_erase, if_pos rfl]
  · rw [Finmap.lookup_erase_ne hk, if_neg hk]

/-- `retain`. -/
def retain (m : HashMap κ υ) (keep : κ → υ → Bool) : HashMap κ υ :=
  ⟨m.entries.filter fun e => keep e.1 e.2, by
    rw [← Multiset.nodup_keys]
    have hnodup := m.nodupKeys.nodup_keys
    exact Multiset.nodup_of_le (Multiset.map_le_map (Multiset.filter_le _ _)) hnodup⟩

theorem lookup_retain (m : HashMap κ υ) (keep : κ → υ → Bool) (k : κ) (v : υ) :
    (retain m keep).lookup k = some v ↔ m.lookup k = some v ∧ keep k v = true := by
  have hleft : (retain m keep).lookup k = some v ↔
      (⟨k, v⟩ : Sigma fun _ : κ => υ) ∈ (retain m keep).entries := Finmap.lookup_eq_some_iff
  have hright : m.lookup k = some v ↔ (⟨k, v⟩ : Sigma fun _ : κ => υ) ∈ m.entries :=
    Finmap.lookup_eq_some_iff
  rw [hleft, hright]
  exact Multiset.mem_filter

/-- The map with every value replaced. -/
def mapValues (f : υ → υ) (m : HashMap κ υ) : HashMap κ υ :=
  ⟨m.entries.map fun e => ⟨e.1, f e.2⟩, by
    rw [← Multiset.nodup_keys, Multiset.keys, Multiset.map_map]
    exact m.nodupKeys.nodup_keys⟩

theorem lookup_mapValues (f : υ → υ) (m : HashMap κ υ) (k : κ) :
    (mapValues f m).lookup k = (m.lookup k).map f := by
  refine Option.ext fun v => ?_
  rw [Option.map_eq_some_iff]
  have hleft : (mapValues f m).lookup k = some v ↔
      (⟨k, v⟩ : Sigma fun _ : κ => υ) ∈ (mapValues f m).entries := Finmap.lookup_eq_some_iff
  have hright : ∀ a, m.lookup k = some a ↔ (⟨k, a⟩ : Sigma fun _ : κ => υ) ∈ m.entries :=
    fun a => Finmap.lookup_eq_some_iff
  refine hleft.trans (Multiset.mem_map.trans ?_)
  simp only [hright]
  constructor
  · rintro ⟨e, he, heq⟩
    cases heq
    exact ⟨e.2, he, rfl⟩
  · rintro ⟨a, ha, rfl⟩
    exact ⟨⟨k, a⟩, ha, rfl⟩

/-- The order in which maps iterate, as far as it depends on the set of keys. -/
structure KeyOrder (κ : Type) where
  names : Finset κ → List κ
  nodup : ∀ ks, (names ks).Nodup
  mem : ∀ ks k, k ∈ names ks ↔ k ∈ ks

def KeyOrder.entries (order : KeyOrder κ) (m : HashMap κ υ) : List (κ × υ) :=
  (order.names m.keys).filterMap fun k => (m.lookup k).map fun v => (k, v)

theorem KeyOrder.mem_entries (order : KeyOrder κ) {m : HashMap κ υ} {k : κ} {v : υ} :
    (k, v) ∈ order.entries m ↔ m.lookup k = some v := by
  unfold KeyOrder.entries
  rw [List.mem_filterMap]
  constructor
  · rintro ⟨k', -, h⟩
    obtain ⟨v', hv', heq⟩ := Option.map_eq_some_iff.mp h
    cases heq
    exact hv'
  · intro h
    refine ⟨k, ?_, by rw [h]; rfl⟩
    rw [order.mem, Finmap.mem_keys, Finmap.mem_iff]
    exact ⟨v, h⟩

theorem keys_mapValues (f : υ → υ) (m : HashMap κ υ) : (mapValues f m).keys = m.keys := by
  ext k
  rw [Finmap.mem_keys, Finmap.mem_keys, Finmap.mem_iff, Finmap.mem_iff, lookup_mapValues]
  simp only [Option.map_eq_some_iff]
  constructor
  · rintro ⟨-, a, ha, -⟩
    exact ⟨a, ha⟩
  · rintro ⟨a, ha⟩
    exact ⟨f a, a, ha, rfl⟩

theorem KeyOrder.entries_mapValues (order : KeyOrder κ) (f : υ → υ) (m : HashMap κ υ) :
    order.entries (mapValues f m) = (order.entries m).map fun e => (e.1, f e.2) := by
  unfold KeyOrder.entries
  rw [keys_mapValues, List.map_filterMap]
  congr 1
  funext k
  rw [lookup_mapValues]
  cases m.lookup k <;> rfl

/-! ### Keys with one value -/

/-- Overwriting insert that marks a key when it held another value. -/
def insertMarking [DecidableEq υ] (st : HashMap κ υ × List κ) (item : κ × υ) :
    HashMap κ υ × List κ :=
  (st.1.insert item.1 item.2,
    match st.1.lookup item.1 with
    | some previous => if previous ≠ item.2 then item.1 :: st.2 else st.2
    | none => st.2)

/-- The keys whose items all carry one value, with that value. -/
def uniqueValues [DecidableEq υ] (items : List (κ × υ)) : HashMap κ υ :=
  let st := items.foldl insertMarking (∅, [])
  retain st.1 fun k _ => k ∉ st.2

/-- What the fold knows of the items seen so far. -/
structure Marked [DecidableEq υ] (items : List (κ × υ)) (st : HashMap κ υ × List κ) : Prop where
  seen : ∀ k v, st.1.lookup k = some v → (k, v) ∈ items
  all : ∀ k v, (k, v) ∈ items → ∃ v', st.1.lookup k = some v'
  marked : ∀ k, k ∈ st.2 ↔ ∃ v v', (k, v) ∈ items ∧ (k, v') ∈ items ∧ v ≠ v'

omit [DecidableEq κ] in
/-- A key has two values with one more item: it had them before, or the new value is another. -/
theorem two_values_concat {items : List (κ × υ)} {key k : κ} {value : υ} :
    (∃ v v', (k, v) ∈ items ++ [(key, value)] ∧ (k, v') ∈ items ++ [(key, value)] ∧ v ≠ v') ↔
      (∃ v v', (k, v) ∈ items ∧ (k, v') ∈ items ∧ v ≠ v') ∨
        (k = key ∧ ∃ v, (key, v) ∈ items ∧ v ≠ value) := by
  simp only [List.mem_append, List.mem_singleton, Prod.mk.injEq]
  constructor
  · rintro ⟨v, v', hv | ⟨rfl, rfl⟩, hv' | ⟨hk, rfl⟩, hne⟩
    · exact Or.inl ⟨v, v', hv, hv', hne⟩
    · exact Or.inr ⟨hk, v, hk ▸ hv, hne⟩
    · exact Or.inr ⟨rfl, v', hv', hne.symm⟩
    · exact absurd rfl hne
  · rintro (⟨v, v', hv, hv', hne⟩ | ⟨rfl, v, hv, hne⟩)
    · exact ⟨v, v', Or.inl hv, Or.inl hv', hne⟩
    · exact ⟨v, value, Or.inl hv, Or.inr ⟨rfl, rfl⟩, hne⟩

theorem Marked.insertMarking [DecidableEq υ] {items : List (κ × υ)} {st : HashMap κ υ × List κ}
    (h : Marked items st) (item : κ × υ) :
    Marked (items ++ [item]) (insertMarking st item) := by
  obtain ⟨key, value⟩ := item
  have hmem : ∀ k v, (k, v) ∈ items ++ [(key, value)] ↔
      (k, v) ∈ items ∨ (k = key ∧ v = value) := by
    intro k v
    rw [List.mem_append, List.mem_singleton, Prod.mk.injEq]
  refine ⟨?_, ?_, ?_⟩
  · intro k v hlookup
    rw [hmem]
    simp only [HashMap.insertMarking, lookup_insert_cases] at hlookup
    split at hlookup
    · rename_i hk
      cases hlookup
      exact Or.inr ⟨hk, rfl⟩
    · exact Or.inl (h.seen k v hlookup)
  · intro k v hkv
    simp only [HashMap.insertMarking, lookup_insert_cases]
    split
    · exact ⟨value, rfl⟩
    · rename_i hk
      rcases (hmem k v).mp hkv with hold | hnew
      · exact h.all k v hold
      · exact absurd hnew.1 hk
  · intro k
    rw [two_values_concat, ← h.marked]
    simp only [HashMap.insertMarking]
    split
    · rename_i previous hprevious
      have hseen := h.seen key previous hprevious
      split
      · rename_i hne
        rw [List.mem_cons, or_comm]
        exact or_congr_right ⟨fun hk => ⟨hk, previous, hseen, hne⟩, fun hk => hk.1⟩
      · rename_i hsame
        refine ⟨Or.inl, ?_⟩
        rintro (hk | ⟨rfl, v, hv, hne⟩)
        · exact hk
        · exact (h.marked k).mpr ⟨v, previous, hv, hseen, fun heq =>
            hne (heq.trans (not_not.mp hsame))⟩
    · rename_i hnone
      refine ⟨Or.inl, ?_⟩
      rintro (hk | ⟨rfl, v, hv, -⟩)
      · exact hk
      · obtain ⟨v', hv'⟩ := h.all k v hv
        rw [hnone] at hv'
        cases hv'

theorem marked_foldl [DecidableEq υ] (items : List (κ × υ)) :
    Marked items (items.foldl HashMap.insertMarking (∅, [])) := by
  induction items using List.reverseRecOn with
  | nil =>
    refine ⟨?_, ?_, ?_⟩
    · intro k v hlookup
      cases hlookup
    · intro k v hmem
      cases hmem
    · intro k
      simp
  | append_singleton items item ih =>
    rw [List.foldl_append]
    exact ih.insertMarking item

/-- A key is kept exactly when its items agree; the order of the items is irrelevant. -/
theorem lookup_uniqueValues [DecidableEq υ] (items : List (κ × υ)) (k : κ) (v : υ) :
    (uniqueValues items).lookup k = some v ↔
      (k, v) ∈ items ∧ ∀ v', (k, v') ∈ items → v' = v := by
  have h := marked_foldl items
  unfold uniqueValues
  simp only [lookup_retain, decide_eq_true_eq]
  rw [h.marked k]
  constructor
  · rintro ⟨hlookup, hagree⟩
    have hmem := h.seen k v hlookup
    refine ⟨hmem, fun v' hv' => ?_⟩
    by_contra hne
    exact hagree ⟨v', v, hv', hmem, hne⟩
  · rintro ⟨hmem, hagree⟩
    obtain ⟨v', hlookup⟩ := h.all k v hmem
    have hv' := hagree v' (h.seen k v' hlookup)
    refine ⟨hv' ▸ hlookup, ?_⟩
    rintro ⟨v₁, v₂, h₁, h₂, hne⟩
    exact hne ((hagree v₁ h₁).trans (hagree v₂ h₂).symm)

end HashMap

end AiGateway.Library
