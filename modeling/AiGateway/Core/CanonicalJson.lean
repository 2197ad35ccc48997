import AiGateway.Core.Fingerprint
import AiGateway.Library.Decimal

/-!
# Canonical JSON (`gateway-core/src/cache/fingerprint.rs:46-91`)

The encoding that `hash_json_value` feeds into BLAKE3 identifies two values exactly
when they are equal up to the order of object keys, and it ends where the value
ends. Equality up to key order is stated on its own here, without sorting: arrays
are related item by item, objects after a permutation of their fields.
-/

namespace AiGateway.Core
open AiGateway.Library.PrefixCode AiGateway.Library.Decimal

/-- Equal up to the order of object keys at every depth. `pairs` lines up the
related items of two arrays, or the related fields of two objects under their key. -/
inductive Value.EqUpToKeyOrder : Value → Value → Prop where
  | null : EqUpToKeyOrder .null .null
  | bool (b : Bool) : EqUpToKeyOrder (.bool b) (.bool b)
  | number (n : Number) : EqUpToKeyOrder (.number n) (.number n)
  | string (s : String) : EqUpToKeyOrder (.string s) (.string s)
  | array {items others : List Value} (pairs : List (Value × Value))
      (hitems : items = pairs.map fun p => p.1) (hothers : others = pairs.map fun p => p.2)
      (h : ∀ p ∈ pairs, EqUpToKeyOrder p.1 p.2) : EqUpToKeyOrder (.array items) (.array others)
  | object {fields others : List (String × Value)} (pairs : List (String × Value × Value))
      (hfields : fields.Perm (pairs.map fun p => (p.1, p.2.1)))
      (hothers : others.Perm (pairs.map fun p => (p.1, p.2.2)))
      (h : ∀ p ∈ pairs, EqUpToKeyOrder p.2.1 p.2.2) :
      EqUpToKeyOrder (.object fields) (.object others)

/-- No object inside the value has a key twice, as in a `serde_json::Map`. -/
inductive Value.UniqueKeys : Value → Prop where
  | null : UniqueKeys .null
  | bool (b : Bool) : UniqueKeys (.bool b)
  | number (n : Number) : UniqueKeys (.number n)
  | string (s : String) : UniqueKeys (.string s)
  | array (items : List Value) (h : ∀ v ∈ items, UniqueKeys v) : UniqueKeys (.array items)
  | object (fields : List (String × Value)) (hkeys : (fields.map Prod.fst).Nodup)
      (h : ∀ f ∈ fields, UniqueKeys f.2) : UniqueKeys (.object fields)

section
variable {β : Type}

theorem sortByKey_sorted (fields : List (String × β)) :
    (sortByKey fields).Pairwise fun f g => f.1 ≤ g.1 := by
  have hmap := List.pairwise_insertionSort (· ≤ ·) (fields.map Prod.fst)
  have hkeys : (sortByKey fields).map Prod.fst = (fields.map Prod.fst).insertionSort (· ≤ ·) :=
    List.map_insertionSort _ _ Prod.fst fields fun _ _ _ _ => Iff.rfl
  rw [← hkeys, List.pairwise_map] at hmap
  exact hmap

/-- Sorting forgets the order of fields that have distinct keys. -/
theorem sortByKey_perm {fields others : List (String × β)} (hperm : fields.Perm others)
    (hkeys : (fields.map Prod.fst).Nodup) : sortByKey fields = sortByKey others := by
  have hsorted : (sortByKey fields).Perm (sortByKey others) :=
    ((List.perm_insertionSort _ fields).trans hperm).trans (List.perm_insertionSort _ others).symm
  refine hsorted.eq_of_pairwise ?_ (sortByKey_sorted fields) (sortByKey_sorted others)
  intro f g hf hg hfg hgf
  have hf' : f ∈ fields := mem_sortByKey.mp hf
  have hg' : g ∈ fields := hperm.mem_iff.mpr (mem_sortByKey.mp hg)
  exact List.inj_on_of_nodup_map hkeys hf' hg' (le_antisymm hfg hgf)

end

/-! ### Values that are sorted to the same value -/

theorem eqUpToKeyOrder_array {items others : List Value}
    (ih : ∀ v ∈ items, ∀ w, v.SameUpToKeyOrder w → v.EqUpToKeyOrder w)
    (h : (Value.array items).SameUpToKeyOrder (.array others)) :
    (Value.array items).EqUpToKeyOrder (.array others) := by
  simp only [Value.SameUpToKeyOrder, Value.sortKeys, sortKeysItems_eq, Value.array.injEq] at h
  have hlen : items.length = others.length := by
    simpa using congrArg List.length h
  refine .array (items.zip others) ?_ ?_ ?_
  · exact (List.map_fst_zip hlen.le).symm
  · exact (List.map_snd_zip hlen.ge).symm
  · intro p hp
    obtain ⟨i, hi, hget⟩ := List.mem_iff_getElem.mp hp
    rw [List.getElem_zip] at hget
    have hsame := congrArg (fun l => l[i]?) h
    simp only [List.length_zip, lt_min_iff] at hi
    simp only [List.getElem?_map, List.getElem?_eq_getElem hi.1, List.getElem?_eq_getElem hi.2,
      Option.map_some, Option.some.injEq] at hsame
    rw [← hget]
    exact ih _ (List.getElem_mem _) _ hsame

theorem eqUpToKeyOrder_object {fields others : List (String × Value)}
    (ih : ∀ f ∈ fields, ∀ w, f.2.SameUpToKeyOrder w → f.2.EqUpToKeyOrder w)
    (h : (Value.object fields).SameUpToKeyOrder (.object others)) :
    (Value.object fields).EqUpToKeyOrder (.object others) := by
  simp only [Value.SameUpToKeyOrder, Value.sortKeys, sortKeysFields_eq, sortByKey_map,
    Value.object.injEq] at h
  have hlen : (sortByKey fields).length = (sortByKey others).length := by
    simpa using congrArg List.length h
  -- the fields are lined up in the order of their keys
  have hfield : ∀ i (hi : i < (sortByKey fields).length) (hi' : i < (sortByKey others).length),
      (sortByKey fields)[i].1 = (sortByKey others)[i].1 ∧
        (sortByKey fields)[i].2.SameUpToKeyOrder (sortByKey others)[i].2 := by
    intro i hi hi'
    have hsame := congrArg (fun l => l[i]?) h
    simp only [List.getElem?_map, List.getElem?_eq_getElem hi, List.getElem?_eq_getElem hi',
      Option.map_some, Option.some.injEq, Prod.mk.injEq] at hsame
    exact hsame
  refine .object (((sortByKey fields).zip (sortByKey others)).map fun p => (p.1.1, p.1.2, p.2.2))
    ?_ ?_ ?_
  · have hfst : (((sortByKey fields).zip (sortByKey others)).map fun p =>
        (p.1.1, p.1.2, p.2.2)).map (fun p => (p.1, p.2.1)) = sortByKey fields := by
      rw [List.map_map]
      exact List.map_fst_zip hlen.le
    rw [hfst]
    exact (List.perm_insertionSort _ fields).symm
  · have hsnd : (((sortByKey fields).zip (sortByKey others)).map fun p =>
        (p.1.1, p.1.2, p.2.2)).map (fun p => (p.1, p.2.2)) = sortByKey others := by
      refine List.ext_getElem (by simp [hlen]) ?_
      intro i hi hi'
      have hkey := (hfield i (hlen ▸ hi') hi').1
      simp only [List.getElem_map, List.getElem_zip, hkey]
    rw [hsnd]
    exact (List.perm_insertionSort _ others).symm
  · intro p hp
    obtain ⟨q, hq, rfl⟩ := List.mem_map.mp hp
    obtain ⟨i, hi, hget⟩ := List.mem_iff_getElem.mp hq
    rw [List.getElem_zip] at hget
    simp only [List.length_zip, lt_min_iff] at hi
    rw [← hget]
    exact ih _ (mem_sortByKey.mp (List.getElem_mem _)) _ (hfield i hi.1 hi.2).2

/-- Values with the same sorted form are equal up to key order. -/
theorem Value.SameUpToKeyOrder.eq {v w : Value} (h : v.SameUpToKeyOrder w) :
    v.EqUpToKeyOrder w := by
  induction v using Value.inductionOn generalizing w with
  | null =>
    cases w with
    | null => exact .null
    | _ => simp [SameUpToKeyOrder, sortKeys] at h
  | bool b =>
    cases w with
    | bool c =>
      simp only [SameUpToKeyOrder, sortKeys, Value.bool.injEq] at h
      rw [h]
      exact .bool c
    | _ => simp [SameUpToKeyOrder, sortKeys] at h
  | number n =>
    cases w with
    | number m =>
      simp only [SameUpToKeyOrder, sortKeys, Value.number.injEq] at h
      rw [h]
      exact .number m
    | _ => simp [SameUpToKeyOrder, sortKeys] at h
  | string s =>
    cases w with
    | string t =>
      simp only [SameUpToKeyOrder, sortKeys, Value.string.injEq] at h
      rw [h]
      exact .string t
    | _ => simp [SameUpToKeyOrder, sortKeys] at h
  | array items ih =>
    cases w with
    | array others => exact eqUpToKeyOrder_array (fun v hv w hw => ih v hv hw) h
    | _ => simp [SameUpToKeyOrder, sortKeys] at h
  | object fields ih =>
    cases w with
    | object others => exact eqUpToKeyOrder_object (fun f hf w hw => ih f hf hw) h
    | _ => simp [SameUpToKeyOrder, sortKeys] at h

/-! ### The encoding does not depend on the order of keys -/

theorem Value.EqUpToKeyOrder.hash_eq {numText : Number → String} {v w : Value}
    (h : v.EqUpToKeyOrder w) (hv : v.UniqueKeys) :
    hashJsonValue numText v = hashJsonValue numText w := by
  induction h with
  | null => rfl
  | bool b => rfl
  | number n => rfl
  | string s => rfl
  | array pairs hitems hothers _ ih =>
    cases hv with
    | array _ hv =>
      subst hitems hothers
      have hall : ∀ p ∈ pairs, hashJsonValue numText p.1 = hashJsonValue numText p.2 :=
        fun p hp => ih p hp (hv p.1 (List.mem_map_of_mem hp))
      simp only [hashJsonValue, hashItems_eq, List.length_map, List.flatMap_map]
      rw [List.flatMap_congr hall]
  | @object fields others pairs hfields hothers _ ih =>
    cases hv with
    | object _ hkeys hv =>
      have hall : ∀ p ∈ pairs, hashJsonValue numText p.2.1 = hashJsonValue numText p.2.2 := by
        intro p hp
        exact ih p hp (hv (p.1, p.2.1) (hfields.mem_iff.mpr (List.mem_map_of_mem hp)))
      -- encoding the values first turns the two objects into permutations of each other
      have hperm : (hashFields numText fields).Perm (hashFields numText others) := by
        have hleft := hfields.map fun f => (f.1, hashJsonValue numText f.2)
        have hright := hothers.map fun f => (f.1, hashJsonValue numText f.2)
        rw [hashFields_eq, hashFields_eq]
        refine hleft.trans (List.Perm.trans (.of_eq ?_) hright.symm)
        rw [List.map_map, List.map_map]
        refine List.map_congr_left fun p hp => ?_
        simp only [Function.comp_apply, hall p hp]
      have hnodup : ((hashFields numText fields).map Prod.fst).Nodup := by
        rw [hashFields_eq, List.map_map]
        exact hkeys
      have hlen : fields.length = others.length := by
        rw [hfields.length_eq, hothers.length_eq, List.length_map, List.length_map]
      rw [hashJsonValue, hashJsonValue, sortByKey_perm hperm hnodup, hlen]

/-- Two encodings agree, whatever follows them, only if the rest agrees and the
values are equal up to key order; and values equal up to key order have one
encoding. -/
theorem canonical_encoding {numText : Number → String} (hnum : Function.Injective numText)
    (v w : Value) (hv : v.Fits numText) (hw : w.Fits numText) (hkeys : v.UniqueKeys) :
    (∀ x y : Bytes, hashJsonValue numText v ++ x = hashJsonValue numText w ++ y →
        x = y ∧ v.EqUpToKeyOrder w) ∧
      (v.EqUpToKeyOrder w → hashJsonValue numText v = hashJsonValue numText w) := by
  refine ⟨?_, fun hsame => hsame.hash_eq hkeys⟩
  intro x y h
  obtain ⟨hsame, hrest⟩ := hashJsonValue_delimited hnum v w x y hv hw h
  exact ⟨hrest, hsame.eq⟩

/-- The decimal text of an integer, and some text for a float. -/
def sampleNumber : Number → String
  | .posInt n => toString n.toNat
  | .negInt n _ => "-" ++ toString n.natAbs
  | .float bits _ => "f" ++ toString bits.toNat

theorem sampleNumber_injective : Function.Injective sampleNumber := by
  intro a b h
  cases a with
  | posInt m =>
    cases b with
    | posInt n => rw [UInt64.toNat_inj.mp (toString_nat_inj h)]
    | negInt n hn => exact absurd h (toString_nat_ne (by decide) _ _)
    | float bits hb => exact absurd h (toString_nat_ne (by decide) _ _)
  | negInt m hm =>
    cases b with
    | posInt n => exact absurd h.symm (toString_nat_ne (by decide) _ _)
    | negInt n hn =>
      have habs := toString_nat_inj (prefixed_inj h)
      have hmn : m = n := by omega
      subst hmn
      rfl
    | float bits hb =>
      have hl := congrArg String.toList h
      simp [sampleNumber] at hl
  | float bits hb =>
    cases b with
    | posInt n => exact absurd h.symm (toString_nat_ne (by decide) _ _)
    | negInt n hn =>
      have hl := congrArg String.toList h
      simp [sampleNumber] at hl
    | float bits' hb' =>
      have hbits := UInt64.toNat_inj.mp (toString_nat_inj (prefixed_inj h))
      subst hbits
      rfl

def helloFields : List (String × Value) := [("model", .string "gpt-4o"), ("n", .number (.posInt 1))]

def swappedFields : List (String × Value) := [("n", .number (.posInt 1)), ("model", .string "gpt-4o")]

theorem canonical_encoding_swapped :
    hashJsonValue sampleNumber (.object helloFields) =
        hashJsonValue sampleNumber (.object swappedFields) ∧
      ∀ x y : Bytes, hashJsonValue sampleNumber (.object helloFields) ++ x =
          hashJsonValue sampleNumber (.object swappedFields) ++ y → x = y := by
  have hfits : ∀ f ∈ helloFields, (asBytes f.1).length < 256 ^ 8 ∧ f.2.Fits sampleNumber ∧
      f.2.UniqueKeys := by
    intro f hf
    simp only [helloFields, List.mem_cons, List.not_mem_nil, or_false] at hf
    rcases hf with rfl | rfl
    · exact ⟨by decide, .string _ (by decide), .string _⟩
    · exact ⟨by decide, .number _ (by decide), .number _⟩
  have hswap : swappedFields.Perm helloFields := List.Perm.swap _ _ _
  have hboth := canonical_encoding sampleNumber_injective (.object helloFields)
    (.object swappedFields)
    (.object _ (by decide) (fun f hf => (hfits f hf).1) fun f hf => (hfits f hf).2.1)
    (.object _ (by decide) (fun f hf => (hfits f (hswap.mem_iff.mp hf)).1)
      fun f hf => (hfits f (hswap.mem_iff.mp hf)).2.1)
    (.object _ (by decide) fun f hf => (hfits f hf).2.2)
  refine ⟨hboth.2 (.object (helloFields.map fun f => (f.1, f.2, f.2)) ?_ ?_ ?_), ?_⟩
  · exact List.Perm.refl _
  · exact hswap
  · intro p hp
    obtain ⟨f, hf, rfl⟩ := List.mem_map.mp hp
    simp only [helloFields, List.mem_cons, List.not_mem_nil, or_false] at hf
    rcases hf with rfl | rfl
    · exact .string _
    · exact .number _
  · intro x y h
    exact (hboth.1 x y h).1

end AiGateway.Core
