import AiGateway.Core.GatewayKeys
import AiGateway.Library.F64
import AiGateway.Library.HashMap

/-!
# The price catalog (`gateway-core/src/pricing/catalog.rs`)

Local prices are under `(provider, model)`. OpenRouter prices are under the API id,
with tables from canonical slugs and from short names to ids. `entries` is what is
displayed, `lookup` what is billed; each has its own rules of precedence.
-/

namespace AiGateway.Core
open AiGateway.Library

structure PricingEntry where
  provider : String
  model : String
  inputPer1k : F64
  outputPer1k : F64
  cachedInputPer1k : Option F64
  deriving DecidableEq, Repr

structure PricingCatalog where
  byKey : HashMap (String × String) PricingEntry := ∅
  openrouter : HashMap String PricingEntry := ∅
  openrouterBySlug : HashMap String String := ∅
  openrouterBySlugModel : HashMap String String := ∅
  openrouterByIdModel : HashMap String String := ∅
  openrouterSlugs : HashMap String String := ∅
  deriving DecidableEq

def rsplitOnce (c : Char) (s : String) : Option (String × String) :=
  let cs := s.toList.reverse
  match cs.dropWhile (· ≠ c) with
  | [] => none
  | _ :: before =>
    some (String.ofList before.reverse, String.ofList (cs.takeWhile (· ≠ c)).reverse)

/-- The name without a trailing `-` and digits. -/
def stripDate (model : String) : Option String :=
  match rsplitOnce '-' model with
  | some (start, suffix) => if suffix.toList.all Char.isDigit then some start else none
  | none => none

namespace PricingCatalog

def insertByKey (m : HashMap (String × String) PricingEntry) (e : PricingEntry) :
    HashMap (String × String) PricingEntry :=
  m.insert (e.provider, e.model) e

/-- `from_str` on the models of a parsed file. -/
def fromModels (models : List PricingEntry) : PricingCatalog :=
  { byKey := models.foldl insertByKey ∅ }

def withOverrides (c : PricingCatalog) (overrides : List PricingEntry) : PricingCatalog :=
  { c with byKey := overrides.foldl insertByKey c.byKey }

/-- A local price for the id or for its canonical slug hides an OpenRouter entry. -/
def hidden (c : PricingCatalog) (e : PricingEntry) : Bool :=
  (c.byKey.lookup (e.provider, e.model)).isSome ||
    (c.openrouterSlugs.lookup e.model).any fun slug => (c.byKey.lookup (e.provider, slug)).isSome

/-- `entries`; the arguments are how `by_key` and `openrouter` iterate. -/
def entries (c : PricingCatalog) (byKeyOrder : List ((String × String) × PricingEntry))
    (openrouterOrder : List (String × PricingEntry)) : List PricingEntry :=
  byKeyOrder.map Prod.snd ++ (openrouterOrder.map Prod.snd).filter fun e => !c.hidden e

def source (c : PricingCatalog) (provider model : String) : String :=
  if (c.byKey.lookup (provider, model)).isSome then "catalog" else "openrouter"

/-- The OpenRouter entry that a name leads to: canonical slug, last segment of one, API
id, last segment of an id. -/
def openrouterEntry (c : PricingCatalog) (model : String) : Option PricingEntry :=
  ((((c.openrouterBySlug.lookup model).or (c.openrouterBySlugModel.lookup model)).bind
    fun id => c.openrouter.lookup id).or (c.openrouter.lookup model)).or
      ((c.openrouterByIdModel.lookup model).bind fun id => c.openrouter.lookup id)

/-- An OpenRouter entry, unless a local price has its id or its slug. -/
def repriced (c : PricingCatalog) (provider : String) (entry : PricingEntry) :
    Option PricingEntry :=
  match c.openrouterSlugs.lookup entry.model with
  | none => none
  | some slug =>
    ((((c.byKey.lookup (provider, entry.model)).or (c.byKey.lookup (provider, slug))).or
      (c.byKey.lookup ("*", entry.model))).or (c.byKey.lookup ("*", slug))).or (some entry)

def lookup (c : PricingCatalog) (provider model : String) : Option PricingEntry :=
  (((c.byKey.lookup (provider, model)).or
    ((stripDate model).bind fun m => c.byKey.lookup (provider, m))).or
      (c.byKey.lookup ("*", model))).or
        ((c.openrouterEntry model).bind (c.repriced provider))

/-! ### Local prices -/

/-- A local price sits under its own provider and model. -/
def Keyed (m : HashMap (String × String) PricingEntry) : Prop :=
  ∀ key e, m.lookup key = some e → key = (e.provider, e.model)

theorem Keyed.foldl {m : HashMap (String × String) PricingEntry} (h : Keyed m)
    (overrides : List PricingEntry) : Keyed (overrides.foldl insertByKey m) := by
  induction overrides generalizing m with
  | nil => exact h
  | cons e rest ih =>
    refine ih ?_
    intro key e' hlookup
    unfold insertByKey at hlookup
    rw [HashMap.lookup_insert_cases] at hlookup
    split at hlookup
    · rename_i hkey
      cases hlookup
      exact hkey
    · exact h key e' hlookup

theorem Keyed.empty : Keyed ∅ := by
  intro key e h
  cases h

theorem Keyed.withOverrides {c : PricingCatalog} (h : Keyed c.byKey)
    (overrides : List PricingEntry) : Keyed (c.withOverrides overrides).byKey :=
  h.foldl overrides

theorem withOverrides_append (c : PricingCatalog) (first second : List PricingEntry) :
    (c.withOverrides first).withOverrides second = c.withOverrides (first ++ second) := by
  unfold withOverrides
  rw [List.foldl_append]

theorem lookup_of_byKey {c : PricingCatalog} (h : Keyed c.byKey) {key : String × String}
    {e : PricingEntry} (hlookup : c.byKey.lookup key = some e) :
    c.lookup e.provider e.model = some e := by
  rw [h key e hlookup] at hlookup
  unfold lookup
  rw [hlookup]
  rfl

/-! ### The order of overrides -/

def key (e : PricingEntry) : String × String := (e.provider, e.model)

theorem lookup_foldl_insertByKey {overrides : List PricingEntry}
    (hnodup : (overrides.map key).Nodup) (m : HashMap (String × String) PricingEntry) :
    (∀ e ∈ overrides, (overrides.foldl insertByKey m).lookup (key e) = some e) ∧
      ∀ k, k ∉ overrides.map key → (overrides.foldl insertByKey m).lookup k = m.lookup k := by
  induction overrides generalizing m with
  | nil => exact ⟨fun e he => absurd he List.not_mem_nil, fun k _ => rfl⟩
  | cons first rest ih =>
    rw [List.map_cons, List.nodup_cons] at hnodup
    obtain ⟨hrows, hframe⟩ := ih hnodup.2 (insertByKey m first)
    refine ⟨?_, ?_⟩
    · intro e he
      rcases List.mem_cons.mp he with heq | htail
      · rw [heq, List.foldl_cons, hframe (key first) hnodup.1]
        exact Finmap.lookup_insert m
      · exact hrows e htail
    · intro k hk
      rw [List.map_cons, List.mem_cons, not_or] at hk
      rw [List.foldl_cons, hframe k hk.2]
      exact Finmap.lookup_insert_of_ne m hk.1

/-- Overrides under distinct names commute. -/
theorem withOverrides_congr {overrides overrides' : List PricingEntry}
    (hnodup : (overrides.map key).Nodup) (hnodup' : (overrides'.map key).Nodup)
    (hmem : ∀ e, e ∈ overrides ↔ e ∈ overrides') (c : PricingCatalog) :
    c.withOverrides overrides = c.withOverrides overrides' := by
  obtain ⟨hrows, hframe⟩ := lookup_foldl_insertByKey hnodup c.byKey
  obtain ⟨hrows', hframe'⟩ := lookup_foldl_insertByKey hnodup' c.byKey
  have hbyKey : overrides.foldl insertByKey c.byKey = overrides'.foldl insertByKey c.byKey := by
    apply Finmap.ext_lookup
    intro k
    by_cases hk : k ∈ overrides.map key
    · obtain ⟨e, he, rfl⟩ := List.mem_map.mp hk
      rw [hrows e he, hrows' e ((hmem e).mp he)]
    · have hk' : k ∉ overrides'.map key := by
        intro hin
        obtain ⟨e, he, rfl⟩ := List.mem_map.mp hin
        exact hk (List.mem_map_of_mem ((hmem e).mpr he))
      rw [hframe k hk, hframe' k hk']
  unfold withOverrides
  rw [hbyKey]

end PricingCatalog

end AiGateway.Core
