import AiGateway.Core.OpenRouter

/-!
# What is listed and what is billed

`entries` shows an OpenRouter row under its API id. `lookup` of that id first looks
for a local price of the name without its date, and then prefers a canonical slug
of that spelling ("canonical names remain preferred lookup keys").
-/

namespace AiGateway.Core
open AiGateway.Library

namespace PricingCatalog

/-- The id that a name leads to through the canonical slugs; itself when it is none. -/
def canonicalId (c : PricingCatalog) (model : String) : String :=
  ((c.openrouterBySlug.lookup model).or (c.openrouterBySlugModel.lookup model)).getD model

/-- The local price of the name without its date. -/
def datelessPrice (c : PricingCatalog) (provider model : String) : Option PricingEntry :=
  (stripDate model).bind fun m => c.byKey.lookup (provider, m)

theorem canonicalId_entry {c : PricingCatalog} (hdangling : NoDangling c) {model : String}
    {e : PricingEntry} (he : c.openrouter.lookup model = some e) :
    ∃ e', c.openrouter.lookup (c.canonicalId model) = some e' ∧
      c.openrouterEntry model = some e' := by
  unfold canonicalId openrouterEntry
  cases hname : (c.openrouterBySlug.lookup model).or (c.openrouterBySlugModel.lookup model) with
  | none =>
    refine ⟨e, he, ?_⟩
    rw [Option.bind_none, Option.none_or, he]
    rfl
  | some i =>
    have hsome : (c.openrouter.lookup i).isSome = true := by
      rcases Option.or_eq_some_iff.mp hname with hslug | ⟨-, hshort⟩
      · exact hdangling.bySlug model i hslug
      · exact hdangling.bySlugModel model i hshort
    obtain ⟨e', he'⟩ := Option.isSome_iff_exists.mp hsome
    refine ⟨e', he', ?_⟩
    rw [Option.bind_some, he']
    rfl

/-- The price of a listed OpenRouter row. -/
theorem lookup_openrouter {c : PricingCatalog} (hdangling : NoDangling c) {e : PricingEntry}
    (he : c.openrouter.lookup e.model = some e) (hprovider : e.provider = "*")
    (hshown : c.hidden e = false) :
    ∃ e', c.openrouter.lookup (c.canonicalId e.model) = some e' ∧
      c.lookup e.provider e.model = (c.datelessPrice "*" e.model).or (c.repriced "*" e') := by
  obtain ⟨e', he', hentry⟩ := canonicalId_entry hdangling he
  refine ⟨e', he', ?_⟩
  have hlocal : c.byKey.lookup ("*", e.model) = none := by
    rw [hidden, Bool.or_eq_false_iff, hprovider] at hshown
    exact Option.not_isSome_iff_eq_none.mp (Bool.eq_false_iff.mp hshown.1)
  unfold lookup datelessPrice
  rw [hprovider, hlocal, hentry, Option.none_or, Option.or_none, Option.bind_some]

/-- A listed row is not repriced. -/
theorem repriced_shown {c : PricingCatalog} (hdangling : NoDangling c) {e : PricingEntry}
    (he : c.openrouter.lookup e.model = some e) (hprovider : e.provider = "*")
    (hshown : c.hidden e = false) : c.repriced "*" e = some e := by
  rw [hidden, Bool.or_eq_false_iff, hprovider] at hshown
  obtain ⟨slug, hslug⟩ := Option.isSome_iff_exists.mp (hdangling.slug _ _ he)
  have hid : c.byKey.lookup ("*", e.model) = none :=
    Option.not_isSome_iff_eq_none.mp (Bool.eq_false_iff.mp hshown.1)
  have hnoslug : c.byKey.lookup ("*", slug) = none := by
    have hany := hshown.2
    rw [hslug, Option.any_some] at hany
    exact Option.not_isSome_iff_eq_none.mp (Bool.eq_false_iff.mp hany)
  unfold repriced
  rw [hslug]
  simp only [hid, hnoslug, Option.none_or]

theorem addModel_byKey (values : List Value) (c : PricingCatalog) :
    (values.foldl addModel c).byKey = c.byKey := by
  induction values generalizing c with
  | nil => rfl
  | cons value rest ih =>
    rw [List.foldl_cons, ih, addModel_eq]
    split
    · rfl
    · split
      · rfl
      · rfl

theorem parseOpenrouter_byKey {slugOrder : HashMap String String → List (String × String)}
    {idOrder : HashMap String PricingEntry → List (String × PricingEntry)} {data : List Value}
    {c : PricingCatalog} (h : parseOpenrouter slugOrder idOrder (.ok data) = .ok c) :
    c.byKey = ∅ := by
  obtain ⟨-, rfl⟩ := parseOpenrouter_ok h
  exact addModel_byKey (sortByColon data) {}

/-- A listed local price is what is billed. A listed OpenRouter row is billed at its price
unless the name without its date has a local price, or the canonical slugs lead its id to
another row; then that price is. -/
theorem listed_price_billed {slugOrder : HashMap String String → List (String × String)}
    {idOrder : HashMap String PricingEntry → List (String × PricingEntry)} {data : List Value}
    {base : PricingCatalog} (hslug : ∀ m, HashMap.Iterates m (slugOrder m))
    (hid : ∀ m, HashMap.Iterates m (idOrder m))
    (hbase : parseOpenrouter slugOrder idOrder (.ok data) = .ok base)
    {file admin : List PricingEntry} {c : PricingCatalog}
    (hc : c = (base.withOverrides file).withOverrides admin)
    {byKeyOrder : List ((String × String) × PricingEntry)}
    {openrouterOrder : List (String × PricingEntry)}
    (hbyKey : HashMap.Iterates c.byKey byKeyOrder)
    (hopenrouter : HashMap.Iterates c.openrouter openrouterOrder) {e : PricingEntry}
    (he : e ∈ c.entries byKeyOrder openrouterOrder) :
    (c.byKey.lookup (e.provider, e.model) = some e ∧ c.lookup e.provider e.model = some e) ∨
      (e.provider = "*" ∧ c.openrouter.lookup e.model = some e ∧
        (∃ e', c.openrouter.lookup (c.canonicalId e.model) = some e' ∧
          c.lookup e.provider e.model = (c.datelessPrice "*" e.model).or (c.repriced "*" e')) ∧
        (c.datelessPrice "*" e.model = none → c.canonicalId e.model = e.model →
          c.lookup e.provider e.model = some e)) := by
  have hinv : OpenRouterInv (acceptedRows data) c := by
    rw [hc]
    exact ((parseOpenrouter_inv hslug hid hbase).withOverrides file).withOverrides admin
  have hkeyed : Keyed c.byKey := by
    rw [hc, withOverrides_append]
    apply Keyed.withOverrides
    rw [parseOpenrouter_byKey hbase]
    exact Keyed.empty
  rcases List.mem_append.mp he with hlocal | hrow
  · left
    obtain ⟨⟨key, e'⟩, hmem, heq⟩ := List.mem_map.mp hlocal
    have hlookup := hbyKey.mem.mp hmem
    rw [show e' = e from heq] at hlookup
    refine ⟨?_, lookup_of_byKey hkeyed hlookup⟩
    rw [← hkeyed key e hlookup]
    exact hlookup
  · right
    obtain ⟨hmap, hshown⟩ := List.mem_filter.mp hrow
    obtain ⟨⟨i, e'⟩, hmem, heq⟩ := List.mem_map.mp hmap
    have hlookup := hopenrouter.mem.mp hmem
    rw [show e' = e from heq] at hlookup
    obtain ⟨hmodel, hprovider, -⟩ := hinv.entry i e hlookup
    have hnothidden : c.hidden e = false := by simpa using hshown
    rw [← hmodel] at hlookup
    obtain ⟨e₁, he₁, hprice⟩ :=
      lookup_openrouter hinv.noDangling hlookup hprovider hnothidden
    refine ⟨hprovider, hlookup, ⟨e₁, he₁, hprice⟩, ?_⟩
    intro hdateless hcanonical
    rw [hcanonical, hlookup] at he₁
    cases he₁
    rw [hprice, hdateless, Option.none_or]
    exact repriced_shown hinv.noDangling hlookup hprovider hnothidden

def sampleEntry (model : String) (input output : ℕ) : PricingEntry :=
  ⟨"*", model, F64.ofRatio false input 1, F64.ofRatio false output 1, none⟩

theorem listed_without_overrides {c : PricingCatalog} (hempty : c.byKey = ∅) {i : String}
    {e : PricingEntry} (hrow : c.openrouter.lookup i = some e) :
    e ∈ c.entries (HashMap.someOrder c.byKey) (HashMap.someOrder c.openrouter) := by
  refine List.mem_append_right _ (List.mem_filter.mpr ⟨?_, ?_⟩)
  · exact List.mem_map.mpr ⟨(i, e), (HashMap.someOrder_iterates c.openrouter).mem.mpr hrow, rfl⟩
  · unfold hidden
    rw [hempty]
    cases c.openrouterSlugs.lookup e.model with
    | none => rfl
    | some slug => rfl

theorem listed_price_billed_sample :
    ∃ base, parseOpenrouter HashMap.someOrder HashMap.someOrder (.ok sampleModels) = .ok base ∧
      base.lookup "*" "vendor/m" = some (sampleEntry "vendor/m" 1000 2000) := by
  have hne : ((sortByColon sampleModels).foldl addModel {}).openrouter ≠ ∅ := by decide +kernel
  obtain ⟨base, hbase, -, hopenrouter, hbySlug, -⟩ :=
    parseOpenrouter_accepts HashMap.someOrder HashMap.someOrder rfl hne
  have hempty : base.byKey = ∅ := parseOpenrouter_byKey hbase
  have hinv := parseOpenrouter_inv HashMap.someOrder_iterates HashMap.someOrder_iterates hbase
  have hrow : base.openrouter.lookup "vendor/m" = some (sampleEntry "vendor/m" 1000 2000) := by
    rw [hopenrouter]
    decide +kernel
  have hslug : base.openrouterBySlug.lookup "vendor/m" = none := by
    rw [hbySlug]
    decide +kernel
  have hshort : base.openrouterBySlugModel.lookup "vendor/m" = none := by
    have hslugs : ∀ row ∈ acceptedRows sampleModels, lastSegment row.slug ≠ "vendor/m" := by
      decide +kernel
    by_contra hsome
    obtain ⟨i, hi⟩ := Option.ne_none_iff_exists'.mp hsome
    obtain ⟨⟨s, hs, hlast⟩, -⟩ := (hinv.bySlugModel _ _).mp hi
    obtain ⟨row, hmem, hrow, -⟩ := hinv.bySlugRow s i hs
    exact hslugs row hmem (hrow ▸ hlast)
  have hcanonical : base.canonicalId "vendor/m" = "vendor/m" := by
    unfold canonicalId
    rw [hslug, hshort]
    rfl
  have hdateless : base.datelessPrice "*" "vendor/m" = none := by
    unfold datelessPrice
    rw [hempty]
    rfl
  have hc : base = (base.withOverrides []).withOverrides [] := rfl
  refine ⟨base, hbase, ?_⟩
  rcases listed_price_billed HashMap.someOrder_iterates HashMap.someOrder_iterates hbase hc
    (HashMap.someOrder_iterates base.byKey) (HashMap.someOrder_iterates base.openrouter)
    (listed_without_overrides hempty hrow) with hlocal | hremote
  · exact hlocal.2
  · exact hremote.2.2.2 hdateless hcanonical

/-- The id of one row is the canonical slug of another. -/
def sampleConflict : List Value :=
  [sampleModel "vendor/a" "vendor/b" "1" "1", sampleModel "vendor/b" "vendor/c" "2" "2"]

/-- A row is listed at its own price and billed at the price of the row whose slug it is
called. -/
theorem listed_row_billed_differently :
    ∃ base, parseOpenrouter HashMap.someOrder HashMap.someOrder (.ok sampleConflict) = .ok base ∧
      sampleEntry "vendor/b" 2000 2000 ∈
        base.entries (HashMap.someOrder base.byKey) (HashMap.someOrder base.openrouter) ∧
      base.lookup "*" "vendor/b" = some (sampleEntry "vendor/a" 1000 1000) ∧
      F64.ofRatio false 2000 1 ≠ F64.ofRatio false 1000 1 := by
  have hne : ((sortByColon sampleConflict).foldl addModel {}).openrouter ≠ ∅ := by decide +kernel
  obtain ⟨base, hbase, -, hopenrouter, hbySlug, hslugs⟩ :=
    parseOpenrouter_accepts HashMap.someOrder HashMap.someOrder rfl hne
  have hempty : base.byKey = ∅ := parseOpenrouter_byKey hbase
  have hrow : base.openrouter.lookup "vendor/b" = some (sampleEntry "vendor/b" 2000 2000) := by
    rw [hopenrouter]
    decide +kernel
  have hother : base.openrouter.lookup "vendor/a" = some (sampleEntry "vendor/a" 1000 1000) := by
    rw [hopenrouter]
    decide +kernel
  have hslug : base.openrouterBySlug.lookup "vendor/b" = some "vendor/a" := by
    rw [hbySlug]
    decide +kernel
  have hslugOf : base.openrouterSlugs.lookup "vendor/a" = some "vendor/b" := by
    rw [hslugs]
    decide +kernel
  have hentry : base.openrouterEntry "vendor/b" = some (sampleEntry "vendor/a" 1000 1000) := by
    unfold openrouterEntry
    rw [hslug, Option.some_or, Option.bind_some, hother, Option.some_or, Option.some_or]
  have hprice : base.repriced "*" (sampleEntry "vendor/a" 1000 1000) =
      some (sampleEntry "vendor/a" 1000 1000) := by
    unfold repriced
    rw [show (sampleEntry "vendor/a" 1000 1000).model = "vendor/a" from rfl, hslugOf, hempty]
    rfl
  refine ⟨base, hbase, listed_without_overrides hempty hrow, ?_, by decide +kernel⟩
  unfold lookup
  rw [hentry, Option.bind_some, hprice, hempty]
  rfl

end PricingCatalog

end AiGateway.Core
