import AiGateway.Core.PriceList

/-!
# Whose price a name gets (`gateway-core/src/pricing/catalog.rs:67-147`)

`lookup` tries the name as it was sent, then the name without its date, then the name under
`*`, and resolves an alias only behind these. So a price under `*` for the spelling of a
client is found before the provider's own price for the id or the slug.
-/

namespace AiGateway.Core
open AiGateway.Library

namespace PricingCatalog

/-! ### The names that overrides have prices for -/

theorem mem_of_lookup_foldl {overrides : List PricingEntry}
    {m : HashMap (String × String) PricingEntry} {k : String × String} {e : PricingEntry}
    (h : (overrides.foldl insertByKey m).lookup k = some e) :
    (e ∈ overrides ∧ key e = k) ∨ m.lookup k = some e := by
  induction overrides generalizing m with
  | nil => exact Or.inr h
  | cons first rest ih =>
    rcases ih h with ⟨hmem, hkey⟩ | hrest
    · exact Or.inl ⟨List.mem_cons_of_mem _ hmem, hkey⟩
    · unfold insertByKey at hrest
      rw [HashMap.lookup_insert_cases] at hrest
      split at hrest
      · rename_i hk
        cases hrest
        exact Or.inl ⟨List.mem_cons_self .., hk.symm⟩
      · exact Or.inr hrest

theorem lookup_foldl_of_not_mem {overrides : List PricingEntry} {k : String × String}
    (hk : k ∉ overrides.map key) (m : HashMap (String × String) PricingEntry) :
    (overrides.foldl insertByKey m).lookup k = m.lookup k := by
  induction overrides generalizing m with
  | nil => rfl
  | cons first rest ih =>
    rw [List.map_cons, List.mem_cons, not_or] at hk
    rw [List.foldl_cons, ih hk.2]
    exact Finmap.lookup_insert_of_ne m hk.1

theorem isSome_lookup_foldl {overrides : List PricingEntry} {k : String × String}
    (hk : k ∈ overrides.map key) (m : HashMap (String × String) PricingEntry) :
    ((overrides.foldl insertByKey m).lookup k).isSome = true := by
  induction overrides generalizing m with
  | nil => cases hk
  | cons first rest ih =>
    rw [List.foldl_cons]
    by_cases hrest : k ∈ rest.map key
    · exact ih hrest _
    · have hfirst : k = key first := by
        rw [List.map_cons, List.mem_cons] at hk
        exact hk.resolve_right hrest
      rw [lookup_foldl_of_not_mem hrest, hfirst]
      unfold insertByKey
      rw [HashMap.lookup_insert_cases]
      exact congrArg Option.isSome (if_pos rfl)

section
variable {c : PricingCatalog} (hempty : c.byKey = ∅) (overrides : List PricingEntry)
include hempty

theorem byKey_none_iff (k : String × String) :
    (c.withOverrides overrides).byKey.lookup k = none ↔ k ∉ overrides.map key := by
  unfold withOverrides
  simp only [hempty]
  constructor
  · intro hnone hk
    have hsome := isSome_lookup_foldl hk ∅
    rw [hnone] at hsome
    cases hsome
  · intro hk
    rw [lookup_foldl_of_not_mem hk]
    rfl

theorem byKey_some {k : String × String} {e : PricingEntry}
    (h : (c.withOverrides overrides).byKey.lookup k = some e) : e ∈ overrides ∧ key e = k := by
  unfold withOverrides at h
  simp only [hempty] at h
  rcases mem_of_lookup_foldl h with hmem | hold
  · exact hmem
  · cases hold

theorem byKey_isSome {k : String × String} (hk : k ∈ overrides.map key) :
    ∃ e, (c.withOverrides overrides).byKey.lookup k = some e := by
  cases h : (c.withOverrides overrides).byKey.lookup k with
  | some e => exact ⟨e, rfl⟩
  | none => exact absurd hk ((byKey_none_iff hempty overrides k).mp h)

end

/-! ### Aliases -/

/-- The base catalog leads the name to the model with that id. -/
def Resolves (base : PricingCatalog) (name id : String) : Prop :=
  ∃ e, base.openrouterEntry name = some e ∧ e.model = id

theorem Resolves.repriced {base : PricingCatalog} {name id slug : String}
    (h : Resolves base name id) (hslug : base.openrouterSlugs.lookup id = some slug)
    (overrides : List PricingEntry) (provider : String) :
    ∃ e, ((base.withOverrides overrides).openrouterEntry name).bind
        ((base.withOverrides overrides).repriced provider) =
      (((((base.withOverrides overrides).byKey.lookup (provider, id)).or
        ((base.withOverrides overrides).byKey.lookup (provider, slug))).or
        ((base.withOverrides overrides).byKey.lookup ("*", id))).or
        ((base.withOverrides overrides).byKey.lookup ("*", slug))).or (some e) := by
  obtain ⟨e, he, hmodel⟩ := h
  have he' : (base.withOverrides overrides).openrouterEntry name = some e := he
  have hslug' : (base.withOverrides overrides).openrouterSlugs.lookup e.model = some slug := by
    rw [hmodel]
    exact hslug
  refine ⟨e, ?_⟩
  rw [he', Option.bind_some]
  unfold PricingCatalog.repriced
  rw [hslug', hmodel]

/-- The overrides have a price for the name as the provider's client sent it, or without its
date. -/
def PricedAsSent (overrides : List PricingEntry) (provider name : String) : Prop :=
  (provider, name) ∈ overrides.map key ∨
    ∃ m, stripDate name = some m ∧ (provider, m) ∈ overrides.map key

section
variable {c : PricingCatalog} (hempty : c.byKey = ∅) (overrides : List PricingEntry)
  {provider name : String}
include hempty

theorem lookup_sent (h : PricedAsSent overrides provider name) :
    ∃ e ∈ overrides, e.provider = provider ∧
      (c.withOverrides overrides).lookup provider name = some e := by
  have hown : ∀ m e, (c.withOverrides overrides).byKey.lookup (provider, m) = some e →
      e ∈ overrides ∧ e.provider = provider := by
    intro m e he
    obtain ⟨hmem, hkey⟩ := byKey_some hempty overrides he
    exact ⟨hmem, congrArg Prod.fst hkey⟩
  unfold lookup
  cases hexact : (c.withOverrides overrides).byKey.lookup (provider, name) with
  | some e => exact ⟨e, (hown name e hexact).1, (hown name e hexact).2, rfl⟩
  | none =>
    have hunpriced := (byKey_none_iff hempty overrides _).mp hexact
    obtain ⟨m, hm, hmem⟩ := h.resolve_left hunpriced
    obtain ⟨e, he⟩ := byKey_isSome hempty overrides hmem
    refine ⟨e, (hown m e he).1, (hown m e he).2, ?_⟩
    rw [hm, Option.bind_some, he]
    rfl

/-- Without one, the name is looked for under `*`, and then as an alias. -/
theorem lookup_unsent (h : ¬PricedAsSent overrides provider name) :
    (c.withOverrides overrides).lookup provider name =
      ((c.withOverrides overrides).byKey.lookup ("*", name)).or
        (((c.withOverrides overrides).openrouterEntry name).bind
          ((c.withOverrides overrides).repriced provider)) := by
  have hexact : (c.withOverrides overrides).byKey.lookup (provider, name) = none :=
    (byKey_none_iff hempty overrides _).mpr fun hmem => h (Or.inl hmem)
  have hdate : (stripDate name).bind (fun m =>
      (c.withOverrides overrides).byKey.lookup (provider, m)) = none := by
    cases hm : stripDate name with
    | none => rfl
    | some m =>
      exact (byKey_none_iff hempty overrides _).mpr fun hmem => h (Or.inr ⟨m, hm, hmem⟩)
  unfold lookup
  rw [hexact, hdate, Option.none_or, Option.none_or]

end

/-- A price of the provider for a model is what any name of the model gets, unless there is a
price under `*` for the very name and none of the provider for it. -/
theorem provider_price_wins_iff {slugOrder : HashMap String String → List (String × String)}
    {idOrder : HashMap String PricingEntry → List (String × PricingEntry)} {data : List Value}
    {base : PricingCatalog}
    (hbase : parseOpenrouter slugOrder idOrder (.ok data) = .ok base)
    (overrides : List PricingEntry) {provider name id slug : String} (hprovider : provider ≠ "*")
    (hslug : base.openrouterSlugs.lookup id = some slug) (hname : Resolves base name id)
    (hprice : (provider, id) ∈ overrides.map key ∨ (provider, slug) ∈ overrides.map key) :
    (∃ e ∈ overrides, e.provider = provider ∧
        (base.withOverrides overrides).lookup provider name = some e) ↔
      (("*", name) ∈ overrides.map key → PricedAsSent overrides provider name) := by
  have hempty := parseOpenrouter_byKey hbase
  by_cases hsent : PricedAsSent overrides provider name
  · exact iff_of_true (lookup_sent hempty overrides hsent) fun _ => hsent
  · rw [lookup_unsent hempty overrides hsent]
    cases hstar : (base.withOverrides overrides).byKey.lookup ("*", name) with
    | some e =>
      -- the price under `*` hides those of the provider
      obtain ⟨hmem, hkey⟩ := byKey_some hempty overrides hstar
      refine iff_of_false ?_ fun h => hsent (h ?_)
      · rintro ⟨e', -, he', heq⟩
        cases heq
        exact hprovider (he'.symm.trans (congrArg Prod.fst hkey))
      · rw [← hkey]
        exact List.mem_map_of_mem hmem
    | none =>
      have hunpriced := (byKey_none_iff hempty overrides _).mp hstar
      refine iff_of_true ?_ fun hmem => absurd hmem hunpriced
      obtain ⟨e₀, hentry⟩ := hname.repriced hslug overrides provider
      rw [Option.none_or, hentry]
      cases hid : (base.withOverrides overrides).byKey.lookup (provider, id) with
      | some e =>
        obtain ⟨hmem, hkey⟩ := byKey_some hempty overrides hid
        exact ⟨e, hmem, congrArg Prod.fst hkey, rfl⟩
      | none =>
        have hmem := hprice.resolve_left ((byKey_none_iff hempty overrides _).mp hid)
        obtain ⟨e, he⟩ := byKey_isSome hempty overrides hmem
        obtain ⟨hin, hkey⟩ := byKey_some hempty overrides he
        refine ⟨e, hin, congrArg Prod.fst hkey, ?_⟩
        rw [he]
        rfl

def localEntry (provider model : String) : PricingEntry :=
  ⟨provider, model, F64.ofRatio false 1 2, F64.ofRatio false 1 2, none⟩

def sampleAliased : List Value := [sampleModel "vendor/m" "vendor/m-x" "1" "2"]

theorem sampleAliased_base :
    ∃ base, parseOpenrouter HashMap.someOrder HashMap.someOrder (.ok sampleAliased) = .ok base ∧
      base.openrouterSlugs.lookup "vendor/m" = some "vendor/m-x" ∧
      Resolves base "vendor/m-x" "vendor/m" ∧ Resolves base "vendor/m" "vendor/m" := by
  have hne : ((sortByColon sampleAliased).foldl addModel {}).openrouter ≠ ∅ := by decide +kernel
  obtain ⟨base, hbase, -, hopenrouter, hbySlug, hslugs⟩ :=
    parseOpenrouter_accepts HashMap.someOrder HashMap.someOrder rfl hne
  have hinv := parseOpenrouter_inv HashMap.someOrder_iterates HashMap.someOrder_iterates hbase
  have hrow : base.openrouter.lookup "vendor/m" = some (sampleEntry "vendor/m" 1000 2000) := by
    rw [hopenrouter]
    decide +kernel
  have hslug : base.openrouterBySlug.lookup "vendor/m-x" = some "vendor/m" := by
    rw [hbySlug]
    decide +kernel
  refine ⟨base, hbase, ?_, ⟨sampleEntry "vendor/m" 1000 2000, ?_, rfl⟩, ?_⟩
  · rw [hslugs]
    decide +kernel
  · unfold openrouterEntry
    rw [hslug, Option.some_or, Option.bind_some, hrow, Option.some_or, Option.some_or]
  · obtain ⟨e, he, hentry⟩ := canonicalId_entry hinv.noDangling hrow
    have honly : ∀ row ∈ acceptedRows sampleAliased, row.id = "vendor/m" := by decide +kernel
    obtain ⟨row, hmem, hid⟩ := (hinv.accepted _).mp (Option.isSome_iff_exists.mpr ⟨e, he⟩)
    refine ⟨e, hentry, (hinv.entry _ _ he).1.trans ?_⟩
    rw [← hid]
    exact honly row hmem

theorem provider_price_wins_iff_aliased :
    ∃ base, parseOpenrouter HashMap.someOrder HashMap.someOrder (.ok sampleAliased) = .ok base ∧
      ∃ e ∈ [localEntry "openai" "vendor/m"], e.provider = "openai" ∧
        (base.withOverrides [localEntry "openai" "vendor/m"]).lookup "openai" "vendor/m-x" =
          some e := by
  obtain ⟨base, hbase, hslug, hname, -⟩ := sampleAliased_base
  refine ⟨base, hbase, (provider_price_wins_iff hbase [localEntry "openai" "vendor/m"] (by decide)
    hslug hname (Or.inl (by decide))).mpr fun hmem => ?_⟩
  exact absurd hmem (by decide)

/-- A price under `*` for the canonical slug goes before the provider's price for the id. -/
theorem wildcard_hides_provider_price :
    ∃ base, parseOpenrouter HashMap.someOrder HashMap.someOrder (.ok sampleAliased) = .ok base ∧
      base.openrouterSlugs.lookup "vendor/m" = some "vendor/m-x" ∧
      Resolves base "vendor/m-x" "vendor/m" ∧
      ("openai", "vendor/m") ∈
        [localEntry "openai" "vendor/m", localEntry "*" "vendor/m-x"].map key ∧
      (base.withOverrides [localEntry "openai" "vendor/m", localEntry "*" "vendor/m-x"]).lookup
        "openai" "vendor/m-x" = some (localEntry "*" "vendor/m-x") := by
  obtain ⟨base, hbase, hslug, hname, -⟩ := sampleAliased_base
  refine ⟨base, hbase, hslug, hname, by decide, ?_⟩
  have hdate : stripDate "vendor/m-x" = none := by decide
  unfold lookup withOverrides
  simp only [parseOpenrouter_byKey hbase, hdate, Option.bind_none, Option.or_none]
  have hexact : ([localEntry "openai" "vendor/m", localEntry "*" "vendor/m-x"].foldl insertByKey
      ∅).lookup ("openai", "vendor/m-x") = none := by decide +kernel
  have hstar : ([localEntry "openai" "vendor/m", localEntry "*" "vendor/m-x"].foldl insertByKey
      ∅).lookup ("*", "vendor/m-x") = some (localEntry "*" "vendor/m-x") := by decide +kernel
  rw [hexact, hstar]
  rfl

/-! ### A price under `*` for an id -/

/-- The price of an id under `*` is what every name of the model gets that has no price of its
own; without it the names get what they got before, in whatever order the rows are read. -/
theorem wildcard_id_reprices {slugOrder : HashMap String String → List (String × String)}
    {idOrder : HashMap String PricingEntry → List (String × PricingEntry)} {data : List Value}
    {base : PricingCatalog}
    (hbase : parseOpenrouter slugOrder idOrder (.ok data) = .ok base)
    (file : List PricingEntry) {before added removed : List PricingEntry} {e : PricingEntry}
    {id slug : String} (hkey : key e = ("*", id))
    (hnodup : (before.map key).Nodup) (hnew : key e ∉ before.map key)
    (hadded : added.Perm (e :: before))
    (hremoved : removed.Perm (added.filter fun e' => key e' ≠ key e))
    (hslug : base.openrouterSlugs.lookup id = some slug) {provider name : String}
    (hname : Resolves base name id)
    (hsent : ¬PricedAsSent (file ++ added) provider name)
    (hid : (provider, id) ∉ (file ++ added).map key)
    (hprovider : (provider, slug) ∉ (file ++ added).map key)
    (hstar : name ≠ id → ("*", name) ∉ (file ++ added).map key) :
    ((base.withOverrides file).withOverrides added).lookup provider name = some e ∧
      ((base.withOverrides file).withOverrides removed).lookup provider name =
        ((base.withOverrides file).withOverrides before).lookup provider name := by
  have hempty := parseOpenrouter_byKey hbase
  have hkeys : (added.map key).Perm (key e :: before.map key) := hadded.map key
  have hnodup' : (added.map key).Nodup :=
    hkeys.nodup_iff.mpr (List.nodup_cons.mpr ⟨hnew, hnodup⟩)
  constructor
  · have hrow := (lookup_foldl_insertByKey hnodup' (base.withOverrides file).byKey).1 e
      (hadded.mem_iff.mpr (List.mem_cons_self ..))
    rw [withOverrides_append]
    have hnone : ∀ k, k ∉ (file ++ added).map key →
        (base.withOverrides (file ++ added)).byKey.lookup k = none :=
      fun k => (byKey_none_iff hempty (file ++ added) k).mpr
    have hwild : (base.withOverrides (file ++ added)).byKey.lookup ("*", id) = some e := by
      rw [← withOverrides_append, ← hkey]
      exact hrow
    rw [lookup_unsent hempty (file ++ added) hsent]
    by_cases hsame : name = id
    · rw [hsame, hwild]
      rfl
    · obtain ⟨e₀, hentry⟩ := hname.repriced hslug (file ++ added) provider
      rw [hnone _ (hstar hsame), Option.none_or, hentry, hnone _ hid, hnone _ hprovider, hwild]
      rfl
  · have hmem : ∀ e', e' ∈ removed ↔ e' ∈ before := by
      intro e'
      rw [hremoved.mem_iff, List.mem_filter, decide_eq_true_eq, hadded.mem_iff, List.mem_cons]
      constructor
      · rintro ⟨rfl | hold, hne⟩
        · exact absurd rfl hne
        · exact hold
      · intro hold
        refine ⟨Or.inr hold, fun heq => hnew ?_⟩
        rw [← heq]
        exact List.mem_map_of_mem hold
    have hnodup'' : (removed.map key).Nodup :=
      (hremoved.map key).nodup_iff.mpr
        (hnodup'.sublist (List.filter_sublist.map key))
    rw [withOverrides_congr hnodup'' hnodup hmem]

theorem wildcard_id_reprices_aliased :
    ∃ base, parseOpenrouter HashMap.someOrder HashMap.someOrder (.ok sampleAliased) = .ok base ∧
      ((base.withOverrides [localEntry "openai" "other"]).withOverrides
        [localEntry "*" "vendor/m"]).lookup "openai" "vendor/m-x" =
          some (localEntry "*" "vendor/m") := by
  obtain ⟨base, hbase, hslug, hname, -⟩ := sampleAliased_base
  have hdate : stripDate "vendor/m-x" = none := by decide
  have hsent : ¬PricedAsSent ([localEntry "openai" "other"] ++ [localEntry "*" "vendor/m"])
      "openai" "vendor/m-x" := by
    rintro (hmem | ⟨m, hm, -⟩)
    · exact absurd hmem (by decide)
    · rw [hdate] at hm
      cases hm
  have hremoved : ([] : List PricingEntry).Perm ([localEntry "*" "vendor/m"].filter fun e' =>
      key e' ≠ key (localEntry "*" "vendor/m")) := by decide
  have hprices := @wildcard_id_reprices _ _ _ _ hbase [localEntry "openai" "other"] []
    [localEntry "*" "vendor/m"] [] (localEntry "*" "vendor/m") "vendor/m" "vendor/m-x" rfl
    List.nodup_nil List.not_mem_nil (List.Perm.refl _) hremoved hslug "openai" "vendor/m-x" hname
    hsent (by decide) (by decide) fun _ => by decide
  exact ⟨base, hbase, hprices.1⟩

/-! ### The date -/

def DateSuffix (model name : String) : Prop :=
  ∃ digits : String, name = model ++ "-" ++ digits ∧ digits.toList.all Char.isDigit = true ∧
    4 ≤ digits.length

theorem stripDate_eq_some {name model : String} :
    stripDate name = some model ↔ ∃ digits : String, name = model ++ "-" ++ digits ∧
      digits.toList.all Char.isDigit = true := by
  have hsplit : ∀ digits : String, digits.toList.all Char.isDigit = true →
      ∀ c ∈ digits.toList.reverse, (decide (c ≠ '-')) = true := by
    intro digits hdigits c hc
    have hdigit := List.all_eq_true.mp hdigits c (List.mem_reverse.mp hc)
    refine decide_eq_true ?_
    rintro rfl
    cases hdigit
  unfold stripDate rsplitOnce
  simp only
  constructor
  · intro h
    cases hdrop : name.toList.reverse.dropWhile (fun c => decide (c ≠ '-')) with
    | nil =>
      rw [hdrop] at h
      cases h
    | cons dash before =>
      rw [hdrop] at h
      simp only [String.toList_ofList] at h
      split at h
      · rename_i hdigits
        cases h
        have hdash : dash = '-' := by
          have hhead := List.head?_dropWhile_not (fun c => decide (c ≠ '-')) name.toList.reverse
          rw [hdrop] at hhead
          simpa using hhead
        refine ⟨_, ?_, by rw [String.toList_ofList]; exact hdigits⟩
        have hwhole := List.takeWhile_append_dropWhile (p := fun c => decide (c ≠ '-'))
          (l := name.toList.reverse)
        rw [hdrop, hdash] at hwhole
        have hname := congrArg List.reverse hwhole
        rw [List.reverse_reverse, List.reverse_append, List.reverse_cons] at hname
        apply String.toList_inj.mp
        simp only [String.toList_append, String.toList_ofList]
        exact hname.symm
      · cases h
  · rintro ⟨digits, rfl, hdigits⟩
    have hrev : (model ++ "-" ++ digits).toList.reverse =
        digits.toList.reverse ++ '-' :: model.toList.reverse := by
      simp [String.toList_append]
    rw [hrev, List.dropWhile_append_of_pos (hsplit digits hdigits),
      List.takeWhile_append_of_pos (hsplit digits hdigits)]
    simp [hdigits]

theorem openrouterEntry_local (file admin : List PricingEntry) (name : String) :
    ((fromModels file).withOverrides admin).openrouterEntry name = none := rfl

/-- With local prices alone, an entry under another name is one for the name without a dash and
digits behind it: a date exactly when there are four or more, or when the provider has a price
for the whole name. -/
theorem only_dates_ignored_iff (file admin : List PricingEntry) (provider name : String) :
    (∀ e, ((fromModels file).withOverrides admin).lookup provider name = some e →
        e.model ≠ name → DateSuffix e.model name) ↔
      ∀ model digits : String, name = model ++ "-" ++ digits →
        digits.toList.all Char.isDigit = true → digits.length < 4 →
        (provider, model) ∈ (file ++ admin).map key →
          (provider, name) ∈ (file ++ admin).map key := by
  have hempty : ({} : PricingCatalog).byKey = ∅ := rfl
  have hcatalog : (fromModels file).withOverrides admin =
      ({} : PricingCatalog).withOverrides (file ++ admin) :=
    withOverrides_append {} file admin
  have hentry := openrouterEntry_local file admin name
  rw [hcatalog] at hentry ⊢
  generalize file ++ admin = overrides at hentry ⊢
  constructor
  · intro honly model digits hname hdigits hshort hmem
    by_contra hmiss
    have hne : model ≠ name := by
      rintro rfl
      exact hmiss hmem
    obtain ⟨e, he⟩ := byKey_isSome hempty overrides hmem
    have hmodel : e.model = model := congrArg Prod.snd (byKey_some hempty overrides he).2
    have hdate : stripDate name = some model := stripDate_eq_some.mpr ⟨digits, hname, hdigits⟩
    have hlookup : (({} : PricingCatalog).withOverrides overrides).lookup provider name =
        some e := by
      unfold lookup
      rw [(byKey_none_iff hempty overrides _).mpr hmiss, hdate, Option.none_or, Option.bind_some,
        he]
      rfl
    obtain ⟨date, hdated, -, hlong⟩ := honly e hlookup (hmodel ▸ hne)
    have hlen := congrArg String.length (hname.symm.trans hdated)
    rw [hmodel] at hlen
    simp only [String.length_append] at hlen
    omega
  · intro hdates e he hne
    unfold lookup at he
    rw [hentry, Option.bind_none, Option.or_none] at he
    rcases Option.or_eq_some_iff.mp he with hown | ⟨-, hstar⟩
    · rcases Option.or_eq_some_iff.mp hown with hexact | ⟨hmiss, hdate⟩
      · exact absurd (congrArg Prod.snd (byKey_some hempty overrides hexact).2) hne
      · obtain ⟨model, hmodel, hlookup⟩ := Option.bind_eq_some_iff.mp hdate
        obtain ⟨digits, hname, hdigits⟩ := stripDate_eq_some.mp hmodel
        obtain ⟨hmem, hkey⟩ := byKey_some hempty overrides hlookup
        rw [show e.model = model from congrArg Prod.snd hkey]
        refine ⟨digits, hname, hdigits, Nat.le_of_not_lt fun hshort => ?_⟩
        refine (byKey_none_iff hempty overrides _).mp hmiss (hdates model digits hname hdigits
          hshort ?_)
        rw [← hkey]
        exact List.mem_map_of_mem hmem
    · exact absurd (congrArg Prod.snd (byKey_some hempty overrides hstar).2) hne

/-- The version number is taken for a date. -/
theorem version_billed_as_base :
    ((fromModels [localEntry "anthropic" "claude"]).withOverrides []).lookup "anthropic"
        "claude-4" = some (localEntry "anthropic" "claude") ∧
      ¬DateSuffix "claude" "claude-4" := by
  refine ⟨by decide +kernel, ?_⟩
  rintro ⟨digits, hname, -, hlong⟩
  have hlen := congrArg String.length hname
  simp only [String.length_append] at hlen
  have hname' : "claude-4".length = 8 := by decide
  have hbase : "claude".length = 6 := by decide
  omega

end PricingCatalog

end AiGateway.Core
