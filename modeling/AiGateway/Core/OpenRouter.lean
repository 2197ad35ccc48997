import AiGateway.Core.Pricing

/-!
# OpenRouter base prices (`gateway-core/src/pricing/openrouter.rs:11-139`)

`parse_openrouter` on the `data` of a parsed response. A model is an object or,
as serde also accepts it, an array of the struct's fields in order. The catalog
is built in one pass over the rows, those whose `id` has no colon first.
-/

namespace AiGateway.Core
open AiGateway.Library

structure Price where
  prompt : String
  completion : String
  inputCacheRead : Option String
  deriving DecidableEq

structure Model where
  id : String
  canonicalSlug : String
  pricing : Price
  deriving DecidableEq

/-- The id under which a model is kept. -/
def Model.rowId (model : Model) : String :=
  if model.id = "" then model.canonicalSlug else model.id

/-- `Option<String>`: `null` is `None`. -/
def optionString : Value → Option (Option String)
  | .null => some none
  | .string s => some (some s)
  | _ => none

def priceOfFields (prompt completion : Value) (inputCacheRead : Option Value) : Option Price :=
  match prompt.asStr, completion.asStr, inputCacheRead.elim (some none) optionString with
  | some prompt, some completion, some cacheRead => some ⟨prompt, completion, cacheRead⟩
  | _, _, _ => none

def priceFromValue : Value → Option Price
  | .object fields =>
    match fields.lookup "prompt", fields.lookup "completion" with
    | some prompt, some completion =>
      priceOfFields prompt completion (fields.lookup "input_cache_read")
    | _, _ => none
  | .array [prompt, completion, inputCacheRead] =>
    priceOfFields prompt completion (some inputCacheRead)
  | _ => none

def modelOfFields (id : Option Value) (slug pricing : Value) : Option Model :=
  match id.elim (some "") Value.asStr, slug.asStr, priceFromValue pricing with
  | some id, some slug, some pricing => some ⟨id, slug, pricing⟩
  | _, _, _ => none

/-- `serde_json::from_value::<Model>`. -/
def modelFromValue : Value → Option Model
  | .object fields =>
    match fields.lookup "canonical_slug", fields.lookup "pricing" with
    | some slug, some pricing => modelOfFields (fields.lookup "id") slug pricing
    | _, _ => none
  | .array [id, slug, pricing] => modelOfFields (some id) slug pricing
  | _ => none

/-- The price of 1000 tokens, from the price of one. -/
def per1k (value : String) : Option F64 :=
  match F64.parse value with
  | none => none
  | some price =>
    let price := price.mul (F64.ofRatio false 1000 1)
    if price.isFinite && price.nonneg then some price else none

/-- The cached price: absent is fine, unusable is not. -/
def cachedPer1k : Option String → Option (Option F64)
  | none => some none
  | some value => (per1k value).map some

/-- `rsplit('/').next()`. -/
def lastSegment (name : String) : String :=
  String.ofList (name.toList.reverse.takeWhile (· ≠ '/')).reverse

def endsWithSlash (s : String) : Bool := s.toList.getLast? = some '/'

def uniqueLastSegments (names : List (String × String)) : HashMap String String :=
  HashMap.uniqueValues (names.map fun e => (lastSegment e.1, e.2))

/-- The sort key of a row: its field `id` contains a colon. -/
def idHasColon (value : Value) : Bool :=
  ((value.get "id").bind Value.asStr).any fun id => ':' ∈ id.toList

/-- A stable sort by a Boolean key, `false` first. -/
def sortByColon (data : List Value) : List Value :=
  (data.filter fun v => !idHasColon v) ++ data.filter idHasColon

namespace PricingCatalog

def orInsert (m : HashMap String String) (key value : String) : HashMap String String :=
  if (m.lookup key).isSome then m else m.insert key value

def insertModel (c : PricingCatalog) (id slug : String) (input output : F64)
    (cached : Option F64) : PricingCatalog :=
  { c with
    openrouterBySlug := orInsert c.openrouterBySlug slug id
    openrouterSlugs := c.openrouterSlugs.insert id slug
    openrouter := c.openrouter.insert id ⟨"*", id, input, output, cached⟩ }

/-- One round of the loop. -/
def addModel (c : PricingCatalog) (value : Value) : PricingCatalog :=
  match modelFromValue value with
  | none => c
  | some model =>
    let slug := model.canonicalSlug
    if slug = "" || endsWithSlash slug then c
    else
      let id := model.rowId
      if endsWithSlash id || (c.openrouter.lookup id).isSome then c
      else
        match per1k model.pricing.prompt, per1k model.pricing.completion with
        | some input, some output =>
          match cachedPer1k model.pricing.inputCacheRead with
          | none => c
          | some cached => c.insertModel id slug input output cached
        | _, _ => c

/-- `parse_openrouter`; the first two arguments say how the maps iterate. -/
def parseOpenrouter (slugOrder : HashMap String String → List (String × String))
    (idOrder : HashMap String PricingEntry → List (String × PricingEntry))
    (response : Except String (List Value)) : Except GatewayError PricingCatalog :=
  match response with
  | .error e => .error (.serde e)
  | .ok data =>
    let catalog := (sortByColon data).foldl addModel {}
    if catalog.openrouter = ∅ then
      .error (.internal "OpenRouter returned no usable model prices")
    else
      .ok
        { catalog with
          openrouterBySlugModel := uniqueLastSegments (slugOrder catalog.openrouterBySlug)
          openrouterByIdModel :=
            uniqueLastSegments ((idOrder catalog.openrouter).map fun e => (e.1, e.1)) }

end PricingCatalog

/-! ### Accepted rows -/

/-- A row that passes every check but the one on its id. -/
structure Row where
  id : String
  slug : String
  colon : Bool
  entry : PricingEntry

def usableRow (value : Value) : Option Row :=
  match modelFromValue value with
  | none => none
  | some model =>
    let slug := model.canonicalSlug
    let id := model.rowId
    if slug = "" || endsWithSlash slug || endsWithSlash id then none
    else
      match per1k model.pricing.prompt, per1k model.pricing.completion,
          cachedPer1k model.pricing.inputCacheRead with
      | some input, some output, some cached =>
        some ⟨id, slug, idHasColon value, ⟨"*", id, input, output, cached⟩⟩
      | _, _, _ => none

/-- A usable row is accepted unless an accepted one has its id. -/
def accept (rows : List Row) (value : Value) : List Row :=
  match usableRow value with
  | none => rows
  | some row => if row.id ∈ rows.map Row.id then rows else rows ++ [row]

/-- The accepted rows of a response, in the order of the pass. -/
def acceptedRows (data : List Value) : List Row := (sortByColon data).foldl accept []

namespace PricingCatalog

def insertRow (c : PricingCatalog) (row : Row) : PricingCatalog :=
  { c with
    openrouterBySlug := orInsert c.openrouterBySlug row.slug row.id
    openrouterSlugs := c.openrouterSlugs.insert row.id row.slug
    openrouter := c.openrouter.insert row.id row.entry }

theorem addModel_eq (c : PricingCatalog) (value : Value) :
    c.addModel value = match usableRow value with
      | none => c
      | some row => if (c.openrouter.lookup row.id).isSome then c else c.insertRow row := by
  unfold addModel usableRow
  cases modelFromValue value with
  | none => rfl
  | some model =>
    simp only
    cases hslug : (decide (model.canonicalSlug = "") || endsWithSlash model.canonicalSlug) with
    | true => rfl
    | false =>
      cases hid : endsWithSlash model.rowId with
      | true => rfl
      | false =>
        cases per1k model.pricing.prompt with
        | none => exact ite_self c
        | some input =>
          cases per1k model.pricing.completion with
          | none => exact ite_self c
          | some output =>
            cases cachedPer1k model.pricing.inputCacheRead with
            | none => exact ite_self c
            | some cached => rfl

end PricingCatalog

def PricesOk (e : PricingEntry) : Prop :=
  (e.inputPer1k.isFinite && e.inputPer1k.nonneg) = true ∧
    (e.outputPer1k.isFinite && e.outputPer1k.nonneg) = true ∧
    ∀ p, e.cachedInputPer1k = some p → (p.isFinite && p.nonneg) = true

theorem per1k_ok {value : String} {price : F64} (h : per1k value = some price) :
    (price.isFinite && price.nonneg) = true := by
  unfold per1k at h
  split at h
  · cases h
  · simp only at h
    split at h
    · rename_i hok
      cases h
      exact hok
    · cases h

theorem cachedPer1k_ok {value : Option String} {cached : Option F64}
    (h : cachedPer1k value = some cached) {price : F64} (hprice : cached = some price) :
    (price.isFinite && price.nonneg) = true := by
  cases value with
  | none =>
    cases h
    cases hprice
  | some text =>
    obtain ⟨p, hp, hcached⟩ := Option.map_eq_some_iff.mp h
    rw [hprice] at hcached
    cases hcached
    exact per1k_ok hp

theorem usableRow_ok {value : Value} {row : Row} (h : usableRow value = some row) :
    row.colon = idHasColon value ∧ row.entry.provider = "*" ∧ row.entry.model = row.id ∧
      PricesOk row.entry := by
  unfold usableRow at h
  split at h
  · cases h
  · simp only at h
    split at h
    · cases h
    · split at h
      · rename_i input output cached hinput houtput hcached
        cases h
        exact ⟨rfl, rfl, rfl, per1k_ok hinput, per1k_ok houtput,
          fun p hp => cachedPer1k_ok hcached hp⟩
      · cases h

theorem foldl_accept_sublist (values : List Value) (rows : List Row) :
    (values.foldl accept rows).Sublist (rows ++ values.filterMap usableRow) := by
  induction values generalizing rows with
  | nil =>
    rw [List.filterMap_nil, List.append_nil]
    exact List.Sublist.refl _
  | cons value rest ih =>
    refine (ih (accept rows value)).trans ?_
    unfold accept
    cases hrow : usableRow value with
    | none =>
      rw [List.filterMap_cons_none hrow]
    | some row =>
      rw [List.filterMap_cons_some hrow]
      simp only
      split
      · exact (List.sublist_cons_self _ _).append_left rows
      · rw [List.append_assoc]
        exact List.Sublist.refl _

theorem acceptedRows_sublist (data : List Value) :
    (acceptedRows data).Sublist ((sortByColon data).filterMap usableRow) :=
  foldl_accept_sublist (sortByColon data) []

theorem acceptedRows_usable {data : List Value} {row : Row} (h : row ∈ acceptedRows data) :
    ∃ value, usableRow value = some row := by
  obtain ⟨value, -, hrow⟩ := List.mem_filterMap.mp ((acceptedRows_sublist data).subset h)
  exact ⟨value, hrow⟩

theorem sortByColon_sorted (data : List Value) :
    (sortByColon data).Pairwise fun v w => idHasColon v = true → idHasColon w = true := by
  unfold sortByColon
  rw [List.pairwise_append]
  refine ⟨?_, ?_, ?_⟩
  · apply List.pairwise_of_forall_mem_list
    intro v hv w _ hcolon
    have hplain := (List.mem_filter.mp hv).2
    rw [hcolon] at hplain
    cases hplain
  · apply List.pairwise_of_forall_mem_list
    intro v _ w hw _
    exact (List.mem_filter.mp hw).2
  · intro v _ w hw _
    exact (List.mem_filter.mp hw).2

theorem acceptedRows_sorted (data : List Value) :
    (acceptedRows data).Pairwise fun r r' => r.colon = true → r'.colon = true := by
  refine List.Pairwise.sublist (acceptedRows_sublist data) ?_
  rw [List.pairwise_filterMap]
  refine (sortByColon_sorted data).imp ?_
  intro v w hvw r hr r' hr' hcolon
  rw [(usableRow_ok hr').1]
  apply hvw
  rw [← (usableRow_ok hr).1]
  exact hcolon

namespace PricingCatalog

/-- The three tables of the pass, in terms of the rows accepted so far. -/
structure Built (rows : List Row) (c : PricingCatalog) : Prop where
  entries : ∀ i e, c.openrouter.lookup i = some e ↔ ∃ row ∈ rows, row.id = i ∧ row.entry = e
  slugs : ∀ i s, c.openrouterSlugs.lookup i = some s ↔ ∃ row ∈ rows, row.id = i ∧ row.slug = s
  bySlug : ∀ s, c.openrouterBySlug.lookup s =
    (rows.find? fun row => row.slug = s).map Row.id

theorem Built.isSome_iff {rows : List Row} {c : PricingCatalog} (h : Built rows c) (i : String) :
    (c.openrouter.lookup i).isSome = true ↔ i ∈ rows.map Row.id := by
  rw [Option.isSome_iff_exists, List.mem_map]
  constructor
  · intro hentry
    obtain ⟨e, he⟩ := hentry
    obtain ⟨row, hrow, hid, -⟩ := (h.entries i e).mp he
    exact ⟨row, hrow, hid⟩
  · intro hlisted
    obtain ⟨row, hrow, hid⟩ := hlisted
    exact ⟨row.entry, (h.entries i row.entry).mpr ⟨row, hrow, hid, rfl⟩⟩

/-- A lookup after the insert under a fresh id. -/
theorem lookup_insert_row {υ : Type} {rows : List Row} {m : HashMap String υ} {f : Row → υ}
    (h : ∀ i v, m.lookup i = some v ↔ ∃ row ∈ rows, row.id = i ∧ f row = v) {row : Row}
    (hfresh : row.id ∉ rows.map Row.id) (i : String) (v : υ) :
    (m.insert row.id (f row)).lookup i = some v ↔
      ∃ row' ∈ rows ++ [row], row'.id = i ∧ f row' = v := by
  rw [HashMap.lookup_insert_cases]
  by_cases hi : i = row.id
  · rw [if_pos hi]
    constructor
    · intro hv
      cases hv
      exact ⟨row, List.mem_append_right _ (List.mem_singleton.mpr rfl), hi.symm, rfl⟩
    · intro hlisted
      obtain ⟨row', hrow', hid, hf⟩ := hlisted
      rcases List.mem_append.mp hrow' with hold | hnew
      · exact absurd (hi ▸ hid ▸ List.mem_map_of_mem hold) hfresh
      · rw [List.mem_singleton.mp hnew] at hf
        rw [hf]
  · rw [if_neg hi, h]
    constructor
    · intro hlisted
      obtain ⟨row', hrow', hrest⟩ := hlisted
      exact ⟨row', List.mem_append_left _ hrow', hrest⟩
    · intro hlisted
      obtain ⟨row', hrow', hid, hf⟩ := hlisted
      rcases List.mem_append.mp hrow' with hold | hnew
      · exact ⟨row', hold, hid, hf⟩
      · rw [List.mem_singleton.mp hnew] at hid
        exact absurd hid.symm hi

theorem Built.insertRow {rows : List Row} {c : PricingCatalog} (h : Built rows c) {row : Row}
    (hfresh : row.id ∉ rows.map Row.id) : Built (rows ++ [row]) (c.insertRow row) := by
  refine ⟨lookup_insert_row h.entries hfresh, lookup_insert_row h.slugs hfresh, ?_⟩
  intro s
  change (orInsert c.openrouterBySlug row.slug row.id).lookup s = _
  rw [List.find?_append, Option.map_or, ← h.bySlug s]
  unfold orInsert
  by_cases hs : row.slug = s
  · rw [hs]
    cases hlookup : c.openrouterBySlug.lookup s with
    | some i =>
      rw [Option.isSome_some, if_pos rfl, hlookup]
      rfl
    | none =>
      rw [Option.isSome_none, if_neg (by simp), HashMap.lookup_insert_cases, if_pos rfl]
      simp [hs]
  · have hnone : ([row].find? fun row => row.slug = s) = none := by simp [hs]
    rw [hnone, Option.map_none, Option.or_none]
    split
    · rfl
    · rw [HashMap.lookup_insert_cases, if_neg (Ne.symm hs)]

theorem Built.addModel {rows : List Row} {c : PricingCatalog} (h : Built rows c) (value : Value) :
    Built (accept rows value) (c.addModel value) := by
  rw [addModel_eq]
  unfold accept
  cases usableRow value with
  | none => exact h
  | some row =>
    simp only [h.isSome_iff row.id]
    split
    · exact h
    · rename_i hfresh
      exact h.insertRow hfresh

theorem built_pass (data : List Value) :
    Built (acceptedRows data) ((sortByColon data).foldl addModel {}) := by
  unfold acceptedRows
  have hstart : Built [] {} := by
    refine ⟨?_, ?_, ?_⟩
    · intro i e
      simp
    · intro i s
      simp
    · intro s
      rfl
  generalize ([] : List Row) = rows at hstart ⊢
  generalize ({} : PricingCatalog) = c at hstart ⊢
  induction sortByColon data generalizing rows c with
  | nil => exact hstart
  | cons value rest ih => exact ih _ _ (hstart.addModel value)

/-! ### The representation invariant -/

/-- What the five OpenRouter tables say about the accepted rows. -/
structure OpenRouterInv (rows : List Row) (c : PricingCatalog) : Prop where
  sameIds : ∀ i, (c.openrouter.lookup i).isSome = (c.openrouterSlugs.lookup i).isSome
  nonempty : ∃ i, (c.openrouter.lookup i).isSome = true
  accepted : ∀ i, (c.openrouter.lookup i).isSome = true ↔ ∃ row ∈ rows, row.id = i
  entry : ∀ i e, c.openrouter.lookup i = some e →
    e.model = i ∧ e.provider = "*" ∧ PricesOk e
  slugOf : ∀ i s, c.openrouterSlugs.lookup i = some s ↔ ∃ row ∈ rows, row.id = i ∧ row.slug = s
  bySlug : ∀ row ∈ rows, ∃ row' ∈ rows, c.openrouterBySlug.lookup row.slug = some row'.id ∧
    row'.slug = row.slug ∧
    (row'.colon = true → ∀ r ∈ rows, r.slug = row.slug → r.colon = true)
  bySlugRow : ∀ s i, c.openrouterBySlug.lookup s = some i → ∃ row ∈ rows, row.slug = s ∧ row.id = i
  bySlugModel : ∀ name i, c.openrouterBySlugModel.lookup name = some i ↔
    (∃ s, c.openrouterBySlug.lookup s = some i ∧ lastSegment s = name) ∧
      ∀ s i', c.openrouterBySlug.lookup s = some i' → lastSegment s = name → i' = i
  byIdModel : ∀ name i, c.openrouterByIdModel.lookup name = some i ↔
    ((c.openrouter.lookup i).isSome = true ∧ lastSegment i = name) ∧
      ∀ i', (c.openrouter.lookup i').isSome = true → lastSegment i' = name → i' = i

theorem lookup_uniqueLastSegments (names : List (String × String)) (short id : String) :
    (uniqueLastSegments names).lookup short = some id ↔
      (∃ name, (name, id) ∈ names ∧ lastSegment name = short) ∧
        ∀ name id', (name, id') ∈ names → lastSegment name = short → id' = id := by
  unfold uniqueLastSegments
  rw [HashMap.lookup_uniqueValues]
  have hmem : ∀ id', (short, id') ∈ names.map (fun e => (lastSegment e.1, e.2)) ↔
      ∃ name, (name, id') ∈ names ∧ lastSegment name = short := by
    intro id'
    rw [List.mem_map]
    constructor
    · intro hpair
      obtain ⟨⟨name, id''⟩, hname, heq⟩ := hpair
      cases heq
      exact ⟨name, hname, rfl⟩
    · intro hnamed
      obtain ⟨name, hname, hshort⟩ := hnamed
      exact ⟨(name, id'), hname, by rw [hshort]⟩
  simp only [hmem]
  constructor
  · intro honly
    obtain ⟨hex, hall⟩ := honly
    exact ⟨hex, fun name id' hname hshort => hall id' ⟨name, hname, hshort⟩⟩
  · intro honly
    obtain ⟨hex, hall⟩ := honly
    refine ⟨hex, ?_⟩
    intro id' hnamed
    obtain ⟨name, hname, hshort⟩ := hnamed
    exact hall name id' hname hshort

/-- The first row of a slug has a colon in its id only if all of them have. -/
theorem find_slug_colon {rows : List Row}
    (hsorted : rows.Pairwise fun r r' => r.colon = true → r'.colon = true) {s : String} {row : Row}
    (hfind : rows.find? (fun r => r.slug = s) = some row) (hcolon : row.colon = true) {r : Row}
    (hr : r ∈ rows) (hslug : r.slug = s) : r.colon = true := by
  obtain ⟨-, before, after, rfl, hbefore⟩ := List.find?_eq_some_iff_append.mp hfind
  rcases List.mem_append.mp hr with hin | hin
  · have hno := hbefore r hin
    simp [hslug] at hno
  · rcases List.mem_cons.mp hin with heq | hafter
    · rw [heq]
      exact hcolon
    · have htail := (List.pairwise_append.mp hsorted).2.1
      exact (List.pairwise_cons.mp htail).1 r hafter hcolon

theorem Built.bySlug_row {rows : List Row} {c : PricingCatalog} (h : Built rows c) {s i : String}
    (hlookup : c.openrouterBySlug.lookup s = some i) :
    ∃ row, rows.find? (fun r => r.slug = s) = some row ∧ row ∈ rows ∧ row.slug = s ∧
      row.id = i := by
  rw [h.bySlug] at hlookup
  obtain ⟨row, hfind, hid⟩ := Option.map_eq_some_iff.mp hlookup
  exact ⟨row, hfind, List.mem_of_find?_eq_some hfind, by simpa using List.find?_some hfind, hid⟩

theorem Built.bySlug_of_mem {rows : List Row} {c : PricingCatalog} (h : Built rows c)
    {row : Row} (hrow : row ∈ rows) : ∃ i, c.openrouterBySlug.lookup row.slug = some i := by
  rw [h.bySlug]
  cases hfind : rows.find? fun r => r.slug = row.slug with
  | some row' => exact ⟨row'.id, rfl⟩
  | none => exact absurd (by simp) (List.find?_eq_none.mp hfind row hrow)

section
variable {slugOrder : HashMap String String → List (String × String)}
  {idOrder : HashMap String PricingEntry → List (String × PricingEntry)}
  {data : List Value} {c : PricingCatalog}

theorem parseOpenrouter_ok
    (h : parseOpenrouter slugOrder idOrder (.ok data) = .ok c) :
    ((sortByColon data).foldl addModel {}).openrouter ≠ ∅ ∧
      c = { (sortByColon data).foldl addModel {} with
        openrouterBySlugModel :=
          uniqueLastSegments (slugOrder ((sortByColon data).foldl addModel {}).openrouterBySlug)
        openrouterByIdModel := uniqueLastSegments
          ((idOrder ((sortByColon data).foldl addModel {}).openrouter).map fun e => (e.1, e.1)) } := by
  unfold parseOpenrouter at h
  simp only at h
  split at h
  · cases h
  · rename_i hne
    cases h
    exact ⟨hne, rfl⟩

variable (slugOrder idOrder) in
theorem parseOpenrouter_accepts {built : PricingCatalog}
    (hbuilt : (sortByColon data).foldl addModel {} = built) (hne : built.openrouter ≠ ∅) :
    ∃ c, parseOpenrouter slugOrder idOrder (.ok data) = .ok c ∧ c.byKey = built.byKey ∧
      c.openrouter = built.openrouter ∧ c.openrouterBySlug = built.openrouterBySlug ∧
      c.openrouterSlugs = built.openrouterSlugs := by
  subst hbuilt
  unfold parseOpenrouter
  simp only [if_neg hne]
  exact ⟨_, rfl, rfl, rfl, rfl, rfl⟩

theorem mem_idPairs {m : HashMap String PricingEntry} {items : List (String × PricingEntry)}
    (h : HashMap.Iterates m items) {name i : String} :
    (name, i) ∈ items.map (fun e => (e.1, e.1)) ↔ name = i ∧ (m.lookup i).isSome = true := by
  rw [List.mem_map, Option.isSome_iff_exists]
  constructor
  · intro hpair
    obtain ⟨⟨key, e⟩, he, heq⟩ := hpair
    cases heq
    exact ⟨rfl, e, h.mem.mp he⟩
  · intro hkept
    obtain ⟨rfl, e, he⟩ := hkept
    exact ⟨(name, e), h.mem.mpr he, rfl⟩

theorem parseOpenrouter_inv (hslug : ∀ m, HashMap.Iterates m (slugOrder m))
    (hid : ∀ m, HashMap.Iterates m (idOrder m))
    (h : parseOpenrouter slugOrder idOrder (.ok data) = .ok c) :
    OpenRouterInv (acceptedRows data) c := by
  obtain ⟨hne, rfl⟩ := parseOpenrouter_ok h
  have hbuilt := built_pass data
  generalize (sortByColon data).foldl addModel {} = built at hne hbuilt
  have haccepted : ∀ i, (built.openrouter.lookup i).isSome = true ↔
      ∃ row ∈ acceptedRows data, row.id = i := by
    intro i
    rw [hbuilt.isSome_iff, List.mem_map]
  refine ⟨?_, ?_, haccepted, ?_, hbuilt.slugs, ?_, ?_, ?_, ?_⟩
  · intro i
    apply Bool.eq_iff_iff.mpr
    rw [haccepted i, Option.isSome_iff_exists]
    constructor
    · intro hlisted
      obtain ⟨row, hrow, hrid⟩ := hlisted
      exact ⟨row.slug, (hbuilt.slugs i row.slug).mpr ⟨row, hrow, hrid, rfl⟩⟩
    · intro hslug
      obtain ⟨s, hs⟩ := hslug
      obtain ⟨row, hrow, hrid, -⟩ := (hbuilt.slugs i s).mp hs
      exact ⟨row, hrow, hrid⟩
  · by_contra hnone
    apply hne
    apply Finmap.ext_lookup
    intro i
    rw [Finmap.lookup_empty]
    exact Option.not_isSome_iff_eq_none.mp fun hsome => hnone ⟨i, hsome⟩
  · intro i e he
    obtain ⟨row, hrow, hrid, hentry⟩ := (hbuilt.entries i e).mp he
    obtain ⟨value, hvalue⟩ := acceptedRows_usable hrow
    obtain ⟨-, hprovider, hmodel, hprices⟩ := usableRow_ok hvalue
    rw [← hentry]
    exact ⟨hmodel.trans hrid, hprovider, hprices⟩
  · intro row hrow
    obtain ⟨i, hi⟩ := hbuilt.bySlug_of_mem hrow
    obtain ⟨row', hfind, hrow', hslug', hrid⟩ := hbuilt.bySlug_row hi
    refine ⟨row', hrow', hrid ▸ hi, hslug', ?_⟩
    intro hcolon r hr hrslug
    exact find_slug_colon (acceptedRows_sorted data) hfind hcolon hr hrslug
  · intro s i hi
    obtain ⟨row, -, hrow, hrslug, hrid⟩ := hbuilt.bySlug_row hi
    exact ⟨row, hrow, hrslug, hrid⟩
  · intro name i
    change (uniqueLastSegments (slugOrder built.openrouterBySlug)).lookup name = some i ↔ _
    rw [lookup_uniqueLastSegments]
    simp only [(hslug built.openrouterBySlug).mem]
  · intro name i
    change (uniqueLastSegments _).lookup name = some i ↔ _
    rw [lookup_uniqueLastSegments]
    simp only [mem_idPairs (hid built.openrouter)]
    constructor
    · intro honly
      obtain ⟨⟨n, ⟨rfl, hsome⟩, hshort⟩, hall⟩ := honly
      exact ⟨⟨hsome, hshort⟩, fun i' hsome' hshort' => hall i' i' ⟨rfl, hsome'⟩ hshort'⟩
    · intro honly
      obtain ⟨⟨hsome, hshort⟩, hall⟩ := honly
      refine ⟨⟨i, ⟨rfl, hsome⟩, hshort⟩, ?_⟩
      rintro n i' ⟨rfl, hsome'⟩ hshort'
      exact hall n hsome' hshort'

end

/-- Overrides touch none of the OpenRouter tables. -/
theorem OpenRouterInv.withOverrides {rows : List Row} {c : PricingCatalog}
    (h : OpenRouterInv rows c) (overrides : List PricingEntry) :
    OpenRouterInv rows (c.withOverrides overrides) :=
  ⟨h.sameIds, h.nonempty, h.accepted, h.entry, h.slugOf, h.bySlug, h.bySlugRow, h.bySlugModel,
    h.byIdModel⟩

/-- Every table leads to an id that has an entry, and every entry has a slug. -/
structure NoDangling (c : PricingCatalog) : Prop where
  bySlug : ∀ name i, c.openrouterBySlug.lookup name = some i →
    (c.openrouter.lookup i).isSome = true
  bySlugModel : ∀ name i, c.openrouterBySlugModel.lookup name = some i →
    (c.openrouter.lookup i).isSome = true
  byIdModel : ∀ name i, c.openrouterByIdModel.lookup name = some i →
    (c.openrouter.lookup i).isSome = true
  slug : ∀ i e, c.openrouter.lookup i = some e → (c.openrouterSlugs.lookup e.model).isSome = true

theorem OpenRouterInv.noDangling {rows : List Row} {c : PricingCatalog}
    (h : OpenRouterInv rows c) : NoDangling c := by
  have hbySlug : ∀ name i, c.openrouterBySlug.lookup name = some i →
      (c.openrouter.lookup i).isSome = true := by
    intro name i hi
    obtain ⟨row, hrow, -, hrid⟩ := h.bySlugRow name i hi
    exact (h.accepted i).mpr ⟨row, hrow, hrid⟩
  refine ⟨hbySlug, ?_, ?_, ?_⟩
  · intro name i hi
    obtain ⟨⟨s, hs, -⟩, -⟩ := (h.bySlugModel name i).mp hi
    exact hbySlug s i hs
  · intro name i hi
    exact ((h.byIdModel name i).mp hi).1.1
  · intro i e he
    rw [(h.entry i e he).1, ← h.sameIds i, he]
    rfl

/-- The invariant holds of every parsed catalog, in whatever order the maps iterate, and
under every list of overrides; no lookup meets an id or a slug that is missing. -/
theorem openrouter_tables_agree {slugOrder : HashMap String String → List (String × String)}
    {idOrder : HashMap String PricingEntry → List (String × PricingEntry)} {data : List Value}
    {c : PricingCatalog} (hslug : ∀ m, HashMap.Iterates m (slugOrder m))
    (hid : ∀ m, HashMap.Iterates m (idOrder m))
    (h : parseOpenrouter slugOrder idOrder (.ok data) = .ok c) :
    OpenRouterInv (acceptedRows data) c ∧ ∀ overrides,
      OpenRouterInv (acceptedRows data) (c.withOverrides overrides) ∧
        NoDangling (c.withOverrides overrides) := by
  have hinv := parseOpenrouter_inv hslug hid h
  refine ⟨hinv, ?_⟩
  intro overrides
  exact ⟨hinv.withOverrides overrides, (hinv.withOverrides overrides).noDangling⟩

def sampleModel (id slug prompt completion : String) : Value :=
  .object [("canonical_slug", .string slug), ("id", .string id),
    ("pricing", .object [("completion", .string completion), ("prompt", .string prompt)])]

/-- A batch variant, listed before the standard model of the same slug. -/
def sampleModels : List Value :=
  [sampleModel "vendor/m:batch" "vendor/m-2024" "0.5" "1",
    sampleModel "vendor/m" "vendor/m-2024" "1" "2"]

theorem openrouter_tables_agree_sample :
    ∃ c, parseOpenrouter HashMap.someOrder HashMap.someOrder (.ok sampleModels) = .ok c ∧
      (acceptedRows sampleModels).map Row.id = ["vendor/m", "vendor/m:batch"] ∧
      OpenRouterInv (acceptedRows sampleModels) c ∧ NoDangling (c.withOverrides []) := by
  have hne : ((sortByColon sampleModels).foldl addModel {}).openrouter ≠ ∅ := by decide +kernel
  obtain ⟨c, hparsed, -⟩ := parseOpenrouter_accepts HashMap.someOrder HashMap.someOrder rfl hne
  obtain ⟨hinv, hoverrides⟩ := openrouter_tables_agree HashMap.someOrder_iterates
    HashMap.someOrder_iterates hparsed
  exact ⟨c, hparsed, by decide +kernel, hinv, (hoverrides []).2⟩

end PricingCatalog

end AiGateway.Core
