import AiGateway.Core.Pricing
import AiGateway.Storage.MemoryMetadata
import AiGateway.Api.RateLimit
import AiGateway.Library.Runs

/-!
# Admin prices (`gateway-api/src/routes/admin/pricing.rs:15-137`)

A handler writes its row, lists all rows and publishes a catalog built from the
list: three steps, with no lock around them. The state machine runs any number of
handlers in any interleaving of these steps. Beside the live catalog it keeps a
count of the writes so far and of those that each list and the live catalog saw.
-/

namespace AiGateway.Api
open AiGateway.Core AiGateway.Storage AiGateway.Library AiGateway.Library.Runs

def rowToEntry (r : PricingRow) : PricingEntry :=
  ⟨r.provider, r.model, r.inputPer1k, r.outputPer1k, r.cachedInputPer1k⟩

def mergedCatalog (base : PricingCatalog) (rows : List PricingRow) : PricingCatalog :=
  base.withOverrides (rows.map rowToEntry)

/-- An item of `GET /admin/pricing`. -/
structure PricingItem where
  provider : String
  model : String
  inputPer1k : F64
  outputPer1k : F64
  cachedInputPer1k : Option F64
  source : String

def pricingItem (overrides : List PricingRow) (merged : PricingCatalog) (e : PricingEntry) :
    PricingItem :=
  { provider := e.provider
    model := e.model
    inputPer1k := e.inputPer1k
    outputPer1k := e.outputPer1k
    cachedInputPer1k := e.cachedInputPer1k
    source :=
      if (e.provider, e.model) ∈ overrides.map fun r => (r.provider, r.model) then "override"
      else merged.source e.provider e.model }

/-- `list_pricing`; the orders are those in which the merged catalog iterates. -/
def listPricing (base : PricingCatalog) (overrides : List PricingRow)
    (byKeyOrder : List ((String × String) × PricingEntry))
    (openrouterOrder : List (String × PricingEntry)) : List PricingItem :=
  let merged := mergedCatalog base overrides
  let items := (merged.entries byKeyOrder openrouterOrder).map (pricingItem overrides merged)
  items.mergeSort fun a b => a.provider < b.provider || (a.provider = b.provider && a.model ≤ b.model)

structure UpsertPricingBody where
  provider : String
  model : String
  inputPer1k : F64
  outputPer1k : F64
  cachedInputPer1k : Option F64

def validPrice (v : F64) : Bool := v.isFinite && v.nonneg

inductive PricingRequest where
  | put (body : UpsertPricingBody)
  | delete (provider model : String)

/-- The store call of a handler, unless its body is refused. -/
def PricingRequest.write (s : MemoryMetadataStore) :
    PricingRequest → Except ApiError MemoryMetadataStore
  | .put body =>
    let provider := trim body.provider
    let model := trim body.model
    if provider = "" || model = "" then .error (.badRequest "provider and model are required")
    else if !validPrice body.inputPer1k || !validPrice body.outputPer1k ||
        !body.cachedInputPer1k.all validPrice then
      .error (.badRequest "prices must be non-negative numbers")
    else
      .ok (s.upsertPricing
        ⟨provider, model, body.inputPer1k, body.outputPer1k, body.cachedInputPer1k⟩)
  | .delete provider model => .ok (s.deletePricing provider model)

/-- Where a handler stands; `idle` before it starts and after it returned. -/
inductive Handler where
  | idle
  | written
  | listed (rows : List PricingRow) (seen : ℕ)

structure PricingState where
  store : MemoryMetadataStore
  live : PricingCatalog
  handlers : ℕ → Handler
  writes : ℕ
  liveSeen : ℕ

inductive PricingStep where
  | write (i : ℕ) (req : PricingRequest)
  | list (i : ℕ) (order : List ((String × String) × PricingRow))
  | publish (i : ℕ)

def PricingState.setHandler (s : PricingState) (i : ℕ) (h : Handler) : PricingState :=
  { s with handlers := Function.update s.handlers i h }

def pricingStep (base : PricingCatalog) (s : PricingState) : PricingStep → Option PricingState
  | .write i req =>
    match s.handlers i with
    | .idle =>
      match req.write s.store with
      | .error _ => some s
      | .ok store => some ({ s with store, writes := s.writes + 1 }.setHandler i .written)
    | _ => none
  | .list i order =>
    match s.handlers i with
    | .written =>
      some (s.setHandler i (.listed (MemoryMetadataStore.listPricing order) s.writes))
    | _ => none
  | .publish i =>
    match s.handlers i with
    | .listed rows seen =>
      some ({ s with live := mergedCatalog base rows, liveSeen := seen }.setHandler i .idle)
    | _ => none

/-- A list has the rows of the store, in the order in which the map iterates. -/
def ListsStore (s : PricingState) : PricingStep → Prop
  | .list _ order => HashMap.Iterates s.store.pricing order
  | _ => True

/-- No handler publishes a list older than the one the live catalog was built from. -/
def PublishesInOrder (s : PricingState) (step : PricingStep) : Prop :=
  ListsStore s step ∧
    match step with
    | .publish i =>
      match s.handlers i with
      | .listed _ seen => s.liveSeen ≤ seen
      | _ => True
    | _ => True

/-- The state after boot. -/
def PricingState.boot (base : PricingCatalog) (store : MemoryMetadataStore)
    (order : List ((String × String) × PricingRow)) : PricingState :=
  ⟨store, mergedCatalog base (MemoryMetadataStore.listPricing order), fun _ => .idle, 0, 0⟩

/-! ### The merged catalog does not depend on the order of the rows -/

theorem mem_listPricing {s : MemoryMetadataStore} {order : List ((String × String) × PricingRow)}
    (horder : HashMap.Iterates s.pricing order) (row : PricingRow) :
    row ∈ MemoryMetadataStore.listPricing order ↔
      s.pricing.lookup (row.provider, row.model) = some row := by
  unfold MemoryMetadataStore.listPricing
  rw [List.mem_map]
  constructor
  · rintro ⟨⟨name, row'⟩, hmem, rfl⟩
    have hlookup := horder.mem.mp hmem
    rw [s.pricingByName name row' hlookup]
    exact hlookup
  · intro hlookup
    exact ⟨((row.provider, row.model), row), horder.mem.mpr hlookup, rfl⟩

theorem listPricing_nodup {s : MemoryMetadataStore}
    {order : List ((String × String) × PricingRow)} (horder : HashMap.Iterates s.pricing order) :
    (((MemoryMetadataStore.listPricing order).map rowToEntry).map PricingCatalog.key).Nodup := by
  have hkeys : ((MemoryMetadataStore.listPricing order).map rowToEntry).map PricingCatalog.key =
      order.map Prod.fst := by
    unfold MemoryMetadataStore.listPricing
    rw [List.map_map, List.map_map]
    apply List.map_congr_left
    rintro ⟨name, row⟩ hmem
    exact s.pricingByName name row (horder.mem.mp hmem)
  rw [hkeys]
  exact horder.nodup_keys

theorem mergedCatalog_order (base : PricingCatalog) {s : MemoryMetadataStore}
    {order order' : List ((String × String) × PricingRow)}
    (horder : HashMap.Iterates s.pricing order) (horder' : HashMap.Iterates s.pricing order') :
    mergedCatalog base (MemoryMetadataStore.listPricing order) =
      mergedCatalog base (MemoryMetadataStore.listPricing order') := by
  refine PricingCatalog.withOverrides_congr (listPricing_nodup horder) (listPricing_nodup horder')
    ?_ base
  intro e
  rw [List.mem_map, List.mem_map]
  simp only [mem_listPricing horder, mem_listPricing horder']

/-! ### Runs -/

/-- The catalog that the rows of the store make. -/
def Current (base : PricingCatalog) (store : MemoryMetadataStore) (c : PricingCatalog) : Prop :=
  ∀ order, HashMap.Iterates store.pricing order →
    c = mergedCatalog base (MemoryMetadataStore.listPricing order)

/-- A handler that will bring the live catalog up to the last write. -/
def Catches (s : PricingState) : Handler → Prop
  | .idle => False
  | .written => True
  | .listed _ seen => seen = s.writes

structure PricingInv (base : PricingCatalog) (s : PricingState) : Prop where
  seen_le : ∀ i rows seen, s.handlers i = .listed rows seen → seen ≤ s.writes
  listed : ∀ i rows seen, s.handlers i = .listed rows seen → seen = s.writes →
    Current base s.store (mergedCatalog base rows)
  liveSeen_le : s.liveSeen ≤ s.writes
  live : s.liveSeen = s.writes → Current base s.store s.live
  behind : s.liveSeen ≠ s.writes → ∃ i, Catches s (s.handlers i)

theorem PricingInv.boot (base : PricingCatalog) {store : MemoryMetadataStore}
    {order : List ((String × String) × PricingRow)}
    (horder : HashMap.Iterates store.pricing order) :
    PricingInv base (.boot base store order) where
  seen_le := by
    intro i rows seen h
    cases h
  listed := by
    intro i rows seen h
    cases h
  liveSeen_le := le_refl 0
  live := by
    intro _ order' horder'
    exact mergedCatalog_order base horder horder'
  behind := by
    intro h
    exact absurd rfl h

theorem setHandler_same (s : PricingState) (i : ℕ) (h : Handler) :
    (s.setHandler i h).handlers i = h := by
  simp [PricingState.setHandler]

theorem setHandler_of_ne (s : PricingState) {i j : ℕ} (h : Handler) (hne : j ≠ i) :
    (s.setHandler i h).handlers j = s.handlers j := by
  simp [PricingState.setHandler, hne]

theorem PricingInv.write {base : PricingCatalog} {s : PricingState} (hinv : PricingInv base s)
    (i : ℕ) (store : MemoryMetadataStore) :
    PricingInv base ({ s with store, writes := s.writes + 1 }.setHandler i .written) := by
  have hold : ∀ j rows seen,
      ({ s with store, writes := s.writes + 1 }.setHandler i .written).handlers j =
        .listed rows seen → seen ≤ s.writes := by
    intro j rows seen h
    by_cases hj : j = i
    · rw [hj, setHandler_same] at h
      cases h
    · rw [setHandler_of_ne _ _ hj] at h
      exact hinv.seen_le j rows seen h
  have hlive := hinv.liveSeen_le
  refine ⟨?_, ?_, ?_, ?_, ?_⟩
  · intro j rows seen h
    have hseen := hold j rows seen h
    change seen ≤ s.writes + 1
    omega
  · intro j rows seen h heq
    have hseen := hold j rows seen h
    change seen = s.writes + 1 at heq
    omega
  · change s.liveSeen ≤ s.writes + 1
    omega
  · intro heq
    change s.liveSeen = s.writes + 1 at heq
    omega
  · intro _
    refine ⟨i, ?_⟩
    rw [setHandler_same]
    exact trivial

theorem PricingInv.list {base : PricingCatalog} {s : PricingState} (hinv : PricingInv base s)
    (i : ℕ) {order : List ((String × String) × PricingRow)}
    (horder : HashMap.Iterates s.store.pricing order) :
    PricingInv base
      (s.setHandler i (.listed (MemoryMetadataStore.listPricing order) s.writes)) := by
  refine ⟨?_, ?_, hinv.liveSeen_le, hinv.live, ?_⟩
  · intro j rows seen h
    by_cases hj : j = i
    · rw [hj, setHandler_same] at h
      cases h
      exact le_refl s.writes
    · rw [setHandler_of_ne _ _ hj] at h
      exact hinv.seen_le j rows seen h
  · intro j rows seen h heq
    by_cases hj : j = i
    · rw [hj, setHandler_same] at h
      cases h
      intro order' horder'
      exact mergedCatalog_order base horder horder'
    · rw [setHandler_of_ne _ _ hj] at h
      exact hinv.listed j rows seen h heq
  · intro hbehind
    obtain ⟨j, hj⟩ := hinv.behind hbehind
    by_cases heq : j = i
    · refine ⟨i, ?_⟩
      rw [setHandler_same]
      exact rfl
    · refine ⟨j, ?_⟩
      rw [setHandler_of_ne _ _ heq]
      exact hj

theorem PricingInv.publish {base : PricingCatalog} {s : PricingState} (hinv : PricingInv base s)
    {i : ℕ} {rows : List PricingRow} {seen : ℕ} (hlisted : s.handlers i = .listed rows seen)
    (horder : s.liveSeen ≤ seen) :
    PricingInv base
      ({ s with live := mergedCatalog base rows, liveSeen := seen }.setHandler i .idle) := by
  have hseen := hinv.seen_le i rows seen hlisted
  have hkept : ∀ j rows' seen', ({ s with live := mergedCatalog base rows, liveSeen := seen
      }.setHandler i .idle).handlers j = .listed rows' seen' →
        s.handlers j = .listed rows' seen' := by
    intro j rows' seen' h
    by_cases hj : j = i
    · rw [hj, setHandler_same] at h
      cases h
    · rw [setHandler_of_ne _ _ hj] at h
      exact h
  refine ⟨?_, ?_, hseen, ?_, ?_⟩
  · intro j rows' seen' h
    exact hinv.seen_le j rows' seen' (hkept j rows' seen' h)
  · intro j rows' seen' h heq
    exact hinv.listed j rows' seen' (hkept j rows' seen' h) heq
  · intro heq
    exact hinv.listed i rows seen hlisted heq
  · intro hbehind
    -- the live catalog was behind before, and handler `i` is not the one to catch up
    have hbefore : s.liveSeen ≠ s.writes := by
      intro heq
      change seen ≠ s.writes at hbehind
      omega
    obtain ⟨j, hj⟩ := hinv.behind hbefore
    have hne : j ≠ i := by
      intro heq
      rw [heq, hlisted] at hj
      exact hbehind hj
    refine ⟨j, ?_⟩
    rw [setHandler_of_ne _ _ hne]
    exact hj

theorem pricingStep_inv {base : PricingCatalog} {s t : PricingState} {step : PricingStep}
    (hinv : PricingInv base s) (hguard : PublishesInOrder s step)
    (hstep : pricingStep base s step = some t) : PricingInv base t := by
  cases step with
  | write i req =>
    simp only [pricingStep] at hstep
    split at hstep
    · split at hstep
      · cases hstep
        exact hinv
      · rename_i store hstore
        cases hstep
        exact hinv.write i store
    · cases hstep
  | list i order =>
    simp only [pricingStep] at hstep
    split at hstep
    · cases hstep
      exact hinv.list i hguard.1
    · cases hstep
  | publish i =>
    simp only [pricingStep] at hstep
    split at hstep
    · rename_i rows seen hlisted
      cases hstep
      have hseen := hguard.2
      simp only [hlisted] at hseen
      exact hinv.publish hlisted hseen
    · cases hstep

/-- When no handler publishes an older list over a newer one, the live catalog is the
merged one whenever all handlers have returned. -/
theorem live_catalog_current (base : PricingCatalog) {store : MemoryMetadataStore}
    {order : List ((String × String) × PricingRow)}
    (horder : HashMap.Iterates store.pricing order) {s : PricingState}
    (hr : Reaches (pricingStep base) PublishesInOrder (.boot base store order) s)
    (hreturned : ∀ i, s.handlers i = .idle) : Current base s.store s.live := by
  have hinv : PricingInv base s := hr.invariant (PricingInv.boot base horder)
    fun _ _ _ hinv hguard hstep => pricingStep_inv hinv hguard hstep
  apply hinv.live
  by_contra hbehind
  obtain ⟨i, hi⟩ := hinv.behind hbehind
  rw [hreturned i] at hi
  exact hi

def samplePrice (price : ℕ) : PricingRow :=
  ⟨"openai", "gpt", F64.ofRatio false price 1, F64.ofRatio false price 1, none⟩

def samplePut (price : ℕ) : PricingRequest :=
  .put ⟨"openai", "gpt", F64.ofRatio false price 1, F64.ofRatio false price 1, none⟩

def sampleOrder (price : ℕ) : List ((String × String) × PricingRow) :=
  [(("openai", "gpt"), samplePrice price)]

theorem samplePut_write (price : ℕ) (hvalid : validPrice (F64.ofRatio false price 1) = true)
    (s : MemoryMetadataStore) :
    (samplePut price).write s = .ok (s.upsertPricing (samplePrice price)) := by
  have hp : trim "openai" = "openai" := by decide +kernel
  have hm : trim "gpt" = "gpt" := by decide +kernel
  simp [samplePut, PricingRequest.write, hp, hm, hvalid, samplePrice]

section
variable {base : PricingCatalog} {guard : PricingState → PricingStep → Prop} {s₀ s : PricingState}

theorem reaches_write (hr : Reaches (pricingStep base) guard s₀ s) {i : ℕ} {req : PricingRequest}
    {store : MemoryMetadataStore} (hidle : s.handlers i = .idle)
    (hwrite : req.write s.store = .ok store) (hguard : guard s (.write i req)) :
    Reaches (pricingStep base) guard s₀
      ({ s with store, writes := s.writes + 1 }.setHandler i .written) := by
  refine hr.next (.write i req) hguard ?_
  simp only [pricingStep, hidle, hwrite]

theorem reaches_list (hr : Reaches (pricingStep base) guard s₀ s) {i : ℕ}
    (order : List ((String × String) × PricingRow)) (hwritten : s.handlers i = .written)
    (hguard : guard s (.list i order)) :
    Reaches (pricingStep base) guard s₀
      (s.setHandler i (.listed (MemoryMetadataStore.listPricing order) s.writes)) := by
  refine hr.next (.list i order) hguard ?_
  simp only [pricingStep, hwritten]

theorem reaches_publish (hr : Reaches (pricingStep base) guard s₀ s) {i : ℕ}
    {rows : List PricingRow} {seen : ℕ} (hlisted : s.handlers i = .listed rows seen)
    (hguard : guard s (.publish i)) :
    Reaches (pricingStep base) guard s₀
      ({ s with live := mergedCatalog base rows, liveSeen := seen }.setHandler i .idle) := by
  refine hr.next (.publish i) hguard ?_
  simp only [pricingStep, hlisted]

end

/-- Two puts of one price whose steps interleave; the handler that listed first publishes first. -/
theorem live_catalog_current_inOrder :
    Current {} ((MemoryMetadataStore.empty.upsertPricing (samplePrice 1)).upsertPricing
      (samplePrice 2)) (mergedCatalog {} [samplePrice 2]) := by
  have hstart : Reaches (pricingStep {}) PublishesInOrder (.boot {} .empty [])
      (.boot {} .empty []) := .start
  have hwrite := reaches_write hstart (i := 0) rfl (samplePut_write 1 (by decide +kernel) _)
    ⟨trivial, trivial⟩
  have hlist := reaches_list hwrite (i := 0) (sampleOrder 1) rfl ⟨rfl, trivial⟩
  have hwrite' := reaches_write hlist (i := 1) rfl (samplePut_write 2 (by decide +kernel) _)
    ⟨trivial, trivial⟩
  have hlist' := reaches_list hwrite' (i := 1) (sampleOrder 2) rfl
    ⟨by unfold ListsStore HashMap.Iterates; rfl, trivial⟩
  have hpublish := reaches_publish hlist' (i := 0) rfl ⟨trivial, Nat.zero_le 1⟩
  have hpublish' := reaches_publish hpublish (i := 1) rfl ⟨trivial, show 1 ≤ 2 by decide⟩
  have hempty : HashMap.Iterates MemoryMetadataStore.empty.pricing [] := rfl
  refine live_catalog_current {} hempty hpublish' ?_
  intro i
  by_cases hi : i = 1
  · simp [PricingState.setHandler, hi]
  · by_cases hi' : i = 0
    · simp [PricingState.setHandler, hi']
    · simp [PricingState.setHandler, PricingState.boot, hi, hi']

/-- Two puts of one price: the first handler publishes its list after the second. -/
theorem late_publish_loses_price :
    ∃ s, Reaches (pricingStep {}) ListsStore (.boot {} .empty []) s ∧
      (s.handlers = fun _ => .idle) ∧ HashMap.Iterates s.store.pricing (sampleOrder 2) ∧
      s.live.lookup "openai" "gpt" = some (rowToEntry (samplePrice 1)) ∧
      (mergedCatalog {} (MemoryMetadataStore.listPricing (sampleOrder 2))).lookup "openai" "gpt" =
        some (rowToEntry (samplePrice 2)) ∧
      ¬ Current {} s.store s.live := by
  have hstart : Reaches (pricingStep {}) ListsStore (.boot {} .empty []) (.boot {} .empty []) :=
    .start
  have hwrite := reaches_write hstart (i := 0) rfl (samplePut_write 1 (by decide +kernel) _)
    trivial
  have hlist := reaches_list hwrite (i := 0) (sampleOrder 1) rfl rfl
  have hwrite' := reaches_write hlist (i := 1) rfl (samplePut_write 2 (by decide +kernel) _)
    trivial
  have hlist' := reaches_list hwrite' (i := 1) (sampleOrder 2) rfl
    (by unfold ListsStore HashMap.Iterates; rfl)
  have hpublish' := reaches_publish hlist' (i := 1) rfl trivial
  have hpublish := reaches_publish hpublish' (i := 0) rfl trivial
  have hstore : HashMap.Iterates ((MemoryMetadataStore.empty.upsertPricing
      (samplePrice 1)).upsertPricing (samplePrice 2)).pricing (sampleOrder 2) := by
    unfold HashMap.Iterates
    decide +kernel
  refine ⟨_, hpublish, ?_, hstore, by decide +kernel, by decide +kernel, ?_⟩
  · funext i
    by_cases hi : i = 0
    · rw [hi]
      rfl
    · by_cases hi' : i = 1
      · rw [hi']
        rfl
      · simp [PricingState.setHandler, PricingState.boot, hi, hi']
  · intro hcurrent
    have heq := hcurrent (sampleOrder 2) hstore
    have hprice := congrArg (fun c => c.lookup "openai" "gpt") heq
    revert hprice
    decide +kernel

end AiGateway.Api
