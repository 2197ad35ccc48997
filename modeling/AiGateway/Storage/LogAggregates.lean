import AiGateway.Library.GroupBy
import AiGateway.Library.Decimal
import AiGateway.Library.MachineInt
import AiGateway.Library.StableSort
import AiGateway.Storage.LogBatch
import Mathlib.Algebra.Order.BigOperators.Group.List

/-!
# Costs by group (`sqlite/logs.rs:188-309`, `postgres/logs.rs:166-285`)

`aggregate` sums up the logged requests by any dimensions and the costs of the groups to a
total. The groups are those the database returns, at most 500 of them, so that the total is the
cost of all rows only up to that number.
-/

namespace AiGateway.Storage
open AiGateway.Core AiGateway.Library AiGateway.Library.GroupBy AiGateway.Library.MachineInt

inductive AggregateDimension where
  | logNamespace
  | model
  | day
  | hour
  | gatewayKey
  deriving DecidableEq

structure AggregateQuery where
  projectId : Option String
  fromTs : Option Int
  toTs : Option Int
  groupBy : List AggregateDimension

structure AggregateGroup where
  key : Value
  requests : ℕ
  promptTokens : Int
  completionTokens : Int
  costUsd : ℚ
  cachedSavingsUsd : ℚ

structure AggregateResult where
  groups : List AggregateGroup
  totalCostUsd : ℚ

/-- What the database writes for a second: `strftime(.., 'unixepoch')` or
`to_char(to_timestamp(..), ..)`. No text is `NULL`; no answer is an error. -/
structure TimeTexts where
  day : Int → Option (Option String)
  hour : Int → Option (Option String)

def AggregateDimension.name : AggregateDimension → String
  | .logNamespace => "namespace"
  | .model => "model"
  | .day => "day"
  | .hour => "hour"
  | .gatewayKey => "gateway_key_id"

/-- The expression that is selected and grouped by. -/
def AggregateDimension.expr (time : TimeTexts) (row : LogRow) :
    AggregateDimension → Option (Option String)
  | .logNamespace => some row.logNamespace
  | .model => some row.model
  | .day => time.day (row.requestTs.tdiv 1000)
  | .hour => time.hour (row.requestTs.tdiv 1000)
  | .gatewayKey => some row.gatewayKeyId

namespace AggregateQuery

def filters (q : AggregateQuery) (row : LogRow) : Bool :=
  q.projectId.all (fun v => row.projectId = v) && q.fromTs.all (fun v => v ≤ row.requestTs) &&
    q.toTs.all (fun v => row.requestTs ≤ v)

def rowKey (q : AggregateQuery) (time : TimeTexts) (row : LogRow) : Option (List (Option String)) :=
  q.groupBy.mapM fun dim => dim.expr time row

end AggregateQuery

/-! ### The query -/

structure GroupRow where
  dims : List (Option String)
  requests : ℕ
  promptTokens : Int
  completionTokens : Int
  costUsd : ℚ
  cachedSavings : ℚ

/-- SQLite's `SUM` of integers fails where it leaves their range on the way. -/
def sqliteSum : Int → List (Option Int) → Option Int
  | acc, [] => some acc
  | acc, none :: column => sqliteSum acc column
  | acc, some v :: column => if InI64 (acc + v) then sqliteSum (acc + v) column else none

/-- `COALESCE(SUM(..), 0)`; the sum of Postgres is exact, and its cast to `BIGINT` may fail. -/
def LogBackend.sumInt : LogBackend → List (Option Int) → Option Int
  | .sqlite, column => sqliteSum 0 column
  | .postgres, column =>
    let sum := total (fun v => v.getD 0) column
    if InI64 sum then some sum else none

def LogRow.savings (row : LogRow) : ℚ :=
  match row.wouldHaveCostUsd, row.costUsd with
  | some wouldHave, some cost => wouldHave - cost
  | _, _ => 0

def LogBackend.groupRow (backend : LogBackend) (dims : List (Option String)) (rows : List LogRow) :
    Option GroupRow := do
  let promptTokens ← backend.sumInt (rows.map LogRow.promptTokens)
  let completionTokens ← backend.sumInt (rows.map LogRow.completionTokens)
  return {
    dims
    requests := rows.length
    promptTokens
    completionTokens
    costUsd := total (fun row => row.costUsd.getD 0) rows
    cachedSavings := total LogRow.savings rows }

/-- `ORDER BY cost_usd DESC`, with groups of one cost in any order. -/
structure CostOrder where
  sort : List GroupRow → List GroupRow
  perm : ∀ rows, (sort rows).Perm rows
  sorted : ∀ rows, (sort rows).Pairwise fun a b => b.costUsd ≤ a.costUsd

/-- The rows of the answer; without dimensions it is one row for the whole table. -/
def aggregateRows (backend : LogBackend) (time : TimeTexts) (order : CostOrder)
    (table : List LogRow) (q : AggregateQuery) : Option (List GroupRow) :=
  let rows := table.filter q.filters
  if q.groupBy = [] then (backend.groupRow [] rows).map fun row => [row]
  else do
    let keyed ← rows.mapM fun row => (q.rowKey time row).map fun dims => (dims, row)
    let found ← (groups Prod.fst keyed).mapM fun g => backend.groupRow g.1 (g.2.map Prod.snd)
    return (order.sort found).take 500

def GroupRow.toGroup (groupBy : List AggregateDimension) (row : GroupRow) : AggregateGroup :=
  { key := .object ((groupBy.zip row.dims).foldl
      (fun fields dim => fields.filter (·.1 ≠ dim.1.name) ++
        [(dim.1.name, dim.2.elim .null .string)]) [])
    requests := row.requests
    promptTokens := row.promptTokens
    completionTokens := row.completionTokens
    costUsd := row.costUsd
    cachedSavingsUsd := row.cachedSavings }

def aggregate (backend : LogBackend) (time : TimeTexts) (order : CostOrder) (table : List LogRow)
    (q : AggregateQuery) : Option AggregateResult :=
  (aggregateRows backend time order table q).map fun rows =>
    { groups := rows.map (GroupRow.toGroup q.groupBy)
      totalCostUsd := rows.foldl (fun totalCost row => totalCost + row.costUsd) 0 }

/-! ### What a group counts -/

section
variable {backend : LogBackend} {time : TimeTexts} {order : CostOrder}

theorem sqliteSum_eq {acc sum : Int} {column : List (Option Int)}
    (h : sqliteSum acc column = some sum) : sum = acc + total (fun v => v.getD 0) column := by
  induction column generalizing acc with
  | nil =>
    cases h
    rw [total_nil, Int.add_zero]
  | cons v column ih =>
    rw [total_cons]
    cases v with
    | none =>
      rw [ih h, Option.getD_none, Int.zero_add]
    | some v =>
      rw [sqliteSum] at h
      split at h
      · rw [ih h, Option.getD_some, Int.add_assoc]
      · cases h

theorem sumInt_eq {column : List (Option Int)} {sum : Int}
    (h : backend.sumInt column = some sum) : sum = total (fun v => v.getD 0) column := by
  cases backend with
  | sqlite =>
    have hsum := sqliteSum_eq h
    rw [Int.zero_add] at hsum
    exact hsum
  | postgres =>
    unfold LogBackend.sumInt at h
    simp only at h
    split at h
    · cases h
      rfl
    · cases h

structure GroupRow.Sums (row : GroupRow) (rows : List LogRow) : Prop where
  requests : row.requests = rows.length
  promptTokens : row.promptTokens = total (fun r => r.promptTokens.getD 0) rows
  completionTokens : row.completionTokens = total (fun r => r.completionTokens.getD 0) rows
  costUsd : row.costUsd = total (fun r => r.costUsd.getD 0) rows

theorem groupRow_sums {dims : List (Option String)} {rows : List LogRow} {row : GroupRow}
    (h : backend.groupRow dims rows = some row) : row.Sums rows := by
  unfold LogBackend.groupRow at h
  simp only [Option.bind_eq_bind, Option.bind_eq_some_iff, Option.pure_def, Option.some.injEq] at h
  obtain ⟨prompt, hprompt, completion, hcompletion, rfl⟩ := h
  have hp := sumInt_eq hprompt
  have hc := sumInt_eq hcompletion
  rw [total_map] at hp hc
  exact ⟨rfl, hp, hc, rfl⟩

theorem forall₂_of_mapM {α β : Type} {f : α → Option β} {l : List α} {l' : List β}
    (h : l.mapM f = some l') : List.Forall₂ (fun a b => f a = some b) l l' := by
  induction l generalizing l' with
  | nil =>
    cases h
    exact .nil
  | cons a l ih =>
    rw [List.mapM_cons] at h
    simp only [Option.bind_eq_bind, Option.bind_eq_some_iff, Option.pure_def,
      Option.some.injEq] at h
    obtain ⟨b, hb, rest, hrest, rfl⟩ := h
    exact .cons hb (ih hrest)

theorem mem_of_mapM {α β : Type} {f : α → Option β} {l : List α} {l' : List β}
    (h : l.mapM f = some l') {b : β} (hb : b ∈ l') : ∃ a ∈ l, f a = some b := by
  have hpairs := forall₂_of_mapM h
  clear h
  induction hpairs with
  | nil => cases hb
  | cons hhead _ ih =>
    rcases List.mem_cons.mp hb with rfl | hrest
    · exact ⟨_, List.mem_cons_self .., hhead⟩
    · obtain ⟨a, ha, hab⟩ := ih hrest
      exact ⟨a, List.mem_cons_of_mem _ ha, hab⟩

theorem foldl_costUsd (rows : List GroupRow) (start : ℚ) :
    rows.foldl (fun totalCost row => totalCost + row.costUsd) start =
      start + total GroupRow.costUsd rows := by
  induction rows generalizing start with
  | nil => rw [total_nil, add_zero, List.foldl_nil]
  | cons row rows ih => rw [List.foldl_cons, ih, total_cons, add_assoc]

/-! ### What all groups count -/

variable {q : AggregateQuery} {table rows : List LogRow} {shown : List GroupRow}
  {keyed : List (List (Option String) × LogRow)}

theorem keyed_eq
    (h : rows.mapM (fun row => (q.rowKey time row).map fun dims => (dims, row)) = some keyed) :
    keyed.map Prod.snd = rows ∧ keyed.map (fun k => some k.1) = rows.map (q.rowKey time) := by
  have hrows := forall₂_of_mapM h
  clear h
  induction hrows with
  | nil => exact ⟨rfl, rfl⟩
  | cons hrow _ ih =>
    obtain ⟨dims, hdims, rfl⟩ := Option.map_eq_some_iff.mp hrow
    rw [List.map_cons, List.map_cons, List.map_cons, ih.1, ih.2, hdims]
    exact ⟨rfl, rfl⟩

theorem length_keys (h : keyed.map (fun k => some k.1) = rows.map (q.rowKey time)) :
    (keys Prod.fst keyed).length = (rows.map (q.rowKey time)).dedup.length := by
  have hsome : keyed.map (fun k => some k.1) = (keyed.map Prod.fst).map some := by
    rw [List.map_map]
    rfl
  rw [← h, hsome, List.dedup_map_of_injective (Option.some_injective _), List.length_map]
  rfl

theorem total_found {M : Type} [AddCommMonoid M] {f : LogRow → M} {g : GroupRow → M}
    (hg : ∀ row rows, GroupRow.Sums row rows → g row = total f rows) {found : List GroupRow}
    (hfound : (groups Prod.fst keyed).mapM
      (fun group => backend.groupRow group.1 (group.2.map Prod.snd)) = some found) :
    total g found = total f (keyed.map Prod.snd) := by
  have hpairs : List.Forall₂ (fun (group : List (Option String) × List (List (Option String) × LogRow))
      row => total (fun k => f k.2) group.2 = g row) (groups Prod.fst keyed) found := by
    refine (forall₂_of_mapM hfound).imp fun group row hrow => ?_
    rw [hg row _ (groupRow_sums hrow), total_map]
  rw [← total_forall₂ hpairs, total_groups, total_map]

theorem found_requests_pos {found : List GroupRow}
    (hfound : (groups Prod.fst keyed).mapM
      (fun group => backend.groupRow group.1 (group.2.map Prod.snd)) = some found) :
    ∀ row ∈ found, 0 < row.requests := by
  intro row hrow
  obtain ⟨group, hgroup, hsums⟩ := mem_of_mapM hfound hrow
  have hne := groups_ne_nil hgroup
  rw [(groupRow_sums hsums).requests, List.length_map]
  exact List.length_pos_of_ne_nil hne

/-- The answer has a row for every group. -/
def AggregateQuery.FitsLimit (q : AggregateQuery) (time : TimeTexts) (table : List LogRow) : Prop :=
  q.groupBy = [] ∨ ((table.filter q.filters).map (q.rowKey time)).dedup.length ≤ 500

theorem total_shown {M : Type} [AddCommMonoid M] {f : LogRow → M} {g : GroupRow → M}
    (hg : ∀ row rows, GroupRow.Sums row rows → g row = total f rows)
    (h : aggregateRows backend time order table q = some shown) (hfits : q.FitsLimit time table) :
    total g shown = total f (table.filter q.filters) := by
  unfold aggregateRows at h
  simp only at h
  split at h
  · obtain ⟨row, hrow, rfl⟩ := Option.map_eq_some_iff.mp h
    rw [total_cons, total_nil, add_zero]
    exact hg row _ (groupRow_sums hrow)
  · rename_i hgrouped
    simp only [Option.bind_eq_bind, Option.bind_eq_some_iff, Option.pure_def,
      Option.some.injEq] at h
    obtain ⟨keyed, hkeyed, found, hfound, rfl⟩ := h
    obtain ⟨hrows, hkeys⟩ := keyed_eq hkeyed
    have hlen : (order.sort found).length ≤ 500 := by
      rw [(order.perm found).length_eq, ← (forall₂_of_mapM hfound).length_eq, length_groups,
        length_keys hkeys]
      exact hfits.resolve_left hgrouped
    rw [List.take_of_length_le hlen, total_perm g (order.perm found), total_found hg hfound, hrows]

/-- Every group counts a request, so a group that is cut off is missed. -/
theorem total_requests_iff (h : aggregateRows backend time order table q = some shown) :
    total GroupRow.requests shown = (table.filter q.filters).length ↔ q.FitsLimit time table := by
  have hg : ∀ row rows, GroupRow.Sums row rows →
      row.requests = total (fun _ => 1) rows := by
    intro row rows hsums
    rw [hsums.requests, total_one]
  constructor
  · intro hall
    unfold aggregateRows at h
    simp only at h
    split at h
    · rename_i hungrouped
      exact Or.inl hungrouped
    · simp only [Option.bind_eq_bind, Option.bind_eq_some_iff, Option.pure_def,
        Option.some.injEq] at h
      obtain ⟨keyed, hkeyed, found, hfound, rfl⟩ := h
      obtain ⟨hrows, hkeys⟩ := keyed_eq hkeyed
      have hpos : ∀ row ∈ order.sort found, 0 < row.requests := fun row hrow =>
        found_requests_pos hfound row ((order.perm found).mem_iff.mp hrow)
      have hevery : total GroupRow.requests (order.sort found) =
          (table.filter q.filters).length := by
        rw [total_perm _ (order.perm found), total_found hg hfound, hrows, total_one]
      rw [← hevery, total_take_eq_iff hpos, (order.perm found).length_eq,
        ← (forall₂_of_mapM hfound).length_eq, length_groups, length_keys hkeys] at hall
      exact Or.inr hall
  · intro hfits
    rw [total_shown hg h hfits, total_one]

/-! ### When there is an answer -/

theorem mapM_isSome {α β : Type} {f : α → Option β} {l : List α}
    (h : ∀ a ∈ l, (f a).isSome = true) : (l.mapM f).isSome = true := by
  induction l with
  | nil => rfl
  | cons a l ih =>
    obtain ⟨b, hb⟩ := Option.isSome_iff_exists.mp (h a (List.mem_cons_self ..))
    obtain ⟨rest, hrest⟩ := Option.isSome_iff_exists.mp
      (ih fun x hx => h x (List.mem_cons_of_mem _ hx))
    rw [List.mapM_cons, hb, hrest]
    rfl

theorem total_nonneg {column : List (Option Int)} (hcolumn : ∀ v ∈ column, 0 ≤ v.getD 0) :
    0 ≤ total (fun v => v.getD 0) column := by
  induction column with
  | nil =>
    rw [total_nil]
  | cons v column ih =>
    have hv := hcolumn v (List.mem_cons_self ..)
    have hrest := ih fun x hx => hcolumn x (List.mem_cons_of_mem _ hx)
    rw [total_cons]
    omega

theorem sqliteSum_isSome {acc : Int} {column : List (Option Int)} (hacc : 0 ≤ acc)
    (hcolumn : ∀ v ∈ column, 0 ≤ v.getD 0)
    (hmax : acc + total (fun v => v.getD 0) column < 9223372036854775808) :
    (sqliteSum acc column).isSome = true := by
  induction column generalizing acc with
  | nil => rfl
  | cons v column ih =>
    have hv := hcolumn v (List.mem_cons_self ..)
    have hnonneg : ∀ x ∈ column, 0 ≤ x.getD 0 := fun x hx => hcolumn x (List.mem_cons_of_mem _ hx)
    have hrest := total_nonneg hnonneg
    rw [total_cons] at hmax
    cases v with
    | none =>
      rw [Option.getD_none, Int.zero_add] at hmax
      exact ih hacc hnonneg hmax
    | some v =>
      rw [Option.getD_some] at hmax hv
      have hin : InI64 (acc + v) := by
        unfold InI64
        omega
      rw [sqliteSum, if_pos hin]
      exact ih (by omega) hnonneg (by omega)

theorem sumInt_isSome {column : List (Option Int)} (hcolumn : ∀ v ∈ column, 0 ≤ v.getD 0)
    (hmax : total (fun v => v.getD 0) column < 9223372036854775808) :
    (backend.sumInt column).isSome = true := by
  cases backend with
  | sqlite =>
    refine sqliteSum_isSome (le_refl 0) hcolumn ?_
    rw [Int.zero_add]
    exact hmax
  | postgres =>
    have hnonneg := total_nonneg hcolumn
    have hin : InI64 (total (fun v => v.getD 0) column) := by
      unfold InI64
      omega
    unfold LogBackend.sumInt
    simp only [if_pos hin]
    rfl

/-- The token counts of a column are not negative and their sum is an `i64`. -/
def Summable (column : LogRow → Option Int) (rows : List LogRow) : Prop :=
  (∀ row ∈ rows, 0 ≤ (column row).getD 0) ∧
    total (fun row => (column row).getD 0) rows < 9223372036854775808

theorem Summable.sublist {column : LogRow → Option Int} {rows part : List LogRow}
    (h : Summable column rows) (hpart : part.Sublist rows) : Summable column part := by
  refine ⟨fun row hrow => h.1 row (hpart.subset hrow), lt_of_le_of_lt ?_ h.2⟩
  refine (hpart.map fun row => (column row).getD 0).sum_le_sum ?_
  intro v hv
  obtain ⟨row, hrow, rfl⟩ := List.mem_map.mp hv
  exact h.1 row hrow

theorem Summable.sumInt {column : LogRow → Option Int} (h : Summable column rows) :
    (backend.sumInt (rows.map column)).isSome = true := by
  refine sumInt_isSome ?_ ?_
  · intro v hv
    obtain ⟨row, hrow, rfl⟩ := List.mem_map.mp hv
    exact h.1 row hrow
  · have hmax := h.2
    rw [total_map]
    exact hmax

theorem groupRow_isSome (dims : List (Option String)) (hprompt : Summable LogRow.promptTokens rows)
    (hcompletion : Summable LogRow.completionTokens rows) :
    (backend.groupRow dims rows).isSome = true := by
  obtain ⟨prompt, hp⟩ := Option.isSome_iff_exists.mp (@Summable.sumInt backend _ _ hprompt)
  obtain ⟨completion, hc⟩ := Option.isSome_iff_exists.mp (@Summable.sumInt backend _ _ hcompletion)
  unfold LogBackend.groupRow
  rw [hp, hc]
  rfl

/-- The query answers when its expressions do and no sum of tokens leaves the range. -/
theorem aggregate_isSome (order : CostOrder)
    (hkeys : ∀ row ∈ table.filter q.filters, (q.rowKey time row).isSome = true)
    (hprompt : Summable LogRow.promptTokens (table.filter q.filters))
    (hcompletion : Summable LogRow.completionTokens (table.filter q.filters)) :
    (aggregate backend time order table q).isSome = true := by
  unfold aggregate aggregateRows
  rw [Option.isSome_map]
  simp only
  split
  · rw [Option.isSome_map]
    exact groupRow_isSome [] hprompt hcompletion
  · have hkeyed : ((table.filter q.filters).mapM fun row =>
        (q.rowKey time row).map fun dims => (dims, row)).isSome = true := by
      apply mapM_isSome
      intro row hrow
      rw [Option.isSome_map]
      exact hkeys row hrow
    obtain ⟨keyed, hkeyed⟩ := Option.isSome_iff_exists.mp hkeyed
    have hrows := (keyed_eq hkeyed).1
    have hfound : ((groups Prod.fst keyed).mapM
        fun g => backend.groupRow g.1 (g.2.map Prod.snd)).isSome = true := by
      apply mapM_isSome
      intro g hg
      have hpart : (g.2.map Prod.snd).Sublist (table.filter q.filters) := by
        obtain ⟨k, -, rfl⟩ := List.mem_map.mp hg
        rw [← hrows]
        exact (List.filter_sublist ..).map Prod.snd
      exact groupRow_isSome g.1 (hprompt.sublist hpart) (hcompletion.sublist hpart)
    obtain ⟨found, hfound⟩ := Option.isSome_iff_exists.mp hfound
    rw [hkeyed, Option.bind_eq_bind, Option.bind_some, hfound]
    rfl

/-! ### The total -/

/-- The total is the cost of all rows that pass the filters, and the groups count all of them. -/
structure AggregateResult.AddsUp (result : AggregateResult) (table : List LogRow)
    (q : AggregateQuery) : Prop where
  totalCostUsd : result.totalCostUsd = total (fun row => row.costUsd.getD 0) (table.filter q.filters)
  requests : total AggregateGroup.requests result.groups = (table.filter q.filters).length
  promptTokens : total AggregateGroup.promptTokens result.groups =
    total (fun row => row.promptTokens.getD 0) (table.filter q.filters)
  completionTokens : total AggregateGroup.completionTokens result.groups =
    total (fun row => row.completionTokens.getD 0) (table.filter q.filters)

/-- The result adds up exactly when it is not grouped or the rows have at most 500 keys. -/
theorem aggregate_addsUp_iff {result : AggregateResult}
    (h : aggregate backend time order table q = some result) :
    result.AddsUp table q ↔
      q.groupBy = [] ∨ ((table.filter q.filters).map (q.rowKey time)).dedup.length ≤ 500 := by
  obtain ⟨shown, hshown, rfl⟩ := Option.map_eq_some_iff.mp h
  constructor
  · intro hadds
    have hrequests := hadds.requests
    rw [total_map] at hrequests
    exact (total_requests_iff hshown).mp hrequests
  · intro hfits
    constructor
    · show shown.foldl _ 0 = _
      rw [foldl_costUsd, zero_add]
      exact total_shown (fun _ _ hsums => hsums.costUsd) hshown hfits
    · rw [total_map]
      exact (total_requests_iff hshown).mpr hfits
    · rw [total_map]
      exact total_shown (fun _ _ hsums => hsums.promptTokens) hshown hfits
    · rw [total_map]
      exact total_shown (fun _ _ hsums => hsums.completionTokens) hshown hfits

end

def insertionOrder : CostOrder where
  sort := StableSort.sortDesc GroupRow.costUsd
  perm := StableSort.sortDesc_perm GroupRow.costUsd
  sorted := StableSort.sortDesc_desc GroupRow.costUsd

def firstDay : TimeTexts := ⟨fun _ => some (some "1970-01-01"), fun _ => some (some "1970-01-01T00")⟩

def pricedRow (id : String) (model : Option String) (cost : Option ℚ) : LogRow :=
  { (plainRecord id none).toRow fun _ => "null" with model, costUsd := cost, promptTokens := some 10 }

def pricedRows : List LogRow :=
  [pricedRow "r1" (some "gpt-4o") (some (1 / 4)), pricedRow "r2" none none,
    pricedRow "r3" (some "gpt-4o") (some (1 / 8))]

theorem aggregate_addsUp_daily :
    ∃ result, aggregate .sqlite firstDay insertionOrder pricedRows
        ⟨some "p1", some 0, none, [.day, .model]⟩ = some result ∧
      result.AddsUp pricedRows ⟨some "p1", some 0, none, [.day, .model]⟩ := by
  have hkeys : ∀ row ∈ pricedRows.filter
      (AggregateQuery.filters ⟨some "p1", some 0, none, [.day, .model]⟩),
      (AggregateQuery.rowKey ⟨some "p1", some 0, none, [.day, .model]⟩ firstDay row).isSome =
        true := by
    intro row _
    rfl
  obtain ⟨result, hresult⟩ := Option.isSome_iff_exists.mp
    (@aggregate_isSome .sqlite firstDay _ pricedRows insertionOrder hkeys ⟨by decide, by decide⟩
      ⟨by decide, by decide⟩)
  exact ⟨result, hresult, (aggregate_addsUp_iff hresult).mpr (Or.inr (by decide))⟩

def manyModels : List LogRow :=
  (List.range 501).map fun i => pricedRow (toString i) (some (toString i)) (some 1)

theorem many_models_cut :
    (∃ result, aggregate .sqlite firstDay insertionOrder manyModels
        ⟨none, none, none, [.model]⟩ = some result ∧
      ¬ result.AddsUp manyModels ⟨none, none, none, [.model]⟩) ∧
    ∃ result, aggregate .postgres firstDay insertionOrder manyModels
        ⟨none, none, none, [.model]⟩ = some result ∧
      ¬ result.AddsUp manyModels ⟨none, none, none, [.model]⟩ := by
  suffices h : ∀ backend, ∃ result, aggregate backend firstDay insertionOrder manyModels
      ⟨none, none, none, [.model]⟩ = some result ∧
        ¬ result.AddsUp manyModels ⟨none, none, none, [.model]⟩ from ⟨h .sqlite, h .postgres⟩
  intro backend
  have hall : manyModels.filter (AggregateQuery.filters ⟨none, none, none, [.model]⟩) =
      manyModels := by
    rw [List.filter_eq_self]
    intro row _
    rfl
  have hmany : (manyModels.map (AggregateQuery.rowKey ⟨none, none, none, [.model]⟩
      firstDay)).dedup.length = 501 := by
    have hkeys : manyModels.map (AggregateQuery.rowKey ⟨none, none, none, [.model]⟩ firstDay) =
        (List.range 501).map fun i => some [some (toString i)] := by
      unfold manyModels
      rw [List.map_map]
      rfl
    have hinj : Function.Injective fun i : ℕ => some [some (toString i)] := by
      intro i j hij
      exact Decimal.toString_nat_inj (Option.some.inj (List.cons.inj (Option.some.inj hij)).1)
    rw [hkeys, ((List.nodup_map_iff hinj).mpr List.nodup_range).dedup, List.length_map,
      List.length_range]
  have hanswer : (aggregate backend firstDay insertionOrder manyModels
      ⟨none, none, none, [.model]⟩).isSome = true := by
    apply aggregate_isSome
    · intro row _
      rfl
    · rw [hall]
      exact ⟨by decide +kernel, by decide +kernel⟩
    · rw [hall]
      exact ⟨by decide +kernel, by decide +kernel⟩
  obtain ⟨result, hresult⟩ := Option.isSome_iff_exists.mp hanswer
  refine ⟨result, hresult, ?_⟩
  intro hadds
  obtain ⟨shown, hshown, rfl⟩ := Option.map_eq_some_iff.mp hresult
  have hrequests := hadds.requests
  rw [total_map] at hrequests
  rcases (total_requests_iff hshown).mp hrequests with hungrouped | hfew
  · cases hungrouped
  · rw [hall, hmany] at hfew
    omega

end AiGateway.Storage
