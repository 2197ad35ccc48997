import AiGateway.Core.Costs
import AiGateway.Storage.LogBatch

/-!
# Costs in the memory log store (`gateway-storage/src/memory/mod.rs:309-353,451-507`)

The store keeps the last 10 000 records (`gateway-bin/src/main.rs:272`). The sweep asks for the
pairs of provider and model that its records have tokens for, and then sets the costs of one
pair after the other.
-/

namespace AiGateway.Storage
open AiGateway.Core AiGateway.Library.MachineInt

variable {κ : Type}

def memoryLogCapacity : ℕ := 10000

/-- `resolve_provider`. -/
def RequestLogRecord.resolveProvider (r : RequestLogRecord κ) : Option String :=
  (r.fallbackUsed.or
    (((((r.metadata.bind fun m => m.get "attempts").bind Value.asArray).bind
      List.getLast?).bind fun x => x.get "provider").bind Value.asStr)).or r.logNamespace

namespace MemoryLogStore

def append {α : Type} (records : List α) (rec : α) : List α :=
  (if memoryLogCapacity ≤ records.length then records.tail else records) ++ [rec]

/-- The records that the sweep is about. -/
def swept (fromTs toTs : Option Int) (r : RequestLogRecord κ) : Bool :=
  (r.promptTokens.isSome || r.completionTokens.isSome) && fromTs.all (· ≤ r.requestTs) &&
    toTs.all (r.requestTs ≤ ·)

def costKey (r : RequestLogRecord κ) : Option (String × String) :=
  r.resolveProvider.bind fun provider => r.model.map fun model => (provider, model)

def distinctCostKeys (records : List (RequestLogRecord κ)) (fromTs toTs : Option Int) :
    List (String × String) :=
  let keys := (records.filter (swept fromTs toTs)).filterMap costKey
  (keys.mergeSort fun a b => a.1 < b.1 || (a.1 = b.1 && a.2 ≤ b.2)).dedup

section
variable [Zero κ] [Add κ] [Mul κ] [Div κ] [CostNumber κ]

/-- The new costs of a record. -/
def recost (inputPer1k cachedInputPer1k outputPer1k : κ) (r : RequestLogRecord κ) :
    RequestLogRecord κ :=
  let prompt := r.promptTokens.getD 0
  let cached := r.cachedTokens.getD 0
  let completion := r.completionTokens.getD 0
  let cost := round6
    (CostNumber.ofCount (max (wrap64 (prompt - cached)) 0) * inputPer1k / CostNumber.ofCount 1000
      + CostNumber.ofCount (max cached 0) * cachedInputPer1k / CostNumber.ofCount 1000
      + CostNumber.ofCount (max completion 0) * outputPer1k / CostNumber.ofCount 1000)
  { r with wouldHaveCostUsd := some cost, costUsd := some (if r.cached then 0 else cost) }

def recomputeCosts (records : List (RequestLogRecord κ)) (provider model : String)
    (inputPer1k cachedInputPer1k outputPer1k : κ) (fromTs toTs : Option Int) :
    List (RequestLogRecord κ) × ℕ :=
  let hit := fun r : RequestLogRecord κ =>
    r.resolveProvider = some provider && r.model = some model && swept fromTs toTs r
  (records.map fun r =>
    if hit r then recost inputPer1k cachedInputPer1k outputPer1k r else r, records.countP hit)

end

theorem append_map {α β : Type} (f : α → β) (records : List α) (rec : α) :
    append (records.map f) (f rec) = (append records rec).map f := by
  unfold append
  rw [List.length_map, List.map_append, List.map_singleton]
  split
  · rw [List.map_tail]
  · rfl

theorem foldl_append_map {α β : Type} (f : α → β) (recs : List α) (records : List α) :
    (recs.map f).foldl append (records.map f) = (recs.foldl append records).map f := by
  induction recs generalizing records with
  | nil => rfl
  | cons rec rest ih => rw [List.map_cons, List.foldl_cons, List.foldl_cons, append_map, ih]

theorem costKey_eq_some {r : RequestLogRecord κ} {key : String × String} :
    costKey r = some key ↔ r.resolveProvider = some key.1 ∧ r.model = some key.2 := by
  unfold costKey
  cases r.resolveProvider with
  | none => simp
  | some provider =>
    cases r.model with
    | none => simp
    | some model =>
      simp only [Option.bind_some, Option.map_some, Option.some.injEq]
      exact Prod.ext_iff

theorem mem_distinctCostKeys {records : List (RequestLogRecord κ)} {fromTs toTs : Option Int}
    {key : String × String} : key ∈ distinctCostKeys records fromTs toTs ↔
      ∃ r ∈ records, swept fromTs toTs r = true ∧ costKey r = some key := by
  unfold distinctCostKeys
  rw [List.mem_dedup, List.mem_mergeSort, List.mem_filterMap]
  constructor
  · rintro ⟨r, hr, hkey⟩
    rw [List.mem_filter] at hr
    exact ⟨r, hr.1, hr.2, hkey⟩
  · rintro ⟨r, hr, hswept, hkey⟩
    exact ⟨r, List.mem_filter.mpr ⟨hr, hswept⟩, hkey⟩

section
variable [Zero κ] [Add κ] [Mul κ] [Div κ] [CostNumber κ] (a b c : κ) (r : RequestLogRecord κ)

@[simp] theorem recost_costKey : costKey (recost a b c r) = costKey r := rfl

@[simp] theorem recost_swept (fromTs toTs : Option Int) :
    swept fromTs toTs (recost a b c r) = swept fromTs toTs r := rfl

/-- Old costs do not matter. -/
theorem recost_recost : recost a b c (recost a b c r) = recost a b c r := rfl

end

end MemoryLogStore

end AiGateway.Storage
