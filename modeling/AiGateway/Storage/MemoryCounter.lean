import AiGateway.Library.MachineInt
import Mathlib.Logic.Function.Basic
import Mathlib.Data.Rat.Defs
import Mathlib.Data.List.Count

/-!
# `MemoryCounterStore` (`gateway-storage/src/memory/mod.rs:560-655`)

The three hash maps are total functions with default 0: every access in the
source is `entry(..).or_insert(0)` or `get(..).unwrap_or(&0)`, so an absent key
and a key with value 0 behave alike. A window slot is named by the key, the
window length and the bucket number.
-/

namespace AiGateway.Storage
open AiGateway.Library.MachineInt

abbrev WindowSlot := String × ℕ × ℕ

structure MemoryCounterStore where
  windows : WindowSlot → Int
  concurrency : String → ℕ
  budgets : String × Int → ℚ
  /-- ghost: what has been added to a window, which holds as much of it as an `i64` can -/
  added : WindowSlot → Int
  windows_eq : ∀ slot, windows slot = wrap64 (added slot)

/-- `ConcurrencyPermit`: the release closure captures the counter key. -/
structure ConcurrencyPermit where
  key : String
  deriving DecidableEq, Repr

def windowSlot (now : ℕ) (key : String) (windowMs : ℕ) : WindowSlot :=
  (key, windowMs, now / max windowMs 1)

namespace MemoryCounterStore

def new : MemoryCounterStore :=
  ⟨fun _ => 0, fun _ => 0, fun _ => 0, fun _ => 0, fun _ => by decide⟩

theorem windows_inI64 (store : MemoryCounterStore) (slot : WindowSlot) :
    InI64 (store.windows slot) := by
  rw [store.windows_eq]
  exact wrap64_inI64 _

/-- `*entry += by` with release-mode wrap-around. -/
def addAt (store : MemoryCounterStore) (slot : WindowSlot) (delta : Int) : MemoryCounterStore :=
  { store with
    windows := Function.update store.windows slot (wrap64 (store.windows slot + delta))
    added := Function.update store.added slot (store.added slot + delta)
    windows_eq := by
      intro s
      by_cases hs : s = slot
      · rw [hs, Function.update_self, Function.update_self, store.windows_eq, wrap64_wrap64_add]
      · rw [Function.update_of_ne hs, Function.update_of_ne hs, store.windows_eq] }

def incrWindow (store : MemoryCounterStore) (now : ℕ) (key : String) (windowMs : ℕ) (delta : Int) :
    Int × MemoryCounterStore :=
  let store := store.addAt (windowSlot now key windowMs) delta
  (store.windows (windowSlot now key windowMs), store)

def tryAcquireConcurrency (store : MemoryCounterStore) (key : String) (max : UInt32) :
    Option ConcurrencyPermit × MemoryCounterStore :=
  if max.toNat ≤ store.concurrency key then (none, store)
  else
    (some ⟨key⟩,
      { store with
        concurrency := Function.update store.concurrency key (store.concurrency key + 1) })

/-- Dropping a permit runs its release closure (`saturating_sub`). -/
def release (store : MemoryCounterStore) (permit : ConcurrencyPermit) : MemoryCounterStore :=
  { store with
    concurrency :=
      Function.update store.concurrency permit.key (store.concurrency permit.key - 1) }

def releaseAll (store : MemoryCounterStore) (permits : List ConcurrencyPermit) :
    MemoryCounterStore :=
  permits.foldl release store

def incrBudget (store : MemoryCounterStore) (budgetId : String) (periodStart : Int) (delta : ℚ) :
    ℚ × MemoryCounterStore :=
  let used := store.budgets (budgetId, periodStart) + delta
  (used, { store with budgets := Function.update store.budgets (budgetId, periodStart) used })

def readBudget (store : MemoryCounterStore) (budgetId : String) (periodStart : Int) : ℚ :=
  store.budgets (budgetId, periodStart)

@[simp] theorem addAt_self (store : MemoryCounterStore) (slot : WindowSlot) (delta : Int) :
    (store.addAt slot delta).windows slot = wrap64 (store.windows slot + delta) :=
  Function.update_self ..

@[simp] theorem addAt_of_ne (store : MemoryCounterStore) {slot s : WindowSlot} (delta : Int)
    (h : s ≠ slot) : (store.addAt slot delta).windows s = store.windows s :=
  Function.update_of_ne h ..

@[simp] theorem wrap64_windows (store : MemoryCounterStore) (slot : WindowSlot) :
    wrap64 (store.windows slot) = store.windows slot :=
  wrap64_of_inI64 (store.windows_inI64 slot)

theorem addAt_added (store : MemoryCounterStore) (slot : WindowSlot) (delta : Int)
    (s : WindowSlot) :
    (store.addAt slot delta).added s = store.added s + if s = slot then delta else 0 := by
  by_cases hs : s = slot
  · rw [hs, if_pos rfl]
    exact Function.update_self ..
  · rw [if_neg hs, Int.add_zero]
    exact Function.update_of_ne hs ..

@[simp] theorem release_windows (store : MemoryCounterStore) (permit : ConcurrencyPermit) :
    (store.release permit).windows = store.windows := rfl

@[simp] theorem releaseAll_windows (store : MemoryCounterStore)
    (permits : List ConcurrencyPermit) : (store.releaseAll permits).windows = store.windows := by
  induction permits generalizing store with
  | nil => rfl
  | cons p ps ih => exact (ih (store.release p)).trans (release_windows store p)

@[simp] theorem releaseAll_added (store : MemoryCounterStore)
    (permits : List ConcurrencyPermit) : (store.releaseAll permits).added = store.added := by
  induction permits generalizing store with
  | nil => rfl
  | cons p ps ih => exact ih (store.release p)

theorem releaseAll_concurrency (store : MemoryCounterStore) (permits : List ConcurrencyPermit)
    (key : String) :
    (store.releaseAll permits).concurrency key = store.concurrency key - permits.count ⟨key⟩ := by
  induction permits generalizing store with
  | nil => rfl
  | cons p ps ih =>
    rw [releaseAll, List.foldl_cons, ← releaseAll, ih, List.count_cons]
    by_cases hp : p = ⟨key⟩
    · subst hp
      simp only [release, Function.update_self, beq_self_eq_true, if_true]
      omega
    · have hk : key ≠ p.key := fun h => hp (by rw [h])
      simp [release, Function.update_of_ne hk, hp]

end MemoryCounterStore

end AiGateway.Storage
