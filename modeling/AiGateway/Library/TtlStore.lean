import Mathlib.Data.Nat.Notation
import Mathlib.Logic.Function.Basic

/-!
# An ideal store with time to live

What a cache with per-entry lifetimes is for: a key answers with the value of
its latest write, as long as no delete came after it and its lifetime has not
passed. Time is a counter that the environment moves.
-/

namespace AiGateway.Library.TtlStore
variable {κ υ : Type} [DecidableEq κ]

structure Entry (υ : Type) where
  value : υ
  storedAt : ℕ
  ttl : ℕ

structure Store (κ υ : Type) where
  now : ℕ
  entries : κ → Option (Entry υ)

def empty : Store κ υ := ⟨0, fun _ => none⟩

def Store.tick (s : Store κ υ) (d : ℕ) : Store κ υ := { s with now := s.now + d }

def Store.put (s : Store κ υ) (key : κ) (value : υ) (ttl : ℕ) : Store κ υ :=
  { s with entries := Function.update s.entries key (some ⟨value, s.now, ttl⟩) }

def Store.delete (s : Store κ υ) (key : κ) : Store κ υ :=
  { s with entries := Function.update s.entries key none }

def Entry.Live (now : ℕ) (e : Entry υ) : Prop := now ≤ e.storedAt + e.ttl

/-- `value` is what `key` may answer with now. -/
def Store.Answers (s : Store κ υ) (key : κ) (value : υ) : Prop :=
  ∃ e, s.entries key = some e ∧ e.value = value ∧ e.Live s.now

@[simp] theorem put_self (s : Store κ υ) (key : κ) (value : υ) (ttl : ℕ) :
    (s.put key value ttl).entries key = some ⟨value, s.now, ttl⟩ :=
  Function.update_self ..

@[simp] theorem put_of_ne (s : Store κ υ) {key k : κ} (value : υ) (ttl : ℕ) (h : k ≠ key) :
    (s.put key value ttl).entries k = s.entries k :=
  Function.update_of_ne h ..

@[simp] theorem delete_self (s : Store κ υ) (key : κ) : (s.delete key).entries key = none :=
  Function.update_self ..

@[simp] theorem delete_of_ne (s : Store κ υ) {key k : κ} (h : k ≠ key) :
    (s.delete key).entries k = s.entries k :=
  Function.update_of_ne h ..

end AiGateway.Library.TtlStore
