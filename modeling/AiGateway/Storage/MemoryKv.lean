import AiGateway.Library.HashMap
import AiGateway.Storage.SqliteKv

/-!
# `MemoryKvStore` (`gateway-storage/src/memory/mod.rs:514-558`)

A map from keys to values with the `Instant` at which they expire. An `Instant` is the
monotonic clock as `std` keeps it on Unix: `i64` seconds and nanoseconds below a second. `+`
on it is `checked_add`, and a panic where that gives nothing.
-/

namespace AiGateway.Storage
open AiGateway.Core AiGateway.Library AiGateway.Library.MachineInt

structure Instant where
  secs : Int
  nanos : ℕ
  secs_inI64 : InI64 secs
  nanos_lt : nanos < 1000000000

namespace Instant

/-- The place of an instant on the clock. -/
def inNanos (t : Instant) : Int := t.secs * 1000000000 + t.nanos

instance : LT Instant := ⟨fun a b => a.inNanos < b.inNanos⟩

instance : LE Instant := ⟨fun a b => a.inNanos ≤ b.inNanos⟩

instance (a b : Instant) : Decidable (a < b) := Int.decLt a.inNanos b.inNanos

instance (a b : Instant) : Decidable (a ≤ b) := Int.decLe a.inNanos b.inNanos

theorem lt_iff (a b : Instant) : a < b ↔ a.inNanos < b.inNanos := Iff.rfl

theorem le_iff (a b : Instant) : a ≤ b ↔ a.inNanos ≤ b.inNanos := Iff.rfl

/-- `checked_add`; the nanoseconds carry into the seconds. -/
def checkedAdd (t : Instant) (d : Duration) : Option Instant :=
  let nanos := t.nanos + d.nanos.toNat
  if h : InI64 (t.secs + d.secs.toNat + (nanos / 1000000000 : ℕ)) then
    some ⟨t.secs + d.secs.toNat + (nanos / 1000000000 : ℕ), nanos % 1000000000, h,
      Nat.mod_lt nanos (by decide)⟩
  else none

theorem checkedAdd_inNanos {t exp : Instant} {d : Duration} (h : t.checkedAdd d = some exp) :
    exp.inNanos = t.inNanos + d.secs.toNat * 1000000000 + d.nanos.toNat := by
  unfold checkedAdd at h
  simp only at h
  split at h
  · have hexp := Option.some.inj h
    rw [← hexp]
    simp only [inNanos]
    omega
  · cases h

theorem le_of_checkedAdd {t exp : Instant} {d : Duration} (h : t.checkedAdd d = some exp) :
    t ≤ exp := by
  rw [le_iff, checkedAdd_inNanos h]
  omega

theorem lt_of_checkedAdd {t exp : Instant} {d : Duration} (h : t.checkedAdd d = some exp)
    (hpos : 1 ≤ d.secs) : t < exp := by
  have hpos' := UInt64.le_iff_toNat_le.mp hpos
  rw [lt_iff, checkedAdd_inNanos h]
  simp only [UInt64.toNat_one] at hpos'
  omega

/-- A time to live in whole seconds is added unless the seconds leave the range. -/
theorem checkedAdd_secs_iff (t : Instant) (secs : UInt64) :
    (∃ exp, t.checkedAdd ⟨secs, 0⟩ = some exp) ↔ t.secs + secs.toNat < 9223372036854775808 := by
  have hnanos : (t.nanos + (0 : UInt32).toNat) / 1000000000 = 0 := by
    rw [UInt32.toNat_zero, Nat.add_zero]
    exact Nat.div_eq_of_lt t.nanos_lt
  have hiff : InI64 (t.secs + secs.toNat + (0 : ℕ)) ↔
      t.secs + secs.toNat < 9223372036854775808 := by
    have hrange := t.secs_inI64
    unfold InI64 at hrange ⊢
    omega
  unfold checkedAdd
  simp only [hnanos]
  rw [← hiff]
  constructor
  · rintro ⟨exp, h⟩
    split at h
    · assumption
    · cases h
  · intro hfits
    rw [dif_pos hfits]
    exact ⟨_, rfl⟩

end Instant

structure MemoryKvStore where
  state : HashMap String (Bytes × Instant)

namespace MemoryKvStore

def new : MemoryKvStore := ⟨∅⟩

def get (s : MemoryKvStore) (now : Instant) (key : String) : Option Bytes × MemoryKvStore :=
  match s.state.lookup key with
  | some (v, exp) => if now < exp then (some v, s) else (none, ⟨s.state.erase key⟩)
  | none => (none, s)

/-- `none` when the sum of the clock and the time to live panics. -/
def put (s : MemoryKvStore) (now : Instant) (key : String) (value : Bytes) (ttl : Duration) :
    Option MemoryKvStore :=
  (now.checkedAdd ttl).map fun exp => ⟨s.state.insert key (value, exp)⟩

def delete (s : MemoryKvStore) (key : String) : MemoryKvStore := ⟨s.state.erase key⟩

theorem get_put {s s' : MemoryKvStore} {now : Instant} {key : String} {value : Bytes}
    {ttl : Duration} (h : s.put now key value ttl = some s') (hpos : 1 ≤ ttl.secs) :
    (s'.get now key).1 = some value := by
  unfold put at h
  obtain ⟨exp, hexp, rfl⟩ := Option.map_eq_some_iff.mp h
  have hlt : now < exp := Instant.lt_of_checkedAdd hexp hpos
  simp only [get, Finmap.lookup_insert, if_pos hlt]

end MemoryKvStore

end AiGateway.Storage
