import AiGateway.Library.Decimal
import AiGateway.Library.ExpiringCounters
import AiGateway.Storage.MemoryCounter
import Mathlib.Data.List.Induction

/-!
# Windows and budgets in Redis (`gateway-storage/src/redis/counter.rs:10-48, 85-114`)

`incr_window` and `incr_budget` are two commands on one key, `INCRBY` (or `INCRBYFLOAT`) and
`EXPIRE`; the value returned is the answer of the first. The name of a window's key is made of
the clock of the replica, so a command may reach the server when the window is over by the
server's clock. `INCRBY` refuses a sum outside `i64`.
-/

namespace AiGateway.Storage.RedisCounterStore
open AiGateway.Library.Decimal AiGateway.Library.ExpiringCounters AiGateway.Library.MachineInt
open AiGateway.Library.Runs

/-! ### Names -/

/-- The text behind the last colon is split off. -/
theorem append_colon_inj {xs ys u v : List Char} (hu : ':' ∉ u) (hv : ':' ∉ v)
    (h : xs ++ ':' :: u = ys ++ ':' :: v) : xs = ys ∧ u = v := by
  rcases List.append_eq_append_iff.mp h with ⟨mid, hys, hrest⟩ | ⟨mid, hxs, hrest⟩
  · cases mid with
    | nil => simp_all
    | cons c mid =>
      refine absurd ?_ hu
      simp [(List.cons.inj hrest).2]
  · cases mid with
    | nil => simp_all
    | cons c mid =>
      refine absurd ?_ hv
      simp [(List.cons.inj hrest).2]

theorem colon_notMem_nat (n : ℕ) : ':' ∉ (toString n).toList := by
  intro hmem
  have := isDigit_of_mem_toString hmem
  simp at this

/-- `bucket_key`, from the slot of the window. -/
def slotKey (slot : WindowSlot) : String :=
  "ctr:" ++ slot.1 ++ ":" ++ toString slot.2.1 ++ ":" ++ toString slot.2.2

theorem slotKey_toList (slot : WindowSlot) : (slotKey slot).toList =
    ("ctr:".toList ++ slot.1.toList ++ ':' :: (toString slot.2.1).toList) ++
      ':' :: (toString slot.2.2).toList := by
  simp [slotKey, String.toList_append]

theorem slotKey_injective : Function.Injective slotKey := by
  rintro ⟨key, window, bucket⟩ ⟨key', window', bucket'⟩ h
  have hlist := congrArg String.toList h
  rw [slotKey_toList, slotKey_toList] at hlist
  obtain ⟨hfront, hbucket⟩ :=
    append_colon_inj (colon_notMem_nat bucket) (colon_notMem_nat bucket') hlist
  obtain ⟨hkey, hwindow⟩ :=
    append_colon_inj (colon_notMem_nat window) (colon_notMem_nat window') hfront
  simp only [List.append_cancel_left_eq, String.toList_inj] at hkey hwindow hbucket
  rw [hkey, toString_nat_inj hwindow, toString_nat_inj hbucket]

/-- `format!("budget:{budget_id}:{period_start}")`. -/
def budgetKey (budget : String × Int) : String :=
  "budget:" ++ budget.1 ++ ":" ++ toString budget.2

theorem budgetKey_toList (budget : String × Int) : (budgetKey budget).toList =
    ("budget:".toList ++ budget.1.toList) ++ ':' :: (toString budget.2).toList := by
  simp [budgetKey, String.toList_append]

theorem toString_int_inj {x y : Int} (h : (toString x).toList = (toString y).toList) : x = y := by
  have hdigits : ∀ m n : ℕ, Nat.toDigits 10 m = Nat.toDigits 10 n → m = n := by
    intro m n heq
    exact toString_nat_inj (String.toList_inj.mp
      (by rw [toString_nat_toList, toString_nat_toList, heq]))
  have hsign : ∀ m n : ℕ, Nat.toDigits 10 m ≠ '-' :: Nat.toDigits 10 n := by
    intro m n heq
    have hdigit := Nat.isDigit_of_mem_toDigits (b := 10) (n := m) (c := '-') (by decide) (by decide)
      (by simp [heq])
    simp at hdigit
  rw [toString_int_toList, toString_int_toList] at h
  split at h <;> split at h
  · have := hdigits _ _ (List.cons.inj h).2
    omega
  · exact absurd h.symm (hsign _ _)
  · exact absurd h (hsign _ _)
  · have := hdigits _ _ h
    omega

theorem budgetKey_injective : Function.Injective budgetKey := by
  rintro ⟨id, periodStart⟩ ⟨id', periodStart'⟩ h
  have hlist := congrArg String.toList h
  rw [budgetKey_toList, budgetKey_toList] at hlist
  have hcolon : ∀ x : Int, ':' ∉ (toString x).toList :=
    notMem_toString_int (by decide) (by decide)
  obtain ⟨hid, hperiod⟩ := append_colon_inj (hcolon _) (hcolon _) hlist
  simp only [List.append_cancel_left_eq, String.toList_inj] at hid
  exact Prod.ext hid (toString_int_inj hperiod)

/-- The lifetime that `incr_budget` sets, 35 days. -/
def budgetExpireMs : ℕ := 60 * 60 * 24 * 35 * 1000

/-! ### Windows -/

/-- The lifetime that `incr_window` sets, in milliseconds. -/
def expireMs (windowMs : ℕ) : ℕ := max (windowMs / 1000) 1 * 2 * 1000

inductive Event where
  | tick (ms : ℕ)
  -- a replica calls `incr_window` when its clock shows `clock`
  | incrWindow (clock : ℕ) (key : String) (windowMs : ℕ) (delta : Int)
  -- the next command of call `i`
  | command (i : ℕ) (reply : Reply)

abbrev Windows := Clients WindowSlot String Int

def Event.move : Event → Move WindowSlot Int
  | .tick ms => .tick ms
  | .incrWindow clock key windowMs delta =>
    .call (windowSlot clock key windowMs) delta (expireMs windowMs)
  | .command i reply => .command i reply

def step (s : Windows) (event : Event) : Option Windows :=
  Clients.step (fun sum => decide (InI64 sum)) slotKey s event.move

/-- `current`. -/
def current (server : Server String Int) (clock : ℕ) (key : String) (windowMs : ℕ) : Int :=
  server.valueOf (slotKey (windowSlot clock key windowMs))

/-- The time in which commands for a window can come when no command is later, and no clock
further off, than `slack`. -/
def slotSpan (slack : ℕ) (slot : WindowSlot) : Span where
  opens := slot.2.2 * max slot.2.1 1 - slack
  closes := (slot.2.2 + 1) * max slot.2.1 1 + slack

/-- An `INCRBY` reaches the server in the time of its window, and the lifetime leaves room for
the slack. -/
def InTime (slack : ℕ) (s : Windows) : Event → Prop
  | .tick _ => True
  | .incrWindow _ _ windowMs _ => max windowMs 1 + 2 * slack ≤ expireMs windowMs
  | .command i _ =>
    ∀ call, s.calls[i]? = some call → call.phase = .started →
      (slotSpan slack call.key).opens ≤ s.server.now ∧
        s.server.now ≤ (slotSpan slack call.key).closes

theorem slotSpan_long {slack clock windowMs : ℕ} (key : String)
    (h : max windowMs 1 + 2 * slack ≤ expireMs windowMs) :
    (slotSpan slack (windowSlot clock key windowMs)).closes ≤
      (slotSpan slack (windowSlot clock key windowMs)).opens + expireMs windowMs := by
  simp only [slotSpan, windowSlot, Nat.succ_mul]
  omega

theorem InTime.timely {slack : ℕ} {s : Windows} {event : Event} (h : InTime slack s event) :
    Timely (slotSpan slack) s event.move := by
  cases event with
  | tick ms => trivial
  | incrWindow clock key windowMs delta => exact slotSpan_long key h
  | command i reply => exact h

/-- The in-memory store after the same increments. -/
def memoryAfter (ledger : List (Addition WindowSlot Int)) : MemoryCounterStore :=
  ledger.foldl (fun store a => store.addAt a.key a.delta) .new

theorem memoryAfter_concat (ledger : List (Addition WindowSlot Int)) (a : Addition WindowSlot Int) :
    memoryAfter (ledger ++ [a]) = (memoryAfter ledger).addAt a.key a.delta := by
  simp [memoryAfter]

/-- Where no sum leaves `i64` the in-memory store does not wrap around. -/
theorem memoryAfter_windows (ledger : List (Addition WindowSlot Int))
    (hsums : ∀ before, before <+: ledger → ∀ slot, InI64 (total before slot)) (slot : WindowSlot) :
    (memoryAfter ledger).windows slot = total ledger slot := by
  induction ledger using List.reverseRecOn with
  | nil => rfl
  | append_singleton ledger a ih =>
    have hold := ih fun before hbefore => hsums before (hbefore.trans (List.prefix_append ..))
    have hnew := hsums _ List.prefix_rfl slot
    rw [total_concat] at hnew
    rw [memoryAfter_concat, total_concat]
    by_cases hslot : a.key = slot
    · subst hslot
      rw [if_pos rfl] at hnew ⊢
      rw [MemoryCounterStore.addAt_self, hold, wrap64_of_inI64 hnew]
    · rw [if_neg hslot, add_zero, MemoryCounterStore.addAt_of_ne _ _ (Ne.symm hslot), hold]

/-- The state of the clients in every run whose commands come in time. -/
theorem exact_of_reaches {slack : ℕ} {s : Windows}
    (hr : Reaches step (InTime slack) Clients.init s) :
    s.Exact (fun sum => decide (InI64 sum)) slotKey (slotSpan slack) :=
  hr.invariant (.init (by decide)) fun _ _ _ hinv hguard hstep =>
    hinv.step slotKey_injective hguard.timely hstep

/-- Redis counts as one process with the in-memory store would. Behind the increments that took
effect, each once and in one order, `incr_window` returns what it would return there, and until
the time of a window is over `current` reads what it would read there. -/
theorem counts_as_memory {slack : ℕ} {s : Windows}
    (hr : Reaches step (InTime slack) Clients.init s) :
    (s.ledger.map Addition.call).Nodup ∧
      (∀ i call value, s.calls[i]? = some call → call.phase = .returned value →
        ∃ before after, s.ledger = before ++ ⟨i, call.key, call.delta⟩ :: after ∧
          ∀ clock key windowMs, windowSlot clock key windowMs = call.key →
            ((memoryAfter before).incrWindow clock key windowMs call.delta).1 = value) ∧
      ∀ clock key windowMs,
        s.server.now ≤ (slotSpan slack (windowSlot clock key windowMs)).closes →
        current s.server clock key windowMs =
          (memoryAfter s.ledger).windows (windowSlot clock key windowMs) := by
  have hexact := exact_of_reaches hr
  have hsums : ∀ before, before <+: s.ledger → ∀ slot, InI64 (total before slot) := by
    intro before hbefore slot
    simpa using hexact.sums before hbefore slot
  refine ⟨hexact.once, ?_, ?_⟩
  · intro i call value hcall hphase
    have hholds := hexact.calls i call hcall
    rw [hphase] at hholds
    obtain ⟨before, after, hledger, hvalue⟩ := hholds
    refine ⟨before, after, hledger, ?_⟩
    intro clock key windowMs hslot
    have hprefix : before ++ [⟨i, call.key, call.delta⟩] <+: s.ledger := by
      rw [hledger]
      exact ⟨after, by simp⟩
    have hfits := hsums _ hprefix call.key
    rw [total_concat, if_pos rfl] at hfits
    have hbefore := memoryAfter_windows before
      (fun b hb => hsums b (hb.trans ⟨_, hledger.symm⟩)) call.key
    simp only [MemoryCounterStore.incrWindow, hslot, MemoryCounterStore.addAt_self, hbefore]
    rw [hvalue, wrap64_of_inI64 hfits]
  · intro clock key windowMs hnow
    rw [memoryAfter_windows s.ledger hsums]
    exact hexact.server.sums _ hnow

/-- Two clocks are ahead of the server's, one `INCRBY` comes before the window and one after it. -/
theorem counts_as_memory_race :
    ∃ s, Reaches step (InTime 30000) Clients.init s ∧
      s.calls.map Call.phase = [.returned 2, .returned 1] ∧ s.server.now = 125000 ∧
      current s.server 60001 "rpm:global" 60000 =
        (memoryAfter s.ledger).windows (windowSlot 60001 "rpm:global" 60000) := by
  have hroom : ∀ s clock, InTime 30000 s (.incrWindow clock "rpm:global" 60000 1) := by
    intro s clock
    simp [InTime, expireMs]
  have hcommand : ∀ s i reply, 30000 ≤ s.server.now ∧ s.server.now ≤ 150000 →
      (∀ call ∈ s.calls, call.key = ("rpm:global", 60000, 1)) →
      InTime 30000 s (.command i reply) := by
    intro s i reply hnow hkeys call hcall _
    rw [hkeys call (List.mem_of_getElem? hcall)]
    exact hnow
  have hstart : Reaches step (InTime 30000) Clients.init _ :=
    .next (.tick 45000) .start trivial rfl
  have hfirst := hstart.move (.incrWindow 60001 "rpm:global" 60000 1) (hroom _ _) rfl
  have hsecond := hfirst.move (.incrWindow 60500 "rpm:global" 60000 1) (hroom _ _) rfl
  have hadded := hsecond.move (.command 1 .ok) (hcommand _ _ _ (by decide) (by decide)) rfl
  have hlasts := hadded.move (.command 1 .ok) (hcommand _ _ _ (by decide) (by decide)) rfl
  have hlate := hlasts.move (.tick 80000) trivial rfl
  have hboth := hlate.move (.command 0 .ok) (hcommand _ _ _ (by decide) (by decide)) rfl
  have hdone := hboth.move (.command 0 .ok) (hcommand _ _ _ (by decide) (by decide)) rfl
  exact ⟨_, hdone, rfl, rfl, (counts_as_memory hdone).2.2 60001 "rpm:global" 60000 (by decide)⟩

end AiGateway.Storage.RedisCounterStore
