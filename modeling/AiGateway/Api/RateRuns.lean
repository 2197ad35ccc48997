import AiGateway.Api.LimitCall
import AiGateway.Library.Parties
import AiGateway.Library.Runs

/-!
# Runs of `check_limits` and `reconcile_tokens`

Many requests share one `MemoryCounterStore`. Each call makes one store
operation at a time and any other call, or the clock, may move in between. A
TPM reservation is written into the bucket of the moment, and so is its later
correction; the machine records the bucket of a reservation beside its counter
key, which the code does not.
-/

namespace AiGateway.Api
open AiGateway.Library.MachineInt AiGateway.Library.Parties AiGateway.Library.Runs
open AiGateway.Core AiGateway.Storage

/-- A TPM reservation of 1024 tokens: its counter key and the bucket it is in. -/
abbrev Reservation := String × ℕ

structure TokenCount where
  val : Int
  nonneg : 0 ≤ val
  inI64 : InI64 val
  deriving DecidableEq

/-- Where a request stands between its store operations. -/
inductive Phase where
  -- inside `check_limits`, before the first check of `rest`
  | checking (rest : List LimitCheck) (permits : List ConcurrencyPermit)
      (reserved : List Reservation)
  -- a TPM check was over its bound; its own prededuction is still in
  | rollingBack (own : Reservation) (permits : List ConcurrencyPermit)
  -- `check_limits` returned the permit
  | admitted (permits : List ConcurrencyPermit) (reserved : List Reservation)
  -- inside `reconcile_tokens`
  | settling (actualTokens : TokenCount) (rest : List Reservation) (permits : List ConcurrencyPermit)
  -- the concurrency permits are being dropped
  | dropping (permits : List ConcurrencyPermit)
  | done
  deriving DecidableEq

structure Limiter where
  store : MemoryCounterStore
  now : ℕ
  requests : List Phase

inductive Move where
  | tick (ms : ℕ)
  | arrive (limits : List LimitConfig) (keyId projectId : String)
  -- the next store operation of request `i`
  | advance (i : ℕ)
  -- request `i` ends with this usage and calls `reconcile_tokens`
  | settle (i : ℕ) (actualTokens : TokenCount)
  -- request `i` is dropped with its permit, wherever it stands
  | drop (i : ℕ)

def LimitCheck.reservation? (now : ℕ) : LimitCheck → List Reservation
  | .tpm scope _ => [("tpm:" ++ scope, now / windowMs)]
  | _ => []

def LimitCheck.permit? : LimitCheck → List ConcurrencyPermit
  | .concurrency scope _ => [⟨"conc:" ++ scope⟩]
  | _ => []

def LimitCheck.refused (now : ℕ) (permits : List ConcurrencyPermit) : LimitCheck → Phase
  | .tpm scope _ => .rollingBack ("tpm:" ++ scope, now / windowMs) permits
  | _ => .dropping permits

def settlement (actualTokens : TokenCount) : Int :=
  wrap64 (actualTokens.val - defaultTokenPrededuct)

def Phase.advance (now : ℕ) (store : MemoryCounterStore) : Phase → Option (Phase × MemoryCounterStore)
  | .checking [] permits reserved => some (.admitted permits reserved, store)
  | .checking (check :: rest) permits reserved =>
    match check.probe now store with
    | (false, store) =>
      some (.checking rest (permits ++ check.permit?) (reserved ++ check.reservation? now), store)
    | (true, store) => some (check.refused now permits, store)
  | .rollingBack own permits =>
    some (.dropping permits, (store.incrWindow now own.1 windowMs (-defaultTokenPrededuct)).2)
  | .admitted _ _ => none
  | .settling _ [] permits => some (.dropping permits, store)
  | .settling actual (reservation :: rest) permits =>
    if settlement actual = 0 then some (.settling actual rest permits, store)
    else
      some (.settling actual rest permits,
        (store.incrWindow now reservation.1 windowMs (settlement actual)).2)
  | .dropping [] => some (.done, store)
  | .dropping (permit :: permits) => some (.dropping permits, store.release permit)
  | .done => none

def Phase.permits : Phase → List ConcurrencyPermit
  | .checking _ permits _ => permits
  | .rollingBack _ permits => permits
  | .admitted permits _ => permits
  | .settling _ _ permits => permits
  | .dropping permits => permits
  | .done => []

def Limiter.step (s : Limiter) : Move → Option Limiter
  | .tick ms => some { s with now := s.now + ms }
  | .arrive limits keyId projectId =>
    some { s with requests := s.requests ++ [.checking (limitChecks limits keyId projectId) [] []] }
  | .advance i => do
    let phase ← s.requests[i]?
    let (phase, store) ← phase.advance s.now s.store
    some { s with store := store, requests := s.requests.set i phase }
  | .settle i actual =>
    match s.requests[i]? with
    | some (.admitted permits reserved) =>
      some { s with requests := s.requests.set i (.settling actual reserved permits) }
    | _ => none
  | .drop i => do
    let phase ← s.requests[i]?
    some { s with requests := s.requests.set i (.dropping phase.permits) }

def Limiter.init : Limiter := ⟨.new, 0, []⟩

/-- The correction a request is about to write, with the bucket of the
reservation it belongs to. -/
def Phase.correction? : Phase → Option (Reservation × Int)
  | .rollingBack own _ => some (own, -defaultTokenPrededuct)
  | .settling actual (reservation :: _) _ => some (reservation, settlement actual)
  | _ => none

def Phase.addition? : Phase → Option (String × Int)
  | .checking (.tpm scope _ :: _) _ _ => some ("tpm:" ++ scope, defaultTokenPrededuct)
  | .settling actual (reservation :: _) _ => some (reservation.1, settlement actual)
  | _ => none

/-- A rollback, or a settlement below the prededuction, comes in the minute of its
reservation, and no addition overflows its `i64` counter. -/
def InWindow (s : Limiter) : Move → Prop
  | .advance i =>
    ∀ phase, s.requests[i]? = some phase →
      (∀ reservation delta, phase.correction? = some (reservation, delta) → delta < 0 →
        reservation.2 = s.now / windowMs) ∧
      (∀ key delta, phase.addition? = some (key, delta) →
        s.store.windows (key, windowMs, s.now / windowMs) + delta < 9223372036854775808)
  | _ => True

/-- The reservations that a request may still correct downwards. -/
def Phase.outstanding : Phase → List Reservation
  | .checking _ _ reserved => reserved
  | .rollingBack own _ => [own]
  | .admitted _ reserved => reserved
  | .settling _ rest _ => rest
  | .dropping _ => []
  | .done => []

def Limiter.RejectsTpm (s : Limiter) (i : ℕ) (scope : String) (tpm : UInt64) : Prop :=
  ∃ rest permits reserved,
    s.requests[i]? = some (.checking (.tpm scope tpm :: rest) permits reserved) ∧
      ((LimitCheck.tpm scope tpm).probe s.now s.store).1 = true

/-! ### What one move does to the counters -/

theorem settlement_eq (actual : TokenCount) : settlement actual = actual.val - 1024 := by
  have h0 := actual.nonneg
  have h := actual.inI64
  refine wrap64_of_inI64 ?_
  simp only [InI64, defaultTokenPrededuct] at h ⊢
  omega

def reservationSlot (r : Reservation) : WindowSlot := (r.1, windowMs, r.2)

theorem incrWindow_reservation (store : MemoryCounterStore) (now : ℕ) (key : String) (delta : Int)
    (r : Reservation) :
    (store.incrWindow now key windowMs delta).2.windows (reservationSlot r) =
      if r = (key, now / windowMs) then wrap64 (store.windows (reservationSlot r) + delta)
      else store.windows (reservationSlot r) := by
  have hslot : windowSlot now key windowMs = reservationSlot (key, now / windowMs) := rfl
  simp only [MemoryCounterStore.incrWindow, hslot]
  split
  · rename_i hr
    rw [hr, MemoryCounterStore.addAt_self]
  · rename_i hr
    refine MemoryCounterStore.addAt_of_ne _ _ fun h => hr ?_
    obtain ⟨key', bucket⟩ := r
    simp only [reservationSlot, Prod.mk.injEq, true_and] at h
    rw [h.1, h.2]

theorem LimitCheck.probe_reservation (check : LimitCheck) (now : ℕ) (store : MemoryCounterStore)
    (scope : String) (bucket : ℕ) :
    (check.probe now store).2.windows (tpmSlot bucket scope) =
      wrap64 (store.windows (tpmSlot bucket scope) +
        1024 * ((check.reservation? now).count ("tpm:" ++ scope, bucket) : ℕ)) := by
  have hslot : tpmSlot bucket scope = reservationSlot ("tpm:" ++ scope, bucket) := rfl
  cases check with
  | rpm scope' cap =>
    have hne : ("tpm:" ++ scope, bucket) ≠ ("rpm:" ++ scope', now / windowMs) :=
      fun h => rpmKey_ne_tpmKey scope' scope (congrArg Prod.fst h).symm
    simp only [LimitCheck.probe, hslot, incrWindow_reservation, if_neg hne, LimitCheck.reservation?,
      List.count_nil]
    simp
  | tpm scope' cap =>
    simp only [LimitCheck.probe, hslot, incrWindow_reservation, LimitCheck.reservation?,
      List.count_singleton, defaultTokenPrededuct]
    by_cases heq : ("tpm:" ++ scope, bucket) = ("tpm:" ++ scope', now / windowMs)
    · simp [heq]
    · have hne : ¬("tpm:" ++ scope', now / windowMs) = ("tpm:" ++ scope, bucket) :=
        fun h => heq h.symm
      simp [heq, hne]
  | concurrency scope' cap =>
    rw [LimitCheck.probe_concurrency_windows]
    simp [LimitCheck.reservation?]

/-- The counters of TPM rules cover what is still outstanding on them. -/
def Limiter.Backed (s : Limiter) : Prop :=
  ∀ scope bucket, (1024 * total (·.outstanding.count ("tpm:" ++ scope, bucket)) s.requests : ℕ) ≤
    s.store.windows (tpmSlot bucket scope)

structure Phase.Timely (phase : Phase) (now : ℕ) (store : MemoryCounterStore) : Prop where
  inBucket : ∀ reservation delta, phase.correction? = some (reservation, delta) → delta < 0 →
    reservation.2 = now / windowMs
  noOverflow : ∀ key delta, phase.addition? = some (key, delta) →
    store.windows (key, windowMs, now / windowMs) + delta < 9223372036854775808

theorem LimitCheck.probe_covers {check : LimitCheck} {rest : List LimitCheck} {now : ℕ}
    {store : MemoryCounterStore} {permits : List ConcurrencyPermit} {reserved : List Reservation}
    (ht : (Phase.checking (check :: rest) permits reserved).Timely now store)
    (scope : String) (bucket : ℕ) :
    store.windows (tpmSlot bucket scope) +
        1024 * ((check.reservation? now).count ("tpm:" ++ scope, bucket) : ℕ) =
      (check.probe now store).2.windows (tpmSlot bucket scope) := by
  rw [check.probe_reservation, wrap64_of_inI64]
  have hin := store.windows_inI64 (tpmSlot bucket scope)
  by_cases hmem : ("tpm:" ++ scope, bucket) ∈ check.reservation? now
  · cases check with
    | tpm scope' cap =>
      simp only [LimitCheck.reservation?, List.mem_singleton] at hmem
      have hroom := ht.noOverflow _ _ rfl
      simp only [← (Prod.mk.inj hmem).1, ← (Prod.mk.inj hmem).2, defaultTokenPrededuct] at hroom
      simp only [LimitCheck.reservation?, ← hmem, List.count_singleton_self]
      simp only [InI64, tpmSlot] at hin hroom ⊢
      omega
    | rpm scope' cap => simp [LimitCheck.reservation?] at hmem
    | concurrency scope' cap => simp [LimitCheck.reservation?] at hmem
  · rw [List.count_eq_zero_of_not_mem hmem]
    simpa using hin

theorem settle_covers {now : ℕ} {store : MemoryCounterStore} {actual : TokenCount}
    {reservation : Reservation} {rest : List Reservation} {permits : List ConcurrencyPermit}
    (ht : (Phase.settling actual (reservation :: rest) permits).Timely now store)
    (scope : String) (bucket : ℕ) (h0 : 0 ≤ store.windows (tpmSlot bucket scope)) :
    store.windows (tpmSlot bucket scope) ≤
      (store.incrWindow now reservation.1 windowMs (settlement actual)).2.windows
          (tpmSlot bucket scope) +
        (1024 * if reservation == ("tpm:" ++ scope, bucket) then 1 else 0 : ℕ) := by
  have hslot : tpmSlot bucket scope = reservationSlot ("tpm:" ++ scope, bucket) := rfl
  have hamount := settlement_eq actual
  have hactual := actual.nonneg
  rw [hslot] at h0 ⊢
  rw [incrWindow_reservation]
  by_cases hnow : ("tpm:" ++ scope, bucket) = (reservation.1, now / windowMs)
  · have hroom := ht.noOverflow _ _ rfl
    have hread : store.windows (reservation.1, windowMs, now / windowMs) =
        store.windows (reservationSlot ("tpm:" ++ scope, bucket)) := by
      rw [hnow]
      rfl
    rw [if_pos hnow, wrap64_of_inI64]
    · -- a settlement below the prededuction is in its own bucket, so it is this reservation's
      have hown : settlement actual < 0 → reservation = ("tpm:" ++ scope, bucket) := by
        intro hneg
        rw [hnow, ← ht.inBucket reservation (settlement actual) rfl hneg]
      by_cases hneg : settlement actual < 0
      · simp only [hown hneg, beq_self_eq_true, if_true]
        omega
      · omega
    · simp only [InI64]
      omega
  · rw [if_neg hnow]
    omega

theorem rollBack_covers {now : ℕ} {store : MemoryCounterStore} {own : Reservation}
    {permits : List ConcurrencyPermit} (ht : (Phase.rollingBack own permits).Timely now store)
    (scope : String) (bucket : ℕ)
    (hback : (1024 * (Phase.rollingBack own permits).outstanding.count ("tpm:" ++ scope, bucket) : ℕ) ≤
      store.windows (tpmSlot bucket scope)) :
    store.windows (tpmSlot bucket scope) ≤
      (store.incrWindow now own.1 windowMs (-defaultTokenPrededuct)).2.windows
          (tpmSlot bucket scope) +
        (1024 * if own == ("tpm:" ++ scope, bucket) then 1 else 0 : ℕ) := by
  have hb : own.2 = now / windowMs := ht.inBucket _ _ rfl (by decide)
  have hslot : tpmSlot bucket scope = reservationSlot ("tpm:" ++ scope, bucket) := rfl
  rw [hslot] at hback ⊢
  have hin := store.windows_inI64 (reservationSlot ("tpm:" ++ scope, bucket))
  rw [incrWindow_reservation]
  simp only [Phase.outstanding, List.count_singleton, defaultTokenPrededuct, ← hb,
    beq_iff_eq] at hback ⊢
  by_cases heq : own = ("tpm:" ++ scope, bucket)
  · simp only [heq, if_true] at hback ⊢
    rw [wrap64_of_inI64]
    · omega
    · simp only [InI64] at hin ⊢
      omega
  · have hne : ¬("tpm:" ++ scope, bucket) = (own.1, own.2) := fun h => heq h.symm
    simp only [heq, hne, if_false]
    omega

/-- What one step of a request can be. -/
inductive Phase.Advances (now : ℕ) (store : MemoryCounterStore) :
    Phase → Phase → MemoryCounterStore → Prop where
  | grant (permits : List ConcurrencyPermit) (reserved : List Reservation) :
    Advances now store (.checking [] permits reserved) (.admitted permits reserved) store
  | pass {check : LimitCheck} (rest : List LimitCheck) (permits : List ConcurrencyPermit)
      (reserved : List Reservation) {store' : MemoryCounterStore}
      (hprobe : check.probe now store = (false, store')) :
    Advances now store (.checking (check :: rest) permits reserved)
      (.checking rest (permits ++ check.permit?) (reserved ++ check.reservation? now)) store'
  | refuse {check : LimitCheck} (rest : List LimitCheck) (permits : List ConcurrencyPermit)
      (reserved : List Reservation) {store' : MemoryCounterStore}
      (hprobe : check.probe now store = (true, store')) :
    Advances now store (.checking (check :: rest) permits reserved) (check.refused now permits)
      store'
  | rollBack (own : Reservation) (permits : List ConcurrencyPermit) :
    Advances now store (.rollingBack own permits) (.dropping permits)
      (store.incrWindow now own.1 windowMs (-defaultTokenPrededuct)).2
  | settled (actual : TokenCount) (permits : List ConcurrencyPermit) :
    Advances now store (.settling actual [] permits) (.dropping permits) store
  | skip {actual : TokenCount} (own : Reservation) (rest : List Reservation)
      (permits : List ConcurrencyPermit) (hzero : settlement actual = 0) :
    Advances now store (.settling actual (own :: rest) permits) (.settling actual rest permits)
      store
  | settle {actual : TokenCount} (own : Reservation) (rest : List Reservation)
      (permits : List ConcurrencyPermit) :
    Advances now store (.settling actual (own :: rest) permits) (.settling actual rest permits)
      (store.incrWindow now own.1 windowMs (settlement actual)).2
  | finish : Advances now store (.dropping []) .done store
  | release (permit : ConcurrencyPermit) (permits : List ConcurrencyPermit) :
    Advances now store (.dropping (permit :: permits)) (.dropping permits) (store.release permit)

theorem Phase.advance_cases {now : ℕ} {store store' : MemoryCounterStore} {phase phase' : Phase}
    (h : phase.advance now store = some (phase', store')) :
    Phase.Advances now store phase phase' store' := by
  cases phase with
  | checking checks permits reserved =>
    cases checks with
    | nil =>
      cases h
      exact .grant permits reserved
    | cons check rest =>
      simp only [Phase.advance] at h
      split at h
      · rename_i hprobe
        cases h
        exact .pass rest permits reserved hprobe
      · rename_i hprobe
        cases h
        exact .refuse rest permits reserved hprobe
  | rollingBack own permits =>
    cases h
    exact .rollBack own permits
  | admitted permits reserved => cases h
  | settling actual rest permits =>
    cases rest with
    | nil =>
      cases h
      exact .settled actual permits
    | cons own rest =>
      simp only [Phase.advance] at h
      split at h
      · rename_i hzero
        cases h
        exact .skip own rest permits hzero
      · cases h
        exact .settle own rest permits
  | dropping permits =>
    cases permits with
    | nil =>
      cases h
      exact .finish
    | cons permit permits =>
      cases h
      exact .release permit permits
  | done => cases h

theorem LimitCheck.refused_outstanding (check : LimitCheck) (now : ℕ)
    (permits : List ConcurrencyPermit) :
    (check.refused now permits).outstanding = check.reservation? now := by
  cases check with
  | rpm scope cap => rfl
  | tpm scope cap => rfl
  | concurrency scope cap => rfl

/-- One store operation never takes more from a TPM counter than the request
gives up of its outstanding reservations there. -/
theorem Phase.advance_covers {now : ℕ} {store store' : MemoryCounterStore} {phase phase' : Phase}
    (h : phase.advance now store = some (phase', store')) (ht : phase.Timely now store)
    (scope : String) (bucket : ℕ)
    (hback : (1024 * phase.outstanding.count ("tpm:" ++ scope, bucket) : ℕ) ≤
      store.windows (tpmSlot bucket scope)) :
    store.windows (tpmSlot bucket scope) +
        (1024 * phase'.outstanding.count ("tpm:" ++ scope, bucket) : ℕ) ≤
      store'.windows (tpmSlot bucket scope) +
        (1024 * phase.outstanding.count ("tpm:" ++ scope, bucket) : ℕ) := by
  have h0 : 0 ≤ store.windows (tpmSlot bucket scope) := le_trans (Int.natCast_nonneg _) hback
  cases Phase.advance_cases h with
  | grant permits reserved => exact le_rfl
  | @pass check rest permits reserved store' hprobe =>
    have hcover := check.probe_covers ht scope bucket
    rw [hprobe] at hcover
    simp only [Phase.outstanding, List.count_append, mul_add, Nat.cast_add] at hback hcover ⊢
    omega
  | @refuse check rest permits reserved store' hprobe =>
    have hcover := check.probe_covers ht scope bucket
    rw [hprobe] at hcover
    rw [check.refused_outstanding]
    dsimp only at hcover
    omega
  | rollBack own permits =>
    have hcover := rollBack_covers ht scope bucket hback
    simp only [Phase.outstanding, List.count_nil, List.count_singleton] at hcover ⊢
    omega
  | settled actual permits => simp [Phase.outstanding]
  | skip own rest permits hzero =>
    simp only [Phase.outstanding, List.count_cons]
    omega
  | settle own rest permits =>
    have hcover := settle_covers ht scope bucket h0
    simp only [Phase.outstanding, List.count_cons, mul_add, Nat.cast_add] at hcover ⊢
    omega
  | finish => exact le_rfl
  | release permit permits => exact le_rfl

theorem Limiter.step_cases {s t : Limiter} {m : Move} (h : s.step m = some t) :
    (t.store = s.store ∧ ∃ new : List LimitCheck, t.requests = s.requests ++ [.checking new [] []]) ∨
      (t.store = s.store ∧ t.requests = s.requests) ∨
      (∃ i phase phase', m = .advance i ∧ s.requests[i]? = some phase ∧
        phase.advance s.now s.store = some (phase', t.store) ∧
        t.requests = s.requests.set i phase') ∨
      (∃ i phase phase', s.requests[i]? = some phase ∧ t.store = s.store ∧
        (∀ r, phase'.outstanding.count r ≤ phase.outstanding.count r) ∧
        t.requests = s.requests.set i phase') := by
  cases m with
  | tick ms =>
    cases h
    exact .inr (.inl ⟨rfl, rfl⟩)
  | arrive limits keyId projectId =>
    cases h
    exact .inl ⟨rfl, _, rfl⟩
  | advance i =>
    obtain ⟨phase, hphase, hrest⟩ := Option.bind_eq_some_iff.mp h
    obtain ⟨⟨phase', store⟩, hadv, ht⟩ := Option.bind_eq_some_iff.mp hrest
    cases ht
    exact .inr (.inr (.inl ⟨i, phase, phase', rfl, hphase, hadv, rfl⟩))
  | settle i actual =>
    simp only [Limiter.step] at h
    split at h
    · rename_i permits reserved hphase
      cases h
      exact .inr (.inr (.inr ⟨i, _, .settling actual reserved permits, hphase, rfl, fun r => le_rfl, rfl⟩))
    · cases h
  | drop i =>
    obtain ⟨phase, hphase, ht⟩ := Option.bind_eq_some_iff.mp h
    cases ht
    exact .inr (.inr (.inr ⟨i, phase, _, hphase, rfl, fun r => Nat.zero_le _, rfl⟩))

theorem Limiter.Backed.step {s t : Limiter} {m : Move} (hb : s.Backed) (hg : InWindow s m)
    (h : s.step m = some t) : t.Backed := by
  intro scope bucket
  have hs := hb scope bucket
  rcases Limiter.step_cases h with ⟨hstore, new, hreq⟩ | ⟨hstore, hreq⟩ |
    ⟨i, phase, phase', rfl, hphase, hadv, hreq⟩ | ⟨i, phase, phase', hphase, hstore, hless, hreq⟩
  · rw [hstore, hreq, total_append]
    simpa [Phase.outstanding] using hs
  · rwa [hstore, hreq]
  · have hown : (1024 * phase.outstanding.count ("tpm:" ++ scope, bucket) : ℕ) ≤
        s.store.windows (tpmSlot bucket scope) := by
      have hle := le_total (·.outstanding.count ("tpm:" ++ scope, bucket)) hphase
      omega
    have hcover := Phase.advance_covers hadv ⟨(hg phase hphase).1, (hg phase hphase).2⟩ scope bucket
      hown
    have hset := total_set (·.outstanding.count ("tpm:" ++ scope, bucket)) hphase phase'
    rw [hreq]
    omega
  · have hset := total_set (·.outstanding.count ("tpm:" ++ scope, bucket)) hphase phase'
    have hle := hless ("tpm:" ++ scope, bucket)
    rw [hstore, hreq]
    omega

theorem Limiter.backed_of_reaches {s : Limiter} (h : Reaches Limiter.step InWindow .init s) :
    s.Backed := by
  refine h.invariant ?_ fun s t m hb hg hstep => hb.step hg hstep
  intro scope bucket
  exact le_rfl

/-- While every rollback and every downward settlement comes in the minute of
its reservation, no TPM counter is ever negative, and a TPM rule rejects only a
request that would take its counter over the bound. -/
theorem limiter_tpm_sound {s : Limiter} (h : Reaches Limiter.step InWindow .init s) :
    (∀ scope bucket, 0 ≤ s.store.windows (tpmSlot bucket scope)) ∧
      ∀ i scope tpm, s.RejectsTpm i scope tpm →
        (tpm.toNat : Int) < s.store.windows (tpmSlot (s.now / windowMs) scope) + 1024 := by
  have hnonneg : ∀ scope bucket, 0 ≤ s.store.windows (tpmSlot bucket scope) := by
    intro scope bucket
    exact le_trans (Int.natCast_nonneg _) (Limiter.backed_of_reaches h scope bucket)
  refine ⟨hnonneg, ?_⟩
  rintro i scope tpm ⟨rest, permits, reserved, -, hover⟩
  have h0 := hnonneg scope (s.now / windowMs)
  have hin := s.store.windows_inI64 (tpmSlot (s.now / windowMs) scope)
  simp only [LimitCheck.probe, MemoryCounterStore.incrWindow, windowSlot_tpm rfl scope,
    MemoryCounterStore.addAt_self, asU64_wrap64, defaultTokenPrededuct, decide_eq_true_eq] at hover
  simp only [asU64, InI64] at hover hin
  omega

instance (s : Limiter) (m : Move) : Decidable (InWindow s m) :=
  match m with
  | .advance i => decidable_of_iff
      (∀ phase ∈ s.requests[i]?,
        (∀ c ∈ phase.correction?, c.2 < 0 → c.1.2 = s.now / windowMs) ∧
        ∀ a ∈ phase.addition?,
          s.store.windows (a.1, windowMs, s.now / windowMs) + a.2 < 9223372036854775808)
      (by simp [InWindow])
  | .tick _ | .arrive .. | .settle .. | .drop _ => .isTrue trivial

def twoThousandTokens : List LimitConfig := [⟨⟨"key", some "*", none⟩, none, some 2000, none⟩]

/-- In one minute a request reserves its tokens, a second one is refused and rolled back, the
first settles at 300 tokens, a third one is admitted and a fourth arrives. -/
def correctedInTime : List Move :=
  [.tick 70000, .arrive twoThousandTokens "k1" "p1", .advance 0, .advance 0,
    .arrive twoThousandTokens "k1" "p1", .advance 1, .tick 500, .advance 1,
    .settle 0 ⟨300, by decide, by decide⟩, .tick 500, .advance 0,
    .arrive twoThousandTokens "k1" "p1", .advance 2, .advance 2,
    .arrive twoThousandTokens "k1" "p1"]

theorem limiter_tpm_sound_correctedInTime :
    ∃ s, Reaches Limiter.step InWindow .init s ∧
      s.store.windows (tpmSlot (s.now / windowMs) "key:k1") = 1324 ∧
      0 ≤ s.store.windows (tpmSlot (s.now / windowMs) "key:k1") ∧
      s.RejectsTpm 3 "key:k1" 2000 ∧
      (2000 : Int) < s.store.windows (tpmSlot (s.now / windowMs) "key:k1") + 1024 := by
  obtain ⟨s, hs, hview⟩ := Option.map_eq_some_iff.mp
    (show (run (guarded Limiter.step InWindow) .init correctedInTime).map (fun s =>
        (s.store.windows (tpmSlot (s.now / windowMs) "key:k1"), s.requests[3]?,
          ((LimitCheck.tpm "key:k1" 2000).probe s.now s.store).1)) =
      some (1324, some (.checking [.tpm "key:k1" 2000] [] []), true) by decide +kernel)
  simp only [Prod.mk.injEq] at hview
  obtain ⟨hcount, hphase, hover⟩ := hview
  have hreach : Reaches Limiter.step InWindow .init s := Reaches.of_guarded _ .start hs
  have hrej : s.RejectsTpm 3 "key:k1" 2000 := ⟨[], [], [], hphase, hover⟩
  have hsound := limiter_tpm_sound hreach
  exact ⟨s, hreach, hcount, hsound.1 "key:k1" _, hrej, hsound.2 3 "key:k1" 2000 hrej⟩

def tenThousandTokens : List LimitConfig := [⟨⟨"key", some "*", none⟩, none, some 10000, none⟩]

/-- Two requests are admitted in the first minute and end without usage in the
second; a third one arrives then. -/
def lateSettlements : List Move :=
  [.arrive tenThousandTokens "k1" "p1", .advance 0, .advance 0,
    .arrive tenThousandTokens "k1" "p1", .advance 1, .advance 1, .tick 60000,
    .settle 0 ⟨0, by decide, by decide⟩, .advance 0, .settle 1 ⟨0, by decide, by decide⟩, .advance 1,
    .arrive tenThousandTokens "k1" "p1"]

/-- The second minute's counter is at -2048, so the third request is rejected
although with its prededuction the counter stands at -1024. -/
theorem limiter_negative_counter :
    ∃ s, Reaches Limiter.step Always .init s ∧
      s.store.windows (tpmSlot (s.now / windowMs) "key:k1") = -2048 ∧
      s.RejectsTpm 2 "key:k1" 10000 ∧
      ¬(10000 : Int) < s.store.windows (tpmSlot (s.now / windowMs) "key:k1") + 1024 := by
  refine ⟨_, Reaches.of_run lateSettlements .start rfl, ?_, ?_, ?_⟩
  · rfl
  · exact ⟨[], [], [], rfl, rfl⟩
  · decide

/-! ### The machine runs the functions of the source -/

theorem Limiter.reaches_wait (s : Limiter) {now : ℕ} (h : s.now ≤ now) :
    Reaches Limiter.step Always s { s with now := now } := by
  refine .next (.tick (now - s.now)) .start trivial ?_
  simp only [Limiter.step, Nat.add_sub_cancel' h]

theorem Limiter.reaches_advance {s : Limiter} {i : ℕ} {phase phase' : Phase}
    {store : MemoryCounterStore} (hi : s.requests[i]? = some phase)
    (h : phase.advance s.now s.store = some (phase', store)) :
    Reaches Limiter.step Always s { s with store := store, requests := s.requests.set i phase' } := by
  refine .next (.advance i) .start trivial ?_
  simp [Limiter.step, hi, h]

theorem Limiter.reaches_dropping (permits : List ConcurrencyPermit) {s : Limiter} {i : ℕ}
    (hi : s.requests[i]? = some (.dropping permits)) :
    Reaches Limiter.step Always s
      { s with store := s.store.releaseAll permits, requests := s.requests.set i .done } := by
  induction permits generalizing s with
  | nil => exact Limiter.reaches_advance hi rfl
  | cons permit permits ih =>
    have hstep : Reaches Limiter.step Always s
        { s with
          store := s.store.release permit, requests := s.requests.set i (.dropping permits) } :=
      Limiter.reaches_advance hi rfl
    have hlt := (List.getElem?_eq_some_iff.mp hi).1
    have hrest := ih (s := { s with
      store := s.store.release permit, requests := s.requests.set i (.dropping permits) })
      (by simp [hlt])
    simp only [List.set_set] at hrest
    exact hstep.trans hrest

def Reservation.entry (r : Reservation) : String × Int := (r.1, defaultTokenPrededuct)

def heldPermit (permits : List ConcurrencyPermit) (reserved : List Reservation) : RatePermit :=
  ⟨permits, reserved.map Reservation.entry⟩

theorem heldPermit_grant (permits : List ConcurrencyPermit) (reserved : List Reservation)
    (check : LimitCheck) (now : ℕ) :
    heldPermit (permits ++ check.permit?) (reserved ++ check.reservation? now) =
      (heldPermit permits reserved).grant check := by
  cases check <;> simp [heldPermit, LimitCheck.permit?, LimitCheck.reservation?, RatePermit.grant,
    Reservation.entry]

def Limiter.Returned (s : Limiter) (i : ℕ) (result : Except ApiError RatePermit × MemoryCounterStore)
    (t : Limiter) : Prop :=
  t.store = result.2 ∧
    match result.1 with
    | .ok permit => ∃ permits reserved, heldPermit permits reserved = permit ∧
        t.requests = s.requests.set i (.admitted permits reserved)
    | .error _ => t.requests = s.requests.set i .done

theorem Limiter.reaches_refused (check : LimitCheck) (permits : List ConcurrencyPermit)
    {s : Limiter} {i now : ℕ} (hi : s.requests[i]? = some (check.refused s.now permits))
    (hnow : s.now ≤ now) :
    ∃ t, Reaches Limiter.step Always s t ∧
      t.store = (check.rollBack now s.store).releaseAll permits ∧
      t.requests = s.requests.set i .done := by
  have hlt := (List.getElem?_eq_some_iff.mp hi).1
  cases check with
  | rpm scope cap => exact ⟨_, Limiter.reaches_dropping permits hi, rfl, rfl⟩
  | concurrency scope cap => exact ⟨_, Limiter.reaches_dropping permits hi, rfl, rfl⟩
  | tpm scope cap =>
    have hwait := s.reaches_wait hnow
    have hstep := Limiter.reaches_advance (s := { s with now := now }) hi rfl
    have hdrop := Limiter.reaches_dropping permits (s := { s with
        store := (LimitCheck.tpm scope cap).rollBack now s.store, now := now,
        requests := s.requests.set i (.dropping permits) })
      (List.getElem?_set_self hlt)
    refine ⟨_, (hwait.trans hstep).trans hdrop, rfl, ?_⟩
    simp only [List.set_set]

/-- A request that is scheduled at the times of `clock` does what `checkLoop` does. -/
theorem Limiter.reaches_checkLoop {clock : ℕ → ℕ} (hclock : Monotone clock)
    (checks : List LimitCheck) (k : ℕ) {permits : List ConcurrencyPermit}
    {reserved : List Reservation} {s : Limiter} {i : ℕ}
    (hi : s.requests[i]? = some (.checking checks permits reserved)) (hnow : s.now ≤ clock k) :
    ∃ t, Reaches Limiter.step Always s t ∧
      s.Returned i (checkLoop clock k checks (heldPermit permits reserved) s.store) t := by
  have hlt := (List.getElem?_eq_some_iff.mp hi).1
  induction checks generalizing k permits reserved s with
  | nil =>
    refine ⟨_, Limiter.reaches_advance hi rfl, rfl, permits, reserved, rfl, rfl⟩
  | cons check rest ih =>
    have hwait := s.reaches_wait hnow
    rcases hprobe : check.probe (clock k) s.store with ⟨rejects, store⟩
    rw [checkLoop, hprobe]
    cases rejects with
    | false =>
      have hadv : (Phase.checking (check :: rest) permits reserved).advance (clock k) s.store =
          some (.checking rest (permits ++ check.permit?) (reserved ++ check.reservation? (clock k)),
            store) := by
        simp only [Phase.advance, hprobe]
      have hstep := Limiter.reaches_advance (s := { s with now := clock k }) hi hadv
      obtain ⟨t, hreach, hret⟩ := ih (k + 1) (s := { s with
          store := store, now := clock k,
          requests := s.requests.set i (.checking rest (permits ++ check.permit?)
            (reserved ++ check.reservation? (clock k))) })
        (List.getElem?_set_self hlt) (hclock (Nat.le_succ k)) (by simpa using hlt)
      refine ⟨t, (hwait.trans hstep).trans hreach, ?_⟩
      rw [heldPermit_grant] at hret
      simpa only [Limiter.Returned, List.set_set] using hret
    | true =>
      have hadv : (Phase.checking (check :: rest) permits reserved).advance (clock k) s.store =
          some (check.refused (clock k) permits, store) := by
        simp only [Phase.advance, hprobe]
      have hstep := Limiter.reaches_advance (s := { s with now := clock k }) hi hadv
      have hback := Limiter.reaches_refused check permits (s := { s with
          store := store, now := clock k,
          requests := s.requests.set i (check.refused (clock k) permits) })
        (List.getElem?_set_self hlt) (hclock (Nat.le_succ k))
      obtain ⟨t, hreach, hstore, hreq⟩ := hback
      refine ⟨t, (hwait.trans hstep).trans hreach, hstore, ?_⟩
      simpa only [List.set_set] using hreq

theorem Phase.settling_advance (now : ℕ) (store : MemoryCounterStore) (actual : TokenCount)
    (reservation : Reservation) (rest : List Reservation) (permits : List ConcurrencyPermit) :
    (Phase.settling actual (reservation :: rest) permits).advance now store =
      some (.settling actual rest permits, if settlement actual = 0 then store
        else (store.incrWindow now reservation.1 windowMs (settlement actual)).2) := by
  rw [Phase.advance]
  split
  · rfl
  · rfl

/-- A request that settles at the times of `clock` does what `reconcile_tokens` does. -/
theorem Limiter.reaches_reconcileTokens {clock : ℕ → ℕ} (hclock : Monotone clock)
    {actual : TokenCount} (rest : List Reservation) (k : ℕ) {permits : List ConcurrencyPermit}
    {s : Limiter} {i : ℕ} (hi : s.requests[i]? = some (.settling actual rest permits))
    (hnow : s.now ≤ clock k) :
    ∃ t, Reaches Limiter.step Always s t ∧
      t.store = reconcileTokens clock actual.val k (rest.map Reservation.entry) s.store ∧
      t.requests = s.requests.set i (.dropping permits) := by
  have hlt := (List.getElem?_eq_some_iff.mp hi).1
  induction rest generalizing k s with
  | nil => exact ⟨_, Limiter.reaches_advance hi rfl, rfl, rfl⟩
  | cons reservation rest ih =>
    have hwait := s.reaches_wait hnow
    have hstep := Limiter.reaches_advance (s := { s with now := clock k }) hi
      (Phase.settling_advance (clock k) s.store actual reservation rest permits)
    obtain ⟨t, hreach, hstore, hreq⟩ := ih (k + 1) (s := { s with
        store := if settlement actual = 0 then s.store
          else (s.store.incrWindow (clock k) reservation.1 windowMs (settlement actual)).2,
        now := clock k, requests := s.requests.set i (.settling actual rest permits) })
      (List.getElem?_set_self hlt) (hclock (Nat.le_succ k)) (by simpa using hlt)
    refine ⟨t, (hwait.trans hstep).trans hreach, ?_, ?_⟩
    · rw [List.map_cons, Reservation.entry, reconcileTokens_cons]
      exact hstore
    · simpa only [List.set_set] using hreq

end AiGateway.Api
