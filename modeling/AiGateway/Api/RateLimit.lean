import AiGateway.Core.Executor
import AiGateway.Storage.MemoryCounter

/-!
# Rate limits (`gateway-api/src/ratelimit.rs`)

`check_limits` runs over the configured rules; a rule that matches the caller
performs up to three counter operations, in the order rpm, tpm, concurrency.
The model flattens the rule loop into the list of these operations
(`limitChecks`) and executes the list until one of them rejects. The store is
`MemoryCounterStore`, whose operations never fail, so `ApiError::Storage` does
not arise here. `LimitConfig` and `LimitTarget` are in `config.rs:280-297`.
-/

namespace AiGateway.Api
open AiGateway.Library.MachineInt AiGateway.Core AiGateway.Storage

def windowMs : ℕ := 60000

def defaultTokenPrededuct : Int := 1024

structure LimitTarget where
  kind : String
  id : Option String
  key : Option String
  deriving DecidableEq, Repr

structure LimitConfig where
  target : LimitTarget
  rpm : Option UInt64
  tpm : Option UInt64
  concurrency : Option UInt32
  deriving DecidableEq, Repr

inductive ApiError where
  | gateway (e : GatewayError)
  | storage (msg : String)
  | badRequest (msg : String)
  | unauthorized
  deriving DecidableEq, Repr

/-- `RatePermit`: the concurrency slots and the TPM reservations
`(tpm_key, prededucted)` of one admitted request. -/
structure RatePermit where
  concurrency : List ConcurrencyPermit
  tpmReservations : List (String × Int)
  deriving DecidableEq, Repr

/-- The scope a rule resolves to for a caller; `none` is `continue`. -/
def resolveScope (limit : LimitConfig) (keyId projectId : String) : Option String :=
  let pattern := limit.target.id.getD "*"
  if limit.target.kind = "key" then
    if pattern ≠ "*" ∧ pattern ≠ keyId then none else some ("key:" ++ keyId)
  else if limit.target.kind = "project" then
    if pattern ≠ "*" ∧ pattern ≠ projectId then none else some ("project:" ++ projectId)
  else if limit.target.kind = "global" then some "global"
  else none

/-- One counter operation of the rule loop, with the bound it is held against. -/
inductive LimitCheck where
  | rpm (scope : String) (cap : UInt64)
  | tpm (scope : String) (cap : UInt64)
  | concurrency (scope : String) (cap : UInt32)
  deriving DecidableEq, Repr

def ruleChecks (limit : LimitConfig) (scope : String) : List LimitCheck :=
  (limit.rpm.map (LimitCheck.rpm scope)).toList ++
    ((limit.tpm.map (LimitCheck.tpm scope)).toList ++
      (limit.concurrency.map (LimitCheck.concurrency scope)).toList)

def limitRule (keyId projectId : String) (limit : LimitConfig) : List LimitCheck :=
  match resolveScope limit keyId projectId with
  | some scope => ruleChecks limit scope
  | none => []

def limitChecks (limits : List LimitConfig) (keyId projectId : String) : List LimitCheck :=
  limits.flatMap (limitRule keyId projectId)

/-- The store operation of a check at time `now`; `true` means over the bound. -/
def LimitCheck.probe (now : ℕ) (store : MemoryCounterStore) : LimitCheck → Bool × MemoryCounterStore
  | .rpm scope cap =>
    let (count, store) := store.incrWindow now ("rpm:" ++ scope) windowMs 1
    (decide (cap.toNat < asU64 count), store)
  | .tpm scope cap =>
    let (count, store) := store.incrWindow now ("tpm:" ++ scope) windowMs defaultTokenPrededuct
    (decide (cap.toNat < asU64 count), store)
  | .concurrency scope cap =>
    let (permit, store) := store.tryAcquireConcurrency ("conc:" ++ scope) cap
    (permit.isNone, store)

def LimitCheck.rollBack (now : ℕ) (store : MemoryCounterStore) : LimitCheck → MemoryCounterStore
  | .tpm scope _ => (store.incrWindow now ("tpm:" ++ scope) windowMs (-defaultTokenPrededuct)).2
  | _ => store

def RatePermit.grant (permit : RatePermit) : LimitCheck → RatePermit
  | .rpm _ _ => permit
  | .tpm scope _ =>
    { permit with
      tpmReservations := permit.tpmReservations ++ [("tpm:" ++ scope, defaultTokenPrededuct)] }
  | .concurrency scope _ =>
    { permit with concurrency := permit.concurrency ++ [⟨"conc:" ++ scope⟩] }

/-- The loop of `check_limits`. The `k`-th check reads the clock as `clock k`, a
rollback as `clock (k + 1)`; an error return drops the permits collected so far
and forgets the TPM reservations. -/
def checkLoop (clock : ℕ → ℕ) : ℕ → List LimitCheck → RatePermit → MemoryCounterStore →
    Except ApiError RatePermit × MemoryCounterStore
  | _, [], permit, store => (.ok permit, store)
  | k, check :: rest, permit, store =>
    match check.probe (clock k) store with
    | (false, store) => checkLoop clock (k + 1) rest (permit.grant check) store
    | (true, store) =>
      (.error (.gateway .rateLimited),
        (check.rollBack (clock (k + 1)) store).releaseAll permit.concurrency)

def checkLimits (clock : ℕ → ℕ) (store : MemoryCounterStore) (limits : List LimitConfig)
    (keyId projectId : String) : Except ApiError RatePermit × MemoryCounterStore :=
  checkLoop clock 0 (limitChecks limits keyId projectId) ⟨[], []⟩ store

def reconcileTokens (clock : ℕ → ℕ) (actualTokens : Int) : ℕ → List (String × Int) →
    MemoryCounterStore → MemoryCounterStore
  | _, [], store => store
  | k, (key, prededucted) :: rest, store =>
    let delta := wrap64 (actualTokens - prededucted)
    if delta = 0 then reconcileTokens clock actualTokens (k + 1) rest store
    else
      reconcileTokens clock actualTokens (k + 1) rest
        (store.incrWindow (clock k) key windowMs delta).2

theorem reconcileTokens_cons (clock : ℕ → ℕ) (actualTokens : Int) (k : ℕ) (key : String)
    (prededucted : Int) (rest : List (String × Int)) (store : MemoryCounterStore) :
    reconcileTokens clock actualTokens k ((key, prededucted) :: rest) store =
      reconcileTokens clock actualTokens (k + 1) rest
        (if wrap64 (actualTokens - prededucted) = 0 then store
        else (store.incrWindow (clock k) key windowMs (wrap64 (actualTokens - prededucted))).2) := by
  rw [reconcileTokens]
  split
  · rfl
  · rfl

theorem LimitCheck.probe_concurrency_windows (now : ℕ) (store : MemoryCounterStore) (scope : String)
    (cap : UInt32) :
    ((LimitCheck.concurrency scope cap).probe now store).2.windows = store.windows := by
  simp only [LimitCheck.probe, MemoryCounterStore.tryAcquireConcurrency]
  split
  · rfl
  · rfl

/-! ### Counter names -/

theorem rpmKey_ne_tpmKey (s t : String) : "rpm:" ++ s ≠ "tpm:" ++ t := by
  intro h
  have hl := congrArg String.toList h
  simp [String.toList_append] at hl

def rpmSlot (bucket : ℕ) (scope : String) : WindowSlot := ("rpm:" ++ scope, windowMs, bucket)

def tpmSlot (bucket : ℕ) (scope : String) : WindowSlot := ("tpm:" ++ scope, windowMs, bucket)

theorem rpmSlot_inj {b : ℕ} {s t : String} : rpmSlot b s = rpmSlot b t ↔ s = t :=
  ⟨fun h => prefixed_inj (congrArg Prod.fst h), fun h => by rw [h]⟩

theorem tpmSlot_inj {b : ℕ} {s t : String} : tpmSlot b s = tpmSlot b t ↔ s = t :=
  ⟨fun h => prefixed_inj (congrArg Prod.fst h), fun h => by rw [h]⟩

theorem rpmSlot_ne_tpmSlot (b b' : ℕ) (s t : String) : rpmSlot b s ≠ tpmSlot b' t :=
  fun h => rpmKey_ne_tpmKey s t (congrArg Prod.fst h)

theorem windowSlot_rpm {now b : ℕ} (h : now / windowMs = b) (scope : String) :
    windowSlot now ("rpm:" ++ scope) windowMs = rpmSlot b scope := by
  rw [← h]
  rfl

theorem windowSlot_tpm {now b : ℕ} (h : now / windowMs = b) (scope : String) :
    windowSlot now ("tpm:" ++ scope) windowMs = tpmSlot b scope := by
  rw [← h]
  rfl

end AiGateway.Api
