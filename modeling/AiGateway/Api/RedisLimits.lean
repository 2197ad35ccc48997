import AiGateway.Api.RateLimit
import AiGateway.Library.Parties
import AiGateway.Storage.RedisCounters

/-!
# `check_limits` and `reconcile_tokens` over Redis (`gateway-api/src/ratelimit.rs`)

The requests of any number of replicas share one `RedisCounterStore`. A call of `incr_window`
takes two commands, any other request may move in between, and it may fail, which ends
`check_limits` with a storage error but is ignored by a roll-back and by `reconcile_tokens`. What
`try_acquire_concurrency` answers is a free input of the machine.
-/

namespace AiGateway.Api.RedisLimits
open AiGateway.Library.ExpiringCounters (Clients Call Addition AddedAs total total_concat)
open AiGateway.Library AiGateway.Library.MachineInt AiGateway.Library.Runs
open AiGateway.Storage AiGateway.Storage.RedisCounterStore

inductive Acquired where
  | permit
  | full
  | error

/-- Where a request stands between the calls it makes. -/
inductive Stage where
  -- inside `check_limits`, before the first check of `rest`
  | checking (rest : List LimitCheck) (reserved : List (String × Int))
  -- `incr_window` runs as the given call
  | countingRpm (scope : String) (cap : UInt64) (call : ℕ) (rest : List LimitCheck)
      (reserved : List (String × Int))
  | countingTpm (scope : String) (cap : UInt64) (call : ℕ) (rest : List LimitCheck)
      (reserved : List (String × Int))
  -- a TPM check was over its bound; the prededuction is taken back next
  | rollingBack (scope : String)
  | rolledBack (call : ℕ)
  -- `check_limits` returned the permit
  | admitted (reserved : List (String × Int))
  -- inside `reconcile_tokens`
  | settling (actualTokens : Int) (rest : List (String × Int))
  | correcting (call : ℕ) (actualTokens : Int) (rest : List (String × Int))
  | rateLimited
  | storageError
  | done

structure State where
  redis : Windows
  requests : List Stage

inductive Move where
  | tick (ms : ℕ)
  | arrive (limits : List LimitConfig) (keyId projectId : String)
  -- request `i` goes on; the clock of its replica shows `clock`
  | advance (i : ℕ) (clock : ℕ) (acquired : Acquired)
  -- request `i` ends with this usage and calls `reconcile_tokens`
  | settle (i : ℕ) (actualTokens : Int)
  -- request `i` is dropped, wherever it stands
  | drop (i : ℕ)
  -- the next command of a call
  | command (call : ℕ) (reply : Library.ExpiringCounters.Reply)

/-- What a call has come to: still running, returned, or failed. -/
def outcome (redis : Windows) (call : ℕ) : Option (Option Int) :=
  match (redis.calls[call]?).map Call.phase with
  | some (.returned count) => some (some count)
  | some .failed => some none
  | _ => none

/-- The next stage and the call of `incr_window` that it waits for, if it makes one. -/
def Stage.advance (redis : Windows) (acquired : Acquired) :
    Stage → Option (Stage × Option (String × Int))
  | .checking [] reserved => some (.admitted reserved, none)
  | .checking (.rpm scope cap :: rest) reserved =>
    some (.countingRpm scope cap redis.calls.length rest reserved, some ("rpm:" ++ scope, 1))
  | .checking (.tpm scope cap :: rest) reserved =>
    some (.countingTpm scope cap redis.calls.length rest reserved,
      some ("tpm:" ++ scope, defaultTokenPrededuct))
  | .checking (.concurrency _ _ :: rest) reserved =>
    match acquired with
    | .permit => some (.checking rest reserved, none)
    | .full => some (.rateLimited, none)
    | .error => some (.storageError, none)
  | .countingRpm _ cap call rest reserved =>
    (outcome redis call).map fun
      | some count =>
        (if cap.toNat < asU64 count then .rateLimited else .checking rest reserved, none)
      | none => (.storageError, none)
  | .countingTpm scope cap call rest reserved =>
    (outcome redis call).map fun
      | some count =>
        (if cap.toNat < asU64 count then .rollingBack scope
          else .checking rest (reserved ++ [("tpm:" ++ scope, defaultTokenPrededuct)]), none)
      | none => (.storageError, none)
  | .rollingBack scope =>
    some (.rolledBack redis.calls.length, some ("tpm:" ++ scope, -defaultTokenPrededuct))
  | .rolledBack call => (outcome redis call).map fun _ => (.rateLimited, none)
  | .admitted _ => none
  | .settling _ [] => some (.done, none)
  | .settling actual ((key, prededucted) :: rest) =>
    let delta := wrap64 (actual - prededucted)
    if delta = 0 then some (.settling actual rest, none)
    else some (.correcting redis.calls.length actual rest, some (key, delta))
  | .correcting call actual rest => (outcome redis call).map fun _ => (.settling actual rest, none)
  | .rateLimited => none
  | .storageError => none
  | .done => none

/-- What a move is for the store. -/
def storeEvent (s : State) : Move → List Event
  | .tick ms => [.tick ms]
  | .advance i clock acquired =>
    match (s.requests[i]?).bind (Stage.advance s.redis acquired) with
    | some (_, some (key, delta)) => [.incrWindow clock key windowMs delta]
    | _ => []
  | .command call reply => [.command call reply]
  | _ => []

def nextRequests (s : State) : Move → Option (List Stage)
  | .arrive limits keyId projectId =>
    some (s.requests ++ [.checking (limitChecks limits keyId projectId) []])
  | .advance i _ acquired => do
    let stage ← s.requests[i]?
    let (next, _) ← stage.advance s.redis acquired
    some (s.requests.set i next)
  | .settle i actual =>
    match s.requests[i]? with
    | some (.admitted reserved) => some (s.requests.set i (.settling actual reserved))
    | _ => none
  | .drop i => (s.requests[i]?).map fun _ => s.requests.set i .done
  | _ => some s.requests

def State.step (s : State) (m : Move) : Option State := do
  let redis ← run RedisCounterStore.step s.redis (storeEvent s m)
  let requests ← nextRequests s m
  some { redis, requests }

def State.init : State := ⟨.init, []⟩

/-- A command reaches the server in the time of its window. -/
def CommandsInTime (slack : ℕ) (s : State) : Move → Prop
  | .command call reply => InTime slack s.redis (.command call reply)
  | _ => True

/-- An rpm check that let its request through, with the call that counted it. -/
structure Pass where
  request : ℕ
  scope : String
  cap : UInt64
  bucket : ℕ
  call : ℕ
  count : Int

def passes (s : State) : Move → List Pass
  | .advance i _ _ =>
    match s.requests[i]? with
    | some (.countingRpm scope cap call _ _) =>
      match s.redis.calls[call]? with
      | some ⟨(_, _, bucket), _, _, .returned count⟩ =>
        if cap.toNat < asU64 count then [] else [⟨i, scope, cap, bucket, call, count⟩]
      | _ => []
    | _ => []
  | _ => []

/-! ### What one move does -/

def Stage.openRpm? : Stage → Option ℕ
  | .countingRpm _ _ call _ _ => some call
  | _ => none

/-- The TPM reservations that a request still holds. -/
def Stage.reserved : Stage → List (String × Int)
  | .checking _ reserved => reserved
  | .countingRpm _ _ _ _ reserved => reserved
  | .countingTpm _ _ _ _ reserved => reserved
  | .admitted reserved => reserved
  | .settling _ rest => rest
  | .correcting _ _ rest => rest
  | _ => []

def Stage.OnTpm (stage : Stage) : Prop := ∀ r ∈ stage.reserved, ∃ scope, r.1 = "tpm:" ++ scope

inductive Advances (redis : Windows) : Stage → Stage → Option (String × Int) → Prop where
  | quiet {stage next : Stage} (hopen : stage.openRpm? = none) (hnext : next.openRpm? = none) :
      Advances redis stage next none
  | countRpm (scope : String) (cap : UInt64) (rest : List LimitCheck)
      (reserved : List (String × Int)) :
      Advances redis (.checking (.rpm scope cap :: rest) reserved)
        (.countingRpm scope cap redis.calls.length rest reserved) (some ("rpm:" ++ scope, 1))
  | countTpm {stage next : Stage} (scope : String) (delta : Int) (hopen : stage.openRpm? = none)
      (hnext : next.openRpm? = none) : Advances redis stage next (some ("tpm:" ++ scope, delta))
  | passRpm (scope : String) (cap : UInt64) (call : ℕ) (rest : List LimitCheck)
      (reserved : List (String × Int)) (count : Int) (hcount : outcome redis call = some (some count))
      (hcap : asU64 count ≤ cap.toNat) :
      Advances redis (.countingRpm scope cap call rest reserved) (.checking rest reserved) none
  | stopRpm (scope : String) (cap : UInt64) (call : ℕ) (rest : List LimitCheck)
      (reserved : List (String × Int)) {next : Stage} (hnext : next.openRpm? = none)
      (hover : ∀ count, outcome redis call = some (some count) → cap.toNat < asU64 count) :
      Advances redis (.countingRpm scope cap call rest reserved) next none

theorem Stage.onTpm_nil {stage : Stage} (h : stage.reserved = []) : stage.OnTpm := by
  simp [Stage.OnTpm, h]

theorem Stage.OnTpm.concat {reserved : List (String × Int)}
    (h : ∀ r ∈ reserved, ∃ scope, r.1 = "tpm:" ++ scope) (scope : String) (prededucted : Int) :
    ∀ r ∈ reserved ++ [("tpm:" ++ scope, prededucted)], ∃ scope, r.1 = "tpm:" ++ scope := by
  intro r hr
  rcases List.mem_append.mp hr with hr | hr
  · exact h r hr
  · exact ⟨scope, by rw [List.mem_singleton.mp hr]⟩

theorem Stage.advance_advances {redis : Windows} {acquired : Acquired} {stage next : Stage}
    {increment : Option (String × Int)} (htpm : stage.OnTpm)
    (h : stage.advance redis acquired = some (next, increment)) :
    Advances redis stage next increment ∧ next.OnTpm := by
  cases stage with
  | checking rest reserved =>
    cases rest with
    | nil =>
      cases h
      exact ⟨.quiet rfl rfl, htpm⟩
    | cons check rest =>
      cases check with
      | rpm scope cap =>
        cases h
        exact ⟨.countRpm scope cap rest reserved, htpm⟩
      | tpm scope cap =>
        cases h
        exact ⟨.countTpm scope _ rfl rfl, htpm⟩
      | concurrency scope cap =>
        cases acquired with
        | permit =>
          cases h
          exact ⟨.quiet rfl rfl, htpm⟩
        | full =>
          cases h
          exact ⟨.quiet rfl rfl, onTpm_nil rfl⟩
        | error =>
          cases h
          exact ⟨.quiet rfl rfl, onTpm_nil rfl⟩
  | countingRpm scope cap call rest reserved =>
    obtain ⟨result, hresult, heq⟩ := Option.map_eq_some_iff.mp h
    cases result with
    | none =>
      cases heq
      refine ⟨.stopRpm scope cap call rest reserved rfl ?_, onTpm_nil rfl⟩
      simp [hresult]
    | some count =>
      simp only at heq
      split at heq
      · rename_i hover
        cases heq
        refine ⟨.stopRpm scope cap call rest reserved rfl ?_, onTpm_nil rfl⟩
        simp [hresult, hover]
      · rename_i hcap
        cases heq
        exact ⟨.passRpm scope cap call rest reserved count hresult (by omega), htpm⟩
  | countingTpm scope cap call rest reserved =>
    obtain ⟨result, hresult, heq⟩ := Option.map_eq_some_iff.mp h
    cases result with
    | none =>
      cases heq
      exact ⟨.quiet rfl rfl, onTpm_nil rfl⟩
    | some count =>
      simp only at heq
      split at heq
      · cases heq
        exact ⟨.quiet rfl rfl, onTpm_nil rfl⟩
      · cases heq
        exact ⟨.quiet rfl rfl, Stage.OnTpm.concat htpm scope _⟩
  | rollingBack scope =>
    cases h
    exact ⟨.countTpm scope _ rfl rfl, onTpm_nil rfl⟩
  | rolledBack call =>
    obtain ⟨result, hresult, heq⟩ := Option.map_eq_some_iff.mp h
    cases heq
    exact ⟨.quiet rfl rfl, onTpm_nil rfl⟩
  | settling actual rest =>
    cases rest with
    | nil =>
      cases h
      exact ⟨.quiet rfl rfl, onTpm_nil rfl⟩
    | cons r rest =>
      obtain ⟨scope, hscope⟩ := htpm r (List.mem_cons_self ..)
      have hrest : ∀ r ∈ rest, ∃ scope, r.1 = "tpm:" ++ scope :=
        fun r hr => htpm r (List.mem_cons_of_mem _ hr)
      simp only [Stage.advance] at h
      split at h
      · cases h
        exact ⟨.quiet rfl rfl, hrest⟩
      · cases h
        rw [hscope]
        exact ⟨.countTpm scope _ rfl rfl, hrest⟩
  | correcting call actual rest =>
    obtain ⟨result, hresult, heq⟩ := Option.map_eq_some_iff.mp h
    cases heq
    exact ⟨.quiet rfl rfl, htpm⟩
  | admitted reserved => cases h
  | rateLimited => cases h
  | storageError => cases h
  | done => cases h

/-! ### Runs -/

/-- How many hold on to a call as their rpm count: an open request, or a check that passed. -/
def claims (s : State) (notes : List Pass) (call : ℕ) : ℕ :=
  Parties.total (fun stage => if stage.openRpm? = some call then 1 else 0) s.requests +
    notes.countP (·.call = call)

/-- Every increment of an rpm window is by one. -/
def Ones (redis : Windows) : Prop :=
  ∀ call ∈ redis.calls, (∃ scope, call.key.1 = "rpm:" ++ scope) → call.delta = 1

/-- The calls that an open request or a passed check stands on are increments by one of an rpm
window, and each is stood on once. -/
structure Counted (s : State) (notes : List Pass) : Prop where
  onTpm : ∀ stage ∈ s.requests, stage.OnTpm
  ones : Ones s.redis
  opened : ∀ scope cap i rest reserved, .countingRpm scope cap i rest reserved ∈ s.requests →
    ∃ call bucket, s.redis.calls[i]? = some call ∧ call.key = rpmSlot bucket scope
  passed : ∀ p ∈ notes, asU64 p.count ≤ p.cap.toNat ∧ ∃ call, s.redis.calls[p.call]? = some call ∧
    call.key = rpmSlot p.bucket p.scope ∧ call.phase = .returned p.count
  once : ∀ i, claims s notes i ≤ 1

def Kept (redis redis' : Windows) : Prop :=
  ∀ (i : ℕ) (call : Call WindowSlot Int), redis.calls[i]? = some call → ∃ phase,
    redis'.calls[i]? = some { call with phase := phase } ∧
      ∀ count, call.phase = .returned count → phase = .returned count

theorem Kept.refl (redis : Windows) : Kept redis redis :=
  fun _ call hi => ⟨call.phase, hi, fun _ h => h⟩

theorem kept_of_step {redis redis' : Windows} {event : Event}
    (h : RedisCounterStore.step redis event = some redis') : Kept redis redis' :=
  fun _ _ hi => Clients.step_kept h hi

theorem ones_of_step {redis redis' : Windows} {event : Event} (hones : Ones redis)
    (hevent : ∀ clock key windowMs delta, event = .incrWindow clock key windowMs delta →
      (∃ scope, key = "rpm:" ++ scope) → delta = 1)
    (h : RedisCounterStore.step redis event = some redis') : Ones redis' := by
  cases event with
  | tick ms =>
    cases h
    exact hones
  | incrWindow clock key windowMs delta =>
    cases h
    intro call hcall hscope
    rcases List.mem_append.mp hcall with hold | hnew
    · exact hones call hold hscope
    · rw [List.mem_singleton.mp hnew] at hscope ⊢
      exact hevent _ _ _ _ rfl hscope
  | command i reply =>
    simp only [RedisCounterStore.step, Event.move, Clients.step, Option.bind_eq_bind,
      Option.bind_eq_some_iff, Prod.exists] at h
    obtain ⟨call, hi, phase, server, applied, -, ht⟩ := h
    cases ht
    intro call' hcall' hscope
    rcases List.mem_or_eq_of_mem_set hcall' with hold | rfl
    · exact hones call' hold hscope
    · exact hones call (List.mem_of_getElem? hi) hscope

section
variable {s t : State} {notes : List Pass}

theorem Counted.of_kept (h : Counted s notes) {redis : Windows} (hkept : Kept s.redis redis)
    (hones : Ones redis) : Counted ⟨redis, s.requests⟩ notes where
  onTpm := h.onTpm
  ones := hones
  opened := by
    intro scope cap i rest reserved hmem
    obtain ⟨call, bucket, hi, hkey⟩ := h.opened scope cap i rest reserved hmem
    obtain ⟨phase, hi', -⟩ := hkept i call hi
    exact ⟨_, bucket, hi', hkey⟩
  passed := by
    intro p hp
    obtain ⟨hcap, call, hi, hkey, hphase⟩ := h.passed p hp
    obtain ⟨phase, hi', hreturned⟩ := hkept p.call call hi
    exact ⟨hcap, _, hi', hkey, hreturned _ hphase⟩
  once := h.once

/-- Nobody stands on a call that has not been made. -/
theorem Counted.unclaimed (h : Counted s notes) {i : ℕ} (hi : s.redis.calls.length ≤ i) :
    claims s notes i = 0 := by
  have hnone : s.redis.calls[i]? = none := List.getElem?_eq_none hi
  have hrequests : ∀ stage ∈ s.requests, stage.openRpm? ≠ some i := by
    intro stage hstage hopen
    cases stage with
    | countingRpm scope cap call rest reserved =>
      cases hopen
      obtain ⟨call, bucket, hcall, -⟩ := h.opened _ _ _ _ _ hstage
      simp [hnone] at hcall
    | _ => cases hopen
  have hnotes : ∀ p ∈ notes, p.call ≠ i := by
    rintro p hp rfl
    obtain ⟨-, call, hcall, -⟩ := h.passed p hp
    simp [hnone] at hcall
  have hzero : ∀ requests : List Stage, (∀ stage ∈ requests, stage.openRpm? ≠ some i) →
      Parties.total (fun stage => if stage.openRpm? = some i then 1 else 0) requests = 0 := by
    intro requests hall
    induction requests with
    | nil => rfl
    | cons stage rest ih =>
      rw [Parties.total_cons, if_neg (hall stage (List.mem_cons_self ..)),
        ih fun stage hmem => hall stage (List.mem_cons_of_mem _ hmem)]
  unfold claims
  rw [hzero s.requests hrequests, List.countP_eq_zero.mpr]
  simpa using hnotes

/-- Request `i` moves on, and possibly has passed an rpm check. -/
theorem Counted.set (h : Counted s notes) {i : ℕ} {stage next : Stage}
    (hi : s.requests[i]? = some stage) (hnext : next.OnTpm) (more : List Pass)
    (hopened : ∀ scope cap j rest reserved, next = .countingRpm scope cap j rest reserved →
      ∃ call bucket, s.redis.calls[j]? = some call ∧ call.key = rpmSlot bucket scope)
    (hpassed : ∀ p ∈ more, asU64 p.count ≤ p.cap.toNat ∧ ∃ call, s.redis.calls[p.call]? = some call ∧
      call.key = rpmSlot p.bucket p.scope ∧ call.phase = .returned p.count)
    (honce : ∀ j, claims s notes j + ((if next.openRpm? = some j then 1 else 0) +
      more.countP (·.call = j)) ≤ 1 + if stage.openRpm? = some j then 1 else 0) :
    Counted ⟨s.redis, s.requests.set i next⟩ (notes ++ more) where
  onTpm := by
    intro stage' hmem
    rcases List.mem_or_eq_of_mem_set hmem with hold | rfl
    · exact h.onTpm stage' hold
    · exact hnext
  ones := h.ones
  opened := by
    intro scope cap j rest reserved hmem
    rcases List.mem_or_eq_of_mem_set hmem with hold | hnew
    · exact h.opened scope cap j rest reserved hold
    · exact hopened scope cap j rest reserved hnew.symm
  passed := by
    intro p hp
    rcases List.mem_append.mp hp with hold | hnew
    · exact h.passed p hold
    · exact hpassed p hnew
  once := by
    intro j
    have hset := Parties.total_set (fun stage => if stage.openRpm? = some j then 1 else 0) hi next
    have hbound := honce j
    simp only [claims, List.countP_append] at hbound ⊢
    omega

/-- A request moves to a stage that stands on no call. -/
theorem Counted.leave (h : Counted s notes) {i : ℕ} {stage next : Stage}
    (hi : s.requests[i]? = some stage) (hnext : next.OnTpm) (hnone : next.openRpm? = none) :
    Counted ⟨s.redis, s.requests.set i next⟩ (notes ++ []) := by
  refine h.set hi hnext [] ?_ (by simp) ?_
  · rintro scope cap j rest reserved rfl
    cases hnone
  · intro j
    have := h.once j
    simp only [hnone, List.countP_nil]
    simp
    omega

theorem outcome_returned {redis : Windows} {i : ℕ} {count : Int}
    (h : outcome redis i = some (some count)) :
    ∃ call, redis.calls[i]? = some call ∧ call.phase = .returned count := by
  unfold outcome at h
  split at h
  · rename_i count' hphase
    obtain ⟨call, hcall, hreturned⟩ := Option.map_eq_some_iff.mp hphase
    cases h
    exact ⟨call, hcall, hreturned⟩
  · cases h
  · cases h

theorem passes_nil {i clock : ℕ} {acquired : Acquired} {stage : Stage}
    (hi : s.requests[i]? = some stage) (hopen : stage.openRpm? = none) :
    passes s (.advance i clock acquired) = [] := by
  cases stage with
  | countingRpm scope cap call rest reserved => cases hopen
  | _ => simp [passes, hi]

theorem passes_stop {i clock : ℕ} {acquired : Acquired} {scope : String} {cap : UInt64} {j : ℕ}
    {rest : List LimitCheck} {reserved : List (String × Int)}
    (hi : s.requests[i]? = some (.countingRpm scope cap j rest reserved))
    (hover : ∀ count, outcome s.redis j = some (some count) → cap.toNat < asU64 count) :
    passes s (.advance i clock acquired) = [] := by
  simp only [passes, hi]
  split
  · rename_i count hj
    have hcount : outcome s.redis j = some (some count) := by
      simp [outcome, hj]
    rw [if_pos (hover count hcount)]
  · rfl

theorem passes_pass {i clock : ℕ} {acquired : Acquired} {scope : String} {cap : UInt64} {j : ℕ}
    {rest : List LimitCheck} {reserved : List (String × Int)} {count : Int}
    (hi : s.requests[i]? = some (.countingRpm scope cap j rest reserved))
    {call : Call WindowSlot Int} (hj : s.redis.calls[j]? = some call)
    (hphase : call.phase = .returned count) (hcap : asU64 count ≤ cap.toNat) :
    passes s (.advance i clock acquired) = [⟨i, scope, cap, call.key.2.2, j, count⟩] := by
  obtain ⟨⟨key, window, bucket⟩, delta, ttl, phase⟩ := call
  simp only at hphase
  subst hphase
  simp only [passes, hi, hj]
  rw [if_neg (by omega)]

theorem Counted.of_event (h : Counted s notes) {event : Event} {redis : Windows}
    (hevent : ∀ clock key windowMs delta, event = .incrWindow clock key windowMs delta →
      (∃ scope, key = "rpm:" ++ scope) → delta = 1)
    (hredis : run RedisCounterStore.step s.redis [event] = some redis) :
    RedisCounterStore.step s.redis event = some redis ∧ Counted ⟨redis, s.requests⟩ notes := by
  have hstep : RedisCounterStore.step s.redis event = some redis := by
    simpa [run] using hredis
  exact ⟨hstep, h.of_kept (kept_of_step hstep) (ones_of_step h.ones hevent hstep)⟩

theorem Counted.advance (h : Counted s notes) {i clock : ℕ} {acquired : Acquired}
    {stage next : Stage} {increment : Option (String × Int)} {redis : Windows}
    (hi : s.requests[i]? = some stage)
    (hadvance : stage.advance s.redis acquired = some (next, increment))
    (hredis : run RedisCounterStore.step s.redis (storeEvent s (.advance i clock acquired)) =
      some redis) :
    Counted ⟨redis, s.requests.set i next⟩ (notes ++ passes s (.advance i clock acquired)) := by
  obtain ⟨hadvances, hnext⟩ :=
    Stage.advance_advances (h.onTpm stage (List.mem_of_getElem? hi)) hadvance
  simp only [storeEvent, hi, Option.bind_some, hadvance] at hredis
  cases hadvances with
  | quiet hopen hnone =>
    cases hredis
    rw [passes_nil hi hopen]
    exact h.leave hi hnext hnone
  | countRpm scope cap rest reserved =>
    rw [passes_nil hi rfl]
    obtain ⟨hstep, hgrown⟩ := h.of_event (by rintro _ _ _ _ ⟨⟩ -; rfl) hredis
    refine hgrown.set hi hnext [] ?_ (by simp) ?_
    · rintro scope' cap' j rest' reserved' ⟨⟩
      cases hstep
      exact ⟨_, clock / windowMs, List.getElem?_concat_length, windowSlot_rpm rfl scope⟩
    · intro j
      have hbound := h.once j
      have hfresh : s.redis.calls.length = j → claims s notes j = 0 := fun heq =>
        h.unclaimed heq.le
      have hsame : claims ⟨redis, s.requests⟩ notes j = claims s notes j := rfl
      simp only [hsame, Stage.openRpm?, Option.some.injEq, List.countP_nil]
      split
      · rename_i heq
        have := hfresh heq
        omega
      · omega
  | countTpm scope delta hopen hnone =>
    rw [passes_nil hi hopen]
    obtain ⟨hstep, hgrown⟩ := h.of_event
      (by rintro _ _ _ _ ⟨⟩ ⟨scope', hscope⟩; exact absurd hscope.symm (rpmKey_ne_tpmKey _ _)) hredis
    exact hgrown.leave hi hnext hnone
  | passRpm scope cap j rest reserved count hcount hcap =>
    cases hredis
    obtain ⟨call, hj, hphase⟩ := outcome_returned hcount
    rw [passes_pass hi hj hphase hcap]
    obtain ⟨call', bucket, hj', hkey⟩ := h.opened _ _ _ _ _ (List.mem_of_getElem? hi)
    rw [hj] at hj'
    cases hj'
    refine h.set hi hnext _ ?_ ?_ ?_
    · rintro scope' cap' j' rest' reserved' ⟨⟩
    · intro p hp
      rw [List.mem_singleton.mp hp]
      refine ⟨hcap, call, hj, ?_, hphase⟩
      rw [hkey]
      rfl
    · intro j'
      have hbound := h.once j'
      simp only [Stage.openRpm?, List.countP_singleton]
      simp
      omega
  | stopRpm scope cap j rest reserved hnone hover =>
    cases hredis
    rw [passes_stop hi hover]
    exact h.leave hi hnext hnone

theorem Counted.arrive (h : Counted s notes) (rest : List LimitCheck) :
    Counted ⟨s.redis, s.requests ++ [.checking rest []]⟩ notes where
  onTpm := by
    intro stage hmem
    rcases List.mem_append.mp hmem with hold | hnew
    · exact h.onTpm stage hold
    · rw [List.mem_singleton.mp hnew]
      exact Stage.onTpm_nil rfl
  ones := h.ones
  opened := by
    intro scope cap i rest' reserved hmem
    rcases List.mem_append.mp hmem with hold | hnew
    · exact h.opened scope cap i rest' reserved hold
    · cases List.mem_singleton.mp hnew
  passed := h.passed
  once := by
    intro i
    have := h.once i
    simpa [claims, Stage.openRpm?] using this

theorem Counted.step {m : Move} (h : Counted s notes) (hstep : s.step m = some t) :
    Counted t (notes ++ passes s m) := by
  obtain ⟨redis, hredis, hrest⟩ := Option.bind_eq_some_iff.mp hstep
  obtain ⟨requests, hrequests, heq⟩ := Option.bind_eq_some_iff.mp hrest
  cases heq
  cases m with
  | tick ms =>
    cases hrequests
    have hgrown := (h.of_event (by rintro _ _ _ _ ⟨⟩) hredis).2
    simpa [passes] using hgrown
  | command call reply =>
    cases hrequests
    have hgrown := (h.of_event (by rintro _ _ _ _ ⟨⟩) hredis).2
    simpa [passes] using hgrown
  | arrive limits keyId projectId =>
    cases hredis
    cases hrequests
    simpa [passes] using h.arrive (limitChecks limits keyId projectId)
  | settle i actual =>
    cases hredis
    simp only [nextRequests] at hrequests
    split at hrequests
    · rename_i reserved hi
      cases hrequests
      have hreserved : (Stage.admitted reserved).OnTpm := h.onTpm _ (List.mem_of_getElem? hi)
      exact h.leave hi hreserved rfl
    · cases hrequests
  | drop i =>
    cases hredis
    obtain ⟨stage, hi, hrequests⟩ := Option.map_eq_some_iff.mp hrequests
    cases hrequests
    exact h.leave hi (Stage.onTpm_nil rfl) rfl
  | advance i clock acquired =>
    obtain ⟨stage, hi, hrest⟩ := Option.bind_eq_some_iff.mp hrequests
    obtain ⟨⟨next, increment⟩, hadvance, hset⟩ := Option.bind_eq_some_iff.mp hrest
    cases hset
    exact h.advance hi hadvance hredis

theorem counted_init : Counted .init [] where
  onTpm := by simp [State.init]
  ones := by simp [Ones, State.init, Clients.init]
  opened := by simp [State.init]
  passed := by simp
  once := by simp [claims, State.init]

end

/-! ### The bound -/

/-- The run that the store sees. -/
theorem State.step_redis {slack : ℕ} (hslack : slack ≤ 30000) {s t : State} {m : Move}
    (hr : Reaches RedisCounterStore.step (InTime slack) Clients.init s.redis)
    (hguard : CommandsInTime slack s m) (hstep : s.step m = some t) :
    Reaches RedisCounterStore.step (InTime slack) Clients.init t.redis := by
  obtain ⟨redis, hredis, hrest⟩ := Option.bind_eq_some_iff.mp hstep
  obtain ⟨requests, hrequests, heq⟩ := Option.bind_eq_some_iff.mp hrest
  cases heq
  have hone : ∀ event, InTime slack s.redis event →
      run RedisCounterStore.step s.redis [event] = some redis →
      Reaches RedisCounterStore.step (InTime slack) Clients.init redis := by
    intro event hevent hrun
    exact .next event hr hevent (by simpa [run] using hrun)
  have hnone : run RedisCounterStore.step s.redis [] = some redis →
      Reaches RedisCounterStore.step (InTime slack) Clients.init redis := by
    intro hrun
    cases hrun
    exact hr
  cases m with
  | tick ms => exact hone (.tick ms) trivial hredis
  | command call reply => exact hone (.command call reply) hguard hredis
  | advance i clock acquired =>
    simp only [storeEvent] at hredis
    split at hredis
    · rename_i next key delta hadvance
      refine hone (.incrWindow clock key windowMs delta) ?_ hredis
      simp only [InTime, expireMs, windowMs]
      omega
    · exact hnone hredis
  | arrive limits keyId projectId => exact hnone hredis
  | settle i actual => exact hnone hredis
  | drop i => exact hnone hredis

abbrev Noted := State × List Pass

/-- The runs whose commands come in time, with a note on every rpm check that passes. -/
def InRun (slack : ℕ) : Noted → Prop :=
  Reaches (observe State.step passes) (fun r m => CommandsInTime slack r.1 m) (.init, [])

theorem InRun.counted {slack : ℕ} (hslack : slack ≤ 30000) {r : Noted} (hr : InRun slack r) :
    Reaches RedisCounterStore.step (InTime slack) Clients.init r.1.redis ∧ Counted r.1 r.2 := by
  unfold InRun at hr
  induction hr with
  | start => exact ⟨.start, counted_init⟩
  | next m _ hguard hstep ih =>
    obtain ⟨t, ht, rfl⟩ := Option.map_eq_some_iff.mp hstep
    exact ⟨State.step_redis hslack ih.1 hguard ht, ih.2.step ht⟩

section
variable {slack : ℕ} {s : State} {notes : List Pass}

theorem Counted.added (h : Counted s notes)
    (hexact : s.redis.Exact (fun sum => decide (InI64 sum)) slotKey (slotSpan slack))
    {p : Pass} (hp : p ∈ notes) : ∃ call : Call WindowSlot Int, call.key = rpmSlot p.bucket p.scope ∧
      call.delta = 1 ∧ AddedAs s.redis.ledger p.call call p.count := by
  obtain ⟨-, call, hcall, hkey, hphase⟩ := h.passed p hp
  have hholds := hexact.calls p.call call hcall
  rw [hphase] at hholds
  exact ⟨call, hkey, h.ones call (List.mem_of_getElem? hcall) ⟨p.scope, by rw [hkey]; rfl⟩, hholds⟩

/-- The counters of an rpm window never go down. -/
theorem Counted.total_nonneg (h : Counted s notes)
    (hexact : s.redis.Exact (fun sum => decide (InI64 sum)) slotKey (slotSpan slack))
    {additions : List (Addition WindowSlot Int)} (hsub : additions ⊆ s.redis.ledger)
    (bucket : ℕ) (scope : String) : 0 ≤ total additions (rpmSlot bucket scope) := by
  refine ExpiringCounters.total_nonneg ?_
  intro a ha hkey
  obtain ⟨call, hcall, hcallKey, hdelta⟩ := hexact.known a (hsub ha)
  have hone := h.ones call (List.mem_of_getElem? hcall) ⟨scope, by rw [hcallKey, hkey]; rfl⟩
  omega

/-- Two passed checks of a scope and bucket have seen different counts. -/
theorem Counted.count_ne (h : Counted s notes)
    (hexact : s.redis.Exact (fun sum => decide (InI64 sum)) slotKey (slotSpan slack))
    {p q : Pass} (hp : p ∈ notes) (hq : q ∈ notes) (hscope : p.scope = q.scope)
    (hbucket : p.bucket = q.bucket) (hcall : p.call ≠ q.call) : p.count ≠ q.count := by
  obtain ⟨call, hkey, hone, hadded⟩ := h.added hexact hp
  obtain ⟨call', hkey', hone', hadded'⟩ := h.added hexact hq
  have hsame : call.key = call'.key := by
    rw [hkey, hkey', hscope, hbucket]
  rcases hadded.compare hadded' hcall hsame with ⟨between, hsub, hcount⟩ | ⟨between, hsub, hcount⟩
  · have hnonneg := h.total_nonneg hexact hsub p.bucket p.scope
    rw [hkey] at hcount
    omega
  · have hnonneg := h.total_nonneg hexact hsub p.bucket p.scope
    rw [hkey] at hcount
    omega

theorem Counted.count_pos (h : Counted s notes)
    (hexact : s.redis.Exact (fun sum => decide (InI64 sum)) slotKey (slotSpan slack))
    {p : Pass} (hp : p ∈ notes) : 1 ≤ p.count ∧ p.count < 9223372036854775808 := by
  obtain ⟨call, hkey, hone, before, after, hledger, hcount⟩ := h.added hexact hp
  have hsub : before ⊆ s.redis.ledger := by simp [hledger]
  have hnonneg := h.total_nonneg hexact hsub p.bucket p.scope
  have hfits := hexact.sums (before ++ [⟨p.call, call.key, call.delta⟩])
    ⟨after, by simp [hledger]⟩ call.key
  rw [total_concat, if_pos rfl, ← hcount] at hfits
  have hcountFits : InI64 p.count := by simpa using hfits
  unfold InI64 at hcountFits
  rw [hkey] at hcount
  omega

end

/-- RPM safety over Redis. In every run, whatever commands fail and however far the clocks of
the replicas are off within the slack, at most `cap` of the checks of a scope and bucket that
hold the count against `cap` let their request through. -/
theorem rpm_bound {slack : ℕ} (hslack : slack ≤ 30000) {s : State} {notes : List Pass}
    (hr : InRun slack (s, notes)) (scope : String) (cap : UInt64) (bucket : ℕ) :
    notes.countP (fun p => p.scope = scope ∧ p.cap = cap ∧ p.bucket = bucket) ≤ cap.toNat := by
  obtain ⟨hredis, hcounted⟩ := hr.counted hslack
  dsimp only at hredis hcounted
  have hexact := exact_of_reaches hredis
  rw [List.countP_eq_length_filter]
  generalize hadmitted : notes.filter (fun p => decide (p.scope = scope ∧ p.cap = cap ∧
    p.bucket = bucket)) = admitted
  have hmem : ∀ p ∈ admitted, p ∈ notes ∧ p.scope = scope ∧ p.cap = cap ∧ p.bucket = bucket := by
    intro p hp
    rw [← hadmitted] at hp
    simpa using hp
  have hcalls : (notes.map Pass.call).Nodup := by
    rw [List.nodup_iff_count_le_one]
    intro call
    have honce := hcounted.once call
    unfold claims at honce
    rw [List.count, List.countP_map]
    simp only [Function.comp_def, beq_eq_decide]
    omega
  have hcounts : (admitted.map fun p => p.count.toNat).Nodup := by
    refine List.Nodup.map_on ?_ (hadmitted ▸ (List.Nodup.of_map _ hcalls).filter _)
    intro p hp q hq heq
    obtain ⟨hpn, hps, -, hpb⟩ := hmem p hp
    obtain ⟨hqn, hqs, -, hqb⟩ := hmem q hq
    have hppos := hcounted.count_pos hexact hpn
    have hqpos := hcounted.count_pos hexact hqn
    refine List.inj_on_of_nodup_map hcalls hpn hqn ?_
    by_contra hne
    have := hcounted.count_ne hexact hpn hqn (hps.trans hqs.symm) (hpb.trans hqb.symm) hne
    omega
  have hrange : (admitted.map fun p => p.count.toNat) ⊆ List.range' 1 cap.toNat := by
    intro n hn
    obtain ⟨p, hp, rfl⟩ := List.mem_map.mp hn
    obtain ⟨hpn, -, hpcap, -⟩ := hmem p hp
    have hpos := hcounted.count_pos hexact hpn
    have hcap := (hcounted.passed p hpn).1
    rw [hpcap] at hcap
    unfold asU64 at hcap
    rw [List.mem_range'_1]
    omega
  have hlength := (List.subperm_of_subset hcounts hrange).length_le
  simpa using hlength

/-- The `INCRBY` of one request takes until 25 s after the minute that its clock named. -/
theorem rpm_bound_one : ∃ s notes, InRun 30000 (s, notes) ∧ s.redis.server.now = 85000 ∧
    s.requests = [.rateLimited, .checking [] []] ∧ notes.map Pass.request = [1] ∧
    notes.countP (fun p => p.scope = "global" ∧ p.cap = 1 ∧ p.bucket = 0) ≤ (1 : UInt64).toNat := by
  have hcommand : ∀ (s : State) i reply, s.redis.server.now ≤ 90000 →
      (∀ call ∈ s.redis.calls, call.key = ("rpm:global", 60000, 0)) →
      CommandsInTime 30000 s (.command i reply) := by
    intro s i reply hnow hkeys call hcall _
    rw [hkeys call (List.mem_of_getElem? hcall)]
    exact ⟨Nat.zero_le _, hnow⟩
  have h0 : InRun 30000 _ :=
    .next (.arrive [⟨⟨"global", none, none⟩, some 1, none, none⟩] "k" "p") .start trivial rfl
  have h1 := h0.move (.arrive [⟨⟨"global", none, none⟩, some 1, none, none⟩] "k" "p") trivial rfl
  have h2 := h1.move (.advance 0 10 .permit) trivial rfl
  have h3 := h2.move (.advance 1 20 .permit) trivial rfl
  have h4 := h3.move (.command 1 .ok) (hcommand _ _ _ (by decide) (by decide)) rfl
  have h5 := h4.move (.command 1 .ok) (hcommand _ _ _ (by decide) (by decide)) rfl
  have h6 := h5.move (.tick 85000) trivial rfl
  have h7 := h6.move (.command 0 .ok) (hcommand _ _ _ (by decide) (by decide)) rfl
  have h8 := h7.move (.command 0 .ok) (hcommand _ _ _ (by decide) (by decide)) rfl
  have h9 := h8.move (.advance 0 85030 .permit) trivial rfl
  have h10 := h9.move (.advance 1 85040 .permit) trivial rfl
  exact ⟨_, _, h10, rfl, rfl, by decide, rpm_bound (by decide) h10 "global" 1 0⟩

end AiGateway.Api.RedisLimits
