import AiGateway.Library.MachineInt
import AiGateway.Library.Parties
import AiGateway.Library.Runs

/-!
# Concurrency slots in Redis (`gateway-storage/src/redis/counter.rs:50-83`)

`try_acquire_concurrency` is up to three commands on one key: `INCR`, `EXPIRE 60`
and, if the count is over `max`, a `DECR`; dropping a permit spawns a task with
another `DECR`. Any number of calls, of any number of replicas, run at once, and
a command may fail before or after it took effect. Each call carries two marks
that the code does not have: whether `max` permits were live at some moment of
the call, and, for a failed call, whether its increment is still in the counter.
-/

namespace AiGateway.Storage.Redis
open AiGateway.Library.MachineInt AiGateway.Library.Parties AiGateway.Library.Runs

structure Key where
  count : Int
  expireAt : Option ℕ
  deriving DecidableEq

def countOf : Option Key → Int
  | some key => key.count
  | none => 0

/-- `INCRBY key delta`: creates a missing key, without a TTL, and keeps a TTL. -/
def incrBy (delta : Int) : Option Key → Option Key
  | some key => some { key with count := key.count + delta }
  | none => some ⟨delta, none⟩

def expire (now : ℕ) : Option Key → Option Key
  | some key => some { key with expireAt := some (now + 60000) }
  | none => none

def Key.expired (now : ℕ) (key : Key) : Bool :=
  match key.expireAt with
  | some t => decide (t < now)
  | none => false

/-- Where a call of `try_acquire_concurrency` and its permit stand. -/
inductive Phase where
  -- before `INCR`
  | started
  -- `INCR` returned `v`; `EXPIRE` comes next
  | incremented (v : Int)
  -- over the bound; the compensating `DECR` comes next
  | denying
  -- returned `Ok(None)`
  | denied
  -- returned `Ok(Some(permit))`, and the permit is live
  | holding
  -- the permit was dropped; the `DECR` of the spawned task comes next
  | releasing
  | released
  -- returned `Err`; `leaked` when the increment is still in the counter
  | failed (leaked : Bool)
  deriving DecidableEq

/-- What the client sees of a command, and whether a failed one was applied. -/
inductive Reply where
  | ok
  | failed (applied : Bool)
  deriving DecidableEq

structure Call where
  phase : Phase
  sawFull : Bool
  deriving DecidableEq

structure State where
  now : ℕ
  key : Option Key
  calls : List Call

def Phase.command (max : UInt32) (now : ℕ) (key : Option Key) :
    Reply → Phase → Option (Phase × Option Key)
  | .ok, .started => some (.incremented (countOf key + 1), incrBy 1 key)
  | .failed applied, .started => some (.failed applied, if applied then incrBy 1 key else key)
  | .ok, .incremented v =>
    some (if max.toNat < asU32 v then .denying else .holding, expire now key)
  | .failed applied, .incremented _ => some (.failed true, if applied then expire now key else key)
  | .ok, .denying => some (.denied, incrBy (-1) key)
  | .failed applied, .denying =>
    some (.failed !applied, if applied then incrBy (-1) key else key)
  | .ok, .releasing => some (.released, incrBy (-1) key)
  | .failed applied, .releasing => some (.released, if applied then incrBy (-1) key else key)
  | _, _ => none

def Phase.live : Phase → ℕ
  | .holding => 1
  | _ => 0

def State.live (s : State) : ℕ := total (·.phase.live) s.calls

def Phase.running : Phase → Bool
  | .started => true
  | .incremented _ => true
  | .denying => true
  | _ => false

/-- Every running call notes whether `max` permits are live at this moment. -/
def State.observe (max : UInt32) (s : State) : State :=
  { s with
    calls := s.calls.map fun c =>
      { c with sawFull := c.sawFull || (c.phase.running && decide (s.live = max.toNat)) } }

inductive Move where
  | tick (ms : ℕ)
  | acquire
  -- the next command of call `i`
  | command (i : ℕ) (reply : Reply)
  -- the permit of call `i` is dropped
  | drop (i : ℕ)

def State.move (max : UInt32) (s : State) : Move → Option State
  | .tick ms =>
    some { s with now := s.now + ms, key := s.key.filter fun k => !k.expired (s.now + ms) }
  | .acquire => some { s with calls := s.calls ++ [⟨.started, false⟩] }
  | .command i reply => do
    let call ← s.calls[i]?
    let (phase, key) ← call.phase.command max s.now s.key reply
    some { s with key := key, calls := s.calls.set i { call with phase := phase } }
  | .drop i =>
    match s.calls[i]? with
    | some ⟨.holding, sawFull⟩ => some { s with calls := s.calls.set i ⟨.releasing, sawFull⟩ }
    | _ => none

def State.step (max : UInt32) (s : State) (m : Move) : Option State :=
  (s.move max m).map (State.observe max)

def State.init : State := ⟨0, none, []⟩

/-- Increments in the counter that belong to no live permit: calls between `INCR`
and their return, and releases whose `DECR` has not run. -/
def Phase.inFlight : Phase → ℕ
  | .incremented _ => 1
  | .denying => 1
  | .releasing => 1
  | _ => 0

def State.inFlight (s : State) : ℕ := total (·.phase.inFlight) s.calls

def CommandUndisturbed (max : UInt32) (s : State) : Reply → Phase → Prop
  | .ok, .started =>
    countOf s.key + 1 < 4294967296 ∧
      (max.toNat ≤ countOf s.key → max.toNat + s.inFlight ≤ countOf s.key)
  | .failed applied, .started => applied = false
  | .failed _, .incremented _ => False
  | .failed applied, .denying => applied = true
  | .failed applied, .releasing => applied = true
  | _, _ => True

/-- The key does not expire while it counts something, no command of a call that
has incremented is lost, and an `INCR` goes over the bound only if the counter
is there without the increments still in flight. -/
def Undisturbed (max : UInt32) (s : State) : Move → Prop
  | .tick ms => ∀ k, s.key = some k → k.expired (s.now + ms) = true → k.count = 0
  | .command i reply =>
    ∀ call, s.calls[i]? = some call → CommandUndisturbed max s reply call.phase
  | _ => True

/-! ### The counter counts live permits and commands in flight -/

def Phase.admitted (max : UInt32) : Phase → ℕ
  | .holding => 1
  | .incremented v => if max.toNat < asU32 v then 0 else 1
  | _ => 0

def Phase.refused (max : UInt32) : Phase → Bool
  | .incremented v => decide (max.toNat < asU32 v)
  | .denying => true
  | .denied => true
  | _ => false

structure Balanced (max : UInt32) (s : State) : Prop where
  count : countOf s.key = s.live + s.inFlight
  admitted : total (·.phase.admitted max) s.calls ≤ max.toNat
  refused : ∀ c ∈ s.calls, c.phase.refused max = true → c.sawFull = true
  failed : ∀ c ∈ s.calls, ∀ leaked, c.phase = .failed leaked → leaked = false

@[simp] theorem countOf_incrBy (delta : Int) (key : Option Key) :
    countOf (incrBy delta key) = countOf key + delta := by
  cases key with
  | none => simp [incrBy, countOf]
  | some key => rfl

@[simp] theorem countOf_expire (now : ℕ) (key : Option Key) :
    countOf (expire now key) = countOf key := by
  cases key <;> rfl

theorem Phase.live_le_admitted (max : UInt32) (phase : Phase) : phase.live ≤ phase.admitted max := by
  cases phase <;> simp [Phase.live, Phase.admitted]

theorem Phase.admitted_le (max : UInt32) (phase : Phase) :
    phase.admitted max ≤ phase.live + phase.inFlight := by
  cases phase with
  | incremented v =>
    simp only [Phase.admitted, Phase.live, Phase.inFlight]
    split <;> omega
  | _ => simp [Phase.admitted, Phase.live, Phase.inFlight]

theorem Balanced.live_le {max : UInt32} {s : State} (h : Balanced max s) : s.live ≤ max.toNat :=
  (total_mono fun c => c.phase.live_le_admitted max).trans h.admitted

theorem total_observe (f : Phase → ℕ) (max : UInt32) (s : State) :
    total (fun c => f c.phase) (s.observe max).calls = total (fun c => f c.phase) s.calls := by
  simp only [State.observe, total, List.map_map]
  rfl

theorem Balanced.observe {max : UInt32} {s : State} (h : Balanced max s) :
    Balanced max (s.observe max) := by
  refine ⟨?_, ?_, ?_, ?_⟩
  · simp only [State.live, State.inFlight, total_observe Phase.live, total_observe Phase.inFlight]
    exact h.count
  · rw [total_observe (Phase.admitted max)]
    exact h.admitted
  · intro c hc href
    obtain ⟨c', hc', rfl⟩ := List.mem_map.mp hc
    simp only [h.refused c' hc' href, Bool.true_or]
  · intro c hc leaked hfail
    obtain ⟨c', hc', rfl⟩ := List.mem_map.mp hc
    exact h.failed c' hc' leaked hfail

/-- Moving one call keeps the balance if its own share moves with the counter. -/
theorem Balanced.set {max : UInt32} {s : State} (h : Balanced max s) {i : ℕ} {call : Call}
    (hi : s.calls[i]? = some call) (phase : Phase) (key : Option Key)
    (hcount : countOf key + (call.phase.live + call.phase.inFlight) =
      countOf s.key + (phase.live + phase.inFlight))
    (hadm : phase.admitted max ≤ call.phase.admitted max ∨
      total (·.phase.admitted max) s.calls + phase.admitted max ≤ max.toNat)
    (href : phase.refused max = true → call.sawFull = true)
    (hfail : ∀ leaked, phase = .failed leaked → leaked = false) :
    Balanced max { s with key := key, calls := s.calls.set i { call with phase := phase } } := by
  have hset := fun f : Phase → ℕ =>
    total_set (fun c : Call => f c.phase) hi { call with phase := phase }
  have hlive := hset Phase.live
  have hfly := hset Phase.inFlight
  have hadmit := hset (Phase.admitted max)
  have hold := h.count
  have hbound := h.admitted
  simp only [State.live, State.inFlight] at hold
  dsimp only at hlive hfly hadmit
  refine ⟨?_, ?_, ?_, ?_⟩
  · simp only [State.live, State.inFlight]
    omega
  · dsimp only
    omega
  · intro c hc hcref
    rcases List.mem_or_eq_of_mem_set hc with hmem | rfl
    · exact h.refused c hmem hcref
    · exact href hcref
  · intro c hc leaked hcfail
    rcases List.mem_or_eq_of_mem_set hc with hmem | rfl
    · exact h.failed c hmem leaked hcfail
    · exact hfail leaked hcfail

theorem Balanced.increment {max : UInt32} {s : State} (h : Balanced max s) {i : ℕ} {call : Call}
    (hi : s.calls[i]? = some call) (hphase : call.phase = .started)
    (hrange : countOf s.key + 1 < 4294967296)
    (hfull : max.toNat ≤ countOf s.key → max.toNat + s.inFlight ≤ countOf s.key)
    (hsaw : s.live = max.toNat → call.sawFull = true) :
    Balanced max
      { s with
        key := incrBy 1 s.key
        calls := s.calls.set i { call with phase := .incremented (countOf s.key + 1) } } := by
  have hcount := h.count
  have hcast : (asU32 (countOf s.key + 1) : Int) = countOf s.key + 1 :=
    asU32_of_range (by omega) hrange
  refine h.set hi _ _ ?_ ?_ ?_ ?_
  · simp [hphase, Phase.live, Phase.inFlight]
  · -- an admitted count is at most `max`, and it counts every admitted call
    by_cases hover : max.toNat < asU32 (countOf s.key + 1)
    · left
      simp [Phase.admitted, hover]
    · right
      have hle : total (·.phase.admitted max) s.calls ≤
          total (·.phase.live) s.calls + total (·.phase.inFlight) s.calls := by
        rw [← total_add]
        exact total_mono fun c => c.phase.admitted_le max
      have hone : (Phase.incremented (countOf s.key + 1)).admitted max = 1 := by
        simp [Phase.admitted, hover]
      simp only [State.live, State.inFlight] at hcount
      rw [hone]
      omega
  · intro href
    simp only [Phase.refused, decide_eq_true_eq] at href
    have hroom := hfull (by omega)
    exact hsaw (le_antisymm h.live_le (by omega))
  · intro leaked hfail
    cases hfail

theorem Balanced.bound {max : UInt32} {s : State} (h : Balanced max s) {i : ℕ} {call : Call}
    {v : Int} (hi : s.calls[i]? = some call) (hphase : call.phase = .incremented v) :
    Balanced max
      { s with
        key := expire s.now s.key
        calls := s.calls.set i
          { call with phase := if max.toNat < asU32 v then .denying else .holding } } := by
  have hseen := h.refused call (List.mem_of_getElem? hi)
  by_cases hover : max.toNat < asU32 v
  · rw [if_pos hover]
    refine h.set hi _ _ ?_ (.inl ?_) ?_ ?_
    · simp [hphase, Phase.live, Phase.inFlight]
    · simp [Phase.admitted]
    · intro _
      exact hseen (by simpa [hphase, Phase.refused] using hover)
    · rintro leaked ⟨⟩
  · rw [if_neg hover]
    refine h.set hi _ _ ?_ (.inl ?_) ?_ ?_
    · simp [hphase, Phase.live, Phase.inFlight]
    · simp [hphase, Phase.admitted, hover]
    · simp [Phase.refused]
    · rintro leaked ⟨⟩

/-- A `DECR` takes back the increment of a call that ends by it. -/
theorem Balanced.decrement {max : UInt32} {s : State} (h : Balanced max s) {i : ℕ} {call : Call}
    {phase : Phase} (hi : s.calls[i]? = some call)
    (hbefore : call.phase.live + call.phase.inFlight = 1) (hafter : phase.live + phase.inFlight = 0)
    (href : phase.refused max = true → call.sawFull = true)
    (hfail : ∀ leaked, phase = .failed leaked → leaked = false) :
    Balanced max
      { s with key := incrBy (-1) s.key, calls := s.calls.set i { call with phase := phase } } := by
  have hadm := phase.admitted_le max
  refine h.set hi _ _ ?_ (.inl ?_) href hfail
  · rw [countOf_incrBy]
    omega
  · omega

theorem Balanced.command {max : UInt32} {s : State} (h : Balanced max s) {i : ℕ} {call : Call}
    {reply : Reply} {phase : Phase} {key : Option Key} (hi : s.calls[i]? = some call)
    (hsaw : call.phase.running = true → s.live = max.toNat → call.sawFull = true)
    (hg : CommandUndisturbed max s reply call.phase)
    (hcmd : call.phase.command max s.now s.key reply = some (phase, key)) :
    Balanced max { s with key := key, calls := s.calls.set i { call with phase := phase } } := by
  have hseen := h.refused call (List.mem_of_getElem? hi)
  cases hphase : call.phase with
  | started =>
    rw [hphase] at hg hcmd hsaw
    cases reply with
    | ok =>
      cases hcmd
      exact h.increment hi hphase hg.1 hg.2 (hsaw rfl)
    | failed applied =>
      cases hcmd
      have hnot : applied = false := hg
      subst hnot
      refine h.set hi _ _ ?_ (.inl ?_) ?_ ?_
      · simp [hphase, Phase.live, Phase.inFlight]
      · simp [Phase.admitted]
      · simp [Phase.refused]
      · rintro leaked ⟨⟩
        rfl
  | incremented v =>
    rw [hphase] at hg hcmd
    cases reply with
    | ok =>
      cases hcmd
      exact h.bound hi hphase
    | failed applied => exact hg.elim
  | denying =>
    rw [hphase] at hg hcmd hseen
    have hone : call.phase.live + call.phase.inFlight = 1 := by rw [hphase]; rfl
    cases reply with
    | ok =>
      cases hcmd
      exact h.decrement hi hone rfl (fun _ => hseen rfl) fun leaked hfail => by cases hfail
    | failed applied =>
      cases hcmd
      have happ : applied = true := hg
      subst happ
      refine h.decrement hi hone rfl (fun href => by cases href) ?_
      rintro leaked ⟨⟩
      rfl
  | releasing =>
    rw [hphase] at hg hcmd
    have hone : call.phase.live + call.phase.inFlight = 1 := by rw [hphase]; rfl
    have hkey : key = incrBy (-1) s.key ∧ phase = .released := by
      cases reply with
      | ok =>
        cases hcmd
        exact ⟨rfl, rfl⟩
      | failed applied =>
        have happ : applied = true := hg
        subst happ
        cases hcmd
        exact ⟨rfl, rfl⟩
    rw [hkey.1, hkey.2]
    exact h.decrement hi hone rfl (fun href => by cases href) fun leaked hfail => by cases hfail
  | denied => cases reply <;> simp [hphase, Phase.command] at hcmd
  | holding => cases reply <;> simp [hphase, Phase.command] at hcmd
  | released => cases reply <;> simp [hphase, Phase.command] at hcmd
  | failed leaked => cases reply <;> simp [hphase, Phase.command] at hcmd

/-- The running calls have noted what there is to see now. -/
def Noticed (max : UInt32) (s : State) : Prop :=
  ∀ c ∈ s.calls, c.phase.running = true → s.live = max.toNat → c.sawFull = true

theorem noticed_observe (max : UInt32) (s : State) : Noticed max (s.observe max) := by
  intro c hc hrun hfull
  obtain ⟨c', hc', rfl⟩ := List.mem_map.mp hc
  have hlive : s.live = max.toNat := by
    rw [← hfull]
    exact (total_observe Phase.live max s).symm
  simp only [hrun, hlive, decide_true, Bool.and_self, Bool.or_true]

theorem Balanced.tick {max : UInt32} {s : State} (h : Balanced max s) {ms : ℕ}
    (hg : ∀ k, s.key = some k → k.expired (s.now + ms) = true → k.count = 0) :
    Balanced max
      { s with now := s.now + ms, key := s.key.filter fun k => !k.expired (s.now + ms) } := by
  refine ⟨?_, h.admitted, h.refused, h.failed⟩
  have hsame : countOf (s.key.filter fun k => !k.expired (s.now + ms)) = countOf s.key := by
    cases hkey : s.key with
    | none => rfl
    | some k =>
      by_cases hexp : k.expired (s.now + ms) = true
      · simp [Option.filter, hexp, countOf, hg k hkey hexp]
      · simp [Option.filter, hexp]
  dsimp only
  rw [hsame]
  exact h.count

theorem Balanced.move {max : UInt32} {s t : State} {m : Move} (h : Balanced max s)
    (hsaw : Noticed max s) (hg : Undisturbed max s m) (hm : s.move max m = some t) :
    Balanced max t := by
  cases m with
  | tick ms =>
    cases hm
    exact h.tick hg
  | acquire =>
    cases hm
    refine ⟨?_, ?_, ?_, ?_⟩
    · simpa [State.live, State.inFlight, Phase.live, Phase.inFlight] using h.count
    · simpa [Phase.admitted] using h.admitted
    · intro c hc href
      rcases List.mem_append.mp hc with hmem | hnew
      · exact h.refused c hmem href
      · rw [List.mem_singleton.mp hnew] at href
        cases href
    · intro c hc leaked hfail
      rcases List.mem_append.mp hc with hmem | hnew
      · exact h.failed c hmem leaked hfail
      · rw [List.mem_singleton.mp hnew] at hfail
        cases hfail
  | command i reply =>
    obtain ⟨call, hi, hrest⟩ := Option.bind_eq_some_iff.mp hm
    obtain ⟨⟨phase, key⟩, hcmd, ht⟩ := Option.bind_eq_some_iff.mp hrest
    cases ht
    exact h.command hi (hsaw call (List.mem_of_getElem? hi)) (hg call hi) hcmd
  | drop i =>
    simp only [State.move] at hm
    split at hm
    · rename_i sawFull hi
      cases hm
      refine h.set hi .releasing s.key ?_ (.inl ?_) ?_ ?_
      · simp [Phase.live, Phase.inFlight]
      · simp [Phase.admitted]
      · simp [Phase.refused]
      · rintro leaked ⟨⟩
    · cases hm

structure Accounted (max : UInt32) (s : State) : Prop where
  balanced : Balanced max s
  noticed : Noticed max s

theorem Accounted.step {max : UInt32} {s t : State} {m : Move} (h : Accounted max s)
    (hg : Undisturbed max s m) (hstep : s.step max m = some t) : Accounted max t := by
  obtain ⟨u, hu, rfl⟩ := Option.map_eq_some_iff.mp hstep
  exact ⟨(h.balanced.move h.noticed hg hu).observe, noticed_observe max u⟩

theorem accounted_init (max : UInt32) : Accounted max .init := by
  refine ⟨⟨rfl, Nat.zero_le _, ?_, ?_⟩, ?_⟩
  · intro c hc
    cases hc
  · intro c hc
    cases hc
  · intro c hc
    cases hc

/-- In every run whose steps meet the condition: at most `max` permits are live,
a call is denied only if `max` permits were live at some moment of it, and a call
that errs leaves nothing in the counter. -/
theorem redis_concurrency_sound (max : UInt32) {s : State}
    (h : Reaches (State.step max) (Undisturbed max) .init s) :
    s.live ≤ max.toNat ∧
      (∀ c ∈ s.calls, c.phase = .denied → c.sawFull = true) ∧
      ∀ c ∈ s.calls, ∀ leaked, c.phase = .failed leaked → leaked = false := by
  have hinv : Accounted max s :=
    h.invariant (accounted_init max) fun s t m hs hg hstep => hs.step hg hstep
  refine ⟨hinv.balanced.live_le, ?_, hinv.balanced.failed⟩
  intro c hc hdenied
  exact hinv.balanced.refused c hc (by rw [hdenied]; rfl)

theorem undisturbed_command {max : UInt32} {s : State} {i : ℕ} {reply : Reply} {call : Call}
    (hi : s.calls[i]? = some call) (h : CommandUndisturbed max s reply call.phase) :
    Undisturbed max s (.command i reply) := by
  intro call' hi'
  rw [hi] at hi'
  cases hi'
  exact h

theorem redis_concurrency_sound_oneSlot :
    ∃ s, Reaches (State.step 1) (Undisturbed 1) .init s ∧
      s.calls = [⟨.holding, false⟩, ⟨.denied, true⟩] ∧ s.live ≤ 1 := by
  have h₁ : Reaches (State.step 1) (Undisturbed 1) .init ⟨0, none, [⟨.started, false⟩]⟩ :=
    .next .acquire .start trivial rfl
  have h₂ : Reaches (State.step 1) (Undisturbed 1) .init
      ⟨0, some ⟨1, none⟩, [⟨.incremented 1, false⟩]⟩ :=
    .next (.command 0 .ok) h₁ (undisturbed_command rfl (⟨by decide, by decide⟩ : _ ∧ _)) rfl
  have h₃ : Reaches (State.step 1) (Undisturbed 1) .init
      ⟨0, some ⟨1, some 60000⟩, [⟨.holding, false⟩]⟩ :=
    .next (.command 0 .ok) h₂ (undisturbed_command rfl trivial) rfl
  have h₄ : Reaches (State.step 1) (Undisturbed 1) .init
      ⟨0, some ⟨1, some 60000⟩, [⟨.holding, false⟩, ⟨.started, true⟩]⟩ :=
    .next .acquire h₃ trivial rfl
  have h₅ : Reaches (State.step 1) (Undisturbed 1) .init
      ⟨0, some ⟨2, some 60000⟩, [⟨.holding, false⟩, ⟨.incremented 2, true⟩]⟩ :=
    .next (.command 1 .ok) h₄ (undisturbed_command rfl (⟨by decide, by decide⟩ : _ ∧ _)) rfl
  have h₆ : Reaches (State.step 1) (Undisturbed 1) .init
      ⟨0, some ⟨2, some 60000⟩, [⟨.holding, false⟩, ⟨.denying, true⟩]⟩ :=
    .next (.command 1 .ok) h₅ (undisturbed_command rfl trivial) rfl
  have h₇ : Reaches (State.step 1) (Undisturbed 1) .init
      ⟨0, some ⟨1, some 60000⟩, [⟨.holding, false⟩, ⟨.denied, true⟩]⟩ :=
    .next (.command 1 .ok) h₆ (undisturbed_command rfl trivial) rfl
  exact ⟨_, h₇, rfl, (redis_concurrency_sound 1 h₇).1⟩

def expiredUnderPermit : List Move :=
  [.acquire, .command 0 .ok, .command 0 .ok, .tick 60001, .acquire, .command 1 .ok, .command 1 .ok]

def deniedByRelease : List Move :=
  [.acquire, .command 0 .ok, .command 0 .ok, .drop 0, .acquire, .command 1 .ok, .command 1 .ok,
    .command 1 .ok]

def expireLost : List Move := [.acquire, .command 0 .ok, .command 0 (.failed false)]

/-- With one slot: two live permits, a denial while no permit was live, and a
failed call whose increment stays. -/
theorem redis_concurrency_unsound :
    (∃ s, Reaches (State.step 1) Always .init s ∧ s.live = 2) ∧
      (∃ s, Reaches (State.step 1) Always .init s ∧ ⟨.denied, false⟩ ∈ s.calls) ∧
      ∃ s, Reaches (State.step 1) Always .init s ∧ ⟨.failed true, false⟩ ∈ s.calls ∧
        countOf s.key = 1 ∧ s.live = 0 := by
  refine ⟨⟨_, Reaches.of_run expiredUnderPermit .start rfl, rfl⟩,
    ⟨_, Reaches.of_run deniedByRelease .start rfl, ?_⟩,
    ⟨_, Reaches.of_run expireLost .start rfl, ?_, rfl, rfl⟩⟩
  · decide
  · decide

end AiGateway.Storage.Redis
