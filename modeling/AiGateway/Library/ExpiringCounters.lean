import AiGateway.Library.Runs
import Mathlib.Algebra.BigOperators.Group.List.Basic
import Mathlib.Algebra.Order.BigOperators.Group.List
import Mathlib.Data.List.Nodup
import Mathlib.Logic.Function.Basic

/-!
# Counters that expire

A server keeps a number under each key and forgets a key whose lifetime has passed. A client
adds to a counter with one command and sets the lifetime of its key with a second one; any number
of clients do so at once, and a command may be lost before or after it took effect. Different
counters have different keys. When the additions to a counter all fall into a span of time that
is no longer than the lifetime, nothing is forgotten within the span.
-/

namespace AiGateway.Library.ExpiringCounters
open AiGateway.Library.Runs

structure Entry (M : Type) where
  value : M
  expireAt : Option ℕ

/-- A key is gone once the clock has passed its moment. -/
def Entry.alive {M : Type} (now : ℕ) (e : Entry M) : Bool := e.expireAt.all (now ≤ ·)

structure Server (η M : Type) where
  now : ℕ
  keys : η → Option (Entry M)

/-- When the additions to a counter begin and end. -/
structure Span where
  opens : ℕ
  closes : ℕ

/-- What the client gets for a command, and whether a lost command took effect. -/
inductive Reply where
  | ok
  | lost (applied : Bool)

inductive Phase (M : Type) where
  -- the addition comes next
  | started
  -- the server answered with the sum; the lifetime comes next
  | added (value : M)
  | returned (value : M)
  | failed

structure Call (κ M : Type) where
  key : κ
  delta : M
  ttl : ℕ
  phase : Phase M

/-- An addition that took effect, with the number of its call. -/
structure Addition (κ M : Type) where
  call : ℕ
  key : κ
  delta : M

structure Clients (κ η M : Type) where
  server : Server η M
  calls : List (Call κ M)
  -- what took effect, in order
  ledger : List (Addition κ M)

inductive Move (κ M : Type) where
  | tick (ms : ℕ)
  | call (key : κ) (delta : M) (ttl : ℕ)
  | command (i : ℕ) (reply : Reply)

variable {κ η M : Type} [DecidableEq κ] [DecidableEq η] [AddCommMonoid M]

def total (ledger : List (Addition κ M)) (key : κ) : M :=
  ((ledger.filter (·.key = key)).map Addition.delta).sum

namespace Server

def live (s : Server η M) (key : η) : Option (Entry M) := (s.keys key).filter (Entry.alive s.now)

def valueOf (s : Server η M) (key : η) : M := ((s.live key).map Entry.value).getD 0

def setEntry (s : Server η M) (key : η) (e : Entry M) : Server η M :=
  { s with keys := Function.update s.keys key (some e) }

/-- A missing key is created without a lifetime, a present one keeps its own. -/
def add (s : Server η M) (key : η) (delta : M) : Server η M :=
  s.setEntry key ⟨s.valueOf key + delta, (s.live key).bind Entry.expireAt⟩

def expire (s : Server η M) (key : η) (ttl : ℕ) : Server η M :=
  match s.live key with
  | some e => s.setEntry key { e with expireAt := some (s.now + ttl) }
  | none => s

end Server

section
variable (fits : M → Bool) (name : κ → η)

/-- The next command of a call; the server refuses a sum that does not fit. -/
def command (s : Server η M) (call : Call κ M) (reply : Reply) :
    Option (Phase M × Server η M × Bool) :=
  match call.phase with
  | .started =>
    let sum := s.valueOf (name call.key) + call.delta
    if fits sum then
      match reply with
      | .ok => some (.added sum, s.add (name call.key) call.delta, true)
      | .lost true => some (.failed, s.add (name call.key) call.delta, true)
      | .lost false => some (.failed, s, false)
    else some (.failed, s, false)
  | .added value =>
    match reply with
    | .ok => some (.returned value, s.expire (name call.key) call.ttl, false)
    | .lost true => some (.failed, s.expire (name call.key) call.ttl, false)
    | .lost false => some (.failed, s, false)
  | .returned _ => none
  | .failed => none

def Clients.step (s : Clients κ η M) : Move κ M → Option (Clients κ η M)
  | .tick ms => some { s with server := { s.server with now := s.server.now + ms } }
  | .call key delta ttl => some { s with calls := s.calls ++ [⟨key, delta, ttl, .started⟩] }
  | .command i reply => do
    let call ← s.calls[i]?
    let (phase, server, applied) ← command fits name s.server call reply
    some
      { server
        calls := s.calls.set i { call with phase := phase }
        ledger := if applied then s.ledger ++ [⟨i, call.key, call.delta⟩] else s.ledger }

end

def Clients.init : Clients κ η M := ⟨⟨0, fun _ => none⟩, [], []⟩

/-- An addition reaches the server within the span of its counter, and the lifetime is as long
as the span. -/
def Timely (span : κ → Span) (s : Clients κ η M) : Move κ M → Prop
  | .call key _ ttl => (span key).closes ≤ (span key).opens + ttl
  | .command i _ =>
    ∀ call, s.calls[i]? = some call → call.phase = .started →
      (span call.key).opens ≤ s.server.now ∧ s.server.now ≤ (span call.key).closes
  | _ => True

/-! ### The server -/

/-- No counter is forgotten before its span is over, and until then it holds the sum. -/
structure Server.Exact (name : κ → η) (span : κ → Span) (s : Server η M)
    (ledger : List (Addition κ M)) : Prop where
  lifetime : ∀ key e t, s.keys (name key) = some e → e.expireAt = some t → (span key).closes ≤ t
  sums : ∀ key, s.now ≤ (span key).closes → s.valueOf (name key) = total ledger key

@[simp] theorem total_nil (key : κ) : total ([] : List (Addition κ M)) key = 0 := rfl

theorem total_append (ledger later : List (Addition κ M)) (key : κ) :
    total (ledger ++ later) key = total ledger key + total later key := by
  simp [total, List.filter_append, List.sum_append]

theorem total_concat (ledger : List (Addition κ M)) (a : Addition κ M) (key : κ) :
    total (ledger ++ [a]) key = total ledger key + if a.key = key then a.delta else 0 := by
  rw [total_append]
  by_cases h : a.key = key <;> simp [total, h]

namespace Server
variable {name : κ → η} {span : κ → Span} {s : Server η M} {ledger : List (Addition κ M)}

omit [DecidableEq η] [AddCommMonoid M] in
theorem live_alive {key : η} {e : Entry M} (h : s.live key = some e) :
    s.keys key = some e ∧ e.alive s.now = true :=
  Option.filter_eq_some_iff.mp h

omit [AddCommMonoid M] in
theorem live_setEntry (s : Server η M) (key key' : η) (e : Entry M) :
    (s.setEntry key e).live key' =
      if key' = key then (if e.alive s.now then some e else none) else s.live key' := by
  unfold live setEntry
  by_cases h : key' = key
  · subst h
    simp [Option.filter_some]
  · simp [h]

theorem valueOf_setEntry_of_ne (s : Server η M) {key key' : η} (e : Entry M) (h : key' ≠ key) :
    (s.setEntry key e).valueOf key' = s.valueOf key' := by
  unfold valueOf
  rw [live_setEntry, if_neg h]

theorem valueOf_add (s : Server η M) (key : η) (delta : M) :
    (s.add key delta).valueOf key = s.valueOf key + delta := by
  have halive : (⟨s.valueOf key + delta, (s.live key).bind Entry.expireAt⟩ : Entry M).alive
      s.now = true := by
    cases h : s.live key with
    | none => rfl
    | some e => exact (live_alive h).2
  unfold add
  rw [valueOf, live_setEntry, if_pos rfl, if_pos halive]
  rfl

theorem valueOf_expire (s : Server η M) (key : η) (ttl : ℕ) (key' : η) :
    (s.expire key ttl).valueOf key' = s.valueOf key' := by
  unfold expire
  split
  · rename_i e he
    by_cases h : key' = key
    · subst h
      simp [valueOf, live_setEntry, he, Entry.alive]
    · exact valueOf_setEntry_of_ne s _ h
  · rfl

@[simp] theorem now_add (s : Server η M) (key : η) (delta : M) : (s.add key delta).now = s.now :=
  rfl

omit [AddCommMonoid M] in
@[simp] theorem now_expire (s : Server η M) (key : η) (ttl : ℕ) :
    (s.expire key ttl).now = s.now := by
  unfold expire
  split <;> rfl

theorem Exact.setEntry_lifetime (h : s.Exact name span ledger) (hname : Function.Injective name)
    {key : κ} {e : Entry M} (he : ∀ t, e.expireAt = some t → (span key).closes ≤ t) (key' : κ)
    (e' : Entry M) (t : ℕ) (hkey : (s.setEntry (name key) e).keys (name key') = some e')
    (ht : e'.expireAt = some t) : (span key').closes ≤ t := by
  unfold Server.setEntry at hkey
  by_cases hk : key' = key
  · subst hk
    simp only [Function.update_self, Option.some.injEq] at hkey
    exact he t (hkey ▸ ht)
  · simp only [Function.update_of_ne (hname.ne hk)] at hkey
    exact h.lifetime key' e' t hkey ht

omit [DecidableEq η] in
theorem Exact.tick (h : s.Exact name span ledger) (ms : ℕ) :
    ({ s with now := s.now + ms } : Server η M).Exact name span ledger := by
  refine ⟨h.lifetime, ?_⟩
  intro key hnow
  dsimp only at hnow
  rw [← h.sums key (by omega)]
  have hlive : ({ s with now := s.now + ms } : Server η M).live (name key) =
      s.live (name key) := by
    unfold live
    cases hkey : s.keys (name key) with
    | none => rfl
    | some e =>
      have halive : ∀ now ≤ (span key).closes, e.alive now = true := by
        intro now hle
        unfold Entry.alive
        cases ht : e.expireAt with
        | none => rfl
        | some t =>
          have := h.lifetime key e t hkey ht
          simp only [Option.all_some, decide_eq_true_eq]
          omega
      rw [Option.filter_some, Option.filter_some, halive _ hnow, halive _ (by omega)]
  unfold valueOf
  rw [hlive]

theorem Exact.add (h : s.Exact name span ledger) (hname : Function.Injective name) {key : κ}
    (hnow : s.now ≤ (span key).closes) (i : ℕ) (delta : M) :
    (s.add (name key) delta).Exact name span (ledger ++ [⟨i, key, delta⟩]) := by
  refine ⟨h.setEntry_lifetime hname ?_, ?_⟩
  · intro t ht
    obtain ⟨e, he, het⟩ := Option.bind_eq_some_iff.mp ht
    exact h.lifetime key e t (live_alive he).1 het
  · intro key' hnow'
    rw [total_concat]
    by_cases hk : key' = key
    · subst hk
      rw [valueOf_add, h.sums key' hnow, if_pos rfl]
    · rw [if_neg (Ne.symm hk), add_zero, ← h.sums key' hnow']
      exact valueOf_setEntry_of_ne s _ (hname.ne hk)

theorem Exact.expire (h : s.Exact name span ledger) (hname : Function.Injective name) {key : κ}
    {ttl : ℕ} (hlong : (span key).closes ≤ s.now + ttl) :
    (s.expire (name key) ttl).Exact name span ledger := by
  refine ⟨?_, ?_⟩
  · unfold Server.expire
    split
    · refine h.setEntry_lifetime hname ?_
      intro t ht
      cases ht
      exact hlong
    · exact h.lifetime
  · intro key' hnow
    rw [now_expire] at hnow
    rw [valueOf_expire]
    exact h.sums key' hnow

end Server

/-! ### The clients -/

/-- The call's addition stands in the ledger, and `value` is the sum behind it. -/
def AddedAs (ledger : List (Addition κ M)) (i : ℕ) (call : Call κ M) (value : M) : Prop :=
  ∃ before after, ledger = before ++ ⟨i, call.key, call.delta⟩ :: after ∧
    value = total before call.key + call.delta

def Phase.Holds (opens now : ℕ) (ledger : List (Addition κ M)) (i : ℕ) (call : Call κ M) :
    Phase M → Prop
  | .started => ∀ a ∈ ledger, a.call ≠ i
  | .added value => opens ≤ now ∧ AddedAs ledger i call value
  | .returned value => AddedAs ledger i call value
  | .failed => True

structure Clients.Exact (fits : M → Bool) (name : κ → η) (span : κ → Span) (s : Clients κ η M) :
    Prop where
  server : s.server.Exact name span s.ledger
  calls : ∀ i (call : Call κ M), s.calls[i]? = some call →
    call.phase.Holds (span call.key).opens s.server.now s.ledger i call
  long : ∀ call ∈ s.calls, (span call.key).closes ≤ (span call.key).opens + call.ttl
  sums : ∀ before, before <+: s.ledger → ∀ key, fits (total before key) = true
  once : (s.ledger.map Addition.call).Nodup
  known : ∀ a ∈ s.ledger, ∃ call, s.calls[a.call]? = some call ∧ call.key = a.key ∧
    call.delta = a.delta

theorem AddedAs.concat {ledger : List (Addition κ M)} {i : ℕ} {call : Call κ M} {value : M}
    (h : AddedAs ledger i call value) (a : Addition κ M) :
    AddedAs (ledger ++ [a]) i call value := by
  obtain ⟨before, after, hledger, hvalue⟩ := h
  exact ⟨before, after ++ [a], by simp [hledger], hvalue⟩

theorem Phase.Holds.mono {opens now now' : ℕ} {ledger : List (Addition κ M)} {i : ℕ}
    {call : Call κ M} {phase : Phase M} (h : phase.Holds opens now ledger i call)
    (hnow : now ≤ now') : phase.Holds opens now' ledger i call := by
  cases phase with
  | added value => exact ⟨Nat.le_trans h.1 hnow, h.2⟩
  | _ => exact h

theorem Phase.Holds.concat {opens now : ℕ} {ledger : List (Addition κ M)} {i : ℕ}
    {call : Call κ M} {phase : Phase M} (h : phase.Holds opens now ledger i call)
    {a : Addition κ M} (ha : a.call ≠ i) : phase.Holds opens now (ledger ++ [a]) i call := by
  cases phase with
  | started =>
    intro b hb
    rcases List.mem_append.mp hb with hb | hb
    · exact h b hb
    · rw [List.mem_singleton.mp hb]
      exact ha
  | added value => exact ⟨h.1, h.2.concat a⟩
  | returned value => exact AddedAs.concat h a
  | failed => trivial

section
variable {fits : M → Bool} {name : κ → η} {span : κ → Span} {s t : Clients κ η M}

/-- What a command does: it adds, or it sets a lifetime, or nothing. -/
inductive CommandDoes (fits : M → Bool) (name : κ → η) (s : Server η M) (call : Call κ M) :
    Phase M → Server η M → Bool → Prop where
  | added (hphase : call.phase = .started)
      (hfits : fits (s.valueOf (name call.key) + call.delta) = true) :
      CommandDoes fits name s call (.added (s.valueOf (name call.key) + call.delta))
        (s.add (name call.key) call.delta) true
  | addedUnseen (hphase : call.phase = .started)
      (hfits : fits (s.valueOf (name call.key) + call.delta) = true) :
      CommandDoes fits name s call .failed (s.add (name call.key) call.delta) true
  | returned (value : M) (hphase : call.phase = .added value) :
      CommandDoes fits name s call (.returned value) (s.expire (name call.key) call.ttl) false
  | expiredUnseen (value : M) (hphase : call.phase = .added value) :
      CommandDoes fits name s call .failed (s.expire (name call.key) call.ttl) false
  | nothing : CommandDoes fits name s call .failed s false

omit [DecidableEq κ] in
theorem command_does {s server : Server η M} {call : Call κ M} {reply : Reply} {phase : Phase M}
    {applied : Bool} (h : command fits name s call reply = some (phase, server, applied)) :
    CommandDoes fits name s call phase server applied := by
  unfold command at h
  split at h
  · rename_i hphase
    simp only at h
    split at h
    · rename_i hfits
      split at h <;> cases h
      · exact .added hphase hfits
      · exact .addedUnseen hphase hfits
      · exact .nothing
    · cases h
      exact .nothing
  · rename_i value hphase
    split at h <;> cases h
    · exact .returned value hphase
    · exact .expiredUnseen value hphase
    · exact .nothing
  · cases h
  · cases h

omit [DecidableEq η] in
theorem Clients.Exact.long_set (h : s.Exact fits name span) {i : ℕ} {call : Call κ M}
    (hi : s.calls[i]? = some call) (phase : Phase M) :
    ∀ call' ∈ s.calls.set i { call with phase := phase },
      (span call'.key).closes ≤ (span call'.key).opens + call'.ttl := by
  intro call' hcall'
  rcases List.mem_or_eq_of_mem_set hcall' with hmem | rfl
  · exact h.long call' hmem
  · exact h.long call (List.mem_of_getElem? hi)

omit [DecidableEq η] in
/-- A command that adds nothing. -/
theorem Clients.Exact.quiet (h : s.Exact fits name span) {i : ℕ} {call : Call κ M}
    (hi : s.calls[i]? = some call) {server : Server η M} {phase : Phase M}
    (hserver : server.Exact name span s.ledger) (hnow : server.now = s.server.now)
    (hphase : phase.Holds (span call.key).opens s.server.now s.ledger i call) :
    ({ s with server, calls := s.calls.set i { call with phase := phase } } :
      Clients κ η M).Exact fits name span := by
  have hlt := (List.getElem?_eq_some_iff.mp hi).1
  refine ⟨hserver, ?_, h.long_set hi phase, h.sums, h.once, ?_⟩
  · intro j call' hj
    dsimp only at hj ⊢
    rw [hnow]
    by_cases hij : i = j
    · subst hij
      rw [List.getElem?_set_self hlt] at hj
      cases hj
      exact hphase
    · rw [List.getElem?_set_ne hij] at hj
      exact h.calls j call' hj
  · intro a ha
    obtain ⟨call', hcall', hkey, hdelta⟩ := h.known a ha
    dsimp only
    by_cases hij : i = a.call
    · rw [hij] at hi hlt
      rw [hi] at hcall'
      cases hcall'
      refine ⟨{ call with phase := phase }, ?_, hkey, hdelta⟩
      rw [hij]
      exact List.getElem?_set_self hlt
    · exact ⟨call', by rw [List.getElem?_set_ne hij]; exact hcall', hkey, hdelta⟩

/-- A command that adds. -/
theorem Clients.Exact.applied (h : s.Exact fits name span) (hname : Function.Injective name)
    {i : ℕ} {call : Call κ M} (hi : s.calls[i]? = some call) (hstarted : call.phase = .started)
    {phase : Phase M}
    (hfits : fits (s.server.valueOf (name call.key) + call.delta) = true)
    (hopens : (span call.key).opens ≤ s.server.now)
    (hcloses : s.server.now ≤ (span call.key).closes)
    (hphase : phase = .added (s.server.valueOf (name call.key) + call.delta) ∨ phase = .failed) :
    (⟨s.server.add (name call.key) call.delta, s.calls.set i { call with phase := phase },
      s.ledger ++ [⟨i, call.key, call.delta⟩]⟩ : Clients κ η M).Exact fits name span := by
  have hlt := (List.getElem?_eq_some_iff.mp hi).1
  have hfresh : ∀ a ∈ s.ledger, a.call ≠ i := by
    have hholds := h.calls i call hi
    rw [hstarted] at hholds
    exact hholds
  refine ⟨h.server.add hname hcloses i call.delta, ?_, h.long_set hi phase, ?_, ?_, ?_⟩
  · intro j call' hj
    dsimp only at hj ⊢
    by_cases hij : i = j
    · subst hij
      rw [List.getElem?_set_self hlt] at hj
      cases hj
      rcases hphase with rfl | rfl
      · refine ⟨hopens, s.ledger, [], rfl, ?_⟩
        rw [h.server.sums call.key hcloses]
      · trivial
    · rw [List.getElem?_set_ne hij] at hj
      exact (h.calls j call' hj).concat hij
  · intro before hbefore key
    rcases List.prefix_concat_iff.mp hbefore with rfl | hold
    · rw [total_concat]
      split
      · rename_i hkey
        rw [← hkey, ← h.server.sums call.key hcloses]
        exact hfits
      · rw [add_zero]
        exact h.sums s.ledger List.prefix_rfl key
    · exact h.sums before hold key
  · rw [List.map_append, List.nodup_append']
    refine ⟨h.once, by simp, ?_⟩
    intro c hc hnew
    obtain ⟨a, ha, rfl⟩ := List.mem_map.mp hc
    exact hfresh a ha (by simpa using hnew)
  · intro a ha
    dsimp only at ha ⊢
    rcases List.mem_append.mp ha with ha | ha
    · obtain ⟨call', hcall', hkey⟩ := h.known a ha
      exact ⟨call', by rw [List.getElem?_set_ne (Ne.symm (hfresh a ha))]; exact hcall', hkey⟩
    · rw [List.mem_singleton.mp ha]
      exact ⟨_, List.getElem?_set_self hlt, rfl, rfl⟩

omit [DecidableEq η] in
theorem Clients.Exact.call (h : s.Exact fits name span) {key : κ} {ttl : ℕ}
    (hlong : (span key).closes ≤ (span key).opens + ttl) (delta : M) :
    ({ s with calls := s.calls ++ [⟨key, delta, ttl, .started⟩] } : Clients κ η M).Exact fits name
      span := by
  have hold : ∀ a ∈ s.ledger, a.call < s.calls.length := by
    intro a ha
    obtain ⟨call, hcall, -⟩ := h.known a ha
    exact (List.getElem?_eq_some_iff.mp hcall).1
  refine ⟨h.server, ?_, ?_, h.sums, h.once, ?_⟩
  · intro i call hi
    rcases Nat.lt_or_ge i s.calls.length with hlt | hge
    · rw [List.getElem?_append_left hlt] at hi
      exact h.calls i call hi
    · rw [List.getElem?_append_right hge] at hi
      obtain ⟨hzero, hcall⟩ := List.getElem?_eq_some_iff.mp hi
      simp only [List.getElem_singleton] at hcall
      subst hcall
      intro a ha
      have := hold a ha
      omega
  · intro call hcall
    rcases List.mem_append.mp hcall with hmem | hnew
    · exact h.long call hmem
    · rw [List.mem_singleton.mp hnew]
      exact hlong
  · intro a ha
    obtain ⟨call, hcall, hrest⟩ := h.known a ha
    exact ⟨call, by rw [List.getElem?_append_left (hold a ha)]; exact hcall, hrest⟩

omit [DecidableEq η] in
theorem Clients.Exact.tick (h : s.Exact fits name span) (ms : ℕ) :
    ({ s with server := { s.server with now := s.server.now + ms } } : Clients κ η M).Exact fits
      name span := by
  refine ⟨h.server.tick ms, ?_, h.long, h.sums, h.once, h.known⟩
  intro i call hi
  exact (h.calls i call hi).mono (Nat.le_add_right _ _)

theorem Clients.Exact.step (h : s.Exact fits name span) (hname : Function.Injective name)
    {m : Move κ M} (htimely : Timely span s m)
    (hstep : s.step fits name m = some t) : t.Exact fits name span := by
  cases m with
  | tick ms =>
    cases hstep
    exact h.tick ms
  | call key delta ttl =>
    cases hstep
    exact h.call htimely delta
  | command i reply =>
    simp only [Clients.step, Option.bind_eq_bind, Option.bind_eq_some_iff, Prod.exists] at hstep
    obtain ⟨call, hi, phase, server, applied, hcommand, ht⟩ := hstep
    cases ht
    cases command_does hcommand with
    | added hphase hfits =>
      obtain ⟨hopens, hcloses⟩ := htimely call hi hphase
      exact h.applied hname hi hphase hfits hopens hcloses (.inl rfl)
    | addedUnseen hphase hfits =>
      obtain ⟨hopens, hcloses⟩ := htimely call hi hphase
      exact h.applied hname hi hphase hfits hopens hcloses (.inr rfl)
    | returned value hphase =>
      have hholds := h.calls i call hi
      rw [hphase] at hholds
      have hspan := h.long call (List.mem_of_getElem? hi)
      refine h.quiet hi (h.server.expire hname ?_) (Server.now_expire ..) hholds.2
      have hopens := hholds.1
      omega
    | expiredUnseen value hphase =>
      have hholds := h.calls i call hi
      rw [hphase] at hholds
      have hspan := h.long call (List.mem_of_getElem? hi)
      refine h.quiet hi (h.server.expire hname ?_) (Server.now_expire ..) trivial
      have hopens := hholds.1
      omega
    | nothing => exact h.quiet hi h.server rfl trivial

omit [DecidableEq η] in
theorem Clients.Exact.init (hzero : fits 0 = true) :
    (Clients.init : Clients κ η M).Exact fits name span := by
  refine ⟨⟨?_, ?_⟩, ?_, ?_, ?_, List.nodup_nil, ?_⟩
  · rintro key e t ⟨⟩
  · intro key hnow
    rfl
  · intro i call hi
    cases hi
  · intro call hcall
    cases hcall
  · intro before hbefore key
    rw [List.prefix_nil.mp hbefore]
    exact hzero
  · intro a ha
    cases ha

/-- In every run whose additions come in time, the server holds the sums until the spans are
over, and every call was answered with the sum behind its addition. -/
theorem Clients.Exact.of_reaches (hzero : fits 0 = true) (hname : Function.Injective name)
    (hr : Reaches (Clients.step fits name) (Timely span) Clients.init s) :
    s.Exact fits name span :=
  hr.invariant (.init hzero) fun _ _ _ hinv hguard hstep => hinv.step hname hguard hstep

omit [DecidableEq κ] in
/-- A step leaves a call its key and amount, and what it has returned. -/
theorem Clients.step_kept {m : Move κ M} (hstep : s.step fits name m = some t) {i : ℕ}
    {call : Call κ M} (hi : s.calls[i]? = some call) :
    ∃ phase, t.calls[i]? = some { call with phase := phase } ∧
      ∀ value, call.phase = .returned value → phase = .returned value := by
  have hlt := (List.getElem?_eq_some_iff.mp hi).1
  cases m with
  | tick ms =>
    cases hstep
    exact ⟨call.phase, hi, fun _ h => h⟩
  | call key delta ttl =>
    cases hstep
    refine ⟨call.phase, ?_, fun _ h => h⟩
    simp only [List.getElem?_append_left hlt]
    exact hi
  | command j reply =>
    simp only [Clients.step, Option.bind_eq_bind, Option.bind_eq_some_iff, Prod.exists] at hstep
    obtain ⟨call', hj, phase, server, applied, hcommand, ht⟩ := hstep
    cases ht
    by_cases hij : j = i
    · subst hij
      rw [hi] at hj
      cases hj
      refine ⟨phase, by simp [hlt], ?_⟩
      intro value hvalue
      simp [command, hvalue] at hcommand
    · exact ⟨call.phase, by simp [List.getElem?_set_ne hij, hi], fun _ h => h⟩

omit [DecidableEq κ] in
/-- No addition is taken back, and the clock does not go back. -/
theorem Clients.step_grows {m : Move κ M} (hstep : s.step fits name m = some t) :
    s.ledger <+: t.ledger ∧ s.server.now ≤ t.server.now := by
  cases m with
  | tick ms =>
    cases hstep
    exact ⟨List.prefix_rfl, Nat.le_add_right _ _⟩
  | call key delta ttl =>
    cases hstep
    exact ⟨List.prefix_rfl, le_rfl⟩
  | command i reply =>
    simp only [Clients.step, Option.bind_eq_bind, Option.bind_eq_some_iff, Prod.exists] at hstep
    obtain ⟨call, hi, phase, server, applied, hcommand, ht⟩ := hstep
    cases ht
    refine ⟨?_, ?_⟩
    · dsimp only
      split
      · exact List.prefix_append ..
      · exact List.prefix_rfl
    · cases command_does hcommand <;> simp

omit [DecidableEq η] in
theorem total_nonneg [PartialOrder M] [IsOrderedAddMonoid M] {ledger : List (Addition κ M)} {key : κ}
    (h : ∀ a ∈ ledger, a.key = key → 0 ≤ a.delta) : 0 ≤ total ledger key := by
  refine List.sum_nonneg ?_
  intro x hx
  obtain ⟨a, ha, rfl⟩ := List.mem_map.mp hx
  obtain ⟨hmem, hkey⟩ := List.mem_filter.mp ha
  exact h a hmem (by simpa using hkey)

/-- Of two additions to one key, one answer counts the other addition. -/
theorem AddedAs.compare {ledger : List (Addition κ M)} {i j : ℕ} {call call' : Call κ M}
    {value value' : M} (h : AddedAs ledger i call value) (h' : AddedAs ledger j call' value')
    (hne : i ≠ j) (hkey : call.key = call'.key) :
    (∃ between ⊆ ledger, value' = value + total between call.key + call'.delta) ∨
      ∃ between ⊆ ledger, value = value' + total between call.key + call.delta := by
  obtain ⟨before, after, hledger, hvalue⟩ := h
  obtain ⟨before', after', hledger', hvalue'⟩ := h'
  rw [hledger] at hledger'
  rcases List.append_eq_append_iff.mp hledger' with ⟨mid, hbefore', hrest⟩ | ⟨mid, hbefore, hrest⟩
  · left
    cases mid with
    | nil =>
      have hsame := (List.cons.inj hrest).1
      exact absurd (congrArg Addition.call hsame) hne
    | cons a between =>
      obtain ⟨ha, hafter⟩ := List.cons.inj hrest
      refine ⟨between, ?_, ?_⟩
      · intro b hb
        rw [hledger, hafter]
        simp [hb]
      · rw [hvalue', hvalue, hbefore', ← ha, total_append, ← hkey]
        simp [total, add_assoc]
  · right
    cases mid with
    | nil =>
      have hsame := (List.cons.inj hrest).1
      exact absurd (congrArg Addition.call hsame).symm hne
    | cons a between =>
      obtain ⟨ha, hafter⟩ := List.cons.inj hrest
      refine ⟨between, ?_, ?_⟩
      · intro b hb
        rw [hledger, hbefore]
        simp [hb]
      · rw [hvalue', hvalue, hbefore, ← ha, total_append, hkey]
        simp [total, add_assoc]

end

end AiGateway.Library.ExpiringCounters
