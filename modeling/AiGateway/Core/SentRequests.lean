import AiGateway.Core.Executor
import Mathlib.Data.List.Basic

/-!
# What the attempts send (`gateway-core/src/proxy/executor.rs:44-64`)

Every round of the retry loop clones the template, sets the provider of the entry in the clone and
hands it to `forward`; the trace of the round is written from the entry. `chainRequests` is the
list of these requests, in the order in which they are made.
-/

namespace AiGateway.Core

/-- One round: the entry and the request that `forward` gets. -/
structure SentRequest where
  entry : ProviderChainEntry
  request : ForwardRequest

section
variable (forward : Forward) (template : ForwardRequest)

def entryRequests (entry : ProviderChainEntry) : ℕ → ℕ → List SentRequest
  | 0, _ => [⟨entry, { template with provider := entry.provider }⟩]
  | left + 1, n =>
    let request := { template with provider := entry.provider }
    if (attemptOutcome (forward n request).1).isFinal then [⟨entry, request⟩]
    else ⟨entry, request⟩ :: entryRequests entry left (n + 1)

def requestLoop (maxAttempts : UInt32) :
    ℕ → List ProviderChainEntry → ChainState → List SentRequest
  | _, [], _ => []
  | idx, entry :: rest, st =>
    match st.enter idx entry with
    | none => []
    | some st =>
      let sent := entryRequests forward template entry (maxAttempts.toNat - 1) st.attempts.length
      match tryEntry forward template entry (maxAttempts.toNat - 1) st.attempts.length with
      | (.final _, _) => sent
      | (.exhausted outcome result, traces) =>
        sent ++ requestLoop maxAttempts (idx + 1) rest (st.exhaust outcome result traces)

def chainRequests (chain : ProviderChain) : List SentRequest :=
  requestLoop forward template chain.retry.maxAttempts 0 chain.entries {}

/-- The trace of the `n`-th round: the names are those of the entry, the rest is what came of the
request. -/
def traceOf (n : ℕ) (s : SentRequest) : AttemptTrace :=
  ⟨s.entry.provider, s.entry.modelOverride, resultStatus (forward n s.request).1,
    outcomeLabel (attemptOutcome (forward n s.request).1), (forward n s.request).2⟩

theorem entryRequests_sent {entry : ProviderChainEntry} {left n : ℕ} {s : SentRequest}
    (h : s ∈ entryRequests forward template entry left n) :
    s = ⟨entry, { template with provider := entry.provider }⟩ := by
  induction left generalizing n with
  | zero => exact List.mem_singleton.mp h
  | succ left ih =>
    rw [entryRequests] at h
    split at h
    · exact List.mem_singleton.mp h
    · rcases List.mem_cons.mp h with hfirst | hlater
      · exact hfirst
      · exact ih hlater

theorem tryEntry_traces (entry : ProviderChainEntry) (left n : ℕ) :
    (tryEntry forward template entry left n).2 =
      (entryRequests forward template entry left n).mapIdx fun i s => traceOf forward (n + i) s := by
  induction left generalizing n with
  | zero =>
    rw [tryEntry]
    split <;> rfl
  | succ left ih =>
    rw [tryEntry, entryRequests]
    split
    · rfl
    · have hindex : (fun i s => traceOf forward (n + (i + 1)) s) =
          fun i s => traceOf forward (n + 1 + i) s := by
        funext i s
        rw [Nat.add_comm i 1, Nat.add_assoc]
      rw [List.mapIdx_cons, hindex, ← ih (n + 1)]
      rfl

theorem enter_attempts {st st' : ChainState} {idx : ℕ} {entry : ProviderChainEntry}
    (h : st.enter idx entry = some st') : st'.attempts = st.attempts := by
  unfold ChainState.enter at h
  split at h
  · split at h
    · cases h
    · split at h
      · cases h
        rfl
      · cases h
  · cases h
    rfl

theorem exhaust_attempts_eq (st : ChainState) (outcome : AttemptOutcome) (result : ForwardResult)
    (traces : List AttemptTrace) :
    (st.exhaust outcome result traces).attempts = st.attempts ++ traces := by
  unfold ChainState.exhaust
  cases result <;> rfl

theorem chainLoop_traces (maxAttempts : UInt32) (idx : ℕ) (entries : List ProviderChainEntry)
    (st : ChainState) :
    (chainLoop forward template maxAttempts idx entries st).attempts =
      st.attempts ++ (requestLoop forward template maxAttempts idx entries st).mapIdx
        fun i s => traceOf forward (st.attempts.length + i) s := by
  induction entries generalizing idx st with
  | nil => exact (List.append_nil _).symm
  | cons entry rest ih =>
    rw [chainLoop, requestLoop]
    cases henter : st.enter idx entry with
    | none => exact (List.append_nil _).symm
    | some st' =>
      have hattempts := enter_attempts henter
      have htraces := tryEntry_traces forward template entry (maxAttempts.toNat - 1)
        st'.attempts.length
      simp only
      rcases hend : tryEntry forward template entry (maxAttempts.toNat - 1)
        st'.attempts.length with ⟨ending, traces⟩
      rw [hend] at htraces
      simp only at htraces
      cases ending with
      | final result =>
        simp only
        rw [htraces, hattempts]
      | exhausted outcome result =>
        simp only
        rw [ih, exhaust_attempts_eq, htraces, hattempts, List.mapIdx_append, List.append_assoc]
        congr 3
        funext i s
        rw [List.length_append, List.length_mapIdx, Nat.add_assoc, Nat.add_comm i]

/-- The trace of a chain lists what came of the requests that were made. -/
theorem executeChain_traces (chain : ProviderChain) :
    (executeChain forward template chain).attempts =
      (chainRequests forward template chain).mapIdx fun n s => traceOf forward n s := by
  have hloop := chainLoop_traces forward template chain.retry.maxAttempts 0 chain.entries {}
  simp only [List.length_nil, Nat.zero_add, List.nil_append] at hloop
  exact hloop

theorem requestLoop_sent {maxAttempts : UInt32} {idx : ℕ} {entries : List ProviderChainEntry}
    {st : ChainState} {s : SentRequest}
    (h : s ∈ requestLoop forward template maxAttempts idx entries st) :
    s.entry ∈ entries ∧ s.request = { template with provider := s.entry.provider } := by
  induction entries generalizing idx st with
  | nil => cases h
  | cons entry rest ih =>
    rw [requestLoop] at h
    split at h
    · cases h
    · rename_i st' _
      have hown : s ∈ entryRequests forward template entry (maxAttempts.toNat - 1)
          st'.attempts.length →
          s.entry ∈ entry :: rest ∧ s.request = { template with provider := s.entry.provider } := by
        intro hs
        rw [entryRequests_sent forward template hs]
        exact ⟨List.mem_cons_self .., rfl⟩
      simp only at h
      split at h
      · exact hown h
      · rcases List.mem_append.mp h with hs | hlater
        · exact hown hs
        · obtain ⟨hmem, hrequest⟩ := ih hlater
          exact ⟨List.mem_cons_of_mem _ hmem, hrequest⟩

theorem chainRequests_sent {chain : ProviderChain} {s : SentRequest}
    (h : s ∈ chainRequests forward template chain) :
    s.entry ∈ chain.entries ∧ s.request = { template with provider := s.entry.provider } :=
  requestLoop_sent forward template h

theorem forall₂_mapIdx {α β : Type*} {R : α → β → Prop} {l : List α} {f : ℕ → α → β}
    (h : ∀ i, ∀ a ∈ l, R a (f i a)) : List.Forall₂ R l (l.mapIdx f) := by
  induction l generalizing f with
  | nil => exact .nil
  | cons a l ih =>
    rw [List.mapIdx_cons]
    exact .cons (h 0 a (List.mem_cons_self ..))
      (ih fun i b hb => h (i + 1) b (List.mem_cons_of_mem _ hb))

end

/-! ### The model that is requested and the model that is logged -/

section
variable (fromSlice : Bytes → Option Value)

/-- The fields of the JSON object that a request carries. -/
def ForwardRequest.jsonFields (r : ForwardRequest) : Option (List (String × Value)) :=
  (r.body.bind fromSlice).bind Value.asObject

/-- An object with its `model` rewritten and nothing else. -/
structure ModelRewritten (m : String) (fields fields' : List (String × Value)) : Prop where
  model : fields'.lookup "model" = some (.string m)
  rest : ∀ key, key ≠ "model" → fields'.lookup key = fields.lookup key

/-- The trace of an attempt tells what was sent, where the client sent `body` with these
fields. -/
structure Tells (body : Bytes) (fields : List (String × Value)) (s : SentRequest)
    (trace : AttemptTrace) : Prop where
  rewritten : ∀ m, s.entry.modelOverride = some m →
    ∃ sent, s.request.jsonFields fromSlice = some sent ∧ ModelRewritten m fields sent
  kept : s.entry.modelOverride = none → s.request.body = some body
  provider : trace.provider = s.request.provider
  model : ∀ m, trace.model = some m →
    ∃ sent, s.request.jsonFields fromSlice = some sent ∧ sent.lookup "model" = some (.string m)

theorem tells_traceOf_iff {forward : Forward} {template : ForwardRequest} {body : Bytes}
    {fields : List (String × Value)} (hbody : template.body = some body)
    (hfields : fromSlice body = some (.object fields)) {s : SentRequest}
    (hs : s.request = { template with provider := s.entry.provider }) (n : ℕ) :
    Tells fromSlice body fields s (traceOf forward n s) ↔
      ∀ m, s.entry.modelOverride = some m → fields.lookup "model" = some (.string m) := by
  have hsent : s.request.jsonFields fromSlice = some fields := by
    rw [ForwardRequest.jsonFields, hs]
    simp only [hbody, Option.bind_some, hfields, Value.asObject]
  constructor
  · intro h m hm
    obtain ⟨sent, hjson, hmodel⟩ := h.model m hm
    rw [hsent, Option.some_inj] at hjson
    rw [hjson]
    exact hmodel
  · intro h
    exact
      { rewritten := fun m hm => ⟨fields, hsent, h m hm, fun _ _ => rfl⟩
        kept := fun _ => by rw [hs, ← hbody]
        provider := by rw [hs, traceOf]
        model := fun m hm => ⟨fields, hsent, h m hm⟩ }

/-- The body goes out as it came: the trace of an attempt is right just where the client named
the model of the override itself. -/
theorem chain_tells_iff (forward : Forward) {template : ForwardRequest} {body : Bytes}
    {fields : List (String × Value)} (hbody : template.body = some body)
    (hfields : fromSlice body = some (.object fields)) (chain : ProviderChain) :
    List.Forall₂
      (fun s trace => Tells fromSlice body fields s trace ↔
        ∀ m, s.entry.modelOverride = some m → fields.lookup "model" = some (.string m))
      (chainRequests forward template chain) (executeChain forward template chain).attempts := by
  rw [executeChain_traces]
  apply forall₂_mapIdx
  intro n s hs
  exact tells_traceOf_iff fromSlice hbody hfields (chainRequests_sent forward template hs).2 n

end

def miniBody : Bytes := asBytes "\x7b\"model\":\"mini\"\x7d"

def miniFields : List (String × Value) := [("model", .string "mini")]

def miniFromSlice (bytes : Bytes) : Option Value :=
  if bytes = miniBody then some (.object miniFields) else none

def miniTemplate : ForwardRequest := ⟨"mini", "/v1/chat/completions", none, "POST", [], some miniBody⟩

def miniChain : ProviderChain :=
  .fromRoute ⟨"openai", some "gpt-4o-mini", []⟩ [⟨"backup", none, []⟩] ⟨1, 500⟩

def timingOut : Forward := fun _ _ => (.error .upstreamTimeout, 7)

theorem chain_tells_iff_mini :
    List.Forall₂
      (fun s trace => Tells miniFromSlice miniBody miniFields s trace ↔
        ∀ m, s.entry.modelOverride = some m → miniFields.lookup "model" = some (.string m))
      (chainRequests timingOut miniTemplate miniChain)
      (executeChain timingOut miniTemplate miniChain).attempts :=
  chain_tells_iff miniFromSlice timingOut rfl (if_pos rfl) miniChain

/-- The client asks for `mini`, the route says `gpt-4o-mini`, and `mini` is what the provider
gets. -/
theorem mini_trace_wrong :
    ¬List.Forall₂ (Tells miniFromSlice miniBody miniFields)
      (chainRequests timingOut miniTemplate miniChain)
      (executeChain timingOut miniTemplate miniChain).attempts := by
  intro h
  have hfirst := (List.forall₂_cons.mp h).1
  obtain ⟨sent, hjson, hmodel⟩ := hfirst.model "gpt-4o-mini" rfl
  have hsent : some miniFields = some sent := Eq.trans (by rfl) hjson
  rw [← Option.some.inj hsent] at hmodel
  have hname : "mini" = "gpt-4o-mini" := Value.string.inj (Option.some.inj hmodel)
  exact absurd hname (by decide)

end AiGateway.Core
