import AiGateway.Core.Executor

/-!
# What `execute_chain` returns, against its last attempt

The trace, the fallback name and the returned result are kept in separate
variables and merged after the loop. `LastAttemptResult` says that they speak of
one and the same `forward` call; `chainEnds` lists how the entries of a chain
end, as a function of the upstream alone.
-/

namespace AiGateway.Core

section LastAttempt
variable (forward : Forward) (template : ForwardRequest)

/-- The last recorded attempt was made at the reported provider, and its
`forward` call yielded `result`. -/
def TracedCall (primary : ProviderChainEntry) (attempts : List AttemptTrace)
    (fallbackUsed : Option String) (result : ForwardResult) : Prop :=
  ∃ last, attempts.getLast? = some last ∧
    last.provider = fallbackUsed.getD primary.provider ∧ last.status = resultStatus result ∧
    (forward (attempts.length - 1) { template with provider := last.provider }).1 = result

def LastAttemptResult (primary : ProviderChainEntry) (res : ChainResult) : Prop :=
  TracedCall forward template primary res.attempts res.fallbackUsed res.response

/-- How the entries that get tried end, in order: the walk of the chain without
the bookkeeping of the executor. -/
def chainEnds (maxAttempts : UInt32) :
    List ProviderChainEntry → Option AttemptOutcome → ℕ → List EntryEnd
  | [], _, _ => []
  | entry :: rest, prev, n =>
    if prev.all fun o => matchesFallbackTrigger o entry.trigger then
      match tryEntry forward template entry (maxAttempts.toNat - 1) n with
      | (.final result, _) => [.final result]
      | (.exhausted outcome result, traces) =>
        .exhausted outcome result ::
          chainEnds maxAttempts rest (some outcome) (n + traces.length)
    else []

/-- The last entry tried uses up its attempts on an error although an earlier
one had used up its attempts on an upstream response. -/
def ErrorAfterResponse (ends : List EntryEnd) : Prop :=
  ∃ pre outcome e, ends = pre ++ [.exhausted outcome (.error e)] ∧
    ∃ outcome' r, EntryEnd.exhausted outcome' (.ok r) ∈ pre

theorem tryEntry_last (entry : ProviderChainEntry) (left n : ℕ) :
    ∃ last, (tryEntry forward template entry left n).2.getLast? = some last ∧
      last.provider = entry.provider ∧
      last.status = resultStatus (tryEntry forward template entry left n).1.result ∧
      (forward (n + (tryEntry forward template entry left n).2.length - 1)
        { template with provider := entry.provider }).1 =
        (tryEntry forward template entry left n).1.result := by
  induction left generalizing n with
  | zero =>
    rw [tryEntry]
    split <;>
      exact ⟨attemptTrace forward template entry n, rfl, rfl, rfl, by simp [EntryEnd.result]⟩
  | succ left ih =>
    rw [tryEntry]
    split
    · exact ⟨attemptTrace forward template entry n, rfl, rfl, rfl, by simp [EntryEnd.result]⟩
    · obtain ⟨last, hlast, hprov, hstatus, hcall⟩ := ih (n + 1)
      refine ⟨last, ?_, hprov, hstatus, ?_⟩
      · simp only [List.getLast?_cons, hlast, Option.getD_some]
      · have hlen : n + 1 + (tryEntry forward template entry left (n + 1)).2.length - 1 =
            n + ((tryEntry forward template entry left (n + 1)).2.length + 1) - 1 := by omega
        rw [hlen] at hcall
        simpa only [List.length_cons] using hcall

theorem tracedCall_append (primary entry : ProviderChainEntry) (attempts : List AttemptTrace)
    (fallbackUsed : Option String) (left : ℕ)
    (hprov : entry.provider = fallbackUsed.getD primary.provider) :
    TracedCall forward template primary
      (attempts ++ (tryEntry forward template entry left attempts.length).2) fallbackUsed
      (tryEntry forward template entry left attempts.length).1.result := by
  obtain ⟨last, hlast, hp, hstatus, hcall⟩ := tryEntry_last forward template entry left attempts.length
  refine ⟨last, ?_, hp.trans hprov, hstatus, ?_⟩
  · rw [List.getLast?_append, hlast]
    rfl
  · rw [List.length_append, hp]
    exact hcall

theorem TracedCall.result_eq {primary : ProviderChainEntry} {attempts : List AttemptTrace}
    {fallbackUsed : Option String} {a b : ForwardResult}
    (ha : TracedCall forward template primary attempts fallbackUsed a)
    (hb : TracedCall forward template primary attempts fallbackUsed b) : a = b := by
  obtain ⟨la, hla, -, -, ha⟩ := ha
  obtain ⟨lb, hlb, -, -, hb⟩ := hb
  have hl : la = lb := Option.some.inj (hla.symm.trans hlb)
  subst hl
  exact ha.symm.trans hb

/-- The executor's variables after the entries that ended as in `ends`, the last
of them with `outcome` and `result`. -/
structure Walked (primary : ProviderChainEntry) (st : ChainState) (ends : List EntryEnd)
    (outcome : AttemptOutcome) (result : ForwardResult) : Prop where
  ends_eq : ∃ pre, ends = pre ++ [.exhausted outcome result]
  traced : TracedCall forward template primary st.attempts st.fallbackUsed result
  lastOutcome : st.lastOutcome = some outcome
  lastResponse : ∀ r, result = .ok r → st.lastResponse = some r
  lastError : ∀ e, result = .error e → st.lastError = some e
  noResponse : st.lastResponse = none ↔ ∀ o r, EntryEnd.exhausted o (.ok r) ∉ ends

theorem Walked.finish_iff {primary : ProviderChainEntry} {st : ChainState} {ends : List EntryEnd}
    {outcome : AttemptOutcome} {result : ForwardResult}
    (hw : Walked forward template primary st ends outcome result) :
    LastAttemptResult forward template primary st.finish ↔ ¬ErrorAfterResponse ends := by
  obtain ⟨pre, hends⟩ := hw.ends_eq
  cases result with
  | ok r =>
    have hr : st.finish.response = .ok r := by simp [ChainState.finish, hw.lastResponse r rfl]
    refine iff_of_true ?_ ?_
    · show TracedCall forward template primary st.attempts st.fallbackUsed st.finish.response
      rw [hr]
      exact hw.traced
    · rintro ⟨pre', o, e, hends', -⟩
      have hlast := List.append_inj' (hends.symm.trans hends') rfl
      simp at hlast
  | error e =>
    cases hresp : st.lastResponse with
    | none =>
      have hr : st.finish.response = .error e := by
        simp [ChainState.finish, hresp, hw.lastError e rfl]
      refine iff_of_true ?_ ?_
      · show TracedCall forward template primary st.attempts st.fallbackUsed st.finish.response
        rw [hr]
        exact hw.traced
      · rintro ⟨pre', o, e', hends', o', r, hmem⟩
        refine hw.noResponse.mp hresp o' r ?_
        rw [hends']
        exact List.mem_append_left _ hmem
    | some r =>
      -- the stale response wins the merge, while the last attempt failed
      have hr : st.finish.response = .ok r := by simp [ChainState.finish, hresp]
      refine iff_of_false ?_ (not_not_intro ?_)
      · intro h
        have h' : TracedCall forward template primary st.attempts st.fallbackUsed (.ok r) := hr ▸ h
        exact nomatch TracedCall.result_eq forward template h' hw.traced
      · have hex : ¬∀ o r, EntryEnd.exhausted o (.ok r) ∉ ends :=
          fun hn => by simp [hw.noResponse.mpr hn] at hresp
        push Not at hex
        obtain ⟨o', r', hmem⟩ := hex
        refine ⟨pre, outcome, e, hends, o', r', ?_⟩
        rw [hends] at hmem
        simpa using hmem

theorem Walked.exhaust {primary entry : ProviderChainEntry} {st : ChainState}
    {ends : List EntryEnd} {outcome : AttemptOutcome} {result : ForwardResult}
    {traces : List AttemptTrace} {left : ℕ}
    (hresp : st.lastResponse = none ↔ ∀ o r, EntryEnd.exhausted o (.ok r) ∉ ends)
    (hprov : entry.provider = st.fallbackUsed.getD primary.provider)
    (htry : tryEntry forward template entry left st.attempts.length =
      (.exhausted outcome result, traces)) :
    Walked forward template primary (st.exhaust outcome result traces)
      (ends ++ [.exhausted outcome result]) outcome result := by
  have htr := tracedCall_append forward template primary entry st.attempts st.fallbackUsed left hprov
  rw [htry] at htr
  cases result with
  | ok r =>
    refine ⟨⟨ends, rfl⟩, htr, rfl, ?_, ?_, ?_⟩
    · intro r' h
      cases h
      rfl
    · intro e h
      cases h
    · refine iff_of_false (fun h => nomatch h) fun h => ?_
      exact h outcome r (List.mem_append_right _ (List.mem_cons_self ..))
  | error e =>
    refine ⟨⟨ends, rfl⟩, htr, rfl, ?_, ?_, ?_⟩
    · intro r h
      cases h
    · intro e' h
      cases h
      rfl
    · simpa [ChainState.exhaust] using hresp

theorem ChainState.enter_succ (st : ChainState) (idx : ℕ) (entry : ProviderChainEntry)
    {outcome : AttemptOutcome} (h : st.lastOutcome = some outcome) :
    st.enter (idx + 1) entry =
      if matchesFallbackTrigger outcome entry.trigger then
        some { st with fallbackUsed := some entry.provider }
      else none := by
  simp [ChainState.enter, h]

theorem chainLoop_iff (primary : ProviderChainEntry) (maxAttempts : UInt32)
    (rest : List ProviderChainEntry) (idx : ℕ) (st : ChainState) (ends : List EntryEnd)
    (outcome : AttemptOutcome) (result : ForwardResult)
    (hw : Walked forward template primary st ends outcome result) :
    LastAttemptResult forward template primary
        (chainLoop forward template maxAttempts (idx + 1) rest st) ↔
      ¬ErrorAfterResponse
        (ends ++ chainEnds forward template maxAttempts rest (some outcome) st.attempts.length) := by
  -- induction along the remaining entries; `Walked` is the loop invariant
  induction rest generalizing idx st ends outcome result with
  | nil => simpa [chainLoop, chainEnds] using hw.finish_iff
  | cons entry rest ih =>
    rw [chainLoop, ChainState.enter_succ st idx entry hw.lastOutcome, chainEnds]
    by_cases ht : matchesFallbackTrigger outcome entry.trigger
    · simp only [ht, if_true, Option.all_some]
      cases htry : tryEntry forward template entry (maxAttempts.toNat - 1) st.attempts.length with
      | mk ending traces =>
        cases ending with
        | final res =>
          simp only
          refine iff_of_true ?_ ?_
          · have htr := tracedCall_append forward template primary entry st.attempts
              (some entry.provider) (maxAttempts.toNat - 1) rfl
            rw [htry] at htr
            exact htr
          · rintro ⟨pre, o, e, hends, -⟩
            have hlast := List.append_inj' hends rfl
            simp at hlast
        | exhausted o res =>
          have hw' : Walked forward template primary
              ({ st with fallbackUsed := some entry.provider }.exhaust o res traces)
              (ends ++ [.exhausted o res]) o res :=
            Walked.exhaust forward template hw.noResponse rfl htry
          have hlen : ({ st with fallbackUsed := some entry.provider }.exhaust o res
              traces).attempts.length = st.attempts.length + traces.length := by
            cases res <;> simp [ChainState.exhaust]
          simp only
          rw [ih (idx + 1) _ _ o res hw', hlen, List.append_assoc]
          rfl
    · simpa [ht] using hw.finish_iff

/-- A chain run reports the result of its last attempt exactly when no entry that
ended on a response is followed by a last entry that ends on an error. -/
theorem executeChain_lastAttempt_iff (primary : ProviderChainEntry)
    (fallbacks : List ProviderChainEntry) (retry : RouteRetryConfig) :
    LastAttemptResult forward template primary
        (executeChain forward template ⟨primary :: fallbacks, retry⟩) ↔
      ¬ErrorAfterResponse
        (chainEnds forward template retry.maxAttempts (primary :: fallbacks) none 0) := by
  rw [executeChain, chainLoop, chainEnds]
  simp only [ChainState.enter, Nat.lt_irrefl, if_false, Option.all_none, if_true, List.length_nil]
  cases htry : tryEntry forward template primary (retry.maxAttempts.toNat - 1) 0 with
  | mk ending traces =>
    cases ending with
    | final res =>
      refine iff_of_true ?_ ?_
      · have htr := tracedCall_append forward template primary primary [] none
          (retry.maxAttempts.toNat - 1) rfl
        simp only [List.length_nil, htry] at htr
        exact htr
      · rintro ⟨pre, o, e, hends, -⟩
        have hlast := List.append_inj' (show [] ++ [_] = _ from hends) rfl
        simp at hlast
    | exhausted o res =>
      have hw : Walked forward template primary (({} : ChainState).exhaust o res traces)
          ([] ++ [.exhausted o res]) o res :=
        Walked.exhaust forward template (by simp) rfl htry
      have hiff := chainLoop_iff forward template primary retry.maxAttempts fallbacks 0 _ _ o res hw
      have hlen : (({} : ChainState).exhaust o res traces).attempts.length = 0 + traces.length := by
        cases res <;> simp [ChainState.exhaust]
      rw [hlen] at hiff
      simpa using hiff

end LastAttempt

/- A primary that answers 503 and a fallback that times out: the 503 of the
primary is returned, labelled with the provider of the fallback. -/
def primaryUnavailable : Forward := fun n _ =>
  if n = 0 then (.ok ⟨503, [], 0, 0, []⟩, 0) else (.error .upstreamTimeout, 0)

def emptyTemplate : ForwardRequest := ⟨"chat", "/chat/completions", none, "POST", [], none⟩

theorem executeChain_stale_response :
    (executeChain primaryUnavailable emptyTemplate
      ⟨[⟨"openai", none, []⟩, ⟨"backup", none, []⟩], { maxAttempts := 1 }⟩).fallbackUsed =
        some "backup" ∧
    ¬LastAttemptResult primaryUnavailable emptyTemplate ⟨"openai", none, []⟩
      (executeChain primaryUnavailable emptyTemplate
        ⟨[⟨"openai", none, []⟩, ⟨"backup", none, []⟩], { maxAttempts := 1 }⟩) := by
  refine ⟨rfl, ?_⟩
  rintro ⟨last, -, -, -, hcall⟩
  cases hcall

end AiGateway.Core
