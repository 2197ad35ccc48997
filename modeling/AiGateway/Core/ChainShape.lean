import AiGateway.Core.LastAttempt

/-!
# The shape of a chain execution (`proxy/executor.rs:19-103`)

The attempts of a run are blocks, one for each entry that is tried, in the order of the
chain. `BlocksFrom` says what the blocks of the entries from some point on look like;
`attemptLoop` is the retry loop with its `u32` counter, run with a bound on its rounds.
-/

namespace AiGateway.Core

def AttemptOutcome.isRetryable : AttemptOutcome → Bool
  | .retryableStatus _ | .retryableNetwork | .timeout => true
  | _ => false

theorem AttemptOutcome.isRetryable_eq (o : AttemptOutcome) : o.isRetryable = !o.isFinal := by
  cases o <;> rfl

theorem AttemptOutcome.isFinal_iff (o : AttemptOutcome) :
    o.isFinal = true ↔ o = .success ∨ ∃ s, o = .nonRetryable s := by
  cases o <;> simp [AttemptOutcome.isFinal]

/-- The attempts at one entry: `len` calls of `forward`, of which the first has number `start`. -/
structure AttemptBlock where
  entry : ProviderChainEntry
  start : ℕ
  len : ℕ

section Shape
variable (forward : Forward) (template : ForwardRequest)

namespace AttemptBlock

def outcome (b : AttemptBlock) (j : ℕ) : AttemptOutcome :=
  attemptOutcome (forward (b.start + j) { template with provider := b.entry.provider }).1

/-- The outcome with which the entry ends. -/
def lastOutcome (b : AttemptBlock) : AttemptOutcome := b.outcome forward template (b.len - 1)

def traces (b : AttemptBlock) : List AttemptTrace :=
  (List.range b.len).map fun j => attemptTrace forward template b.entry (b.start + j)

theorem traces_length (b : AttemptBlock) : (b.traces forward template).length = b.len := by
  simp [traces]

end AttemptBlock

/-- Most attempts at one entry. The loop body runs before the bound is looked at. -/
def attemptLimit (maxAttempts : UInt32) : ℕ := max 1 maxAttempts.toNat

/-! ### One entry -/

def entryBlock (maxAttempts : UInt32) (entry : ProviderChainEntry) (n : ℕ) : AttemptBlock :=
  ⟨entry, n, (tryEntry forward template entry (maxAttempts.toNat - 1) n).2.length⟩

/-- What the retry loop of an entry leaves, with `left` attempts after the first. -/
structure TriedEntry (b : AttemptBlock) (left : ℕ) (out : EntryEnd × List AttemptTrace) :
    Prop where
  traces : out.2 = b.traces forward template
  pos : 0 < b.len
  le : b.len ≤ left + 1
  retried : ∀ j, j + 1 < b.len → (b.outcome forward template j).isRetryable = true
  final : ∀ r, out.1 = .final r → (b.lastOutcome forward template).isFinal = true
  exhausted : ∀ o r, out.1 = .exhausted o r →
    b.lastOutcome forward template = o ∧ o.isRetryable = true ∧ b.len = left + 1

theorem TriedEntry.single (entry : ProviderChainEntry) (left n : ℕ) (ending : EntryEnd)
    (hfinal : ∀ r, ending = .final r →
      (attemptOutcome (forward n { template with provider := entry.provider }).1).isFinal = true)
    (hexhausted : ∀ o r, ending = .exhausted o r →
      attemptOutcome (forward n { template with provider := entry.provider }).1 = o ∧
        o.isRetryable = true ∧ 1 = left + 1) :
    TriedEntry forward template ⟨entry, n, 1⟩ left
      (ending, [attemptTrace forward template entry n]) where
  traces := rfl
  pos := Nat.one_pos
  le := Nat.le_add_left 1 left
  retried := fun j hj => absurd hj (by simp)
  final := hfinal
  exhausted := hexhausted

theorem TriedEntry.cons {entry : ProviderChainEntry} {left n len : ℕ}
    {out : EntryEnd × List AttemptTrace}
    (hretry : (attemptOutcome
      (forward n { template with provider := entry.provider }).1).isRetryable = true)
    (h : TriedEntry forward template ⟨entry, n + 1, len⟩ left out) :
    TriedEntry forward template ⟨entry, n, len + 1⟩ (left + 1)
      (out.1, attemptTrace forward template entry n :: out.2) := by
  have hpos : 0 < len := h.pos
  have houtcome : ∀ j, (⟨entry, n, len + 1⟩ : AttemptBlock).outcome forward template (j + 1) =
      (⟨entry, n + 1, len⟩ : AttemptBlock).outcome forward template j := by
    intro j
    simp only [AttemptBlock.outcome, Nat.add_assoc, Nat.add_comm 1 j]
  have hlast : (⟨entry, n, len + 1⟩ : AttemptBlock).lastOutcome forward template =
      (⟨entry, n + 1, len⟩ : AttemptBlock).lastOutcome forward template := by
    have hlen : len + 1 - 1 = len - 1 + 1 := by omega
    show AttemptBlock.outcome forward template _ (len + 1 - 1) = _
    rw [hlen, houtcome]
    rfl
  refine ⟨?_, Nat.succ_pos len, Nat.succ_le_succ h.le, ?_, ?_, ?_⟩
  · simp only [h.traces, AttemptBlock.traces, List.range_succ_eq_map, List.map_cons, List.map_map,
      Nat.add_zero, Function.comp_def, Nat.succ_eq_add_one, Nat.add_assoc, Nat.add_comm 1]
  · intro j hj
    cases j with
    | zero => exact hretry
    | succ j =>
      rw [houtcome]
      exact h.retried j (Nat.lt_of_succ_lt_succ hj)
  · intro r hr
    rw [hlast]
    exact h.final r hr
  · intro o r hr
    obtain ⟨ho, hret, hlen⟩ := h.exhausted o r hr
    rw [hlast]
    exact ⟨ho, hret, congrArg (· + 1) hlen⟩

/-- An entry that did not end with a final outcome has used up its attempts. -/
theorem TriedEntry.full {b : AttemptBlock} {left : ℕ} {out : EntryEnd × List AttemptTrace}
    (h : TriedEntry forward template b left out)
    (hfinal : (b.lastOutcome forward template).isFinal = false) :
    b.len = left + 1 ∧ (b.lastOutcome forward template).isRetryable = true := by
  cases hout : out.1 with
  | final r =>
    rw [h.final r hout] at hfinal
    cases hfinal
  | exhausted o r =>
    obtain ⟨ho, hret, hlen⟩ := h.exhausted o r hout
    rw [ho]
    exact ⟨hlen, hret⟩

theorem tryEntry_tried (entry : ProviderChainEntry) (left n : ℕ) :
    TriedEntry forward template ⟨entry, n, (tryEntry forward template entry left n).2.length⟩ left
      (tryEntry forward template entry left n) := by
  induction left generalizing n with
  | zero =>
    rw [tryEntry]
    split
    · rename_i hfinal
      exact TriedEntry.single forward template entry 0 n _ (fun r _ => hfinal)
        fun o r h => by cases h
    · rename_i hfinal
      refine TriedEntry.single forward template entry 0 n _ (fun r h => by cases h)
        fun o r h => ?_
      cases h
      exact ⟨rfl, by simpa [AttemptOutcome.isRetryable_eq] using hfinal, rfl⟩
  | succ left ih =>
    rw [tryEntry]
    split
    · rename_i hfinal
      exact TriedEntry.single forward template entry (left + 1) n _ (fun r _ => hfinal)
        fun o r h => by cases h
    · rename_i hfinal
      exact TriedEntry.cons forward template
        (by simpa [AttemptOutcome.isRetryable_eq] using hfinal) (ih (n + 1))

theorem entryBlock_tried (maxAttempts : UInt32) (entry : ProviderChainEntry) (n : ℕ) :
    TriedEntry forward template (entryBlock forward template maxAttempts entry n)
      (maxAttempts.toNat - 1) (tryEntry forward template entry (maxAttempts.toNat - 1) n) :=
  tryEntry_tried forward template entry (maxAttempts.toNat - 1) n

theorem attemptLimit_eq (maxAttempts : UInt32) :
    maxAttempts.toNat - 1 + 1 = attemptLimit maxAttempts := by
  unfold attemptLimit
  omega

/-! ### The entries of a chain -/

/-- The blocks of the entries that get tried, from the entry after outcome `prev` on. -/
def blocksFrom (maxAttempts : UInt32) :
    List ProviderChainEntry → Option AttemptOutcome → ℕ → List AttemptBlock
  | [], _, _ => []
  | entry :: rest, prev, n =>
    if prev.all fun o => matchesFallbackTrigger o entry.trigger then
      let b := entryBlock forward template maxAttempts entry n
      let o := b.lastOutcome forward template
      b :: if o.isFinal then [] else blocksFrom maxAttempts rest (some o) (n + b.len)
    else []

def chainBlocks (chain : ProviderChain) : List AttemptBlock :=
  blocksFrom forward template chain.retry.maxAttempts chain.entries none 0

/-- `blocks` is what trying `entries` in order leaves, when `n` calls were made before. -/
structure BlocksFrom (maxAttempts : UInt32) (entries : List ProviderChainEntry) (n : ℕ)
    (blocks : List AttemptBlock) : Prop where
  inOrder : blocks.map AttemptBlock.entry <+: entries
  start : ∀ i b, blocks[i]? = some b →
    b.start = n + ((blocks.take i).flatMap (AttemptBlock.traces forward template)).length
  length : ∀ b ∈ blocks, 0 < b.len ∧ b.len ≤ attemptLimit maxAttempts
  retried : ∀ b ∈ blocks, ∀ j, j + 1 < b.len → (b.outcome forward template j).isRetryable = true
  earlier : ∀ i b b', blocks[i]? = some b → blocks[i + 1]? = some b' →
    b.len = attemptLimit maxAttempts ∧ (b.lastOutcome forward template).isRetryable = true ∧
      matchesFallbackTrigger (b.lastOutcome forward template) b'.entry.trigger = true
  last : ∀ b, blocks.getLast? = some b →
    b.lastOutcome forward template = .success ∨
    (∃ s, b.lastOutcome forward template = .nonRetryable s) ∨
    (b.lastOutcome forward template).isRetryable = true ∧ b.len = attemptLimit maxAttempts ∧
      ∀ next, entries[blocks.length]? = some next →
        matchesFallbackTrigger (b.lastOutcome forward template) next.trigger = false

theorem BlocksFrom.nil (maxAttempts : UInt32) (entries : List ProviderChainEntry) (n : ℕ) :
    BlocksFrom forward template maxAttempts entries n [] where
  inOrder := List.nil_prefix
  start := nofun
  length := nofun
  retried := nofun
  earlier := nofun
  last := nofun

/-- One more entry in front: it ends the chain, or its attempts are used up and the next
block, if there is one, is that of an entry whose trigger matches. -/
theorem BlocksFrom.cons {maxAttempts : UInt32} {entry : ProviderChainEntry}
    {rest : List ProviderChainEntry} {n : ℕ} {blocks : List AttemptBlock}
    (hrest : BlocksFrom forward template maxAttempts rest
      (n + (entryBlock forward template maxAttempts entry n).len) blocks)
    (hlink : ∀ b', blocks.head? = some b' →
      ((entryBlock forward template maxAttempts entry n).lastOutcome forward template).isFinal =
        false ∧
      matchesFallbackTrigger
        ((entryBlock forward template maxAttempts entry n).lastOutcome forward template)
        b'.entry.trigger = true)
    (hend : blocks = [] →
      ((entryBlock forward template maxAttempts entry n).lastOutcome forward template).isFinal =
        true ∨
      ∀ next, rest.head? = some next → matchesFallbackTrigger
        ((entryBlock forward template maxAttempts entry n).lastOutcome forward template)
        next.trigger = false) :
    BlocksFrom forward template maxAttempts (entry :: rest) n
      (entryBlock forward template maxAttempts entry n :: blocks) := by
  have htried := entryBlock_tried forward template maxAttempts entry n
  generalize hb : entryBlock forward template maxAttempts entry n = b at hrest hlink hend htried ⊢
  have hentry : b.entry = entry := by rw [← hb]; rfl
  have hstart : b.start = n := by rw [← hb]; rfl
  have hfull : (b.lastOutcome forward template).isFinal = false →
      b.len = attemptLimit maxAttempts ∧ (b.lastOutcome forward template).isRetryable = true := by
    intro hfinal
    rw [← attemptLimit_eq]
    exact htried.full forward template hfinal
  refine ⟨?_, ?_, ?_, ?_, ?_, ?_⟩
  · rw [List.map_cons, hentry, List.cons_prefix_cons]
    exact ⟨rfl, hrest.inOrder⟩
  · intro i b₁ hb₁
    cases i with
    | zero =>
      cases hb₁
      exact hstart
    | succ i =>
      rw [hrest.start i b₁ hb₁, List.take_succ_cons, List.flatMap_cons, List.length_append,
        AttemptBlock.traces_length, Nat.add_assoc]
  · intro b₁ hb₁
    rcases List.mem_cons.mp hb₁ with rfl | htail
    · rw [← attemptLimit_eq]
      exact ⟨htried.pos, htried.le⟩
    · exact hrest.length b₁ htail
  · intro b₁ hb₁
    rcases List.mem_cons.mp hb₁ with rfl | htail
    · exact htried.retried
    · exact hrest.retried b₁ htail
  · intro i b₁ b₂ hb₁ hb₂
    cases i with
    | zero =>
      cases hb₁
      obtain ⟨hfinal, hmatch⟩ := hlink b₂ (by rw [List.head?_eq_getElem?]; exact hb₂)
      exact ⟨(hfull hfinal).1, (hfull hfinal).2, hmatch⟩
    | succ i => exact hrest.earlier i b₁ b₂ hb₁ hb₂
  · intro b₁ hb₁
    cases blocks with
    | cons b' tail =>
      rw [List.getLast?_cons_cons] at hb₁
      exact hrest.last b₁ hb₁
    | nil =>
      cases hb₁
      cases hfinal : (b.lastOutcome forward template).isFinal with
      | true =>
        rcases (AttemptOutcome.isFinal_iff _).mp hfinal with hs | hs
        · exact Or.inl hs
        · exact Or.inr (Or.inl hs)
      | false =>
        refine Or.inr (Or.inr ⟨(hfull hfinal).2, (hfull hfinal).1, fun next hnext => ?_⟩)
        rcases hend rfl with htrue | hnone
        · rw [hfinal] at htrue
          cases htrue
        · exact hnone next (by rw [List.head?_eq_getElem?]; exact hnext)

theorem blocksFrom_head (maxAttempts : UInt32) (entries : List ProviderChainEntry)
    (o : AttemptOutcome) (n : ℕ) (b : AttemptBlock)
    (h : (blocksFrom forward template maxAttempts entries (some o) n).head? = some b) :
    matchesFallbackTrigger o b.entry.trigger = true := by
  cases entries with
  | nil => cases h
  | cons entry rest =>
    rw [blocksFrom] at h
    split at h
    · rename_i hmatch
      cases h
      exact hmatch
    · cases h

theorem blocksFrom_nil (maxAttempts : UInt32) (entries : List ProviderChainEntry)
    (o : AttemptOutcome) (n : ℕ)
    (h : blocksFrom forward template maxAttempts entries (some o) n = []) :
    ∀ next, entries.head? = some next → matchesFallbackTrigger o next.trigger = false := by
  intro next hnext
  cases entries with
  | nil => cases hnext
  | cons entry rest =>
    cases hnext
    rw [blocksFrom] at h
    split at h
    · cases h
    · rename_i hmatch
      simpa using hmatch

theorem blocksFrom_shape (maxAttempts : UInt32) (entries : List ProviderChainEntry)
    (prev : Option AttemptOutcome) (n : ℕ) :
    BlocksFrom forward template maxAttempts entries n
      (blocksFrom forward template maxAttempts entries prev n) := by
  induction entries generalizing prev n with
  | nil => exact BlocksFrom.nil forward template maxAttempts [] n
  | cons entry rest ih =>
    rw [blocksFrom]
    split
    · cases hfinal : ((entryBlock forward template maxAttempts entry n).lastOutcome forward
          template).isFinal with
      | true =>
        simp only [hfinal, if_true]
        exact BlocksFrom.cons forward template (BlocksFrom.nil ..) nofun fun _ => Or.inl hfinal
      | false =>
        simp only [hfinal, Bool.false_eq_true, if_false]
        refine BlocksFrom.cons forward template (ih _ _) ?_ ?_
        · intro b' hb'
          exact ⟨hfinal, blocksFrom_head forward template maxAttempts rest _ _ b' hb'⟩
        · intro hnil
          exact Or.inr (blocksFrom_nil forward template maxAttempts rest _ _ hnil)
    · exact BlocksFrom.nil forward template maxAttempts (entry :: rest) n

/-! ### The executor leaves these blocks -/

theorem ChainState.exhaust_attempts (st : ChainState) (outcome : AttemptOutcome)
    (result : ForwardResult) (traces : List AttemptTrace) :
    (st.exhaust outcome result traces).attempts = st.attempts ++ traces ∧
      (st.exhaust outcome result traces).fallbackUsed = st.fallbackUsed ∧
      (st.exhaust outcome result traces).lastOutcome = some outcome := by
  cases result <;> exact ⟨rfl, rfl, rfl⟩

/-- An entry that is entered in state `st`, and what is left of the chain after it. -/
theorem tryEntry_split (maxAttempts : UInt32) (entry : ProviderChainEntry) (n : ℕ) :
    ∃ traces, traces = (entryBlock forward template maxAttempts entry n).traces forward template ∧
      ((∃ result, tryEntry forward template entry (maxAttempts.toNat - 1) n =
          (.final result, traces) ∧
        ((entryBlock forward template maxAttempts entry n).lastOutcome forward template).isFinal =
          true) ∨
      ∃ result, tryEntry forward template entry (maxAttempts.toNat - 1) n =
          (.exhausted ((entryBlock forward template maxAttempts entry n).lastOutcome forward
            template) result, traces) ∧
        ((entryBlock forward template maxAttempts entry n).lastOutcome forward template).isFinal =
          false) := by
  have htried := entryBlock_tried forward template maxAttempts entry n
  generalize entryBlock forward template maxAttempts entry n = b at htried ⊢
  cases hout : tryEntry forward template entry (maxAttempts.toNat - 1) n with
  | mk ending traces =>
    rw [hout] at htried
    refine ⟨traces, htried.traces, ?_⟩
    cases ending with
    | final result => exact Or.inl ⟨result, rfl, htried.final result rfl⟩
    | exhausted o result =>
      obtain ⟨ho, hret, -⟩ := htried.exhausted o result rfl
      subst ho
      refine Or.inr ⟨result, rfl, ?_⟩
      simpa [AttemptOutcome.isRetryable_eq] using hret

theorem chainLoop_blocks (maxAttempts : UInt32) (rest : List ProviderChainEntry) (idx : ℕ)
    (st : ChainState) (outcome : AttemptOutcome) (hst : st.lastOutcome = some outcome) :
    (chainLoop forward template maxAttempts (idx + 1) rest st).attempts = st.attempts ++
        (blocksFrom forward template maxAttempts rest (some outcome) st.attempts.length).flatMap
          (AttemptBlock.traces forward template) ∧
      (chainLoop forward template maxAttempts (idx + 1) rest st).fallbackUsed =
        ((blocksFrom forward template maxAttempts rest (some outcome)
          st.attempts.length).getLast?.map fun b => b.entry.provider).or st.fallbackUsed := by
  -- induction along the remaining entries
  induction rest generalizing idx st outcome with
  | nil => exact ⟨(List.append_nil st.attempts).symm, rfl⟩
  | cons entry rest ih =>
    rw [chainLoop, ChainState.enter_succ st idx entry hst, blocksFrom]
    by_cases hmatch : matchesFallbackTrigger outcome entry.trigger = true
    · simp only [hmatch, if_true, Option.all_some]
      obtain ⟨traces, htraces, ⟨result, hout, hfinal⟩ | ⟨result, hout, hfinal⟩⟩ :=
        tryEntry_split forward template maxAttempts entry st.attempts.length
      · simp only [hout, hfinal, if_true]
        exact ⟨by simp [htraces], rfl⟩
      · simp only [hout, hfinal, Bool.false_eq_true, if_false]
        obtain ⟨hattempts, hfallback, hlast⟩ := ChainState.exhaust_attempts
          { st with fallbackUsed := some entry.provider }
          ((entryBlock forward template maxAttempts entry st.attempts.length).lastOutcome forward
            template) result traces
        obtain ⟨hih, hihFallback⟩ := ih (idx + 1) _ _ hlast
        have hlen : (st.attempts ++ traces).length = st.attempts.length +
            (entryBlock forward template maxAttempts entry st.attempts.length).len := by
          rw [List.length_append, htraces, AttemptBlock.traces_length]
        rw [hattempts] at hih hihFallback
        simp only at hih hihFallback
        rw [hlen] at hih hihFallback
        constructor
        · rw [hih, List.flatMap_cons, htraces, List.append_assoc]
        · rw [hihFallback, hfallback]
          generalize blocksFrom forward template maxAttempts rest _ _ = blocks
          cases blocks with
          | nil => rfl
          | cons b' tail =>
            rw [List.getLast?_cons_cons]
            obtain ⟨b, hb⟩ : ∃ b, (b' :: tail).getLast? = some b :=
              ⟨_, List.getLast?_eq_some_getLast (List.cons_ne_nil b' tail)⟩
            rw [hb]
            rfl
    · simp only [hmatch, if_false, Option.all_some, Bool.false_eq_true]
      exact ⟨(List.append_nil st.attempts).symm, rfl⟩

/-- The blocks of a run of `chain` that returned `res`. -/
structure ChainShape (chain : ProviderChain) (res : ChainResult) (blocks : List AttemptBlock) :
    Prop extends BlocksFrom forward template chain.retry.maxAttempts chain.entries 0 blocks where
  tried : blocks = [] → chain.entries = []
  attempts : res.attempts = blocks.flatMap (AttemptBlock.traces forward template)
  fallbackUsed : ∀ provider, res.fallbackUsed = some provider ↔
    1 < blocks.length ∧ ∃ b, blocks.getLast? = some b ∧ b.entry.provider = provider

theorem executeChain_blocks (chain : ProviderChain) :
    (executeChain forward template chain).attempts =
        (chainBlocks forward template chain).flatMap (AttemptBlock.traces forward template) ∧
      (executeChain forward template chain).fallbackUsed =
        (chainBlocks forward template chain).tail.getLast?.map fun b => b.entry.provider := by
  obtain ⟨entries, retry⟩ := chain
  unfold executeChain chainBlocks
  cases entries with
  | nil => exact ⟨rfl, rfl⟩
  | cons entry rest =>
    -- the primary is entered without a trigger and leaves no fallback name
    rw [chainLoop, blocksFrom]
    simp only [ChainState.enter, Nat.lt_irrefl, if_false, Option.all_none, if_true,
      List.length_nil, Nat.zero_add]
    obtain ⟨traces, htraces, ⟨result, hout, hfinal⟩ | ⟨result, hout, hfinal⟩⟩ :=
      tryEntry_split forward template retry.maxAttempts entry 0
    · simp only [hout, hfinal, if_true]
      exact ⟨by simp [htraces], rfl⟩
    · simp only [hout, hfinal, Bool.false_eq_true, if_false]
      obtain ⟨hattempts, hfallback, hlast⟩ := ChainState.exhaust_attempts {}
        ((entryBlock forward template retry.maxAttempts entry 0).lastOutcome forward template)
        result traces
      obtain ⟨hloop, hloopFallback⟩ :=
        chainLoop_blocks forward template retry.maxAttempts rest 0 _ _ hlast
      have hlen : (([] : List AttemptTrace) ++ traces).length =
          (entryBlock forward template retry.maxAttempts entry 0).len := by
        rw [List.nil_append, htraces, AttemptBlock.traces_length]
      rw [hattempts] at hloop hloopFallback
      simp only at hloop hloopFallback
      rw [hlen] at hloop hloopFallback
      constructor
      · rw [hloop, List.flatMap_cons, htraces, List.nil_append]
      · rw [hloopFallback, hfallback]
        exact Option.or_none

theorem executeChain_chainShape (chain : ProviderChain) :
    ChainShape forward template chain (executeChain forward template chain)
      (chainBlocks forward template chain) := by
  obtain ⟨hattempts, hfallback⟩ := executeChain_blocks forward template chain
  refine ⟨blocksFrom_shape forward template _ chain.entries none 0, ?_, hattempts, ?_⟩
  · intro hnil
    cases hentries : chain.entries with
    | nil => rfl
    | cons entry rest => simp [chainBlocks, hentries, blocksFrom] at hnil
  · intro provider
    rw [hfallback]
    cases chainBlocks forward template chain with
    | nil => simp
    | cons b tail =>
      cases tail with
      | nil => simp
      | cons b' tail =>
        rw [List.tail_cons, List.getLast?_cons_cons]
        simp

/-! ### The retry loop with its counter -/

/-- The `loop` with the counter `attempt`; `fuel` bounds its rounds. -/
def attemptLoop (maxAttempts : UInt32) (entry : ProviderChainEntry) :
    ℕ → UInt32 → ℕ → Option (EntryEnd × List AttemptTrace)
  | 0, _, _ => none
  | fuel + 1, attempt, n =>
    let attempt := attempt + 1
    let result := (forward n { template with provider := entry.provider }).1
    let trace := attemptTrace forward template entry n
    if (attemptOutcome result).isFinal then some (.final result, [trace])
    else if maxAttempts ≤ attempt then
      some (.exhausted (attemptOutcome result) result, [trace])
    else
      (attemptLoop maxAttempts entry fuel attempt (n + 1)).map fun later =>
        (later.1, trace :: later.2)

/-- `execute_chain` with bounded retry loops: `none` when a bound is hit. -/
def chainLoopCounted (maxAttempts : UInt32) (fuel : ℕ) :
    ℕ → List ProviderChainEntry → ChainState → Option ChainResult
  | _, [], st => some st.finish
  | idx, entry :: rest, st =>
    match st.enter idx entry with
    | none => some st.finish
    | some st =>
      match attemptLoop forward template maxAttempts entry fuel 0 st.attempts.length with
      | none => none
      | some (.final result, traces) => some ⟨result, st.attempts ++ traces, st.fallbackUsed⟩
      | some (.exhausted outcome result, traces) =>
        chainLoopCounted maxAttempts fuel (idx + 1) rest (st.exhaust outcome result traces)

theorem attemptLoop_eq (maxAttempts : UInt32) (entry : ProviderChainEntry) (fuel : ℕ)
    (attempt : UInt32) (n : ℕ) (hattempt : attempt = 0 ∨ attempt < maxAttempts)
    (hfuel : attemptLimit maxAttempts ≤ fuel + attempt.toNat) :
    attemptLoop forward template maxAttempts entry fuel attempt n =
      some (tryEntry forward template entry (maxAttempts.toNat - 1 - attempt.toNat) n) := by
  induction fuel generalizing attempt n with
  | zero =>
    have hbelow : attempt.toNat < attemptLimit maxAttempts := by
      unfold attemptLimit
      rcases hattempt with rfl | h
      · simp
      · have h' := UInt32.lt_iff_toNat_lt.mp h
        omega
    omega
  | succ fuel ih =>
    have hmax := maxAttempts.toNat_lt
    -- the counter is below the bound, so it does not wrap
    have hnext : (attempt + 1).toNat = attempt.toNat + 1 := by
      rw [UInt32.toNat_add]
      refine Nat.mod_eq_of_lt ?_
      rcases hattempt with rfl | h
      · decide
      · have h' := UInt32.lt_iff_toNat_lt.mp h
        simp only [UInt32.toNat_one]
        omega
    rw [attemptLoop]
    by_cases hstop : maxAttempts ≤ attempt + 1
    · have hstop' := UInt32.le_iff_toNat_le.mp hstop
      have hleft : maxAttempts.toNat - 1 - attempt.toNat = 0 := by omega
      rw [hleft, tryEntry]
      simp only [hstop, if_true]
      split <;> rfl
    · have hgo : attempt + 1 < maxAttempts := UInt32.not_le.mp hstop
      have hgo' := UInt32.lt_iff_toNat_lt.mp hgo
      have hleft : maxAttempts.toNat - 1 - attempt.toNat =
          maxAttempts.toNat - 1 - (attempt + 1).toNat + 1 := by omega
      rw [hleft, tryEntry]
      simp only [hstop, if_false]
      split
      · rfl
      · rw [ih (attempt + 1) (n + 1) (Or.inr hgo) (by omega)]
        rfl

theorem chainLoopCounted_eq (maxAttempts : UInt32) (fuel : ℕ)
    (hfuel : attemptLimit maxAttempts ≤ fuel) (entries : List ProviderChainEntry) (idx : ℕ)
    (st : ChainState) :
    chainLoopCounted forward template maxAttempts fuel idx entries st =
      some (chainLoop forward template maxAttempts idx entries st) := by
  induction entries generalizing idx st with
  | nil => rfl
  | cons entry rest ih =>
    rw [chainLoopCounted, chainLoop]
    cases st.enter idx entry with
    | none => rfl
    | some st =>
      have hloop := attemptLoop_eq forward template maxAttempts entry fuel 0 st.attempts.length
        (Or.inl rfl) (by simpa using hfuel)
      simp only [UInt32.toNat_zero, Nat.sub_zero] at hloop
      simp only [hloop]
      cases tryEntry forward template entry (maxAttempts.toNat - 1) st.attempts.length with
      | mk ending traces =>
        cases ending with
        | final result => rfl
        | exhausted outcome result => exact ih _ _

/-- A chain with at least one entry runs to its end within `max(1, max_attempts)` rounds at
each entry, and its attempts are blocks of that shape. -/
theorem executeChain_terminates_in_blocks (chain : ProviderChain) (hne : chain.entries ≠ []) :
    (∀ fuel, attemptLimit chain.retry.maxAttempts ≤ fuel →
      chainLoopCounted forward template chain.retry.maxAttempts fuel 0 chain.entries {} =
        some (executeChain forward template chain)) ∧
    ∃ blocks, blocks ≠ [] ∧
      ChainShape forward template chain (executeChain forward template chain) blocks := by
  constructor
  · intro fuel hfuel
    exact chainLoopCounted_eq forward template chain.retry.maxAttempts fuel hfuel chain.entries 0 {}
  · have hshape := executeChain_chainShape forward template chain
    exact ⟨_, fun hnil => hne (hshape.tried hnil), hshape⟩

/-- The provider of the last attempt, or the fallback that was entered, is where the chain
ended. -/
theorem ChainShape.provider {primary : ProviderChainEntry} {rest : List ProviderChainEntry}
    {retry : RouteRetryConfig} {res : ChainResult} {blocks : List AttemptBlock}
    (h : ChainShape forward template ⟨primary :: rest, retry⟩ res blocks) :
    res.fallbackUsed.or (res.attempts.getLast?.map AttemptTrace.provider) =
      some (res.fallbackUsed.getD primary.provider) := by
  cases hfallback : res.fallbackUsed with
  | some fb => rfl
  | none =>
    rw [Option.none_or, Option.getD_none]
    cases blocks with
    | nil => cases h.tried rfl
    | cons b tail =>
      cases tail with
      | cons b' tail =>
        -- a second block leaves the name of a fallback
        have hlast := List.getLast?_eq_some_getLast (List.cons_ne_nil b (b' :: tail))
        have hsome := (h.fallbackUsed _).mpr ⟨by simp, _, hlast, rfl⟩
        rw [hfallback] at hsome
        cases hsome
      | nil =>
        have hentry : b.entry = primary := (List.cons_prefix_cons.mp h.inOrder).1
        obtain ⟨k, hk⟩ := Nat.exists_eq_succ_of_ne_zero
          (Nat.pos_iff_ne_zero.mp (h.length b (List.mem_cons_self ..)).1)
        rw [h.attempts, List.flatMap_singleton, AttemptBlock.traces, hk, List.range_succ,
          List.map_append, List.map_singleton, List.getLast?_concat, Option.map_some]
        exact congrArg (fun entry => some entry.provider) hentry

/-! ### Where a fallback does not fire -/

/-- The entry after entry `i`, which ended as `b` did, is tried exactly when its trigger matches. -/
def FallbackFires (blocks : List AttemptBlock) (i : ℕ) (b : AttemptBlock)
    (next : ProviderChainEntry) : Prop :=
  i + 1 < blocks.length ↔
    matchesFallbackTrigger (b.lastOutcome forward template) next.trigger = true

/-- A trigger that names a non-retryable outcome never fires: the executor has returned before
it looks at the next entry. -/
theorem executeChain_fallback_iff (chain : ProviderChain) :
    ∃ blocks, ChainShape forward template chain (executeChain forward template chain) blocks ∧
      ∀ i b next, blocks[i]? = some b → chain.entries[i + 1]? = some next →
        b.lastOutcome forward template ≠ .success →
        (FallbackFires forward template blocks i b next ↔
          (b.lastOutcome forward template).isRetryable = true ∨
            matchesFallbackTrigger (b.lastOutcome forward template) next.trigger = false) := by
  have hshape := executeChain_chainShape forward template chain
  refine ⟨_, hshape, fun i b next hb hnext hne => ?_⟩
  generalize chainBlocks forward template chain = blocks at hshape hb
  unfold FallbackFires
  by_cases hlast : i + 1 < blocks.length
  · -- the entry was tried, so its trigger matched a retryable outcome
    obtain ⟨-, hret, hmatch⟩ := hshape.earlier i b _ hb (List.getElem?_eq_getElem hlast)
    have hentry : blocks[i + 1].entry = next := by
      have hchain := List.prefix_iff_getElem?.mp hshape.inOrder (i + 1) (by simpa using hlast)
      rw [hnext] at hchain
      simpa using hchain.symm
    rw [hentry] at hmatch
    simp [hlast, hret, hmatch]
  · have hi : i < blocks.length := (List.getElem?_eq_some_iff.mp hb).1
    have hlen : blocks.length = i + 1 := by omega
    have hb' : blocks.getLast? = some b := by
      rw [List.getLast?_eq_getElem?, hlen]
      exact hb
    rcases hshape.last b hb' with hs | ⟨s, hs⟩ | ⟨hret, -, hnone⟩
    · exact absurd hs hne
    · have hnot : ¬(b.lastOutcome forward template).isRetryable = true := by
        rw [hs]
        nofun
      rw [iff_false_left hlast, or_iff_right hnot, Bool.not_eq_true]
    · have hno := hnone next (hlen ▸ hnext)
      rw [hret, hno]
      exact iff_of_true (iff_of_false hlast nofun) (Or.inl rfl)

end Shape

/- A primary that answers 501 with a fallback for server errors: one attempt, no fallback. -/
def notImplemented : Forward := fun _ _ => (.ok ⟨501, [], 0, 0, []⟩, 0)

def serverErrorChain : ProviderChain :=
  ⟨[⟨"openai", none, []⟩, ⟨"backup", none, ["upstream_5xx"]⟩], {}⟩

theorem executeChain_terminates_in_blocks_retried :
    ∃ blocks, blocks ≠ [] ∧ ChainShape primaryUnavailable emptyTemplate serverErrorChain
      (executeChain primaryUnavailable emptyTemplate serverErrorChain) blocks :=
  (executeChain_terminates_in_blocks primaryUnavailable emptyTemplate serverErrorChain
    (List.cons_ne_nil _ _)).2

theorem executeChain_skips_fallback :
    ¬∃ blocks, ChainShape notImplemented emptyTemplate serverErrorChain
        (executeChain notImplemented emptyTemplate serverErrorChain) blocks ∧
      ∀ i b next, blocks[i]? = some b → serverErrorChain.entries[i + 1]? = some next →
        b.lastOutcome notImplemented emptyTemplate ≠ .success →
        FallbackFires notImplemented emptyTemplate blocks i b next := by
  rintro ⟨blocks, hshape, hfires⟩
  have hone : (blocks.flatMap (AttemptBlock.traces notImplemented emptyTemplate)).length = 1 := by
    rw [← hshape.attempts]
    rfl
  cases blocks with
  | nil => cases hone
  | cons b tail =>
    have hb := (hshape.length b (List.mem_cons_self ..)).1
    rw [List.flatMap_cons, List.length_append, AttemptBlock.traces_length] at hone
    have hout : b.lastOutcome notImplemented emptyTemplate = .nonRetryable 501 := rfl
    have hmatch : 0 + 1 < (b :: tail).length :=
      (hfires 0 b ⟨"backup", none, ["upstream_5xx"]⟩ rfl rfl (by rw [hout]; nofun)).mpr
        (by rw [hout]; decide)
    -- the second block would hold a second attempt
    cases tail with
    | nil => exact absurd hmatch (by simp)
    | cons b' tail =>
      have hb' := (hshape.length b' (by simp)).1
      rw [List.flatMap_cons, List.length_append, AttemptBlock.traces_length] at hone
      omega

end AiGateway.Core
