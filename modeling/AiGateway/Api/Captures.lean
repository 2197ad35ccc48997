import AiGateway.Api.Replay

/-!
# Captures and chunks (`gateway-api/src/routes/proxy.rs:369-398`, `gateway-core/src/proxy/stream.rs`)

The loop of the task and the tee keep the same front of a body, whatever chunks it comes in, and
pass on what comes in.
-/

namespace AiGateway.Api
open AiGateway.Core

/-! ### What is passed on -/

/-- The items up to the first error, which is one of them. -/
def relayedItems : List (Except String Bytes) → List (Except String Bytes)
  | [] => []
  | .ok chunk :: items => .ok chunk :: relayedItems items
  | .error e :: _ => [.error e]

theorem send_gone {c : Capture} (hgone : c.sendErr = true) (clientOpen : Bool)
    (item : Except String Bytes) : c.send clientOpen item = c :=
  if_pos hgone

/-- A client that has gone gets nothing more. -/
theorem captureLoop_gone (cacheShouldWrite : Bool) (clientOpen : ℕ → Bool) (k : ℕ)
    (items : List (Except String Bytes)) {c : Capture} (hgone : c.sendErr = true) :
    (captureLoop cacheShouldWrite clientOpen k items c).1.sent = c.sent := by
  induction items generalizing k c with
  | nil => rfl
  | cons item items ih =>
    cases item with
    | error e => exact congrArg Capture.sent (send_gone hgone (clientOpen k) (.error e))
    | ok chunk =>
      obtain ⟨hsent, herr⟩ := collected_sent c cacheShouldWrite chunk
      have hstill := herr.trans hgone
      unfold captureLoop Capture.chunk
      rw [send_gone hstill, ih (k + 1) hstill]
      exact hsent

theorem send_shut {c : Capture} (hopen : c.sendErr = false) (item : Except String Bytes) :
    (c.send false item).sent = c.sent ∧ (c.send false item).sendErr = true := by
  unfold Capture.send
  rw [hopen]
  exact ⟨rfl, rfl⟩

/-- The client is there for the items that it gets, and gone for the next one, if there is one. -/
def GotUpTo (clientOpen : ℕ → Bool) (k : ℕ) (items got : List (Except String Bytes)) : Prop :=
  ∃ n ≤ items.length, got = items.take n ∧ (∀ i < n, clientOpen (k + i) = true) ∧
    (n < items.length → clientOpen (k + n) = false)

section
variable {clientOpen : ℕ → Bool} {k : ℕ} {items got : List (Except String Bytes)}

theorem GotUpTo.nil : GotUpTo clientOpen k [] [] := by
  refine ⟨0, Nat.le_refl 0, rfl, ?_, ?_⟩
  · intro i hi
    omega
  · intro hlt
    exact absurd hlt (Nat.lt_irrefl 0)

theorem GotUpTo.shut (hshut : clientOpen k = false) : GotUpTo clientOpen k items [] := by
  refine ⟨0, Nat.zero_le _, List.take_zero.symm, ?_, ?_⟩
  · intro i hi
    omega
  · intro _
    exact hshut

theorem GotUpTo.opened (hopen : clientOpen k = true) (item : Except String Bytes)
    (hrest : GotUpTo clientOpen (k + 1) items got) :
    GotUpTo clientOpen k (item :: items) (item :: got) := by
  obtain ⟨n, hn, hgot, hopened, hclosed⟩ := hrest
  refine ⟨n + 1, Nat.succ_le_succ hn, ?_, ?_, ?_⟩
  · rw [List.take_succ_cons, hgot]
  · intro i hi
    cases i with
    | zero => exact hopen
    | succ i =>
      have hlater := hopened i (by omega)
      rwa [Nat.add_assoc, Nat.add_comm 1 i] at hlater
  · intro hlt
    have hlater := hclosed (Nat.lt_of_succ_lt_succ hlt)
    rwa [Nat.add_assoc, Nat.add_comm 1 n] at hlater

end

/-- The client gets the relayed items up to the first that it is not there for. -/
theorem captureLoop_relayed (cacheShouldWrite : Bool) (clientOpen : ℕ → Bool) (k : ℕ)
    (items : List (Except String Bytes)) {c : Capture} (hopen : c.sendErr = false) :
    ∃ got, (captureLoop cacheShouldWrite clientOpen k items c).1.sent = c.sent ++ got ∧
      GotUpTo clientOpen k (relayedItems items) got := by
  induction items generalizing k c with
  | nil => exact ⟨[], (List.append_nil _).symm, .nil⟩
  | cons item items ih =>
    cases item with
    | error e =>
      unfold captureLoop relayedItems
      cases hk : clientOpen k with
      | true => exact ⟨_, (send_open hopen (.error e)).1, .opened hk _ .nil⟩
      | false =>
        refine ⟨[], ?_, .shut hk⟩
        rw [(send_shut hopen (.error e)).1, List.append_nil]
    | ok chunk =>
      obtain ⟨hsent, herr⟩ := collected_sent c cacheShouldWrite chunk
      unfold captureLoop Capture.chunk relayedItems
      cases hk : clientOpen k with
      | true =>
        obtain ⟨hnow, hstill⟩ := send_open (herr.trans hopen) (.ok chunk)
        obtain ⟨got, hgot, hrest⟩ := ih (k + 1) hstill
        refine ⟨.ok chunk :: got, ?_, .opened hk _ hrest⟩
        rw [hgot, hnow, hsent, List.append_assoc, List.singleton_append]
      | false =>
        obtain ⟨hnow, hgone⟩ := send_shut (herr.trans hopen) (.ok chunk)
        refine ⟨[], ?_, .shut hk⟩
        rw [captureLoop_gone _ _ _ _ hgone, hnow, hsent, List.append_nil]

/-- Whatever chunks a body comes in, the task and the tee keep its front alike, and pass on what
comes in. -/
theorem captures_front :
    (∀ cacheShouldWrite clientOpen (items : List (Except String Bytes)),
      let c := (captureLoop cacheShouldWrite clientOpen 0 items Capture.start).1
      let body := (upstreamChunks items).flatten
      c.responseCapture = body.take maxLogBodyBytes ∧
        (c.responseTruncated = true ↔ maxLogBodyBytes < body.length) ∧
        ∃ n ≤ (relayedItems items).length,
          c.sent = (relayedItems items).take n ∧
          (∀ i < n, clientOpen i = true) ∧
          (n < (relayedItems items).length → clientOpen n = false)) ∧
    (∀ maxCapture (answers : List PollAnswer),
      let passed := (TeeStream.new maxCapture).run answers
      let body := (passedChunks answers).flatten
      passed.1 = answers ∧
        passed.2.accumulator = body.take maxCapture ∧
        (passed.2.truncated = true ↔ maxCapture < body.length)) ∧
    ∀ cacheShouldWrite clientOpen (items : List (Except String Bytes)) (answers : List PollAnswer),
      passedChunks answers = upstreamChunks items →
      let c := (captureLoop cacheShouldWrite clientOpen 0 items Capture.start).1
      let t := ((TeeStream.new maxLogBodyBytes).run answers).2
      c.responseCapture = t.accumulator ∧ c.responseTruncated = t.truncated := by
  refine ⟨?_, ?_, ?_⟩
  · intro cacheShouldWrite clientOpen items
    obtain ⟨got, hsent, n, hn, hgot, hopened, hclosed⟩ :=
      captureLoop_relayed cacheShouldWrite clientOpen 0 items (rfl : Capture.start.sendErr = false)
    rw [hgot] at hsent
    simp only [Nat.zero_add] at hopened hclosed
    have hcaptured := captureLoop_front cacheShouldWrite clientOpen items
    exact ⟨hcaptured.front, hcaptured.flag, n, hn, hsent, hopened, hclosed⟩
  · intro maxCapture answers
    obtain ⟨hpassed, hcaptured⟩ := TeeStream.run_front maxCapture answers
    exact ⟨hpassed, hcaptured.front, hcaptured.flag⟩
  · intro cacheShouldWrite clientOpen items answers hsame
    obtain ⟨-, hcaptured⟩ := TeeStream.run_front maxLogBodyBytes answers
    rw [hsame] at hcaptured
    exact (captureLoop_front cacheShouldWrite clientOpen items).unique hcaptured

end AiGateway.Api
