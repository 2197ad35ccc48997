import AiGateway.Core.Json
import Mathlib.Data.List.Basic

/-!
# The tee (`gateway-core/src/proxy/stream.rs`)

A stream that answers a poll as the inner one does, and keeps the front of what has passed. The
inner stream is the list of its answers.
-/

namespace AiGateway.Core

/-- The answer to a poll of a stream of chunks. -/
inductive PollAnswer where
  | pending
  | ready (chunk : Bytes)
  | failed (e : String)
  | ended

structure TeeStream where
  accumulator : Bytes
  maxCapture : ℕ
  truncated : Bool

namespace TeeStream

def new (maxCapture : ℕ) : TeeStream := ⟨[], maxCapture, false⟩

def pollNext (t : TeeStream) (answer : PollAnswer) : PollAnswer × TeeStream :=
  match answer with
  | .ready chunk =>
    let remaining := t.maxCapture - t.accumulator.length
    if 0 < remaining then
      let take := min remaining chunk.length
      (.ready chunk,
        { t with
          accumulator := t.accumulator ++ chunk.take take
          truncated := t.truncated || decide (take < chunk.length) })
    else (.ready chunk, { t with truncated := t.truncated || !chunk.isEmpty })
  | other => (other, t)

def run (t : TeeStream) : List PollAnswer → List PollAnswer × TeeStream
  | [] => ([], t)
  | answer :: answers =>
    let polled := t.pollNext answer
    let rest := polled.2.run answers
    (polled.1 :: rest.1, rest.2)

end TeeStream

def passedChunks : List PollAnswer → List Bytes
  | [] => []
  | .ready chunk :: answers => chunk :: passedChunks answers
  | _ :: answers => passedChunks answers

/-! ### The front of a body -/

/-- A buffer with room for `cap` bytes that `body` has gone through. -/
structure Captured (cap : ℕ) (body buf : Bytes) (truncated : Bool) : Prop where
  front : buf = body.take cap
  flag : truncated = true ↔ cap < body.length

namespace Captured

variable {cap : ℕ} {body buf : Bytes} {truncated : Bool}

theorem empty (cap : ℕ) : Captured cap [] [] false :=
  ⟨List.take_nil.symm, by simp⟩

theorem length_le (h : Captured cap body buf truncated) : buf.length ≤ cap := by
  rw [h.front, List.length_take]
  exact Nat.min_le_left _ _

/-- The buffer holds all of the body, or it is full. -/
theorem cases (h : Captured cap body buf truncated) :
    (buf = body ∧ truncated = false) ∨ (buf.length = cap ∧ cap ≤ body.length) := by
  rcases Nat.lt_or_ge cap body.length with hlong | hfits
  · right
    rw [h.front, List.length_take]
    omega
  · left
    constructor
    · rw [h.front, List.take_of_length_le hfits]
    · rw [Bool.eq_false_iff, ne_eq, h.flag]
      omega

theorem unique (h : Captured cap body buf truncated) {buf' : Bytes} {truncated' : Bool}
    (h' : Captured cap body buf' truncated') : buf = buf' ∧ truncated = truncated' :=
  ⟨h.front.trans h'.front.symm, Bool.eq_iff_iff.mpr (h.flag.trans h'.flag.symm)⟩

/-- There is room: the front of the chunk is taken. -/
theorem room (h : Captured cap body buf truncated) (hroom : buf.length < cap) (chunk : Bytes) :
    Captured cap (body ++ chunk) (buf ++ chunk.take (min (cap - buf.length) chunk.length))
      (truncated || decide (min (cap - buf.length) chunk.length < chunk.length)) := by
  rcases h.cases with ⟨hall, hflag⟩ | ⟨hfull, -⟩
  · rw [hall] at hroom ⊢
    have hbody : body.take cap = body := List.take_of_length_le (by omega)
    constructor
    · rw [← List.take_take, List.take_length, List.take_append, hbody]
    · rw [hflag, Bool.false_or, decide_eq_true_eq, List.length_append]
      omega
  · omega

/-- It is full: only what is empty gets through unnoticed. -/
theorem full (h : Captured cap body buf truncated) (hfull : ¬buf.length < cap) (chunk : Bytes) :
    Captured cap (body ++ chunk) buf (truncated || !chunk.isEmpty) := by
  have hlength : buf.length = (body.take cap).length := congrArg List.length h.front
  rw [List.length_take] at hlength
  constructor
  · rw [List.take_append_of_le_length (by omega)]
    exact h.front
  · rw [Bool.or_eq_true, h.flag, Bool.not_eq_true', List.isEmpty_eq_false_iff, List.length_append,
      ← List.length_pos_iff]
    omega

end Captured

namespace TeeStream

theorem pollNext_same (t : TeeStream) (answer : PollAnswer) :
    (t.pollNext answer).1 = answer ∧ (t.pollNext answer).2.maxCapture = t.maxCapture := by
  unfold pollNext
  cases answer with
  | ready chunk =>
    simp only
    split <;> exact ⟨rfl, rfl⟩
  | pending => exact ⟨rfl, rfl⟩
  | failed e => exact ⟨rfl, rfl⟩
  | ended => exact ⟨rfl, rfl⟩

theorem pollNext_captured {t : TeeStream} {body : Bytes}
    (h : Captured t.maxCapture body t.accumulator t.truncated) (chunk : Bytes) :
    Captured t.maxCapture (body ++ chunk) (t.pollNext (.ready chunk)).2.accumulator
      (t.pollNext (.ready chunk)).2.truncated := by
  unfold pollNext
  simp only
  split
  · exact h.room (by omega) chunk
  · exact h.full (by omega) chunk

theorem run_captured {t : TeeStream} {body : Bytes}
    (h : Captured t.maxCapture body t.accumulator t.truncated) (answers : List PollAnswer) :
    (t.run answers).1 = answers ∧
      Captured t.maxCapture (body ++ (passedChunks answers).flatten)
        (t.run answers).2.accumulator (t.run answers).2.truncated := by
  induction answers generalizing t body with
  | nil =>
    refine ⟨rfl, ?_⟩
    rw [passedChunks, List.flatten_nil, List.append_nil]
    exact h
  | cons answer answers ih =>
    obtain ⟨hanswer, hcap⟩ := t.pollNext_same answer
    unfold run
    simp only
    rw [hanswer]
    cases answer with
    | ready chunk =>
      have hnext := pollNext_captured h chunk
      rw [← hcap] at hnext
      obtain ⟨hpassed, hrest⟩ := ih hnext
      rw [passedChunks, List.flatten_cons, ← List.append_assoc, ← hcap]
      exact ⟨by rw [hpassed], hrest⟩
    | pending =>
      obtain ⟨hpassed, hrest⟩ := ih h
      exact ⟨congrArg _ hpassed, hrest⟩
    | failed e =>
      obtain ⟨hpassed, hrest⟩ := ih h
      exact ⟨congrArg _ hpassed, hrest⟩
    | ended =>
      obtain ⟨hpassed, hrest⟩ := ih h
      exact ⟨congrArg _ hpassed, hrest⟩

theorem run_front (maxCapture : ℕ) (answers : List PollAnswer) :
    ((new maxCapture).run answers).1 = answers ∧
      Captured maxCapture (passedChunks answers).flatten
        ((new maxCapture).run answers).2.accumulator
        ((new maxCapture).run answers).2.truncated := by
  have hnew : Captured (new maxCapture).maxCapture [] (new maxCapture).accumulator
      (new maxCapture).truncated := Captured.empty maxCapture
  exact run_captured hnew answers

end TeeStream

end AiGateway.Core
