import AiGateway.Api.RedactedJson
import AiGateway.Api.RequestIds
import AiGateway.Core.JsonText
import AiGateway.Library.Utf8

/-!
# The bounded writer of the log (`gateway-api/src/routes/proxy.rs:676-693, 822-870`)

`serde_json` hands its output piece by piece to `write_all`, which calls `write` until the piece
is taken. The writer takes what fits and answers the next byte with an error. The pieces are
arbitrary: only what they make together is fixed.
-/

namespace AiGateway.Api
open AiGateway.Core AiGateway.Library

structure LogBodyWriter where
  bytes : Bytes
  truncated : Bool

namespace LogBodyWriter

def new : LogBodyWriter := ⟨[], false⟩

/-- `none` is the error. -/
def write (w : LogBodyWriter) (buf : Bytes) : Option ℕ × LogBodyWriter :=
  let remaining := maxLogBodyBytes - w.bytes.length
  if remaining = 0 then (none, ⟨w.bytes, true⟩)
  else
    let take := min remaining buf.length
    (some take, ⟨w.bytes ++ buf.take take, w.truncated || decide (take < buf.length)⟩)

/-- `Write::write_all`, and whether it succeeds. -/
def writeAll (w : LogBodyWriter) : Bytes → Bool × LogBodyWriter
  | [] => (true, w)
  | b :: buf =>
    match w.write (b :: buf) with
    | (none, w) => (false, w)
    | (some 0, w) => (false, w)
    | (some (n + 1), w) => writeAll w (buf.drop n)
termination_by buf => buf.length
decreasing_by
  rw [List.length_drop, List.length_cons]
  omega

/-- The calls of the serializer, up to the first error. -/
def writePieces (w : LogBodyWriter) : List Bytes → Bool × LogBodyWriter
  | [] => (true, w)
  | piece :: pieces =>
    match w.writeAll piece with
    | (true, w) => w.writePieces pieces
    | (false, w) => (false, w)

end LogBodyWriter

/-- `redacted_json_for_log`, for the pieces that the redacted value is written in. -/
def redactedJsonForLog (pieces : List Bytes) : String :=
  let written := LogBodyWriter.new.writePieces pieces
  if !written.1 && !written.2.truncated then "[failed to serialize request JSON]"
  else
    let output := fromUtf8Lossy written.2.bytes
    if written.2.truncated then output ++ "\n…[truncated]" else output

def clipBodyForLog (body : Bytes) : String :=
  let take := min body.length maxLogBodyBytes
  let output := fromUtf8Lossy (body.take take)
  if take < body.length then output ++ "\n…[truncated]" else output

/-- `request_body_for_log`; `pieces` is how the serializer writes a redacted value. -/
def requestBodyForLog (pieces : Value → List Bytes) (body : Bytes) (json : Option Value) :
    Option String :=
  if body.isEmpty then none
  else
    match json with
    | some v => some (redactedJsonForLog (pieces v))
    | none => some (clipBodyForLog body)

/-! ### What the writer holds -/

/-- All that has been written, or as much as fits and a refusal. -/
def LogBodyWriter.outcome (written : Bytes) : Bool × LogBodyWriter :=
  if written.length ≤ maxLogBodyBytes then (true, ⟨written, false⟩)
  else (false, ⟨written.take maxLogBodyBytes, true⟩)

namespace LogBodyWriter

theorem writeAll_full {w : LogBodyWriter} (hfull : w.bytes.length = maxLogBodyBytes) {buf : Bytes}
    (hne : buf ≠ []) : w.writeAll buf = (false, ⟨w.bytes, true⟩) := by
  cases buf with
  | nil => exact absurd rfl hne
  | cons b buf =>
    rw [writeAll, write]
    simp only
    rw [if_pos (by omega)]

theorem writeAll_eq {bytes : Bytes} (hle : bytes.length ≤ maxLogBodyBytes) (buf : Bytes) :
    (⟨bytes, false⟩ : LogBodyWriter).writeAll buf = outcome (bytes ++ buf) := by
  cases buf with
  | nil =>
    rw [writeAll, List.append_nil, outcome, if_pos hle]
  | cons b buf =>
    by_cases hfull : bytes.length = maxLogBodyBytes
    · rw [writeAll_full hfull (List.cons_ne_nil _ _), outcome, if_neg, List.take_left' hfull]
      rw [List.length_append, List.length_cons]
      omega
    · have hremaining : maxLogBodyBytes - bytes.length ≠ 0 := by omega
      obtain ⟨n, hn⟩ : ∃ n, min (maxLogBodyBytes - bytes.length) (b :: buf).length = n + 1 := by
        rw [List.length_cons]
        exact ⟨min (maxLogBodyBytes - bytes.length) (buf.length + 1) - 1, by omega⟩
      rw [writeAll, write]
      simp only
      rw [if_neg hremaining, hn]
      simp only [Bool.false_or]
      rw [outcome, List.length_append]
      by_cases hfits : bytes.length + (b :: buf).length ≤ maxLogBodyBytes
      · -- the piece is taken at once
        have hall : n + 1 = (b :: buf).length := by omega
        have hrest : buf.drop n = [] := by
          rw [List.drop_eq_nil_iff]
          simp only [List.length_cons] at hall
          omega
        rw [if_pos hfits, hrest, writeAll, hall, List.take_length]
        simp
      · -- the front is taken, and the rest refused
        have hfront : n + 1 = maxLogBodyBytes - bytes.length := by omega
        have hrest : buf.drop n ≠ [] := by
          rw [ne_eq, List.drop_eq_nil_iff]
          simp only [List.length_cons] at hfits
          omega
        have hsize : (bytes ++ (b :: buf).take (n + 1)).length = maxLogBodyBytes := by
          rw [List.length_append, List.length_take]
          omega
        rw [if_neg hfits, writeAll_full hsize hrest, List.take_append, hfront,
          List.take_of_length_le hle]

theorem writePieces_eq {bytes : Bytes} (hle : bytes.length ≤ maxLogBodyBytes)
    (pieces : List Bytes) :
    (⟨bytes, false⟩ : LogBodyWriter).writePieces pieces = outcome (bytes ++ pieces.flatten) := by
  induction pieces generalizing bytes with
  | nil =>
    rw [writePieces, List.flatten_nil, List.append_nil, outcome, if_pos hle]
  | cons piece pieces ih =>
    rw [writePieces, writeAll_eq hle, List.flatten_cons, ← List.append_assoc]
    by_cases hfits : (bytes ++ piece).length ≤ maxLogBodyBytes
    · rw [outcome, if_pos hfits]
      exact ih hfits
    · have hlong : ¬(bytes ++ piece ++ pieces.flatten).length ≤ maxLogBodyBytes := by
        rw [List.length_append]
        omega
      have htake : (bytes ++ piece ++ pieces.flatten).take maxLogBodyBytes =
          (bytes ++ piece).take maxLogBodyBytes := List.take_append_of_le_length (by omega)
      rw [outcome, if_neg hfits, outcome, if_neg hlong, htake]

end LogBodyWriter

/-! ### The text of a value -/

theorem asBytes_isUtf8 (s : String) : IsUtf8 (asBytes s) := ⟨s.toList, asBytes_eq_flatMap s⟩

theorem fromUtf8Lossy_isUtf8 {bytes : Bytes} (h : IsUtf8 bytes) :
    asBytes (fromUtf8Lossy bytes) = bytes := by
  obtain ⟨cs, hcs⟩ := h
  rw [hcs, fromUtf8Lossy, lossyLoop_utf8Bytes (le_refl _), asBytes_eq_flatMap, String.toList_ofList]
  rfl

theorem escapeByte_ascii {b : UInt8} (h : b < 128) : ∀ x ∈ escapeByte b, x < 128 := by
  have hall : ∀ n < 128, ((escapeByte (UInt8.ofNat n)).all fun x => decide (x < 128)) = true := by
    decide
  intro x hx
  have hb := hall b.toNat (UInt8.lt_iff_toNat_lt.mp h)
  rw [UInt8.ofNat_toNat] at hb
  exact of_decide_eq_true (List.all_eq_true.mp hb x hx)

theorem escapeByte_of_large {b : UInt8} (h : 128 ≤ b) : escapeByte b = [b] := by
  have hlarge : ∀ c : UInt8, c < 128 → ¬b ≤ c := by
    intro c hc hle
    exact UInt8.lt_irrefl _ (UInt8.lt_of_le_of_lt h (UInt8.lt_of_le_of_lt hle hc))
  refine escapeByte_plain (fun hlt => hlarge 32 (by decide) (UInt8.le_of_lt hlt)) ?_ ?_
  · intro heq
    exact hlarge 34 (by decide) (heq ▸ UInt8.le_refl b)
  · intro heq
    exact hlarge 92 (by decide) (heq ▸ UInt8.le_refl b)

theorem escaped_isUtf8 (cs : List Char) : IsUtf8 ((utf8Bytes cs).flatMap escapeByte) := by
  rw [utf8Bytes, List.flatMap_assoc]
  refine IsUtf8.flatMap fun c _ => ?_
  rcases utf8EncodeChar_bytes c with ⟨b, hb, hsmall⟩ | hlarge
  · rw [hb, List.flatMap_singleton]
    exact .ascii (escapeByte_ascii hsmall)
  · have hkept : (String.utf8EncodeChar c).flatMap escapeByte =
        (String.utf8EncodeChar c).flatMap fun b => [b] :=
      List.flatMap_congr fun b hb => escapeByte_of_large (hlarge b hb)
    rw [hkept, List.flatMap_singleton']
    exact ⟨[c], (List.flatMap_singleton _ c).symm⟩

theorem quoted_isUtf8 (s : String) : IsUtf8 (quoted s) := by
  have hquote : IsUtf8 [34] := .byte (by decide)
  unfold quoted
  rw [asBytes_eq_flatMap]
  exact hquote.append ((escaped_isUtf8 s.toList).append hquote)

theorem intercalate_isUtf8 {parts : List Bytes} (h : ∀ part ∈ parts, IsUtf8 part) :
    IsUtf8 (List.intercalate [44] parts) := by
  have hcomma : IsUtf8 [44] := .byte (by decide)
  induction parts with
  | nil => exact .nil
  | cons part parts ih =>
    have hpart := h part (List.mem_cons_self ..)
    have hrest := ih fun p hp => h p (List.mem_cons_of_mem _ hp)
    cases parts with
    | nil =>
      have hsingle : List.intercalate [44] [part] = part := List.append_nil part
      rw [hsingle]
      exact hpart
    | cons next parts => exact hpart.append (hcomma.append hrest)

theorem compactText_isUtf8 (numText : Number → String) (v : Value) :
    IsUtf8 (compactText numText v) := by
  have hbyte : ∀ b : UInt8, b < 128 → IsUtf8 [b] := by
    intro b hb
    refine .ascii fun x hx => ?_
    rw [List.mem_singleton.mp hx]
    exact hb
  induction v using Value.inductionOn with
  | null => exact asBytes_isUtf8 _
  | bool b => cases b <;> exact asBytes_isUtf8 _
  | number n => exact asBytes_isUtf8 _
  | string s => exact quoted_isUtf8 s
  | array items ih =>
    rw [compactText, compactItems_eq]
    refine (hbyte 91 (by decide)).append ((intercalate_isUtf8 ?_).append (hbyte 93 (by decide)))
    intro part hpart
    obtain ⟨v, hv, htext⟩ := List.mem_map.mp hpart
    rw [← htext]
    exact ih v hv
  | object fields ih =>
    rw [compactText, compactFields_eq]
    refine (hbyte 123 (by decide)).append ((intercalate_isUtf8 ?_).append (hbyte 125 (by decide)))
    intro part hpart
    obtain ⟨f, hf, htext⟩ := List.mem_map.mp hpart
    rw [← htext]
    exact (quoted_isUtf8 f.1).append ((hbyte 58 (by decide)).append (ih f hf))

/-! ### Truncation -/

theorem redactedJsonForLog_outcome (pieces : List Bytes) :
    redactedJsonForLog pieces =
      if pieces.flatten.length ≤ maxLogBodyBytes then fromUtf8Lossy pieces.flatten
      else fromUtf8Lossy (pieces.flatten.take maxLogBodyBytes) ++ "\n…[truncated]" := by
  have hwritten : LogBodyWriter.new.writePieces pieces = LogBodyWriter.outcome pieces.flatten :=
    LogBodyWriter.writePieces_eq (Nat.zero_le _) pieces
  rw [redactedJsonForLog, hwritten]
  unfold LogBodyWriter.outcome
  split <;> rfl

/-- However the text of the redacted value is split, it is logged as it is, or its front is. -/
theorem redactedJsonForLog_eq (numText : Number → String) (v : Value) {pieces : List Bytes}
    (hpieces : pieces.flatten = compactText numText (redact false none v)) :
    ((LogBodyWriter.new.writePieces pieces).1 = false →
        (LogBodyWriter.new.writePieces pieces).2.truncated = true) ∧
      ((compactText numText (redact false none v)).length ≤ maxLogBodyBytes →
        asBytes (redactedJsonForLog pieces) = compactText numText (redact false none v)) ∧
      (maxLogBodyBytes < (compactText numText (redact false none v)).length →
        redactedJsonForLog pieces =
          fromUtf8Lossy ((compactText numText (redact false none v)).take maxLogBodyBytes) ++
            "\n…[truncated]") := by
  rw [redactedJsonForLog_outcome, hpieces]
  refine ⟨?_, ?_, ?_⟩
  · intro hfailed
    have hwritten : LogBodyWriter.new.writePieces pieces = LogBodyWriter.outcome pieces.flatten :=
      LogBodyWriter.writePieces_eq (Nat.zero_le _) pieces
    rw [hwritten, LogBodyWriter.outcome] at hfailed ⊢
    split at hfailed
    · cases hfailed
    · rename_i hlong
      rw [if_neg hlong]
  · intro hfits
    rw [if_pos hfits]
    exact fromUtf8Lossy_isUtf8 (compactText_isUtf8 numText _)
  · intro hlong
    rw [if_neg (Nat.not_le_of_lt hlong)]

theorem asBytes_ofList (cs : List Char) : asBytes (String.ofList cs) = utf8Bytes cs := by
  rw [asBytes_eq_flatMap, String.toList_ofList]
  rfl

def longText : String := String.ofList (List.replicate maxLogBodyBytes 'x')

theorem longText_length : maxLogBodyBytes ≤ (quoted longText).length := by
  have hbytes : ∀ n, ((utf8Bytes (List.replicate n 'x')).flatMap escapeByte).length = n := by
    intro n
    induction n with
    | zero => rfl
    | succ n ih =>
      have hone : (String.utf8EncodeChar 'x').flatMap escapeByte = [120] := by decide
      rw [utf8Bytes] at ih
      rw [List.replicate_succ, utf8Bytes, List.flatMap_cons, List.flatMap_append, hone,
        List.length_append, ih, List.length_singleton, Nat.add_comm]
  rw [quoted, longText, asBytes_ofList, List.length_cons, List.length_append, hbytes]
  omega

def longNamed (key : String) : Value := .object [(key, .null)]

theorem longNamed_pieces (key : String) : [[123], quoted key, asBytes ":null\x7d"].flatten =
    compactText (fun _ => "0") (redact false none (longNamed key)) := by
  have htext : compactText (fun _ => "0") (redact false none (longNamed key)) =
      123 :: (List.intercalate [44] [quoted key ++ 58 :: asBytes "null"] ++ [125]) := rfl
  have hend : asBytes ":null\x7d" = 58 :: asBytes "null" ++ [125] := by decide
  rw [htext, hend, List.intercalate_singleton]
  simp

theorem longNamed_length {key : String} (h : maxLogBodyBytes ≤ (quoted key).length) :
    maxLogBodyBytes <
      (compactText (fun _ => "0") (redact false none (longNamed key))).length := by
  rw [← longNamed_pieces, List.flatten_cons, List.flatten_cons, List.length_append,
    List.length_append, List.length_singleton]
  omega

/-- The limit is reached within a long name, which is written as one piece. -/
theorem redactedJsonForLog_eq_straddled :
    redactedJsonForLog [[123], quoted longText, asBytes ":null\x7d"] =
      fromUtf8Lossy ((compactText (fun _ => "0") (redact false none (longNamed longText))).take
        maxLogBodyBytes) ++ "
…[truncated]" :=
  (redactedJsonForLog_eq (fun _ => "0") (longNamed longText) (longNamed_pieces longText)).2.2
    (longNamed_length longText_length)

end AiGateway.Api
