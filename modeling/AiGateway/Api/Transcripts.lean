import AiGateway.Api.Tokens
import AiGateway.Core.JsonText
import Mathlib.Data.List.Induction

/-!
# Transcripts of event streams (`gateway-api/src/tokens.rs:31-108`)

The lines of a stream of server-sent events, and the values that `extract_token_usage` and
`extract_response_id` read in them, one for each `data:` line. A transcript is never taken for a
JSON text, since none of its lines starts like one.
-/

namespace AiGateway.Api
open AiGateway.Core

/-- What is used of `serde_json`'s parser: how a text may start, and that white space behind it
does not matter. -/
structure JsonParser (fromSlice : Bytes → Option Value) : Prop where
  start : ∀ ws b rest, (∀ x ∈ ws, x = 10 ∨ isBlank x = true) → isBlank b = false → b ≠ 10 →
    b ∉ asBytes "\x7b[\"-0123456789tfn" → fromSlice (ws ++ b :: rest) = none
  trailing : ∀ text b, isBlank b = true → fromSlice (text ++ [b]) = fromSlice text

inductive SseLine where
  | event (name : Bytes)
  | comment (text : Bytes)
  | blank (spaces : Bytes)
  | done
  | data (payload : Bytes)

def SseLine.text : SseLine → Bytes
  | .event name => asBytes "event:" ++ name
  | .comment text => 58 :: text
  | .blank spaces => spaces
  | .done => asBytes "data: [DONE]"
  | .data payload => asBytes "data: " ++ payload

/-- A line with its end, LF or CRLF. -/
structure SentLine where
  line : SseLine
  crlf : Bool
  oneLine : (10 : UInt8) ∉ line.text
  blanks : ∀ spaces, line = .blank spaces → ∀ b ∈ spaces, isBlank b = true

namespace SentLine

def content (s : SentLine) : Bytes := s.line.text ++ if s.crlf then [13] else []

def bytes (s : SentLine) : Bytes := s.content ++ [10]

def carried (fromSlice : Bytes → Option Value) (s : SentLine) : Option Value :=
  match s.line with
  | .data payload => fromSlice payload
  | _ => none

end SentLine

def transcript (sent : List SentLine) : Bytes := sent.flatMap SentLine.bytes

/-! ### Blanks around a text -/

theorem dropWhile_blanks {pad text : Bytes} (hpad : ∀ b ∈ pad, isBlank b = true) :
    (pad ++ text).dropWhile isBlank = text.dropWhile isBlank := by
  induction pad with
  | nil => rfl
  | cons b pad ih =>
    rw [List.cons_append, List.dropWhile_cons_of_pos (hpad b (List.mem_cons_self ..))]
    exact ih fun x hx => hpad x (List.mem_cons_of_mem _ hx)

theorem trimAscii_blanks {text : Bytes} (htext : ∀ b ∈ text, isBlank b = true) :
    trimAscii text = [] := by
  have hdrop := @dropWhile_blanks text [] htext
  rw [List.append_nil] at hdrop
  unfold trimAscii
  rw [hdrop]
  rfl

/-- Trimming takes blanks off the end of a text that starts with something else. -/
theorem trimAscii_spec {b : UInt8} (hb : isBlank b = false) (rest : Bytes) :
    ∃ kept pad, trimAscii (b :: rest) = b :: kept ∧ rest = kept ++ pad ∧
      ∀ x ∈ pad, isBlank x = true := by
  induction rest using List.reverseRecOn with
  | nil =>
    refine ⟨[], [], ?_, rfl, ?_⟩
    · unfold trimAscii
      simp [hb]
    · intro x hx
      cases hx
  | append_singleton rest last ih =>
    cases hlast : isBlank last with
    | true =>
      obtain ⟨kept, pad, hkept, hrest, hpad⟩ := ih
      refine ⟨kept, pad ++ [last], ?_, ?_, ?_⟩
      · rw [← hkept]
        unfold trimAscii
        simp [hb, hlast]
      · rw [hrest, List.append_assoc]
      · intro x hx
        rcases List.mem_append.mp hx with hx | hx
        · exact hpad x hx
        · rw [List.mem_singleton.mp hx]
          exact hlast
    | false =>
      refine ⟨rest ++ [last], [], ?_, (List.append_nil _).symm, ?_⟩
      · unfold trimAscii
        simp [hb, hlast]
      · intro x hx
        cases hx

theorem JsonParser.padded {fromSlice : Bytes → Option Value} (h : JsonParser fromSlice)
    (text : Bytes) {pad : Bytes} (hpad : ∀ b ∈ pad, isBlank b = true) :
    fromSlice (text ++ pad) = fromSlice text := by
  induction pad using List.reverseRecOn with
  | nil => rw [List.append_nil]
  | append_singleton pad last ih =>
    have hlast := hpad last (List.mem_append_right _ (List.mem_singleton.mpr rfl))
    rw [← List.append_assoc, h.trailing _ _ hlast]
    exact ih fun b hb => hpad b (List.mem_append_left _ hb)

/-! ### The payload of a line -/

theorem dataPayload_head {b : UInt8} (hb : isBlank b = false) (hne : b ≠ 100) (rest : Bytes) :
    dataPayload (b :: rest) = none := by
  obtain ⟨kept, pad, hkept, -, -⟩ := trimAscii_spec hb rest
  unfold dataPayload
  simp only
  rw [hkept]
  refine if_neg ?_
  intro hprefix
  obtain ⟨tail, htail⟩ := List.isPrefixOf_iff_prefix.mp hprefix
  have hhead : (100 : UInt8) = b := congrArg (fun l => l.headD 0) htail
  exact hne hhead.symm

/-- The payload that is read of a `data:` line is the one sent, but for blanks at its end. -/
theorem dataPayload_data {payload found : Bytes}
    (h : dataPayload (asBytes "data: " ++ payload) = some found) :
    ∃ pad, payload = found ++ pad ∧ ∀ b ∈ pad, isBlank b = true := by
  obtain ⟨kept, pad, hkept, hrest, hpad⟩ :=
    trimAscii_spec (b := 100) rfl ([97, 116, 97, 58, 32] ++ payload)
  have hline : asBytes "data: " ++ payload = 100 :: ([97, 116, 97, 58, 32] ++ payload) := rfl
  unfold dataPayload at h
  simp only [hline, hkept] at h
  split at h
  · rename_i hprefix
    obtain ⟨tail, htail⟩ := List.isPrefixOf_iff_prefix.mp hprefix
    have htail' : (100 : UInt8) :: ([97, 116, 97, 58, 32] ++ tail) = 100 :: kept := htail
    rw [List.cons.injEq] at htail'
    rw [← htail'.2] at hrest h
    split at h
    · cases h
    · cases h
      refine ⟨pad, ?_, hpad⟩
      rw [List.append_assoc] at hrest
      exact List.append_cancel_left hrest
  · cases h

/-- A payload that does not end in a blank is read as it was sent. -/
theorem dataPayload_exact {payload pad : Bytes} {last : UInt8} (hlast : isBlank last = false)
    (hpad : ∀ b ∈ pad, isBlank b = true) (hdone : payload ++ [last] ≠ asBytes "[DONE]") :
    dataPayload (asBytes "data: " ++ (payload ++ [last]) ++ pad) = some (payload ++ [last]) := by
  have htrim : trimAscii (asBytes "data: " ++ (payload ++ [last]) ++ pad) =
      asBytes "data: " ++ (payload ++ [last]) := by
    have hhead : (asBytes "data: " ++ (payload ++ [last]) ++ pad).dropWhile isBlank =
        asBytes "data: " ++ (payload ++ [last]) ++ pad := rfl
    have hend : ∀ b ∈ pad.reverse, isBlank b = true := fun b hb => hpad b (List.mem_reverse.mp hb)
    unfold trimAscii
    rw [hhead, List.reverse_append, dropWhile_blanks hend, ← List.append_assoc,
      List.reverse_concat, List.dropWhile_cons_of_neg (by rw [hlast]; decide), List.reverse_cons,
      List.reverse_reverse]
  have hprefix : (asBytes "data: ").isPrefixOf (asBytes "data: " ++ (payload ++ [last])) = true :=
    List.isPrefixOf_iff_prefix.mpr (List.prefix_append _ _)
  have hdrop : (asBytes "data: " ++ (payload ++ [last])).drop 6 = payload ++ [last] := rfl
  unfold dataPayload
  simp only [htrim]
  rw [if_pos hprefix, hdrop, if_neg hdone]

/-! ### The lines of a transcript -/

theorem lines_oneLine {line : Bytes} (h : (10 : UInt8) ∉ line) : lines line = [line] := by
  induction line with
  | nil => rfl
  | cons b rest ih =>
    have hb : b ≠ 10 := fun hb => h (by rw [hb]; exact List.mem_cons_self ..)
    rw [lines, if_neg hb, ih fun hmem => h (List.mem_cons_of_mem _ hmem)]

theorem lines_cons {line : Bytes} (h : (10 : UInt8) ∉ line) (rest : Bytes) :
    lines (line ++ 10 :: rest) = line :: lines rest := by
  induction line with
  | nil => rfl
  | cons b line ih =>
    have hb : b ≠ 10 := fun hb => h (by rw [hb]; exact List.mem_cons_self ..)
    rw [List.cons_append, lines, if_neg hb, ih fun hmem => h (List.mem_cons_of_mem _ hmem)]

theorem newline_notMem_padded {line : Bytes} (h : (10 : UInt8) ∉ line) (crlf : Bool) :
    (10 : UInt8) ∉ line ++ if crlf then [13] else [] := by
  intro hmem
  rcases List.mem_append.mp hmem with hline | hend
  · exact h hline
  · cases crlf with
    | true => exact absurd (List.mem_singleton.mp hend) (by decide)
    | false => cases hend

theorem lineEnd_blank (crlf : Bool) :
    ∀ b ∈ (if crlf then [13] else [] : Bytes), isBlank b = true := by
  intro b hb
  cases crlf with
  | true =>
    rw [List.mem_singleton.mp hb]
    rfl
  | false => cases hb

section
variable {fromSlice : Bytes → Option Value}

def SentLine.read (fromSlice : Bytes → Option Value) (s : SentLine) : Option Value :=
  (dataPayload s.content).bind fromSlice

theorem SentLine.carried_of_read (hjson : JsonParser fromSlice) {s : SentLine} {v : Value}
    (h : s.read fromSlice = some v) : s.carried fromSlice = some v := by
  obtain ⟨found, hfound, hvalue⟩ := Option.bind_eq_some_iff.mp h
  obtain ⟨line, crlf, oneLine, blanks⟩ := s
  cases line with
  | event name =>
    have hnone : dataPayload (SentLine.content ⟨.event name, crlf, oneLine, blanks⟩) = none :=
      dataPayload_head (b := 101) rfl (by decide) _
    rw [hnone] at hfound
    cases hfound
  | comment text =>
    have hnone : dataPayload (SentLine.content ⟨.comment text, crlf, oneLine, blanks⟩) = none :=
      dataPayload_head (b := 58) rfl (by decide) _
    rw [hnone] at hfound
    cases hfound
  | blank spaces =>
    have hblank : ∀ b ∈ SentLine.content ⟨.blank spaces, crlf, oneLine, blanks⟩,
        isBlank b = true := by
      intro b hb
      rcases List.mem_append.mp hb with hb | hb
      · exact blanks spaces rfl b hb
      · exact lineEnd_blank crlf b hb
    unfold dataPayload at hfound
    simp only [trimAscii_blanks hblank] at hfound
    cases hfound
  | done =>
    have hnone : dataPayload (SentLine.content ⟨.done, crlf, oneLine, blanks⟩) = none := by
      cases crlf <;> rfl
    rw [hnone] at hfound
    cases hfound
  | data payload =>
    have hcontent : SentLine.content ⟨.data payload, crlf, oneLine, blanks⟩ =
        asBytes "data: " ++ (payload ++ if crlf then [13] else []) := List.append_assoc _ _ _
    rw [hcontent] at hfound
    obtain ⟨pad, hpayload, hpad⟩ := dataPayload_data hfound
    show fromSlice payload = some v
    rw [← hjson.padded payload (lineEnd_blank crlf), hpayload, hjson.padded found hpad, hvalue]

theorem dataValues_transcript (sent : List SentLine) (rest : Bytes) :
    dataValues fromSlice (transcript sent ++ rest) =
      sent.filterMap (SentLine.read fromSlice) ++ dataValues fromSlice rest := by
  induction sent with
  | nil => rfl
  | cons s sent ih =>
    have hsplit : transcript (s :: sent) ++ rest = s.content ++ 10 :: (transcript sent ++ rest) := by
      show ((s.content ++ [10]) ++ transcript sent) ++ rest = _
      rw [List.append_assoc, List.append_assoc]
      rfl
    have hlines : lines (s.content ++ 10 :: (transcript sent ++ rest)) =
        s.content :: lines (transcript sent ++ rest) :=
      lines_cons (newline_notMem_padded s.oneLine s.crlf) _
    rw [hsplit]
    unfold dataValues at ih ⊢
    rw [hlines, List.filterMap_cons, List.filterMap_cons, ih]
    unfold SentLine.read
    cases (dataPayload s.content).bind fromSlice with
    | none => rfl
    | some v => rfl

/-! ### A transcript is no JSON text -/

/-- Behind white space the text starts with a letter or a colon. -/
def Unparsable (text : Bytes) : Prop :=
  ∃ ws b rest, text = ws ++ b :: rest ∧ (∀ x ∈ ws, x = 10 ∨ isBlank x = true) ∧
    (b = 100 ∨ b = 101 ∨ b = 58)

theorem Unparsable.rejected (hjson : JsonParser fromSlice) {text : Bytes} (h : Unparsable text) :
    fromSlice text = none := by
  obtain ⟨ws, b, rest, rfl, hws, hb⟩ := h
  rcases hb with rfl | rfl | rfl
  · exact hjson.start ws 100 rest hws rfl (by decide) (by decide)
  · exact hjson.start ws 101 rest hws rfl (by decide) (by decide)
  · exact hjson.start ws 58 rest hws rfl (by decide) (by decide)

theorem unparsable_cons (s : SentLine) {rest : Bytes}
    (h : (∃ spaces, s.line = .blank spaces) → Unparsable rest) : Unparsable (s.bytes ++ rest) := by
  have hnil : ∀ x ∈ ([] : Bytes), x = 10 ∨ isBlank x = true := by
    intro x hx
    cases hx
  obtain ⟨line, crlf, oneLine, blanks⟩ := s
  cases line with
  | event name => exact ⟨[], 101, _, rfl, hnil, Or.inr (Or.inl rfl)⟩
  | comment text => exact ⟨[], 58, _, rfl, hnil, Or.inr (Or.inr rfl)⟩
  | blank spaces =>
    obtain ⟨ws, b, tail, hrest, hws, hb⟩ := h ⟨spaces, rfl⟩
    refine ⟨SentLine.bytes ⟨.blank spaces, crlf, oneLine, blanks⟩ ++ ws, b, tail, ?_, ?_, hb⟩
    · rw [hrest, List.append_assoc]
    · intro x hx
      rcases List.mem_append.mp hx with hline | hx
      · rcases List.mem_append.mp hline with hcontent | hend
        · rcases List.mem_append.mp hcontent with hspace | hend
          · exact Or.inr (blanks spaces rfl x hspace)
          · exact Or.inr (lineEnd_blank crlf x hend)
        · exact Or.inl (List.mem_singleton.mp hend)
      · exact hws x hx
  | done => exact ⟨[], 100, _, rfl, hnil, Or.inl rfl⟩
  | data payload => exact ⟨[], 100, _, rfl, hnil, Or.inl rfl⟩

theorem unparsable_transcript (sent : List SentLine) {rest : Bytes} (h : Unparsable rest) :
    Unparsable (transcript sent ++ rest) := by
  induction sent with
  | nil => exact h
  | cons s sent ih =>
    have hsplit : transcript (s :: sent) ++ rest = s.bytes ++ (transcript sent ++ rest) :=
      List.append_assoc _ _ _
    rw [hsplit]
    exact unparsable_cons s fun _ => ih

/-! ### What is extracted -/

theorem extractTokenUsage_unparsable (hjson : JsonParser fromSlice) {text : Bytes}
    (h : Unparsable text) : extractTokenUsage fromSlice text =
      (dataValues fromSlice text).foldl (fun usage v => usage.merge (fromValue v)) .default := by
  have hne : text.isEmpty = false := by
    obtain ⟨ws, b, rest, rfl, -, -⟩ := h
    cases ws <;> rfl
  unfold extractTokenUsage
  rw [hne, if_neg Bool.false_ne_true, h.rejected hjson]

theorem extractResponseId_unparsable (hjson : JsonParser fromSlice) {text : Bytes}
    (h : Unparsable text) : extractResponseId fromSlice text =
      (dataValues fromSlice text).findSome? idFromValue := by
  have hne : text.isEmpty = false := by
    obtain ⟨ws, b, rest, rfl, -, -⟩ := h
    cases ws <;> rfl
  unfold extractResponseId
  rw [hne, if_neg Bool.false_ne_true, h.rejected hjson]

end

end AiGateway.Api
