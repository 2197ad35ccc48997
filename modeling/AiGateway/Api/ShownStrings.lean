import AiGateway.Api.LogFronts
import AiGateway.Api.Payloads

/-!
# What the log shows of a string (`gateway-api/src/routes/proxy.rs:736-789`)

A string of the request is logged as it is, or as a summary that names its media type. Two
requests that differ in payloads have other strings in its place, another media type, and where
the type of an object is below a base64 field itself, another answer to whether it is summarized.
None of this is told if the characters that differ come behind the end of the log.
-/

namespace AiGateway.Api
open AiGateway.Core AiGateway.Library

/-- A string of the one request and its place in the other; `inside` below a forced field. -/
def SwapString (inside : Bool) (s s' : String) : Prop :=
  s = s' ∨ (inside = true ∧ SameCode s.toList s'.toList) ∨ SwapUrl s s'

/-- The text in front of the first character that is replaced. -/
def swapFront (inside : Bool) (s : String) : Option (List Char) :=
  if inside && replaceable s.toList then some (s.toList.takeWhile isFiller)
  else
    (dataUrlParts s).bind fun parts =>
      if replaceable parts.2.toList then
        some (s.toList.take (s.toList.length - parts.2.toList.length) ++
          parts.2.toList.takeWhile isFiller)
      else none

/-- How many bytes the characters are in JSON. -/
def escapedLength (cs : List Char) : ℕ := ((utf8Bytes cs).flatMap escapeByte).length

/-- Where a string stands: what the serializer knows of its field, and what another request may
change of this. -/
structure Place where
  -- below a forced field
  inside : Bool
  force : Bool
  -- the object may start or stop to declare base64
  flips : Bool
  -- the media type of the object
  label : Option String
  flips_inside : flips = true → inside = true

namespace Place

def below (p : Place) : Bool := p.inside || p.force

/-- The text of a string, summarized or not. -/
def shown (label : Option String) (force : Bool) (s : String) : Bytes :=
  quoted ((base64Summary s force (if force then label else none)).getD s)

/-- What other payloads change of the string is behind the end of the log. -/
structure Hides (p : Place) (pos : ℕ) (s : String) : Prop where
  -- the string as it is
  plain : p.force = false ∨ p.flips = true → p.inside = true → replaceable s.toList = true →
    maxLogBodyBytes ≤ pos + (1 + escapedLength (s.toList.takeWhile isFiller))
  -- the media type that its summary names
  label : p.force = true ∨ p.flips = true → ∀ mediaType ∈ p.label,
    ∀ front ∈ swapFront p.inside mediaType, maxLogBodyBytes ≤ pos + (9 + escapedLength front)
  -- its summary instead of itself
  flip : p.flips = true →
    AlikeTo (maxLogBodyBytes - pos) (shown p.label true s) (shown p.label false s)

instance (p : Place) (pos : ℕ) (s : String) : Decidable (p.Hides pos s) :=
  decidable_of_iff
    ((p.force = false ∨ p.flips = true → p.inside = true → replaceable s.toList = true →
        maxLogBodyBytes ≤ pos + (1 + escapedLength (s.toList.takeWhile isFiller))) ∧
      (p.force = true ∨ p.flips = true → ∀ mediaType ∈ p.label,
        ∀ front ∈ swapFront p.inside mediaType,
          maxLogBodyBytes ≤ pos + (9 + escapedLength front)) ∧
      (p.flips = true →
        AlikeTo (maxLogBodyBytes - pos) (shown p.label true s) (shown p.label false s)))
    ⟨fun h => ⟨h.1, h.2.1, h.2.2⟩, fun h => ⟨h.plain, h.label, h.flip⟩⟩

end Place

/-! ### Fronts that are kept -/

theorem isFiller_code {c : Char} (h : isBase64Char c = true) : isFiller c = false := by
  have hall : (base64Chars.all fun c => !isFiller c) = true := by decide
  have hc := List.all_eq_true.mp hall c (of_decide_eq_true h)
  rwa [Bool.not_eq_true'] at hc

theorem sameCode_front {cs cs' : List Char} (h : SameCode cs cs') :
    ∃ rest rest', cs = cs.takeWhile isFiller ++ rest ∧ cs' = cs.takeWhile isFiller ++ rest' := by
  induction h with
  | nil => exact ⟨[], [], rfl, rfl⟩
  | @cons c c' cs cs' hc htail ih =>
    rcases hc with ⟨hsame, hfiller⟩ | ⟨hcode, -⟩
    · obtain ⟨rest, rest', hrest, hrest'⟩ := ih
      rw [List.takeWhile_cons_of_pos hfiller, ← hsame]
      exact ⟨rest, rest', congrArg (c :: ·) hrest, congrArg (c :: ·) hrest'⟩
    · rw [List.takeWhile_cons_of_neg (by rw [isFiller_code hcode]; exact Bool.false_ne_true)]
      exact ⟨c :: cs, c' :: cs', rfl, rfl⟩

theorem mem_of_code {c : Char} (h : (isFiller c || isBase64Char c) = true) :
    c ∈ ['=', ' ', '\t', '\n', '\x0c', '\r'] ++ base64Chars := by
  rw [List.mem_append]
  exact (Bool.or_eq_true_iff.mp h).imp of_decide_eq_true of_decide_eq_true

theorem dataUrlParts_code {s : String}
    (h : (s.toList.all fun c => isFiller c || isBase64Char c) = true) : dataUrlParts s = none := by
  cases hparts : dataUrlParts s with
  | none => rfl
  | some parts =>
    obtain ⟨front, hfront, hscheme, -⟩ := @dataUrlParts_eq_some s parts.1 parts.2 hparts
    have hcolon : ':' ∈ (front.take 5).map Char.toLower := by
      rw [hscheme]
      decide
    obtain ⟨c, hc, hlower⟩ := List.mem_map.mp hcolon
    have hmem : c ∈ s.toList := by
      rw [hfront]
      exact List.mem_append_left _ (List.mem_of_mem_take hc)
    have hall : ((['=', ' ', '\t', '\n', '\x0c', '\r'] ++ base64Chars).all fun c =>
        c.toLower != ':') = true := by decide
    have hother := mem_of_code (List.all_eq_true.mp h c hmem)
    exact absurd hlower (bne_iff_ne.mp (List.all_eq_true.mp hall c hother))

theorem swapFront_url {inside : Bool} {s mediaType payload : String}
    (hparts : dataUrlParts s = some (mediaType, payload)) :
    swapFront inside s = if replaceable payload.toList then
      some (s.toList.take (s.toList.length - payload.toList.length) ++
        payload.toList.takeWhile isFiller) else none := by
  have hcode : replaceable s.toList = false := by
    cases hall : replaceable s.toList with
    | false => rfl
    | true =>
      rw [dataUrlParts_code (Bool.and_eq_true_iff.mp hall).1] at hparts
      cases hparts
  rw [swapFront, hcode, Bool.and_false, if_neg Bool.false_ne_true, hparts]
  rfl

theorem take_front {s payload : String} {front : List Char} (h : s.toList = front ++ payload.toList) :
    s.toList.take (s.toList.length - payload.toList.length) = front := by
  rw [h, List.length_append, Nat.add_sub_cancel, List.take_left']
  rfl

/-- Where a string is replaced by another one, the two go together up to the front at least. -/
theorem SwapString.front {inside : Bool} {s s' : String} (h : SwapString inside s s') :
    s = s' ∨ ∃ front ∈ swapFront inside s, ∃ rest rest',
      s.toList = front ++ rest ∧ s'.toList = front ++ rest' := by
  rcases h with hsame | ⟨hinside, hcode⟩ | hurl
  · exact Or.inl hsame
  · cases hfixed : replaceable s.toList with
    | false => exact Or.inl (String.toList_inj.mp (eq_of_sameCode hcode hfixed))
    | true =>
      obtain ⟨rest, rest', hrest, hrest'⟩ := sameCode_front hcode
      refine Or.inr ⟨_, ?_, rest, rest', hrest, hrest'⟩
      rw [swapFront, hinside, hfixed]
      rfl
  · cases hfixed : replaceableUrl s with
    | false => exact Or.inl (hurl.eq hfixed)
    | true =>
      obtain ⟨mediaType, payload, front, other, hparts, hs, hs', hcode⟩ := hurl
      obtain ⟨rest, rest', hrest, hrest'⟩ := sameCode_front hcode
      rw [replaceableUrl, hparts, Option.any_some] at hfixed
      refine Or.inr ⟨front ++ payload.toList.takeWhile isFiller, ?_, rest, rest', ?_, ?_⟩
      · rw [swapFront_url hparts, hfixed, if_pos rfl, take_front hs]
        rfl
      · rw [hs, List.append_assoc, ← hrest]
      · rw [hs', String.toList_ofList, List.append_assoc, ← hrest']

theorem SwapString.sameSize {inside : Bool} {s s' : String} (h : SwapString inside s s') :
    decodedBase64Len s = decodedBase64Len s' := by
  rcases h with hsame | ⟨-, hcode⟩ | hurl
  · rw [hsame]
  · exact decodedBase64Len_congr hcode.sameSize
  · exact decodedBase64Len_congr hurl.sameSize

namespace Place

section
variable {p : Place} {pos : ℕ} {s : String}

end

end Place

end AiGateway.Api
