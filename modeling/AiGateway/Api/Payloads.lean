import AiGateway.Api.RedactedJson
import AiGateway.Api.RequestIds

/-!
# Base64 payloads of one size (`gateway-api/src/routes/proxy.rs:764-820`)

Two texts of base64 characters with the same padding and the same white space have one decoded
size, and one is a base64 data URL if the other is.
-/

namespace AiGateway.Api
open AiGateway.Core AiGateway.Library

/-! ### Base64 text -/

def base64Chars : List Char :=
  "ABCDEFGHIJKLMNOPQRSTUVWXYZabcdefghijklmnopqrstuvwxyz0123456789+/-_".toList

def isBase64Char (c : Char) : Bool := c ∈ base64Chars

/-- Padding and white space. -/
def isFiller (c : Char) : Bool := c ∈ ['=', ' ', '\t', '\n', '\x0c', '\r']

/-- Two base64 texts of one length, with the same padding and the same white space. -/
def SameCode (cs cs' : List Char) : Prop :=
  List.Forall₂ (fun c c' =>
    (c = c' ∧ isFiller c = true) ∨ (isBase64Char c = true ∧ isBase64Char c' = true)) cs cs'

/-- A text with another one of its kind. -/
def replaceable (cs : List Char) : Bool :=
  (cs.all fun c => isFiller c || isBase64Char c) && cs.any isBase64Char

theorem sameCode_all {cs cs' : List Char} (h : SameCode cs cs') :
    (cs.all fun c => isFiller c || isBase64Char c) = true := by
  induction h with
  | nil => rfl
  | cons hc _ ih =>
    rw [List.all_cons, ih, Bool.and_true]
    rcases hc with ⟨-, hfiller⟩ | ⟨hcode, -⟩
    · rw [hfiller, Bool.true_or]
    · rw [hcode, Bool.or_true]

theorem SameCode.symm {cs cs' : List Char} (h : SameCode cs cs') : SameCode cs' cs := by
  induction h with
  | nil => exact .nil
  | cons hc _ ih =>
    refine .cons ?_ ih
    rcases hc with ⟨hsame, hfiller⟩ | ⟨hcode, hcode'⟩
    · rw [hsame] at hfiller
      exact Or.inl ⟨hsame.symm, hfiller⟩
    · exact Or.inr ⟨hcode', hcode⟩

theorem eq_of_sameCode {cs cs' : List Char} (h : SameCode cs cs')
    (hfixed : replaceable cs = false) : cs = cs' := by
  rw [replaceable, sameCode_all h, Bool.true_and] at hfixed
  induction h with
  | nil => rfl
  | cons hc _ ih =>
    rw [List.any_cons, Bool.or_eq_false_iff] at hfixed
    rcases hc with ⟨hsame, -⟩ | ⟨hcode, -⟩
    · rw [hsame, ih hfixed.2]
    · rw [hfixed.1] at hcode
      cases hcode

/-! ### The size of a payload -/

/-- The texts are equal but for characters that are base64 in both. -/
def SameSize (cs cs' : List Char) : Prop :=
  List.Forall₂ (fun c c' => c = c' ∨ (isBase64Char c = true ∧ isBase64Char c' = true)) cs cs'

theorem SameCode.sameSize {cs cs' : List Char} (h : SameCode cs cs') : SameSize cs cs' := by
  refine List.Forall₂.imp ?_ h
  intro c c' hc
  rcases hc with ⟨hsame, -⟩ | hcode
  · exact Or.inl hsame
  · exact Or.inr hcode

theorem SameSize.behind (front : List Char) {cs cs' : List Char} (h : SameSize cs cs') :
    SameSize (front ++ cs) (front ++ cs') := by
  induction front with
  | nil => exact h
  | cons c front ih => exact .cons (Or.inl rfl) ih

theorem countedBytes_code {c : Char} (h : isBase64Char c = true) :
    ∃ b, countedBytes (String.utf8EncodeChar c) = [b] ∧ b ≠ 61 := by
  have hall : (base64Chars.all fun c => (countedBytes (String.utf8EncodeChar c)).length == 1 &&
      (countedBytes (String.utf8EncodeChar c)).all fun b => b != 61) = true := by decide
  have hc := List.all_eq_true.mp hall c (of_decide_eq_true h)
  rw [Bool.and_eq_true, beq_iff_eq] at hc
  obtain ⟨b, hb⟩ := List.length_eq_one_iff.mp hc.1
  refine ⟨b, hb, ?_⟩
  rw [hb] at hc
  exact bne_iff_ne.mp (List.all_eq_true.mp hc.2 b (List.mem_singleton.mpr rfl))

theorem decodedBase64Len_congr {s s' : String} (h : SameSize s.toList s'.toList) :
    decodedBase64Len s = decodedBase64Len s' := by
  have hcounts : (countedBytes (asBytes s)).length = (countedBytes (asBytes s')).length ∧
      (countedBytes (asBytes s)).count 61 = (countedBytes (asBytes s')).count 61 := by
    rw [asBytes_eq_flatMap, asBytes_eq_flatMap]
    unfold SameSize at h
    generalize s.toList = cs at h ⊢
    generalize s'.toList = cs' at h ⊢
    induction h with
    | nil => exact ⟨rfl, rfl⟩
    | @cons c c' cs cs' hc _ ih =>
      have hsplit : ∀ (d : Char) (ds : List Char),
          countedBytes ((d :: ds).flatMap String.utf8EncodeChar) =
            countedBytes (String.utf8EncodeChar d) ++
              countedBytes (ds.flatMap String.utf8EncodeChar) :=
        fun d ds => List.filter_append _ _
      rw [hsplit, hsplit, List.length_append, List.length_append, List.count_append,
        List.count_append, ih.1, ih.2]
      rcases hc with hsame | ⟨hcode, hcode'⟩
      · rw [hsame]
        exact ⟨rfl, rfl⟩
      · obtain ⟨b, hb, hpad⟩ := countedBytes_code hcode
        obtain ⟨b', hb', hpad'⟩ := countedBytes_code hcode'
        rw [hb, hb', List.count_singleton, List.count_singleton, if_neg (by simpa using hpad),
          if_neg (by simpa using hpad')]
        exact ⟨rfl, rfl⟩
  rw [decodedBase64Len_eq, decodedBase64Len_eq, hcounts.1, hcounts.2]

/-! ### Data URLs -/

theorem splitOnceComma_eq_some {cs front payload : List Char}
    (h : splitOnceComma cs = some (front, payload)) :
    cs = front ++ ',' :: payload ∧ ∀ other, splitOnceComma (front ++ ',' :: other) =
      some (front, other) := by
  induction cs generalizing front with
  | nil => cases h
  | cons c cs ih =>
    rw [splitOnceComma] at h
    split at h
    · rename_i hcomma
      cases h
      exact ⟨by rw [hcomma, List.nil_append], fun other => rfl⟩
    · rename_i hcomma
      obtain ⟨⟨front', payload'⟩, hrest, hparts⟩ := Option.map_eq_some_iff.mp h
      cases hparts
      obtain ⟨hcs, hother⟩ := ih hrest
      refine ⟨by rw [hcs, List.cons_append], ?_⟩
      intro other
      rw [List.cons_append, splitOnceComma, if_neg hcomma, hother]
      rfl

/-- A data URL is a front that declares base64, and any payload. -/
theorem dataUrlParts_eq_some {s mediaType payload : String}
    (h : dataUrlParts s = some (mediaType, payload)) :
    ∃ front, s.toList = front ++ payload.toList ∧
      (front.take 5).map Char.toLower = "data:".toList ∧ ∀ other : List Char,
        dataUrlParts (String.ofList (front ++ other)) = some (mediaType, String.ofList other) := by
  unfold dataUrlParts at h
  split at h
  · cases h
  · rename_i hscheme
    rw [not_not] at hscheme
    obtain ⟨⟨inner, rest⟩, hsplit, hoptions⟩ := Option.bind_eq_some_iff.mp h
    obtain ⟨hdrop, hother⟩ := splitOnceComma_eq_some hsplit
    simp only at hoptions
    split at hoptions
    · rename_i hdeclared
      obtain ⟨hmedia, hrest⟩ := Prod.mk.inj (Option.some.inj hoptions)
      have hlength : (s.toList.take 5).length = 5 := by
        have hmap := congrArg List.length hscheme
        rw [List.length_map] at hmap
        exact hmap
      refine ⟨s.toList.take 5 ++ (inner ++ [',']), ?_, ?_, ?_⟩
      · rw [← hrest, String.toList_ofList, List.append_assoc, List.append_assoc,
          List.singleton_append, ← hdrop, List.take_append_drop]
      · rw [List.take_left' hlength]
        exact hscheme
      · intro other
        have hparts : s.toList.take 5 ++ (inner ++ [',']) ++ other =
            s.toList.take 5 ++ (inner ++ ',' :: other) := by
          rw [List.append_assoc, List.append_assoc, List.singleton_append]
        unfold dataUrlParts
        rw [String.toList_ofList, hparts, List.take_left' hlength, List.drop_left' hlength,
          if_neg (not_not.mpr hscheme), hother, Option.bind_some]
        simp only
        rw [if_pos hdeclared, hmedia]
    · cases hoptions

/-- The payload of a data URL is another one. -/
def SwapUrl (s s' : String) : Prop :=
  ∃ mediaType payload front other, dataUrlParts s = some (mediaType, payload) ∧
    s.toList = front ++ payload.toList ∧ s' = String.ofList (front ++ other) ∧
      SameCode payload.toList other

def replaceableUrl (s : String) : Bool :=
  (dataUrlParts s).any fun parts => replaceable parts.2.toList

theorem SwapUrl.parts {s s' : String} (h : SwapUrl s s') :
    ∃ mediaType payload payload', dataUrlParts s = some (mediaType, payload) ∧
      dataUrlParts s' = some (mediaType, payload') ∧ SameCode payload.toList payload'.toList := by
  obtain ⟨mediaType, payload, front, other, hparts, hs, hs', hcode⟩ := h
  obtain ⟨front', hfront, -, hother⟩ := dataUrlParts_eq_some hparts
  rw [hs] at hfront
  refine ⟨mediaType, payload, String.ofList other, hparts, ?_, by rwa [String.toList_ofList]⟩
  rw [hs', List.append_cancel_right hfront]
  exact hother other

theorem SwapUrl.sameSize {s s' : String} (h : SwapUrl s s') : SameSize s.toList s'.toList := by
  obtain ⟨mediaType, payload, front, other, -, hs, hs', hcode⟩ := h
  rw [hs, hs', String.toList_ofList]
  exact hcode.sameSize.behind front

theorem SwapUrl.eq {s s' : String} (h : SwapUrl s s') (hfixed : replaceableUrl s = false) :
    s = s' := by
  obtain ⟨mediaType, payload, front, other, hparts, hs, hs', hcode⟩ := h
  rw [replaceableUrl, hparts, Option.any_some] at hfixed
  rw [hs', ← eq_of_sameCode hcode hfixed, ← hs, String.ofList_toList]

end AiGateway.Api
