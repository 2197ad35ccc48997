import AiGateway.Api.LogBody
import AiGateway.Core.JsonShapes

/-!
# Texts that are logged alike (`gateway-api/src/routes/proxy.rs:822-870`)

The log holds the front of a text and a mark for the rest. Two texts are logged alike when they
are one, or when both are cut and their fronts are shown the same. In two JSON texts of one shape
the parts in front can be read off: if the texts are alike, so are the parts, as far as the log
reaches.
-/

namespace AiGateway.Api
open AiGateway.Core AiGateway.Library

/-- What a log of `room` bytes shows of the two texts is the same. -/
def AlikeTo (room : ℕ) (a b : Bytes) : Prop :=
  a = b ∨ (room < a.length ∧ room < b.length ∧
    fromUtf8Lossy (a.take room) = fromUtf8Lossy (b.take room))

instance (room : ℕ) (a b : Bytes) : Decidable (AlikeTo room a b) :=
  inferInstanceAs (Decidable (_ ∨ _))

section
variable {room : ℕ} {a b c d x y : Bytes}

theorem AlikeTo.refl (room : ℕ) (a : Bytes) : AlikeTo room a a := Or.inl rfl

theorem AlikeTo.symm (h : AlikeTo room a b) : AlikeTo room b a := by
  rcases h with hsame | ⟨ha, hb, hfront⟩
  · exact Or.inl hsame.symm
  · exact Or.inr ⟨hb, ha, hfront.symm⟩

theorem AlikeTo.trans (hab : AlikeTo room a b) (hbc : AlikeTo room b c) : AlikeTo room a c := by
  rcases hab with rfl | ⟨ha, hb, hfront⟩
  · exact hbc
  · rcases hbc with rfl | ⟨-, hc, hfront'⟩
    · exact Or.inr ⟨ha, hb, hfront⟩
    · exact Or.inr ⟨ha, hc, hfront.trans hfront'⟩

/-- Nothing is shown. -/
theorem AlikeTo.zero (ha : a ≠ []) (hb : b ≠ []) : AlikeTo 0 a b :=
  Or.inr ⟨List.length_pos_iff.mpr ha, List.length_pos_iff.mpr hb, rfl⟩

theorem AlikeTo.append (ha : IsUtf8 a) (hab : AlikeTo room a b)
    (hxy : a = b → a.length ≤ room → AlikeTo (room - a.length) x y) :
    AlikeTo room (a ++ x) (b ++ y) := by
  rcases hab with rfl | ⟨hroom, hroom', hfront⟩
  · by_cases hle : a.length ≤ room
    · rcases hxy rfl hle with rfl | ⟨hx, hy, hfront⟩
      · exact .refl room _
      · right
        rw [List.length_append, List.length_append, List.take_append, List.take_append,
          List.take_of_length_le hle, fromUtf8Lossy_append ha, fromUtf8Lossy_append ha, hfront]
        exact ⟨by omega, by omega, rfl⟩
    · right
      rw [List.length_append, List.length_append, List.take_append_of_le_length (by omega),
        List.take_append_of_le_length (by omega)]
      exact ⟨by omega, by omega, rfl⟩
  · right
    rw [List.length_append, List.length_append, List.take_append_of_le_length (by omega),
      List.take_append_of_le_length (by omega)]
    exact ⟨by omega, by omega, hfront⟩

/-- Of texts that begin with the two, alike ones begin alike and, if these are one, go on alike. -/
def ReadOff (a b : Bytes) : Prop :=
  ∀ room x y, AlikeTo room (a ++ x) (b ++ y) →
    AlikeTo room a b ∧ (a = b → a.length ≤ room → AlikeTo (room - a.length) x y)

theorem ReadOff.refl (ha : IsUtf8 a) : ReadOff a a := by
  intro room x y h
  refine ⟨.refl room a, ?_⟩
  intro _ hle
  rcases h with hsame | ⟨hx, hy, hfront⟩
  · exact Or.inl (List.append_cancel_left hsame)
  · right
    rw [List.take_append, List.take_append, List.take_of_length_le hle, fromUtf8Lossy_append ha,
      fromUtf8Lossy_append ha] at hfront
    rw [List.length_append] at hx hy
    exact ⟨by omega, by omega, prefixed_inj hfront⟩

theorem ReadOff.append (ha : IsUtf8 a) (hab : ReadOff a b) (hcd : ReadOff c d) :
    ReadOff (a ++ c) (b ++ d) := by
  intro room x y h
  rw [List.append_assoc, List.append_assoc] at h
  obtain ⟨hfront, hrest⟩ := hab room (c ++ x) (d ++ y) h
  refine ⟨hfront.append ha fun hsame hle => (hcd _ x y (hrest hsame hle)).1, ?_⟩
  intro hsame hle
  rw [List.length_append] at hle ⊢
  rcases hfront with rfl | ⟨hroom, -, -⟩
  · have hback := (hcd _ x y (hrest rfl (by omega))).2 (List.append_cancel_left hsame) (by omega)
    rwa [Nat.sub_sub] at hback
  · omega

/-- Behind a front of one shape, what is behind it is shown alike. -/
theorem AlikeTo.behind (h : AlikeTo room (a ++ (c ++ x)) (b ++ (d ++ y))) (hab : ReadOff a b)
    (hcd : ReadOff c d) (hc : c ≠ []) (hd : d ≠ []) : AlikeTo (room - a.length) c d := by
  obtain ⟨hfront, hrest⟩ := hab room (c ++ x) (d ++ y) h
  by_cases hle : a.length ≤ room
  · rcases hfront with hsame | ⟨hroom, -, -⟩
    · exact (hcd _ x y (hrest hsame hle)).1
    · omega
  · rw [Nat.sub_eq_zero_of_le (by omega)]
    exact .zero hc hd

end

theorem intercalate_cons_cons (a b : Bytes) (l : List Bytes) :
    List.intercalate [44] (a :: b :: l) = a ++ ([44] ++ List.intercalate [44] (b :: l)) := rfl

theorem comma_isUtf8 : IsUtf8 [44] := .byte (by decide)

/-- The parts in front of one of them, each with its comma. -/
theorem readOff_fronts {parts parts' : List Bytes}
    (h : List.Forall₂ (fun a b => IsUtf8 a ∧ ReadOff a b) parts parts') :
    IsUtf8 (parts.flatMap (· ++ [44])) ∧
      ReadOff (parts.flatMap (· ++ [44])) (parts'.flatMap (· ++ [44])) := by
  induction h with
  | nil => exact ⟨.nil, .refl .nil⟩
  | cons hab _ ih =>
    rw [List.flatMap_cons, List.flatMap_cons]
    exact ⟨(hab.1.append comma_isUtf8).append ih.1,
      .append (hab.1.append comma_isUtf8)
        (.append hab.1 hab.2 (.refl comma_isUtf8)) ih.2⟩

theorem intercalate_split (before : List Bytes) (part : Bytes) (behind : List Bytes) :
    List.intercalate [44] (before ++ part :: behind) =
      before.flatMap (· ++ [44]) ++ (part ++ behind.flatMap ([44] ++ ·)) := by
  induction before with
  | nil =>
    induction behind generalizing part with
    | nil => rfl
    | cons next behind ih =>
      have hrest := ih next
      rw [List.nil_append, List.flatMap_nil, List.nil_append] at hrest ⊢
      rw [intercalate_cons_cons, hrest, List.flatMap_cons, List.append_assoc]
  | cons first before ih =>
    have hcons : ∃ next rest, before ++ part :: behind = next :: rest := by
      cases before with
      | nil => exact ⟨part, behind, rfl⟩
      | cons next before => exact ⟨next, before ++ part :: behind, rfl⟩
    obtain ⟨next, rest, hrest⟩ := hcons
    rw [List.cons_append, hrest, intercalate_cons_cons, ← hrest, ih, List.flatMap_cons,
      List.append_assoc, List.append_assoc]

/-- One part of two lists of them, behind an opening and a front of its own. -/
theorem AlikeTo.part {room : ℕ} {opening own c d closing closing' : Bytes}
    {before before' behind behind' : List Bytes}
    (h : AlikeTo room
      (opening ++ (List.intercalate [44] (before ++ (own ++ c) :: behind) ++ closing))
      (opening ++ (List.intercalate [44] (before' ++ (own ++ d) :: behind') ++ closing')))
    (hopening : IsUtf8 opening) (hown : IsUtf8 own)
    (hbefore : List.Forall₂ (fun a b => IsUtf8 a ∧ ReadOff a b) before before')
    (hcd : ReadOff c d) (hc : c ≠ []) (hd : d ≠ []) :
    AlikeTo (room - (opening.length + ((before.flatMap (· ++ [44])).length + own.length))) c d := by
  have hassoc : ∀ fronts part tail closing : Bytes,
      opening ++ (fronts ++ ((own ++ part) ++ tail) ++ closing) =
        (opening ++ (fronts ++ own)) ++ (part ++ (tail ++ closing)) := by
    intro fronts part tail closing
    simp only [List.append_assoc]
  obtain ⟨hfronts, hread⟩ := readOff_fronts hbefore
  rw [intercalate_split, intercalate_split, hassoc, hassoc] at h
  have hbehind := h.behind (.append hopening (.refl hopening)
    (.append hfronts hread (.refl hown))) hcd hc hd
  rwa [List.length_append, List.length_append] at hbehind

end AiGateway.Api
