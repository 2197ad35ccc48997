import Mathlib.Data.Nat.Basic
import Mathlib.Order.Basic

/-!
# Cutting UTF-8 text at a byte

A byte of a string is a character boundary if the string is two strings that meet there. What
this says of a concatenation depends on the part that the byte falls into, and ASCII text can
be cut anywhere.
-/

namespace AiGateway.Library

theorem utf8ByteSize_ofList_cons (c : Char) (cs : List Char) :
    (String.ofList (c :: cs)).utf8ByteSize = c.utf8Size + (String.ofList cs).utf8ByteSize := by
  have hparts : String.ofList (c :: cs) = String.singleton c ++ String.ofList cs := by
    rw [← String.toList_inj, String.toList_append, String.toList_ofList, String.toList_ofList,
      String.toList_singleton]
    rfl
  rw [hparts, String.utf8ByteSize_append, String.utf8ByteSize_singleton]

theorem utf8ByteSize_replicate (n : ℕ) (c : Char) :
    (String.ofList (List.replicate n c)).utf8ByteSize = n * c.utf8Size := by
  induction n with
  | zero =>
    rw [Nat.zero_mul]
    rfl
  | succ n ih =>
    rw [List.replicate_succ, utf8ByteSize_ofList_cons, ih, Nat.succ_mul, Nat.add_comm]

def IsCharBoundary (s : String) (n : ℕ) : Prop := (⟨n⟩ : String.Pos.Raw).IsValid s

theorem isCharBoundary_iff {s : String} {n : ℕ} :
    IsCharBoundary s n ↔ ∃ front back, s = front ++ back ∧ front.utf8ByteSize = n := by
  unfold IsCharBoundary
  rw [String.Pos.Raw.isValid_iff_exists_append]
  constructor
  · intro h
    obtain ⟨front, back, hs, hn⟩ := h
    exact ⟨front, back, hs, (congrArg String.Pos.Raw.byteIdx hn).symm⟩
  · intro h
    obtain ⟨front, back, hs, hn⟩ := h
    exact ⟨front, back, hs, String.Pos.Raw.ext hn.symm⟩

theorem isCharBoundary_zero (s : String) : IsCharBoundary s 0 :=
  isCharBoundary_iff.mpr ⟨"", s, String.empty_append.symm, rfl⟩

theorem isCharBoundary_size (s : String) : IsCharBoundary s s.utf8ByteSize :=
  isCharBoundary_iff.mpr ⟨s, "", String.append_empty.symm, rfl⟩

theorem IsCharBoundary.le {s : String} {n : ℕ} (h : IsCharBoundary s n) : n ≤ s.utf8ByteSize := by
  obtain ⟨front, back, hs, hn⟩ := isCharBoundary_iff.mp h
  rw [hs, String.utf8ByteSize_append]
  omega

/-- Two ways to cut one string in two: one of them cuts first. -/
theorem append_eq_append {s t front back : String} (h : s ++ t = front ++ back) :
    (∃ mid, front = s ++ mid ∧ t = mid ++ back) ∨ ∃ mid, s = front ++ mid ∧ back = mid ++ t := by
  have hlist := congrArg String.toList h
  rw [String.toList_append, String.toList_append] at hlist
  rcases List.append_eq_append_iff.mp hlist with ⟨mid, hfront, ht⟩ | ⟨mid, hs, hback⟩
  · left
    refine ⟨String.ofList mid, ?_, ?_⟩
    · rw [← String.toList_inj, String.toList_append, String.toList_ofList, hfront]
    · rw [← String.toList_inj, String.toList_append, String.toList_ofList, ht]
  · right
    refine ⟨String.ofList mid, ?_, ?_⟩
    · rw [← String.toList_inj, String.toList_append, String.toList_ofList, hs]
    · rw [← String.toList_inj, String.toList_append, String.toList_ofList, hback]

theorem isCharBoundary_append_right {s t : String} {n : ℕ} :
    IsCharBoundary (s ++ t) (s.utf8ByteSize + n) ↔ IsCharBoundary t n := by
  rw [isCharBoundary_iff, isCharBoundary_iff]
  constructor
  · intro h
    obtain ⟨front, back, hs, hn⟩ := h
    rcases append_eq_append hs with ⟨mid, hfront, ht⟩ | ⟨mid, hfront, hback⟩
    · have hsize := congrArg String.utf8ByteSize hfront
      rw [String.utf8ByteSize_append] at hsize
      exact ⟨mid, back, ht, by omega⟩
    · have hsize := congrArg String.utf8ByteSize hfront
      rw [String.utf8ByteSize_append] at hsize
      exact ⟨"", t, String.empty_append.symm, by rw [String.utf8ByteSize_empty]; omega⟩
  · intro h
    obtain ⟨front, back, ht, hn⟩ := h
    exact ⟨s ++ front, back, by rw [ht, String.append_assoc], by
      rw [String.utf8ByteSize_append, hn]⟩

theorem isCharBoundary_append_left {s t : String} {n : ℕ} (hn : n ≤ s.utf8ByteSize) :
    IsCharBoundary (s ++ t) n ↔ IsCharBoundary s n := by
  constructor
  · intro h
    obtain ⟨front, back, hs, hfront⟩ := isCharBoundary_iff.mp h
    rcases append_eq_append hs with ⟨mid, hmid, -⟩ | ⟨mid, hmid, -⟩
    · have hsize := congrArg String.utf8ByteSize hmid
      rw [String.utf8ByteSize_append] at hsize
      have hends : n = s.utf8ByteSize := by omega
      rw [hends]
      exact isCharBoundary_size s
    · exact isCharBoundary_iff.mpr ⟨front, mid, hmid, hfront⟩
  · intro h
    obtain ⟨front, back, hs, hfront⟩ := isCharBoundary_iff.mp h
    exact isCharBoundary_iff.mpr ⟨front, back ++ t, by rw [hs, String.append_assoc], hfront⟩

theorem isCharBoundary_of_ascii {s : String} (hs : ∀ c ∈ s.toList, c.utf8Size = 1) {n : ℕ}
    (hn : n ≤ s.utf8ByteSize) : IsCharBoundary s n := by
  induction n with
  | zero => exact isCharBoundary_zero s
  | succ n ih =>
    obtain ⟨front, back, hcut, hfront⟩ := isCharBoundary_iff.mp (ih (by omega))
    have hsize := congrArg String.utf8ByteSize hcut
    rw [String.utf8ByteSize_append] at hsize
    cases hback : back.toList with
    | nil =>
      have hempty : back = "" := by
        rw [← String.toList_inj, hback]
        rfl
      rw [hempty, String.utf8ByteSize_empty] at hsize
      omega
    | cons c rest =>
      have hparts : back = String.singleton c ++ String.ofList rest := by
        rw [← String.toList_inj, hback, String.toList_append, String.toList_ofList,
          String.toList_singleton]
        rfl
      have hc : c.utf8Size = 1 := by
        refine hs c ?_
        rw [hcut, String.toList_append, hback]
        exact List.mem_append_right _ (List.mem_cons_self ..)
      refine isCharBoundary_iff.mpr ⟨front ++ String.singleton c, String.ofList rest, ?_, ?_⟩
      · rw [String.append_assoc, ← hparts, hcut]
      · rw [String.utf8ByteSize_append, String.utf8ByteSize_singleton, hc, hfront]

end AiGateway.Library
