import Mathlib.Data.List.Basic

/-!
# UTF-8

The bytes of text, one character after the other, and the decoding of bytes that need not be
text: where no character begins, as many bytes as could still be the beginning of one, and at
least one, stand for a replacement character.
-/

namespace AiGateway.Library

/-! ### Text -/

def utf8Bytes (cs : List Char) : List UInt8 := cs.flatMap String.utf8EncodeChar

def IsUtf8 (bytes : List UInt8) : Prop := ∃ cs, bytes = utf8Bytes cs

theorem IsUtf8.nil : IsUtf8 [] := ⟨[], rfl⟩

theorem IsUtf8.append {xs ys : List UInt8} (hx : IsUtf8 xs) (hy : IsUtf8 ys) :
    IsUtf8 (xs ++ ys) := by
  obtain ⟨cs, hcs⟩ := hx
  obtain ⟨ds, hds⟩ := hy
  exact ⟨cs ++ ds, by rw [hcs, hds, utf8Bytes, utf8Bytes, utf8Bytes, List.flatMap_append]⟩

theorem IsUtf8.flatMap {α : Type*} {l : List α} {f : α → List UInt8} (h : ∀ a ∈ l, IsUtf8 (f a)) :
    IsUtf8 (l.flatMap f) := by
  induction l with
  | nil => exact .nil
  | cons a l ih =>
    rw [List.flatMap_cons]
    exact (h a (List.mem_cons_self ..)).append (ih fun b hb => h b (List.mem_cons_of_mem _ hb))

theorem utf8EncodeChar_ofByte {b : UInt8} (h : b < 128) :
    String.utf8EncodeChar (Char.ofNat b.toNat) = [b] := by
  have hall : ∀ n < 128, String.utf8EncodeChar (Char.ofNat n) = [UInt8.ofNat n] := by decide
  have hlt : b.toNat < 128 := UInt8.lt_iff_toNat_lt.mp h
  rw [hall b.toNat hlt, UInt8.ofNat_toNat]

theorem IsUtf8.ascii {bytes : List UInt8} (h : ∀ b ∈ bytes, b < 128) : IsUtf8 bytes := by
  have hbytes : bytes = bytes.flatMap fun b => [b] := (List.flatMap_singleton' bytes).symm
  rw [hbytes]
  refine IsUtf8.flatMap fun b hb => ⟨[Char.ofNat b.toNat], ?_⟩
  rw [utf8Bytes, List.flatMap_singleton, utf8EncodeChar_ofByte (h b hb)]

theorem IsUtf8.byte {b : UInt8} (h : b < 128) : IsUtf8 [b] :=
  .ascii (List.forall_mem_singleton.mpr h)

/-- A character is one byte below 128, or bytes from 128 on. -/
theorem utf8EncodeChar_bytes (c : Char) :
    (∃ b, String.utf8EncodeChar c = [b] ∧ b < 128) ∨
      ∀ b ∈ String.utf8EncodeChar c, 128 ≤ b := by
  have hor : ∀ x y : UInt8, 128 ≤ y.toNat → 128 ≤ x ||| y := by
    intro x y hy
    rw [UInt8.le_iff_toNat_le, UInt8.toNat_or]
    exact Nat.le_trans hy Nat.right_le_or
  rcases c.utf8Size_eq with hone | htwo | hthree | hfour
  · left
    refine ⟨_, String.utf8EncodeChar_eq_singleton hone, ?_⟩
    have hsmall := UInt32.le_iff_toNat_le.mp (Char.utf8Size_eq_one_iff.mp hone)
    rw [UInt8.lt_iff_toNat_lt, UInt32.toNat_toUInt8]
    simp only [UInt32.reduceToNat, UInt8.reduceToNat] at hsmall ⊢
    omega
  · right
    rw [String.utf8EncodeChar_eq_cons_cons htwo]
    simp only [List.forall_mem_cons]
    exact ⟨hor _ _ (by decide), hor _ _ (by decide), List.forall_mem_nil _⟩
  · right
    rw [String.utf8EncodeChar_eq_cons_cons_cons hthree]
    simp only [List.forall_mem_cons]
    exact ⟨hor _ _ (by decide), hor _ _ (by decide), hor _ _ (by decide), List.forall_mem_nil _⟩
  · right
    rw [String.utf8EncodeChar_eq_cons_cons_cons_cons hfour]
    simp only [List.forall_mem_cons]
    exact ⟨hor _ _ (by decide), hor _ _ (by decide), hor _ _ (by decide), hor _ _ (by decide),
      List.forall_mem_nil _⟩

def decodeHead (bytes : List UInt8) : Option Char := ByteArray.utf8DecodeChar? ⟨bytes.toArray⟩ 0

def isContinuation (b : UInt8) : Bool := 128 ≤ b && b < 192

/-- The second byte of a character of three or four bytes. -/
def secondFits (first second : UInt8) : Bool :=
  if first = 224 then 160 ≤ second && second < 192
  else if first = 237 then 128 ≤ second && second < 160
  else if 225 ≤ first && first < 240 then isContinuation second
  else if first = 240 then 144 ≤ second && second < 192
  else if 241 ≤ first && first < 244 then isContinuation second
  else if first = 244 then 128 ≤ second && second < 144
  else false

/-- How many bytes one replacement character stands for. -/
def badLength : List UInt8 → ℕ
  | first :: second :: rest =>
    if secondFits first second then
      if 240 ≤ first && rest.head?.any isContinuation then 3 else 2
    else 1
  | _ => 1

/-- Every round takes a byte at least. -/
def lossyLoop : ℕ → List UInt8 → List Char
  | 0, _ => []
  | _ + 1, [] => []
  | fuel + 1, b :: bytes =>
    match decodeHead (b :: bytes) with
    | some c => c :: lossyLoop fuel ((b :: bytes).drop c.utf8Size)
    | none => '\uFFFD' :: lossyLoop fuel ((b :: bytes).drop (badLength (b :: bytes)))

def fromUtf8Lossy (bytes : List UInt8) : String := String.ofList (lossyLoop bytes.length bytes)

theorem decodeHead_encode (c : Char) (rest : List UInt8) :
    decodeHead (String.utf8EncodeChar c ++ rest) = some c := by
  have hdecode := @ByteArray.utf8DecodeChar?_utf8EncodeChar_append ⟨rest.toArray⟩ c
  have hbytes : (⟨(String.utf8EncodeChar c ++ rest).toArray⟩ : ByteArray) =
      (String.utf8EncodeChar c).toByteArray ++ ⟨rest.toArray⟩ := by
    apply ByteArray.ext
    rw [ByteArray.data_append, List.data_toByteArray, List.append_toArray]
  unfold decodeHead
  rw [hbytes]
  exact hdecode

theorem badLength_pos (bytes : List UInt8) : 1 ≤ badLength bytes ∧ badLength bytes ≤ 3 := by
  unfold badLength
  split
  · split
    · split <;> decide
    · decide
  · decide

/-- The text in front is decoded as it is, whatever follows. -/
theorem lossyLoop_append {fuel : ℕ} {cs : List Char} {rest : List UInt8}
    (h : (utf8Bytes cs ++ rest).length ≤ fuel) :
    ∃ fuel', rest.length ≤ fuel' ∧
      lossyLoop fuel (utf8Bytes cs ++ rest) = cs ++ lossyLoop fuel' rest := by
  induction cs generalizing fuel with
  | nil => exact ⟨fuel, h, rfl⟩
  | cons c cs ih =>
    have hsplit : utf8Bytes (c :: cs) ++ rest =
        String.utf8EncodeChar c ++ (utf8Bytes cs ++ rest) := List.append_assoc _ _ _
    have hpos := c.utf8Size_pos
    have hlength : (String.utf8EncodeChar c).length = c.utf8Size := String.length_utf8EncodeChar c
    rw [hsplit, List.length_append] at h
    rw [hsplit]
    cases fuel with
    | zero => omega
    | succ fuel =>
      obtain ⟨fuel', hfuel', hloop⟩ := @ih fuel (by omega)
      refine ⟨fuel', hfuel', ?_⟩
      have hhead := decodeHead_encode c (utf8Bytes cs ++ rest)
      cases hbytes : String.utf8EncodeChar c ++ (utf8Bytes cs ++ rest) with
      | nil =>
        have hempty := congrArg List.length hbytes
        rw [List.length_append] at hempty
        simp only [List.length_nil] at hempty
        omega
      | cons b bytes =>
        rw [hbytes] at hhead
        rw [lossyLoop, hhead]
        simp only
        rw [← hbytes, List.drop_left' hlength, hloop, List.cons_append]

theorem lossyLoop_nil (fuel : ℕ) : lossyLoop fuel [] = [] := by
  cases fuel <;> rfl

/-- Valid text is decoded as it is. -/
theorem lossyLoop_utf8Bytes {fuel : ℕ} {cs : List Char} (h : (utf8Bytes cs).length ≤ fuel) :
    lossyLoop fuel (utf8Bytes cs) = cs := by
  rw [← List.append_nil (utf8Bytes cs)] at h ⊢
  obtain ⟨fuel', -, hloop⟩ := lossyLoop_append h
  rw [hloop, lossyLoop_nil, List.append_nil]

/-- More rounds than bytes change nothing. -/
theorem lossyLoop_fuel {fuel fuel' : ℕ} {bytes : List UInt8} (h : bytes.length ≤ fuel)
    (h' : bytes.length ≤ fuel') : lossyLoop fuel bytes = lossyLoop fuel' bytes := by
  induction fuel generalizing fuel' bytes with
  | zero =>
    have hempty : bytes = [] := List.length_eq_zero_iff.mp (by omega)
    rw [hempty, lossyLoop_nil, lossyLoop_nil]
  | succ fuel ih =>
    cases bytes with
    | nil => rw [lossyLoop_nil, lossyLoop_nil]
    | cons b bytes =>
      cases fuel' with
      | zero => cases h'
      | succ fuel' =>
        have hrest : ∀ n, 1 ≤ n → lossyLoop fuel ((b :: bytes).drop n) =
            lossyLoop fuel' ((b :: bytes).drop n) := by
          intro n hn
          refine ih ?_ ?_
          · simp only [List.length_drop, List.length_cons] at h ⊢
            omega
          · simp only [List.length_drop, List.length_cons] at h' ⊢
            omega
        rw [lossyLoop, lossyLoop]
        cases decodeHead (b :: bytes) with
        | some c =>
          simp only
          rw [hrest _ c.utf8Size_pos]
        | none =>
          simp only
          rw [hrest _ (badLength_pos _).1]

theorem fromUtf8Lossy_append {front : List UInt8} (h : IsUtf8 front) (rest : List UInt8) :
    fromUtf8Lossy (front ++ rest) = fromUtf8Lossy front ++ fromUtf8Lossy rest := by
  obtain ⟨cs, hcs⟩ := h
  rw [hcs]
  unfold fromUtf8Lossy
  obtain ⟨fuel', hfuel', hloop⟩ := lossyLoop_append (Nat.le_refl (utf8Bytes cs ++ rest).length)
  rw [hloop, lossyLoop_fuel hfuel' (Nat.le_refl _), lossyLoop_utf8Bytes (Nat.le_refl _),
    String.ofList_append]

end AiGateway.Library
