import Mathlib.Data.List.Basic

/-!
# Percent-coding of bytes

A `%` with two hexadecimal digits behind it stands for one byte, every other byte for itself.
Writing a text escapes the bytes of a set and leaves the others. It does not change what the text
stands for, so the length of the decoded text measures what a rewriting loses.
-/

namespace AiGateway.Library

def hexDigit (b : UInt8) : Option UInt8 :=
  if 48 ≤ b ∧ b ≤ 57 then some (b - 48)
  else if 65 ≤ b ∧ b ≤ 70 then some (b - 55)
  else if 97 ≤ b ∧ b ≤ 102 then some (b - 87)
  else none

/-- The byte of an escape, when the three bytes are one. -/
def escapedByte (b h l : UInt8) : Option UInt8 :=
  if b = 37 then (hexDigit h).bind fun high => (hexDigit l).map fun low => 16 * high + low
  else none

def percentDecode : List UInt8 → List UInt8
  | b :: h :: l :: rest =>
    match escapedByte b h l with
    | some byte => byte :: percentDecode rest
    | none => b :: percentDecode (h :: l :: rest)
  | short => short

/-- The byte does not open an escape. -/
def Standalone (b : UInt8) (bytes : List UInt8) : Prop :=
  ∀ h l rest, bytes = h :: l :: rest → escapedByte b h l = none

/-- A byte that escapes are made of. -/
def isCode (b : UInt8) : Bool := b = 37 || (hexDigit b).isSome

def decodedLength (bytes : List UInt8) : ℕ := (percentDecode bytes).length

@[elab_as_elim]
theorem percentDecode_induction {motive : List UInt8 → Prop} (nil : motive [])
    (escape : ∀ b h l rest byte, escapedByte b h l = some byte → motive rest →
      motive (b :: h :: l :: rest))
    (plain : ∀ b bytes, Standalone b bytes → motive bytes → motive (b :: bytes))
    (bytes : List UInt8) : motive bytes := by
  have hshort : ∀ b : UInt8, Standalone b [] := fun b h l rest heq => by cases heq
  induction bytes using percentDecode.induct with
  | case1 b h l rest byte hbyte ih => exact escape b h l rest byte hbyte ih
  | case2 b h l rest hbyte ih =>
    refine plain b _ (fun h' l' rest' heq => ?_) ih
    obtain ⟨rfl, htail⟩ := List.cons.inj heq
    obtain ⟨rfl, -⟩ := List.cons.inj htail
    exact hbyte
  | case3 short hlong =>
    match short with
    | [] => exact nil
    | [b] => exact plain b [] (hshort b) nil
    | [b, c] =>
      refine plain b [c] (fun h l rest heq => ?_) (plain c [] (hshort c) nil)
      cases heq
    | b :: h :: l :: rest => exact (hlong b h l rest rfl).elim

theorem escapedByte_codes {b h l byte : UInt8} (hbyte : escapedByte b h l = some byte) :
    b = 37 ∧ (hexDigit h).isSome = true ∧ (hexDigit l).isSome = true := by
  unfold escapedByte at hbyte
  split at hbyte
  · next hb =>
    obtain ⟨high, hhigh, hrest⟩ := Option.bind_eq_some_iff.mp hbyte
    obtain ⟨low, hlow, -⟩ := Option.map_eq_some_iff.mp hrest
    exact ⟨hb, by rw [hhigh]; rfl, by rw [hlow]; rfl⟩
  · cases hbyte

theorem isCode_digit {b : UInt8} (h : (hexDigit b).isSome = true) : isCode b = true := by
  rw [isCode, h, Bool.or_true]

theorem standalone_of_ne {b : UInt8} (h : b ≠ 37) (bytes : List UInt8) : Standalone b bytes :=
  fun _ _ _ _ => if_neg h

/-- The digits of an escape open none themselves. -/
theorem ne_percent_of_digit {b : UInt8} (h : (hexDigit b).isSome = true) : b ≠ 37 := by
  intro hb
  rw [hb] at h
  cases h

@[simp] theorem percentDecode_nil : percentDecode [] = [] := rfl

theorem percentDecode_escape {b h l byte : UInt8} (hbyte : escapedByte b h l = some byte)
    (rest : List UInt8) : percentDecode (b :: h :: l :: rest) = byte :: percentDecode rest := by
  rw [percentDecode, hbyte]

theorem percentDecode_standalone {b : UInt8} {bytes : List UInt8} (h : Standalone b bytes) :
    percentDecode (b :: bytes) = b :: percentDecode bytes := by
  match bytes with
  | [] => rfl
  | [c] => rfl
  | high :: low :: rest => rw [percentDecode, h high low rest rfl]

/-- A byte that no escape is made of keeps its two sides apart. -/
theorem percentDecode_append_cons (front : List UInt8) {b : UInt8} (hb : isCode b = false)
    (back : List UInt8) :
    percentDecode (front ++ b :: back) = percentDecode front ++ b :: percentDecode back := by
  induction front using percentDecode_induction with
  | nil =>
    refine percentDecode_standalone (standalone_of_ne (fun h => ?_) back)
    rw [h] at hb
    cases hb
  | escape c h l rest byte hbyte ih =>
    rw [List.cons_append, List.cons_append, List.cons_append, percentDecode_escape hbyte,
      percentDecode_escape hbyte, ih, List.cons_append]
  | plain c bytes hc ih =>
    have hlater : Standalone c (bytes ++ b :: back) := by
      intro h l rest heq
      match bytes, hc with
      | [], _ =>
        obtain ⟨rfl, -⟩ := List.cons.inj heq
        cases hsome : escapedByte c b l with
        | none => rfl
        | some byte =>
          rw [isCode_digit (escapedByte_codes hsome).2.1] at hb
          cases hb
      | [d], _ =>
        obtain ⟨rfl, htail⟩ := List.cons.inj heq
        obtain ⟨rfl, -⟩ := List.cons.inj htail
        cases hsome : escapedByte c d b with
        | none => rfl
        | some byte =>
          rw [isCode_digit (escapedByte_codes hsome).2.2] at hb
          cases hb
      | h' :: l' :: rest', hc =>
        obtain ⟨rfl, htail⟩ := List.cons.inj heq
        obtain ⟨rfl, -⟩ := List.cons.inj htail
        exact hc h' l' rest' rfl
    rw [List.cons_append, percentDecode_standalone hlater, percentDecode_standalone hc, ih,
      List.cons_append]

theorem decodedLength_append_cons (front : List UInt8) {b : UInt8} (hb : isCode b = false)
    (back : List UInt8) :
    decodedLength (front ++ b :: back) = decodedLength front + (decodedLength back + 1) := by
  unfold decodedLength
  rw [percentDecode_append_cons front hb back, List.length_append, List.length_cons]

theorem decodedLength_cons {b : UInt8} (hb : isCode b = false) (bytes : List UInt8) :
    decodedLength (b :: bytes) = decodedLength bytes + 1 := by
  have halone := decodedLength_append_cons [] hb bytes
  rw [List.nil_append] at halone
  rw [halone]
  exact Nat.zero_add _

theorem decodedLength_append {front back : List UInt8} (h : ∀ b ∈ back.head?, isCode b = false) :
    decodedLength (front ++ back) = decodedLength front + decodedLength back := by
  match back with
  | [] =>
    rw [List.append_nil]
    rfl
  | b :: back => rw [decodedLength_append_cons front (h b rfl), decodedLength_cons (h b rfl)]

theorem decodedLength_le (bytes : List UInt8) : decodedLength bytes ≤ bytes.length := by
  induction bytes using percentDecode_induction with
  | nil => exact Nat.le_refl _
  | escape b h l rest byte hbyte ih =>
    unfold decodedLength at ih ⊢
    rw [percentDecode_escape hbyte]
    simp only [List.length_cons]
    omega
  | plain b bytes hb ih =>
    unfold decodedLength at ih ⊢
    rw [percentDecode_standalone hb, List.length_cons, List.length_cons]
    omega

/-- A text that keeps its length has no escape. -/
theorem percentDecode_eq_of_length {bytes : List UInt8} (h : bytes.length ≤ decodedLength bytes) :
    percentDecode bytes = bytes := by
  induction bytes using percentDecode_induction with
  | nil => rfl
  | escape b high low rest byte hbyte ih =>
    have hrest := decodedLength_le rest
    unfold decodedLength at h hrest
    rw [percentDecode_escape hbyte] at h
    simp only [List.length_cons] at h
    omega
  | plain b bytes hb ih =>
    unfold decodedLength at h ih
    rw [percentDecode_standalone hb] at h ⊢
    simp only [List.length_cons] at h
    rw [ih (by omega)]

theorem decodedLength_cons_le (b : UInt8) (bytes : List UInt8) :
    decodedLength (b :: bytes) ≤ decodedLength bytes + 1 := by
  match bytes with
  | [] => exact Nat.le_refl _
  | [c] => exact Nat.le_refl _
  | h :: l :: rest =>
    cases hbyte : escapedByte b h l with
    | some byte =>
      obtain ⟨-, hh, hl⟩ := escapedByte_codes hbyte
      unfold decodedLength
      rw [percentDecode_escape hbyte,
        percentDecode_standalone (standalone_of_ne (ne_percent_of_digit hh) _),
        percentDecode_standalone (standalone_of_ne (ne_percent_of_digit hl) _)]
      simp only [List.length_cons]
      omega
    | none =>
      unfold decodedLength
      rw [percentDecode, hbyte]
      exact Nat.le_refl _

theorem decodedLength_eq_zero_iff {bytes : List UInt8} : decodedLength bytes = 0 ↔ bytes = [] := by
  induction bytes using percentDecode_induction with
  | nil => simp [decodedLength]
  | escape b h l rest byte hbyte ih => simp [decodedLength, percentDecode_escape hbyte]
  | plain b bytes hb ih => simp [decodedLength, percentDecode_standalone hb]

/-- Bytes that are dropped are missing, if no escape is made of them. -/
theorem decodedLength_filter {keep : UInt8 → Bool} (hkeep : ∀ b, isCode b = true → keep b = true)
    (bytes : List UInt8) :
    bytes.filter keep = bytes ∨ decodedLength (bytes.filter keep) < decodedLength bytes := by
  induction bytes using percentDecode_induction with
  | nil => exact Or.inl rfl
  | escape b h l rest byte hbyte ih =>
    obtain ⟨hb, hh, hl⟩ := escapedByte_codes hbyte
    have hcode : isCode b = true := by
      rw [hb]
      rfl
    rw [List.filter_cons_of_pos (hkeep b hcode),
      List.filter_cons_of_pos (hkeep h (isCode_digit hh)),
      List.filter_cons_of_pos (hkeep l (isCode_digit hl))]
    unfold decodedLength at ih ⊢
    rw [percentDecode_escape hbyte, percentDecode_escape hbyte, List.length_cons, List.length_cons]
    rcases ih with hsame | hless
    · exact Or.inl (by rw [hsame])
    · exact Or.inr (by omega)
  | plain b bytes hb ih =>
    have hwhole : decodedLength (b :: bytes) = decodedLength bytes + 1 := by
      unfold decodedLength
      rw [percentDecode_standalone hb, List.length_cons]
    cases hkept : keep b with
    | true =>
      have hcons := decodedLength_cons_le b (bytes.filter keep)
      rw [List.filter_cons_of_pos hkept]
      rcases ih with hsame | hless
      · exact Or.inl (by rw [hsame])
      · exact Or.inr (by omega)
    | false =>
      rw [List.filter_cons_of_neg (by rw [hkept]; exact Bool.false_ne_true)]
      rcases ih with hsame | hless
      · rw [hsame]
        exact Or.inr (by omega)
      · exact Or.inr (by omega)

/-- Bytes of which no escape is made may be replaced by others. -/
theorem decodedLength_map {f : UInt8 → UInt8} (hcode : ∀ b, isCode b = true → f b = b)
    (hother : ∀ b, isCode b = false → isCode (f b) = false) (bytes : List UInt8) :
    decodedLength (bytes.map f) = decodedLength bytes := by
  induction bytes using percentDecode_induction with
  | nil => rfl
  | escape b h l rest byte hbyte ih =>
    obtain ⟨hb, hh, hl⟩ := escapedByte_codes hbyte
    have hpercent : isCode b = true := by
      rw [hb]
      rfl
    rw [List.map_cons, List.map_cons, List.map_cons, hcode b hpercent, hcode h (isCode_digit hh),
      hcode l (isCode_digit hl)]
    unfold decodedLength at ih ⊢
    rw [percentDecode_escape hbyte, percentDecode_escape hbyte, List.length_cons, List.length_cons,
      ih]
  | plain b bytes hb ih =>
    have hdigit : ∀ c, (hexDigit (f c)).isSome = true → f c = c := by
      intro c hc
      cases hcodes : isCode c with
      | true => exact hcode c hcodes
      | false =>
        have hnone := hother c hcodes
        rw [isCode_digit hc] at hnone
        cases hnone
    have hlater : Standalone (f b) (bytes.map f) := by
      intro h l rest heq
      match bytes, hb with
      | [], _ => cases heq
      | [c], _ => cases heq
      | h' :: l' :: rest', hb =>
        obtain ⟨rfl, htail⟩ := List.cons.inj heq
        obtain ⟨rfl, -⟩ := List.cons.inj htail
        cases hsome : escapedByte (f b) (f h') (f l') with
        | none => rfl
        | some byte =>
          obtain ⟨hfb, hh, hl⟩ := escapedByte_codes hsome
          have hbpercent : b = 37 := by
            cases hcodes : isCode b with
            | true => rw [← hcode b hcodes, hfb]
            | false =>
              have hnone := hother b hcodes
              rw [hfb] at hnone
              cases hnone
          rw [hdigit h' hh, hdigit l' hl, hfb, ← hbpercent, hb h' l' rest' rfl] at hsome
          cases hsome
    unfold decodedLength at ih ⊢
    rw [List.map_cons, percentDecode_standalone hlater, percentDecode_standalone hb,
      List.length_cons, List.length_cons, ih]

/-! ### Writing -/

/-- The bytes that are written as escapes. -/
structure EscapeSet where
  escapes : UInt8 → Bool
  codes : ∀ b, isCode b = true → escapes b = false
  slash : escapes 47 = false

def hexUpper (n : UInt8) : UInt8 := if n < 10 then 48 + n else 55 + n

def escapeOf (b : UInt8) : List UInt8 := [37, hexUpper (b / 16), hexUpper (b % 16)]

theorem escapedByte_escapeOf (b : UInt8) :
    escapedByte 37 (hexUpper (b / 16)) (hexUpper (b % 16)) = some b := by
  have hall : ∀ n : Fin 256, escapedByte 37 (hexUpper (UInt8.ofNat n.val / 16))
      (hexUpper (UInt8.ofNat n.val % 16)) = some (UInt8.ofNat n.val) := by decide +kernel
  have hb := hall ⟨b.toNat, b.toNat_lt⟩
  rwa [UInt8.ofNat_toNat] at hb

namespace EscapeSet
variable (set : EscapeSet)

def encode (bytes : List UInt8) : List UInt8 :=
  bytes.flatMap fun b => if set.escapes b then escapeOf b else [b]

/-- Each byte is left as it is, or belongs to the escape of a byte that is not. -/
def wellEscaped : List UInt8 → Bool
  | b :: h :: l :: rest =>
    match escapedByte b h l with
    | some byte => set.escapes byte && ([b, h, l] == escapeOf byte) && wellEscaped rest
    | none => !set.escapes b && wellEscaped (h :: l :: rest)
  | short => short.all fun b => !set.escapes b

theorem encode_append (front back : List UInt8) :
    set.encode (front ++ back) = set.encode front ++ set.encode back := List.flatMap_append

theorem encode_cons_escaped {b : UInt8} (h : set.escapes b = true) (bytes : List UInt8) :
    set.encode (b :: bytes) = escapeOf b ++ set.encode bytes := by
  unfold encode
  rw [List.flatMap_cons, if_pos h]

theorem encode_cons_plain {b : UInt8} (h : set.escapes b = false) (bytes : List UInt8) :
    set.encode (b :: bytes) = b :: set.encode bytes := by
  unfold encode
  rw [List.flatMap_cons, if_neg (by rw [h]; exact Bool.false_ne_true)]
  rfl

theorem encode_length (bytes : List UInt8) : bytes.length ≤ (set.encode bytes).length := by
  induction bytes with
  | nil => exact Nat.le_refl _
  | cons b bytes ih =>
    cases hb : set.escapes b with
    | true =>
      rw [set.encode_cons_escaped hb, List.length_append, List.length_cons]
      simp only [escapeOf, List.length_cons, List.length_nil]
      omega
    | false =>
      rw [set.encode_cons_plain hb, List.length_cons, List.length_cons]
      omega

/-- An escape stands for its byte whatever is behind it. -/
theorem percentDecode_escapeOf (b : UInt8) (rest : List UInt8) :
    percentDecode (escapeOf b ++ rest) = b :: percentDecode rest :=
  percentDecode_escape (escapedByte_escapeOf b) rest

/-- Writing changes the spelling only. -/
theorem percentDecode_encode (bytes : List UInt8) :
    percentDecode (set.encode bytes) = percentDecode bytes := by
  induction bytes using percentDecode_induction with
  | nil => rfl
  | escape b h l rest byte hbyte ih =>
    obtain ⟨hb, hh, hl⟩ := escapedByte_codes hbyte
    have hpercent : isCode b = true := by
      rw [hb]
      rfl
    rw [set.encode_cons_plain (set.codes b hpercent),
      set.encode_cons_plain (set.codes h (isCode_digit hh)),
      set.encode_cons_plain (set.codes l (isCode_digit hl)), percentDecode_escape hbyte,
      percentDecode_escape hbyte, ih]
  | plain b bytes hb ih =>
    rw [percentDecode_standalone hb]
    cases hescapes : set.escapes b with
    | true => rw [set.encode_cons_escaped hescapes, percentDecode_escapeOf, ih]
    | false =>
      have hlater : Standalone b (set.encode bytes) := by
        intro h l rest heq
        cases hsome : escapedByte b h l with
        | none => rfl
        | some byte =>
          -- neither digit is the `%` of an escape, so both stood there before
          obtain ⟨-, hh, hl⟩ := escapedByte_codes hsome
          have hhead : ∀ {c : UInt8} {bytes' front}, set.encode bytes' = c :: front →
              (hexDigit c).isSome = true → ∃ back, bytes' = c :: back ∧ front = set.encode back := by
            intro c bytes' front hcons hdigit
            match bytes' with
            | [] => cases hcons
            | d :: back =>
              cases hd : set.escapes d with
              | true =>
                rw [set.encode_cons_escaped hd] at hcons
                exact (ne_percent_of_digit hdigit (List.cons.inj hcons).1.symm).elim
              | false =>
                rw [set.encode_cons_plain hd] at hcons
                obtain ⟨rfl, hfront⟩ := List.cons.inj hcons
                exact ⟨back, rfl, hfront.symm⟩
          obtain ⟨back, hbytes, hfront⟩ := hhead heq hh
          obtain ⟨back', hback, -⟩ := hhead hfront.symm hl
          rw [hb h l back' (by rw [hbytes, hback])] at hsome
          cases hsome
      rw [set.encode_cons_plain hescapes, percentDecode_standalone hlater, ih]

theorem decodedLength_encode (bytes : List UInt8) :
    decodedLength (set.encode bytes) = decodedLength bytes := by
  unfold decodedLength
  rw [set.percentDecode_encode]

theorem wellEscaped_standalone {b : UInt8} {bytes : List UInt8} (h : Standalone b bytes) :
    set.wellEscaped (b :: bytes) = (!set.escapes b && set.wellEscaped bytes) := by
  match bytes with
  | [] => rfl
  | [c] => rfl
  | high :: low :: rest => rw [wellEscaped, h high low rest rfl]

/-- The texts that come back when what they stand for is written. -/
theorem encode_percentDecode_iff {bytes : List UInt8} :
    set.encode (percentDecode bytes) = bytes ↔ set.wellEscaped bytes = true := by
  induction bytes using percentDecode_induction with
  | nil => exact ⟨fun _ => rfl, fun _ => rfl⟩
  | escape b h l rest byte hbyte ih =>
    obtain ⟨hb, hh, hl⟩ := escapedByte_codes hbyte
    rw [percentDecode_escape hbyte, wellEscaped, hbyte]
    simp only [Bool.and_eq_true, beq_iff_eq, ← ih]
    cases hescapes : set.escapes byte with
    | true =>
      rw [set.encode_cons_escaped hescapes]
      constructor
      · intro heq
        obtain ⟨hcode, hrest⟩ := List.append_inj
          (show escapeOf byte ++ set.encode (percentDecode rest) = [b, h, l] ++ rest from heq) rfl
        exact ⟨⟨rfl, hcode.symm⟩, hrest⟩
      · intro heq
        rw [← heq.1.2, heq.2]
        rfl
    | false =>
      rw [set.encode_cons_plain hescapes]
      constructor
      · intro heq
        -- the two digits of the escape would be left over
        have hlength := congrArg decodedLength (List.cons.inj heq).2
        have hshorter := decodedLength_le (percentDecode rest)
        rw [set.decodedLength_encode] at hlength
        unfold decodedLength at hlength hshorter
        rw [percentDecode_standalone (standalone_of_ne (ne_percent_of_digit hh) _),
          percentDecode_standalone (standalone_of_ne (ne_percent_of_digit hl) _)] at hlength
        simp only [List.length_cons] at hlength
        omega
      · intro heq
        cases heq.1.1
  | plain b bytes hb ih =>
    rw [percentDecode_standalone hb, set.wellEscaped_standalone hb]
    simp only [Bool.and_eq_true, ← ih]
    cases hescapes : set.escapes b with
    | true =>
      rw [set.encode_cons_escaped hescapes]
      constructor
      · intro heq
        rw [← (List.cons.inj heq).1, set.codes 37 rfl] at hescapes
        cases hescapes
      · intro heq
        cases heq.1
    | false =>
      rw [set.encode_cons_plain hescapes, List.cons_inj_right]
      exact ⟨fun heq => ⟨rfl, heq⟩, fun heq => heq.2⟩

end EscapeSet
end AiGateway.Library
