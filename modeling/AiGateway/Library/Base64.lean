import Mathlib.Data.List.Basic

/-!
# Base64

Three bytes are written as four characters of one of two alphabets; the one or two bytes that
are left over as two or three, which may be filled up with `=`.
-/

namespace AiGateway.Library.Base64

inductive Alphabet where
  | standard
  | urlSafe
  deriving DecidableEq, Repr

/-- The character of six bits. -/
def Alphabet.char (a : Alphabet) (n : ℕ) : UInt8 :=
  if n < 26 then .ofNat (65 + n)
  else if n < 52 then .ofNat (71 + n)
  else if n < 62 then .ofNat (n - 4)
  else if n = 62 then
    match a with
    | .standard => 43
    | .urlSafe => 45
  else
    match a with
    | .standard => 47
    | .urlSafe => 95

def pad (padded : Bool) (n : ℕ) : List UInt8 := if padded then List.replicate n 61 else []

def encode (a : Alphabet) (padded : Bool) : List UInt8 → List UInt8
  | x :: y :: z :: rest =>
    a.char (x.toNat / 4) :: a.char (x.toNat % 4 * 16 + y.toNat / 16) ::
      a.char (y.toNat % 16 * 4 + z.toNat / 64) :: a.char (z.toNat % 64) :: encode a padded rest
  | [x, y] =>
    a.char (x.toNat / 4) :: a.char (x.toNat % 4 * 16 + y.toNat / 16) ::
      a.char (y.toNat % 16 * 4) :: pad padded 1
  | [x] => a.char (x.toNat / 4) :: a.char (x.toNat % 4 * 16) :: pad padded 2
  | [] => []

theorem char_ne_pad (a : Alphabet) (n : ℕ) : a.char n ≠ 61 := by
  intro h
  have hnat := congrArg UInt8.toNat h
  unfold Alphabet.char at hnat
  split at hnat
  · rw [UInt8.toNat_ofNat'] at hnat
    simp only [UInt8.reduceToNat] at hnat
    omega
  · split at hnat
    · rw [UInt8.toNat_ofNat'] at hnat
      simp only [UInt8.reduceToNat] at hnat
      omega
    · split at hnat
      · rw [UInt8.toNat_ofNat'] at hnat
        simp only [UInt8.reduceToNat] at hnat
        omega
      · cases a with
        | standard => split at hnat <;> exact absurd hnat (by decide)
        | urlSafe => split at hnat <;> exact absurd hnat (by decide)

theorem pad_length (padded : Bool) (n : ℕ) : (pad padded n).length = if padded then n else 0 := by
  cases padded with
  | false => rfl
  | true => exact List.length_replicate

theorem pad_count (padded : Bool) (n : ℕ) :
    (pad padded n).count 61 = if padded then n else 0 := by
  cases padded with
  | false => rfl
  | true => exact List.count_replicate_self

theorem count_char (a : Alphabet) (n : ℕ) (text : List UInt8) :
    (a.char n :: text).count 61 = text.count 61 :=
  List.count_cons_of_ne (char_ne_pad a n)

/-- Six bits for each character make eight for each byte, and a byte more for each `=`. -/
theorem encode_size (a : Alphabet) (padded : Bool) (bytes : List UInt8) :
    (encode a padded bytes).length * 6 / 8 = bytes.length + (encode a padded bytes).count 61 ∧
      (encode a padded bytes).count 61 ≤ 2 := by
  induction bytes using encode.induct with
  | case1 x y z rest ih =>
    rw [encode, count_char, count_char, count_char, count_char]
    simp only [List.length_cons]
    omega
  | case2 x y =>
    rw [encode, count_char, count_char, count_char]
    simp only [List.length_cons, List.length_nil, pad_length, pad_count]
    split <;> omega
  | case3 x =>
    rw [encode, count_char, count_char]
    simp only [List.length_cons, List.length_nil, pad_length, pad_count]
    split <;> omega
  | case4 =>
    rw [encode]
    decide

end AiGateway.Library.Base64
