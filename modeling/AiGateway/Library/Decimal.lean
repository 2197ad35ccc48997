import AiGateway.Library.MachineInt
import Mathlib.Tactic.Common

/-!
# Decimal texts of integers

Integers are printed with `toString`: an optional minus sign and digits without
leading zeros. Reading an `i64` accepts either sign and leading zeros, at least one
digit and nothing else, and rejects what is out of range.
-/

namespace AiGateway.Library.Decimal
open AiGateway.Library.MachineInt

def signed : List Char → Bool × List Char
  | '-' :: rest => (true, rest)
  | '+' :: rest => (false, rest)
  | cs => (false, cs)

/-- `str::parse::<i64>`. -/
def parseI64 (s : String) : Option Int :=
  let (negative, digits) := signed s.toList
  if digits.isEmpty || !digits.all Char.isDigit then none
  else
    let n : Int := Nat.ofDigitChars 10 digits 0
    let x := if negative then -n else n
    if InI64 x then some x else none

theorem toString_nat_toList (n : ℕ) : (toString n).toList = Nat.toDigits 10 n := by
  rw [Nat.toString_eq_ofList_toDigits, String.toList_ofList]

theorem toString_nat_inj {m n : ℕ} (h : toString m = toString n) : m = n := by
  have hlist := congrArg String.toList h
  have hnum := congrArg (fun ds => Nat.ofDigitChars 10 ds 0) hlist
  simpa [Nat.toString_eq_ofList_toDigits] using hnum

theorem isDigit_of_mem_toString {c : Char} {n : ℕ} (h : c ∈ (toString n).toList) :
    c.isDigit = true := by
  rw [toString_nat_toList] at h
  exact Nat.isDigit_of_mem_toDigits (by decide) (by decide) h

theorem toString_nat_ne {c : Char} (hc : c.isDigit = false) (m : ℕ) (s : String) :
    toString m ≠ String.ofList [c] ++ s := by
  intro h
  have hmem : c ∈ (toString m).toList := by
    rw [h, String.toList_append, String.toList_ofList]
    exact List.mem_append_left _ (List.mem_singleton.mpr rfl)
  have hdigit := isDigit_of_mem_toString hmem
  rw [hc] at hdigit
  cases hdigit

theorem toString_int_toList (x : Int) :
    (toString x).toList = if x < 0 then '-' :: Nat.toDigits 10 x.natAbs
      else Nat.toDigits 10 x.natAbs := by
  cases x with
  | ofNat n =>
    have hnot : ¬(Int.ofNat n < 0) := by
      simp
    rw [if_neg hnot]
    exact toString_nat_toList n
  | negSucc n =>
    rw [if_pos (Int.negSucc_lt_zero n)]
    have htext : toString (Int.negSucc n) = "-" ++ toString (n + 1) := rfl
    rw [htext, String.toList_append, toString_nat_toList]
    rfl

theorem notMem_toString_int {c : Char} (hc : c.isDigit = false) (hsign : c ≠ '-') (x : Int) :
    c ∉ (toString x).toList := by
  have hdigits : c ∉ Nat.toDigits 10 x.natAbs := by
    intro hmem
    have hdigit := Nat.isDigit_of_mem_toDigits (by decide) (by decide) hmem
    rw [hc] at hdigit
    cases hdigit
  rw [toString_int_toList]
  split
  · intro hmem
    rcases List.mem_cons.mp hmem with hfirst | hrest
    · exact hsign hfirst
    · exact hdigits hrest
  · exact hdigits

theorem signed_digits {cs : List Char} (h : ∀ c ∈ cs, c.isDigit = true) : signed cs = (false, cs) := by
  unfold signed
  split
  · exact absurd (h '-' (List.mem_cons_self ..)) (by decide)
  · exact absurd (h '+' (List.mem_cons_self ..)) (by decide)
  · rfl

/-- What is printed is read back. -/
theorem parseI64_toString {x : Int} (h : InI64 x) : parseI64 (toString x) = some x := by
  have hdigits : ∀ c ∈ Nat.toDigits 10 x.natAbs, c.isDigit = true :=
    fun c hc => Nat.isDigit_of_mem_toDigits (by decide) (by decide) hc
  have hsome : ((Nat.toDigits 10 x.natAbs).isEmpty ||
      !(Nat.toDigits 10 x.natAbs).all Char.isDigit) = false := by
    rw [Bool.or_eq_false_iff]
    refine ⟨?_, ?_⟩
    · simp [Nat.toDigits_ne_nil]
    · simpa using hdigits
  have hvalue : Nat.ofDigitChars 10 (Nat.toDigits 10 x.natAbs) 0 = x.natAbs := by
    simp
  unfold parseI64
  rw [toString_int_toList]
  by_cases hneg : x < 0
  · have hx : -(x.natAbs : Int) = x := by
      omega
    simp only [if_pos hneg, signed, hsome, Bool.false_eq_true, if_false, if_true, hvalue, hx, if_pos h]
  · have hx : (x.natAbs : Int) = x := by
      omega
    simp only [if_neg hneg, signed_digits hdigits, hsome, Bool.false_eq_true, if_false, hvalue, hx,
      if_pos h]

end AiGateway.Library.Decimal
