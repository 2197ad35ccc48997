import Mathlib.Data.List.Forall2
import Mathlib.Tactic.Ring

/-!
# Self-delimiting byte codes

Codes that can be read off the front of a byte string without looking behind
them: fixed-width little-endian numbers, byte strings behind their length,
sequences of such codes behind their number. A separator byte delimits a field
as far as the fields contain equally many separators.
-/

namespace AiGateway.Library.PrefixCode

def leBytes : ℕ → ℕ → List UInt8
  | 0, _ => []
  | k + 1, n => UInt8.ofNat n :: leBytes k (n / 256)

@[simp] theorem leBytes_length (k n : ℕ) : (leBytes k n).length = k := by
  induction k generalizing n with
  | zero => rfl
  | succ k ih => simp [leBytes, ih]

theorem leBytes_inj {k n m : ℕ} (hn : n < 256 ^ k) (hm : m < 256 ^ k)
    (h : leBytes k n = leBytes k m) : n = m := by
  induction k generalizing n m with
  | zero =>
    simp only [pow_zero] at hn hm
    omega
  | succ k ih =>
    simp only [leBytes, List.cons.injEq] at h
    have hlow : n % 256 = m % 256 := by
      have hbyte := congrArg UInt8.toNat h.1
      simpa using hbyte
    have hhigh : n / 256 = m / 256 := by
      refine ih ?_ ?_ h.2
      · rw [pow_succ] at hn
        omega
      · rw [pow_succ] at hm
        omega
    omega

/-- A byte string behind its length. -/
def frame (k : ℕ) (bytes : List UInt8) : List UInt8 := leBytes k bytes.length ++ bytes

theorem frame_append_inj {k : ℕ} {a b x y : List UInt8} (ha : a.length < 256 ^ k)
    (hb : b.length < 256 ^ k) (h : frame k a ++ x = frame k b ++ y) : a = b ∧ x = y := by
  simp only [frame, List.append_assoc] at h
  obtain ⟨hlen, hrest⟩ := List.append_inj h (by simp)
  exact List.append_inj hrest (leBytes_inj ha hb hlen)

/-- Equally many self-delimiting items in a row can be told apart one by one; what
equal codes say about two items is the relation `R`. -/
theorem flatMap_append_inj {α : Type} {code : α → List UInt8} {R : α → α → Prop} {as bs : List α}
    {x y : List UInt8} (hlen : as.length = bs.length)
    (hitem : ∀ a ∈ as, ∀ b ∈ bs, ∀ x y, code a ++ x = code b ++ y → R a b ∧ x = y)
    (h : as.flatMap code ++ x = bs.flatMap code ++ y) : List.Forall₂ R as bs ∧ x = y := by
  induction as generalizing bs with
  | nil =>
    rw [List.length_nil] at hlen
    have hbs : bs = [] := List.eq_nil_of_length_eq_zero hlen.symm
    subst hbs
    exact ⟨.nil, by simpa using h⟩
  | cons a as ih =>
    cases bs with
    | nil => simp at hlen
    | cons b bs =>
      simp only [List.flatMap_cons, List.append_assoc] at h
      obtain ⟨hab, hrest⟩ := hitem a (List.mem_cons_self ..) b (List.mem_cons_self ..) _ _ h
      obtain ⟨htail, hx⟩ := ih (by simpa using hlen)
        (fun a' ha' b' hb' => hitem a' (List.mem_cons_of_mem _ ha') b' (List.mem_cons_of_mem _ hb'))
        hrest
      exact ⟨.cons hab htail, hx⟩

end AiGateway.Library.PrefixCode
