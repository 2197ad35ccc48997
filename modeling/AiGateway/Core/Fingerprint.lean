import AiGateway.Core.Json
import AiGateway.Library.PrefixCode
import Mathlib.Data.List.Sort
import Mathlib.Data.String.Basic

/-!
# Request fingerprints (`gateway-core/src/cache/fingerprint.rs`)

The bytes that `fingerprint` feeds into BLAKE3. The hash and the decimal text of
a JSON number come from crates, and are the parameters `blake3Hex` and
`numText`. The canonical encoding of a JSON value is shown to be self-delimiting
and to determine the value up to the order of object keys.
-/

namespace AiGateway.Core
open AiGateway.Library.PrefixCode

section
variable {β : Type}

def sortByKey (fields : List (String × β)) : List (String × β) :=
  fields.insertionSort fun f g => f.1 ≤ g.1

end

section
variable (numText : Number → String)

mutual

def hashJsonValue : Value → Bytes
  | .null => asBytes "n"
  | .bool b => if b then asBytes "b1" else asBytes "b0"
  | .number n => asBytes "d" ++ frame 8 (asBytes (numText n))
  | .string s => asBytes "s" ++ frame 8 (asBytes s)
  | .array items => asBytes "a" ++ (leBytes 8 items.length ++ hashItems items)
  | .object fields =>
    asBytes "o" ++ (leBytes 8 fields.length ++
      (sortByKey (hashFields fields)).flatMap fun f => frame 8 (asBytes f.1) ++ f.2)

def hashItems : List Value → Bytes
  | [] => []
  | v :: vs => hashJsonValue v ++ hashItems vs

def hashFields : List (String × Value) → List (String × Bytes)
  | [] => []
  | (key, v) :: fields => (key, hashJsonValue v) :: hashFields fields

end

end

mutual

def Value.sortKeys : Value → Value
  | .null => .null
  | .bool b => .bool b
  | .number n => .number n
  | .string s => .string s
  | .array items => .array (sortKeysItems items)
  | .object fields => .object (sortByKey (sortKeysFields fields))

def sortKeysItems : List Value → List Value
  | [] => []
  | v :: vs => v.sortKeys :: sortKeysItems vs

def sortKeysFields : List (String × Value) → List (String × Value)
  | [] => []
  | (key, v) :: fields => (key, v.sortKeys) :: sortKeysFields fields

end

/-- Equal up to the order of object keys. -/
def Value.SameUpToKeyOrder (v w : Value) : Prop := v.sortKeys = w.sortKeys

structure FingerprintInputs where
  ns : String
  endpoint : String
  body : Bytes
  jsonBody : Option Value
  cacheScope : Option String

def bar : UInt8 := 124

def fingerprintBytes (numText : Number → String) (inp : FingerprintInputs) : Bytes :=
  asBytes inp.ns ++ bar :: (asBytes inp.endpoint ++ bar ::
    ((match inp.cacheScope with
      | some s => asBytes s
      | none => []) ++ bar ::
      (match inp.jsonBody with
      | some value => hashJsonValue numText value
      | none => inp.body)))

def fingerprint (blake3Hex : Bytes → String) (numText : Number → String)
    (inp : FingerprintInputs) : String :=
  blake3Hex (fingerprintBytes numText inp)

/-! ### The encoding can be read back -/

/-- Every length inside the value is a `usize` of 64 bits. -/
inductive Value.Fits (numText : Number → String) : Value → Prop where
  | null : Fits numText .null
  | bool (b : Bool) : Fits numText (.bool b)
  | number (n : Number) (h : (asBytes (numText n)).length < 256 ^ 8) : Fits numText (.number n)
  | string (s : String) (h : (asBytes s).length < 256 ^ 8) : Fits numText (.string s)
  | array (items : List Value) (h : items.length < 256 ^ 8)
      (hitems : ∀ v ∈ items, Fits numText v) : Fits numText (.array items)
  | object (fields : List (String × Value)) (h : fields.length < 256 ^ 8)
      (hkeys : ∀ f ∈ fields, (asBytes f.1).length < 256 ^ 8)
      (hvalues : ∀ f ∈ fields, Fits numText f.2) : Fits numText (.object fields)

theorem hashItems_eq (numText : Number → String) (items : List Value) :
    hashItems numText items = items.flatMap (hashJsonValue numText) := by
  induction items with
  | nil => rfl
  | cons v vs ih => simp [hashItems, ih]

theorem hashFields_eq (numText : Number → String) (fields : List (String × Value)) :
    hashFields numText fields = fields.map fun f => (f.1, hashJsonValue numText f.2) := by
  induction fields with
  | nil => rfl
  | cons f fields ih => simp [hashFields, ih]

theorem sortKeysItems_eq (items : List Value) : sortKeysItems items = items.map Value.sortKeys := by
  induction items with
  | nil => rfl
  | cons v vs ih => simp [sortKeysItems, ih]

theorem sortKeysFields_eq (fields : List (String × Value)) :
    sortKeysFields fields = fields.map fun f => (f.1, f.2.sortKeys) := by
  induction fields with
  | nil => rfl
  | cons f fields ih => simp [sortKeysFields, ih]

theorem sortByKey_map {β γ : Type} (g : β → γ) (fields : List (String × β)) :
    sortByKey (fields.map fun f => (f.1, g f.2)) =
      (sortByKey fields).map fun f => (f.1, g f.2) := by
  refine (List.map_insertionSort _ _ _ fields ?_).symm
  intro a _ b _
  exact Iff.rfl

theorem mem_sortByKey {β : Type} {fields : List (String × β)} {f : String × β} :
    f ∈ sortByKey fields ↔ f ∈ fields :=
  (List.perm_insertionSort _ fields).mem_iff

theorem length_sortByKey {β : Type} (fields : List (String × β)) :
    (sortByKey fields).length = fields.length :=
  List.length_insertionSort _ fields

def Value.tag : Value → UInt8
  | .null => 110
  | .bool _ => 98
  | .number _ => 100
  | .string _ => 115
  | .array _ => 97
  | .object _ => 111

theorem hashJsonValue_head (numText : Number → String) (v : Value) :
    ∃ payload, hashJsonValue numText v = v.tag :: payload := by
  cases v with
  | null => exact ⟨[], by rw [hashJsonValue]; rfl⟩
  | bool b => cases b <;> exact ⟨_, by rw [hashJsonValue]; rfl⟩
  | number n => exact ⟨_, by rw [hashJsonValue]; rfl⟩
  | string s => exact ⟨_, by rw [hashJsonValue]; rfl⟩
  | array items => exact ⟨_, by rw [hashJsonValue]; rfl⟩
  | object fields => exact ⟨_, by rw [hashJsonValue]; rfl⟩

theorem tag_eq_of_hash {numText : Number → String} {v w : Value} {x y : Bytes}
    (h : hashJsonValue numText v ++ x = hashJsonValue numText w ++ y) : v.tag = w.tag := by
  obtain ⟨p, hp⟩ := hashJsonValue_head numText v
  obtain ⟨q, hq⟩ := hashJsonValue_head numText w
  rw [hp, hq, List.cons_append, List.cons_append, List.cons.injEq] at h
  exact h.1

/-- The encodings of `v` and of any other value differ before either ends, unless
the values are the same up to key order. -/
def Delimited (numText : Number → String) (v : Value) : Prop :=
  ∀ w x y, v.Fits numText → w.Fits numText →
    hashJsonValue numText v ++ x = hashJsonValue numText w ++ y → v.SameUpToKeyOrder w ∧ x = y

theorem map_eq_of_forall₂ {α γ : Type} {g : α → γ} {as bs : List α}
    (h : List.Forall₂ (fun a b => g a = g b) as bs) : as.map g = bs.map g := by
  induction h with
  | nil => rfl
  | cons hab _ ih => rw [List.map_cons, List.map_cons, hab, ih]

theorem delimited_array {numText : Number → String} {items : List Value}
    (ih : ∀ v ∈ items, Delimited numText v) {others : List Value} {x y : Bytes}
    (hv : (Value.array items).Fits numText) (hw : (Value.array others).Fits numText)
    (h : hashJsonValue numText (.array items) ++ x = hashJsonValue numText (.array others) ++ y) :
    (Value.array items).SameUpToKeyOrder (.array others) ∧ x = y := by
  cases hv with
  | array _ hlen hitems =>
    cases hw with
    | array _ hlen' hothers =>
      simp only [hashJsonValue, hashItems_eq, List.append_assoc, List.append_cancel_left_eq] at h
      obtain ⟨hn, hrest⟩ := List.append_inj h (by simp)
      obtain ⟨hall, hx⟩ := flatMap_append_inj (leBytes_inj hlen hlen' hn)
        (fun a ha b hb x y hab => ih a ha b x y (hitems a ha) (hothers b hb) hab) hrest
      refine ⟨?_, hx⟩
      simp only [Value.SameUpToKeyOrder, Value.sortKeys, sortKeysItems_eq, Value.array.injEq]
      exact map_eq_of_forall₂ hall

theorem hashJsonValue_object (numText : Number → String) (fields : List (String × Value)) :
    hashJsonValue numText (.object fields) =
      asBytes "o" ++ (leBytes 8 fields.length ++
        (sortByKey fields).flatMap fun f =>
          frame 8 (asBytes f.1) ++ hashJsonValue numText f.2) := by
  rw [hashJsonValue, hashFields_eq, sortByKey_map, List.flatMap_map]

theorem delimited_object {numText : Number → String} {fields : List (String × Value)}
    (ih : ∀ f ∈ fields, Delimited numText f.2) {others : List (String × Value)} {x y : Bytes}
    (hv : (Value.object fields).Fits numText) (hw : (Value.object others).Fits numText)
    (h : hashJsonValue numText (.object fields) ++ x = hashJsonValue numText (.object others) ++ y) :
    (Value.object fields).SameUpToKeyOrder (.object others) ∧ x = y := by
  cases hv with
  | object _ hlen hkeys hvalues =>
    cases hw with
    | object _ hlen' hkeys' hvalues' =>
      simp only [hashJsonValue_object, List.append_assoc, List.append_cancel_left_eq] at h
      obtain ⟨hn, hrest⟩ := List.append_inj h (by simp)
      have hcount : (sortByKey fields).length = (sortByKey others).length := by
        rw [length_sortByKey, length_sortByKey]
        exact leBytes_inj hlen hlen' hn
      -- a field is its framed key and then its value, both self-delimiting
      have hfield : ∀ f ∈ sortByKey fields, ∀ g ∈ sortByKey others, ∀ x y,
          (frame 8 (asBytes f.1) ++ hashJsonValue numText f.2) ++ x =
            (frame 8 (asBytes g.1) ++ hashJsonValue numText g.2) ++ y →
          (f.1, f.2.sortKeys) = (g.1, g.2.sortKeys) ∧ x = y := by
        intro f hf g hg x y hfg
        have hf' := mem_sortByKey.mp hf
        have hg' := mem_sortByKey.mp hg
        simp only [List.append_assoc] at hfg
        obtain ⟨hkey, hvalue⟩ := frame_append_inj (hkeys f hf') (hkeys' g hg') hfg
        obtain ⟨hsame, hx⟩ := ih f hf' g.2 x y (hvalues f hf') (hvalues' g hg') hvalue
        exact ⟨Prod.ext (asBytes_injective hkey) hsame, hx⟩
      obtain ⟨hall, hx⟩ := flatMap_append_inj hcount hfield hrest
      refine ⟨?_, hx⟩
      simp only [Value.SameUpToKeyOrder, Value.sortKeys, sortKeysFields_eq, sortByKey_map]
      rw [map_eq_of_forall₂ hall]

/-- The canonical encoding is self-delimiting and determines the value up to the
order of object keys. -/
theorem hashJsonValue_delimited {numText : Number → String}
    (hnum : Function.Injective numText) (v : Value) : Delimited numText v := by
  induction v using Value.inductionOn with
  | null =>
    intro w x y _ _ h
    have htag := tag_eq_of_hash h
    cases w with
    | null =>
      simp only [hashJsonValue, List.append_cancel_left_eq] at h
      exact ⟨rfl, h⟩
    | _ => cases htag
  | bool b =>
    intro w x y _ _ h
    have htag := tag_eq_of_hash h
    cases w with
    | bool c =>
      have hlen : (hashJsonValue numText (.bool b)).length = (hashJsonValue numText (.bool c)).length := by
        cases b <;> cases c <;> simp [hashJsonValue] <;> rfl
      obtain ⟨hcode, hx⟩ := List.append_inj h hlen
      have hbc : b = c := by
        cases b <;> cases c <;> simp only [hashJsonValue] at hcode ⊢ <;> exact absurd hcode (by decide)
      exact ⟨by rw [hbc]; rfl, hx⟩
    | _ => cases htag
  | number n =>
    intro w x y hv hw h
    have htag := tag_eq_of_hash h
    cases w with
    | number m =>
      cases hv with
      | number _ hn =>
        cases hw with
        | number _ hm =>
          simp only [hashJsonValue, List.append_assoc, List.append_cancel_left_eq] at h
          obtain ⟨htext, hx⟩ := frame_append_inj hn hm h
          rw [hnum (asBytes_injective htext)]
          exact ⟨rfl, hx⟩
    | _ => cases htag
  | string s =>
    intro w x y hv hw h
    have htag := tag_eq_of_hash h
    cases w with
    | string t =>
      cases hv with
      | string _ hs =>
        cases hw with
        | string _ ht =>
          simp only [hashJsonValue, List.append_assoc, List.append_cancel_left_eq] at h
          obtain ⟨htext, hx⟩ := frame_append_inj hs ht h
          rw [asBytes_injective htext]
          exact ⟨rfl, hx⟩
    | _ => cases htag
  | array items ih =>
    intro w x y hv hw h
    have htag := tag_eq_of_hash h
    cases w with
    | array others => exact delimited_array ih hv hw h
    | _ => cases htag
  | object fields ih =>
    intro w x y hv hw h
    have htag := tag_eq_of_hash h
    cases w with
    | object others => exact delimited_object ih hv hw h
    | _ => cases htag

end AiGateway.Core
