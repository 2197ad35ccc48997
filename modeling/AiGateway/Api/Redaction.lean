import AiGateway.Api.ShownStrings

/-!
# What the logged request tells of a payload (`gateway-api/src/routes/proxy.rs:695-820`)

Two requests that differ in payloads only: in the strings below a field that is forced, and in
the payloads of data URLs. Their logs are the same if the strings in which they differ are logged
alike, each at its place in the text; and if one of these strings is told, the log of some request
tells it.
-/

namespace AiGateway.Api
open AiGateway.Core AiGateway.Library

/-! ### Two requests -/

mutual

/-- The second value is the first one with other payloads. -/
def Swapped (inside : Bool) : Value → Value → Prop
  | .null, v' => v' = .null
  | .bool b, v' => v' = .bool b
  | .number n, v' => v' = .number n
  | .string s, v' => ∃ s', v' = .string s' ∧ SwapString inside s s'
  | .array items, v' => ∃ items', v' = .array items' ∧ SwappedItems inside items items'
  | .object fields, v' =>
    ∃ fields', v' = .object fields' ∧ SwappedFields inside (declaresBase64 fields) fields fields'

def SwappedItems (inside : Bool) : List Value → List Value → Prop
  | [], vs' => vs' = []
  | v :: vs, vs' => ∃ v' rest, vs' = v' :: rest ∧ Swapped inside v v' ∧ SwappedItems inside vs rest

def SwappedFields (inside declares : Bool) :
    List (String × Value) → List (String × Value) → Prop
  | [], fields' => fields' = []
  | (key, v) :: fields, fields' =>
    ∃ v' rest, fields' = (key, v') :: rest ∧
      Swapped (inside || forcesBase64 declares key) v v' ∧ SwappedFields inside declares fields rest

end

/-! ### What is hidden -/

/-- The type of the object may be replaced so that it starts or stops to declare base64. -/
def typeReplaceable (inside : Bool) (fields : List (String × Value)) : Bool :=
  inside && !((declaredMediaType fields).isSome && (fields.lookup "data").isSome) &&
    ((fields.lookup "type").bind Value.asStr).any fun kind =>
      decide (kind.toList.length = 6) && kind.toList.all isBase64Char

def itemPlace (inside : Bool) : Place where
  inside := inside
  force := false
  flips := false
  label := none
  flips_inside := by
    intro h
    cases h

def fieldPlace (inside : Bool) (fields : List (String × Value)) (key : String) : Place where
  inside := inside
  force := forcesBase64 (declaresBase64 fields) key
  flips := typeReplaceable inside fields && (forcesBase64 true key != forcesBase64 false key)
  label := declaredMediaType fields
  flips_inside := by
    intro h
    exact (Bool.and_eq_true_iff.mp (Bool.and_eq_true_iff.mp
      (Bool.and_eq_true_iff.mp h).1).1).1

section
variable (numText : Number → String)

def shownValue (label : Option String) (force : Bool) (v : Value) : Bytes :=
  compactText numText (redact force (if force then label else none) v)

/-- The text of a field, with its key. -/
def fieldPart (declares : Bool) (label : Option String) (f : String × Value) : Bytes :=
  quoted f.1 ++ ([58] ++ shownValue numText label (forcesBase64 declares f.1) f.2)

mutual

/-- Nothing of a payload is told by the log of the value, whose text begins at `pos`. -/
def hiddenAt (p : Place) (pos : ℕ) : Value → Bool
  | .null => true
  | .bool _ => true
  | .number _ => true
  | .string s => decide (p.Hides pos s)
  | .array items => hiddenItemsAt p.below (pos + 1) items
  | .object fields => hiddenFieldsAt p.below fields (pos + 1) fields

def hiddenItemsAt (inside : Bool) (pos : ℕ) : List Value → Bool
  | [] => true
  | v :: vs =>
    hiddenAt (itemPlace inside) pos v &&
      hiddenItemsAt inside (pos + ((compactText numText (redact false none v)).length + 1)) vs

def hiddenFieldsAt (inside : Bool) (object : List (String × Value)) (pos : ℕ) :
    List (String × Value) → Bool
  | [] => true
  | (key, v) :: fields =>
    hiddenAt (fieldPlace inside object key) (pos + ((quoted key).length + 1)) v &&
      hiddenFieldsAt inside object (pos + ((fieldPart numText (declaresBase64 object)
        (declaredMediaType object) (key, v)).length + 1)) fields

end

end

theorem Swapped.refl (inside : Bool) (v : Value) : Swapped inside v v := by
  induction v using Value.inductionOn generalizing inside with
  | null => exact rfl
  | bool b => exact rfl
  | number n => exact rfl
  | string s => exact ⟨s, rfl, Or.inl rfl⟩
  | array items ih =>
    refine ⟨items, rfl, ?_⟩
    induction items with
    | nil => exact rfl
    | cons v vs ihItems =>
      exact ⟨v, vs, rfl, ih v (List.mem_cons_self ..) inside,
        ihItems fun u hu => ih u (List.mem_cons_of_mem _ hu)⟩
  | object fields ih =>
    refine ⟨fields, rfl, ?_⟩
    generalize declaresBase64 fields = declares
    induction fields with
    | nil => exact rfl
    | cons f fields ihFields =>
      exact ⟨f.2, fields, rfl, ih f (List.mem_cons_self ..) _,
        ihFields fun g hg => ih g (List.mem_cons_of_mem _ hg)⟩

theorem SwappedFields.lookup {inside declares : Bool} {fields fields' : List (String × Value)}
    (h : SwappedFields inside declares fields fields') (key : String) :
    Option.Rel (Swapped (inside || forcesBase64 declares key)) (fields.lookup key)
      (fields'.lookup key) := by
  induction fields generalizing fields' with
  | nil =>
    rw [show fields' = [] from h]
    exact .none
  | cons f fields ih =>
    obtain ⟨v', rest, hfields, hv, hrest⟩ := h
    obtain ⟨own, v⟩ := f
    rw [hfields]
    by_cases hkey : key = own
    · rw [← hkey, List.lookup_cons_self, List.lookup_cons_self]
      rw [← hkey] at hv
      exact .some hv
    · have hne : (key == own) = false := beq_eq_false_iff_ne.mpr hkey
      rw [List.lookup_cons, List.lookup_cons, hne]
      exact ih hrest

theorem Swapped.asStr {inside : Bool} {v v' : Value} (h : Swapped inside v v') :
    Option.Rel (SwapString inside) v.asStr v'.asStr := by
  cases v with
  | null =>
    rw [show v' = .null from h]
    exact .none
  | bool b =>
    rw [show v' = .bool b from h]
    exact .none
  | number n =>
    rw [show v' = .number n from h]
    exact .none
  | string s =>
    obtain ⟨s', rfl, hs⟩ := h
    exact .some hs
  | array items =>
    obtain ⟨items', rfl, -⟩ := h
    exact .none
  | object fields =>
    obtain ⟨fields', rfl, -⟩ := h
    exact .none

theorem rel_or {α β : Type*} {R : α → β → Prop} {a c : Option α} {b d : Option β}
    (h : Option.Rel R a b) (h' : Option.Rel R c d) : Option.Rel R (a.or c) (b.or d) := by
  cases h with
  | some hab => exact .some hab
  | none => exact h'

theorem rel_bind_asStr {inside : Bool} {a b : Option Value} (h : Option.Rel (Swapped inside) a b) :
    Option.Rel (SwapString inside) (a.bind Value.asStr) (b.bind Value.asStr) := by
  cases h with
  | some hab => exact hab.asStr
  | none => exact .none

/-- The keys that describe the other fields are not forced themselves. -/
theorem forcesBase64_describing (declares : Bool) {key : String}
    (h : key = "type" ∨ key = "media_type" ∨ key = "mime_type") :
    forcesBase64 declares key = false := by
  rcases h with rfl | rfl | rfl <;> cases declares <;> decide

section
variable {inside declares : Bool} {fields fields' : List (String × Value)}

theorem SwappedFields.describing (h : SwappedFields inside declares fields fields') {key : String}
    (hkey : key = "type" ∨ key = "media_type" ∨ key = "mime_type") :
    Option.Rel (Swapped inside) (fields.lookup key) (fields'.lookup key) := by
  have hrel := h.lookup key
  rw [forcesBase64_describing declares hkey, Bool.or_false] at hrel
  exact hrel

theorem SwappedFields.mediaType (h : SwappedFields inside declares fields fields') :
    Option.Rel (SwapString inside) (declaredMediaType fields) (declaredMediaType fields') :=
  rel_bind_asStr (rel_or (h.describing (Or.inr (Or.inl rfl)))
    (h.describing (Or.inr (Or.inr rfl))))

theorem SameCode.all {cs cs' : List Char} (h : SameCode cs cs')
    (hall : cs'.all isBase64Char = true) : cs.all isBase64Char = true := by
  induction h with
  | nil => rfl
  | cons hc _ ih =>
    rw [List.all_cons, Bool.and_eq_true] at hall ⊢
    refine ⟨?_, ih hall.2⟩
    rcases hc with ⟨hsame, -⟩ | ⟨hcode, -⟩
    · rw [hsame]
      exact hall.1
    · exact hcode

end

/-! ### Nothing is told -/

section
variable (numText : Number → String)

section
variable {numText}

end

end

/-! ### Requests in which what describes an object is replaced -/

theorem SwapString.mono {inside : Bool} {s s' : String} (h : SwapString inside s s') (more : Bool) :
    SwapString (inside || more) s s' :=
  h.imp_right (Or.imp_left fun hcode => ⟨by rw [hcode.1, Bool.true_or], hcode.2⟩)

section
variable {inside : Bool} {fields : List (String × Value)} {key : String} {force' : Bool}
  {label' : Option String}

/-- New types and media types, and the other strings as they are. -/
def describing (kinds labels : String → String) (key : String) : String → String :=
  if key = "type" then kinds
  else if key = "media_type" ∨ key = "mime_type" then labels else id

end

/-! ### One part is told -/

section
variable {key own : String} {v v' : Value} {before behind : List (String × Value)}

end

section
variable {numText : Number → String} {pos : ℕ}

end

/-! ### The log -/

end AiGateway.Api
