import AiGateway.Core.Json
import Mathlib.Data.List.Basic

/-!
# Compact JSON text (`serde_json::to_string`)

The text of a value without white space. Control characters are escaped in it, so it is a single
line, whatever the strings in the value are. The text of a number is the parameter `numText`.
-/

namespace AiGateway.Core

def hexByte (d : UInt8) : UInt8 := if d < 10 then 48 + d else 87 + d

/-- A byte of a string, as `format_escaped_str` writes it. -/
def escapeByte (b : UInt8) : Bytes :=
  if b = 34 then [92, 34]
  else if b = 92 then [92, 92]
  else if b = 8 then [92, 98]
  else if b = 9 then [92, 116]
  else if b = 10 then [92, 110]
  else if b = 12 then [92, 102]
  else if b = 13 then [92, 114]
  else if b < 32 then [92, 117, 48, 48, hexByte (b / 16), hexByte (b % 16)]
  else [b]

def quoted (s : String) : Bytes := 34 :: ((asBytes s).flatMap escapeByte ++ [34])

section
variable (numText : Number → String)

mutual

def compactText : Value → Bytes
  | .null => asBytes "null"
  | .bool b => if b then asBytes "true" else asBytes "false"
  | .number n => asBytes (numText n)
  | .string s => quoted s
  | .array items => 91 :: (List.intercalate [44] (compactItems items) ++ [93])
  | .object fields => 123 :: (List.intercalate [44] (compactFields fields) ++ [125])

def compactItems : List Value → List Bytes
  | [] => []
  | v :: vs => compactText v :: compactItems vs

def compactFields : List (String × Value) → List Bytes
  | [] => []
  | (key, v) :: fields => (quoted key ++ 58 :: compactText v) :: compactFields fields

end

end

/-! ### One line -/

theorem escapeByte_plain {b : UInt8} (hlarge : ¬b < 32) (hquote : b ≠ 34) (hslash : b ≠ 92) :
    escapeByte b = [b] := by
  have hsmall : ∀ c : UInt8, c < 32 → b ≠ c := by
    intro c hc heq
    rw [heq] at hlarge
    exact hlarge hc
  unfold escapeByte
  rw [if_neg hquote, if_neg hslash, if_neg (hsmall 8 (by decide)), if_neg (hsmall 9 (by decide)),
    if_neg (hsmall 10 (by decide)), if_neg (hsmall 12 (by decide)),
    if_neg (hsmall 13 (by decide)), if_neg hlarge]

theorem newline_notMem_escapeByte (b : UInt8) : (10 : UInt8) ∉ escapeByte b := by
  have hcontrol : ∀ n < 32, (10 : UInt8) ∉ escapeByte (UInt8.ofNat n) := by decide
  by_cases hlarge : b < 32
  · have hmem := hcontrol b.toNat (UInt8.lt_iff_toNat_lt.mp hlarge)
    rw [UInt8.ofNat_toNat] at hmem
    exact hmem
  by_cases hquote : b = 34
  · rw [hquote]
    decide
  by_cases hslash : b = 92
  · rw [hslash]
    decide
  · intro hmem
    rw [escapeByte_plain hlarge hquote hslash] at hmem
    rw [← List.mem_singleton.mp hmem] at hlarge
    exact hlarge (by decide)

theorem newline_notMem_quoted (s : String) : (10 : UInt8) ∉ quoted s := by
  unfold quoted
  intro hmem
  rcases List.mem_cons.mp hmem with h | hmem
  · exact absurd h (by decide)
  · rcases List.mem_append.mp hmem with hmem | h
    · obtain ⟨b, -, hb⟩ := List.mem_flatMap.mp hmem
      exact newline_notMem_escapeByte b hb
    · exact absurd (List.mem_singleton.mp h) (by decide)

theorem mem_intercalate {sep : Bytes} {parts : List Bytes} {b : UInt8}
    (h : b ∈ List.intercalate sep parts) : b ∈ sep ∨ ∃ part ∈ parts, b ∈ part := by
  induction parts with
  | nil => cases h
  | cons part parts ih =>
    cases parts with
    | nil =>
      right
      refine ⟨part, List.mem_singleton.mpr rfl, ?_⟩
      have hsingle : List.intercalate sep [part] = part := List.append_nil part
      rw [hsingle] at h
      exact h
    | cons next parts =>
      have hsplit : List.intercalate sep (part :: next :: parts) =
          part ++ (sep ++ List.intercalate sep (next :: parts)) := rfl
      rw [hsplit] at h
      rcases List.mem_append.mp h with hpart | h
      · exact Or.inr ⟨part, List.mem_cons_self .., hpart⟩
      · rcases List.mem_append.mp h with hsep | h
        · exact Or.inl hsep
        · rcases ih h with hsep | ⟨other, hother, hb⟩
          · exact Or.inl hsep
          · exact Or.inr ⟨other, List.mem_cons_of_mem _ hother, hb⟩

section
variable {numText : Number → String}

theorem compactItems_eq (items : List Value) :
    compactItems numText items = items.map (compactText numText) := by
  induction items with
  | nil => rfl
  | cons v vs ih => rw [compactItems, ih, List.map_cons]

theorem compactFields_eq (fields : List (String × Value)) : compactFields numText fields =
    fields.map fun f => quoted f.1 ++ 58 :: compactText numText f.2 := by
  induction fields with
  | nil => rfl
  | cons f fields ih =>
    obtain ⟨key, v⟩ := f
    rw [compactFields, ih, List.map_cons]

theorem newline_notMem_compactText (hnum : ∀ n, (10 : UInt8) ∉ asBytes (numText n)) (v : Value) :
    (10 : UInt8) ∉ compactText numText v := by
  induction v using Value.inductionOn with
  | null =>
    rw [compactText]
    decide
  | bool b =>
    rw [compactText]
    cases b <;> decide
  | number n =>
    rw [compactText]
    exact hnum n
  | string s =>
    rw [compactText]
    exact newline_notMem_quoted s
  | array items ih =>
    rw [compactText, compactItems_eq]
    intro hmem
    rcases List.mem_cons.mp hmem with h | hmem
    · exact absurd h (by decide)
    · rcases List.mem_append.mp hmem with hmem | h
      · rcases mem_intercalate hmem with h | ⟨part, hpart, hb⟩
        · exact absurd (List.mem_singleton.mp h) (by decide)
        · obtain ⟨item, hitem, rfl⟩ := List.mem_map.mp hpart
          exact ih item hitem hb
      · exact absurd (List.mem_singleton.mp h) (by decide)
  | object fields ih =>
    rw [compactText, compactFields_eq]
    intro hmem
    rcases List.mem_cons.mp hmem with h | hmem
    · exact absurd h (by decide)
    · rcases List.mem_append.mp hmem with hmem | h
      · rcases mem_intercalate hmem with h | ⟨part, hpart, hb⟩
        · exact absurd (List.mem_singleton.mp h) (by decide)
        · obtain ⟨f, hf, rfl⟩ := List.mem_map.mp hpart
          rcases List.mem_append.mp hb with hkey | hb
          · exact newline_notMem_quoted f.1 hkey
          · rcases List.mem_cons.mp hb with h | hvalue
            · exact absurd h (by decide)
            · exact ih f hf hvalue
      · exact absurd (List.mem_singleton.mp h) (by decide)

theorem compactText_object (fields : List (String × Value)) :
    ∃ inner, compactText numText (.object fields) = 123 :: (inner ++ [125]) :=
  ⟨_, by rw [compactText]⟩

end

end AiGateway.Core
