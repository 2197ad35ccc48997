import Mathlib.Data.List.Nodup
import Mathlib.Data.Rat.Defs
import Mathlib.Data.String.Basic

/-!
# Rows of a SQL table

A row is its columns by name. Columns are written by position, under the names of an
`INSERT`, and read by name as values of a Lean type.
-/

namespace AiGateway.Library.SqlRows

inductive SqlValue where
  | null
  | integer (i : Int)
  | real (x : ℚ)
  | text (s : String)
  deriving DecidableEq

/-- The order of the storage classes, and the order within a class. -/
def SqlValue.le : SqlValue → SqlValue → Bool
  | .null, _ => true
  | .integer a, .integer b => a ≤ b
  | .integer a, .real b => (a : ℚ) ≤ b
  | .real a, .integer b => a ≤ (b : ℚ)
  | .real a, .real b => a ≤ b
  | .integer _, .text _ => true
  | .real _, .text _ => true
  | .text a, .text b => a ≤ b
  | _, _ => false

def SqlValue.lt (a b : SqlValue) : Bool := a.le b && !b.le a

abbrev SqlRow := List (String × SqlValue)

/-! ### Values of a type -/

/-- How a type's values stand in a column. -/
structure SqlType (α : Type) where
  encode : α → SqlValue
  decode : SqlValue → Option α
  decode_encode : ∀ a, decode (encode a) = some a

namespace SqlType

def text : SqlType String where
  encode := .text
  decode
    | .text s => some s
    | _ => none
  decode_encode := fun _ => rfl

def integer : SqlType Int where
  encode := .integer
  decode
    | .integer i => some i
    | _ => none
  decode_encode := fun _ => rfl

def real : SqlType ℚ where
  encode := .real
  decode
    | .real x => some x
    | _ => none
  decode_encode := fun _ => rfl

def nullable {α : Type} (t : SqlType α) (hnull : ∀ a, t.encode a ≠ .null) :
    SqlType (Option α) where
  encode
    | some a => t.encode a
    | none => .null
  decode v := if v = .null then some none else (t.decode v).map some
  decode_encode := by
    intro a
    cases a with
    | none => rfl
    | some a => rw [if_neg (hnull a), t.decode_encode, Option.map_some]

def textOrNull : SqlType (Option String) := text.nullable fun _ h => by cases h

def integerOrNull : SqlType (Option Int) := integer.nullable fun _ h => by cases h

def realOrNull : SqlType (Option ℚ) := real.nullable fun _ h => by cases h

end SqlType

/-- A column by its name; nothing when it is not there or holds something else. -/
def getColumn {α : Type} (t : SqlType α) (row : SqlRow) (column : String) : Option α :=
  (row.lookup column).bind t.decode

theorem getColumn_eq {α : Type} {t : SqlType α} {row : SqlRow} {column : String} {a : α}
    (h : row.lookup column = some (t.encode a)) : getColumn t row column = some a := by
  rw [getColumn, h, Option.bind_some, t.decode_encode]

/-! ### Tables -/

structure SqlColumn where
  name : String
  notNull : Bool
  default : SqlValue

/-- The row of `INSERT INTO table (names) VALUES (values)`. -/
def insertRow (columns : List SqlColumn) (names : List String) (values : List SqlValue) : SqlRow :=
  columns.map fun c => (c.name, ((names.zip values).lookup c.name).getD c.default)

def accepts (columns : List SqlColumn) (primaryKey : String) (table rows : List SqlRow) : Bool :=
  (rows.all fun row => columns.all fun c => !c.notNull || row.lookup c.name != some .null) &&
    decide ((table ++ rows).map (List.lookup primaryKey)).Nodup

/-- All rows of a statement go in or none. -/
def insertRows (columns : List SqlColumn) (primaryKey : String) (table rows : List SqlRow) :
    List SqlRow :=
  if accepts columns primaryKey table rows then table ++ rows else table

/-- `SELECT names` -/
def select (names : List String) (row : SqlRow) : SqlRow :=
  names.filterMap fun name => (row.lookup name).map fun v => (name, v)

theorem lookup_select (names : List String) (row : SqlRow) (name : String) :
    (select names row).lookup name = if name ∈ names then row.lookup name else none := by
  induction names with
  | nil => rfl
  | cons first names ih =>
    by_cases hname : name = first
    · subst hname
      rw [if_pos (List.mem_cons_self ..)]
      cases hv : row.lookup name with
      | none =>
        have hskip : select (name :: names) row = select names row := by
          rw [select, List.filterMap_cons, hv]
          rfl
        rw [hskip, ih, hv, ite_self]
      | some v =>
        have hhead : select (name :: names) row = (name, v) :: select names row := by
          rw [select, List.filterMap_cons, hv]
          rfl
        rw [hhead, List.lookup_cons_self]
    · have hrest : (select (first :: names) row).lookup name = (select names row).lookup name := by
        rw [select, List.filterMap_cons]
        cases row.lookup first with
        | none => rfl
        | some v =>
          have hne : (name == first) = false := beq_false_of_ne hname
          simp only [Option.map_some, List.lookup_cons, hne]
          rfl
      rw [hrest, ih]
      simp only [List.mem_cons, hname, false_or]

/-! ### Conditions on a column, which `NULL` does not meet -/

def columnEq (column : String) (v : SqlValue) (row : SqlRow) : Bool :=
  decide (row.lookup column = some v) && v != .null

def columnGe (column : String) (v : SqlValue) (row : SqlRow) : Bool :=
  (row.lookup column).any fun x => x != .null && v.le x

def columnLe (column : String) (v : SqlValue) (row : SqlRow) : Bool :=
  (row.lookup column).any fun x => x != .null && x.le v

def columnLt (column : String) (v : SqlValue) (row : SqlRow) : Bool :=
  (row.lookup column).any fun x => x != .null && x.lt v

section
variable {row : SqlRow} {column : String}

theorem columnEq_text {s : String} (h : row.lookup column = some (SqlType.text.encode s))
    (v : String) : columnEq column (.text v) row = decide (s = v) := by
  have hsame : some (SqlValue.text s) = some (.text v) ↔ s = v := by
    rw [Option.some.injEq, SqlValue.text.injEq]
  unfold columnEq
  rw [h]
  exact (Bool.and_true _).trans (decide_eq_decide.mpr hsame)

theorem columnEq_textOrNull {s : Option String}
    (h : row.lookup column = some (SqlType.textOrNull.encode s)) (v : String) :
    columnEq column (.text v) row = decide (s = some v) := by
  cases s with
  | none =>
    unfold columnEq
    rw [h]
    rfl
  | some s =>
    rw [columnEq_text h v]
    exact decide_eq_decide.mpr (Option.some.injEq s v ▸ Iff.rfl)

theorem columnEq_integer {i : Int} (h : row.lookup column = some (SqlType.integer.encode i))
    (v : Int) : columnEq column (.integer v) row = decide (i = v) := by
  have hsame : some (SqlValue.integer i) = some (.integer v) ↔ i = v := by
    rw [Option.some.injEq, SqlValue.integer.injEq]
  unfold columnEq
  rw [h]
  exact (Bool.and_true _).trans (decide_eq_decide.mpr hsame)

theorem columnGe_integer {i : Int} (h : row.lookup column = some (SqlType.integer.encode i))
    (v : Int) : columnGe column (.integer v) row = decide (v ≤ i) := by
  unfold columnGe
  rw [h]
  rfl

theorem columnLe_integer {i : Int} (h : row.lookup column = some (SqlType.integer.encode i))
    (v : Int) : columnLe column (.integer v) row = decide (i ≤ v) := by
  unfold columnLe
  rw [h]
  rfl

theorem lt_integer (i v : Int) : (SqlValue.integer i).lt (.integer v) = decide (i < v) := by
  show (decide (i ≤ v) && !decide (v ≤ i)) = _
  rw [← decide_not, ← Bool.decide_and]
  exact decide_eq_decide.mpr lt_iff_le_not_ge.symm

theorem lt_text (s v : String) : (SqlValue.text s).lt (.text v) = decide (s < v) := by
  show (decide (s ≤ v) && !decide (v ≤ s)) = _
  rw [← decide_not, ← Bool.decide_and]
  exact decide_eq_decide.mpr lt_iff_le_not_ge.symm

theorem columnLt_integer {i : Int} (h : row.lookup column = some (SqlType.integer.encode i))
    (v : Int) : columnLt column (.integer v) row = decide (i < v) := by
  unfold columnLt
  rw [h]
  exact (Bool.true_and _).trans (lt_integer i v)

theorem columnLt_text {s : String} (h : row.lookup column = some (SqlType.text.encode s))
    (v : String) : columnLt column (.text v) row = decide (s < v) := by
  unfold columnLt
  rw [h]
  exact (Bool.true_and _).trans (lt_text s v)

end

/-- `ORDER BY` these columns, each `DESC`. -/
def descending (a b : SqlRow) : List String → Bool
  | [] => true
  | column :: columns =>
    let x := (a.lookup column).getD .null
    let y := (b.lookup column).getD .null
    y.lt x || !x.lt y && descending a b columns

/-- Rows that can all be read are read one by one. -/
theorem mapM_ok {ε α β γ : Type} {read : β → Except ε γ} {row : α → β} {value : α → γ}
    (h : ∀ a, read (row a) = .ok (value a)) (l : List α) :
    (l.map row).mapM read = .ok (l.map value) := by
  induction l with
  | nil => rfl
  | cons a l ih =>
    rw [List.map_cons, List.mapM_cons, h, ih]
    rfl

end AiGateway.Library.SqlRows
