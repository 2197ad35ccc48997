import Mathlib.Data.List.Infix
import Mathlib.Order.Basic

/-!
# Keyset pagination

A listing is read page by page. A page is cut from the rows below its cursor, the first
one from all rows; one row more than the page holds is looked up, and if there is one
the last row of the page makes the next cursor. The rows may change between two pages.
-/

namespace AiGateway.Library.Keyset
variable {α κ : Type}

/-- The page of at most `limit` rows and the next cursor, from the rows found. -/
def page (limit : ℕ) (key : α → κ) (found : List α) : List α × Option κ :=
  let items := found.take limit
  (items, if limit < found.length then items.getLast?.map key else none)

/-- Follows the next cursors to the page that has none. -/
def readAll (fetch : Option κ → List α × Option κ) : ℕ → Option κ → Option (List (List α))
  | 0, _ => none
  | fuel + 1, cursor =>
    match fetch cursor with
    | (items, none) => some [items]
    | (items, some next) => (readAll fetch fuel (some next)).map fun pages => items :: pages

/-- A row's key has exactly the rows behind it below it. -/
structure Listing (below : κ → α → Bool) (key : α → κ) (rows : List α) : Prop where
  later : rows.Pairwise fun a b => below (key a) b = true
  earlier : rows.Pairwise fun a b => below (key b) a = false
  self : ∀ a ∈ rows, below (key a) a = false

section
variable {below : κ → α → Bool} {key : α → κ} {rows : List α} {limit : ℕ}

theorem Listing.filter_below {before after : List α} {a : α}
    (h : Listing below key (before ++ a :: after)) :
    (before ++ a :: after).filter (below (key a)) = after := by
  have hlater := (List.pairwise_append.mp h.later).2.1
  have hearlier := (List.pairwise_append.mp h.earlier).2.2
  have hbefore : before.filter (below (key a)) = [] := by
    refine List.filter_eq_nil_iff.mpr fun b hb => ?_
    rw [hearlier b hb a (List.mem_cons_self ..)]
    decide
  have hself : below (key a) a = false := h.self a (by simp)
  have hafter : after.filter (below (key a)) = after :=
    List.filter_eq_self.mpr (List.pairwise_cons.mp hlater).1
  rw [List.filter_append, hbefore, List.filter_cons, hself, hafter]
  rfl

theorem page_last {found : List α} (h : found.length ≤ limit) :
    page limit key found = (found, none) := by
  rw [page, List.take_of_length_le h, if_neg (Nat.not_lt.mpr h)]

/-- With a row to spare the page is full. -/
theorem page_more (key : α → κ) {rest : List α} (hlimit : 0 < limit) (h : limit < rest.length) :
    ∃ front a, rest = front ++ a :: rest.drop limit ∧ (front ++ [a]).length = limit ∧
      page limit key (rest.take (limit + 1)) = (front ++ [a], some (key a)) := by
  have hlen : (rest.take limit).length = limit := List.length_take_of_le h.le
  have hsome : rest.take limit ≠ [] := by
    intro hnil
    rw [hnil] at hlen
    exact hlimit.ne hlen
  obtain ⟨front, a, hfront⟩ := (List.eq_nil_or_concat (rest.take limit)).resolve_left hsome
  rw [List.concat_eq_append] at hfront
  have hfound : limit < (rest.take (limit + 1)).length := by
    rw [List.length_take_of_le (Nat.succ_le_of_lt h)]
    exact Nat.lt_succ_self limit
  have hitems : (rest.take (limit + 1)).take limit = front ++ [a] := by
    rw [List.take_take, Nat.min_eq_left (Nat.le_succ limit), hfront]
  refine ⟨front, a, ?_, hfront ▸ hlen, ?_⟩
  · rw [List.append_cons, ← hfront, List.take_append_drop]
  · simp only [page, hitems, if_pos hfound, List.getLast?_concat, Option.map_some]

/-- From a cursor on, the rows that are left come in order and once each, and only the
last page may fall short. -/
theorem readAll_rest {fetch : Option κ → List α × Option κ} (h : Listing below key rows)
    (hlimit : 0 < limit) (hnext : ∀ a ∈ rows, fetch (some (key a)) =
      page limit key ((rows.filter (below (key a))).take (limit + 1)))
    (n : ℕ) {read rest : List α} {cursor : Option κ} (hlen : rest.length = n)
    (hrows : rows = read ++ rest) (hfetch : fetch cursor = page limit key (rest.take (limit + 1))) :
    ∃ pages, pages ≠ [] ∧ (∀ fuel, rest.length < fuel → readAll fetch fuel cursor = some pages) ∧
      pages.flatten = rest ∧ ∀ items ∈ pages.dropLast, items.length = limit := by
  induction n using Nat.strong_induction_on generalizing read rest cursor with
  | _ n ih =>
    by_cases hmore : limit < rest.length
    · obtain ⟨front, a, hsplit, hfull, hpage⟩ := page_more key hlimit hmore
      have hall : rows = (read ++ front) ++ a :: rest.drop limit := by
        rw [hrows, List.append_assoc, ← hsplit]
      have hread : rows = (read ++ (front ++ [a])) ++ rest.drop limit := by
        rw [hall]
        simp only [List.append_assoc, List.cons_append, List.nil_append]
      have ha : a ∈ rows := by
        rw [hall]
        exact List.mem_append_right _ (List.mem_cons_self ..)
      have hfetch' := hnext a ha
      have hbelow : rows.filter (below (key a)) = rest.drop limit := by
        rw [hall] at h ⊢
        exact h.filter_below
      rw [hbelow] at hfetch'
      have hshort : (rest.drop limit).length = n - limit := by
        rw [List.length_drop, hlen]
      obtain ⟨pages, hne, hpages, hflat, hfulls⟩ := ih (n - limit) (by omega) hshort hread hfetch'
      refine ⟨(front ++ [a]) :: pages, List.cons_ne_nil _ _, ?_, ?_, ?_⟩
      · intro fuel hfuel
        cases fuel with
        | zero => omega
        | succ fuel =>
          have htail := hpages fuel (by omega)
          simp only [readAll, hfetch, hpage, htail, Option.map_some]
      · rw [List.flatten_cons, hflat, List.append_assoc]
        exact hsplit.symm
      · intro items hitems
        rw [List.dropLast_cons_of_ne_nil hne] at hitems
        rcases List.mem_cons.mp hitems with hhead | htail
        · exact hhead ▸ hfull
        · exact hfulls items htail
    · have hall : rest.take (limit + 1) = rest := List.take_of_length_le (by omega)
      rw [hall, page_last (by omega)] at hfetch
      refine ⟨[rest], List.cons_ne_nil _ _, ?_, by simp, by simp⟩
      intro fuel hfuel
      cases fuel with
      | zero => omega
      | succ fuel => simp only [readAll, hfetch]

theorem readAll_listing {fetch : Option κ → List α × Option κ} {first : Option κ}
    (h : Listing below key rows) (hlimit : 0 < limit)
    (hfirst : fetch first = page limit key (rows.take (limit + 1)))
    (hnext : ∀ a ∈ rows, fetch (some (key a)) =
      page limit key ((rows.filter (below (key a))).take (limit + 1))) :
    ∃ pages, (∀ fuel, rows.length < fuel → readAll fetch fuel first = some pages) ∧
      pages.flatten = rows ∧ ∀ items ∈ pages.dropLast, items.length = limit := by
  obtain ⟨pages, -, hpages⟩ :=
    readAll_rest h hlimit hnext rows.length rfl (List.nil_append rows).symm hfirst
  exact ⟨pages, hpages⟩

end

/-! ### Rows that change between two pages -/

/-- What has been read, and the position that the next page starts behind. -/
structure Walk (α π : Type) where
  read : List α
  bound : Option π
  finished : Bool

section
variable {π : Type} [Preorder π]

def Behind (bound : Option π) (p : π) : Prop := ∀ b, bound = some b → p < b

def Walk.turn (pos : α → π) (limit : ℕ) (w : Walk α π) (found : List α) : Walk α π :=
  let (items, next) := page limit pos found
  { read := w.read ++ items
    bound := next.or w.bound
    finished := next.isNone }

/-- The positions in `due` have been read or are still ahead. -/
structure Walk.Sound (pos : α → π) (due : π → Prop) (w : Walk α π) : Prop where
  sorted : w.read.Pairwise fun a b => pos b < pos a
  bounded : w.finished = false → ∀ a ∈ w.read, ∀ p, Behind w.bound p → p < pos a
  complete : ∀ p, due p → (∃ a ∈ w.read, pos a = p) ∨ w.finished = false ∧ Behind w.bound p

theorem Walk.Sound.turn {pos : α → π} {due : π → Prop} {w : Walk α π} {limit : ℕ}
    {listing : List α} (h : w.Sound pos due) (hopen : w.finished = false) (hlimit : 0 < limit)
    (hsorted : listing.Pairwise fun a b => pos b < pos a)
    (hbehind : ∀ a ∈ listing, Behind w.bound (pos a))
    (hdue : ∀ p, due p → Behind w.bound p → ∃ a ∈ listing, pos a = p) :
    (w.turn pos limit (listing.take (limit + 1))).Sound pos due := by
  have hread : ∀ items : List α, items.Sublist listing →
      (w.read ++ items).Pairwise fun a b => pos b < pos a := by
    intro items hitems
    refine List.pairwise_append.mpr ⟨h.sorted, hsorted.sublist hitems, ?_⟩
    intro a ha b hb
    exact h.bounded hopen a ha _ (hbehind b (hitems.subset hb))
  by_cases hmore : limit < listing.length
  · obtain ⟨front, last, hsplit, -, hpage⟩ := page_more pos hlimit hmore
    simp only [Walk.turn, hpage]
    have hlisting : listing = (front ++ [last]) ++ listing.drop limit := by
      rw [List.append_assoc]
      exact hsplit
    have hpart : (front ++ [last]).Sublist listing := by
      rw [hlisting]
      exact List.sublist_append_left _ _
    rw [hlisting] at hsorted
    obtain ⟨hitems, -, hrest⟩ := List.pairwise_append.mp hsorted
    refine ⟨hread _ hpart, ?_, ?_⟩
    · intro _ a ha p hp
      have hlast : p < pos last := hp _ rfl
      rcases List.mem_append.mp ha with hold | hnew
      · refine h.bounded hopen a hold p fun b hb => ?_
        exact hlast.trans (hbehind last (hpart.subset (by simp)) b hb)
      · rcases List.mem_append.mp hnew with hfront | hself
        · exact hlast.trans ((List.pairwise_append.mp hitems).2.2 a hfront last (by simp))
        · exact List.mem_singleton.mp hself ▸ hlast
    · intro p hp
      rcases h.complete p hp with ⟨a, ha, heq⟩ | ⟨-, hahead⟩
      · exact .inl ⟨a, List.mem_append_left _ ha, heq⟩
      · obtain ⟨a, ha, heq⟩ := hdue p hp hahead
        rw [hlisting] at ha
        rcases List.mem_append.mp ha with hpage | hlater
        · exact .inl ⟨a, List.mem_append_right _ hpage, heq⟩
        · refine .inr ⟨rfl, ?_⟩
          intro b hb
          cases hb
          exact heq ▸ hrest last (by simp) a hlater
  · have hall : listing.take (limit + 1) = listing := List.take_of_length_le (by omega)
    simp only [Walk.turn, hall, page_last (Nat.not_lt.mp hmore)]
    refine ⟨hread _ (List.Sublist.refl _), fun hnever => (by cases hnever), ?_⟩
    intro p hp
    rcases h.complete p hp with ⟨a, ha, heq⟩ | ⟨-, hahead⟩
    · exact .inl ⟨a, List.mem_append_left _ ha, heq⟩
    · obtain ⟨a, ha, heq⟩ := hdue p hp hahead
      exact .inl ⟨a, List.mem_append_right _ ha, heq⟩

end

end AiGateway.Library.Keyset
