import Mathlib.Data.List.Sort
import SourceScout.Text.Basic

/-!
# Sorting

Sorting keeps the elements, and it commutes with whatever leaves the order alone: with a change of
what is sorted, and with leaving some elements out. So elements that the order does not tell apart
stay as they stood, and a directory can be sorted before or after its entries are looked at.
-/

namespace SourceScout

section

variable {α β : Type} {le : α → α → Bool}

structure IsOrder (le : α → α → Bool) : Prop where
  total : ∀ a b, le a b = true ∨ le b a = true
  trans : ∀ a b c, le a b = true → le b c = true → le a c = true

theorem insertInOrder_eq_orderedInsert (le : α → α → Bool) (x : α) (xs : List α) :
    insertInOrder le x xs = xs.orderedInsert (fun a b => le a b = true) x := by
  induction xs with
  | nil => rfl
  | cons y ys ih => rw [insertInOrder, List.orderedInsert_cons, ih]

theorem sortBy_eq_insertionSort (le : α → α → Bool) (xs : List α) :
    sortBy le xs = xs.insertionSort fun a b => le a b = true := by
  induction xs with
  | nil => rfl
  | cons x xs ih =>
    rw [sortBy, ih, insertInOrder_eq_orderedInsert, List.insertionSort_cons]

theorem sortBy_perm (le : α → α → Bool) (xs : List α) : (sortBy le xs).Perm xs := by
  rw [sortBy_eq_insertionSort]
  exact List.perm_insertionSort _ xs

theorem pairwise_sortBy (h : IsOrder le) (xs : List α) :
    (sortBy le xs).Pairwise fun a b => le a b = true := by
  have htotal : Std.Total fun a b => le a b = true := ⟨h.total⟩
  have htrans : IsTrans α fun a b => le a b = true := ⟨h.trans⟩
  rw [sortBy_eq_insertionSort]
  exact List.pairwise_insertionSort _ xs

theorem sortBy_map {le' : β → β → Bool} {f : α → β} (h : ∀ a b, le' (f a) (f b) = le a b)
    (xs : List α) : sortBy le' (xs.map f) = (sortBy le xs).map f := by
  rw [sortBy_eq_insertionSort, sortBy_eq_insertionSort]
  refine (List.map_insertionSort _ _ f xs fun a _ b _ => ?_).symm
  rw [h]

theorem insertInOrder_eq_cons {x : α} {xs : List α} (h : ∀ y ∈ xs, le x y = true) :
    insertInOrder le x xs = x :: xs := by
  cases xs with
  | nil => rfl
  | cons y ys => exact if_pos (h y List.mem_cons_self)

theorem filter_insertInOrder (h : IsOrder le) {xs : List α}
    (hsorted : xs.Pairwise fun a b => le a b = true) (p : α → Bool) (x : α) :
    (insertInOrder le x xs).filter p =
      if p x then insertInOrder le x (xs.filter p) else xs.filter p := by
  induction xs with
  | nil => cases hp : p x <;> simp [insertInOrder, hp]
  | cons y ys ih =>
    obtain ⟨hfirst, hrest⟩ := List.pairwise_cons.mp hsorted
    rw [insertInOrder]
    split
    · rename_i hle
      -- nothing that stands behind comes before
      have hbehind : ∀ other ∈ (y :: ys).filter p, le x other = true := by
        intro other hother
        rcases List.mem_cons.mp (List.mem_filter.mp hother).1 with rfl | hmem
        · exact hle
        · exact h.trans x y other hle (hfirst other hmem)
      rw [insertInOrder_eq_cons hbehind, List.filter_cons]
    · rename_i hnot
      rw [List.filter_cons, List.filter_cons, ih hrest]
      cases hx : p x <;> cases hy : p y <;> simp [insertInOrder, hnot]

theorem sortBy_filter (h : IsOrder le) (p : α → Bool) (xs : List α) :
    sortBy le (xs.filter p) = (sortBy le xs).filter p := by
  induction xs with
  | nil => rfl
  | cons x xs ih =>
    rw [sortBy, filter_insertInOrder h (pairwise_sortBy h xs), ← ih, List.filter_cons]
    split <;> rfl

end

namespace Text

theorem le_cons_iff {a b : Char} {as bs : Text} :
    le (a :: as) (b :: bs) = true ↔ a.val < b.val ∨ a = b ∧ le as bs = true := by
  rw [le]
  split
  · rename_i heq
    subst heq
    simp
  · rename_i hne
    simp [hne]

theorem le_total (a b : Text) : le a b = true ∨ le b a = true := by
  induction a generalizing b with
  | nil => exact .inl rfl
  | cons x xs ih =>
    cases b with
    | nil => exact .inr rfl
    | cons y ys =>
      rw [le_cons_iff, le_cons_iff]
      by_cases hxy : x = y
      · exact (ih ys).imp (fun h => .inr ⟨hxy, h⟩) fun h => .inr ⟨hxy.symm, h⟩
      · rcases UInt32.le_total x.val y.val with hle | hle
        · exact .inl (.inl (UInt32.lt_of_le_of_ne hle fun h => hxy (Char.ext h)))
        · exact .inr (.inl (UInt32.lt_of_le_of_ne hle fun h => hxy (Char.ext h.symm)))

theorem le_trans {a b c : Text} (hab : le a b = true) (hbc : le b c = true) : le a c = true := by
  induction a generalizing b c with
  | nil => rfl
  | cons x xs ih =>
    cases b with
    | nil => cases hab
    | cons y ys =>
      cases c with
      | nil => cases hbc
      | cons z zs =>
        rw [le_cons_iff] at hab hbc ⊢
        rcases hab with hxy | ⟨rfl, hxs⟩
        · rcases hbc with hyz | ⟨rfl, -⟩
          · exact .inl (UInt32.lt_trans hxy hyz)
          · exact .inl hxy
        · rcases hbc with hyz | ⟨rfl, hys⟩
          · exact .inl hyz
          · exact .inr ⟨rfl, ih hxs hys⟩

theorem lt_of_le_of_ne {a b : Text} (h : le a b = true) (hne : a ≠ b) : a < b := by
  induction a generalizing b with
  | nil =>
    obtain ⟨c, cs, rfl⟩ := List.exists_cons_of_ne_nil hne.symm
    exact List.nil_lt_cons c cs
  | cons x xs ih =>
    cases b with
    | nil => cases h
    | cons y ys =>
      rw [le_cons_iff] at h
      rw [List.cons_lt_cons_iff]
      rcases h with hlt | ⟨rfl, hle⟩
      · exact .inl hlt
      · exact .inr ⟨rfl, ih hle fun heq => hne (by rw [heq])⟩

end Text

section

variable {α β : Type}

theorem isOrder_names : IsOrder fun entry other : Text × α => Text.le entry.1 other.1 where
  total a b := Text.le_total a.1 b.1
  trans _ _ _ := Text.le_trans

theorem sortNamed_perm (entries : List (Text × α)) : (sortNamed entries).Perm entries :=
  sortBy_perm _ entries

theorem mem_sortNamed {entries : List (Text × α)} {entry : Text × α} :
    entry ∈ sortNamed entries ↔ entry ∈ entries :=
  (sortNamed_perm entries).mem_iff

theorem pairwise_sortNamed {entries : List (Text × α)} (h : (entries.map (·.1)).Nodup) :
    (sortNamed entries).Pairwise fun before after => before.1 < after.1 := by
  have hnames : (sortNamed entries).Pairwise fun before after => before.1 ≠ after.1 :=
    List.pairwise_map.mp (((sortNamed_perm entries).map _).nodup_iff.mpr h)
  exact ((pairwise_sortBy isOrder_names entries).and hnames).imp fun hboth =>
    Text.lt_of_le_of_ne hboth.1 hboth.2

theorem sortNamed_map (f : Text × α → β) (entries : List (Text × α)) :
    sortNamed (entries.map fun entry => (entry.1, f entry)) =
      (sortNamed entries).map fun entry => (entry.1, f entry) :=
  sortBy_map (fun _ _ => rfl) entries

theorem sortNamed_filter (p : Text × α → Bool) (entries : List (Text × α)) :
    sortNamed (entries.filter p) = (sortNamed entries).filter p :=
  sortBy_filter isOrder_names p entries

end

end SourceScout
