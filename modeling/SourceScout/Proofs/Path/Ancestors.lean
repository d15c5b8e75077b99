import Mathlib.Data.List.Induction
import SourceScout.Path.Basic

/-!
# The directories above a path

They are listed from the nearest on, so that a search among them finds the nearest one that passes,
and what a search finds is also found from any directory further up to it.
-/

namespace SourceScout

/-- What a search finds: nothing if all are refused, or the first that passes, or the failure of the
first that fails. -/
inductive Finds {ε α : Type} (test : α → Except ε Bool) (l : List α) : Except ε (Option α) → Prop
  | nothing (refused : ∀ a ∈ l, test a = .ok false) : Finds test l (.ok none)
  | here {before after : List α} {a : α} (split : l = before ++ a :: after)
      (refused : ∀ b ∈ before, test b = .ok false) (passes : test a = .ok true) :
      Finds test l (.ok (some a))
  | fails {before after : List α} {a : α} {failure : ε} (split : l = before ++ a :: after)
      (refused : ∀ b ∈ before, test b = .ok false) (fault : test a = .error failure) :
      Finds test l (.error failure)

theorem Finds.cons {ε α : Type} {test : α → Except ε Bool} {first : α} {rest : List α}
    {found : Except ε (Option α)} (hfirst : test first = .ok false) (h : Finds test rest found) :
    Finds test (first :: rest) found := by
  cases h with
  | nothing refused => exact .nothing (List.forall_mem_cons.mpr ⟨hfirst, refused⟩)
  | here split refused passes =>
    exact .here (congrArg _ split) (List.forall_mem_cons.mpr ⟨hfirst, refused⟩) passes
  | fails split refused fault =>
    exact .fails (congrArg _ split) (List.forall_mem_cons.mpr ⟨hfirst, refused⟩) fault

theorem finds_findM? {ε α : Type} (test : α → Except ε Bool) (l : List α) :
    Finds test l (l.findM? test) := by
  induction l with
  | nil => exact .nothing (List.forall_mem_nil _)
  | cons first rest ih =>
    rw [List.findM?]
    cases hfirst : test first with
    | error failure => exact .fails (List.nil_append _).symm (List.forall_mem_nil _) hfirst
    | ok found =>
      cases found with
      | true => exact .here (List.nil_append _).symm (List.forall_mem_nil _) hfirst
      | false => exact ih.cons hfirst

theorem exists_finds_anyM {ε α : Type} (test : α → Except ε Bool) (l : List α) :
    ∃ found, Finds test l found ∧ l.anyM test = found.map Option.isSome := by
  refine ⟨_, finds_findM? test l, ?_⟩
  induction l with
  | nil => rfl
  | cons first rest ih =>
    rw [List.anyM, List.findM?]
    cases test first with
    | error failure => rfl
    | ok found =>
      cases found with
      | true => rfl
      | false => exact ih

theorem findM?_of_append {ε α : Type} {test : α → Except ε Bool} {front back : List α}
    {found : Option α} (h : (front ++ back).findM? test = .ok found)
    (hfront : ∀ a ∈ found, a ∉ front) : back.findM? test = .ok found := by
  induction front with
  | nil => exact h
  | cons first front ih =>
    rw [List.cons_append, List.findM?] at h
    cases hfirst : test first with
    | error failure =>
      rw [hfirst] at h
      cases h
    | ok passes =>
      rw [hfirst] at h
      cases passes with
      | true =>
        cases h
        exact absurd List.mem_cons_self (hfront first rfl)
      | false => exact ih h fun a ha hmem => hfront a ha (List.mem_cons_of_mem _ hmem)

theorem exists_of_findM?_eq_error {ε α : Type} {test : α → Except ε Bool} {l : List α} {failure : ε}
    (h : l.findM? test = .error failure) : ∃ a ∈ l, test a = .error failure := by
  have hfinds := finds_findM? test l
  rw [h] at hfinds
  cases hfinds with
  | @fails before after a _ split _ fault => exact ⟨a, by simp [split], fault⟩

namespace Path

def IsAncestor (d p : Path) : Prop :=
  d.names ≠ [] ∧ ∃ rest, rest ≠ [] ∧ p = ⟨d.anchor, d.names ++ rest⟩

theorem isAncestor_child {d p : Path} {name : Text} :
    d.IsAncestor (p.child name) ↔ d.names ≠ [] ∧ (d = p ∨ d.IsAncestor p) := by
  obtain ⟨anchor, names⟩ := p
  constructor
  · rintro ⟨hne, rest, hrest, hp⟩
    refine ⟨hne, ?_⟩
    obtain ⟨upper, last, rfl⟩ := (List.eq_nil_or_concat rest).resolve_left hrest
    rw [List.concat_eq_append] at hp
    simp only [child, mk.injEq, ← List.append_assoc] at hp
    obtain ⟨rfl, hnames⟩ := hp
    obtain ⟨rfl, -⟩ := List.append_inj' hnames rfl
    cases upper with
    | nil => exact .inl (by rw [List.append_nil])
    | cons first upper => exact .inr ⟨hne, first :: upper, List.cons_ne_nil _ _, rfl⟩
  · rintro ⟨hne, rfl | ⟨-, rest, -, hp⟩⟩
    · exact ⟨hne, [name], List.cons_ne_nil _ _, rfl⟩
    · refine ⟨hne, rest ++ [name], by simp, ?_⟩
      cases hp
      simp only [child, List.append_assoc]

theorem IsAncestor.length_lt {d p : Path} (h : d.IsAncestor p) :
    d.names.length < p.names.length := by
  obtain ⟨-, rest, hrest, rfl⟩ := h
  have hpos := List.length_pos_iff.mpr hrest
  rw [List.length_append]
  omega

theorem not_isAncestor_of_anchor {d : Path} {anchor : Anchor} : ¬d.IsAncestor ⟨anchor, []⟩ := by
  intro h
  have hlength := h.length_lt
  simp at hlength

theorem ancestors_anchor (anchor : Anchor) : (⟨anchor, []⟩ : Path).ancestors = [] := rfl

theorem ancestors_child (p : Path) (name : Text) :
    (p.child name).ancestors = if p.names = [] then [] else p :: p.ancestors := by
  obtain ⟨anchor, names⟩ := p
  split
  · rename_i hnil
    obtain rfl : names = [] := hnil
    rfl
  · rename_i hne
    have hpos : 0 < names.length := List.length_pos_iff.mpr hne
    obtain ⟨depth, hdepth⟩ : ∃ depth, names.length = depth + 1 := ⟨names.length - 1, by omega⟩
    have htake : ∀ n ≤ depth + 1, (names ++ [name]).take n = names.take n := by
      intro n hn
      exact List.take_append_of_le_length (by omega)
    simp only [ancestors, child, List.length_append, List.length_singleton, Nat.add_sub_cancel,
      hdepth, List.range_succ_eq_map, List.map_cons, List.map_map]
    rw [htake _ (by omega), Nat.sub_zero, ← hdepth, List.take_length]
    refine congrArg _ (List.map_congr_left fun i _ => ?_)
    dsimp only [Function.comp_apply]
    rw [htake _ (by omega), hdepth, Nat.succ_eq_add_one, Nat.add_sub_add_right]

theorem mem_ancestors_iff {d p : Path} : d ∈ p.ancestors ↔ d.IsAncestor p := by
  obtain ⟨anchor, names⟩ := p
  -- The induction goes over the names from the last on, as the ancestors are listed.
  induction names using List.reverseRecOn with
  | nil => simpa [ancestors_anchor] using not_isAncestor_of_anchor
  | append_singleton names name ih =>
    have hchild := @isAncestor_child d ⟨anchor, names⟩ name
    have hancestors := ancestors_child ⟨anchor, names⟩ name
    rw [child] at hchild hancestors
    rw [hchild, hancestors]
    split
    · rename_i hnil
      obtain rfl : names = [] := hnil
      simp only [List.not_mem_nil, false_iff]
      rintro ⟨hne, rfl | habove⟩
      · exact hne rfl
      · exact not_isAncestor_of_anchor habove
    · rename_i hne
      rw [List.mem_cons, ih]
      constructor
      · rintro (rfl | habove)
        · exact ⟨hne, .inl rfl⟩
        · exact ⟨habove.1, .inr habove⟩
      · exact And.right

theorem IsAncestor.exists_ancestors_eq {d p : Path} (h : d.IsAncestor p) :
    ∃ nearer, p.ancestors = nearer ++ d :: d.ancestors := by
  obtain ⟨anchor, names⟩ := p
  induction names using List.reverseRecOn with
  | nil => exact absurd h not_isAncestor_of_anchor
  | append_singleton names name ih =>
    have hancestors := ancestors_child ⟨anchor, names⟩ name
    obtain ⟨hne, hd⟩ := (@isAncestor_child d ⟨anchor, names⟩ name).mp h
    have hnames : names ≠ [] := by
      rcases hd with rfl | habove
      · exact hne
      · rintro rfl
        exact not_isAncestor_of_anchor habove
    rw [child, if_neg hnames] at hancestors
    rcases hd with rfl | habove
    · exact ⟨[], hancestors⟩
    · obtain ⟨nearer, hnearer⟩ := ih habove
      refine ⟨⟨anchor, names⟩ :: nearer, ?_⟩
      rw [hancestors, hnearer, List.cons_append]

theorem ancestors_pairwise (p : Path) :
    p.ancestors.Pairwise fun near far => far.names.length < near.names.length := by
  obtain ⟨anchor, names⟩ := p
  induction names using List.reverseRecOn with
  | nil => exact .nil
  | append_singleton names name ih =>
    have hancestors := ancestors_child ⟨anchor, names⟩ name
    rw [child] at hancestors
    rw [hancestors]
    split
    · exact .nil
    · exact .cons (fun far hfar => (mem_ancestors_iff.mp hfar).length_lt) ih

end Path

structure Nearest (P : Path → Prop) (p d : Path) : Prop where
  above : d.IsAncestor p
  here : P d
  first : ∀ nearer : Path, d.IsAncestor nearer → nearer.IsAncestor p → ¬P nearer

section

variable {ε : Type} {test : Path → Except ε Bool} {P : Path → Prop} {p : Path}

theorem nearest_of_findM? (htest : ∀ d answer, test d = .ok answer → (answer = true ↔ P d))
    {d : Path} (h : p.ancestors.findM? test = .ok (some d)) : Nearest P p d := by
  have hfinds := finds_findM? test p.ancestors
  rw [h] at hfinds
  cases hfinds with
  | @here before after _ split refused passes =>
    refine ⟨Path.mem_ancestors_iff.mp (by simp [split]), (htest d true passes).mp rfl, ?_⟩
    intro nearer hbelow habove hP
    have hmem := Path.mem_ancestors_iff.mpr habove
    rw [split, List.mem_append, List.mem_cons] at hmem
    have hsorted := p.ancestors_pairwise
    rw [split, List.pairwise_append, List.pairwise_cons] at hsorted
    have hlonger := hbelow.length_lt
    -- What is nearer has more names, so it was refused before.
    rcases hmem with hmem | rfl | hmem
    · exact Bool.noConfusion ((htest nearer false (refused nearer hmem)).mpr hP)
    · omega
    · have hshorter := hsorted.2.1.1 nearer hmem
      omega

theorem not_of_findM?_eq_none (htest : ∀ d answer, test d = .ok answer → (answer = true ↔ P d))
    (h : p.ancestors.findM? test = .ok none) {d : Path} (hd : d.IsAncestor p) : ¬P d := by
  intro hP
  have hfinds := finds_findM? test p.ancestors
  rw [h] at hfinds
  cases hfinds with
  | nothing refused =>
    have hfalse := refused d (Path.mem_ancestors_iff.mpr hd)
    exact Bool.noConfusion ((htest d false hfalse).mpr hP)

theorem findM?_ancestors_child {file d : Path} {found : Option Path}
    (h : file.ancestors.findM? test = .ok found) (hd : d.IsAncestor file)
    (hfound : ∀ r ∈ found, r = d ∨ r.IsAncestor d) (name : Text) :
    (d.child name).ancestors.findM? test = .ok found := by
  obtain ⟨nearer, hnearer⟩ := hd.exists_ancestors_eq
  rw [Path.ancestors_child, if_neg hd.1]
  rw [hnearer] at h
  refine findM?_of_append h fun r hr hmem => ?_
  have hsorted := file.ancestors_pairwise
  rw [hnearer, List.pairwise_append] at hsorted
  have hbelow := hsorted.2.2 r hmem
  rcases hfound r hr with rfl | habove
  · exact Nat.lt_irrefl _ (hbelow r List.mem_cons_self)
  · have hshorter := habove.length_lt
    have hlonger := hbelow d List.mem_cons_self
    omega

end

end SourceScout
