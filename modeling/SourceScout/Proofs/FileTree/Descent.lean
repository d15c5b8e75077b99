import SourceScout.Proofs.FileTree.Likeness
import SourceScout.Proofs.Path.Components

/-!
# One name further down

If a path leads to a directory, the path that is longer by the name of one of its entries leads to
that entry, as long as the directory lets it pass and the path has not become too long.
-/

namespace SourceScout

namespace Path

theorem nul_mem_toText {p : Path} : '\x00' ∈ p.toText ↔ ∃ name ∈ p.names, '\x00' ∈ name := by
  obtain ⟨anchor, names⟩ := p
  have hanchor : '\x00' ∉ anchor.toText := by cases anchor <;> decide
  have hjoin : '\x00' ∈ Text.join ['/'] names ↔ ∃ name ∈ names, '\x00' ∈ name := by
    constructor
    · intro h
      exact (Text.mem_join h).resolve_left (by decide)
    · rintro ⟨name, hname, hmem⟩
      exact (Text.infix_join_of_mem hname).subset hmem
  rw [toText]
  split
  · rename_i h
    obtain ⟨-, rfl⟩ := h
    simp
  · rw [List.mem_append, hjoin]
    exact or_iff_right hanchor

theorem nul_mem_child {p : Path} {name : Text} :
    '\x00' ∈ (p.child name).toText ↔ '\x00' ∈ p.toText ∨ '\x00' ∈ name := by
  simp only [nul_mem_toText, child, List.mem_append, List.mem_singleton, or_and_right, exists_or,
    exists_eq_left]

end Path

namespace Node

/-- In every directory the entries have different names, all of them as file systems allow them. -/
def WellFormed : Node → Prop := Everywhere fun _ _ entries =>
  (entries.map (·.1)).Nodup ∧ ∀ entry ∈ entries,
    Path.IsEntryName entry.1 ∧ '\x00' ∉ entry.1 ∧ entry.1.utf8Length ≤ FileTree.maxNameLength

theorem child?_of_mem {entries : List (Text × Node)} (hnodup : (entries.map (·.1)).Nodup)
    {name : Text} {child : Node} (h : (name, child) ∈ entries) :
    child? name entries = some child := by
  induction entries with
  | nil => cases h
  | cons entry entries ih =>
    rw [List.map_cons, List.nodup_cons] at hnodup
    rcases List.mem_cons.mp h with rfl | hrest
    · simp [child?]
    · have hne : entry.1 ≠ name := by
        rintro rfl
        exact hnodup.1 (List.mem_map.mpr ⟨_, hrest, rfl⟩)
      rw [child?, List.find?_cons_of_neg (by simpa using hne)]
      exact ih hnodup.2 hrest

end Node

namespace FileTree

variable {root : Node}

/-- To follow one name more is to follow it from where the others lead, or to keep it until the link
is followed that they lead to. -/
theorem advance_concat (place names : List Text) (name : Text) :
    advance root false place (names ++ [name]) =
      match advance root false place names with
      | .arrived reached => advance root false reached [name]
      | .absent directory rest => .absent directory (rest ++ [name])
      | .link directory target rest => .link directory target (rest ++ [name])
      | .failed fault => .failed fault := by
  induction names generalizing place with
  | nil => rfl
  | cons first names ih =>
    rw [List.cons_append, advance, advance]
    cases root.below? place with
    | none => rfl
    | some found =>
      cases found with
      | file readable bytes => rfl
      | link target => rfl
      | directory listable searchable entries =>
        by_cases hslash : first = []
        · simpa [hslash] using ih place
        cases searchable with
        | false => simp [hslash]
        | true =>
          by_cases hdot : first = ['.']
          · simpa [hdot] using ih place
          by_cases hup : first = ['.', '.']
          · simpa [hup] using ih place.dropLast
          by_cases hlong : maxNameLength < first.utf8Length
          · simp [hslash, hdot, hup, hlong]
          cases hchild : Node.child? first entries with
          | none => simp [hslash, hdot, hup, hlong, hchild]
          | some child =>
            cases child with
            | link target => simp [hslash, hdot, hup, hlong, hchild]
            | file readable bytes =>
              simpa [hslash, hdot, hup, hlong, hchild] using ih (place ++ [first])
            | directory listable' searchable' below =>
              simpa [hslash, hdot, hup, hlong, hchild] using ih (place ++ [first])

theorem exists_follow_concat {links : Nat} {place names reached : List Text}
    (h : follow root false false links place names = .ok reached) (name : Text) :
    ∃ left, follow root false false links place (names ++ [name]) =
      follow root false false left reached [name] := by
  fun_induction follow root false false links place names with
  | case1 links _ _ _ hadvance =>
    cases h
    refine ⟨links, ?_⟩
    rw [follow, advance_concat, hadvance]
    rw [follow]
  | case2 _ _ _ _ _ _ hmaking => cases hmaking
  | case3 => cases h
  | case4 => cases h
  | case5 => cases h
  | case6 _ _ _ _ _ hadvance _ _ ih =>
    obtain ⟨left, hleft⟩ := ih h
    refine ⟨left, ?_⟩
    rw [follow, advance_concat, hadvance, ← hleft, List.append_assoc]

variable {tree : FileTree} {here : Path} {name : Text} {listable searchable : Bool}
  {entries : List (Text × Node)}

theorem length_of_locate {keepLast : Bool} {p : Path} {place : List Text}
    (h : tree.locate keepLast p = .ok place) : p.toText.utf8Length < maxPathLength := by
  refine Nat.not_le.mp fun hlong => ?_
  rw [locate_of_long hlong] at h
  cases h

theorem length_of_lookup {p : Path} {found : Node} (h : tree.lookup p = .ok found) :
    p.toText.utf8Length < maxPathLength := by
  obtain ⟨place, hplace, -⟩ := node_eq_ok.mp h
  exact length_of_locate hplace

theorem exists_locate_child {place : List Text} (h : tree.locate false here = .ok place)
    (hlength : (here.child name).toText.utf8Length < maxPathLength) :
    ∃ left, tree.locate false (here.child name) =
      follow tree.root false false left place [name] := by
  rw [locate_of_short (length_of_locate h)] at h
  obtain ⟨left, hleft⟩ := exists_follow_concat h name
  refine ⟨left, ?_⟩
  rw [locate_of_short hlength, ← hleft]
  rfl

theorem lookup_child (h : tree.lookup here = .ok (.directory listable searchable entries))
    (hname : Path.IsEntryName name) (hshort : name.utf8Length ≤ maxNameLength) {child : Node}
    (hchild : Node.child? name entries = some child) (hlink : child.isLink = false) :
    tree.lookup (here.child name) =
      if maxPathLength ≤ (here.child name).toText.utf8Length then .error .nameTooLong
      else if searchable then .ok child else .error .denied := by
  obtain ⟨place, hplace, hbelow⟩ := node_eq_ok.mp h
  have hproper : IsProper name := ⟨hname.ne_nil, hname.ne_dot, hname.ne_up⟩
  split
  · rename_i hlong
    rw [lookup, node, locate_of_long hlong]
    rfl
  · rename_i hfits
    obtain ⟨left, hleft⟩ := exists_locate_child hplace (Nat.not_le.mp hfits)
    have hadvance : advance tree.root false place [name] =
        if searchable then .arrived (place ++ [name]) else .failed .denied := by
      cases searchable with
      | false =>
        rw [advance, hbelow]
        simp only [if_neg hproper.1, Bool.not_false, if_true, Bool.false_eq_true, if_false]
      | true =>
        have hfinds : Finds tree.root place name (some child) :=
          ⟨listable, entries, hbelow, hproper, hshort, hchild⟩
        rw [advance_of_finds hfinds]
        cases child with
        | link target => cases hlink
        | file readable bytes => rfl
        | directory listable' searchable' below => rfl
    cases searchable with
    | false =>
      rw [lookup, node, hleft, follow, hadvance]
      rfl
    | true =>
      refine node_eq_ok.mpr ⟨place ++ [name], ?_, ?_⟩
      · rw [hleft, follow, hadvance]
        rfl
      · rw [Node.below?_concat hbelow, hchild]

end FileTree

end SourceScout
