import Mathlib.Logic.Relation
import SourceScout.FileTree.Lookup

/-!
# Routes through a tree

A path is followed by moves from one waypoint to the next: up to the directory above, into an entry,
or through a link; the slashes and dots in the text of a link stay where they are. Every route comes
to a halt, and the lookup says where. It is obstructed if it halts at a directory that cannot be
passed or in front of a name that is too long, or if the path itself is too long; everything else
only means that there is nothing at the path.
-/

namespace SourceScout.FileTree

open Relation (ReflTransGen)

/-- A place that is reached, the names that are still to be followed from it, and the number of
links that may still be followed. -/
structure Waypoint where
  place : List Text
  ahead : List Text
  links : Nat

def IsProper (name : Text) : Prop := name ≠ [] ∧ name ≠ ['.'] ∧ name ≠ ['.', '.']

/-- The directory at a place can be passed, and `found` is what it has under a proper name. -/
def Finds (root : Node) (place : List Text) (name : Text) (found : Option Node) : Prop :=
  ∃ listable entries, root.below? place = some (.directory listable true entries) ∧
    IsProper name ∧ name.utf8Length ≤ maxNameLength ∧ Node.child? name entries = found

inductive Moves (root : Node) : Waypoint → Waypoint → Prop
  | slash {place names : List Text} {links : Nat} {listable searchable : Bool}
      {entries : List (Text × Node)}
      (h : root.below? place = some (.directory listable searchable entries)) :
      Moves root ⟨place, [] :: names, links⟩ ⟨place, names, links⟩
  | dot {place names : List Text} {links : Nat} {listable : Bool} {entries : List (Text × Node)}
      (h : root.below? place = some (.directory listable true entries)) :
      Moves root ⟨place, ['.'] :: names, links⟩ ⟨place, names, links⟩
  | up {place names : List Text} {links : Nat} {listable : Bool} {entries : List (Text × Node)}
      (h : root.below? place = some (.directory listable true entries)) :
      Moves root ⟨place, ['.', '.'] :: names, links⟩ ⟨place.dropLast, names, links⟩
  | into {place names : List Text} {name : Text} {links : Nat} {node : Node}
      (h : Finds root place name (some node)) (hnode : node.isLink = false) :
      Moves root ⟨place, name :: names, links⟩ ⟨place ++ [name], names, links⟩
  | through {place names : List Text} {name target : Text} {links : Nat}
      (h : Finds root place name (some (.link target))) :
      Moves root ⟨place, name :: names, links + 1⟩
        ⟨if (Path.ofText target).isAbsolute then [] else place,
          Text.splitOn '/' target ++ names, links⟩

/-- There is a directory, but it cannot be passed or cannot even be asked for the next name. -/
inductive Obstructed (root : Node) : Waypoint → PathFault → Prop
  | closed {place names : List Text} {name : Text} {links : Nat} {listable : Bool}
      {entries : List (Text × Node)}
      (h : root.below? place = some (.directory listable false entries)) (hname : name ≠ []) :
      Obstructed root ⟨place, name :: names, links⟩ .denied
  | longName {place names : List Text} {name : Text} {links : Nat} {listable : Bool}
      {entries : List (Text × Node)}
      (h : root.below? place = some (.directory listable true entries))
      (hname : maxNameLength < name.utf8Length) :
      Obstructed root ⟨place, name :: names, links⟩ .nameTooLong

inductive Halts (root : Node) : Waypoint → Except PathFault (List Text) → Prop
  | arrived (place : List Text) (links : Nat) : Halts root ⟨place, [], links⟩ (.ok place)
  | obstructed {w : Waypoint} {fault : PathFault} (h : Obstructed root w fault) :
      Halts root w (.error fault)
  | absent {place names : List Text} {name : Text} {links : Nat}
      (h : Finds root place name none) : Halts root ⟨place, name :: names, links⟩ (.error .missing)
  | tiring {place names : List Text} {name target : Text}
      (h : Finds root place name (some (.link target))) :
      Halts root ⟨place, name :: names, 0⟩ (.error .linkLoop)
  | inFile {place names : List Text} {name : Text} {links : Nat} {readable : Bool}
      {bytes : List UInt8} (h : root.below? place = some (.file readable bytes)) :
      Halts root ⟨place, name :: names, links⟩ (.error .notDirectory)
  | nowhere {place names : List Text} {name : Text} {links : Nat}
      (h : ∀ node ∈ root.below? place, node.isLink = true) :
      Halts root ⟨place, name :: names, links⟩ (.error .missing)

section

variable {root : Node} {v w : Waypoint} {fault : PathFault}
  {result : Except PathFault (List Text)}

/-! ## One move -/

def Waypoint.outcome (root : Node) (w : Waypoint) : Except PathFault (List Text) :=
  follow root false false w.links w.place w.ahead

def afterFinding (root : Node) (place : List Text) (name : Text) (names : List Text) :
    Option Node → Progress
  | none => .absent place (name :: names)
  | some (.link target) => .link place target names
  | some _ => advance root false (place ++ [name]) names

theorem advance_of_finds {place : List Text} {name : Text} {found : Option Node}
    (h : Finds root place name found) (names : List Text) :
    advance root false place (name :: names) = afterFinding root place name names found := by
  obtain ⟨listable, entries, hbelow, ⟨hslash, hdot, hup⟩, hshort, hchild⟩ := h
  have hplain : ¬maxNameLength < name.utf8Length := Nat.not_lt.mpr hshort
  rw [advance, hbelow]
  simp only [Bool.not_true, Bool.false_eq_true, if_false, if_neg hslash, if_neg hdot, if_neg hup,
    if_neg hplain, hchild, Bool.and_false]
  cases found with
  | none => rfl
  | some node => cases node <;> rfl

theorem outcome_of_advance (hlinks : v.links = w.links)
    (h : advance root false v.place v.ahead = advance root false w.place w.ahead) :
    v.outcome root = w.outcome root := by
  rw [Waypoint.outcome, Waypoint.outcome, follow, follow, h, hlinks]

theorem outcome_of_moves (h : Moves root v w) : v.outcome root = w.outcome root := by
  cases h with
  | slash hbelow =>
    refine outcome_of_advance rfl ?_
    rw [advance, hbelow]
    rfl
  | dot hbelow =>
    refine outcome_of_advance rfl ?_
    rw [advance, hbelow]
    rfl
  | up hbelow =>
    refine outcome_of_advance rfl ?_
    rw [advance, hbelow]
    rfl
  | @into _ _ _ _ node hfinds hnode =>
    refine outcome_of_advance rfl ?_
    rw [advance_of_finds hfinds]
    cases node with
    | link target => cases hnode
    | file readable bytes => rfl
    | directory listable searchable entries => rfl
  | through hfinds =>
    rw [Waypoint.outcome, follow, advance_of_finds hfinds]
    rfl

theorem isProper_of_long {name : Text} (h : maxNameLength < name.utf8Length) : IsProper name := by
  refine ⟨?_, ?_, ?_⟩ <;> rintro rfl <;> exact absurd h (by decide)

theorem outcome_of_obstructed (h : Obstructed root w fault) : w.outcome root = .error fault := by
  unfold Waypoint.outcome
  cases h with
  | closed hbelow hname =>
    rw [follow, advance, hbelow]
    simp only [if_neg hname, Bool.not_false, if_true]
  | @longName place names name _ _ _ hbelow hname =>
    obtain ⟨hslash, hdot, hup⟩ := isProper_of_long hname
    rw [follow, advance, hbelow]
    simp only [Bool.not_true, Bool.false_eq_true, if_false, if_neg hslash, if_neg hdot, if_neg hup,
      if_pos hname]

theorem outcome_of_halts (h : Halts root w result) : w.outcome root = result := by
  cases h with
  | arrived place links =>
    rw [Waypoint.outcome, follow, advance]
  | obstructed hobstructed => exact outcome_of_obstructed hobstructed
  | absent hfinds =>
    rw [Waypoint.outcome, follow, advance_of_finds hfinds]
    rfl
  | tiring hfinds =>
    rw [Waypoint.outcome, follow, advance_of_finds hfinds]
    rfl
  | inFile hbelow =>
    rw [Waypoint.outcome, follow, advance, hbelow]
  | @nowhere place _ _ _ hnode =>
    rw [Waypoint.outcome, follow, advance]
    cases hbelow : root.below? place with
    | none => rfl
    | some node =>
      cases node with
      | link target => rfl
      | file readable bytes => cases hnode _ hbelow
      | directory listable searchable entries => cases hnode _ hbelow

/-! ## The whole route -/

theorem moves_or_halts (root : Node) (w : Waypoint) :
    (∃ next, Moves root w next) ∨ ∃ result, Halts root w result := by
  obtain ⟨place, ahead, links⟩ := w
  cases ahead with
  | nil => exact .inr ⟨_, .arrived place links⟩
  | cons name names =>
    cases hbelow : root.below? place with
    | none => exact .inr ⟨_, .nowhere (by simp [hbelow])⟩
    | some here =>
      cases here with
      | file readable bytes => exact .inr ⟨_, .inFile hbelow⟩
      | link target => exact .inr ⟨_, .nowhere (by simp [hbelow, Node.isLink])⟩
      | directory listable searchable entries =>
        by_cases hslash : name = []
        · subst hslash
          exact .inl ⟨_, .slash hbelow⟩
        cases searchable with
        | false => exact .inr ⟨_, .obstructed (.closed hbelow hslash)⟩
        | true =>
          by_cases hdot : name = ['.']
          · subst hdot
            exact .inl ⟨_, .dot hbelow⟩
          by_cases hup : name = ['.', '.']
          · subst hup
            exact .inl ⟨_, .up hbelow⟩
          by_cases hlong : maxNameLength < name.utf8Length
          · exact .inr ⟨_, .obstructed (.longName hbelow hlong)⟩
          have hfinds : Finds root place name (Node.child? name entries) :=
            ⟨listable, entries, hbelow, ⟨hslash, hdot, hup⟩, Nat.not_lt.mp hlong, rfl⟩
          cases hchild : Node.child? name entries with
          | none => exact .inr ⟨_, .absent (hchild ▸ hfinds)⟩
          | some node =>
            rw [hchild] at hfinds
            cases node with
            | link target =>
              cases links with
              | zero => exact .inr ⟨_, .tiring hfinds⟩
              | succ links => exact .inl ⟨_, .through hfinds⟩
            | file readable bytes => exact .inl ⟨_, .into hfinds rfl⟩
            | directory listable searchable entries => exact .inl ⟨_, .into hfinds rfl⟩

theorem Moves.decreases (h : Moves root v w) :
    w.links < v.links ∨ w.links = v.links ∧ w.ahead.length < v.ahead.length := by
  cases h with
  | slash => exact .inr ⟨rfl, Nat.lt_succ_self _⟩
  | dot => exact .inr ⟨rfl, Nat.lt_succ_self _⟩
  | up => exact .inr ⟨rfl, Nat.lt_succ_self _⟩
  | into => exact .inr ⟨rfl, Nat.lt_succ_self _⟩
  | through => exact .inl (Nat.lt_succ_self _)

theorem exists_halts (root : Node) (w : Waypoint) :
    ∃ last result, ReflTransGen (Moves root) w last ∧ Halts root last result := by
  rcases moves_or_halts root w with ⟨next, hnext⟩ | ⟨result, hresult⟩
  · obtain ⟨last, result, hroute, hresult⟩ := exists_halts root next
    exact ⟨last, result, .head hnext hroute, hresult⟩
  · exact ⟨w, result, .refl, hresult⟩
-- a link brings new names, but there is one link less to follow
termination_by (w.links, w.ahead.length)
decreasing_by exact Prod.lex_def.mpr hnext.decreases

theorem outcome_of_route (h : ReflTransGen (Moves root) v w) : v.outcome root = w.outcome root := by
  induction h with
  | refl => rfl
  | tail _ hmove ih => exact ih.trans (outcome_of_moves hmove)

/-- The lookup gives what the route from its start comes to. -/
theorem outcome_eq_iff : w.outcome root = result ↔
    ∃ last, ReflTransGen (Moves root) w last ∧ Halts root last result := by
  constructor
  · rintro rfl
    obtain ⟨last, result, hroute, hhalts⟩ := exists_halts root w
    rw [outcome_of_route hroute, outcome_of_halts hhalts]
    exact ⟨last, hroute, hhalts⟩
  · rintro ⟨last, hroute, hhalts⟩
    rw [outcome_of_route hroute, outcome_of_halts hhalts]

theorem obstructed_iff : Obstructed root w fault ↔
    Halts root w (.error fault) ∧ isAbsence fault = false := by
  constructor
  · intro h
    refine ⟨.obstructed h, ?_⟩
    cases h <;> rfl
  · rintro ⟨hhalts, habsence⟩
    cases hhalts with
    | obstructed h => exact h
    | absent => cases habsence
    | tiring => cases habsence
    | inFile => cases habsence
    | nowhere => cases habsence

end

/-! ## Paths -/

def start (tree : FileTree) (p : Path) : Waypoint :=
  ⟨if p.isAbsolute then [] else tree.workingDirectory, p.names, maxLinks⟩

/-- Why it cannot be said what is at a path: it is too long, or its route is obstructed. -/
inductive HasObstacle (tree : FileTree) (p : Path) : PathFault → Prop
  | longPath (h : maxPathLength ≤ p.toText.utf8Length) : HasObstacle tree p .nameTooLong
  | onRoute {last : Waypoint} {fault : PathFault} (hlength : p.toText.utf8Length < maxPathLength)
      (hroute : ReflTransGen (Moves tree.root) (tree.start p) last)
      (h : Obstructed tree.root last fault) : HasObstacle tree p fault

section

variable {tree : FileTree} {p : Path} {fault : PathFault}

theorem locate_of_long (h : maxPathLength ≤ p.toText.utf8Length) (keepLast : Bool) :
    tree.locate keepLast p = .error .nameTooLong := if_pos h

theorem locate_of_short (h : p.toText.utf8Length < maxPathLength) (keepLast : Bool) :
    tree.locate keepLast p = follow tree.root keepLast false maxLinks
      (if p.isAbsolute then [] else tree.workingDirectory) p.names := if_neg (Nat.not_le.mpr h)

theorem locate_eq_outcome (h : p.toText.utf8Length < maxPathLength) :
    tree.locate false p = (tree.start p).outcome tree.root := locate_of_short h false

theorem hasObstacle_iff_locate : tree.HasObstacle p fault ↔
    tree.locate false p = .error fault ∧ isAbsence fault = false := by
  constructor
  · rintro (hlong | ⟨hlength, hroute, hobstructed⟩)
    · exact ⟨locate_of_long hlong false, rfl⟩
    · obtain ⟨hhalts, habsence⟩ := obstructed_iff.mp hobstructed
      rw [locate_eq_outcome hlength]
      exact ⟨outcome_eq_iff.mpr ⟨_, hroute, hhalts⟩, habsence⟩
  · rintro ⟨hlocate, habsence⟩
    by_cases hlong : maxPathLength ≤ p.toText.utf8Length
    · rw [locate_of_long hlong] at hlocate
      cases hlocate
      exact .longPath hlong
    · have hlength := Nat.not_le.mp hlong
      rw [locate_eq_outcome hlength] at hlocate
      obtain ⟨last, hroute, hhalts⟩ := outcome_eq_iff.mp hlocate
      exact .onRoute hlength hroute (obstructed_iff.mpr ⟨hhalts, habsence⟩)

theorem hasObstacle_iff : tree.HasObstacle p fault ↔
    tree.lookup p = .error fault ∧ isAbsence fault = false := by
  rw [hasObstacle_iff_locate, lookup, node]
  cases tree.locate false p with
  | error located => simp only [bind, Except.bind, Except.error.injEq]
  | ok place =>
    -- a place without a node is only an absence
    refine iff_of_false (fun h => by cases h.1) ?_
    rintro ⟨hlookup, habsence⟩
    cases hbelow : tree.root.below? place with
    | some found =>
      simp only [bind, Except.bind, nodeAt, hbelow] at hlookup
      cases hlookup
    | none =>
      simp only [bind, Except.bind, nodeAt, hbelow] at hlookup
      cases hlookup
      cases habsence

end

end SourceScout.FileTree
