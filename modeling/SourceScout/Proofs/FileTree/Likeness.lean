import SourceScout.Proofs.FileTree.Access

/-!
# Trees in which paths lead to the same places

A lookup sees of each place only what kind of thing is there, where a link leads, and whether a
directory lets it pass. So two trees that agree in this everywhere send every path to the same
place, whatever their files hold and in whatever order their entries stand.
-/

namespace SourceScout

namespace Node

theorem below?_append (node : Node) (upper lower : List Text) :
    node.below? (upper ++ lower) = (node.below? upper).bind (·.below? lower) := by
  induction upper generalizing node with
  | nil => cases node <;> rfl
  | cons name upper ih =>
    cases node with
    | file readable bytes => rfl
    | link target => rfl
    | directory listable searchable entries =>
      rw [List.cons_append, below?, below?, Option.bind_assoc]
      congr 1
      funext child
      exact ih child

theorem below?_nil (node : Node) : node.below? [] = some node := by
  cases node <;> rfl

theorem below?_concat {node : Node} {place : List Text} {listable searchable : Bool}
    {entries : List (Text × Node)}
    (h : node.below? place = some (.directory listable searchable entries)) (name : Text) :
    node.below? (place ++ [name]) = child? name entries := by
  rw [below?_append, h, Option.bind_some, below?]
  cases child? name entries with
  | none => rfl
  | some child => exact below?_nil child

/-- What is at one place is, for a lookup, like what is at another. -/
inductive SameKind : Option Node → Option Node → Prop
  | nothing : SameKind none none
  | file {r r' : Bool} {bytes bytes' : List UInt8} :
      SameKind (some (.file r bytes)) (some (.file r' bytes'))
  | link {target : Text} : SameKind (some (.link target)) (some (.link target))
  | directory {listable searchable : Bool} {entries entries' : List (Text × Node)} :
      SameKind (some (.directory listable searchable entries))
        (some (.directory listable searchable entries'))

def Alike (a b : Node) : Prop := ∀ place, SameKind (a.below? place) (b.below? place)

theorem Alike.child? {a b : Node} (h : Alike a b) {place : List Text}
    {listable searchable listable' searchable' : Bool} {entries entries' : List (Text × Node)}
    (ha : a.below? place = some (.directory listable searchable entries))
    (hb : b.below? place = some (.directory listable' searchable' entries')) (name : Text) :
    SameKind (Node.child? name entries) (Node.child? name entries') := by
  have hplace := h (place ++ [name])
  rwa [below?_concat ha, below?_concat hb] at hplace

end Node

namespace FileTree

variable {a b : Node}

theorem advance_congr (h : a.Alike b) (keepLast : Bool) (place names : List Text) :
    advance a keepLast place names = advance b keepLast place names := by
  induction names generalizing place with
  | nil => rfl
  | cons name names ih =>
    rw [advance, advance]
    have hplace := h place
    generalize ha : a.below? place = here at hplace
    generalize hb : b.below? place = there at hplace
    cases hplace with
    | nothing => rfl
    | file => rfl
    | link => rfl
    | directory =>
      have hchild := h.child? ha hb name
      dsimp only
      rw [ih place, ih place.dropLast, ih (place ++ [name])]
      generalize Node.child? name _ = child at hchild
      generalize Node.child? name _ = other at hchild
      cases hchild <;> rfl

theorem follow_congr (h : a.Alike b) (keepLast making : Bool) (links : Nat)
    (place names : List Text) :
    follow a keepLast making links place names = follow b keepLast making links place names := by
  induction links generalizing place names with
  | zero =>
    rw [follow, follow, advance_congr h]
  | succ links ih =>
    rw [follow, follow, advance_congr h]
    cases advance b keepLast place names with
    | arrived place => rfl
    | absent directory names => rfl
    | failed fault => rfl
    | link directory target names => exact ih _ _

theorem locate_congr {tree other : FileTree} (h : tree.root.Alike other.root)
    (hworking : tree.workingDirectory = other.workingDirectory) (keepLast : Bool) (p : Path) :
    tree.locate keepLast p = other.locate keepLast p := by
  rw [locate, locate, reach, reach, hworking, follow_congr h]

end FileTree

end SourceScout
