import SourceScout.Proofs.FileTree.Routes

/-!
# Questions that have an answer

In a tree that lets the reader pass every directory, a lookup fails only because there is nothing at
the path or because something on the way is too long. So whether there is a file or a directory at a
path has an answer unless the path is too long, in itself or through a link.
-/

namespace SourceScout

namespace Node

theorem entriesInduction {motive : Node → Prop}
    (file : ∀ readable bytes, motive (.file readable bytes))
    (link : ∀ target, motive (.link target))
    (directory : ∀ listable searchable entries, (∀ entry ∈ entries, motive entry.2) →
      motive (.directory listable searchable entries))
    (node : Node) : motive node := by
  refine @Node.rec motive (fun entries => ∀ entry ∈ entries, motive entry.2)
    (fun entry => motive entry.2) file directory link ?_ ?_ ?_ node
  · intro entry hentry
    cases hentry
  · intro entry entries hhead htail other hother
    rcases List.mem_cons.mp hother with rfl | hmem
    · exact hhead
    · exact htail other hmem
  · intro name node hnode
    exact hnode

theorem sizeOf_entry_lt {listable searchable : Bool} {entries : List (Text × Node)}
    {entry : Text × Node} (h : entry ∈ entries) :
    sizeOf entry.2 < sizeOf (Node.directory listable searchable entries) := by
  obtain ⟨name, node⟩ := entry
  have hsize := List.sizeOf_lt_of_mem h
  simp only [Prod.mk.sizeOf_spec] at hsize
  simp only [Node.directory.sizeOf_spec]
  omega

theorem mem_of_child? {name : Text} {entries : List (Text × Node)} {node : Node}
    (h : child? name entries = some node) : (name, node) ∈ entries := by
  obtain ⟨⟨other, found⟩, hfind, rfl⟩ := Option.map_eq_some_iff.mp h
  have hname : other = name := by simpa using List.find?_some hfind
  subst hname
  exact List.mem_of_find?_eq_some hfind

inductive Everywhere (P : Bool → Bool → List (Text × Node) → Prop) : Node → Prop
  | file (readable : Bool) (bytes : List UInt8) : Everywhere P (.file readable bytes)
  | link (target : Text) : Everywhere P (.link target)
  | directory {listable searchable : Bool} {entries : List (Text × Node)}
      (here : P listable searchable entries) (below : ∀ entry ∈ entries, Everywhere P entry.2) :
      Everywhere P (.directory listable searchable entries)

section

variable {P : Bool → Bool → List (Text × Node) → Prop}

@[simp]
theorem everywhere_file (readable : Bool) (bytes : List UInt8) :
    Everywhere P (.file readable bytes) := .file readable bytes

@[simp]
theorem everywhere_link (target : Text) : Everywhere P (.link target) := .link target

@[simp]
theorem everywhere_directory {listable searchable : Bool} {entries : List (Text × Node)} :
    Everywhere P (.directory listable searchable entries) ↔
      P listable searchable entries ∧ ∀ entry ∈ entries, Everywhere P entry.2 := by
  constructor
  · intro h
    cases h with
    | directory hhere hbelow => exact ⟨hhere, hbelow⟩
  · rintro ⟨hhere, hbelow⟩
    exact .directory hhere hbelow

theorem Everywhere.below? {node found : Node} {place : List Text} (h : Everywhere P node)
    (hfound : node.below? place = some found) : Everywhere P found := by
  induction place generalizing node with
  | nil =>
    cases hfound
    exact h
  | cons name place ih =>
    cases h with
    | file => cases hfound
    | link => cases hfound
    | directory _ hbelow =>
      obtain ⟨child, hchild, hrest⟩ := Option.bind_eq_some_iff.mp hfound
      exact ih (hbelow _ (mem_of_child? hchild)) hrest

theorem Everywhere.mono {Q : Bool → Bool → List (Text × Node) → Prop}
    (hPQ : ∀ listable searchable entries, P listable searchable entries →
      Q listable searchable entries) {node : Node} (h : Everywhere P node) : Everywhere Q node := by
  induction h with
  | file readable bytes => exact .file readable bytes
  | link target => exact .link target
  | directory here _ ih => exact .directory (hPQ _ _ _ here) ih

end

def Passable : Node → Prop := Everywhere fun _ searchable _ => searchable = true

def Open : Node → Prop :=
  Everywhere fun listable searchable _ => listable = true ∧ searchable = true

theorem Open.passable {node : Node} (h : node.Open) : node.Passable := by
  apply Everywhere.mono _ h
  rintro listable searchable entries ⟨-, hsearchable⟩
  exact hsearchable

end Node

namespace FileTree

def seesDirectory (tree : FileTree) (p : Path) : Bool :=
  match tree.isDirectory p with
  | .ok found => found
  | .error _ => false

def isTooLong (tree : FileTree) (p : Path) : Bool :=
  match tree.lookup p with
  | .error .nameTooLong => true
  | _ => false

def IsPlainFault (fault : PathFault) : Prop := isAbsence fault = true ∨ fault = .nameTooLong

theorem lookup_fault {tree : FileTree} (h : tree.root.Passable) {p : Path} {fault : PathFault}
    (hfault : tree.lookup p = .error fault) : IsPlainFault fault := by
  cases habsence : isAbsence fault with
  | true => exact .inl habsence
  | false =>
    cases hasObstacle_iff.mpr ⟨hfault, habsence⟩ with
    | longPath => exact .inr rfl
    | onRoute _ _ hobstructed =>
      cases hobstructed with
      | closed hbelow =>
        cases h.below? hbelow with
        | directory here _ => cases here
      | longName => exact .inr rfl

theorem nodeAt_eq_ok {tree : FileTree} {place : List Text} {found : Node} :
    tree.nodeAt place = .ok found ↔ tree.root.below? place = some found := by
  rw [nodeAt]
  cases tree.root.below? place <;> simp

theorem node_eq_ok {tree : FileTree} {keepLast : Bool} {p : Path} {found : Node} :
    tree.node keepLast p = .ok found ↔
      ∃ place, tree.locate keepLast p = .ok place ∧ tree.root.below? place = some found := by
  simp only [node, bind_eq_ok, nodeAt_eq_ok]

theorem lookup_everywhere {P : Bool → Bool → List (Text × Node) → Prop} {tree : FileTree}
    (h : tree.root.Everywhere P) {p : Path} {found : Node} (hfound : tree.lookup p = .ok found) :
    found.Everywhere P := by
  obtain ⟨place, -, hplace⟩ := node_eq_ok.mp hfound
  exact h.below? hplace

theorem exists_holds_eq_ok {tree : FileTree} (h : tree.root.Open) (test : Node → Bool) {p : Path}
    (hlong : tree.isTooLong p = false) :
    ∃ answer, holds test p (tree.lookup p) = .ok answer := by
  cases hlookup : tree.lookup p with
  | ok node =>
    rw [holds]
    split
    · exact ⟨false, rfl⟩
    · exact ⟨test node, rfl⟩
  | error fault =>
    rcases lookup_fault h.passable hlookup with habsence | rfl
    · rw [holds, habsence]
      exact ⟨false, by split <;> rfl⟩
    · rw [isTooLong, hlookup] at hlong
      cases hlong

theorem isFile_eq_ok {tree : FileTree} (h : tree.root.Open) {p : Path}
    (hlong : tree.isTooLong p = false) : tree.isFile p = .ok (tree.seesFile p) := by
  obtain ⟨answer, hanswer⟩ := exists_holds_eq_ok h Node.isFile hlong
  rw [seesFile, isFile, hanswer]

theorem isDirectory_eq_ok {tree : FileTree} (h : tree.root.Open) {p : Path}
    (hlong : tree.isTooLong p = false) :
    tree.isDirectory p = .ok (tree.seesDirectory p) := by
  obtain ⟨answer, hanswer⟩ := exists_holds_eq_ok h Node.isDirectory hlong
  rw [seesDirectory, isDirectory, hanswer]

end FileTree

end SourceScout
