import SourceScout.FileTree.Edit
import SourceScout.Proofs.FileTree.Likeness

/-!
# Files that are written and read again

A file that can be read can be written, and what was written is read back through the same path. To
write, a path is followed as in a lookup, and what a lookup finds is where it leads. Other bytes in
one file change neither the directories nor the links on that way.
-/

namespace SourceScout

namespace Node

theorem child?_cons (name : Text) (entry : Text × Node) (entries : List (Text × Node)) :
    child? name (entry :: entries) =
      if entry.1 = name then some entry.2 else child? name entries := by
  by_cases h : entry.1 = name <;> simp [child?, h]

theorem child?_setEntry_self (name : Text) (node : Node) (entries : List (Text × Node)) :
    child? name (setEntry name (some node) entries) = some node := by
  induction entries with
  | nil => simp [setEntry, child?]
  | cons entry entries ih =>
    rw [setEntry]
    split
    · simp [child?]
    · rename_i hne
      rw [child?_cons, if_neg hne, ih]

theorem child?_setEntry_of_ne {name other : Text} (h : other ≠ name) (node : Node)
    (entries : List (Text × Node)) :
    child? other (setEntry name (some node) entries) = child? other entries := by
  induction entries with
  | nil => simp [setEntry, child?, h.symm]
  | cons entry entries ih =>
    rw [setEntry]
    split
    · rename_i heq
      simp [child?_cons, heq, h.symm]
    · rw [child?_cons, child?_cons, ih]

theorem Alike.refl (node : Node) : Alike node node := by
  intro place
  cases node.below? place with
  | none => exact .nothing
  | some found =>
    cases found with
    | file readable bytes => exact .file
    | link target => exact .link
    | directory listable searchable entries => exact .directory

theorem Alike.setEntry {listable searchable : Bool} {entries : List (Text × Node)} {name : Text}
    {child changed : Node} (hchild : Node.child? name entries = some child)
    (h : Alike child changed) :
    Alike (.directory listable searchable entries)
      (.directory listable searchable (Node.setEntry name (some changed) entries)) := by
  intro place
  cases place with
  | nil => exact .directory
  | cons other place =>
    rw [below?, below?]
    by_cases heq : other = name
    · rw [heq, hchild, child?_setEntry_self]
      exact h place
    · rw [child?_setEntry_of_ne heq]
      cases Node.child? other entries with
      | none => exact .nothing
      | some found => exact Alike.refl found place

theorem exists_change_eq {node : Node} {place : List Text} {r : Bool} {bytes : List UInt8}
    (h : node.below? place = some (.file r bytes)) (r' : Bool) (bytes' : List UInt8) :
    ∃ changed, change (fun _ => some (.file r' bytes')) place (some node) = some changed ∧
      changed.below? place = some (.file r' bytes') ∧ Alike node changed := by
  induction place generalizing node with
  | nil =>
    rw [below?_nil] at h
    cases h
    refine ⟨_, rfl, rfl, ?_⟩
    intro place
    cases place with
    | nil => exact .file
    | cons name place => exact .nothing
  | cons name place ih =>
    cases node with
    | file readable held => cases h
    | link target => cases h
    | directory listable searchable entries =>
      obtain ⟨child, hchild, hrest⟩ := Option.bind_eq_some_iff.mp h
      obtain ⟨changed, hchanged, hbelow, halike⟩ := ih hrest
      refine ⟨.directory listable searchable (setEntry name (some changed) entries), ?_, ?_, ?_⟩
      · rw [change, hchild, hchanged]
      · rw [below?, child?_setEntry_self, Option.bind_some, hbelow]
      · exact halike.setEntry hchild

end Node

namespace FileTree

theorem follow_making {root : Node} {keepLast : Bool} {links : Nat} {place names found : List Text}
    (h : follow root keepLast false links place names = .ok found) :
    follow root keepLast true links place names = .ok found := by
  fun_induction follow root keepLast false links place names with
  | case1 _ _ _ _ hadvance =>
    rw [follow, hadvance]
    exact h
  | case2 _ _ _ _ _ _ hmaking => cases hmaking
  | case3 => cases h
  | case4 => cases h
  | case5 => cases h
  | case6 _ _ _ _ _ hadvance _ _ ih =>
    rw [follow, hadvance]
    exact ih h

theorem target_of_locate {tree : FileTree} {keepLast : Bool} {p : Path} {place : List Text}
    (h : tree.locate keepLast p = .ok place) : tree.target keepLast p = .ok place := by
  rw [locate, reach] at h
  rw [target, reach]
  by_cases hlong : maxPathLength ≤ p.toText.utf8Length
  · rw [if_pos hlong] at h
    cases h
  · rw [if_neg hlong] at h ⊢
    exact follow_making h

theorem readBytes_eq_ok {tree : FileTree} {p : Path} {bytes : List UInt8} :
    tree.readBytes p = .ok bytes ↔
      '\x00' ∉ p.toText ∧ tree.lookup p = .ok (.file true bytes) := by
  rw [readBytes]
  by_cases hnul : '\x00' ∈ p.toText
  · simp [hnul]
  · rw [if_neg (by simpa using hnul)]
    cases tree.lookup p with
    | error fault => simp
    | ok node =>
      cases node with
      | file readable held => cases readable <;> simp [hnul]
      | link target => simp
      | directory listable searchable entries => simp

theorem contains_of_readBytes {tree : FileTree} {p : Path} {bytes : List UInt8}
    (h : tree.readBytes p = .ok bytes) : tree.contains p = .ok true := by
  obtain ⟨hnul, hlookup⟩ := readBytes_eq_ok.mp h
  simp [contains, holds, hnul, hlookup]

theorem isFile_of_readText {tree : FileTree} {p : Path} {content : Text}
    (h : tree.readText p = .ok content) : tree.isFile p = .ok true := by
  rw [readText] at h
  cases hbytes : tree.readBytes p with
  | error failure =>
    rw [hbytes] at h
    cases h
  | ok bytes =>
    obtain ⟨hnul, hlookup⟩ := readBytes_eq_ok.mp hbytes
    simp [isFile, holds, hnul, hlookup, Node.isFile]

/-- Writing to a file that can be read succeeds, and what was written is read back. -/
theorem exists_write_eq_ok {tree : FileTree} {p : Path} {bytes : List UInt8}
    (h : tree.readBytes p = .ok bytes) (bytes' : List UInt8) :
    ∃ other, tree.write p bytes' = .ok other ∧ other.readBytes p = .ok bytes' := by
  obtain ⟨hnul, hlookup⟩ := readBytes_eq_ok.mp h
  obtain ⟨place, hplace, hbelow⟩ := node_eq_ok.mp hlookup
  obtain ⟨changed, hchanged, hread, halike⟩ := Node.exists_change_eq hbelow true bytes'
  refine ⟨{ tree with root := changed }, ?_, ?_⟩
  · rw [write, target_of_locate hplace]
    simp only [bind, Except.bind, hbelow, changeAt, hchanged]
    rfl
  · rw [readBytes_eq_ok]
    refine ⟨hnul, node_eq_ok.mpr ⟨place, ?_, hread⟩⟩
    rw [← hplace]
    exact (@locate_congr tree { tree with root := changed } halike rfl false p).symm

end FileTree

end SourceScout
