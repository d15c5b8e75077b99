import SourceScout.Proofs.Project.Containment

/-!
# Directories that a search passes over

A walk enters no ignored directory. The search through modules asks whether a directory is a module
before it asks whether it is ignored: on the way to a module no directory is ignored, and the module
itself can be.
-/

namespace SourceScout

namespace Path

def down (p : Path) (names : List Text) : Path := ⟨p.anchor, p.names ++ names⟩

theorem child_down (p : Path) (name : Text) (names : List Text) :
    (p.child name).down names = p.down (name :: names) := by
  simp [down, child]

theorem names_of_append {p q : Path} {front : List Text} (hne : front ≠ [])
    (h : (p ++ q).names = front ++ q.names) : p.names = front := by
  by_cases hq : q.anchor = .relative
  · rw [append_of_relative hq] at h
    exact List.append_cancel_right h
  · rw [append_of_anchored hq, List.self_eq_append_left] at h
    exact absurd h hne

end Path

namespace FileTree

variable {tree : FileTree} {ignored : IgnoredNames} {ending : Text}

theorem entered_of_mem_walkNode {node : Node} {here file : Path}
    (h : file ∈ tree.walkNode ignored ending here node) :
    ∃ directories name, file = here.down (directories ++ [name]) ∧
      ∀ directory ∈ directories, isIgnored ignored directory = false := by
  induction node using Node.entriesInduction generalizing here with
  | file readable bytes =>
    obtain ⟨_, _, _, hnode, -⟩ := mem_walkNode h
    cases hnode
  | link target =>
    obtain ⟨_, _, _, hnode, -⟩ := mem_walkNode h
    cases hnode
  | directory listable searchable entries ih =>
    obtain ⟨_, _, _, hnode, entry, hentry, hfile⟩ := mem_walkNode h
    cases hnode
    rcases hfile with rfl | ⟨hname, hmem⟩
    · exact ⟨[], entry.1, rfl, by simp⟩
    · obtain ⟨directories, last, rfl, hdirectories⟩ := ih entry hentry hmem
      refine ⟨entry.1 :: directories, last, ?_, List.forall_mem_cons.mpr ⟨hname, hdirectories⟩⟩
      exact Path.child_down here entry.1 (directories ++ [last])

/-- A walk enters no ignored directory. -/
theorem entered_of_mem_walk {root : Path} {files : List Path}
    (h : tree.walk ignored ending root = .ok files) {file : Path} (hfile : file ∈ files) :
    ∃ directories name, file = root.down (directories ++ [name]) ∧
      ∀ directory ∈ directories, isIgnored ignored directory = false := by
  obtain ⟨node, -, rfl⟩ := exists_node_of_mem_walk h hfile
  exact entered_of_mem_walkNode hfile

end FileTree

namespace Project

/-- The way down to a module: from directory to directory, none of them a module or ignored, to one
that is a module. -/
inductive LeadsTo (tree : FileTree) (ignored : IgnoredNames) : Path → List Text → Text → Prop
  | module {here : Path} {name : Text}
      (owns : tree.seesDirectory (here.child name ++ moduleSources) = true) :
      LeadsTo tree ignored here [] name
  | inside {here : Path} {directory name : Text} {upper : List Text}
      (plain : tree.seesDirectory (here.child directory ++ moduleSources) = false)
      (entered : isIgnored ignored directory = false)
      (rest : LeadsTo tree ignored (here.child directory) upper name) :
      LeadsTo tree ignored here (directory :: upper) name

section

variable {tree : FileTree} {ignored : IgnoredNames}

theorem LeadsTo.owns_last {here : Path} {upper : List Text} {name : Text}
    (h : LeadsTo tree ignored here upper name) :
    tree.seesDirectory (here.down (upper ++ [name]) ++ moduleSources) = true := by
  induction h with
  | module howns => exact howns
  | @inside here directory name upper _ _ _ ih =>
    rw [Path.child_down] at ih
    exact ih

theorem LeadsTo.entered_upper {here : Path} {upper : List Text} {name : Text}
    (h : LeadsTo tree ignored here upper name) :
    ∀ directory ∈ upper, isIgnored ignored directory = false := by
  induction h with
  | module => simp
  | inside _ hentered _ ih => exact List.forall_mem_cons.mpr ⟨hentered, ih⟩

theorem LeadsTo.plain_upper {here : Path} {upper : List Text} {name : Text}
    (h : LeadsTo tree ignored here upper name) {above below : List Text} {directory : Text}
    (hupper : upper = above ++ directory :: below) :
    tree.seesDirectory (here.down (above ++ [directory]) ++ moduleSources) = false := by
  induction h generalizing above with
  | module => simp at hupper
  | @inside here first name upper hplain _ _ ih =>
    cases above with
    | nil =>
      cases hupper
      exact hplain
    | cons other above =>
      cases hupper
      have hrest := ih rfl
      rw [Path.child_down] at hrest
      exact hrest

theorem exists_leadsTo_of_mem_moduleRoots {node : Node} {here m : Path}
    (h : m ∈ moduleRoots tree ignored here node) :
    ∃ upper name, LeadsTo tree ignored here upper name ∧
      m = here.down (upper ++ [name]) ++ moduleSources := by
  induction node using Node.entriesInduction generalizing here with
  | file readable bytes =>
    obtain ⟨_, _, _, hnode, -⟩ := mem_moduleRoots h
    cases hnode
  | link text =>
    obtain ⟨_, _, _, hnode, -⟩ := mem_moduleRoots h
    cases hnode
  | directory listable searchable entries ih =>
    obtain ⟨_, _, _, hnode, entry, hentry, hm⟩ := mem_moduleRoots h
    cases hnode
    rcases hm with ⟨howns, rfl⟩ | ⟨hplain, hentered, hbelow⟩
    · exact ⟨[], entry.1, .module howns, rfl⟩
    · obtain ⟨upper, name, hleads, rfl⟩ := ih entry hentry hbelow
      refine ⟨entry.1 :: upper, name, .inside hplain hentered hleads, ?_⟩
      rw [Path.child_down]
      rfl

/-- A file that is found below the sources of a directory other than the root is found there by the
search through modules, and not as one of the two files that are tried first. -/
theorem leadsTo_of_mem_candidates {root file : Path} {qualifiedName name : Text} {upper : List Text}
    (h : file ∈ candidates tree ignored root qualifiedName)
    (hfile : file.names = (root.down (upper ++ [name]) ++ moduleSources).names ++
      (Import.relativePath qualifiedName).names) :
    LeadsTo tree ignored root upper name := by
  have hsources : ∀ p : Path, (p ++ moduleSources).names = p.names ++ moduleSources.names :=
    fun p => congrArg Path.names (Path.append_of_relative rfl)
  have hne : (root.down (upper ++ [name]) ++ moduleSources).names ≠ [] := by
    rw [hsources]
    exact List.append_ne_nil_of_right_ne_nil _ (List.cons_ne_nil _ _)
  rw [candidates, List.mem_cons, List.mem_cons, List.mem_map] at h
  rcases h with rfl | rfl | ⟨m, hm, rfl⟩
  · have hlength := congrArg List.length (Path.names_of_append hne hfile)
    simp only [hsources, Path.down, List.length_append, List.length_singleton] at hlength
    omega
  · have hlength := congrArg List.length (Path.names_of_append hne hfile)
    simp only [hsources, Path.down, List.length_append, List.length_singleton] at hlength
    omega
  · rw [modulesBelow] at hm
    cases hlookup : tree.lookup root with
    | error fault =>
      rw [hlookup] at hm
      cases hm
    | ok node =>
      rw [hlookup] at hm
      obtain ⟨found, last, hleads, rfl⟩ := exists_leadsTo_of_mem_moduleRoots hm
      have hnames := Path.names_of_append hne hfile
      rw [hsources, hsources, Path.down, Path.down] at hnames
      have hsame := List.append_cancel_left (List.append_cancel_right hnames)
      obtain ⟨rfl, heq⟩ := List.append_inj' hsame rfl
      cases heq
      exact hleads

end

/-- If a class is found in a module below the root, then none of the directories between the root
and that module is ignored or a module; the name of the module itself is not asked for. -/
theorem resolve?_enters_ignored_as_module_only (tree : FileTree) (ignored : IgnoredNames)
    (root file : Path) (qualifiedName name : Text) (upper : List Text)
    (h : resolve? tree ignored (some root) qualifiedName = .ok (some file))
    (hfile : file.names = (root.down (upper ++ [name]) ++ moduleSources).names ++
      (Import.relativePath qualifiedName).names) :
    (∀ directory ∈ upper, isIgnored ignored directory = false) ∧
    (∀ above directory below, upper = above ++ directory :: below →
      tree.seesDirectory (root.down (above ++ [directory]) ++ moduleSources) = false) ∧
    tree.seesDirectory (root.down (upper ++ [name]) ++ moduleSources) = true := by
  have hleads := leadsTo_of_mem_candidates (mem_candidates_of_resolve? h) hfile
  exact ⟨hleads.entered_upper, fun _ _ _ => hleads.plain_upper, hleads.owns_last⟩

theorem resolve?_enters_ignored_as_module_only_nested :
    resolve? (sampleTree "lib") ["core"] (some ⟨.root, []⟩) "A" =
        .ok (some ⟨.root, ["lib", "core", "src", "main", "java", "A.java"]⟩) ∧
      isIgnored ["core"] "lib" = false ∧
      (sampleTree "lib").seesDirectory (⟨.root, ["lib"]⟩ ++ moduleSources) = false := by
  have hresolve : resolve? (sampleTree "lib") ["core"] (some ⟨.root, []⟩) "A" =
      .ok (some ⟨.root, ["lib", "core", "src", "main", "java", "A.java"]⟩) := by decide +kernel
  obtain ⟨hentered, hplain, -⟩ := resolve?_enters_ignored_as_module_only (sampleTree "lib")
    ["core"] ⟨.root, []⟩ _ "A" "core" ["lib"] hresolve (by decide)
  exact ⟨hresolve, hentered _ List.mem_cons_self, hplain [] "lib" [] rfl⟩

/-- An ignored module is searched, though no walk enters it. -/
theorem resolve?_in_ignored_module :
    isIgnored ["core"] "core" = true ∧
      resolve? (sampleTree "lib") ["core"] (some ⟨.root, []⟩) "A" =
        .ok (some ⟨.root, ["lib", "core", "src", "main", "java", "A.java"]⟩) ∧
      (sampleTree "lib").walk ["core"] ".java" ⟨.root, []⟩ =
        .ok [⟨.root, ["app", "src", "main", "java", "B.java"]⟩] := by
  exact ⟨by decide, by decide +kernel, by decide +kernel⟩

end Project

end SourceScout
