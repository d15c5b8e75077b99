import SourceScout.Proofs.Project.Fallback
import SourceScout.Proofs.Project.ModuleSearch

/-!
# Where the files of imports lie

Whatever a search comes across by going from directory to directory lies below the root, since the
entries of directories have names that lead down. The path of an imported class is put below a
source root instead, and stays there unless one of the segments of its name starts with a slash.
-/

namespace SourceScout

namespace Node

def Named : Node → Prop := Everywhere fun _ _ entries =>
  ∀ entry ∈ entries, Path.IsEntryName entry.1

/-- What is gathered from directory to directory lies below where it started, if all that a
directory has of it is at an entry, below one or gathered there. -/
theorem Named.below_of_mem {gather : Path → Node → List Path}
    (hgather : ∀ {here p node}, p ∈ gather here node →
      ∃ listable searchable entries, node = .directory listable searchable entries ∧
        ∃ entry ∈ entries, p = here.child entry.1 ∨ Path.Below (here.child entry.1) p ∨
          p ∈ gather (here.child entry.1) entry.2)
    {node : Node} (hnamed : node.Named) {here p : Path} (h : p ∈ gather here node) :
    Path.Below here p := by
  induction hnamed generalizing here with
  | file readable bytes =>
    obtain ⟨_, _, _, hnode, -⟩ := hgather h
    cases hnode
  | link target =>
    obtain ⟨_, _, _, hnode, -⟩ := hgather h
    cases hnode
  | directory hhere _ ih =>
    obtain ⟨_, _, _, hnode, entry, hentry, hp⟩ := hgather h
    cases hnode
    have hdown := Path.below_child here (hhere entry hentry)
    rcases hp with rfl | hbelow | hmem
    · exact hdown
    · exact hdown.trans hbelow
    · exact hdown.trans (ih entry hentry hmem)

end Node

namespace FileTree

variable {tree : FileTree} {ignored : IgnoredNames} {ending : Text}

theorem mem_filesHere {here file : Path} {entries : List (Text × Node)}
    (h : file ∈ tree.filesHere ending here entries) :
    ∃ entry ∈ entries, file = here.child entry.1 := by
  obtain ⟨entry, hentry, rfl⟩ := List.mem_map.mp h
  exact ⟨entry, mem_sortNamed.mp (List.mem_filter.mp hentry).1, rfl⟩

theorem mem_walkEntries {here : Path} {entries : List (Text × Node)} {name : Text}
    {files : List Path} (h : (name, files) ∈ tree.walkEntries ignored ending here entries) :
    isIgnored ignored name = false ∧ ∃ node, (name, node) ∈ entries ∧
      files = tree.walkNode ignored ending (here.child name) node := by
  induction entries with
  | nil =>
    rw [walkEntries] at h
    cases h
  | cons entry entries ih =>
    obtain ⟨other, node⟩ := entry
    rw [walkEntries] at h
    have hlater : (name, files) ∈ tree.walkEntries ignored ending here entries →
        isIgnored ignored name = false ∧ ∃ found, (name, found) ∈ (other, node) :: entries ∧
          files = tree.walkNode ignored ending (here.child name) found := by
      intro hmem
      obtain ⟨hname, found, hfound, hfiles⟩ := ih hmem
      exact ⟨hname, found, List.mem_cons_of_mem _ hfound, hfiles⟩
    split at h
    · exact hlater h
    · rename_i hplain
      rcases List.mem_cons.mp h with heq | hrest
      · cases heq
        exact ⟨Bool.eq_false_iff.mpr hplain, node, List.mem_cons_self, rfl⟩
      · exact hlater hrest

/-- What a walk lists: an entry of its directory, or what the walk of a directory among the entries
lists, which is not ignored. -/
theorem mem_walkNode {node : Node} {here file : Path}
    (h : file ∈ tree.walkNode ignored ending here node) :
    ∃ listable searchable entries, node = .directory listable searchable entries ∧
      ∃ entry ∈ entries, file = here.child entry.1 ∨
        isIgnored ignored entry.1 = false ∧
          file ∈ tree.walkNode ignored ending (here.child entry.1) entry.2 := by
  cases node with
  | file readable bytes =>
    rw [walkNode] at h
    · cases h
    · simp
  | link target =>
    rw [walkNode] at h
    · cases h
    · simp
  | directory listable searchable entries =>
    refine ⟨listable, searchable, entries, rfl, ?_⟩
    rw [walkNode] at h
    split at h
    · cases h
    · rcases List.mem_append.mp h with hfile | hfile
      · obtain ⟨entry, hentry, heq⟩ := mem_filesHere hfile
        exact ⟨entry, hentry, .inl heq⟩
      · split at hfile
        · obtain ⟨⟨name, files⟩, hwalk, hmem⟩ := List.mem_flatMap.mp hfile
          obtain ⟨hname, node, hentry, rfl⟩ := mem_walkEntries (mem_sortNamed.mp hwalk)
          exact ⟨(name, node), hentry, .inr ⟨hname, hmem⟩⟩
        · cases hfile

theorem below_of_mem_walkNode {node : Node} (hnamed : node.Named) {here file : Path}
    (h : file ∈ tree.walkNode ignored ending here node) : Path.Below here file := by
  refine hnamed.below_of_mem (fun hmem => ?_) h
  obtain ⟨listable, searchable, entries, hnode, entry, hentry, hfile⟩ := mem_walkNode hmem
  exact ⟨listable, searchable, entries, hnode, entry, hentry, hfile.imp_right fun h => .inr h.2⟩

theorem exists_node_of_mem_walk {root : Path} {files : List Path}
    (h : tree.walk ignored ending root = .ok files) {file : Path} (hfile : file ∈ files) :
    ∃ node, tree.lookup root = .ok node ∧ files = tree.walkNode ignored ending root node := by
  rw [walk] at h
  split at h
  · cases h
  · cases hlookup : tree.lookup root with
    | error fault =>
      rw [hlookup] at h
      cases h
      cases hfile
    | ok node =>
      rw [hlookup] at h
      cases h
      exact ⟨node, rfl, rfl⟩

theorem below_of_mem_walk (hnamed : tree.root.Named) {root : Path} {files : List Path}
    (h : tree.walk ignored ending root = .ok files) {file : Path} (hfile : file ∈ files) :
    Path.Below root file := by
  obtain ⟨node, hlookup, rfl⟩ := exists_node_of_mem_walk h hfile
  exact below_of_mem_walkNode (lookup_everywhere hnamed hlookup) hfile

end FileTree

namespace Project

section

variable {tree : FileTree} {ignored : IgnoredNames}

theorem below_moduleSources (p : Path) : Path.Below p (p ++ moduleSources) := by
  refine Path.below_append rfl (List.cons_ne_nil _ _) ?_
  simp only [moduleSources, List.forall_mem_cons]
  decide

theorem below_of_mem_moduleRoots {node : Node} (hnamed : node.Named) {here m : Path}
    (h : m ∈ moduleRoots tree ignored here node) : Path.Below here m := by
  refine hnamed.below_of_mem (fun hmem => ?_) h
  obtain ⟨listable, searchable, entries, hnode, entry, hentry, hm⟩ := mem_moduleRoots hmem
  refine ⟨listable, searchable, entries, hnode, entry, hentry, .inr ?_⟩
  rcases hm with ⟨-, rfl⟩ | ⟨-, -, hbelow⟩
  · exact .inl (below_moduleSources _)
  · exact .inr hbelow

theorem below_of_mem_candidates (hnamed : tree.root.Named) {root file : Path} {qualifiedName : Text}
    (hrelative : (Import.relativePath qualifiedName).anchor = .relative)
    (h : file ∈ candidates tree ignored root qualifiedName) : Path.Below root file := by
  have hclass : ∀ p : Path, Path.Below p (p ++ Import.relativePath qualifiedName) := fun p =>
    Path.below_append hrelative (Import.relativePath_names_ne_nil qualifiedName)
      fun name => Import.isEntryName_of_mem_relativePath
  rw [candidates, List.mem_cons, List.mem_cons, List.mem_map] at h
  rcases h with rfl | rfl | ⟨m, hm, rfl⟩
  · exact (below_moduleSources root).trans (hclass _)
  · exact hclass root
  · rw [modulesBelow] at hm
    cases hlookup : tree.lookup root with
    | error fault =>
      rw [hlookup] at hm
      cases hm
    | ok node =>
      rw [hlookup] at hm
      have hnode : node.Named := FileTree.lookup_everywhere hnamed hlookup
      exact (below_of_mem_moduleRoots hnode hm).trans (hclass m)

theorem eq_relativePath_of_mem_candidates {root file : Path} {qualifiedName : Text}
    (hanchored : (Import.relativePath qualifiedName).anchor ≠ .relative)
    (h : file ∈ candidates tree ignored root qualifiedName) :
    file = Import.relativePath qualifiedName := by
  simp only [candidates, Path.append_of_anchored hanchored, List.mem_cons, List.mem_map] at h
  rcases h with rfl | rfl | ⟨m, -, rfl⟩ <;> rfl

theorem exists_file_of_mem_fallback {root : Path} {wanted : List Text} {found : List Import}
    (h : resolveSimple tree ignored (some root) wanted = .ok found) {i : Import} (hi : i ∈ found) :
    ∃ files, tree.walk ignored ".java" root = .ok files ∧ ∃ file ∈ files, i.path = file.toText := by
  cases hwalk : tree.walk ignored ".java" root with
  | error failure =>
    rw [resolveSimple_eq_nil h hwalk] at hi
    cases hi
  | ok files =>
    rw [resolveSimple_eq_ok h hwalk] at hi
    obtain ⟨k, -, hfirst⟩ := (listed_distinctNames _ _).mem_iff.mp hi
    obtain ⟨file, hfile, hanswer⟩ := Option.bind_eq_some_iff.mp hfirst.answers
    rw [importNamed?, Option.ite_none_right_eq_some, importOfFile?_eq_some] at hanswer
    obtain ⟨-, text, owner, -, -, -, rfl⟩ := hanswer
    exact ⟨files, rfl, file, List.mem_of_getElem? hfile, rfl⟩

end

/-- Every import that is found by a simple name lies below the root. So does every resolved import
with no slash at the start of a segment; with one, its file is the class path itself, wherever the
root lies. -/
theorem scanImports_below (tree : FileTree) (ignored : IgnoredNames) (root : Path) (content : Text)
    (scan : ImportScan) (hnamed : tree.root.Named)
    (hroot : ∀ name ∈ root.names, Path.IsComponent name)
    (h : scanImports tree ignored (some root) content = .ok scan) :
    (∀ i ∈ scan.fallback, Path.Below root (Path.ofText i.path)) ∧
    ∀ i ∈ scan.resolved,
      ((∀ segment ∈ Package.segments i.qualifiedName, segment.head? ≠ some '/') →
        Path.Below root (Path.ofText i.path)) ∧
      ((∃ segment ∈ Package.segments i.qualifiedName, segment.head? = some '/') →
        i.path = (Import.relativePath i.qualifiedName).toText) := by
  have hwritten : ∀ file, Path.Below root file → Path.Below root (Path.ofText file.toText) :=
    fun file hfile => by rwa [hfile.ofText_toText hroot]
  cases hpackage : Package.nonempty? content with
  | none =>
    rw [scanImports, hpackage] at h
    cases h
    simp
  | some package =>
    obtain ⟨progress, found, hscanned, hfound, rfl⟩ := scanImports_eq_ok hpackage h
    constructor
    · intro i hi
      obtain ⟨files, hfiles, file, hfile, hpath⟩ :=
        exists_file_of_mem_fallback hfound (List.mem_filter.mp hi).1
      rw [hpath]
      exact hwritten file (FileTree.below_of_mem_walk hnamed hfiles hfile)
    · intro i hi
      change i ∈ progress.resolved at hi
      rw [hscanned.resolved] at hi
      obtain ⟨k, -, hfirst⟩ := (listed_distinctNames _ _).mem_iff.mp hi
      obtain ⟨file, hresolve, hpath⟩ := (firstAt_importOf?_iff.mp hfirst).resolves
      have hcandidate := mem_candidates_of_resolve? hresolve
      rw [hpath]
      constructor
      · intro hslash
        have hrelative := (Import.relativePath_anchor i.qualifiedName).mpr hslash
        exact hwritten file (below_of_mem_candidates hnamed hrelative hcandidate)
      · rintro ⟨segment, hsegment, hslash⟩
        have hanchored : (Import.relativePath i.qualifiedName).anchor ≠ .relative := by
          intro hrelative
          exact (Import.relativePath_anchor i.qualifiedName).mp hrelative segment hsegment hslash
        rw [eq_relativePath_of_mem_candidates hanchored hcandidate]

def sampleWorkspace : FileTree :=
  ⟨.directory true true [("w", .directory true true
    [("app", .directory true true [("D.java", .file true (Utf8.encode "package a.d;")),
      ("a", .directory true true [("b", .directory true true [("C.java", .file true [])])])]),
    ("lib", .directory true true [("Util.java", .file true [])])])], []⟩

def slashedText : Text := "package a.b;import a.b.C;import a.b.D;import a.b./w/lib.Util;"

theorem scanImports_sampleWorkspace :
    scanImports sampleWorkspace [] (some ⟨.root, ["w", "app"]⟩) slashedText =
      .ok ⟨[⟨"a.b.C", "/w/app/a/b/C.java"⟩, ⟨"a.b./w/lib.Util", "/w/lib/Util.java"⟩],
        [⟨"a.d.D", "/w/app/D.java"⟩]⟩ := by decide +kernel

theorem scanImports_below_sampleWorkspace :
    sampleWorkspace.root.Named ∧
      Path.Below ⟨.root, ["w", "app"]⟩ (Path.ofText "/w/app/D.java") ∧
      Path.Below ⟨.root, ["w", "app"]⟩ (Path.ofText "/w/app/a/b/C.java") ∧
      "/w/lib/Util.java" = (Import.relativePath "a.b./w/lib.Util").toText := by
  have hnamed : sampleWorkspace.root.Named := by
    simp only [sampleWorkspace, Node.Named, Node.everywhere_directory, Node.everywhere_file,
      List.forall_mem_cons, List.not_mem_nil, false_implies, implies_true, and_true, true_and]
    decide
  have hbelow := scanImports_below sampleWorkspace [] ⟨.root, ["w", "app"]⟩ slashedText _ hnamed
    (by decide) scanImports_sampleWorkspace
  refine ⟨hnamed, hbelow.1 _ List.mem_cons_self, (hbelow.2 _ List.mem_cons_self).1 ?_,
    (hbelow.2 _ (List.mem_cons_of_mem _ List.mem_cons_self)).2 ⟨"/w/lib", ?_⟩⟩
  · decide +kernel
  · decide +kernel

/-- A resolved import can lie beside the root. -/
theorem scanImports_resolved_beside_root :
    resolve? sampleWorkspace [] (some ⟨.root, ["w", "app"]⟩) "/w/lib.Util" =
        .ok (some ⟨.root, ["w", "lib", "Util.java"]⟩) ∧
      (∃ scan, scanImports sampleWorkspace [] (some ⟨.root, ["w", "app"]⟩) slashedText = .ok scan ∧
        ⟨"a.b./w/lib.Util", "/w/lib/Util.java"⟩ ∈ scan.resolved) ∧
      ¬Path.Below ⟨.root, ["w", "app"]⟩ (Path.ofText "/w/lib/Util.java") := by
  refine ⟨by decide +kernel, ⟨_, scanImports_sampleWorkspace, by decide⟩, ?_⟩
  rintro ⟨rest, -, -, heq⟩
  have hread : Path.ofText "/w/lib/Util.java" = ⟨.root, ["w", "lib", "Util.java"]⟩ := by decide
  rw [hread] at heq
  simp at heq

end Project

end SourceScout
