import SourceScout.Proofs.Path.Ancestors
import SourceScout.Proofs.Project.PackageRoots

/-!
# The nearest root

The directories above a file are asked from the nearest on: first all of them whether they have
modules, then all of them whether they own sources. So the root of a file is also that of every file
on the way down to it.
-/

namespace SourceScout

namespace FileTree

variable {tree : FileTree} {p : Path}

theorem holds_eq_error (hpassable : tree.root.Passable) {test : Node → Bool} {failure : Failure}
    (h : holds test p (tree.lookup p) = .error failure) :
    tree.isTooLong p = true ∧ failure = .path .nameTooLong p.toText := by
  cases hlookup : tree.lookup p with
  | ok node =>
    rw [hlookup, holds] at h
    split at h <;> cases h
  | error fault =>
    rcases lookup_fault hpassable hlookup with habsence | rfl
    · simp [holds, hlookup, habsence] at h
    · refine ⟨by rw [isTooLong, hlookup], ?_⟩
      simp only [holds, hlookup] at h
      split at h
      · cases h
      · cases h
        rfl

theorem isAbsolute_absolute (tree : FileTree) (p : Path) : (tree.absolute p).isAbsolute = true := by
  rw [absolute]
  split
  · assumption
  · rename_i hrelative
    have hanchor : p.anchor = .relative := by simpa [Path.isAbsolute] using hrelative
    rw [Path.append_of_relative hanchor]
    rfl

theorem seesFile_of_isFile {answer : Bool} (h : tree.isFile p = .ok answer) :
    tree.seesFile p = answer := by
  rw [seesFile, h]

theorem seesDirectory_of_isDirectory {answer : Bool} (h : tree.isDirectory p = .ok answer) :
    tree.seesDirectory p = answer := by
  rw [seesDirectory, h]

end FileTree

namespace Project

variable {tree : FileTree} {directory : Path}

def isModule (tree : FileTree) (child : Path) : Bool :=
  tree.seesDirectory child && tree.seesDirectory (child ++ moduleSources)

structure MultiModule (tree : FileTree) (directory : Path) : Prop where
  build : ∃ name ∈ buildFiles, tree.seesFile (directory.child name) = true
  modules : ∃ entries, tree.entries directory = .ok entries ∧
    2 ≤ entries.countP fun entry => isModule tree (directory.child entry.1)

def OwnsSources (tree : FileTree) (directory : Path) : Prop :=
  tree.seesDirectory (directory ++ sourceDirectory) = true

inductive Asked (tree : FileTree) (directory : Path) : Path → Prop
  | build {name : Text} (mem : name ∈ buildFiles) : Asked tree directory (directory.child name)
  | child {entries : List (Text × Node)} {entry : Text × Node}
      (listed : tree.entries directory = .ok entries) (mem : entry ∈ entries) :
      Asked tree directory (directory.child entry.1)
  | modules {entries : List (Text × Node)} {entry : Text × Node}
      (listed : tree.entries directory = .ok entries) (mem : entry ∈ entries) :
      Asked tree directory (directory.child entry.1 ++ moduleSources)
  | sources : Asked tree directory (directory ++ sourceDirectory)

def FailsAt (tree : FileTree) (directory : Path) (failure : Failure) : Prop :=
  ∃ p, Asked tree directory p ∧ tree.isTooLong p = true ∧ failure = .path .nameTooLong p.toText

theorem hasBuildFile_eq_ok {answer : Bool} (h : hasBuildFile tree directory = .ok answer) :
    answer = true ↔ ∃ name ∈ buildFiles, tree.seesFile (directory.child name) = true := by
  obtain ⟨found, hfinds, hany⟩ :=
    exists_finds_anyM (fun name => tree.isFile (directory.child name)) buildFiles
  rw [hasBuildFile, hany] at h
  cases hfinds with
  | nothing refused =>
    cases h
    refine iff_of_false Bool.noConfusion ?_
    rintro ⟨name, hname, hsees⟩
    rw [FileTree.seesFile_of_isFile (refused name hname)] at hsees
    cases hsees
  | @here before after name split refused passes =>
    cases h
    exact iff_of_true rfl ⟨name, by simp [split], FileTree.seesFile_of_isFile passes⟩
  | fails => cases h

theorem hasBuildFile_eq_error {failure : Failure}
    (h : hasBuildFile tree directory = .error failure) :
    ∃ name ∈ buildFiles, tree.isFile (directory.child name) = .error failure := by
  obtain ⟨found, hfinds, hany⟩ :=
    exists_finds_anyM (fun name => tree.isFile (directory.child name)) buildFiles
  rw [hasBuildFile, hany] at h
  cases hfinds with
  | nothing => cases h
  | here => cases h
  | @fails before after name other split refused fault =>
    cases h
    exact ⟨name, by simp [split], fault⟩

theorem owns_eq_ok {part child : Path} {answer : Bool} (h : owns tree part child = .ok answer) :
    (tree.seesDirectory child && tree.seesDirectory (child ++ part)) = answer := by
  obtain ⟨found, hfound, hrest⟩ := bind_eq_ok.mp h
  rw [FileTree.seesDirectory_of_isDirectory hfound]
  cases found with
  | false =>
    cases hrest
    rfl
  | true => exact FileTree.seesDirectory_of_isDirectory hrest

theorem owns_eq_error {part child : Path} {failure : Failure}
    (h : owns tree part child = .error failure) :
    tree.isDirectory child = .error failure ∨
      tree.isDirectory (child ++ part) = .error failure := by
  rw [owns] at h
  cases hfound : tree.isDirectory child with
  | error other =>
    rw [hfound] at h
    cases h
    exact .inl rfl
  | ok found =>
    rw [hfound] at h
    cases found with
    | false => cases h
    | true => exact .inr h

theorem enoughModules_eq_ok {least count : Int} {paths : List Path} {answer : Bool}
    (hcount : count < least) (h : enoughModules tree least count paths = .ok answer) :
    answer = true ↔ least ≤ count + paths.countP (isModule tree) := by
  induction paths generalizing count with
  | nil =>
    cases h
    simpa using hcount
  | cons child paths ih =>
    obtain ⟨owned, howned, hrest⟩ := bind_eq_ok.mp h
    have hmodule : isModule tree child = owned := owns_eq_ok howned
    rw [List.countP_cons, hmodule]
    cases owned with
    | false => simpa using ih hcount hrest
    | true =>
      rw [if_pos rfl] at hrest ⊢
      split at hrest
      · cases hrest
        simp
        omega
      · rw [ih (by omega) hrest]
        push_cast
        omega

theorem enoughModules_eq_error {least count : Int} {paths : List Path} {failure : Failure}
    (h : enoughModules tree least count paths = .error failure) :
    ∃ child ∈ paths, owns tree moduleSources child = .error failure := by
  induction paths generalizing count with
  | nil => cases h
  | cons child paths ih =>
    rw [enoughModules] at h
    cases howned : owns tree moduleSources child with
    | error other =>
      rw [howned] at h
      cases h
      exact ⟨child, List.mem_cons_self, howned⟩
    | ok owned =>
      rw [howned] at h
      have hlater : ∃ count, enoughModules tree least count paths = .error failure := by
        cases owned with
        | false => exact ⟨_, h⟩
        | true =>
          by_cases hleast : least ≤ count + 1
          · simp [hleast, bind, Except.bind, pure, Except.pure] at h
          · refine ⟨count + 1, ?_⟩
            simpa [hleast, bind, Except.bind] using h
      obtain ⟨count, hlater⟩ := hlater
      obtain ⟨other, hmem, hother⟩ := ih hlater
      exact ⟨other, List.mem_cons_of_mem _ hmem, hother⟩

theorem children_eq_ok {paths : List Path} (h : children tree directory = .ok paths) :
    (∃ entries, tree.entries directory = .ok entries ∧
      paths = entries.map fun entry => directory.child entry.1) ∨
    (∀ entries, tree.entries directory ≠ .ok entries) ∧ paths = [] := by
  rw [children] at h
  cases hentries : tree.entries directory with
  | ok entries =>
    rw [hentries] at h
    cases h
    exact .inl ⟨entries, rfl, rfl⟩
  | error failure =>
    rw [hentries] at h
    refine .inr ⟨nofun, ?_⟩
    cases failure <;> cases h
    rfl

theorem children_eq_error {failure : Failure} (h : children tree directory = .error failure) :
    '\x00' ∈ directory.toText := by
  rw [children, FileTree.entries] at h
  by_contra hnul
  rw [if_neg (by simpa using hnul)] at h
  split at h
  · cases h
  · split at h <;> cases h
  · cases h

theorem isMultiModule_eq_ok {answer : Bool} (h : isMultiModule tree directory = .ok answer) :
    answer = true ↔ MultiModule tree directory := by
  obtain ⟨build, hbuild, hrest⟩ := bind_eq_ok.mp h
  have hfile := hasBuildFile_eq_ok hbuild
  cases build with
  | false =>
    cases hrest
    exact iff_of_false Bool.noConfusion fun hmulti => Bool.noConfusion (hfile.mpr hmulti.build)
  | true =>
    obtain ⟨paths, hpaths, henough⟩ := bind_eq_ok.mp hrest
    have hcount := enoughModules_eq_ok (by decide) henough
    rw [hcount]
    rcases children_eq_ok hpaths with ⟨entries, hentries, rfl⟩ | ⟨hclosed, rfl⟩
    · have hmodules : (entries.map fun entry => directory.child entry.1).countP (isModule tree) =
          entries.countP fun entry => isModule tree (directory.child entry.1) := List.countP_map
      rw [hmodules]
      constructor
      · intro hleast
        exact ⟨hfile.mp rfl, entries, hentries, by omega⟩
      · rintro ⟨-, others, hothers, hleast⟩
        obtain rfl : entries = others := Except.ok.inj (hentries.symm.trans hothers)
        omega
    · refine iff_of_false (by simp) ?_
      rintro ⟨-, entries, hentries, -⟩
      exact hclosed entries hentries

theorem isMultiModule_eq_error (hpassable : tree.root.Passable) {failure : Failure}
    (h : isMultiModule tree directory = .error failure) : FailsAt tree directory failure := by
  rw [isMultiModule] at h
  cases hbuild : hasBuildFile tree directory with
  | error other =>
    rw [hbuild] at h
    cases h
    obtain ⟨name, hname, hfails⟩ := hasBuildFile_eq_error hbuild
    exact ⟨_, .build hname, FileTree.holds_eq_error hpassable hfails⟩
  | ok build =>
    rw [hbuild] at h
    cases build with
    | false => cases h
    | true =>
      -- With a build file in it, the directory has no NUL in its path, so it is listed.
      obtain ⟨name, -, hsees⟩ := (hasBuildFile_eq_ok hbuild).mp rfl
      have hnul : '\x00' ∉ directory.toText := fun hmem =>
        FileTree.nul_not_mem_of_seesFile hsees (Path.nul_mem_child.mpr (.inl hmem))
      change hasModules tree directory 2 = .error failure at h
      rw [hasModules] at h
      cases hpaths : children tree directory with
      | error other => exact absurd (children_eq_error hpaths) hnul
      | ok paths =>
        rw [hpaths] at h
        obtain ⟨child, hchild, hfails⟩ := enoughModules_eq_error h
        rcases children_eq_ok hpaths with ⟨entries, hentries, rfl⟩ | ⟨-, rfl⟩
        · obtain ⟨entry, hentry, rfl⟩ := List.mem_map.mp hchild
          rcases owns_eq_error hfails with hfails | hfails
          · exact ⟨_, .child hentries hentry, FileTree.holds_eq_error hpassable hfails⟩
          · exact ⟨_, .modules hentries hentry, FileTree.holds_eq_error hpassable hfails⟩
        · cases hchild

theorem hasSources_eq_ok {answer : Bool} (h : hasSources tree directory = .ok answer) :
    answer = true ↔ OwnsSources tree directory := by
  rw [OwnsSources, FileTree.seesDirectory_of_isDirectory h]

theorem hasSources_eq_error (hpassable : tree.root.Passable) {failure : Failure}
    (h : hasSources tree directory = .error failure) : FailsAt tree directory failure :=
  ⟨_, .sources, FileTree.holds_eq_error hpassable h⟩

inductive FoundAbove (tree : FileTree) (file root : Path) : Prop
  | multiModule (nearest : Nearest (MultiModule tree) file root)
  | sources (none : ∀ d : Path, d.IsAncestor file → ¬MultiModule tree d)
      (nearest : Nearest (OwnsSources tree) file root)

inductive IsRoot (tree : FileTree) (file : Path) (package : Option Text) : Option Path → Prop
  | above {root : Path} (found : FoundAbove tree file root) : IsRoot tree file package (some root)
  | package
      (none : ∀ d : Path, d.IsAncestor file → ¬MultiModule tree d ∧ ¬OwnsSources tree d) :
      IsRoot tree file package (package.bind (Package.sourceRoot? file))

inductive Searched (tree : FileTree) (file : Path) (package : Option Text) :
    Except Failure (Option Path) → Prop
  | multiModule {found : Path}
      (first : file.ancestors.findM? (isMultiModule tree) = .ok (some found)) :
      Searched tree file package (.ok (some found))
  | sources {found : Path} (first : file.ancestors.findM? (isMultiModule tree) = .ok none)
      (second : file.ancestors.findM? (hasSources tree) = .ok (some found)) :
      Searched tree file package (.ok (some found))
  | package (first : file.ancestors.findM? (isMultiModule tree) = .ok none)
      (second : file.ancestors.findM? (hasSources tree) = .ok none) :
      Searched tree file package (.ok (package.bind (Package.sourceRoot? file)))
  | failed {failure : Failure}
      (either : file.ancestors.findM? (isMultiModule tree) = .error failure ∨
        file.ancestors.findM? (hasSources tree) = .error failure) :
      Searched tree file package (.error failure)

theorem root?_searched (tree : FileTree) (file : Path) (package : Option Text) :
    Searched tree (tree.absolute file) package (root? tree file package) := by
  rw [root?]
  cases hfirst : (tree.absolute file).ancestors.findM? (isMultiModule tree) with
  | error failure => exact .failed (.inl hfirst)
  | ok found =>
    cases found with
    | some found => exact .multiModule hfirst
    | none =>
      cases hsecond : (tree.absolute file).ancestors.findM? (hasSources tree) with
      | error failure =>
        simp only [bind, Except.bind]
        exact .failed (.inr hsecond)
      | ok found =>
        simp only [bind, Except.bind]
        cases found with
        | some found => exact .sources hfirst hsecond
        | none => exact .package hfirst hsecond

theorem isRoot_of_root? {file : Path} {package : Option Text} {answer : Option Path}
    (h : root? tree file package = .ok answer) :
    IsRoot tree (tree.absolute file) package answer := by
  have hsearched := root?_searched tree file package
  rw [h] at hsearched
  cases hsearched with
  | multiModule first =>
    exact .above (.multiModule (nearest_of_findM? (fun _ _ => isMultiModule_eq_ok) first))
  | sources first second =>
    exact .above (.sources (fun _ => not_of_findM?_eq_none (fun _ _ => isMultiModule_eq_ok) first)
      (nearest_of_findM? (fun _ _ => hasSources_eq_ok) second))
  | package first second =>
    exact .package fun _ hd => ⟨not_of_findM?_eq_none (fun _ _ => isMultiModule_eq_ok) first hd,
      not_of_findM?_eq_none (fun _ _ => hasSources_eq_ok) second hd⟩

theorem root?_eq_error (hpassable : tree.root.Passable) {file : Path} {package : Option Text}
    {failure : Failure} (h : root? tree file package = .error failure) :
    ∃ d : Path, d.IsAncestor (tree.absolute file) ∧ FailsAt tree d failure := by
  have hsearched := root?_searched tree file package
  rw [h] at hsearched
  cases hsearched with
  | failed either =>
    rcases either with hfails | hfails
    · obtain ⟨d, hd, hfails⟩ := exists_of_findM?_eq_error hfails
      exact ⟨d, Path.mem_ancestors_iff.mp hd, isMultiModule_eq_error hpassable hfails⟩
    · obtain ⟨d, hd, hfails⟩ := exists_of_findM?_eq_error hfails
      exact ⟨d, Path.mem_ancestors_iff.mp hd, hasSources_eq_error hpassable hfails⟩

theorem root?_child {file r : Path} {package : Option Text}
    (h : root? tree file package = .ok (some r)) (hfound : FoundAbove tree (tree.absolute file) r)
    {d : Path} (hr : d = r ∨ r.IsAncestor d) (hd : d.IsAncestor (tree.absolute file)) (name : Text)
    (other : Option Text) : root? tree (d.child name) other = .ok (some r) := by
  have hsame : ∀ a ∈ some r, a = d ∨ a.IsAncestor d := by
    rintro a ⟨⟩
    exact hr.imp_left Eq.symm
  have habsolute : tree.absolute (d.child name) = d.child name := by
    obtain ⟨-, rest, -, hfile⟩ := hd
    have hanchor := tree.isAbsolute_absolute file
    rw [hfile] at hanchor
    exact if_pos hanchor
  have hsearched := root?_searched tree file package
  rw [h] at hsearched
  -- The third rule may give the same path as an answer, so the cases are kept apart by an equation.
  generalize hanswer : Except.ok (some r) = answer at hsearched
  cases hsearched with
  | multiModule first =>
    cases hanswer
    simp only [root?, habsolute, findM?_ancestors_child first hd hsame]
    rfl
  | sources first second =>
    cases hanswer
    simp only [root?, habsolute, findM?_ancestors_child first hd (by simp),
      findM?_ancestors_child second hd hsame]
    rfl
  | package first second =>
    -- Both searches found nothing, against what is known of the root.
    cases hfound with
    | multiModule nearest =>
      exact absurd nearest.here
        (not_of_findM?_eq_none (fun _ _ => isMultiModule_eq_ok) first nearest.above)
    | sources _ nearest =>
      exact absurd nearest.here
        (not_of_findM?_eq_none (fun _ _ => hasSources_eq_ok) second nearest.above)
  | failed either => cases hanswer

/-- The root of a file is the nearest directory above it that has modules; if there is none, the
nearest that owns sources; if there is none either, the one its package tells. It is missed only
where a path that has to be asked for is too long. A root by the first two rules is also that of
everything in the directories from there down to the file. -/
theorem root?_nearest_and_stable (tree : FileTree) (file : Path) (package : Option Text) :
    (∀ answer, root? tree file package = .ok answer →
      IsRoot tree (tree.absolute file) package answer) ∧
    (tree.root.Passable → (∃ answer, root? tree file package = .ok answer) ∨
      ∃ d failure, d.IsAncestor (tree.absolute file) ∧ FailsAt tree d failure ∧
        root? tree file package = .error failure) ∧
    ∀ r, root? tree file package = .ok (some r) → FoundAbove tree (tree.absolute file) r →
      ∀ d, (d = r ∨ r.IsAncestor d) → d.IsAncestor (tree.absolute file) →
        ∀ name other, root? tree (d.child name) other = .ok (some r) := by
  refine ⟨fun answer => isRoot_of_root?, fun hpassable => ?_, ?_⟩
  · cases h : root? tree file package with
    | ok answer => exact .inl ⟨answer, rfl⟩
    | error failure =>
      obtain ⟨d, hd, hfails⟩ := root?_eq_error hpassable h
      exact .inr ⟨d, failure, hd, hfails, rfl⟩
  · intro r h hfound d hr hd name other
    exact root?_child h hfound hr hd name other

def linkedModules (target : Text) : FileTree :=
  ⟨.directory true true [("w", .directory true true [("0", .link target),
    ("a", sampleModule "A.java"), ("b", sampleModule "B.java"), ("pom.xml", .file true [])])], []⟩

theorem linkedModules_open (target : Text) : (linkedModules target).root.Open := by
  simp [linkedModules, sampleModule, Node.Open]

theorem root?_nearest_and_stable_linkedModules :
    (linkedModules "b").root.Passable ∧
      OwnsSources (linkedModules "b") ⟨.root, ["w", "b"]⟩ ∧
      FoundAbove (linkedModules "b") ⟨.root, ["w", "b", "src", "main", "java", "B.java"]⟩
        ⟨.root, ["w"]⟩ ∧
      root? (linkedModules "b") ⟨.root, ["w", "b", "C.java"]⟩ (some "b") =
        .ok (some ⟨.root, ["w"]⟩) := by
  have hroot : root? (linkedModules "b") ⟨.root, ["w", "b", "src", "main", "java", "B.java"]⟩ none =
      .ok (some ⟨.root, ["w"]⟩) := by decide +kernel
  obtain ⟨hanswers, -, hstable⟩ := root?_nearest_and_stable (linkedModules "b")
    ⟨.root, ["w", "b", "src", "main", "java", "B.java"]⟩ none
  have hfound : FoundAbove (linkedModules "b")
      ⟨.root, ["w", "b", "src", "main", "java", "B.java"]⟩ ⟨.root, ["w"]⟩ := by
    cases hanswers _ hroot with
    | above found => exact found
  refine ⟨(linkedModules_open _).passable, by unfold OwnsSources; decide +kernel, hfound, ?_⟩
  exact hstable _ hroot hfound ⟨.root, ["w", "b"]⟩
    (.inr ⟨by decide, ["b"], by decide, rfl⟩)
    ⟨by decide, ["src", "main", "java", "B.java"], by decide, rfl⟩ "C.java" (some "b")

/-- A link to a name of 256 bytes among the children hides that there are two modules. -/
theorem root?_stopped_by_linked_child :
    (linkedModules (List.replicate 256 'x')).root.Open ∧
      MultiModule (linkedModules (List.replicate 256 'x')) ⟨.root, ["w"]⟩ ∧
      Path.IsAncestor ⟨.root, ["w"]⟩ ⟨.root, ["w", "a", "src", "main", "java", "A.java"]⟩ ∧
      root? (linkedModules (List.replicate 256 'x'))
          ⟨.root, ["w", "a", "src", "main", "java", "A.java"]⟩ none =
        .error (.path .nameTooLong "/w/0") := by
  refine ⟨linkedModules_open _, ⟨⟨"pom.xml", by decide, by decide +kernel⟩, _, rfl, ?_⟩,
    ⟨by decide, ["a", "src", "main", "java", "A.java"], by decide, rfl⟩, by decide +kernel⟩
  decide +kernel

end Project

end SourceScout
