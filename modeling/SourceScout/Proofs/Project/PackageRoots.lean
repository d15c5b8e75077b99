import SourceScout.Proofs.FileTree.Descent
import SourceScout.Proofs.Project.ModuleSearch

/-!
# Package roots and class paths

The segments of a package are taken off the end of a directory to find its source root, and put
below a source root again to find a class. The two are inverse to each other.
-/

namespace SourceScout

namespace Path

def joined (p : Path) (texts : List Text) : Path := (texts.map ofText).foldl (· ++ ·) p

theorem ofText_component {name : Text} (h : IsComponent name) :
    ofText name = ⟨.relative, [name]⟩ := by
  have hnames : namesOf name = [name] := namesOf_join (List.forall_mem_singleton.mpr h)
  have hanchor : Anchor.ofText name = .relative := anchor_ofText_eq_relative_iff.mpr h.head?_ne
  rw [ofText, hnames, hanchor]

theorem joined_components {p : Path} {names : List Text} (h : ∀ name ∈ names, IsComponent name) :
    p.joined names = ⟨p.anchor, p.names ++ names⟩ := by
  induction names generalizing p with
  | nil => rw [List.append_nil]; rfl
  | cons name names ih =>
    obtain ⟨hname, hnames⟩ := List.forall_mem_cons.mp h
    have hstep : p ++ ofText name = ⟨p.anchor, p.names ++ [name]⟩ := by
      rw [ofText_component hname, append_of_relative rfl]
    have hrest := @ih (p ++ ofText name) hnames
    rw [hstep, List.append_assoc, List.singleton_append] at hrest
    rw [joined, List.map_cons, List.foldl_cons, hstep]
    exact hrest

end Path

namespace Package

theorem sourceRoot?_eq_some {file root : Path} {package : Text}
    (h : sourceRoot? file package = some root) :
    file.parent = ⟨root.anchor, root.names ++ segments package⟩ := by
  rw [sourceRoot?] at h
  split at h
  · cases h
  · dsimp only at h
    split at h
    · rename_i hends
      obtain ⟨front, hfront⟩ := List.isSuffixOf_iff_suffix.mp hends.2
      cases h
      rw [← hfront, List.length_append, Nat.add_sub_cancel, List.take_left, hfront]
    · cases h

theorem sourceRoot?_of_parent_eq {file root : Path} {package : Text} (hpackage : package ≠ [])
    (hroot : 0 < root.partCount)
    (h : file.parent = ⟨root.anchor, root.names ++ segments package⟩) :
    sourceRoot? file package = some root := by
  rw [sourceRoot?, if_neg (by simpa using hpackage)]
  dsimp only
  rw [h]
  have hends : (segments package).isSuffixOf (root.names ++ segments package) = true :=
    List.isSuffixOf_iff_suffix.mpr (List.suffix_append _ _)
  have hlength : (segments package).length <
      Path.partCount ⟨root.anchor, root.names ++ segments package⟩ := by
    have habsolute : Path.isAbsolute ⟨root.anchor, root.names ++ segments package⟩ =
        root.isAbsolute := rfl
    rw [Path.partCount, habsolute, List.length_append]
    rw [Path.partCount] at hroot
    omega
  rw [if_pos ⟨hlength, hends⟩, List.length_append, Nat.add_sub_cancel, List.take_left]

end Package

/-- A class below a source root, by the segments of its package and its own name. -/
structure ClassPlace where
  root : Path
  segments : List Text
  stem : Text
  root_ne : 0 < root.partCount
  segments_ne : segments ≠ []
  segments_legal : ∀ segment ∈ segments, Path.IsComponent segment ∧ '.' ∉ segment
  stem_plain : '.' ∉ stem ∧ '/' ∉ stem

namespace ClassPlace

variable (place : ClassPlace)

def fileName : Text := place.stem ++ (".java" : Text)

def file : Path := place.root.joined (place.segments ++ [place.fileName])

def package : Text := Text.join ['.'] place.segments

def qualifiedName : Text := Text.join ['.'] (place.segments ++ [place.stem])

def inSources : Path :=
  place.root.joined ((["src", "main", "java"] : List Text) ++ (place.segments ++ [place.fileName]))

theorem isComponent_fileName : Path.IsComponent place.fileName := by
  constructor
  · cases hstem : place.stem <;> simp [fileName, hstem, Path.isName]
  · rw [fileName, List.mem_append, not_or]
    exact ⟨place.stem_plain.2, by decide⟩

theorem isComponent_names : ∀ name ∈ place.segments ++ [place.fileName], Path.IsComponent name :=
  List.forall_mem_append.mpr ⟨fun segment h => (place.segments_legal segment h).1,
    List.forall_mem_singleton.mpr place.isComponent_fileName⟩

theorem file_eq :
    place.file = ⟨place.root.anchor, place.root.names ++ (place.segments ++ [place.fileName])⟩ :=
  Path.joined_components place.isComponent_names

theorem segments_package : Package.segments place.package = place.segments :=
  Text.splitOn_join place.segments_ne fun segment h => (place.segments_legal segment h).2

theorem package_ne_nil : place.package ≠ [] := by
  intro hnil
  have hsegments := place.segments_package
  rw [hnil] at hsegments
  have hlegal := place.segments_legal [] (by rw [← hsegments]; exact List.mem_cons_self)
  exact hlegal.1.ne_nil rfl

theorem relativePath_qualifiedName :
    Import.relativePath place.qualifiedName =
      ⟨.relative, place.segments ++ [place.fileName]⟩ := by
  have hsegments : Package.segments place.qualifiedName = place.segments ++ [place.stem] := by
    refine Text.splitOn_join (by simp) ?_
    exact List.forall_mem_append.mpr ⟨fun segment h => (place.segments_legal segment h).2,
      List.forall_mem_singleton.mpr place.stem_plain.1⟩
  have houter : (place.segments.map Path.ofText).foldl (· ++ ·) ⟨.relative, []⟩ =
      ⟨.relative, place.segments⟩ :=
    Path.joined_components fun segment h => (place.segments_legal segment h).1
  simp only [Import.relativePath, hsegments, List.dropLast_concat, List.getLastD_concat, houter]
  have hlast := Path.ofText_component place.isComponent_fileName
  rw [fileName] at hlast ⊢
  rw [hlast, Path.append_of_relative rfl]

theorem root_append_relativePath :
    place.root ++ Import.relativePath place.qualifiedName = place.file := by
  rw [relativePath_qualifiedName, file_eq, Path.append_of_relative rfl]

theorem inSources_eq :
    place.inSources = ⟨place.root.anchor, place.root.names ++
      ((["src", "main", "java"] : List Text) ++ (place.segments ++ [place.fileName]))⟩ :=
  Path.joined_components (List.forall_mem_append.mpr ⟨by decide, place.isComponent_names⟩)

theorem sources_append_relativePath :
    place.root ++ Project.moduleSources ++ Import.relativePath place.qualifiedName =
      place.inSources := by
  rw [inSources_eq, relativePath_qualifiedName, Path.append_of_relative (p := place.root) rfl,
    Path.append_of_relative rfl, List.append_assoc]
  rfl

theorem nul_mem_inSources (h : '\x00' ∈ place.inSources.toText) : '\x00' ∈ place.file.toText := by
  rw [Path.nul_mem_toText, inSources_eq] at h
  rw [Path.nul_mem_toText, file_eq]
  obtain ⟨name, hname, hmem⟩ := h
  refine ⟨name, ?_, hmem⟩
  simp only [List.mem_append] at hname ⊢
  rcases hname with hroot | hsources | hrest
  · exact .inl hroot
  · have hplain : ∀ name ∈ (["src", "main", "java"] : List Text), '\x00' ∉ name := by decide
    exact absurd hmem (hplain name hsources)
  · exact .inr hrest

theorem sourceRoot?_file : Package.sourceRoot? place.file place.package = some place.root := by
  refine Package.sourceRoot?_of_parent_eq place.package_ne_nil place.root_ne ?_
  rw [Path.parent, file_eq, segments_package, ← List.append_assoc, List.dropLast_concat]

end ClassPlace

namespace FileTree

variable {tree : FileTree} {p : Path}

theorem nul_not_mem_of_seesFile (h : tree.seesFile p = true) : '\x00' ∉ p.toText := by
  intro hnul
  simp [seesFile, isFile, holds, hnul] at h

theorem isFile_of_seesFile (h : tree.seesFile p = true) : tree.isFile p = .ok true := by
  rw [seesFile] at h
  cases hfile : tree.isFile p with
  | error failure => simp [hfile] at h
  | ok found => simpa [hfile] using h

theorem isFile_eq_ite (hopen : tree.root.Open) (hnul : '\x00' ∉ p.toText) :
    tree.isFile p =
      if tree.isTooLong p then .error (.path .nameTooLong p.toText) else .ok (tree.seesFile p) := by
  cases hlong : tree.isTooLong p with
  | false => exact isFile_eq_ok hopen hlong
  | true =>
    have hlookup : tree.lookup p = .error .nameTooLong := by
      rw [isTooLong] at hlong
      split at hlong
      · assumption
      · cases hlong
    simp [isFile, holds, hlookup, hnul, isAbsence]

end FileTree

namespace Project

theorem resolve?_classPlace (place : ClassPlace) {tree : FileTree} (ignored : IgnoredNames)
    (hopen : tree.root.Open) (hfile : tree.seesFile place.file = true) :
    resolve? tree ignored (some place.root) place.qualifiedName =
      if tree.isTooLong place.inSources then
        .error (.path .nameTooLong place.inSources.toText)
      else .ok (some (if tree.seesFile place.inSources then place.inSources else place.file)) := by
  have hnul : '\x00' ∉ place.inSources.toText := fun h =>
    FileTree.nul_not_mem_of_seesFile hfile (place.nul_mem_inSources h)
  rw [resolve?_eq, place.sources_append_relativePath, place.root_append_relativePath,
    FileTree.isFile_eq_ite hopen hnul, FileTree.isFile_of_seesFile hfile]
  cases tree.isTooLong place.inSources with
  | true => rfl
  | false => cases tree.seesFile place.inSources <;> rfl

/-- If a package has a source root, its segments lead from there to the directory of the file. The
other way round, a class that lies below a source root by the segments of its package has that
source root, and it is found there again, unless there is such a class below the sources of the
root or it is too long a path to ask for that. -/
theorem sourceRoot?_inverts_relativePath (written package : Text) (place : ClassPlace) :
    (∀ root : Path, Package.sourceRoot? (.ofText written) package = some root →
      root.joined (Package.segments package) = (Path.ofText written).parent) ∧
    Package.sourceRoot? place.file place.package = some place.root ∧
    ∀ (tree : FileTree) (ignored : IgnoredNames), tree.root.Open →
      tree.seesFile place.file = true →
      resolve? tree ignored (some place.root) place.qualifiedName =
        if tree.isTooLong place.inSources then
          .error (.path .nameTooLong place.inSources.toText)
        else
          .ok (some (if tree.seesFile place.inSources then place.inSources else place.file)) := by
  refine ⟨?_, place.sourceRoot?_file, fun tree ignored hopen hfile =>
    resolve?_classPlace place ignored hopen hfile⟩
  intro root h
  have hparent := Package.sourceRoot?_eq_some h
  rw [hparent]
  refine Path.joined_components fun segment hsegment => ?_
  have hmem : segment ∈ (Path.ofText written).parent.names := by
    rw [hparent]
    exact List.mem_append_right _ hsegment
  exact Path.isComponent_of_mem_namesOf ((List.dropLast_sublist _).subset hmem)

def linkedTree (target : Text) : FileTree :=
  ⟨.directory true true [("com", .directory true true [("Foo.java", .file true [])]),
    ("src", .link target)], []⟩

theorem linkedTree_open (target : Text) : (linkedTree target).root.Open := by
  simp [linkedTree, Node.Open]

def samplePlace : ClassPlace where
  root := ⟨.root, []⟩
  segments := ["com"]
  stem := "Foo"
  root_ne := by decide
  segments_ne := by decide
  segments_legal := by decide
  stem_plain := by decide

theorem sourceRoot?_inverts_relativePath_linkedTree :
    Package.sourceRoot? (.ofText ("a/com/acme/Foo.java" : Text)) "com.acme" =
        some ⟨.relative, ["a"]⟩ ∧
      Path.joined ⟨.relative, ["a"]⟩ (Package.segments "com.acme") =
        (Path.ofText ("a/com/acme/Foo.java" : Text)).parent ∧
      (linkedTree "com").root.Open ∧
      resolve? (linkedTree "com") [] (some ⟨.root, []⟩) "com.Foo" =
        .ok (some ⟨.root, ["com", "Foo.java"]⟩) := by
  have hroot : Package.sourceRoot? (.ofText ("a/com/acme/Foo.java" : Text)) "com.acme" =
      some ⟨.relative, ["a"]⟩ := by decide +kernel
  obtain ⟨hjoined, -, hresolve⟩ :=
    sourceRoot?_inverts_relativePath "a/com/acme/Foo.java" "com.acme" samplePlace
  refine ⟨hroot, hjoined _ hroot, linkedTree_open _, ?_⟩
  exact hresolve (linkedTree "com") [] (linkedTree_open _) (by decide +kernel)

/-- A link to a name of 256 bytes in the place of the sources hides a class that is there. -/
theorem resolve?_stopped_by_linked_sources :
    (linkedTree (List.replicate 256 'x')).root.Open ∧
      (linkedTree (List.replicate 256 'x')).seesFile samplePlace.file = true ∧
      (linkedTree (List.replicate 256 'x')).seesFile samplePlace.inSources = false ∧
      resolve? (linkedTree (List.replicate 256 'x')) [] (some samplePlace.root)
          samplePlace.qualifiedName =
        .error (.path .nameTooLong "/src/main/java/com/Foo.java") :=
  ⟨linkedTree_open _, by decide +kernel, by decide +kernel, by decide +kernel⟩

end Project

end SourceScout
