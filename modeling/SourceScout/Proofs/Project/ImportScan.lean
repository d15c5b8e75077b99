import SourceScout.Proofs.Project.DistinctNames
import SourceScout.Proofs.Text.Parts

/-!
# Imports in the order of the text

The scan over the imports of a text keeps two records. One is the list of the resolved imports: the
first of each name. The other counts simple names over the imports that were tried; an import is not
tried again once its name is resolved, while a name without a file is tried each time it occurs.
-/

namespace SourceScout

/-- A qualified name shares the first two segments of a package and lies in no annotation
package. -/
structure Import.OfProject (package qualifiedName : Text) : Prop where
  shares : Text.join ['.'] ((Package.segments package).take 2) ++ ['.'] <+: qualifiedName
  no_annotation : ¬(".annotation." : Text) <:+: qualifiedName

theorem Import.inProject_iff {package qualifiedName : Text} :
    Import.inProject (Package.projectPrefix package) qualifiedName = true ↔
      Import.OfProject package qualifiedName := by
  rw [Import.inProject, Bool.and_eq_true, Bool.not_eq_true', ← Bool.not_eq_true, Text.hasPart_iff,
    Text.startsWith, List.isPrefixOf_iff_prefix]
  constructor
  · rintro ⟨hshares, hplain⟩
    exact ⟨hshares, hplain⟩
  · rintro ⟨hshares, hplain⟩
    exact ⟨hshares, hplain⟩

theorem Import.OfProject.dot_mem {package qualifiedName : Text}
    (h : Import.OfProject package qualifiedName) : '.' ∈ qualifiedName :=
  h.shares.subset (List.mem_append_right _ List.mem_cons_self)

theorem Package.nonempty?_eq_some {content package : Text} :
    Package.nonempty? content = some package ↔
      Package.declared? content = some package ∧ package ≠ [] := by
  rw [Package.nonempty?, Option.filter_eq_some_iff]
  simp

namespace Project

section

variable (tree : FileTree) (ignored : IgnoredNames) (root : Option Path) (package : Text)

def importOf? (qualifiedName : Text) : Option Import :=
  if Import.inProject (Package.projectPrefix package) qualifiedName then
    match resolve? tree ignored root qualifiedName with
    | .ok (some file) => some ⟨qualifiedName, file.toText⟩
    | _ => none
  else none

/-- The name at a position among the imports is tried: it belongs to the project, and it does not
repeat a name for which there is a file. -/
structure TriedAt (names : List Text) (k : Nat) (qualifiedName : Text) : Prop where
  declared : names[k]? = some qualifiedName
  ofProject : Import.OfProject package qualifiedName
  fresh : ∀ j < k, names[j]? = some qualifiedName →
    ∀ file, resolve? tree ignored root qualifiedName ≠ .ok (some file)

/-- An import is that of the name at a position among the imports, which stands there for the first
time, belongs to the project and has a file. -/
structure ResolvedAt (names : List Text) (k : Nat) (i : Import) : Prop where
  declared : names[k]? = some i.qualifiedName
  first : ∀ j < k, names[j]? ≠ some i.qualifiedName
  ofProject : Import.OfProject package i.qualifiedName
  resolves : ∃ file, resolve? tree ignored root i.qualifiedName = .ok (some file) ∧
    i.path = file.toText

def tally (names : List Text) : List (Text × Nat) :=
  names.foldl (fun counts name => countTry name counts) []

structure Scanned (names done : List Text) (progress : ScanProgress) : Prop where
  resolved : progress.resolved =
    distinctNames (done.filterMap (importOf? tree ignored root package))
  tried : ∃ tries, Listed (TriedAt tree ignored root package names) done.length tries ∧
    progress.tried = tally (tries.map simpleName)

end

section

variable {tree : FileTree} {ignored : IgnoredNames} {root : Option Path} {package : Text}

theorem importOf?_eq_some {qualifiedName : Text} {i : Import} :
    importOf? tree ignored root package qualifiedName = some i ↔
      Import.OfProject package qualifiedName ∧ ∃ file,
        resolve? tree ignored root qualifiedName = .ok (some file) ∧
        i = ⟨qualifiedName, file.toText⟩ := by
  rw [importOf?, ← Import.inProject_iff]
  split
  · rename_i hproject
    split
    · rename_i file hresolve
      simp [hproject, hresolve, eq_comm]
    · rename_i hnone
      refine iff_of_false (by simp) ?_
      rintro ⟨-, file, hfile, -⟩
      exact hnone file hfile
  · rename_i hproject
    simp [hproject]

theorem firstAt_importOf?_iff {names : List Text} {k : Nat} {i : Import} :
    FirstAt (importOf? tree ignored root package) names k i ↔
      ResolvedAt tree ignored root package names k i := by
  constructor
  · rintro ⟨hanswers, hfirst⟩
    obtain ⟨name, hk, hanswer⟩ := Option.bind_eq_some_iff.mp hanswers
    obtain ⟨hproject, file, hfile, rfl⟩ := importOf?_eq_some.mp hanswer
    refine ⟨hk, fun j hj hname => ?_, hproject, file, hfile, rfl⟩
    exact hfirst j hj ⟨name, file.toText⟩ (by rw [hname]; exact hanswer) rfl
  · rintro ⟨hdeclared, hfirst, hproject, file, hfile, hpath⟩
    have hanswer : importOf? tree ignored root package i.qualifiedName = some i :=
      importOf?_eq_some.mpr ⟨hproject, file, hfile, by rw [← hpath]⟩
    refine ⟨by rw [hdeclared]; exact hanswer, fun j hj before hbefore hname => ?_⟩
    obtain ⟨name, hj', hanswer⟩ := Option.bind_eq_some_iff.mp hbefore
    obtain ⟨-, other, -, rfl⟩ := importOf?_eq_some.mp hanswer
    exact hfirst j hj (by rw [hj', ← hname])

theorem any_distinctNames_iff {done : List Text} {qualifiedName : Text} :
    ((distinctNames (done.filterMap (importOf? tree ignored root package))).any fun i =>
        i.qualifiedName == qualifiedName) = true ↔
      qualifiedName ∈ done ∧
        ∃ i, importOf? tree ignored root package qualifiedName = some i := by
  have hlisted := listed_distinctNames (importOf? tree ignored root package) done
  rw [List.any_eq_true]
  constructor
  · rintro ⟨i, hi, hname⟩
    obtain ⟨k, -, hfirst⟩ := hlisted.mem_iff.mp hi
    obtain ⟨name, hk, hanswer⟩ := Option.bind_eq_some_iff.mp hfirst.answers
    obtain ⟨-, file, -, rfl⟩ := importOf?_eq_some.mp hanswer
    obtain rfl : name = qualifiedName := by simpa using hname
    exact ⟨List.mem_of_getElem? hk, _, hanswer⟩
  · rintro ⟨hmem, i, hi⟩
    obtain ⟨k, hk⟩ := List.mem_iff_getElem?.mp hmem
    have hanswer : done[k]?.bind (importOf? tree ignored root package) = some i := by
      rw [hk]
      exact hi
    obtain ⟨j, hj, first, hfirst, hname⟩ := exists_firstAt hanswer
    have hlt := (List.getElem?_eq_some_iff.mp hk).1
    refine ⟨first, hlisted.mem_iff.mpr ⟨j, by omega, hfirst⟩, ?_⟩
    obtain ⟨-, file, -, rfl⟩ := importOf?_eq_some.mp hi
    simpa using hname

theorem not_any_qualifiedName_iff {resolved : List Import} {i : Import} :
    (!resolved.any fun r => r.qualifiedName == i.qualifiedName) = true ↔
      ∀ r ∈ resolved, r.qualifiedName ≠ i.qualifiedName := by
  simp

theorem tally_concat (names : List Text) (name : Text) :
    tally (names ++ [name]) = countTry name (tally names) := by
  rw [tally, List.foldl_append]
  rfl

/-- What one step of the scan can do: nothing for a name that is not of the project or that is
resolved already; else it looks for the file and counts a try. -/
theorem scanName_eq_ok {start qualifiedName : Text} {progress next : ScanProgress}
    (h : scanName tree ignored root start progress qualifiedName = .ok next) :
    Import.inProject start qualifiedName = false ∧ next = progress ∨
    Import.inProject start qualifiedName = true ∧
      (progress.resolved.any fun i => i.qualifiedName == qualifiedName) = true ∧
      next = progress ∨
    Import.inProject start qualifiedName = true ∧
      (progress.resolved.any fun i => i.qualifiedName == qualifiedName) = false ∧
      ∃ found, resolve? tree ignored root qualifiedName = .ok found ∧
        next = ⟨progress.resolved ++ found.toList.map fun file => ⟨qualifiedName, file.toText⟩,
          countTry (simpleName qualifiedName) progress.tried⟩ := by
  rw [scanName] at h
  cases hproject : Import.inProject start qualifiedName with
  | false =>
    rw [hproject] at h
    cases h
    exact .inl ⟨rfl, rfl⟩
  | true =>
    cases hseen : progress.resolved.any fun i => i.qualifiedName == qualifiedName with
    | true =>
      rw [hproject, hseen] at h
      cases h
      exact .inr (.inl ⟨rfl, rfl, rfl⟩)
    | false =>
      rw [hproject, hseen] at h
      obtain ⟨found, hfound, hnext⟩ := bind_eq_ok.mp h
      cases hnext
      exact .inr (.inr ⟨rfl, rfl, found, hfound, rfl⟩)

theorem resolved_scanName {done : List Text} {qualifiedName : Text} {progress next : ScanProgress}
    (h : progress.resolved = distinctNames (done.filterMap (importOf? tree ignored root package)))
    (hnext : scanName tree ignored root (Package.projectPrefix package) progress qualifiedName =
      .ok next) :
    next.resolved = distinctNames
      ((done ++ [qualifiedName]).filterMap (importOf? tree ignored root package)) := by
  rw [List.filterMap_append]
  rcases scanName_eq_ok hnext with ⟨hproject, rfl⟩ | ⟨-, hseen, rfl⟩ |
    ⟨hproject, hseen, found, hfound, rfl⟩
  · have hnone : importOf? tree ignored root package qualifiedName = none := by
      rw [importOf?, hproject]
      rfl
    simpa [hnone] using h
  · rw [h] at hseen
    obtain ⟨-, i, hi⟩ := any_distinctNames_iff.mp hseen
    obtain ⟨-, file, -, rfl⟩ := importOf?_eq_some.mp hi
    rw [List.filterMap_cons_some hi, List.filterMap_nil, distinctNames_concat, if_pos hseen, h]
  · rw [h] at hseen
    cases found with
    | none =>
      have hnone : importOf? tree ignored root package qualifiedName = none := by
        rw [importOf?, hproject, hfound]
        rfl
      simpa [hnone] using h
    | some file =>
      have hi : importOf? tree ignored root package qualifiedName =
          some ⟨qualifiedName, file.toText⟩ :=
        importOf?_eq_some.mpr ⟨Import.inProject_iff.mp hproject, file, hfound, rfl⟩
      rw [List.filterMap_cons_some hi, List.filterMap_nil, distinctNames_concat, hseen, h]
      rfl

theorem tried_scanName {names done rest : List Text} {qualifiedName : Text}
    {progress next : ScanProgress} (h : Scanned tree ignored root package names done progress)
    (hnames : names = done ++ qualifiedName :: rest)
    (hnext : scanName tree ignored root (Package.projectPrefix package) progress qualifiedName =
      .ok next) :
    ∃ tries, Listed (TriedAt tree ignored root package names) (done.length + 1) tries ∧
      next.tried = tally (tries.map simpleName) := by
  obtain ⟨tries, hlisted, htried⟩ := h.tried
  have hlast : names[done.length]? = some qualifiedName := by simp [hnames]
  have hbefore : ∀ j < done.length, names[j]? = done[j]? := by
    intro j hj
    rw [hnames, List.getElem?_append_left hj]
  -- only the scanned name itself can be tried at this position
  have hself : ∀ other, TriedAt tree ignored root package names done.length other →
      other = qualifiedName := fun other hother =>
    Option.some.inj (hother.declared.symm.trans hlast)
  rcases scanName_eq_ok hnext with ⟨hproject, rfl⟩ | ⟨-, hseen, rfl⟩ |
    ⟨hproject, hseen, found, hfound, rfl⟩
  · refine ⟨tries, hlisted.skip fun other hother => ?_, htried⟩
    obtain rfl := hself other hother
    rw [Import.inProject_iff.mpr hother.ofProject] at hproject
    cases hproject
  · refine ⟨tries, hlisted.skip fun other hother => ?_, htried⟩
    obtain rfl := hself other hother
    rw [h.resolved] at hseen
    obtain ⟨hdone, i, hi⟩ := any_distinctNames_iff.mp hseen
    obtain ⟨j, hj⟩ := List.mem_iff_getElem?.mp hdone
    have hlt := (List.getElem?_eq_some_iff.mp hj).1
    obtain ⟨-, file, hfile, -⟩ := importOf?_eq_some.mp hi
    exact hother.fresh j hlt (by rw [hbefore j hlt, hj]) file hfile
  · refine ⟨tries ++ [qualifiedName],
      hlisted.take ⟨hlast, Import.inProject_iff.mp hproject, ?_⟩ hself,
      by rw [htried, List.map_append, List.map_singleton, tally_concat]⟩
    intro j hj hname file hfile
    rw [hbefore j hj] at hname
    rw [h.resolved, any_distinctNames_iff.mpr ⟨List.mem_of_getElem? hname, _,
      importOf?_eq_some.mpr ⟨Import.inProject_iff.mp hproject, file, hfile, rfl⟩⟩] at hseen
    cases hseen

theorem Scanned.start (names : List Text) :
    Scanned tree ignored root package names [] ⟨[], []⟩ :=
  ⟨rfl, [], .nil, rfl⟩

theorem Scanned.step {names done rest : List Text} {qualifiedName : Text}
    {progress next : ScanProgress} (h : Scanned tree ignored root package names done progress)
    (hnames : names = done ++ qualifiedName :: rest)
    (hnext : scanName tree ignored root (Package.projectPrefix package) progress qualifiedName =
      .ok next) :
    Scanned tree ignored root package names (done ++ [qualifiedName]) next where
  resolved := resolved_scanName h.resolved hnext
  tried := by
    rw [List.length_append]
    exact tried_scanName h hnames hnext

theorem Scanned.run {names done rest : List Text} {progress last : ScanProgress}
    (h : Scanned tree ignored root package names done progress) (hnames : names = done ++ rest)
    (hlast : rest.foldlM (scanName tree ignored root (Package.projectPrefix package)) progress =
      .ok last) :
    Scanned tree ignored root package names names last := by
  induction rest generalizing done progress with
  | nil =>
    cases hlast
    rw [List.append_nil] at hnames
    rwa [← hnames] at h
  | cons qualifiedName rest ih =>
    rw [List.foldlM_cons] at hlast
    obtain ⟨next, hnext, hrest⟩ := bind_eq_ok.mp hlast
    exact ih (h.step hnames hnext) (by rw [hnames, List.append_cons]) hrest

theorem scanImports_eq_ok {content : Text} {scan : ImportScan}
    (hpackage : Package.nonempty? content = some package)
    (h : scanImports tree ignored root content = .ok scan) :
    ∃ progress found,
      Scanned tree ignored root package (Import.declaredIn content) (Import.declaredIn content)
        progress ∧
      resolveSimple tree ignored root (unresolvedNames progress) = .ok found ∧
      scan = ⟨progress.resolved, found.filter fun i =>
        !progress.resolved.any fun r => r.qualifiedName == i.qualifiedName⟩ := by
  rw [scanImports, hpackage] at h
  obtain ⟨progress, hprogress, hfound⟩ := bind_eq_ok.mp h
  obtain ⟨found, hfound, hscan⟩ := bind_eq_ok.mp hfound
  have hscanned := (Scanned.start (Import.declaredIn content)).run rfl hprogress
  exact ⟨progress, found, hscanned, hfound, (Except.ok.inj hscan).symm⟩

theorem resolveSimple_nodup {names : List Text} {found : List Import}
    (h : resolveSimple tree ignored root names = .ok found) :
    (found.map fun i => i.qualifiedName).Nodup := by
  cases root with
  | none =>
    cases h
    exact List.nodup_nil
  | some root =>
    rw [resolveSimple] at h
    split at h
    · cases h
      exact List.nodup_nil
    · obtain ⟨files, -, hfound⟩ := bind_eq_ok.mp h
      cases hfound
      exact distinctNames_nodup _

theorem scanned_names_nodup {progress : ScanProgress} {names : List Text} {found : List Import}
    (hresolved : progress.resolved =
      distinctNames (names.filterMap (importOf? tree ignored root package)))
    (hfound : resolveSimple tree ignored root (unresolvedNames progress) = .ok found) :
    ((progress.resolved ++ found.filter fun i =>
      !progress.resolved.any fun r => r.qualifiedName == i.qualifiedName).map fun i =>
        i.qualifiedName).Nodup := by
  rw [List.map_append, List.nodup_append]
  refine ⟨?_, (resolveSimple_nodup hfound).sublist (List.filter_sublist.map _), ?_⟩
  · rw [hresolved]
    exact distinctNames_nodup _
  · intro name hname other hother heq
    obtain ⟨i, hi, rfl⟩ := List.mem_map.mp hname
    obtain ⟨j, hj, rfl⟩ := List.mem_map.mp hother
    exact not_any_qualifiedName_iff.mp (List.mem_filter.mp hj).2 i hi heq

end

theorem foldlM_scanName_none (tree : FileTree) (ignored : IgnoredNames) (start : Text)
    (names : List Text) (progress : ScanProgress) :
    ∃ tried, names.foldlM (scanName tree ignored none start) progress =
      .ok ⟨progress.resolved, tried⟩ := by
  induction names generalizing progress with
  | nil => exact ⟨progress.tried, rfl⟩
  | cons qualifiedName names ih =>
    obtain ⟨tried, hstep⟩ : ∃ tried, scanName tree ignored none start progress qualifiedName =
        .ok ⟨progress.resolved, tried⟩ := by
      rw [scanName]
      split
      · exact ⟨_, rfl⟩
      · split
        · exact ⟨_, rfl⟩
        · exact ⟨countTry (simpleName qualifiedName) progress.tried,
            by simp [resolve?, bind, Except.bind, pure, Except.pure]⟩
    obtain ⟨last, hlast⟩ := ih ⟨progress.resolved, tried⟩
    exact ⟨last, by rw [List.foldlM_cons, hstep]; exact hlast⟩

theorem scanImports_none (tree : FileTree) (ignored : IgnoredNames) (content : Text) :
    scanImports tree ignored none content = .ok ⟨[], []⟩ := by
  rw [scanImports]
  cases hpackage : Package.nonempty? content with
  | none => rfl
  | some package =>
    obtain ⟨tried, hrun⟩ := foldlM_scanName_none tree ignored (Package.projectPrefix package)
      (Import.declaredIn content) ⟨[], []⟩
    simp [hrun, resolveSimple, bind, Except.bind, pure, Except.pure]

/-- In every scan no qualified name comes twice, among the resolved imports and those found by
simple names together. The resolved imports are those of the declared names of the project that have
a file, each at its first occurrence. Without a package or a root there are none of either kind. -/
theorem scanImports_resolved_listed (tree : FileTree) (ignored : IgnoredNames)
    (root : Option Path) (content : Text) :
    (∀ scan, scanImports tree ignored root content = .ok scan →
      ((scan.resolved ++ scan.fallback).map fun i => i.qualifiedName).Nodup ∧
      ∀ package, Package.declared? content = some package → package ≠ [] →
        Listed (ResolvedAt tree ignored root package (Import.declaredIn content))
          (Import.declaredIn content).length scan.resolved) ∧
    ((∀ package, Package.declared? content = some package → package = []) ∨ root = none →
      scanImports tree ignored root content = .ok ⟨[], []⟩) := by
  constructor
  · intro scan h
    cases hpackage : Package.nonempty? content with
    | none =>
      rw [scanImports, hpackage] at h
      cases h
      refine ⟨List.nodup_nil, fun package hdeclared hne => ?_⟩
      rw [Package.nonempty?_eq_some.mpr ⟨hdeclared, hne⟩] at hpackage
      cases hpackage
    | some package =>
      obtain ⟨progress, found, hscanned, hfound, rfl⟩ := scanImports_eq_ok hpackage h
      refine ⟨scanned_names_nodup hscanned.resolved hfound, fun other hdeclared hne => ?_⟩
      rw [Package.nonempty?_eq_some.mpr ⟨hdeclared, hne⟩] at hpackage
      cases hpackage
      change Listed _ _ progress.resolved
      rw [hscanned.resolved]
      exact (listed_distinctNames _ _).congr fun k _ i => firstAt_importOf?_iff
  · rintro (hempty | rfl)
    · cases hpackage : Package.nonempty? content with
      | none => rw [scanImports, hpackage]
      | some package =>
        obtain ⟨hdeclared, hne⟩ := Package.nonempty?_eq_some.mp hpackage
        exact absurd (hempty package hdeclared) hne
    · exact scanImports_none tree ignored content

def sampleProject : FileTree :=
  ⟨.directory true true [("a", .directory true true [("b", .directory true true
    [("C.java", .file true [])])]), ("lib", .directory true true
    [("D.java", .file true (Utf8.encode "package a.d;"))])], []⟩

def sampleText : Text := "package a.b;import a.b.C;import a.b.D;import a.b.C;import org.E;"

theorem scanImports_sampleProject :
    scanImports sampleProject [] (some ⟨.root, []⟩) sampleText =
      .ok ⟨[⟨"a.b.C", "/a/b/C.java"⟩], [⟨"a.d.D", "/lib/D.java"⟩]⟩ := by decide +kernel

theorem scanImports_resolved_listed_repeated :
    (Import.declaredIn sampleText).length = 4 ∧
      Listed (ResolvedAt sampleProject [] (some ⟨.root, []⟩) "a.b" (Import.declaredIn sampleText)) 4
        [⟨"a.b.C", "/a/b/C.java"⟩] := by
  have hlength : (Import.declaredIn sampleText).length = 4 := by decide +kernel
  refine ⟨hlength, ?_⟩
  rw [← hlength]
  exact ((scanImports_resolved_listed sampleProject [] (some ⟨.root, []⟩) sampleText).1 _
    scanImports_sampleProject).2 "a.b" (by decide +kernel) (by decide +kernel)

end Project

end SourceScout
