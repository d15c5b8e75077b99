import SourceScout.Proofs.Project.Fallback
import SourceScout.Proofs.Project.ModuleSearch

/-!
# What stops a scan

The search for a class asks one question after the other until a file is found. A directory that
cannot be listed is passed over, and so is a file that cannot be read. A question about a path with
an obstacle on it has no answer, and then the scan has none either, unless a file was found before.
-/

namespace SourceScout

namespace FileTree

/-- It cannot be said what a path leads to: it is too long or a directory on it cannot be passed. -/
def IsBlocked (tree : FileTree) (p : Path) : Prop :=
  '\x00' ∉ p.toText ∧ ∃ fault, tree.lookup p = .error fault ∧ isAbsence fault = false

theorem exists_holds_eq_error_iff {tree : FileTree} {p : Path} (test : Node → Bool) :
    (∃ failure, holds test p (tree.lookup p) = .error failure) ↔ tree.IsBlocked p := by
  unfold IsBlocked holds
  by_cases hnul : '\x00' ∈ p.toText
  · simp [hnul]
  · cases tree.lookup p with
    | ok node => simp [hnul]
    | error fault => cases habsence : isAbsence fault <;> simp [hnul, habsence]

theorem not_isBlocked {tree : FileTree} (h : tree.root.Passable) {p : Path}
    (hlong : tree.isTooLong p = false) : ¬tree.IsBlocked p := by
  rintro ⟨-, fault, hfault, habsence⟩
  rcases lookup_fault h hfault with hplain | rfl
  · rw [hplain] at habsence
    cases habsence
  · rw [isTooLong, hfault] at hlong
    cases hlong

end FileTree

namespace Project

/-- A question of the search for a class: whether a file is there, whether a directory has sources,
or which entries the root has. -/
inductive Probe where
  | file (p : Path)
  | sources (p : Path)
  | listing (p : Path)
  deriving Repr, DecidableEq

namespace Probe

def path : Probe → Path
  | .file p | .sources p | .listing p => p

/-- What a question adds to the search: a file that ends it, nothing, or a failure. -/
def answer (tree : FileTree) : Probe → Except Failure (Option Path)
  | .file p => (tree.isFile p).map fun found => if found then some p else none
  | .sources p => (tree.isDirectory p).map fun _ => none
  | .listing p => if p.toText.contains '\x00' then .error .nulInPath else .ok none

def Fails (tree : FileTree) : Probe → Prop
  | .file p | .sources p => tree.IsBlocked p
  | .listing p => '\x00' ∈ p.toText

def Hits (tree : FileTree) : Probe → Prop
  | .file p => tree.seesFile p = true
  | .sources _ | .listing _ => False

theorem fails_iff {tree : FileTree} {probe : Probe} :
    probe.Fails tree ↔ ∃ failure, probe.answer tree = .error failure := by
  cases probe with
  | file p =>
    rw [Fails, ← FileTree.exists_holds_eq_error_iff Node.isFile, answer, FileTree.isFile]
    cases FileTree.holds Node.isFile p (tree.lookup p) <;> simp [Except.map]
  | sources p =>
    rw [Fails, ← FileTree.exists_holds_eq_error_iff Node.isDirectory, answer, FileTree.isDirectory]
    cases FileTree.holds Node.isDirectory p (tree.lookup p) <;> simp [Except.map]
  | listing p =>
    rw [Fails, answer]
    by_cases hnul : '\x00' ∈ p.toText <;> simp [hnul]

theorem hits_iff {tree : FileTree} {probe : Probe} :
    probe.Hits tree ↔ ∃ file, probe.answer tree = .ok (some file) := by
  cases probe with
  | file p =>
    rw [Hits, FileTree.seesFile, answer]
    cases tree.isFile p with
    | error failure => simp [Except.map]
    | ok found => cases found <;> simp [Except.map]
  | sources p =>
    rw [Hits, answer]
    cases tree.isDirectory p <;> simp [Except.map]
  | listing p =>
    rw [Hits, answer]
    by_cases hnul : '\x00' ∈ p.toText <;> simp [hnul]

end Probe

/-- Before every question that has no answer, a file is found. -/
def Clear (tree : FileTree) (probes : List Probe) : Prop :=
  ∀ before probe after, probes = before ++ probe :: after → probe.Fails tree →
    ∃ earlier ∈ before, earlier.Hits tree

theorem clear_cons {tree : FileTree} {probe : Probe} {probes : List Probe} :
    Clear tree (probe :: probes) ↔
      ¬probe.Fails tree ∧ (probe.Hits tree ∨ Clear tree probes) := by
  constructor
  · intro h
    refine ⟨fun hfails => ?_, ?_⟩
    · obtain ⟨earlier, hearlier, -⟩ := h [] probe probes rfl hfails
      cases hearlier
    · by_cases hhits : probe.Hits tree
      · exact .inl hhits
      · refine .inr fun before other after heq hfails => ?_
        have hcons : probe :: probes = (probe :: before) ++ other :: after := congrArg _ heq
        obtain ⟨earlier, hearlier, hhit⟩ := h (probe :: before) other after hcons hfails
        rcases List.mem_cons.mp hearlier with rfl | hmem
        · exact absurd hhit hhits
        · exact ⟨earlier, hmem, hhit⟩
  · rintro ⟨hanswers, hrest⟩ before other after heq hfails
    cases before with
    | nil =>
      cases heq
      exact absurd hfails hanswers
    | cons first before =>
      cases heq
      rcases hrest with hhits | hclear
      · exact ⟨probe, List.mem_cons_self, hhits⟩
      · obtain ⟨earlier, hearlier, hhit⟩ := hclear before other after rfl hfails
        exact ⟨earlier, List.mem_cons_of_mem _ hearlier, hhit⟩

theorem exists_findSomeM?_eq_ok_iff {tree : FileTree} {probes : List Probe} :
    (∃ found, probes.findSomeM? (Probe.answer tree) = .ok found) ↔ Clear tree probes := by
  induction probes with
  | nil =>
    refine iff_of_true ⟨none, rfl⟩ fun before probe after heq => ?_
    simp at heq
  | cons probe probes ih =>
    rw [clear_cons, ← ih, Probe.fails_iff, Probe.hits_iff, List.findSomeM?_cons]
    cases probe.answer tree with
    | error failure => simp [bind, Except.bind]
    | ok found => cases found <;> simp [bind, Except.bind, pure, Except.pure]

section

variable (tree : FileTree) (ignored : IgnoredNames) (target here : Path)

def entryProbes (entry : Text × Node) (below : List Probe) : List Probe :=
  .sources (here.child entry.1 ++ moduleSources) ::
    if tree.seesDirectory (here.child entry.1 ++ moduleSources) then
      [.file (here.child entry.1 ++ moduleSources ++ target)]
    else if isIgnored ignored entry.1 then []
    else below

/-- The questions about the modules below a directory that is reached as `here`. There are none if
the directory cannot be listed, or one of its entries cannot be asked what it is. -/
def moduleProbes (here : Path) : Node → List Probe
  | .directory listable _ entries =>
    if listable && canAsk tree here entries then
      ((sortNamed entries).filter fun entry => entry.2.isDirectory).attach.flatMap
        fun ⟨entry, _hentry⟩ => entryProbes tree ignored target here entry
          (moduleProbes (here.child entry.1) entry.2)
    else []
  | _ => []
termination_by node => sizeOf node
decreasing_by exact Node.sizeOf_entry_lt (mem_sortNamed.mp (List.mem_filter.mp _hentry).1)

theorem moduleProbes_directory (listable searchable : Bool) (entries : List (Text × Node)) :
    moduleProbes tree ignored target here (.directory listable searchable entries) =
      if listable && canAsk tree here entries then
        ((sortNamed entries).filter fun entry => entry.2.isDirectory).flatMap fun entry =>
          entryProbes tree ignored target here entry
            (moduleProbes tree ignored target (here.child entry.1) entry.2)
      else [] := by
  rw [moduleProbes]
  conv_rhs => rw [← List.attach_map_subtype_val (List.filter _ (sortNamed entries)),
    List.flatMap_map]

variable (root : Path) (qualifiedName : Text)

def classProbes : List Probe :=
  .file (root ++ moduleSources ++ Import.relativePath qualifiedName) ::
    .file (root ++ Import.relativePath qualifiedName) ::
    .listing root ::
    match tree.lookup root with
    | .ok node => moduleProbes tree ignored (Import.relativePath qualifiedName) root node
    | .error _ => []

end

section

variable {tree : FileTree} {ignored : IgnoredNames} {target here : Path}

theorem findSomeM?_append (left right : List Probe) :
    (left ++ right).findSomeM? (Probe.answer tree) = (do
      match ← left.findSomeM? (Probe.answer tree) with
      | some file => return some file
      | none => right.findSomeM? (Probe.answer tree)) := by
  induction left with
  | nil => rfl
  | cons probe left ih =>
    rw [List.cons_append, List.findSomeM?_cons, List.findSomeM?_cons, ih]
    cases probe.answer tree with
    | error failure => rfl
    | ok found => cases found <;> rfl

theorem findSomeM?_file (p : Path) (probes : List Probe) :
    (Probe.file p :: probes).findSomeM? (Probe.answer tree) = (do
      if ← tree.isFile p then return some p else probes.findSomeM? (Probe.answer tree)) := by
  rw [List.findSomeM?_cons, Probe.answer]
  cases tree.isFile p with
  | error failure => rfl
  | ok found => cases found <;> rfl

theorem firstHit_eq_findSomeM? {entries : List (Text × Node)}
    {hit : Text × Node → Except Failure (Option Path)} {probes : Text × Node → List Probe}
    (h : ∀ entry ∈ entries, hit entry = (probes entry).findSomeM? (Probe.answer tree)) :
    firstHit (entries.map fun entry => (entry.1, hit entry)) =
      (entries.flatMap probes).findSomeM? (Probe.answer tree) := by
  induction entries with
  | nil => rfl
  | cons entry entries ih =>
    have hrest := ih fun other hother => h other (List.mem_cons_of_mem _ hother)
    rw [List.map_cons, firstHit, h entry List.mem_cons_self, hrest, List.flatMap_cons]
    exact (findSomeM?_append _ _).symm

theorem entryHit_eq_findSomeM? {entry : Text × Node} {below : List Probe}
    (hbelow : moduleHit tree ignored target (here.child entry.1) entry.2 =
      below.findSomeM? (Probe.answer tree)) :
    entryHit tree ignored target here entry =
      (entryProbes tree ignored target here entry below).findSomeM? (Probe.answer tree) := by
  rw [entryHit, entryProbes, List.findSomeM?_cons, Probe.answer, FileTree.seesDirectory]
  cases tree.isDirectory (here.child entry.1 ++ moduleSources) with
  | error failure => rfl
  | ok isModule =>
    cases isModule with
    | true =>
      rw [if_pos rfl, findSomeM?_file]
      change (do
        let found ← tree.isFile (here.child entry.1 ++ moduleSources ++ target)
        return if found then some (here.child entry.1 ++ moduleSources ++ target) else none) = _
      cases tree.isFile (here.child entry.1 ++ moduleSources ++ target) with
      | error failure => rfl
      | ok found => cases found <;> rfl
    | false =>
      cases hignored : isIgnored ignored entry.1 with
      | true => rfl
      | false => exact hbelow

theorem moduleHit_eq_findSomeM? (node : Node) :
    moduleHit tree ignored target here node =
      (moduleProbes tree ignored target here node).findSomeM? (Probe.answer tree) := by
  induction node using Node.entriesInduction generalizing here with
  | file readable bytes => rw [moduleHit, moduleProbes] <;> simp [pure, Except.pure]
  | link text => rw [moduleHit, moduleProbes] <;> simp [pure, Except.pure]
  | directory listable searchable entries ih =>
    rw [moduleHit_directory, moduleProbes_directory]
    split
    · refine firstHit_eq_findSomeM? fun entry hentry => entryHit_eq_findSomeM? ?_
      exact ih entry (mem_sortNamed.mp (List.mem_filter.mp hentry).1)
    · rfl

theorem resolve?_eq_findSomeM? (root : Path) (qualifiedName : Text) :
    resolve? tree ignored (some root) qualifiedName =
      (classProbes tree ignored root qualifiedName).findSomeM? (Probe.answer tree) := by
  have hmodules : inModules tree ignored root (Import.relativePath qualifiedName) =
      (Probe.listing root :: match tree.lookup root with
        | .ok node => moduleProbes tree ignored (Import.relativePath qualifiedName) root node
        | .error _ => []).findSomeM? (Probe.answer tree) := by
    rw [inModules, List.findSomeM?_cons, Probe.answer]
    split
    · rfl
    · cases tree.lookup root with
      | error fault => rfl
      | ok node => exact moduleHit_eq_findSomeM? node
  rw [resolve?_eq, hmodules, classProbes, findSomeM?_file, findSomeM?_file]

theorem exists_resolve?_eq_ok_iff {root : Path} {qualifiedName : Text} :
    (∃ found, resolve? tree ignored (some root) qualifiedName = .ok found) ↔
      Clear tree (classProbes tree ignored root qualifiedName) := by
  rw [resolve?_eq_findSomeM?, exists_findSomeM?_eq_ok_iff]

theorem nul_not_mem_of_resolve?_eq_none {root : Path} {qualifiedName : Text}
    (h : resolve? tree ignored (some root) qualifiedName = .ok none) : '\x00' ∉ root.toText := by
  rw [resolve?_eq] at h
  obtain ⟨inSources, -, hrest⟩ := bind_eq_ok.mp h
  cases inSources with
  | true => cases hrest
  | false =>
    obtain ⟨inRoot, -, hrest⟩ := bind_eq_ok.mp hrest
    cases inRoot with
    | true => cases hrest
    | false =>
      change inModules tree ignored root _ = _ at hrest
      intro hnul
      rw [inModules, if_pos (by simpa using hnul)] at hrest
      cases hrest

end

section

variable {tree : FileTree} {ignored : IgnoredNames} {root : Option Path} {package start : Text}
  {names : List Text}

def Kept (tree : FileTree) (ignored : IgnoredNames) (root : Option Path)
    (progress : ScanProgress) : Prop :=
  ∀ i ∈ progress.resolved, ∃ file, resolve? tree ignored root i.qualifiedName = .ok (some file)

theorem Kept.step {qualifiedName : Text} {progress next : ScanProgress}
    (h : Kept tree ignored root progress)
    (hnext : scanName tree ignored root start progress qualifiedName = .ok next) :
    Kept tree ignored root next := by
  rcases scanName_eq_ok hnext with ⟨-, rfl⟩ | ⟨-, -, rfl⟩ | ⟨-, -, found, hfound, rfl⟩
  · exact h
  · exact h
  · intro i hi
    rcases List.mem_append.mp hi with hold | hnew
    · exact h i hold
    · obtain ⟨file, hfile, rfl⟩ := List.mem_map.mp hnew
      rw [Option.mem_toList] at hfile
      exact ⟨file, by rw [hfound, hfile]⟩

theorem exists_scanName_eq_ok_iff {qualifiedName : Text} {progress : ScanProgress}
    (h : Kept tree ignored root progress) :
    (∃ next, scanName tree ignored root start progress qualifiedName = .ok next) ↔
      (Import.inProject start qualifiedName = true →
        ∃ found, resolve? tree ignored root qualifiedName = .ok found) := by
  constructor
  · rintro ⟨next, hnext⟩ hproject
    rcases scanName_eq_ok hnext with ⟨hother, -⟩ | ⟨-, hseen, -⟩ | ⟨-, -, found, hfound, -⟩
    · rw [hproject] at hother
      cases hother
    · obtain ⟨i, hi, hname⟩ := List.any_eq_true.mp hseen
      obtain ⟨file, hfile⟩ := h i hi
      rw [beq_iff_eq] at hname
      rw [hname] at hfile
      exact ⟨some file, hfile⟩
    · exact ⟨found, hfound⟩
  · intro hresolve
    rw [scanName]
    cases hproject : Import.inProject start qualifiedName with
    | false => exact ⟨progress, rfl⟩
    | true =>
      obtain ⟨found, hfound⟩ := hresolve hproject
      rw [hfound]
      cases progress.resolved.any fun i => i.qualifiedName == qualifiedName with
      | true => exact ⟨progress, rfl⟩
      | false => exact ⟨_, rfl⟩

theorem exists_foldlM_eq_ok_iff {progress : ScanProgress} (h : Kept tree ignored root progress) :
    (∃ last, names.foldlM (scanName tree ignored root start) progress = .ok last) ↔
      ∀ name ∈ names, Import.inProject start name = true →
        ∃ found, resolve? tree ignored root name = .ok found := by
  induction names generalizing progress with
  | nil => exact iff_of_true ⟨progress, rfl⟩ (by simp)
  | cons name names ih =>
    rw [List.forall_mem_cons, ← exists_scanName_eq_ok_iff h, List.foldlM_cons]
    constructor
    · rintro ⟨last, hlast⟩
      obtain ⟨next, hnext, hrest⟩ := bind_eq_ok.mp hlast
      exact ⟨⟨next, hnext⟩, (ih (h.step hnext)).mp ⟨last, hrest⟩⟩
    · rintro ⟨⟨next, hnext⟩, hrest⟩
      obtain ⟨last, hlast⟩ := (ih (h.step hnext)).mpr hrest
      exact ⟨last, bind_eq_ok.mpr ⟨next, hnext, hlast⟩⟩

theorem Scanned.unresolvedNames_eq_nil {progress : ScanProgress}
    (h : Scanned tree ignored root package names names progress)
    (hfiles : ∀ name ∈ names, Import.OfProject package name →
      ∃ file, resolve? tree ignored root name = .ok (some file)) :
    unresolvedNames progress = [] := by
  refine List.eq_nil_iff_forall_not_mem.mpr fun name hname => ?_
  obtain ⟨honce, hunresolved⟩ := h.mem_unresolvedNames_iff.mp hname
  obtain ⟨k, ⟨qualifiedName, htried, hsimple⟩, -⟩ := honce
  have hmem := List.mem_of_getElem? htried.declared
  obtain ⟨file, hfile⟩ := hfiles qualifiedName hmem htried.ofProject
  have hany := any_distinctNames_iff.mpr ⟨hmem, _,
    importOf?_eq_some.mpr ⟨htried.ofProject, file, hfile, rfl⟩⟩
  rw [← h.resolved] at hany
  obtain ⟨r, hr, hqualified⟩ := List.any_eq_true.mp hany
  rw [beq_iff_eq] at hqualified
  apply hunresolved r hr
  rw [Import.simpleName, hqualified, hsimple]

theorem exists_resolveSimple_eq_ok {directory : Path} (h : '\x00' ∉ directory.toText) :
    ∃ found, resolveSimple tree ignored (some directory) names = .ok found := by
  rw [resolveSimple]
  split
  · exact ⟨[], rfl⟩
  · have hwalk : ∀ wanted, ∃ files, tree.walkNamed ignored wanted directory = .ok files := by
      intro wanted
      rw [FileTree.walkNamed, FileTree.walk, if_neg (by simpa using h)]
      cases tree.lookup directory with
      | error fault => exact ⟨_, rfl⟩
      | ok node => exact ⟨_, rfl⟩
    obtain ⟨files, hfiles⟩ := hwalk ((names.filter isSearchable).map fun name =>
      name ++ (".java" : Text))
    exact ⟨_, bind_eq_ok.mpr ⟨files, hfiles, rfl⟩⟩

theorem exists_scanImports_eq_ok_iff {directory : Path} {content : Text}
    (hpackage : Package.nonempty? content = some package) :
    (∃ scan, scanImports tree ignored (some directory) content = .ok scan) ↔
      ∀ name ∈ Import.declaredIn content, Import.OfProject package name →
        ∃ found, resolve? tree ignored (some directory) name = .ok found := by
  have hkept : Kept tree ignored (some directory) ⟨[], []⟩ := by simp [Kept]
  have hrun : (∃ last, (Import.declaredIn content).foldlM
        (scanName tree ignored (some directory) (Package.projectPrefix package)) ⟨[], []⟩ =
        .ok last) ↔
      ∀ name ∈ Import.declaredIn content, Import.OfProject package name →
        ∃ found, resolve? tree ignored (some directory) name = .ok found := by
    simp only [← Import.inProject_iff]
    exact exists_foldlM_eq_ok_iff hkept
  rw [scanImports, hpackage, ← hrun]
  constructor
  · rintro ⟨scan, hscan⟩
    obtain ⟨last, hlast, -⟩ := bind_eq_ok.mp hscan
    exact ⟨last, hlast⟩
  · rintro ⟨last, hlast⟩
    have hscanned := (Scanned.start (Import.declaredIn content)).run rfl hlast
    obtain ⟨found, hfound⟩ : ∃ found, resolveSimple tree ignored (some directory)
        (unresolvedNames last) = .ok found := by
      by_cases hnul : '\x00' ∈ directory.toText
      · -- no search has come to its end without a file, so that the walk is not needed
        rw [hscanned.unresolvedNames_eq_nil]
        · exact ⟨[], rfl⟩
        · intro name hname hproject
          obtain ⟨found, hfound⟩ := hrun.mp ⟨last, hlast⟩ name hname hproject
          cases found with
          | none => exact absurd hnul (nul_not_mem_of_resolve?_eq_none hfound)
          | some file => exact ⟨file, hfound⟩
      · exact exists_resolveSimple_eq_ok hnul
    exact ⟨_, bind_eq_ok.mpr ⟨last, hlast, bind_eq_ok.mpr ⟨found, hfound, rfl⟩⟩⟩

theorem listing_not_mem_moduleProbes {target here p : Path} (node : Node) :
    Probe.listing p ∉ moduleProbes tree ignored target here node := by
  induction node using Node.entriesInduction generalizing here with
  | file readable bytes => rw [moduleProbes] <;> simp
  | link text => rw [moduleProbes] <;> simp
  | directory listable searchable entries ih =>
    rw [moduleProbes_directory]
    split
    · intro hmem
      obtain ⟨entry, hentry, hprobe⟩ := List.mem_flatMap.mp hmem
      have hbelow : .listing p ∉ moduleProbes tree ignored target (here.child entry.1) entry.2 :=
        ih entry (mem_sortNamed.mp (List.mem_filter.mp hentry).1)
      rw [entryProbes] at hprobe
      split at hprobe
      · simp at hprobe
      · split at hprobe <;> simp [hbelow] at hprobe
    · simp

theorem eq_of_listing_mem_classProbes {directory p : Path} {qualifiedName : Text}
    (h : Probe.listing p ∈ classProbes tree ignored directory qualifiedName) : p = directory := by
  rw [classProbes] at h
  cases hlookup : tree.lookup directory with
  | error fault => simpa [hlookup] using h
  | ok node => simpa [hlookup, listing_not_mem_moduleProbes] using h

theorem clear_classProbes (hpassable : tree.root.Passable) {directory : Path} {qualifiedName : Text}
    (hnul : '\x00' ∉ directory.toText)
    (hlong : ∀ probe ∈ classProbes tree ignored directory qualifiedName,
      tree.isTooLong probe.path = false) :
    Clear tree (classProbes tree ignored directory qualifiedName) := by
  intro before probe after heq hfails
  have hmem : probe ∈ classProbes tree ignored directory qualifiedName := by simp [heq]
  have hplain := FileTree.not_isBlocked hpassable (hlong probe hmem)
  cases probe with
  | file p => exact absurd hfails hplain
  | sources p => exact absurd hfails hplain
  | listing p =>
    rw [eq_of_listing_mem_classProbes hmem] at hfails
    exact absurd hfails hnul

end

theorem exists_scanImports_iff_clear (tree : FileTree) (ignored : IgnoredNames)
    (root : Option Path) (content : Text) :
    (∃ scan, scanImports tree ignored root content = .ok scan) ↔
      ∀ directory package, root = some directory → Package.declared? content = some package →
        package ≠ [] → ∀ name ∈ Import.declaredIn content, Import.OfProject package name →
          Clear tree (classProbes tree ignored directory name) := by
  cases root with
  | none => exact iff_of_true ⟨_, scanImports_none tree ignored content⟩ (by simp)
  | some directory =>
    cases hpackage : Package.nonempty? content with
    | none =>
      refine iff_of_true ⟨_, by rw [scanImports, hpackage]⟩ ?_
      intro other package _ hdeclared hne
      rw [Package.nonempty?_eq_some.mpr ⟨hdeclared, hne⟩] at hpackage
      cases hpackage
    | some package =>
      obtain ⟨hdeclared, hne⟩ := Package.nonempty?_eq_some.mp hpackage
      simp only [exists_scanImports_eq_ok_iff hpackage, exists_resolve?_eq_ok_iff]
      constructor
      · intro h other owner hroot howner _
        cases hroot
        rw [hdeclared] at howner
        cases howner
        exact h
      · intro h
        exact h directory package rfl hdeclared hne

/-- A scan comes to its end if and only if, for every declared name of the project, a file is found
before the first question that has no answer. So it always does where every directory can be passed
and no path is too long, whichever directories can be listed and whichever files can be read. -/
theorem scanImports_ends_iff_clear (tree : FileTree) (ignored : IgnoredNames) (root : Option Path)
    (content : Text) :
    ((∃ scan, scanImports tree ignored root content = .ok scan) ↔
      ∀ directory package, root = some directory → Package.declared? content = some package →
        package ≠ [] → ∀ name ∈ Import.declaredIn content, Import.OfProject package name →
          Clear tree (classProbes tree ignored directory name)) ∧
    (tree.root.Passable →
      (∀ directory, root = some directory → '\x00' ∉ directory.toText ∧
        ∀ name ∈ Import.declaredIn content, ∀ probe ∈ classProbes tree ignored directory name,
          tree.isTooLong probe.path = false) →
      ∃ scan, scanImports tree ignored root content = .ok scan) := by
  have hends := exists_scanImports_iff_clear tree ignored root content
  refine ⟨hends, fun hpassable hplain => hends.mpr ?_⟩
  intro directory package hroot _ _ name hname _
  obtain ⟨hnul, hlong⟩ := hplain directory hroot
  exact clear_classProbes hpassable hnul (hlong name hname)

def shyTree : FileTree :=
  ⟨.directory true true [("hidden", .directory false true [("C.java", .file true [])]),
    ("C.java", .file false [])], []⟩

theorem scanImports_ends_shyTree :
    shyTree.root.Passable ∧
      ∃ scan, scanImports shyTree [] (some ⟨.root, []⟩) "package a.b;import a.b.C;" = .ok scan := by
  have hpassable : shyTree.root.Passable := by simp [shyTree, Node.Passable]
  refine ⟨hpassable, (scanImports_ends_iff_clear shyTree [] (some ⟨.root, []⟩)
    "package a.b;import a.b.C;").2 hpassable ?_⟩
  intro directory hroot
  cases hroot
  exact ⟨by decide, by decide +kernel⟩

/-- A directory that cannot be passed stops the scan, even if nothing is in it. -/
theorem scanImports_stopped_by_closed_directory :
    scanImports ⟨.directory true true [("closed", .directory false false [])], []⟩ []
        (some ⟨.root, []⟩) "package a.b;import a.b.C;" =
      .error (.path .denied "/closed/src/main/java") := by decide +kernel

end Project

end SourceScout
