import SourceScout.Proofs.Project.ImportScan

/-!
# Files found by a simple name

An import that has no file at its place can still have one elsewhere: a file of its simple name,
which is then listed under the package that the file itself declares. This is done for simple names
that leave no doubt: exactly one import with the name was tried, and no resolved import has it.
-/

namespace SourceScout

theorem Path.stem_eq {file : Path} {name : Text} (h : file.name = name ++ (".java" : Text))
    (hname : name ≠ []) : file.stem = name := by
  have hcut : Text.cutLast? ['.'] file.name = some (name, ("java" : Text)) := by
    rw [h]
    exact Text.cutLast?_eq_some (by decide)
  have hsuffix : file.cutSuffix? = some (name, ("java" : Text)) := by
    rw [Path.cutSuffix?, hcut]
    simp [hname]
  rw [Path.stem, hsuffix]

namespace Project

theorem countTry_map {names : List Text} (hnames : names.Nodup) (count : Text → Nat) (name : Text) :
    countTry name (names.map fun n => (n, count n)) =
      if name ∈ names then names.map fun n => (n, if n = name then count n + 1 else count n)
      else (names.map fun n => (n, count n)) ++ [(name, 1)] := by
  induction names with
  | nil => rfl
  | cons n names ih =>
    obtain ⟨hn, hnames⟩ := List.nodup_cons.mp hnames
    rw [List.map_cons, countTry]
    by_cases heq : n = name
    · subst heq
      rw [if_pos rfl, if_pos List.mem_cons_self, List.map_cons, if_pos rfl]
      -- the other entries keep their counts, for none of them has this name
      congr 1
      refine List.map_congr_left fun other hother => ?_
      rw [if_neg]
      rintro rfl
      exact hn hother
    · rw [if_neg heq, ih hnames]
      by_cases hmem : name ∈ names
      · rw [if_pos hmem, if_pos (List.mem_cons_of_mem n hmem), List.map_cons, if_neg heq]
      · have hcons : name ∉ n :: names := by
          simp [hmem, Ne.symm heq]
        rw [if_neg hmem, if_neg hcons, List.cons_append]

theorem exists_tally_eq (names : List Text) :
    ∃ distinct : List Text, distinct.Nodup ∧ (∀ name, name ∈ distinct ↔ name ∈ names) ∧
      tally names = distinct.map fun name => (name, names.count name) := by
  induction names using List.reverseRecOn with
  | nil => exact ⟨[], List.nodup_nil, fun _ => Iff.rfl, rfl⟩
  | append_singleton names name ih =>
    obtain ⟨distinct, hnodup, hmem, heq⟩ := ih
    rw [tally_concat, heq, countTry_map hnodup]
    by_cases hname : name ∈ distinct
    · rw [if_pos hname]
      refine ⟨distinct, hnodup, fun other => ?_, List.map_congr_left fun other _ => ?_⟩
      · rw [List.mem_append, List.mem_singleton, ← hmem]
        exact ⟨.inl, fun h => h.elim id fun heq => heq ▸ hname⟩
      · by_cases hother : name = other
        · simp [hother]
        · simp [hother, Ne.symm hother]
    · rw [if_neg hname]
      refine ⟨distinct ++ [name], ?_, fun other => by simp [hmem], ?_⟩
      · rw [← List.concat_eq_append, List.nodup_concat]
        exact ⟨hname, hnodup⟩
      · have hzero : names.count name = 0 :=
          List.count_eq_zero.mpr fun h => hname ((hmem name).mpr h)
        rw [List.map_append, List.map_singleton, List.count_append, hzero,
          List.count_singleton_self]
        congr 1
        refine List.map_congr_left fun other hother => ?_
        have hne : name ≠ other := by
          rintro rfl
          exact hname hother
        simp [hne]

theorem mem_tally {names : List Text} {name : Text} {count : Nat} :
    (name, count) ∈ tally names ↔ name ∈ names ∧ count = names.count name := by
  obtain ⟨distinct, -, hmem, heq⟩ := exists_tally_eq names
  rw [heq, List.mem_map, ← hmem]
  constructor
  · rintro ⟨other, hother, hpair⟩
    cases hpair
    exact ⟨hother, rfl⟩
  · rintro ⟨hname, rfl⟩
    exact ⟨name, hname, rfl⟩

section

variable (tree : FileTree) (ignored : IgnoredNames) (root : Option Path) (package : Text)
  (names : List Text) (resolved : List Import)

def TriedOnce (name : Text) : Prop :=
  ∃! k, ∃ qualifiedName, TriedAt tree ignored root package names k qualifiedName ∧
    simpleName qualifiedName = name

/-- A simple name is that of exactly one try and of no resolved import. -/
structure Unsettled (name : Text) : Prop where
  once : TriedOnce tree ignored root package names name
  unresolved : ∀ r ∈ resolved, r.simpleName ≠ name

/-- A file has the simple name `name`, which is unsettled and can be searched for, and declares the
package `owner`. -/
structure StandsFor (file : Path) (owner name : Text) : Prop where
  name_eq : file.name = name ++ (".java" : Text)
  name_ne_nil : name ≠ []
  name_ne_star : name ≠ ['*']
  unsettled : Unsettled tree ignored root package names resolved name
  declares : ∃ text, tree.readText file = .ok text ∧ Package.declared? text = some owner
  owner_ne_nil : owner ≠ []

/-- An import is that of the file at a position of a walk, and no file before it stands for the same
qualified name. -/
structure FoundAt (files : List Path) (k : Nat) (i : Import) : Prop where
  stands : ∃ file owner name, files[k]? = some file ∧
    StandsFor tree ignored root package names resolved file owner name ∧
    i = ⟨owner ++ '.' :: name, file.toText⟩
  first : ∀ j < k, ∀ file owner name, files[j]? = some file →
    StandsFor tree ignored root package names resolved file owner name →
    owner ++ '.' :: name ≠ i.qualifiedName

def importNamed? (wanted : List Text) (file : Path) : Option Import :=
  if ((wanted.filter isSearchable).map fun name => name ++ (".java" : Text)).contains file.name then
    importOfFile? tree file
  else none

end

section

variable {tree : FileTree} {ignored : IgnoredNames} {root : Option Path} {package : Text}
  {names : List Text} {progress : ScanProgress}

theorem TriedOnce.dot_not_mem {name : Text}
    (h : TriedOnce tree ignored root package names name) : '.' ∉ name := by
  obtain ⟨k, ⟨qualifiedName, -, rfl⟩, -⟩ := h
  exact dot_not_mem_simpleName qualifiedName

theorem Scanned.dot_mem (h : Scanned tree ignored root package names names progress) {r : Import}
    (hr : r ∈ progress.resolved) : '.' ∈ r.qualifiedName := by
  rw [h.resolved] at hr
  obtain ⟨k, -, hfirst⟩ := (listed_distinctNames _ _).mem_iff.mp hr
  exact (firstAt_importOf?_iff.mp hfirst).ofProject.dot_mem

theorem mem_unresolvedNames {name : Text} : name ∈ unresolvedNames progress ↔
    ∃ count ≤ 1, (name, count) ∈ progress.tried ∧
      ∀ r ∈ progress.resolved, Text.endsWith ('.' :: name) r.qualifiedName ≠ true := by
  rw [unresolvedNames, List.mem_map]
  constructor
  · rintro ⟨⟨other, count⟩, hmem, rfl⟩
    obtain ⟨htried, htest⟩ := List.mem_filter.mp hmem
    obtain ⟨hcount, hany⟩ := Bool.and_eq_true_iff.mp htest
    rw [Bool.not_eq_true', List.any_eq_false] at hany
    exact ⟨count, of_decide_eq_true hcount, htried, hany⟩
  · rintro ⟨count, hcount, htried, hany⟩
    refine ⟨(name, count), List.mem_filter.mpr ⟨htried, Bool.and_eq_true_iff.mpr ⟨?_, ?_⟩⟩, rfl⟩
    · exact decide_eq_true hcount
    · rw [Bool.not_eq_true', List.any_eq_false]
      exact hany

theorem Scanned.mem_unresolvedNames_iff
    (h : Scanned tree ignored root package names names progress) {name : Text} :
    name ∈ unresolvedNames progress ↔
      Unsettled tree ignored root package names progress.resolved name := by
  obtain ⟨tries, hlisted, htried⟩ := h.tried
  have honce : (tries.map simpleName).count name = 1 ↔
      TriedOnce tree ignored root package names name := by
    rw [hlisted.count_map_eq_one_iff]
    refine existsUnique_congr fun k => and_iff_right_of_imp ?_
    rintro ⟨qualifiedName, htry, -⟩
    exact (List.getElem?_eq_some_iff.mp htry.declared).1
  have hends : TriedOnce tree ignored root package names name → ∀ r ∈ progress.resolved,
      (Text.endsWith ('.' :: name) r.qualifiedName = true ↔ r.simpleName = name) :=
    fun hunique r hr => endsWith_dot_iff (h.dot_mem hr) hunique.dot_not_mem
  rw [mem_unresolvedNames, htried]
  constructor
  · rintro ⟨count, hcount, hmem, hnone⟩
    obtain ⟨hname, rfl⟩ := mem_tally.mp hmem
    have hpos := List.count_pos_iff.mpr hname
    have hunique := honce.mp (by omega)
    exact ⟨hunique, fun r hr heq => hnone r hr ((hends hunique r hr).mpr heq)⟩
  · rintro ⟨hunique, hnone⟩
    have hcount := honce.mpr hunique
    refine ⟨1, Nat.le_refl 1, mem_tally.mpr ⟨List.count_pos_iff.mp (by omega), hcount.symm⟩, ?_⟩
    intro r hr heq
    exact hnone r hr ((hends hunique r hr).mp heq)

theorem importOfFile?_eq_some {file : Path} {i : Import} : importOfFile? tree file = some i ↔
    ∃ text owner, tree.readText file = .ok text ∧ Package.declared? text = some owner ∧ owner ≠ [] ∧
      i = ⟨owner ++ '.' :: file.stem, file.toText⟩ := by
  rw [importOfFile?]
  cases htext : tree.readText file with
  | error failure => simp
  | ok text =>
    rw [Option.map_eq_some_iff]
    constructor
    · rintro ⟨owner, howner, rfl⟩
      obtain ⟨hdeclared, hne⟩ := Package.nonempty?_eq_some.mp howner
      exact ⟨text, owner, rfl, hdeclared, hne, rfl⟩
    · rintro ⟨other, owner, hother, hdeclared, hne, rfl⟩
      cases hother
      exact ⟨owner, Package.nonempty?_eq_some.mpr ⟨hdeclared, hne⟩, rfl⟩

theorem FoundAt.qualifiedName_ne {resolved : List Import} {files : List Path} {k : Nat}
    {i r : Import} (h : FoundAt tree ignored root package names resolved files k i)
    (hr : r ∈ resolved) : r.qualifiedName ≠ i.qualifiedName := by
  obtain ⟨file, owner, name, -, hstands, rfl⟩ := h.stands
  intro heq
  apply hstands.unsettled.unresolved r hr
  rw [Import.simpleName, heq]
  exact simpleName_append hstands.unsettled.once.dot_not_mem

theorem Scanned.importNamed?_eq_some
    (h : Scanned tree ignored root package names names progress) {file : Path} {i : Import} :
    importNamed? tree (unresolvedNames progress) file = some i ↔ ∃ owner name,
      StandsFor tree ignored root package names progress.resolved file owner name ∧
      i = ⟨owner ++ '.' :: name, file.toText⟩ := by
  rw [importNamed?, Option.ite_none_right_eq_some, List.contains_iff_mem, List.mem_map,
    importOfFile?_eq_some]
  constructor
  · rintro ⟨⟨name, hwanted, hname⟩, text, owner, htext, hdeclared, howner, rfl⟩
    obtain ⟨hunresolved, hsearchable⟩ := List.mem_filter.mp hwanted
    have hne : name ≠ [] ∧ name ≠ ['*'] := by simpa [isSearchable] using hsearchable
    refine ⟨owner, name, ⟨hname.symm, hne.1, hne.2, h.mem_unresolvedNames_iff.mp hunresolved,
      ⟨text, htext, hdeclared⟩, howner⟩, ?_⟩
    rw [Path.stem_eq hname.symm hne.1]
  · rintro ⟨owner, name, hstands, rfl⟩
    obtain ⟨text, htext, hdeclared⟩ := hstands.declares
    refine ⟨⟨name, List.mem_filter.mpr ⟨h.mem_unresolvedNames_iff.mpr hstands.unsettled, ?_⟩,
      hstands.name_eq.symm⟩, text, owner, htext, hdeclared, hstands.owner_ne_nil, ?_⟩
    · simp [isSearchable, hstands.name_ne_nil, hstands.name_ne_star]
    · rw [Path.stem_eq hstands.name_eq hstands.name_ne_nil]

theorem Scanned.firstAt_importNamed?_iff
    (h : Scanned tree ignored root package names names progress) {files : List Path} {k : Nat}
    {i : Import} :
    FirstAt (importNamed? tree (unresolvedNames progress)) files k i ↔
      FoundAt tree ignored root package names progress.resolved files k i := by
  constructor
  · rintro ⟨hanswers, hfirst⟩
    obtain ⟨file, hfile, hanswer⟩ := Option.bind_eq_some_iff.mp hanswers
    obtain ⟨owner, name, hstands, hi⟩ := h.importNamed?_eq_some.mp hanswer
    refine ⟨⟨file, owner, name, hfile, hstands, hi⟩, ?_⟩
    intro j hj before owner name hbefore hstands
    refine hfirst j hj ⟨owner ++ '.' :: name, before.toText⟩ ?_
    rw [hbefore]
    exact h.importNamed?_eq_some.mpr ⟨owner, name, hstands, rfl⟩
  · rintro ⟨⟨file, owner, name, hfile, hstands, hi⟩, hfirst⟩
    refine ⟨?_, fun j hj before hbefore => ?_⟩
    · rw [hfile]
      exact h.importNamed?_eq_some.mpr ⟨owner, name, hstands, hi⟩
    · obtain ⟨file, hfile, hanswer⟩ := Option.bind_eq_some_iff.mp hbefore
      obtain ⟨owner, name, hstands, rfl⟩ := h.importNamed?_eq_some.mp hanswer
      exact hfirst j hj file owner name hfile hstands

end

section

variable {tree : FileTree} {ignored : IgnoredNames} {root : Path} {package : Text}
  {names : List Text} {progress : ScanProgress}

theorem resolveSimple_eq_ok {wanted : List Text} {files : List Path} {found : List Import}
    (h : resolveSimple tree ignored (some root) wanted = .ok found)
    (hfiles : tree.walk ignored ".java" root = .ok files) :
    found = distinctNames (files.filterMap (importNamed? tree wanted)) := by
  rw [resolveSimple] at h
  split at h
  · rename_i hempty
    cases h
    have hnone : ∀ file, importNamed? tree wanted file = none := by
      intro file
      rw [List.isEmpty_iff.mp hempty]
      rfl
    simp [hnone, distinctNames]
  · obtain ⟨listed, hlisted, hfound⟩ := bind_eq_ok.mp h
    rw [FileTree.walkNamed, hfiles] at hlisted
    cases hlisted
    cases hfound
    rw [List.filterMap_filter]
    rfl

theorem resolveSimple_eq_nil {wanted : List Text} {failure : Failure} {found : List Import}
    (h : resolveSimple tree ignored (some root) wanted = .ok found)
    (hfiles : tree.walk ignored ".java" root = .error failure) : found = [] := by
  rw [resolveSimple] at h
  split at h
  · cases h
    rfl
  · obtain ⟨listed, hlisted, -⟩ := bind_eq_ok.mp h
    rw [FileTree.walkNamed, hfiles] at hlisted
    cases hlisted

end

/-- A scan that gives an answer for a text with a package lists, in the order of the walk, the
readable files named by an unsettled simple name, each under the package that it declares and the
first for each qualified name. None of these is the name of a resolved import. A root that cannot be
walked has no such files. -/
theorem scanImports_fallback_listed (tree : FileTree) (ignored : IgnoredNames) (root : Path)
    (content package : Text) (scan : ImportScan)
    (hpackage : Package.declared? content = some package) (hne : package ≠ [])
    (h : scanImports tree ignored (some root) content = .ok scan) :
    (∀ files, tree.walk ignored ".java" root = .ok files →
      Listed (FoundAt tree ignored (some root) package (Import.declaredIn content) scan.resolved
        files) files.length scan.fallback) ∧
    (∀ failure, tree.walk ignored ".java" root = .error failure → scan.fallback = []) ∧
    ∀ i ∈ scan.fallback, ∀ r ∈ scan.resolved, r.qualifiedName ≠ i.qualifiedName := by
  obtain ⟨progress, found, hscanned, hfound, rfl⟩ :=
    scanImports_eq_ok (Package.nonempty?_eq_some.mpr ⟨hpackage, hne⟩) h
  refine ⟨fun files hfiles => ?_, fun failure hfailure => ?_, fun i hi => ?_⟩
  · have hlisted : Listed (FoundAt tree ignored (some root) package (Import.declaredIn content)
        progress.resolved files) files.length found := by
      rw [resolveSimple_eq_ok hfound hfiles]
      exact (listed_distinctNames _ _).congr fun k _ i => hscanned.firstAt_importNamed?_iff
    -- the last filter keeps everything
    have hkept : (found.filter fun i => !progress.resolved.any fun r =>
        r.qualifiedName == i.qualifiedName) = found := by
      refine List.filter_eq_self.mpr fun i hi => ?_
      obtain ⟨k, -, hi⟩ := hlisted.mem_iff.mp hi
      exact not_any_qualifiedName_iff.mpr fun r hr => hi.qualifiedName_ne hr
    rw [hkept]
    exact hlisted
  · rw [resolveSimple_eq_nil hfound hfailure]
    rfl
  · exact not_any_qualifiedName_iff.mp (List.mem_filter.mp hi).2

theorem scanImports_fallback_listed_elsewhere :
    sampleProject.walk [] ".java" ⟨.root, []⟩ =
        .ok [⟨.root, ["a", "b", "C.java"]⟩, ⟨.root, ["lib", "D.java"]⟩] ∧
      Listed (FoundAt sampleProject [] (some ⟨.root, []⟩) "a.b" (Import.declaredIn sampleText)
        [⟨"a.b.C", "/a/b/C.java"⟩] [⟨.root, ["a", "b", "C.java"]⟩, ⟨.root, ["lib", "D.java"]⟩]) 2
        [⟨"a.d.D", "/lib/D.java"⟩] := by
  have hfiles : sampleProject.walk [] ".java" ⟨.root, []⟩ =
      .ok [⟨.root, ["a", "b", "C.java"]⟩, ⟨.root, ["lib", "D.java"]⟩] := by decide +kernel
  exact ⟨hfiles, (scanImports_fallback_listed sampleProject [] ⟨.root, []⟩ sampleText "a.b" _
    (by decide +kernel) (by decide +kernel) scanImports_sampleProject).1 _ hfiles⟩

end Project

end SourceScout
