import Mathlib.Data.List.TakeWhile
import SourceScout.FileContext

/-!
# The sections on the imports of a file

Each import of a scan is a data class or one of the others, and each kind has a section of its own.
The two sections are cut in different ways: of the data classes the first ones are taken and those
that can be read are shown, of the others those that can be read are counted. So a file that cannot
be read leaves a gap in the one section and makes room in the other.
-/

namespace SourceScout.FileContext

open Text

def injectionsTitle : Text := "[DEPENDENCY_INJECTIONS]: (Injected Components)"

def resolvedTitle : Text := "[LOCAL_IMPORTS]: (Resolved Project Imports)"

def fallbackTitle : Text := "[LOCAL_IMPORTS]: (Resolved Project Imports - Fallback)"

def modelsTitle : Text := "[MODEL_FIELDS]: (DTO/VO/Entity Fields)"

def outlinesTitle : Text := "[DEPENDENCY_OUTLINES]: (Other Class Outlines)"

def sectionOn (imports : List Import) (title : Text) (lines : List Text) : List Text :=
  if imports = [] then [] else [] :: title :: lines

def readable? (tree : FileTree) (i : Import) : Option (Import × Text) :=
  match tree.readText (.ofText i.path) with
  | .ok content => some (i, content)
  | .error _ => none

def injectionEntries (content : Text) : List Text :=
  if InjectedField.declaredIn content = [] then ["  (No significant injections detected)"]
  else (InjectedField.declaredIn content).map fun field =>
    "  - [INJECT] " ++ field.type ++ " " ++ field.name

def importEntry (i : Import) : Text := "  - " ++ i.simpleName ++ " => " ++ i.path

def fieldEntry (field : ModelField) : Text :=
  "   - " ++ field.name ++ " | " ++ field.type ++ " | " ++
    if field.comment = [] then ("(no comment)" : Text) else field.comment

def modelEntry (file : Import × Text) : List Text :=
  (">> " ++ file.1.simpleName ++ " => " ++ file.1.path) ::
    if ModelField.declaredIn file.2 = [] then ["   - (No fields detected)"]
    else (ModelField.declaredIn file.2).map fieldEntry

def itemEntry (item : OutlineItem) : Text :=
  "   - " ++ item.name ++ "@L" ++ ofNat item.startLine ++ "-" ++ ofNat item.endLine

def outlineEntry (file : Import × Text) : List Text :=
  (">> " ++ file.1.simpleName ++ ":") :: (Outline.shallow .java file.2).map itemEntry

/-! ## The two ways to cut -/

theorem injections_eq (content : Text) :
    injections content = [] :: injectionsTitle :: injectionEntries content := by
  unfold injections titled injectionsTitle injectionEntries injectionLine
  cases InjectedField.declaredIn content <;> rfl

theorem cut_eq_take {α : Type} (xs : List α) (cap : Nat) : cut xs 0 cap = xs.take cap :=
  cut_of_nonneg xs 0 cap

theorem outlineLines_eq (i : Import) (content : Text) :
    outlineLines i content = outlineEntry (i, content) := rfl

theorem modelFieldLine_eq (field : ModelField) : modelFieldLine field = fieldEntry field := by
  unfold modelFieldLine fieldEntry noComment
  cases field.comment <;> rfl

theorem modelLines_eq (tree : FileTree) (i : Import) :
    modelLines tree i = ((readable? tree i).toList).flatMap modelEntry := by
  rw [modelLines, sourceOf?, readable?]
  cases tree.readText (.ofText i.path) with
  | error failure => rfl
  | ok content =>
    have hlines := List.map_congr_left fun field (_ : field ∈ ModelField.declaredIn content) =>
      modelFieldLine_eq field
    by_cases hfields : ModelField.declaredIn content = []
    · simp only [Except.toOption, Option.toList_some, List.flatMap_singleton, modelEntry, hfields,
        List.isEmpty_nil, if_pos]
    · have hnonempty := List.isEmpty_eq_false_iff.mpr hfields
      simp only [Except.toOption, Option.toList_some, List.flatMap_singleton, modelEntry, hfields,
        hnonempty, Bool.false_eq_true, if_false, hlines]

theorem flatMap_modelLines (tree : FileTree) (imports : List Import) :
    imports.flatMap (modelLines tree) =
      (imports.filterMap (readable? tree)).flatMap modelEntry := by
  induction imports with
  | nil => rfl
  | cons i rest ih =>
    rw [List.flatMap_cons, ih, modelLines_eq]
    cases hi : readable? tree i with
    | none => rw [List.filterMap_cons_none hi]; rfl
    | some file => rw [List.filterMap_cons_some hi]; simp

theorem outlinesFrom_eq (tree : FileTree) (cap count : Nat) (imports : List Import) :
    outlinesFrom tree cap count imports =
      ((imports.filterMap (readable? tree)).take (cap - count)).flatMap outlineEntry := by
  induction imports generalizing count with
  | nil => simp [outlinesFrom]
  | cons i rest ih =>
    rw [outlinesFrom]
    by_cases hfull : cap ≤ count
    · have hnone : cap - count = 0 := by omega
      simp [hfull, hnone]
    · have hmore : cap - count = cap - (count + 1) + 1 := by omega
      have hroom : ¬(cap : Int) ≤ count := by omega
      rw [if_neg hroom]
      cases hi : tree.readText (.ofText i.path) with
      | error failure =>
        have hnone : readable? tree i = none := by simp [readable?, hi]
        simp [sourceOf?, hi, Except.toOption, List.filterMap_cons_none hnone, ih]
      | ok content =>
        have hsome : readable? tree i = some (i, content) := by simp [readable?, hi]
        simp [sourceOf?, hi, Except.toOption, List.filterMap_cons_some hsome, ih, hmore,
          outlineLines_eq]

theorem others_eq (imports : List Import) :
    (imports.filter fun i => !(imports.filter isModel).contains i) =
      imports.filter fun i => !isModel i := by
  apply List.filter_congr
  intro i hi
  simp [hi]

theorem unlessEmpty_titled (imports : List Import) (title : Text)
    (lines : List Import → List Text) :
    unlessEmpty imports (fun imports => titled title (lines imports)) =
      sectionOn imports title (lines imports) := by
  cases imports <;> rfl

/-! ## Titles -/

def IsEntry (line : Text) : Prop := line.head? = some ' ' ∨ line.head? = some '>'

theorem isEntry_append {start rest : Text} (h : IsEntry start) : IsEntry (start ++ rest) := by
  rcases h with h | h
  · exact Or.inl (by rw [List.head?_append, h]; rfl)
  · exact Or.inr (by rw [List.head?_append, h]; rfl)

theorem isEntry_importEntry (i : Import) : IsEntry (importEntry i) :=
  isEntry_append (isEntry_append (isEntry_append (Or.inl rfl)))

theorem isEntry_fieldEntry (field : ModelField) : IsEntry (fieldEntry field) :=
  isEntry_append (isEntry_append (isEntry_append (isEntry_append (isEntry_append (Or.inl rfl)))))

theorem isEntry_of_mem_modelEntry {file : Import × Text} {line : Text}
    (h : line ∈ modelEntry file) : IsEntry line := by
  rcases List.mem_cons.mp h with rfl | h
  · exact isEntry_append (isEntry_append (isEntry_append (Or.inr rfl)))
  · split at h
    · cases List.mem_singleton.mp h
      exact Or.inl rfl
    · obtain ⟨field, -, rfl⟩ := List.mem_map.mp h
      exact isEntry_fieldEntry field

theorem isEntry_of_mem_outlineEntry {file : Import × Text} {line : Text}
    (h : line ∈ outlineEntry file) : IsEntry line := by
  rcases List.mem_cons.mp h with rfl | h
  · exact isEntry_append (isEntry_append (Or.inr rfl))
  · obtain ⟨item, -, rfl⟩ := List.mem_map.mp h
    exact isEntry_append (isEntry_append (isEntry_append (isEntry_append (isEntry_append
      (Or.inl rfl)))))

theorem mem_section_iff {title other : Text} {lines : List Text}
    (htitle : title.head? = some '[') (hlines : ∀ line ∈ lines, IsEntry line) :
    title ∈ [] :: other :: lines ↔ title = other := by
  have hnonempty : title ≠ [] := by
    rintro rfl
    cases htitle
  have hnot : title ∉ lines := by
    intro hmem
    rcases hlines title hmem with h | h <;> rw [htitle] at h <;> exact absurd h (by decide)
  simp [hnonempty, hnot]

theorem mem_sectionOn_iff {imports : List Import} {title other : Text} {lines : List Text}
    (htitle : title.head? = some '[') (hlines : ∀ line ∈ lines, IsEntry line) :
    title ∈ sectionOn imports other lines ↔ imports ≠ [] ∧ title = other := by
  by_cases himports : imports = []
  · simp [sectionOn, himports]
  · rw [sectionOn, if_neg himports, mem_section_iff htitle hlines, and_iff_right himports]

theorem isEntry_of_mem_injectionEntries {content line : Text}
    (h : line ∈ injectionEntries content) : IsEntry line := by
  rw [injectionEntries] at h
  split at h
  · cases List.mem_singleton.mp h
    exact Or.inl rfl
  · obtain ⟨field, -, rfl⟩ := List.mem_map.mp h
    exact isEntry_append (isEntry_append (isEntry_append (Or.inl rfl)))

theorem titles_nodup :
    [injectionsTitle, resolvedTitle, fallbackTitle, modelsTitle, outlinesTitle].Nodup := by
  decide +kernel

theorem head?_titles : ∀ title ∈ [resolvedTitle, fallbackTitle, modelsTitle, outlinesTitle],
    title.head? = some '[' := by
  decide +kernel

/-! ## The sections of a scan -/

def shownImports (tree : FileTree) (listed modelCap outlineCap : Nat)
    (resolved fallback models others : List Import) : List Text :=
  sectionOn resolved resolvedTitle ((resolved.take listed).map importEntry) ++
    sectionOn fallback fallbackTitle ((fallback.take listed).map importEntry) ++
    sectionOn models modelsTitle
      (((models.take modelCap).filterMap (readable? tree)).flatMap modelEntry) ++
    sectionOn others outlinesTitle
      (((others.filterMap (readable? tree)).take outlineCap).flatMap outlineEntry)

theorem importSections_eq {w : Workspace} {listed modelCap outlineCap : Nat}
    (hlisted : w.settings.maxListedImports = listed)
    (hmodels : w.settings.maxModelImports = modelCap)
    (houtlines : w.settings.maxDependencyOutlines = outlineCap) (scan : Project.ImportScan) :
    importSections w scan = shownImports w.tree listed modelCap outlineCap scan.resolved
      scan.fallback (scan.all.filter isModel) (scan.all.filter fun i => !isModel i) := by
  have hlist (title : Text) (imports : List Import) :
      unlessEmpty imports (importList listed title) =
        sectionOn imports title ((imports.take listed).map importEntry) := by
    rw [← cut_eq_take]
    exact unlessEmpty_titled imports title _
  have hmodel (models : List Import) : unlessEmpty models (modelFields w.tree modelCap) =
      sectionOn models modelsTitle
        (((models.take modelCap).filterMap (readable? w.tree)).flatMap modelEntry) := by
    rw [← flatMap_modelLines, ← cut_eq_take]
    exact unlessEmpty_titled models modelsTitle _
  have houtline (others : List Import) :
      unlessEmpty others (dependencyOutlines w.tree outlineCap) = sectionOn others outlinesTitle
        (((others.filterMap (readable? w.tree)).take outlineCap).flatMap outlineEntry) := by
    have hfrom := outlinesFrom_eq w.tree outlineCap 0 others
    rw [Nat.sub_zero] at hfrom
    rw [← hfrom]
    exact unlessEmpty_titled others outlinesTitle _
  simp only [importSections, hlisted, hmodels, houtlines, others_eq, hlist, hmodel, houtline]
  rfl

theorem mem_shownImports_iff {title : Text} (htitle : title.head? = some '[') (tree : FileTree)
    (listed modelCap outlineCap : Nat) (resolved fallback models others : List Import) :
    title ∈ shownImports tree listed modelCap outlineCap resolved fallback models others ↔
      resolved ≠ [] ∧ title = resolvedTitle ∨ fallback ≠ [] ∧ title = fallbackTitle ∨
        models ≠ [] ∧ title = modelsTitle ∨ others ≠ [] ∧ title = outlinesTitle := by
  have hlist (imports : List Import) :
      ∀ line ∈ (imports.take listed).map importEntry, IsEntry line := by
    intro line hline
    obtain ⟨i, -, rfl⟩ := List.mem_map.mp hline
    exact isEntry_importEntry i
  have hmodel : ∀ line ∈ ((models.take modelCap).filterMap (readable? tree)).flatMap modelEntry,
      IsEntry line := by
    intro line hline
    obtain ⟨file, -, hline⟩ := List.mem_flatMap.mp hline
    exact isEntry_of_mem_modelEntry hline
  have houtline : ∀ line ∈ ((others.filterMap (readable? tree)).take outlineCap).flatMap
      outlineEntry, IsEntry line := by
    intro line hline
    obtain ⟨file, -, hline⟩ := List.mem_flatMap.mp hline
    exact isEntry_of_mem_outlineEntry hline
  rw [shownImports, List.mem_append, List.mem_append, List.mem_append,
    mem_sectionOn_iff htitle (hlist _), mem_sectionOn_iff htitle (hlist _),
    mem_sectionOn_iff htitle hmodel, mem_sectionOn_iff htitle houtline, or_assoc, or_assoc]

theorem titles_mem_iff (content : Text) (tree : FileTree) (listed modelCap outlineCap : Nat)
    (resolved fallback models others : List Import) {out : List Text}
    (hout : out = [] :: injectionsTitle :: injectionEntries content ++
      shownImports tree listed modelCap outlineCap resolved fallback models others) :
    (resolvedTitle ∈ out ↔ resolved ≠ []) ∧ (fallbackTitle ∈ out ↔ fallback ≠ []) ∧
      (modelsTitle ∈ out ↔ models ≠ []) ∧ (outlinesTitle ∈ out ↔ others ≠ []) := by
  have hdistinct := titles_nodup
  have hheads := head?_titles
  simp only [List.nodup_cons, List.mem_cons, List.not_mem_nil, or_false, not_or] at hdistinct
  simp only [List.forall_mem_cons] at hheads
  obtain ⟨hresolved, hfallback, hmodels, houtlines, -⟩ := hheads
  have hinjections {title : Text} (htitle : title.head? = some '[') :
      title ∈ [] :: injectionsTitle :: injectionEntries content ↔ title = injectionsTitle :=
    mem_section_iff htitle fun line => isEntry_of_mem_injectionEntries
  rw [hout]
  simp only [List.mem_append, hinjections, mem_shownImports_iff, hresolved, hfallback, hmodels,
    houtlines]
  grind

theorem sections_of_package {w : Workspace} {path content package : Text} {out : List Text}
    (hpackage : Package.nonempty? content = some package)
    (hout : sections w path content = .ok out) :
    ∃ root scan, Project.root? w.tree (.ofText path) (some package) = .ok root ∧
      Project.scanImports w.tree w.ignored root content = .ok scan ∧
      out = [] :: injectionsTitle :: injectionEntries content ++ importSections w scan := by
  rw [← injections_eq]
  rw [sections, hpackage] at hout
  obtain ⟨root, hroot, hout⟩ := bind_eq_ok.mp hout
  obtain ⟨scan, hscan, hout⟩ := bind_eq_ok.mp hout
  exact ⟨root, scan, hroot, hscan, (Except.ok.inj hout).symm⟩

/-- Where a text has a package, each import of its scan is a data class or one of the others, and
the sections on the imports are those of `shownImports`, each there exactly if it has imports. -/
theorem sections_divide_imports {w : Workspace} {path content package : Text} {out : List Text}
    {listed modelCap outlineCap : Nat} (hpackage : Package.nonempty? content = some package)
    (hlisted : w.settings.maxListedImports = listed)
    (hmodels : w.settings.maxModelImports = modelCap)
    (houtlines : w.settings.maxDependencyOutlines = outlineCap)
    (hout : sections w path content = .ok out) :
    ∃ root scan models others, Project.root? w.tree (.ofText path) (some package) = .ok root ∧
      Project.scanImports w.tree w.ignored root content = .ok scan ∧
      models = scan.all.filter (fun i => Role.isModelLike i.simpleName i.path) ∧
      others = scan.all.filter (fun i => !Role.isModelLike i.simpleName i.path) ∧
      (∀ i ∈ scan.all, i ∈ models ↔ i ∉ others) ∧
      out = [] :: injectionsTitle :: injectionEntries content ++
        shownImports w.tree listed modelCap outlineCap scan.resolved scan.fallback models others ∧
      (resolvedTitle ∈ out ↔ scan.resolved ≠ []) ∧ (fallbackTitle ∈ out ↔ scan.fallback ≠ []) ∧
      (modelsTitle ∈ out ↔ models ≠ []) ∧ (outlinesTitle ∈ out ↔ others ≠ []) := by
  obtain ⟨root, scan, hroot, hscan, rfl⟩ := sections_of_package hpackage hout
  rw [importSections_eq hlisted hmodels houtlines]
  refine ⟨root, scan, _, _, hroot, hscan, rfl, rfl, ?_, rfl, ?_⟩
  · intro i hi
    simp [hi]
  · exact titles_mem_iff content w.tree listed modelCap outlineCap _ _ _ _ rfl

def importingText : Text :=
  "package a;import a.ODto;import a.PDto;import a.QDto;import a.B;import a.C;import a.D;\n" ++
    "private CService c;"

def sampleImports : Workspace where
  tree := ⟨.directory true true [("a", .directory true true
    [("ODto.java", .file false []),
      ("PDto.java", .file true (Utf8.encode "// The key\nprivate Long id;\nprivate int n;")),
      ("QDto.java", .file true []), ("B.java", .file false []),
      ("C.java", .file true (Utf8.encode "class C \x7b\n  public void run() \x7b\n  \x7d\n\x7d")),
      ("D.java", .file true [])])], []⟩
  home := ⟨.root, ["h"]⟩
  settings := ⟨500, 2, 2, 1, 10, 60, 4, []⟩

def sampleScan : Project.ImportScan :=
  ⟨[⟨"a.ODto", "/a/ODto.java"⟩, ⟨"a.PDto", "/a/PDto.java"⟩, ⟨"a.QDto", "/a/QDto.java"⟩,
    ⟨"a.B", "/a/B.java"⟩, ⟨"a.C", "/a/C.java"⟩, ⟨"a.D", "/a/D.java"⟩], []⟩

theorem sections_divide_imports_sampleImports :
    ∃ out, sections sampleImports "/a/A.java" importingText = .ok out ∧
      out = [[], injectionsTitle, "  - [INJECT] CService c", [], resolvedTitle,
        "  - ODto => /a/ODto.java", "  - PDto => /a/PDto.java", [], modelsTitle,
        ">> PDto => /a/PDto.java", "   - id | Long | The key", "   - n | int | (no comment)",
        [], outlinesTitle, ">> C:", "   - C@L1-4", "   - run@L2-3"] ∧
      fallbackTitle ∉ out := by
  have hpackage : Package.nonempty? importingText = some "a" := by decide +kernel
  have hroot : Project.root? sampleImports.tree (.ofText "/a/A.java") (some "a") =
      .ok (some ⟨.root, []⟩) := by decide +kernel
  have hscan : Project.scanImports sampleImports.tree sampleImports.ignored (some ⟨.root, []⟩)
      importingText = .ok sampleScan := by decide +kernel
  have hout : sections sampleImports "/a/A.java" importingText =
      .ok (injections importingText ++ importSections sampleImports sampleScan) := by
    rw [sections, hpackage]
    exact bind_eq_ok.mpr ⟨_, hroot, bind_eq_ok.mpr ⟨_, hscan, rfl⟩⟩
  obtain ⟨root, scan, models, others, hroot', hscan', rfl, rfl, -, hshown, -, hfallback, -⟩ :=
    @sections_divide_imports _ _ _ _ _ 2 2 1 hpackage rfl rfl rfl hout
  cases hroot.symm.trans hroot'
  cases hscan.symm.trans hscan'
  refine ⟨_, hout, hshown.trans ?_, ?_⟩
  · decide +kernel
  · exact fun h => hfallback.mp h rfl

end SourceScout.FileContext
