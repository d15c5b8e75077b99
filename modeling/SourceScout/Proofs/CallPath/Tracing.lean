import SourceScout.CallPath
import SourceScout.Proofs.FileTree.Rewriting
import SourceScout.Proofs.Implementation.DeclaringFiles
import SourceScout.Proofs.Source.CalledFields

/-!
# What the lines of a call path are

The called names are taken one after the other. A name that is no field gives no line, a field whose
type has no file gives one, and otherwise there is a line for each file that defines the type.
-/

namespace SourceScout

section

variable {α β : Type} {f : α → Except Failure β}

theorem exists_mapM_eq_ok {R : α → β → Prop} {xs : List α}
    (h : ∀ x ∈ xs, ∃ y, f x = .ok y ∧ R x y) :
    ∃ ys, xs.mapM f = .ok ys ∧ List.Forall₂ R xs ys := by
  induction xs with
  | nil => exact ⟨[], rfl, .nil⟩
  | cons x xs ih =>
    obtain ⟨⟨y, hy, hxy⟩, hxs⟩ := List.forall_mem_cons.mp h
    obtain ⟨ys, hys, hrest⟩ := ih hxs
    refine ⟨y :: ys, ?_, .cons hxy hrest⟩
    rw [List.mapM_cons, hy, hys]
    rfl

theorem mapM_eq_error {failure : Failure} {xs : List α}
    (hall : ∀ x ∈ xs, f x = .error failure ∨ ∃ y, f x = .ok y)
    (h : ∃ x ∈ xs, f x = .error failure) : xs.mapM f = .error failure := by
  induction xs with
  | nil =>
    obtain ⟨x, hx, -⟩ := h
    cases hx
  | cons x xs ih =>
    obtain ⟨hfirst, hrest⟩ := List.forall_mem_cons.mp hall
    rw [List.mapM_cons]
    rcases hfirst with hx | ⟨y, hy⟩
    · rw [hx]
      rfl
    · have hmore : ∃ z ∈ xs, f z = .error failure := by
        obtain ⟨z, hz, hfail⟩ := h
        rcases List.mem_cons.mp hz with rfl | hz
        · cases hy.symm.trans hfail
        · exact ⟨z, hz, hfail⟩
      rw [hy, ih hrest hmore]
      rfl

end

namespace CallPath

open CalledField (CalledAt FieldType calledIn typesIn lookup_typesIn listed_calledIn nodup_calledIn)
open Implementation (Defines declaringFiles_eq_ok declaringFiles_eq_error)

def typeKeywords : List Text := ["class", "interface", "enum"]

theorem head?_typeKeywords :
    ∀ keyword ∈ typeKeywords, keyword.head?.any isWordChar = true := by
  decide +kernel

def TypedField (lines : List Text) (name type : Text) : Prop :=
  FieldType lines name type ∧ type ≠ []

/-- The lines of a name, for the files of a walk and the lines that declare fields. -/
inductive Traced (tree : FileTree) (files : List Path) (lines : List Text) (name : Text) :
    List Text → Prop
  | untyped (h : ∀ type, ¬TypedField lines name type) : Traced tree files lines name []
  | missing {type : Text} (htype : TypedField lines name type)
      (hnone : ∀ file ∈ files, ¬Defines tree typeKeywords type file) :
      Traced tree files lines name [step name type "not found"]
  | found {type : Text} {defining : List Path} (htype : TypedField lines name type)
      (hdefining : defining ≠ [])
      (hlisted : Listed (fun k file => files[k]? = some file ∧ Defines tree typeKeywords type file)
        files.length defining) :
      Traced tree files lines name (defining.map fun file => step name type file.toText)

section

variable {w : Workspace} {root : Path} {files : List Path} {lines group : List Text}
  {name type : Text}

theorem filter_lookup_typesIn :
    ((typesIn lines).lookup name).filter (fun type => !type.isEmpty) = some type ↔
      TypedField lines name type := by
  rw [Option.filter_eq_some_iff, lookup_typesIn, TypedField]
  simp

theorem linesOf_of_untyped (h : ∀ type, ¬TypedField lines name type) :
    linesOf w root (typesIn lines) name = .ok [] := by
  have hnone : ((typesIn lines).lookup name).filter (fun type => !type.isEmpty) = none :=
    Option.eq_none_iff_forall_ne_some.mpr fun type htype => h type (filter_lookup_typesIn.mp htype)
  rw [linesOf, hnone]

theorem linesOf_of_typed (htype : TypedField lines name type) :
    linesOf w root (typesIn lines) name =
      (Implementation.declaringFiles w typeKeywords root type).map fun found =>
        if found.isEmpty then [step name type "not found"] else found.map (step name type) := by
  rw [linesOf, filter_lookup_typesIn.mpr htype]
  rfl

theorem exists_traced (hwalk : w.tree.walk w.ignored Implementation.sourceEnding root = .ok files)
    (lines : List Text) (name : Text) :
    ∃ group, linesOf w root (typesIn lines) name = .ok group ∧
      Traced w.tree files lines name group := by
  by_cases htyped : ∃ type, TypedField lines name type
  · obtain ⟨type, htype⟩ := htyped
    obtain ⟨defining, hfiles, hlisted⟩ :=
      @declaringFiles_eq_ok typeKeywords type head?_typeKeywords _ _ _ hwalk
    rw [linesOf_of_typed htype, hfiles]
    cases defining with
    | nil =>
      refine ⟨_, rfl, .missing htype fun file hfile hdefines => ?_⟩
      obtain ⟨k, hk, hget⟩ := List.getElem_of_mem hfile
      have hmem := hlisted.mem_iff.mpr ⟨k, hk, List.getElem?_eq_some_iff.mpr ⟨hk, hget⟩, hdefines⟩
      cases hmem
    | cons file defining =>
      have hmap : ((file :: defining).map Path.toText).map (step name type) =
          (file :: defining).map fun file => step name type file.toText := List.map_map
      exact ⟨_, congrArg Except.ok hmap, .found htype (List.cons_ne_nil _ _) hlisted⟩
  · have hnone := not_exists.mp htyped
    exact ⟨[], linesOf_of_untyped hnone, .untyped hnone⟩

theorem Traced.exists_eq_step (h : Traced w.tree files lines name group) :
    ∀ line ∈ group, ∃ rest, line = name ++ ' ' :: rest := by
  have hstep : ∀ type file, ∃ rest, step name type file = name ++ ' ' :: rest := by
    intro type file
    exact ⟨"-> " ++ type ++ " -> " ++ file, by simp [step]⟩
  intro line hline
  cases h with
  | untyped => cases hline
  | missing =>
    obtain rfl := List.mem_singleton.mp hline
    exact hstep _ _
  | found =>
    obtain ⟨file, -, rfl⟩ := List.mem_map.mp hline
    exact hstep _ _

theorem step_injective (name type : Text) : Function.Injective (step name type) :=
  fun _ _ h => List.append_cancel_left h

theorem Traced.nodup (hnodup : files.Nodup) (hbelow : ∀ file ∈ files, Path.Below root file)
    (h : Traced w.tree files lines name group) : group.Nodup := by
  cases h with
  | untyped => exact List.nodup_nil
  | missing => exact List.nodup_singleton _
  | @found type defining _ _ hlisted =>
    have hmap := (Implementation.nodup_map_toText hnodup hbelow hlisted).map
      (step_injective name type)
    rwa [List.map_map] at hmap

theorem exists_name_of_mem_flatten {names : List Text} {groups : List (List Text)}
    (h : List.Forall₂ (Traced w.tree files lines) names groups) {line : Text}
    (hline : line ∈ groups.flatten) : ∃ name ∈ names, ∃ rest, line = name ++ ' ' :: rest := by
  induction h with
  | nil => cases hline
  | @cons name group names groups hgroup _ ih =>
    rw [List.flatten_cons] at hline
    rcases List.mem_append.mp hline with hhere | hlater
    · exact ⟨name, List.mem_cons_self, hgroup.exists_eq_step line hhere⟩
    · obtain ⟨other, hother, hrest⟩ := ih hlater
      exact ⟨other, List.mem_cons_of_mem _ hother, hrest⟩

/-- Names without a space in them keep the lines of different names apart. -/
theorem nodup_flatten {names : List Text} {groups : List (List Text)} (hnames : names.Nodup)
    (hspace : ∀ name ∈ names, ' ' ∉ name) (hnodup : files.Nodup)
    (hbelow : ∀ file ∈ files, Path.Below root file)
    (h : List.Forall₂ (Traced w.tree files lines) names groups) : groups.flatten.Nodup := by
  induction h with
  | nil => exact List.nodup_nil
  | @cons name group names groups hgroup hrest ih =>
    obtain ⟨hnew, hnames⟩ := List.nodup_cons.mp hnames
    obtain ⟨hhere, hspace⟩ := List.forall_mem_cons.mp hspace
    rw [List.flatten_cons, List.nodup_append]
    refine ⟨hgroup.nodup hnodup hbelow, ih hnames hspace, ?_⟩
    rintro line hline _ hlater rfl
    obtain ⟨rest, rfl⟩ := hgroup.exists_eq_step line hline
    obtain ⟨other, hother, rest', hsame⟩ := exists_name_of_mem_flatten hrest hlater
    have hname : name = other := by
      rw [← Text.takeWhile_append_cons hhere rest, hsame,
        Text.takeWhile_append_cons (hspace other hother)]
    exact hnew (hname ▸ hother)

theorem ofFile_of_readText {path content code : Text}
    (hending : Text.endsWith Implementation.sourceEnding path = true)
    (hread : w.tree.readText (Path.ofText path) = .ok content) :
    ofFile w path code (some root) = ofContent w root content code := by
  have hfile : w.tree.isFile (Path.ofText path) = .ok true := FileTree.isFile_of_readText hread
  rw [ofFile, hending, hfile, hread]
  rfl

theorem ofContent_eq {content code : Text} {groups : List (List Text)}
    (h : (calledIn code).mapM (linesOf w root (typesIn content.lines)) = .ok groups) :
    ofContent w root content code = .ok (if groups.flatten = [] then none
      else some (Text.unlines (header :: groups.flatten))) := by
  rw [ofContent, h]
  change Except.ok (if groups.flatten.isEmpty = true then none else _) = _
  simp only [List.isEmpty_iff]

theorem linesOf_eq_error (hnul : '\x00' ∈ root.toText) (htype : TypedField lines name type) :
    linesOf w root (typesIn lines) name = .error .nulInPath := by
  rw [linesOf_of_typed htype, declaringFiles_eq_error hnul]
  rfl

theorem ofContent_eq_error {content code : Text} (hnul : '\x00' ∈ root.toText)
    (h : ∃ name ∈ calledIn code, ∃ type, TypedField content.lines name type) :
    ofContent w root content code = .error .nulInPath := by
  have herror : (calledIn code).mapM (linesOf w root (typesIn content.lines)) =
      .error .nulInPath := by
    refine mapM_eq_error ?_ ?_
    · intro name _
      by_cases htyped : ∃ type, TypedField content.lines name type
      · obtain ⟨type, htype⟩ := htyped
        exact .inl (linesOf_eq_error hnul htype)
      · exact .inr ⟨[], linesOf_of_untyped (not_exists.mp htyped)⟩
    · obtain ⟨name, hname, type, htype⟩ := h
      exact ⟨name, hname, linesOf_eq_error hnul htype⟩
  rw [ofContent, herror]
  rfl

theorem flatten_eq_nil {names : List Text} {groups : List (List Text)}
    (h : List.Forall₂ (fun _ group => group = []) names groups) : groups.flatten = [] := by
  induction h with
  | nil => rfl
  | cons hgroup _ ih => rw [List.flatten_cons, hgroup, ih, List.append_nil]

theorem ofContent_of_untyped {content code : Text}
    (h : ∀ name ∈ calledIn code, ∀ type, ¬TypedField content.lines name type) :
    ofContent w root content code = .ok none := by
  obtain ⟨groups, hgroups, hnil⟩ := exists_mapM_eq_ok (R := fun _ group => group = [])
    fun name hname => ⟨[], @linesOf_of_untyped w root _ _ (h name hname), rfl⟩
  rw [ofContent_eq hgroups, if_pos (flatten_eq_nil hnil)]

theorem space_not_mem_calledIn {code : Text} : ∀ name ∈ calledIn code, ' ' ∉ name := by
  intro name hname
  obtain ⟨k, -, hcalled, -⟩ := (listed_calledIn code).mem_iff.mp hname
  exact Text.not_mem_of_forall hcalled.named.chars (by decide)

end

/-- The names are the runs of word characters in front of a dot, each where it comes first, and the
section holds the lines of these names one after the other. Only a root that no walk can start from
makes it fail, and only if there is a type to look for. -/
theorem ofFile_lists_call_paths (w : Workspace) (hformed : w.tree.root.WellFormed)
    {path content : Text} (hending : Text.endsWith Implementation.sourceEnding path = true)
    (hread : w.tree.readText (.ofText path) = .ok content) (code : Text) (root : Path) :
    (Listed (fun k name => CalledAt code k name ∧ ∀ j < k, ¬CalledAt code j name) code.length
        (calledIn code) ∧ (calledIn code).Nodup) ∧
    ('\x00' ∉ root.toText → ∃ files groups,
      w.tree.walk w.ignored Implementation.sourceEnding root = .ok files ∧
      List.Forall₂ (Traced w.tree files content.lines) (calledIn code) groups ∧
      groups.flatten.Nodup ∧
      ofFile w path code (some root) = .ok (if groups.flatten = [] then none
        else some (Text.unlines (header :: groups.flatten)))) ∧
    ('\x00' ∈ root.toText →
      ((∃ name ∈ calledIn code, ∃ type, TypedField content.lines name type) →
        ofFile w path code (some root) = .error .nulInPath) ∧
      ((∀ name ∈ calledIn code, ∀ type, ¬TypedField content.lines name type) →
        ofFile w path code (some root) = .ok none)) := by
  rw [ofFile_of_readText hending hread]
  refine ⟨⟨listed_calledIn code, nodup_calledIn code⟩, ?_, ?_⟩
  · intro hnul
    obtain ⟨files, hwalk, hordered, -⟩ := FileTree.exists_walk_eq_ok hformed w.ignored
      Implementation.sourceEnding hnul
    have hnamed : w.tree.root.Named := hformed.mono fun _ _ entries h entry hentry =>
      (h.2 entry hentry).1
    have hbelow : ∀ file ∈ files, Path.Below root file := fun file hfile =>
      FileTree.below_of_mem_walk hnamed hwalk hfile
    obtain ⟨groups, hgroups, htraced⟩ := exists_mapM_eq_ok fun name (_ : name ∈ calledIn code) =>
      exists_traced hwalk content.lines name
    exact ⟨files, groups, hwalk, htraced, nodup_flatten (nodup_calledIn code) space_not_mem_calledIn
      (Path.nodup_of_before hordered) hbelow htraced, ofContent_eq hgroups⟩
  · intro hnul
    exact ⟨ofContent_eq_error hnul, ofContent_of_untyped⟩

/-- A field declared twice, a type with two files beside one that only has its name, and a type
without a file. -/
def sampleFields : Text := "private Q r;\npublic final R<X> r;\n  private S s ; // q"

def sampleCalls : Workspace where
  tree := ⟨.directory true true [("A.java", .file true (Utf8.encode sampleFields)),
    ("a", .directory true true [("R.java", .file true (Utf8.encode "class  R<X>"))]),
    ("b", .directory true true [("R.java", .file true (Utf8.encode "classR"))]),
    ("R.java", .file true (Utf8.encode "enum R"))], []⟩
  home := ⟨.root, ["h"]⟩
  settings := ⟨500, 20, 15, 12, 10, 60, 4, []⟩

theorem wellFormed_sampleCalls : sampleCalls.tree.root.WellFormed := by
  simp only [sampleCalls, Node.WellFormed, Node.everywhere_directory, Node.everywhere_file,
    List.forall_mem_cons, List.not_mem_nil, false_implies, implies_true, and_true, true_and]
  refine ⟨⟨?_, ?_⟩, ?_, ?_⟩ <;> decide

theorem readText_sampleCalls :
    sampleCalls.tree.readText (.ofText "/A.java") = .ok sampleFields := by
  decide +kernel

theorem ofFile_lists_call_paths_sampleCalls :
    ofFile sampleCalls "/A.java" "r\n.a(9x.b); s.c(); r.d(t.e)" (some ⟨.root, []⟩) =
      .ok (some (Text.unlines [header, "r -> R -> /R.java", "r -> R -> /a/R.java",
        "s -> S -> not found"])) ∧
    ∃ files groups, sampleCalls.tree.walk sampleCalls.ignored ".java" ⟨.root, []⟩ = .ok files ∧
      List.Forall₂ (Traced sampleCalls.tree files sampleFields.lines) ["r", "s", "t"] groups ∧
      groups.flatten.Nodup := by
  have hcalled : calledIn "r\n.a(9x.b); s.c(); r.d(t.e)" = ["r", "s", "t"] := by decide +kernel
  obtain ⟨-, hlists, -⟩ := ofFile_lists_call_paths sampleCalls wellFormed_sampleCalls (by decide)
    readText_sampleCalls "r\n.a(9x.b); s.c(); r.d(t.e)" ⟨.root, []⟩
  obtain ⟨files, groups, hwalk, htraced, hnodup, -⟩ := hlists (by decide)
  rw [hcalled] at htraced
  exact ⟨by decide +kernel, files, groups, hwalk, htraced, hnodup⟩

/-- No file lies below a path with a NUL, and yet the type is not reported as missing. -/
theorem ofFile_stopped_by_nul_root :
    TypedField sampleFields.lines "s" "S" ∧ calledIn "s.c()" = ["s"] ∧
      ofFile sampleCalls "/A.java" "s.c()" (some ⟨.root, [['\x00']]⟩) = .error .nulInPath :=
  ⟨filter_lookup_typesIn.mp (by decide +kernel), by decide +kernel, by decide +kernel⟩

end CallPath

end SourceScout
