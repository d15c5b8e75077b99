import SourceScout.Proofs.Source.Statements
import SourceScout.Source.Import

/-!
# Import declarations are read back

A search for import declarations passes over everything up to the word `import` with a blank behind
it, and then takes what stands before the next semicolon. So the names of a source text that is
written line by line come back in their order.
-/

namespace SourceScout.Import

open Pattern Place

def statement (keyword name : Text) : Text := keyword ++ ' ' :: (name ++ [';', '\n'])

def sourceText (package : Text) (names : List Text) (body : Text) : Text :=
  statement "package" package ++ names.flatMap (statement "import") ++ body

structure IsStatementName (name : Text) : Prop where
  ne_nil : name ≠ []
  no_end : ';' ∉ name
  stripped : name.strip = name

def StartsImport (t : Text) : Prop := ∃ c rest, isBlank c = true ∧ t = "import" ++ c :: rest

theorem declaration_eq : declaration = Statement.pattern "import" := rfl

theorem matchHere?_eq_none {before rest : Text} (h : ¬StartsImport rest) :
    declaration.matchHere? (behind before rest) = none := by
  cases hm : declaration.matchHere? (behind before rest) with
  | none => rfl
  | some m =>
    rw [declaration_eq] at hm
    obtain ⟨body, after, hbody, hrest, -⟩ := Statement.exists_body_of_matchHere? hm
    obtain ⟨c, name, hc, -, rfl⟩ := hbody.starts
    exact absurd ⟨c, name ++ ';' :: after, hc, hrest⟩ h

theorem exists_matchHere? {before name : Text} (hname : IsStatementName name) (rest : Text) :
    ∃ m, declaration.matchHere? (behind before (m.text ++ rest)) = some m ∧
      m.text = "import" ++ ' ' :: (name ++ [';']) ∧ (m.capture 0).strip = name := by
  have hbody : Statement.IsBody (' ' :: name) := by
    refine ⟨?_, ' ', name, rfl, hname.ne_nil, rfl⟩
    rw [List.mem_cons, not_or]
    exact ⟨by decide, hname.no_end⟩
  have hspace : Text.IsMargin [' '] := by decide
  have hstrip : Text.strip (' ' :: name) = name :=
    (Text.strip_append_of_isMargin hspace name).trans hname.stripped
  obtain ⟨m, hm, htext, hcapture⟩ := Statement.exists_matchHere? hbody "import" before rest
  refine ⟨m, ?_, htext, hcapture.trans hstrip⟩
  rw [declaration_eq, htext, List.append_assoc, List.append_assoc]
  exact hm

theorem not_startsImport_of_head {c : Char} (hc : c ≠ 'i') (rest : Text) :
    ¬StartsImport (c :: rest) := by
  rintro ⟨d, after, -, heq⟩
  exact hc (List.cons_eq_cons.mp heq).1

theorem not_startsImport_of_solid {word : Text} (hword : ∀ c ∈ word, isBlank c = false)
    (rest : Text) : ¬StartsImport (word ++ ';' :: rest) := by
  rintro ⟨c, after, hc, heq⟩
  have hsolid : ∀ d ∈ word, (!isBlank d) = true := by
    intro d hd
    rw [hword d hd]
    rfl
  have hkeyword : ∀ d ∈ ("import" : Text), (!isBlank d) = true := List.all_eq_true.mp (by decide)
  -- up to the first blank both sides read the same
  have hcut := congrArg (List.takeWhile (!isBlank ·)) heq
  rw [List.takeWhile_append_of_pos hsolid, List.takeWhile_cons_of_pos (by decide),
    List.takeWhile_append_of_pos hkeyword, List.takeWhile_cons_of_neg (by simp [hc])]
    at hcut
  have hmem : ';' ∈ ("import" : Text) ++ [] := hcut ▸ List.mem_append_right _ List.mem_cons_self
  exact absurd hmem (by decide)

theorem found_append_of_not_mem {before plain : Text} (h : 'i' ∉ plain) (rest : Text) :
    declaration.found before (plain ++ rest) = declaration.found (before ++ plain) rest := by
  refine found_append_of_none fun left right heq hright => matchHere?_eq_none ?_
  obtain ⟨c, cs, rfl⟩ := List.exists_cons_of_ne_nil hright
  refine not_startsImport_of_head ?_ (cs ++ rest)
  rintro rfl
  exact h (heq ▸ List.mem_append_right left List.mem_cons_self)

theorem found_statement {name : Text} (hname : IsStatementName name) (before rest : Text) :
    ∃ m : Match, (m.capture 0).strip = name ∧
      declaration.found before (statement "import" name ++ rest) =
        m :: declaration.found (before ++ statement "import" name) rest := by
  obtain ⟨m, hm, htext, hcapture⟩ := @exists_matchHere? before name hname ('\n' :: rest)
  have hline : statement "import" name = m.text ++ ['\n'] := by
    rw [statement, htext, List.append_assoc, List.cons_append, List.append_assoc]
    rfl
  have hne : m.text ≠ [] := by
    rw [htext]
    exact List.append_ne_nil_of_right_ne_nil _ (List.cons_ne_nil _ _)
  have hnext := @found_append_of_not_mem (before ++ m.text) ['\n'] (by decide) rest
  rw [List.singleton_append, List.append_assoc] at hnext
  refine ⟨m, hcapture, ?_⟩
  rw [hline, List.append_assoc, List.singleton_append, found_of_match hne hm, hnext]

theorem map_found_statements {names : List Text} (hnames : ∀ name ∈ names, IsStatementName name)
    (before rest : Text) :
    (declaration.found before (names.flatMap (statement "import") ++ rest)).map
        (fun m => (m.capture 0).strip) =
      names ++ (declaration.found (before ++ names.flatMap (statement "import")) rest).map
        fun m => (m.capture 0).strip := by
  induction names generalizing before with
  | nil => rw [List.flatMap_nil, List.append_nil]; rfl
  | cons name names ih =>
    obtain ⟨hname, hmore⟩ := List.forall_mem_cons.mp hnames
    obtain ⟨m, hcapture, hfound⟩ :=
      found_statement hname before (names.flatMap (statement "import") ++ rest)
    rw [List.flatMap_cons, List.append_assoc, hfound, List.map_cons, ih hmore, hcapture,
      List.append_assoc]
    rfl

theorem found_package {package : Text} (h : ∀ c ∈ package, isBlank c = false) (rest : Text) :
    declaration.found [] (statement "package" package ++ rest) =
      declaration.found (statement "package" package) rest := by
  have hname : ∀ left right, package = left ++ right → right ≠ [] →
      declaration.matchHere? (behind ("package" ++ [' '] ++ left)
        (right ++ ([';', '\n'] ++ rest))) = none := by
    rintro left right rfl -
    refine matchHere?_eq_none (not_startsImport_of_solid ?_ ('\n' :: rest))
    exact fun c hc => h c (List.mem_append_right _ hc)
  calc declaration.found [] (statement "package" package ++ rest)
    _ = declaration.found [] ("package" ++ [' '] ++ (package ++ ([';', '\n'] ++ rest))) := by
      simp only [statement, List.append_assoc, List.cons_append, List.nil_append]
    _ = declaration.found ("package" ++ [' '] ++ package) ([';', '\n'] ++ rest) := by
      rw [found_append_of_not_mem (by decide), List.nil_append, found_append_of_none hname]
    _ = declaration.found (statement "package" package) rest := by
      rw [found_append_of_not_mem (by decide)]
      simp only [statement, List.append_assoc, List.cons_append, List.nil_append]

/-- The names come back in their order, whatever they are made of: words like `import`, blanks and
line ends included. -/
theorem declaredIn_sourceText {package body : Text} {names : List Text}
    (hpackage : ∀ c ∈ package, isBlank c = false) (hnames : ∀ name ∈ names, IsStatementName name)
    (hbody : ∀ c, isBlank c = true → ¬("import" ++ [c] : Text) <:+: body) :
    declaredIn (sourceText package names body) = names := by
  have hnone : ∀ before, declaration.found before body = [] := by
    intro before
    have hplain := @found_append_of_none declaration before body [] ?_
    · rw [List.append_nil] at hplain
      exact hplain
    · rintro left right rfl -
      rw [List.append_nil]
      refine matchHere?_eq_none ?_
      rintro ⟨c, rest, hc, rfl⟩
      exact hbody c hc ⟨left, rest, by simp only [List.append_assoc, List.singleton_append]⟩
  rw [declaredIn, findAll_eq_found, sourceText, List.append_assoc, found_package hpackage,
    map_found_statements hnames, hnone, List.map_nil, List.append_nil]

theorem declaredIn_sourceText_keywords :
    declaredIn (sourceText "import" ["import x", "a.\n import *"] "class A; important a;") =
      ["import x", "a.\n import *"] := by
  have hnames : ∀ name ∈ (["import x", "a.\n import *"] : List Text), IsStatementName name := by
    intro name hname
    have hall : ∀ name ∈ (["import x", "a.\n import *"] : List Text),
        name ≠ [] ∧ ';' ∉ name ∧ name.strip = name := by decide +kernel
    exact ⟨(hall name hname).1, (hall name hname).2.1, (hall name hname).2.2⟩
  have hpackage : ∀ c ∈ ("import" : Text), isBlank c = false := by
    have hall : ("import" : Text).all (fun c => !isBlank c) = true := by decide +kernel
    intro c hc
    simpa using List.all_eq_true.mp hall c hc
  refine declaredIn_sourceText hpackage hnames ?_
  intro c hc hinfix
  have hmem : c ∈ ("class A; important a;" : Text) :=
    hinfix.subset (List.mem_append_right _ List.mem_cons_self)
  have hspaces : ("class A; important a;" : Text).all (fun c => !isBlank c || c == ' ') = true := by
    decide +kernel
  obtain rfl : c = ' ' := by
    simpa [hc] using List.all_eq_true.mp hspaces c hmem
  exact absurd hinfix (by decide +kernel)

end SourceScout.Import
