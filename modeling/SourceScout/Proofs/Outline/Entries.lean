import Mathlib.Data.List.TakeWhile
import SourceScout.Proofs.Outline.Span
import SourceScout.Proofs.Pattern.Recording

/-!
# The entries of an outline

An outline has one entry for each line on which a rule matches, in the order of the lines. Whatever
rule it is, the name is a part of the line that consists of name characters: every rule of every
language records exactly one text, and the pattern that reads it is the same in all of them.
-/

namespace SourceScout

structure IsNameIn (line name : Text) : Prop where
  ne_nil : name ≠ []
  chars : ∀ c ∈ name, isNameChar c = true
  part : name <:+: line

namespace Language

theorem recorded?_of_mem_rules {language : Language} :
    ∀ rule ∈ language.rules, rule.pattern.recorded? = some [Pattern.many1 isNameChar] := by
  have hscript : ∀ rule ∈ scriptRules,
      rule.pattern.recorded? = some [Pattern.many1 isNameChar] := by
    simp only [scriptRules, List.forall_mem_cons]
    exact ⟨rfl, rfl, rfl, rfl, rfl, List.forall_mem_nil _⟩
  cases language with
  | java =>
    simp only [rules, javaRules, List.forall_mem_cons]
    exact ⟨rfl, rfl, rfl, rfl, List.forall_mem_nil _⟩
  | typescript => exact hscript
  | javascript => exact hscript
  | python =>
    simp only [rules, pythonRules, List.forall_mem_cons]
    exact ⟨rfl, rfl, List.forall_mem_nil _⟩
  | go =>
    simp only [rules, goRules, List.forall_mem_cons]
    exact ⟨rfl, rfl, rfl, rfl, List.forall_mem_nil _⟩

end Language

namespace DeclRule

theorem nameIn?_eq_none_iff {rule : DeclRule} {line : Text} :
    rule.nameIn? line = none ↔ rule.pattern.occursIn line = false := by
  simp [nameIn?, Pattern.occursIn]

theorem isNameIn {rule : DeclRule} (hrule : rule.pattern.recorded? = some [.many1 isNameChar])
    {line name : Text} (h : rule.nameIn? line = some name) : IsNameIn line name := by
  obtain ⟨m, hm, rfl⟩ := Option.map_eq_some_iff.mp h
  have hcaptures := Pattern.captures_of_search? hrule hm
  rw [Match.capture]
  generalize m.captures = captures at hcaptures ⊢
  cases hcaptures with
  | cons hfirst hrest =>
    obtain ⟨hpart, start, stop, hstop, hreads⟩ := hfirst
    obtain ⟨taken, hne, hchars, htaken⟩ := Pattern.mem_ways_many1 hstop
    -- both texts lie between the same two places
    have heq := hreads.toText_stretchTo.symm.trans htaken.toText_stretchTo
    rw [List.getD_cons_zero]
    exact ⟨heq ▸ hne, heq ▸ hchars, hpart⟩

end DeclRule

/-- The first rule that matches a line gives its kind and its name. -/
def FirstRule (rules : List DeclRule) (line : Text) (kind : DeclKind) (name : Text) : Prop :=
  ∃ earlier rule later, rules = earlier ++ rule :: later ∧
    (∀ other ∈ earlier, other.pattern.occursIn line = false) ∧
    rule.nameIn? line = some name ∧ rule.kind = kind

theorem classifyFrom_eq_none_iff {line : Text} {index : Nat} {rules : List DeclRule} :
    classifyFrom line index rules = none ↔
      ∀ rule ∈ rules, rule.pattern.occursIn line = false := by
  induction rules generalizing index with
  | nil => simp [classifyFrom]
  | cons rule rules ih =>
    rw [classifyFrom, List.forall_mem_cons, ← DeclRule.nameIn?_eq_none_iff]
    cases hname : rule.nameIn? line with
    | some name => simp
    | none => simpa using ih

theorem firstRule_of_classifyFrom {line : Text} {index : Nat} {rules : List DeclRule}
    {declaration : Declaration} (h : classifyFrom line index rules = some declaration) :
    FirstRule rules line declaration.kind declaration.name := by
  induction rules generalizing index with
  | nil => cases h
  | cons rule rules ih =>
    rw [classifyFrom] at h
    cases hname : rule.nameIn? line with
    | some name =>
      rw [hname] at h
      cases h
      exact ⟨[], rule, rules, rfl, by simp, hname, rfl⟩
    | none =>
      rw [hname] at h
      obtain ⟨earlier, found, later, rfl, hearlier, hfound⟩ := ih h
      refine ⟨rule :: earlier, found, later, rfl, ?_, hfound⟩
      exact List.forall_mem_cons.mpr ⟨DeclRule.nameIn?_eq_none_iff.mp hname, hearlier⟩

namespace Outline

/-- The lines from `top` up to `index` are the stack of annotations and comments directly above
`index`. -/
structure AnnotationStack (lines : List Text) (index top : Nat) : Prop where
  top_le : top ≤ index
  stacked : ∀ i, top ≤ i → i < index → ∀ line, lines[i]? = some line →
    inAnnotationStack line.strip = true
  ends : 0 < top → ∀ line, lines[top - 1]? = some line → inAnnotationStack line.strip = false

def annotationsFrom (lines : List Text) (top index : Nat) : List Text :=
  (((lines.take index).drop top).map Text.strip).filter (Text.startsWith "@")

theorem exists_annotationStack {lines : List Text} {index : Nat} (hindex : index ≤ lines.length) :
    ∃ top, AnnotationStack lines index top ∧
      annotationsAbove lines index = annotationsFrom lines top index := by
  let inStack : Text → Bool := fun line => inAnnotationStack line.strip
  let run := ((lines.take index).reverse.takeWhile inStack).reverse
  let above := ((lines.take index).reverse.dropWhile inStack).reverse
  have hsplit : lines.take index = above ++ run := by
    rw [← List.reverse_append, List.takeWhile_append_dropWhile, List.reverse_reverse]
  have hlength : above.length + run.length = index := by
    have hboth := congrArg List.length hsplit
    rw [List.length_take, List.length_append] at hboth
    omega
  have hget : ∀ i < index, lines[i]? = (above ++ run)[i]? := by
    intro i hi
    rw [← hsplit, List.getElem?_take_of_lt hi]
  refine ⟨above.length, ⟨by omega, ?_, ?_⟩, ?_⟩
  · intro i hle hlt line hline
    rw [hget i hlt, List.getElem?_append_right hle] at hline
    have hmem := List.mem_reverse.mp (List.mem_of_getElem? hline)
    have hin : inStack line = true := List.mem_takeWhile_imp hmem
    exact hin
  · intro hpos line hline
    rw [hget _ (by omega), List.getElem?_append_left (by omega), ← List.getLast?_eq_getElem?,
      List.getLast?_reverse] at hline
    have hhead := List.head?_dropWhile_not inStack (lines.take index).reverse
    simpa [hline] using hhead
  · rw [annotationsAbove, annotationsFrom, hsplit, List.drop_left, List.takeWhile_map,
      ← List.map_reverse, ← hsplit]
    rfl

structure Describes (language : Language) (lines : List Text) (index : Nat) (line : Text)
    (item : OutlineItem) : Prop where
  startLine : item.startLine = index + 1
  start_le : item.startLine ≤ item.endLine
  end_le : item.endLine ≤ lines.length
  field_end : item.kind = .field → item.endLine = item.startLine
  rule : FirstRule language.rules line item.kind item.name
  name : IsNameIn line item.name
  signature_plain : language ≠ .java → item.signature = line.strip
  signature_java : language = .java → ∃ top, AnnotationStack lines index top ∧
    item.signature = Text.join [' '] (annotationsFrom lines top index ++ [line.strip])

theorem item?_eq_none_iff {language : Language} {lines : List Text} {index : Nat} {line : Text} :
    item? language lines index line = none ↔
      ∀ rule ∈ language.rules, rule.pattern.occursIn line = false := by
  rw [item?, Option.map_eq_none_iff, Language.classify?, classifyFrom_eq_none_iff]

theorem describes_of_item? {language : Language} {lines : List Text} {index : Nat} {line : Text}
    {item : OutlineItem} (hline : lines[index]? = some line)
    (h : item? language lines index line = some item) :
    Describes language lines index line item := by
  obtain ⟨declaration, hdeclaration, rfl⟩ := Option.map_eq_some_iff.mp h
  have hindex := (List.getElem?_eq_some_iff.mp hline).1
  have hbounds := (spanEnd_ends hindex).bounds hindex
  have hrule := firstRule_of_classifyFrom hdeclaration
  have hname : IsNameIn line declaration.name := by
    obtain ⟨earlier, rule, later, hrules, -, hfound, -⟩ := hrule
    have hmem : rule ∈ language.rules := by
      rw [hrules]
      exact List.mem_append_right _ List.mem_cons_self
    exact DeclRule.isNameIn (Language.recorded?_of_mem_rules rule hmem) hfound
  refine
    { startLine := rfl
      start_le := ?_
      end_le := ?_
      field_end := fun hfield => if_pos hfield
      rule := hrule
      name := hname
      signature_plain := ?_
      signature_java := ?_ }
  · dsimp only
    split
    · exact Nat.le_refl _
    · exact hbounds.1
  · dsimp only
    split
    · exact hindex
    · exact hbounds.2
  · intro hother
    simp [signature, Language.hasAnnotations, hother, Text.join]
  · rintro rfl
    obtain ⟨top, hstack, hannotations⟩ := exists_annotationStack (Nat.le_of_lt hindex)
    exact ⟨top, hstack, by rw [← hannotations]; rfl⟩

theorem mem_ofLines_iff {language : Language} {lines : List Text} {item : OutlineItem} :
    item ∈ ofLines language lines ↔ ∃ index line, lines[index]? = some line ∧
      item? language lines index line = some item := by
  rw [ofLines, List.mem_filterMap]
  constructor
  · rintro ⟨⟨line, index⟩, hmem, hitem⟩
    exact ⟨index, line, List.mem_zipIdx_iff_getElem?.mp hmem, hitem⟩
  · rintro ⟨index, line, hline, hitem⟩
    exact ⟨(line, index), List.mem_zipIdx_iff_getElem?.mpr hline, hitem⟩

theorem ofLines_pairwise (language : Language) (lines : List Text) :
    (ofLines language lines).Pairwise fun earlier later => earlier.startLine < later.startLine := by
  rw [ofLines, List.pairwise_filterMap, List.pairwise_iff_getElem]
  intro i j hi hj hlt earlier hearlier later hlater
  rw [List.getElem_zipIdx] at hearlier hlater
  obtain ⟨_, -, rfl⟩ := Option.map_eq_some_iff.mp hearlier
  obtain ⟨_, -, rfl⟩ := Option.map_eq_some_iff.mp hlater
  dsimp only
  omega

theorem mem_shallow_iff {language : Language} {content : Text} {item : OutlineItem} :
    item ∈ shallow language content ↔
      item ∈ ofText language content ∧ item.kind ≠ .field := by
  rw [shallow, List.mem_filter, bne_iff_ne]

def MatchesRule (language : Option Language) (line : Text) : Prop :=
  ∃ known ∈ language, ∃ rule ∈ known.rules, rule.pattern.occursIn line = true

theorem exists_item_iff {language : Language} {lines : List Text} {index : Nat} {line : Text}
    (hline : lines[index]? = some line) :
    (∃ item ∈ ofLines language lines, item.startLine = index + 1) ↔
      MatchesRule (some language) line := by
  have hmatches : MatchesRule (some language) line ↔ item? language lines index line ≠ none := by
    rw [Ne, item?_eq_none_iff]
    simp [MatchesRule]
  rw [hmatches, Option.ne_none_iff_exists']
  constructor
  · rintro ⟨item, hitem, hstart⟩
    obtain ⟨other, found, hfound, hother⟩ := mem_ofLines_iff.mp hitem
    have hsame := (describes_of_item? hfound hother).startLine
    obtain rfl : other = index := by omega
    obtain rfl : found = line := Option.some.inj (hfound.symm.trans hline)
    exact ⟨item, hother⟩
  · rintro ⟨item, hitem⟩
    exact ⟨item, mem_ofLines_iff.mpr ⟨index, line, hline, hitem⟩,
      (describes_of_item? hline hitem).startLine⟩

/-- The outline of a text in any language: its entries come in the order of their first lines, no
two on one line; a line has an entry exactly if a rule matches it; every entry describes its line;
and the shallow outline leaves out the fields and nothing else. -/
theorem inLanguage_entries (language : Option Language) (content : Text) :
    ((inLanguage language content).Pairwise fun earlier later =>
      earlier.startLine < later.startLine) ∧
    (∀ index line, content.lines[index]? = some line →
      ((∃ item ∈ inLanguage language content, item.startLine = index + 1) ↔
        MatchesRule language line)) ∧
    (∀ item ∈ inLanguage language content, ∃ known ∈ language, ∃ index line,
      content.lines[index]? = some line ∧ Describes known content.lines index line item) ∧
    ∀ known ∈ language,
      (shallow known content).Sublist (inLanguage language content) ∧
      ∀ item, item ∈ shallow known content ↔
        item ∈ inLanguage language content ∧ item.kind ≠ .field := by
  cases language with
  | none => simp [inLanguage, MatchesRule]
  | some language =>
    refine ⟨ofLines_pairwise language content.lines, ?_, ?_, ?_⟩
    · intro index line hline
      exact exists_item_iff hline
    · intro item hitem
      obtain ⟨index, line, hline, hfound⟩ := mem_ofLines_iff.mp hitem
      exact ⟨language, rfl, index, line, hline, describes_of_item? hline hfound⟩
    · rintro known hknown
      obtain rfl := Option.some.inj hknown
      exact ⟨List.filter_sublist, fun item => mem_shallow_iff⟩

def sampleClass : Text := "@A\nclass B \x7b\n  int c;\n\x7d"

theorem inLanguage_entries_sampleClass :
    inLanguage (some .java) sampleClass =
        [⟨"B", .classType, 2, 4, "@A class B \x7b"⟩, ⟨"c", .field, 3, 3, "int c;"⟩] ∧
      MatchesRule (some .java) "  int c;" ∧
      (shallow .java sampleClass).Sublist (inLanguage (some .java) sampleClass) ∧
      ∃ index line, sampleClass.lines[index]? = some line ∧
        Describes .java sampleClass.lines index line ⟨"c", .field, 3, 3, "int c;"⟩ := by
  have houtline : inLanguage (some .java) sampleClass =
      [⟨"B", .classType, 2, 4, "@A class B \x7b"⟩, ⟨"c", .field, 3, 3, "int c;"⟩] := by
    decide +kernel
  have hfield : (⟨"c", .field, 3, 3, "int c;"⟩ : OutlineItem) ∈
      inLanguage (some .java) sampleClass := by
    rw [houtline]
    exact List.mem_cons_of_mem _ List.mem_cons_self
  obtain ⟨-, hlines, hitems, hshallow⟩ := inLanguage_entries (some .java) sampleClass
  obtain ⟨known, hknown, hdescribes⟩ := hitems _ hfield
  obtain rfl := Option.some.inj hknown
  refine ⟨houtline, (hlines 2 _ ?_).mp ⟨_, hfield, rfl⟩, (hshallow .java rfl).1, hdescribes⟩
  decide +kernel

end Outline

end SourceScout
