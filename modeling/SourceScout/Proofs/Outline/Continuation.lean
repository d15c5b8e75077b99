import Mathlib.Data.List.Forall2
import SourceScout.Proofs.Outline.NestedSpans
import SourceScout.Proofs.Text.Parts

/-!
# Outlines of a text that goes on

Lines that follow a text change nothing above them but the ends of spans: a line is classified by
itself and annotations are looked for upwards. A span that was settled stays as it is; one that
ended with the text can only become longer.
-/

namespace SourceScout

theorem Text.lines_append (front back : Text) :
    lines (front ++ '\n' :: back) = lines front ++ lines back := by
  simp only [lines, splitOn_eq, List.splitOn]
  exact List.splitOnP_append_cons front back (beq_self_eq_true '\n')

namespace Outline

section

variable {lines : List Text} {index last stop : Nat} (more : List Text)

theorem settles_append_iff (hlast : last < lines.length) :
    Settles (lines ++ more) index last ↔ Settles lines index last := by
  have htake : (lines ++ more).take (last + 1) = lines.take (last + 1) :=
    List.take_append_of_le_length hlast
  constructor
  · rintro ⟨hindex, -, hopened, hclosed⟩
    rw [htake] at hopened hclosed
    exact ⟨hindex, hlast, hopened, hclosed⟩
  · rintro ⟨hindex, -, hopened, hclosed⟩
    rw [← htake] at hopened hclosed
    refine ⟨hindex, ?_, hopened, hclosed⟩
    rw [List.length_append]
    omega

theorem SpanEnds.append_of_settles (h : SpanEnds lines index stop)
    (hsettles : Settles lines index last) : SpanEnds (lines ++ more) index stop := by
  cases h with
  | settled hstop hfirst =>
    have hlt := hstop.last_lt
    refine .settled ((settles_append_iff more hlt).mpr hstop) ?_
    intro i hi hlonger
    exact hfirst i hi ((settles_append_iff more (by omega)).mp hlonger)
  | unsettled hnever => exact absurd hsettles (hnever last)

theorem SpanEnds.length_le_of_append (h : SpanEnds (lines ++ more) index stop)
    (hnever : ∀ last, ¬Settles lines index last) : lines.length ≤ stop := by
  cases h with
  | @settled other hother _ =>
    by_contra hlt
    exact hnever other ((settles_append_iff more (by omega)).mp hother)
  | unsettled _ =>
    rw [List.length_append]
    omega

theorem SpanEnds.unique {other : Nat} (h : SpanEnds lines index stop)
    (hother : SpanEnds lines index other) : stop = other := by
  have hle : ∀ {a b}, SpanEnds lines index a → SpanEnds lines index b → a ≤ b := by
    intro a b ha hb
    cases hb with
    | settled hb _ => exact ha.le_of_settles hb
    | unsettled hnever =>
      cases ha with
      | settled ha _ => exact absurd ha (hnever _)
      | unsettled _ => exact Nat.le_refl _
  exact Nat.le_antisymm (hle h hother) (hle hother h)

theorem spanEnd_append_of_settles (hsettles : Settles lines index last) :
    spanEnd (lines ++ more) index = spanEnd lines index := by
  have hindex : index < lines.length := Nat.lt_of_le_of_lt hsettles.index_le hsettles.last_lt
  have hlonger : index < (lines ++ more).length := by
    rw [List.length_append]
    omega
  exact (spanEnd_ends hlonger).unique ((spanEnd_ends hindex).append_of_settles more hsettles)

theorem spanEnd_le_append (hindex : index < lines.length) :
    spanEnd lines index ≤ spanEnd (lines ++ more) index := by
  by_cases hsettles : ∃ last, Settles lines index last
  · obtain ⟨last, hlast⟩ := hsettles
    exact Nat.le_of_eq (spanEnd_append_of_settles more hlast).symm
  · have hlonger : index < (lines ++ more).length := by
      rw [List.length_append]
      omega
    calc spanEnd lines index
        ≤ lines.length := ((spanEnd_ends hindex).bounds hindex).2
      _ ≤ spanEnd (lines ++ more) index :=
        (spanEnd_ends hlonger).length_le_of_append more (not_exists.mp hsettles)

theorem signature_append (language : Language) (line : Text) (hindex : index ≤ lines.length) :
    signature language (lines ++ more) index line = signature language lines index line := by
  simp only [signature, annotationsAbove, List.take_append_of_le_length hindex]

end

/-- What becomes of an entry when its text goes on; `lines` are those that the text had before. -/
structure Continues (lines : List Text) (item longer : OutlineItem) : Prop where
  name : longer.name = item.name
  kind : longer.kind = item.kind
  startLine : longer.startLine = item.startLine
  signature : longer.signature = item.signature
  end_le : item.endLine ≤ longer.endLine
  end_eq : item.kind = .field ∨ (∃ last, Settles lines (item.startLine - 1) last) →
    longer.endLine = item.endLine

theorem item?_append (language : Language) {lines : List Text} (more : List Text) {index : Nat}
    (line : Text) (hindex : index < lines.length) :
    Option.Rel (Continues lines) (item? language lines index line)
      (item? language (lines ++ more) index line) := by
  rw [item?, item?]
  cases language.classify? line with
  | none => exact .none
  | some declaration =>
    refine .some ⟨rfl, rfl, rfl, signature_append more language line (by omega), ?_, ?_⟩
    · dsimp only
      split
      · exact Nat.le_refl _
      · exact spanEnd_le_append more hindex
    · dsimp only
      rintro (hfield | ⟨last, hlast⟩)
      · rw [if_pos hfield, if_pos hfield]
      · rw [Nat.add_sub_cancel] at hlast
        rw [spanEnd_append_of_settles more hlast]

theorem filter_ofLines_append (language : Language) (lines more : List Text) :
    (ofLines language (lines ++ more)).filter (fun item => item.startLine ≤ lines.length) =
      lines.zipIdx.filterMap fun (line, index) => item? language (lines ++ more) index line := by
  rw [ofLines, List.zipIdx_append, List.filterMap_append, List.filter_append]
  have hfront : ∀ item ∈ lines.zipIdx.filterMap fun (line, index) =>
      item? language (lines ++ more) index line, decide (item.startLine ≤ lines.length) = true := by
    intro item hitem
    obtain ⟨⟨line, index⟩, hmem, hfound⟩ := List.mem_filterMap.mp hitem
    have hlt := (List.getElem?_eq_some_iff.mp (List.mem_zipIdx_iff_getElem?.mp hmem)).1
    rw [decide_eq_true_eq, (span_of_item? hfound).1]
    omega
  have hback : ∀ item ∈ (more.zipIdx (0 + lines.length)).filterMap fun (line, index) =>
      item? language (lines ++ more) index line,
      ¬decide (item.startLine ≤ lines.length) = true := by
    intro item hitem
    obtain ⟨⟨line, index⟩, hmem, hfound⟩ := List.mem_filterMap.mp hitem
    have hle := List.le_snd_of_mem_zipIdx hmem
    rw [decide_eq_true_eq, (span_of_item? hfound).1]
    omega
  rw [List.filter_eq_self.mpr hfront, List.filter_eq_nil_iff.mpr hback, List.append_nil]

/-- When a text goes on after a line end, the entries that start in it stay the same, one by one and
in order, up to the ends of spans. A span does not become shorter, and it keeps its end if it is
that of a field or was settled. -/
theorem inLanguage_append (language : Option Language) (front back : Text) :
    List.Forall₂ (Continues front.lines) (inLanguage language front)
      ((inLanguage language (front ++ '\n' :: back)).filter fun item =>
        item.startLine ≤ front.lines.length) := by
  cases language with
  | none => exact .nil
  | some language =>
    simp only [inLanguage, ofText, Text.lines_append, filter_ofLines_append]
    have hself : List.Forall₂ (fun one other => one = other ∧ one ∈ front.lines.zipIdx)
        front.lines.zipIdx front.lines.zipIdx :=
      List.forall₂_same.mpr fun one hone => ⟨rfl, hone⟩
    refine List.rel_filterMap ?_ hself
    rintro ⟨line, index⟩ _ ⟨rfl, hmem⟩
    have hline := List.mem_zipIdx_iff_getElem?.mp hmem
    exact item?_append language back.lines line (List.getElem?_eq_some_iff.mp hline).1

def sampleFront : Text := "class A \x7b\n  int b;\n  void f() \x7b \x7d"

theorem inLanguage_append_sampleFront :
    inLanguage (some .java) sampleFront =
        [⟨"A", .classType, 1, 3, "class A \x7b"⟩, ⟨"b", .field, 2, 2, "int b;"⟩,
          ⟨"f", .method, 3, 3, "void f() \x7b \x7d"⟩] ∧
      inLanguage (some .java) (sampleFront ++ '\n' :: ("\x7d\nclass C" : Text)) =
        [⟨"A", .classType, 1, 4, "class A \x7b"⟩, ⟨"b", .field, 2, 2, "int b;"⟩,
          ⟨"f", .method, 3, 3, "void f() \x7b \x7d"⟩, ⟨"C", .classType, 5, 5, "class C"⟩] ∧
      List.Forall₂ (Continues sampleFront.lines) (inLanguage (some .java) sampleFront)
        ((inLanguage (some .java) (sampleFront ++ '\n' :: ("\x7d\nclass C" : Text))).filter
          fun item => item.startLine ≤ sampleFront.lines.length) := by
  refine ⟨by decide +kernel, by decide +kernel, ?_⟩
  exact inLanguage_append (some .java) sampleFront "\x7d\nclass C"

end Outline

end SourceScout
