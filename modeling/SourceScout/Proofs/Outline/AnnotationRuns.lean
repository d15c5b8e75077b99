import Mathlib.Order.Bounds.Basic
import SourceScout.Proofs.Block.Resolution
import SourceScout.Proofs.Outline.Entries
import SourceScout.Proofs.Text.Margins

/-!
# Annotations lie in the signature

Two scans go up from a declaration. That of outlines stops at blank lines and at the first line of a
block comment; that of blocks passes them and leaves out blank lines at its top. What the first one
passes is no blank line and is passed by the second, so the stack of annotations never begins above
the signature.
-/

namespace SourceScout.Outline

open Block

theorem isSignatureLine_of_inAnnotationStack {line : Text}
    (h : inAnnotationStack line.strip = true) :
    isSignatureLine line = true ∧ Text.isBlankLine line = false := by
  obtain ⟨mark, hmark, hstarts, hne⟩ :
      ∃ mark ∈ signatureMarks, mark.isPrefixOf line.strip = true ∧ mark ≠ [] := by
    rw [inAnnotationStack, Bool.or_eq_true, Bool.or_eq_true] at h
    rcases h with (hat | hstar) | hslashes
    · exact ⟨_, by decide, hat, by decide⟩
    · exact ⟨_, by decide, hstar, by decide⟩
    · exact ⟨_, by decide, hslashes, by decide⟩
  constructor
  · exact Bool.or_eq_true_iff.mpr (.inr (List.any_eq_true.mpr ⟨mark, hmark, hstarts⟩))
  · by_contra hblank
    have hmargin : Text.IsMargin line := List.all_eq_true.mp (Bool.eq_true_of_not_eq_false hblank)
    rw [Text.strip_eq_nil_iff.mpr hmargin, List.isPrefixOf_iff_prefix] at hstarts
    exact hne (List.prefix_nil.mp hstarts)

namespace AnnotationStack

variable {lines : List Text} {index top : Nat}

theorem isLeast (h : AnnotationStack lines index top) (hindex : index ≤ lines.length) :
    IsLeast {first | first ≤ index ∧ IsRun (inAnnotationStack ∘ Text.strip) lines first index}
      top := by
  refine ⟨⟨h.top_le, h.stacked⟩, ?_⟩
  rintro first ⟨-, hrun⟩
  by_contra hnot
  have hlt : first < top := Nat.lt_of_not_le hnot
  have htop := h.top_le
  have hline : lines[top - 1]? = some _ := List.getElem?_eq_getElem (by omega)
  have hstacked := hrun (top - 1) (by omega) (by omega) _ hline
  rw [Function.comp_apply, h.ends (by omega) _ hline] at hstacked
  cases hstacked

theorem signatureStart_le (h : AnnotationStack lines index top) (hindex : index ≤ lines.length) :
    signatureStart lines index ≤ top := by
  refine (startsSignature_signatureStart hindex).le_of_isRun hindex ?_ ?_
  · intro i hi hlt line hline
    exact (isSignatureLine_of_inAnnotationStack (h.stacked i hi hlt line hline)).1
  · intro hlt line hline
    exact (isSignatureLine_of_inAnnotationStack (h.stacked top (Nat.le_refl _) hlt line hline)).2

end AnnotationStack

/-- The annotations above a line are those of the longest run of annotation and comment lines that
ends there. The run lies in the signature of the line, so in the block around it if there is one. -/
theorem annotationsAbove_in_signature {lines : List Text} {index : Nat}
    (hindex : index < lines.length) :
    ∃ top,
      IsLeast {first | first ≤ index ∧ IsRun (inAnnotationStack ∘ Text.strip) lines first index}
        top ∧
      annotationsAbove lines index = annotationsFrom lines top index ∧
      signatureStart lines index ≤ top ∧
      ∀ block, around? lines index = some block → block.first ≤ top ∧ index ≤ block.last := by
  obtain ⟨top, hstack, hannotations⟩ := exists_annotationStack hindex.le
  have hstart := hstack.signatureStart_le hindex.le
  refine ⟨top, hstack.isLeast hindex.le, hannotations, hstart, fun block hblock => ?_⟩
  have hencloses := encloses_of_around? hindex hblock
  rw [around?_of_lt hindex] at hblock
  obtain ⟨last, -, rfl⟩ := Option.map_eq_some_iff.mp hblock
  exact ⟨hstart, hencloses.le_last⟩

def sampleSignature : List Text :=
  [['@', 'Z'], [], ['/', '*', '*', '/'], ['@', 'A'], [' ', '*'], [' ', '@', 'B'], ['f', ';']]

theorem annotationsAbove_in_signature_sampleSignature :
    annotationsAbove sampleSignature 6 = [['@', 'A'], ['@', 'B']] ∧
      signatureStart sampleSignature 6 = 0 ∧
      ∃ top, annotationsFrom sampleSignature top 6 = [['@', 'A'], ['@', 'B']] ∧
        ∀ block, around? sampleSignature 6 = some block → block.first ≤ top ∧ 6 ≤ block.last := by
  have hannotations : annotationsAbove sampleSignature 6 = [['@', 'A'], ['@', 'B']] := by
    decide +kernel
  obtain ⟨top, -, hfrom, -, hblock⟩ :=
    @annotationsAbove_in_signature sampleSignature 6 (by decide)
  refine ⟨hannotations, by decide +kernel, top, ?_, hblock⟩
  rw [← hfrom, hannotations]

end SourceScout.Outline
