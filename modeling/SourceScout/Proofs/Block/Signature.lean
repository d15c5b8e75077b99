import Mathlib.Data.List.TakeWhile
import SourceScout.Block

/-!
# The lines above a definition

The lines above a hit split in three: other code, then the blank lines at the top of the signature
run, then the signature itself. The split is found once, from the two scans that look for the start;
what is known about the start is read off the split and does not open the scans again.

Four clauses about single lines fix the start. For one hit no two starts satisfy them, and they stay
true for every line between the start and the hit, so all these lines have the same start.
-/

namespace SourceScout.Block

/-- The lines above `hit`: `code` does not end in a signature line, `blanks` are blank, and the
signature `marks` does not begin with a blank line. -/
structure SignatureSplit (lines : List Text) (hit : Nat) (code blanks marks : List Text) :
    Prop where
  take_eq : lines.take hit = code ++ (blanks ++ marks)
  code_ends : ∀ line, code.getLast? = some line → isSignatureLine line = false
  blanks_blank : ∀ line ∈ blanks, Text.isBlankLine line = true
  marks_signature : ∀ line ∈ marks, isSignatureLine line = true
  marks_starts : ∀ line, marks.head? = some line → Text.isBlankLine line = false

theorem exists_signatureSplit (lines : List Text) (hit : Nat) :
    ∃ code blanks marks, SignatureSplit lines hit code blanks marks ∧
      signatureStart lines hit = hit - marks.length := by
  let run := (signatureRun lines hit).reverse
  have hrun : ∀ line ∈ run, isSignatureLine line = true := by
    intro line hline
    exact List.mem_takeWhile_imp (List.mem_reverse.mp hline)
  refine ⟨((lines.take hit).reverse.dropWhile isSignatureLine).reverse,
    run.takeWhile Text.isBlankLine, run.dropWhile Text.isBlankLine, ⟨?_, ?_, ?_, ?_, ?_⟩, rfl⟩
  · rw [List.takeWhile_append_dropWhile, ← List.reverse_append]
    change _ = ((lines.take hit).reverse.takeWhile _ ++ _).reverse
    rw [List.takeWhile_append_dropWhile, List.reverse_reverse]
  · intro line hline
    rw [List.getLast?_reverse] at hline
    have hhead := List.head?_dropWhile_not isSignatureLine (lines.take hit).reverse
    simpa [hline] using hhead
  · intro line hline
    exact List.mem_takeWhile_imp hline
  · intro line hline
    exact hrun line ((List.dropWhile_sublist _).mem hline)
  · intro line hline
    have hhead := List.head?_dropWhile_not Text.isBlankLine run
    simpa [hline] using hhead

namespace SignatureSplit

variable {lines code blanks marks : List Text} {hit : Nat}

theorem length_eq (h : SignatureSplit lines hit code blanks marks) (hhit : hit ≤ lines.length) :
    code.length + blanks.length + marks.length = hit := by
  have hlength := congrArg List.length h.take_eq
  simp only [List.length_take, List.length_append] at hlength
  omega

theorem getElem?_eq (h : SignatureSplit lines hit code blanks marks) {i : Nat} (hi : i < hit) :
    lines[i]? = (code ++ (blanks ++ marks))[i]? := by
  rw [← h.take_eq, List.getElem?_take_of_lt hi]

theorem isSignatureLine_of_marks (h : SignatureSplit lines hit code blanks marks) {i : Nat}
    (hi : code.length + blanks.length ≤ i) (hhit : i < hit) {line : Text}
    (hline : lines[i]? = some line) : isSignatureLine line = true := by
  rw [h.getElem?_eq hhit, List.getElem?_append_right (by omega),
    List.getElem?_append_right (by omega)] at hline
  exact h.marks_signature line (List.mem_of_getElem? hline)

theorem isBlankLine_top (h : SignatureSplit lines hit code blanks marks)
    (hhit : code.length + blanks.length < hit) {line : Text}
    (hline : lines[code.length + blanks.length]? = some line) : Text.isBlankLine line = false := by
  rw [h.getElem?_eq hhit, List.getElem?_append_right (by omega),
    List.getElem?_append_right (by omega)] at hline
  apply h.marks_starts
  rw [List.head?_eq_getElem?, ← hline]
  congr 1
  omega

theorem isBlankLine_above (h : SignatureSplit lines hit code blanks marks)
    (hhit : hit ≤ lines.length) {i : Nat} (hi : i < code.length + blanks.length)
    (hrun : ∀ j, i ≤ j → j < code.length + blanks.length → ∀ line, lines[j]? = some line →
      isSignatureLine line = true)
    {line : Text} (hline : lines[i]? = some line) : Text.isBlankLine line = true := by
  have hlength := h.length_eq hhit
  rcases Nat.lt_or_ge i code.length with hcode | hblank
  · -- the last line of the code lies in between and is no signature line
    obtain ⟨last, hlast⟩ : ∃ last, code.getLast? = some last := by
      cases hget : code.getLast? with
      | none => simp [List.getLast?_eq_none_iff.mp hget] at hcode
      | some last => exact ⟨last, rfl⟩
    have hat : lines[code.length - 1]? = some last := by
      rw [h.getElem?_eq (by omega), List.getElem?_append_left (by omega), ← hlast,
        List.getLast?_eq_getElem?]
    have hsignature := hrun (code.length - 1) (by omega) (by omega) last hat
    rw [h.code_ends last hlast] at hsignature
    cases hsignature
  · rw [h.getElem?_eq (by omega), List.getElem?_append_right hblank,
      List.getElem?_append_left (by omega)] at hline
    exact h.blanks_blank line (List.mem_of_getElem? hline)

end SignatureSplit

/-! ## The start of a signature -/

def IsRun (p : Text → Bool) (lines : List Text) (first last : Nat) : Prop :=
  ∀ i, first ≤ i → i < last → ∀ line, lines[i]? = some line → p line = true

theorem IsRun.mono {p : Text → Bool} {lines : List Text} {first last top bottom : Nat}
    (h : IsRun p lines first last) (htop : first ≤ top) (hbottom : bottom ≤ last) :
    IsRun p lines top bottom :=
  fun i hi hlt => h i (htop.trans hi) (hlt.trans_le hbottom)

/-- The signature above `hit` starts at `start`: from there on all lines are signature lines and the
first is not blank, and of the signature lines directly above it none but blank ones are left. -/
structure StartsSignature (lines : List Text) (hit start : Nat) : Prop where
  start_le : start ≤ hit
  signature : IsRun isSignatureLine lines start hit
  top_not_blank : start < hit → ∀ line, lines[start]? = some line → Text.isBlankLine line = false
  above_blank : ∀ i < start, IsRun isSignatureLine lines i start →
    ∀ line, lines[i]? = some line → Text.isBlankLine line = true

theorem startsSignature_signatureStart {lines : List Text} {hit : Nat}
    (hhit : hit ≤ lines.length) : StartsSignature lines hit (signatureStart lines hit) := by
  obtain ⟨code, blanks, marks, hsplit, hstart⟩ := exists_signatureSplit lines hit
  have hlength := hsplit.length_eq hhit
  have hfirst : signatureStart lines hit = code.length + blanks.length := by omega
  rw [hfirst]
  exact
    { start_le := by omega
      signature := fun i hi hlt line hline => hsplit.isSignatureLine_of_marks hi hlt hline
      top_not_blank := fun hlt line hline => hsplit.isBlankLine_top hlt hline
      above_blank := fun i hi hrun line hline => hsplit.isBlankLine_above hhit hi hrun hline }

namespace StartsSignature

variable {lines : List Text} {hit start other first : Nat}

theorem le_of_isRun (h : StartsSignature lines hit start) (hhit : hit ≤ lines.length)
    (hrun : IsRun isSignatureLine lines first hit)
    (htop : first < hit → ∀ line, lines[first]? = some line → Text.isBlankLine line = false) :
    start ≤ first := by
  by_contra hnot
  have hlt : first < start := Nat.lt_of_not_le hnot
  have hbefore : first < hit := hlt.trans_le h.start_le
  have hline := List.getElem?_eq_getElem (hbefore.trans_le hhit)
  have hblank := h.above_blank first hlt (hrun.mono (Nat.le_refl _) h.start_le) _ hline
  rw [htop hbefore _ hline] at hblank
  cases hblank

theorem eq (h : StartsSignature lines hit start) (h' : StartsSignature lines hit other)
    (hhit : hit ≤ lines.length) : start = other :=
  Nat.le_antisymm (h.le_of_isRun hhit h'.signature h'.top_not_blank)
    (h'.le_of_isRun hhit h.signature h.top_not_blank)

theorem of_between (h : StartsSignature lines hit start) {between : Nat} (hstart : start ≤ between)
    (hhit : between ≤ hit) : StartsSignature lines between start where
  start_le := hstart
  signature := h.signature.mono (Nat.le_refl _) hhit
  top_not_blank hlt := h.top_not_blank (hlt.trans_le hhit)
  above_blank := h.above_blank

end StartsSignature

theorem signatureStart_eq_iff {lines : List Text} {hit start : Nat} (hhit : hit ≤ lines.length) :
    signatureStart lines hit = start ↔ StartsSignature lines hit start := by
  constructor
  · rintro rfl
    exact startsSignature_signatureStart hhit
  · intro h
    exact (startsSignature_signatureStart hhit).eq h hhit

/-- The start of a signature is a closure. It is not below the hit, and the four clauses say which
line it is; of the lines up to the hit, those that have the same start are the ones that do not lie
above it, the start itself among them. -/
theorem signatureStart_closes {lines : List Text} {hit : Nat} (hhit : hit < lines.length) :
    signatureStart lines hit ≤ hit ∧
    (∀ start, signatureStart lines hit = start ↔ StartsSignature lines hit start) ∧
    ∀ other ≤ hit, signatureStart lines other = signatureStart lines hit ↔
      signatureStart lines hit ≤ other := by
  have hstart := startsSignature_signatureStart hhit.le
  refine ⟨hstart.start_le, fun start => signatureStart_eq_iff hhit.le, fun other hother => ?_⟩
  have hlength : other ≤ lines.length := hother.trans hhit.le
  constructor
  · intro hsame
    rw [← hsame]
    exact (startsSignature_signatureStart hlength).start_le
  · intro hle
    exact (signatureStart_eq_iff hlength).mpr (hstart.of_between hle hother)

theorem signatureStart_closes_blank_inside :
    signatureStart [['}'], [], ['@', 'A'], [' '], ['/', '/'], ['f']] 5 = 2 ∧
      signatureStart [['}'], [], ['@', 'A'], [' '], ['/', '/'], ['f']] 3 = 2 ∧
      StartsSignature [['}'], [], ['@', 'A'], [' '], ['/', '/'], ['f']] 5 2 := by
  have hstart : signatureStart [['}'], [], ['@', 'A'], [' '], ['/', '/'], ['f']] 5 = 2 := by decide
  obtain ⟨-, hclauses, hsame⟩ :=
    @signatureStart_closes [['}'], [], ['@', 'A'], [' '], ['/', '/'], ['f']] 5 (by decide)
  rw [hstart] at hsame
  exact ⟨hstart, (hsame 3 (by decide)).mpr (by decide), (hclauses 2).mp hstart⟩

end SourceScout.Block
