import SourceScout.Proofs.Text.Margins
import SourceScout.Source.ModelField

/-!
# How scans for model fields compose

A scan passes one line at a time, or a whole block comment. Where it has passed a text to its end,
what it remembers is the waiting comment only: a line of code forgets it, blank lines and
annotations keep it, a comment puts another one in its place. So the fields of a longer text are
put together from those of its parts, up to the comments where one stands between them.
-/

namespace SourceScout.ModelField

open Text

/-! ## Kinds of lines -/

def Opens (line : Text) : Prop := ("/*" : Text) <+: line.strip

def Closes (line : Text) : Prop := ("*/" : Text) <:+: line

def IsLineComment (line : Text) : Prop := ("//" : Text) <+: line.strip

def KeepsComment (line : Text) : Prop := IsMargin line ∨ ("@" : Text) <+: line.strip

structure IsCode (line : Text) : Prop where
  not_opens : ¬Opens line
  not_lineComment : ¬IsLineComment line
  not_keeps : ¬KeepsComment line

instance (line : Text) : Decidable (Opens line) :=
  inferInstanceAs (Decidable (("/*" : Text) <+: line.strip))

instance (line : Text) : Decidable (Closes line) :=
  inferInstanceAs (Decidable (("*/" : Text) <:+: line))

instance (line : Text) : Decidable (IsLineComment line) :=
  inferInstanceAs (Decidable (("//" : Text) <+: line.strip))

instance (line : Text) : Decidable (KeepsComment line) :=
  inferInstanceAs (Decidable (IsMargin line ∨ ("@" : Text) <+: line.strip))

/-- The first line opens the comment, and its end is first seen on the last line. -/
structure IsBlockComment (ls : List Text) : Prop where
  opens : ∃ first, ls.head? = some first ∧ Opens first
  closes : ∃ front last, ls = front ++ [last] ∧ Closes last ∧ ∀ line ∈ front, ¬Closes line

/-- The lines that a scan from the top has passed when it is back in code: single lines that open no
comment, and complete block comments. -/
inductive Passed : List Text → Prop
  | nil : Passed []
  | line {line : Text} {rest : List Text} (hline : ¬Opens line) (hrest : Passed rest) :
      Passed (line :: rest)
  | block {comment rest : List Text} (hcomment : IsBlockComment comment) (hrest : Passed rest) :
      Passed (comment ++ rest)

theorem startsWith_iff {start line : Text} : startsWith start line = true ↔ start <+: line :=
  List.isPrefixOf_iff_prefix

theorem hasPart_close_iff {line : Text} : hasPart "*/" line.strip = true ↔ Closes line := by
  have hsolid : (("*/" : Text).all fun c => !isBlank c) = true := by decide
  rw [hasPart_iff, Closes]
  refine infix_strip_iff fun c hc => ?_
  simpa using List.all_eq_true.mp hsolid c hc

theorem startsWith_at_iff {line : Text} :
    (startsWith "@" line.strip || line.strip.isEmpty) = true ↔ KeepsComment line := by
  rw [Bool.or_eq_true, startsWith_iff, List.isEmpty_iff, strip_eq_nil_iff, KeepsComment, or_comm]

theorem IsLineComment.not_opens {line : Text} (h : IsLineComment line) : ¬Opens line := by
  rintro ⟨rest, hrest⟩
  obtain ⟨other, hother⟩ := h
  rw [← hrest] at hother
  cases hother

theorem KeepsComment.head?_ne {line : Text} (h : KeepsComment line) :
    line.strip.head? ≠ some '/' := by
  rcases h with hmargin | ⟨rest, hrest⟩
  · rw [strip_eq_nil_iff.mpr hmargin]
    simp
  · rw [← hrest]
    simp

theorem KeepsComment.not_opens {line : Text} (h : KeepsComment line) : ¬Opens line := by
  rintro ⟨rest, hrest⟩
  exact h.head?_ne (hrest ▸ rfl)

theorem KeepsComment.not_lineComment {line : Text} (h : KeepsComment line) :
    ¬IsLineComment line := by
  rintro ⟨rest, hrest⟩
  exact h.head?_ne (hrest ▸ rfl)

theorem line_kinds (line : Text) :
    Opens line ∨ IsLineComment line ∨ KeepsComment line ∨ IsCode line := by
  by_cases hopens : Opens line
  · exact .inl hopens
  · by_cases hcomment : IsLineComment line
    · exact .inr (.inl hcomment)
    · by_cases hkeeps : KeepsComment line
      · exact .inr (.inr (.inl hkeeps))
      · exact .inr (.inr (.inr ⟨hopens, hcomment, hkeeps⟩))

/-! ## One line of a scan -/

theorem scanLine_inside (pieces : List Text) (line : Text) :
    scanLine (.comment pieces) line = (none, if Closes line
      then .code (joinComment (pieces ++ [commentLine line.strip]))
      else .comment (pieces ++ [commentLine line.strip])) := by
  simp only [scanLine, hasPart_close_iff]

theorem scanLine_of_opens {line : Text} (h : Opens line) (waiting : Text) :
    scanLine (.code waiting) line = (none, if Closes line
      then .code (joinComment [(replaceAll "*/" [] (commentOpening line.strip)).strip])
      else .comment [commentOpening line.strip]) := by
  simp only [scanLine, startsWith_iff.mpr h, if_true, hasPart_close_iff]
  split <;> rfl

theorem scanLine_of_lineComment {line : Text} (h : IsLineComment line) (waiting : Text) :
    scanLine (.code waiting) line = (none, .code (Text.strip (line.strip.drop 2))) := by
  have hopens : ¬("/*" : Text) <+: line.strip := h.not_opens
  have hcomment : ("//" : Text) <+: line.strip := h
  simp only [scanLine, startsWith_iff, hopens, hcomment, if_true, if_false]

theorem scanLine_of_keepsComment {line : Text} (h : KeepsComment line) (waiting : Text) :
    scanLine (.code waiting) line = (none, .code waiting) := by
  have hopens : ¬("/*" : Text) <+: line.strip := h.not_opens
  have hcomment : ¬("//" : Text) <+: line.strip := h.not_lineComment
  simp only [scanLine, startsWith_at_iff, h, if_true]
  simp only [startsWith_iff, hopens, hcomment, if_false]

theorem scanLine_of_isCode {line : Text} (h : IsCode line) (waiting : Text) :
    scanLine (.code waiting) line = (ofLine? waiting line.strip, .code []) := by
  have hopens : ¬("/*" : Text) <+: line.strip := h.not_opens
  have hcomment : ¬("//" : Text) <+: line.strip := h.not_lineComment
  simp only [scanLine, startsWith_at_iff, h.not_keeps, if_false]
  simp only [startsWith_iff, hopens, hcomment, if_false]

theorem exists_scanLine_of_not_opens {line : Text} (h : ¬Opens line) (waiting : Text) :
    ∃ next, (scanLine (.code waiting) line).2 = .code next := by
  rcases line_kinds line with hopens | hcomment | hkeeps | hcode
  · exact absurd hopens h
  · exact ⟨_, congrArg Prod.snd (scanLine_of_lineComment hcomment waiting)⟩
  · exact ⟨_, congrArg Prod.snd (scanLine_of_keepsComment hkeeps waiting)⟩
  · exact ⟨_, congrArg Prod.snd (scanLine_of_isCode hcode waiting)⟩

/-! ## Runs of lines -/

def stateAfter (state : ScanState) (ls : List Text) : ScanState :=
  ls.foldl (fun state line => (scanLine state line).2) state

theorem stateAfter_cons (state : ScanState) (line : Text) (rest : List Text) :
    stateAfter state (line :: rest) = stateAfter (scanLine state line).2 rest := rfl

theorem stateAfter_append (state : ScanState) (front back : List Text) :
    stateAfter state (front ++ back) = stateAfter (stateAfter state front) back :=
  List.foldl_append

theorem scan_append (state : ScanState) (front back : List Text) :
    scan state (front ++ back) = scan state front ++ scan (stateAfter state front) back := by
  induction front generalizing state with
  | nil => rfl
  | cons line front ih => simp [scan, ih, stateAfter]

theorem run_inside {middle : List Text} {last : Text} (hmiddle : ∀ line ∈ middle, ¬Closes line)
    (hlast : Closes last) (pieces : List Text) :
    scan (.comment pieces) (middle ++ [last]) = [] ∧
      ∃ waiting, stateAfter (.comment pieces) (middle ++ [last]) = .code waiting := by
  induction middle generalizing pieces with
  | nil => simp [scan, stateAfter, scanLine_inside, hlast]
  | cons line middle ih =>
    obtain ⟨hline, hrest⟩ := List.forall_mem_cons.mp hmiddle
    obtain ⟨hscan, hstate⟩ := ih hrest (pieces ++ [commentLine line.strip])
    simp only [List.cons_append, scan, stateAfter, List.foldl_cons, scanLine_inside, hline,
      if_false]
    exact ⟨hscan, hstate⟩

theorem IsBlockComment.run {comment : List Text} (h : IsBlockComment comment) :
    ∃ after, ∀ waiting, scan (.code waiting) comment = [] ∧
      stateAfter (.code waiting) comment = .code after := by
  obtain ⟨front, last, rfl, hlast, hfront⟩ := h.closes
  cases front with
  | nil =>
    obtain ⟨first, hfirst, hopens⟩ := h.opens
    cases Option.some.inj hfirst
    have hline := scanLine_of_opens hopens
    simp only [hlast, if_true] at hline
    exact ⟨_, fun waiting => ⟨by simp [scan, hline], congrArg Prod.snd (hline waiting)⟩⟩
  | cons first middle =>
    obtain ⟨line, hline, hopens⟩ := h.opens
    cases Option.some.inj hline
    obtain ⟨hfirst, hmiddle⟩ := List.forall_mem_cons.mp hfront
    obtain ⟨hscan, after, hstate⟩ := run_inside hmiddle hlast [commentOpening first.strip]
    refine ⟨after, fun waiting => ?_⟩
    simp only [List.cons_append, scan, stateAfter, List.foldl_cons, scanLine_of_opens hopens,
      hfirst, if_false]
    exact ⟨hscan, hstate⟩

theorem Passed.stateAfter {ls : List Text} (h : Passed ls) (waiting : Text) :
    ∃ after, stateAfter (.code waiting) ls = .code after := by
  induction h generalizing waiting with
  | nil => exact ⟨waiting, rfl⟩
  | line hline _ ih =>
    obtain ⟨next, hnext⟩ := exists_scanLine_of_not_opens hline waiting
    rw [stateAfter_cons, hnext]
    exact ih next
  | block hcomment _ ih =>
    obtain ⟨after, hrun⟩ := hcomment.run
    rw [stateAfter_append, (hrun waiting).2]
    exact ih after

def nameAndType (field : ModelField) : Text × Text := (field.name, field.type)

theorem map_nameAndType_ofLine? (waiting other line : Text) :
    (ofLine? waiting line).map nameAndType = (ofLine? other line).map nameAndType := by
  simp only [ofLine?, Option.map_map]
  rfl

theorem map_nameAndType_scan (waiting other : Text) (ls : List Text) :
    (scan (.code waiting) ls).map nameAndType = (scan (.code other) ls).map nameAndType := by
  induction ls generalizing waiting other with
  | nil => rfl
  | cons line ls ih =>
    rcases line_kinds line with hopens | hcomment | hkeeps | hcode
    · simp only [scan, scanLine_of_opens hopens]
    · simp only [scan, scanLine_of_lineComment hcomment]
    · simpa [scan, scanLine_of_keepsComment hkeeps] using ih waiting other
    · simp only [scan, scanLine_of_isCode hcode, List.map_append, ← Option.toList_map]
      rw [map_nameAndType_ofLine? waiting other]

theorem declaredIn_unlines {ls : List Text} (h : ∀ line ∈ ls, '\n' ∉ line) :
    declaredIn (unlines ls) = scan (.code []) ls := by
  by_cases hempty : ls = []
  · subst hempty
    decide
  · rw [declaredIn, lines_unlines hempty h]

theorem run_keepsComment {gap : List Text} (h : ∀ line ∈ gap, KeepsComment line) (waiting : Text) :
    scan (.code waiting) gap = [] ∧ stateAfter (.code waiting) gap = .code waiting := by
  induction gap with
  | nil => exact ⟨rfl, rfl⟩
  | cons line gap ih =>
    obtain ⟨hline, hgap⟩ := List.forall_mem_cons.mp h
    simpa [scan, stateAfter_cons, scanLine_of_keepsComment hline] using ih hgap

theorem run_comment {comment : List Text}
    (h : IsBlockComment comment ∨ ∃ line, comment = [line] ∧ IsLineComment line) (waiting : Text) :
    scan (.code waiting) comment = [] ∧
      ∃ after, stateAfter (.code waiting) comment = .code after := by
  rcases h with hblock | ⟨line, rfl, hline⟩
  · obtain ⟨after, hrun⟩ := hblock.run
    exact ⟨(hrun waiting).1, after, (hrun waiting).2⟩
  · have hscan := scanLine_of_lineComment hline waiting
    exact ⟨by simp [scan, hscan], _, congrArg Prod.snd hscan⟩

/-! ## The main statement -/

/-- The scan of a text that has been passed to its end goes on as if it began there, where the last
line is code. Blank lines and annotations at that point change nothing, and a comment changes no
name and no type. -/
theorem declaredIn_composes {front back : List Text} (hfront : ∀ line ∈ front, '\n' ∉ line)
    (hback : ∀ line ∈ back, '\n' ∉ line) (hpassed : Passed front) :
    (∀ before last, front = before ++ [last] → Passed before → IsCode last →
      declaredIn (unlines (front ++ back)) =
        declaredIn (unlines front) ++ declaredIn (unlines back)) ∧
    (∀ gap : List Text, (∀ line ∈ gap, '\n' ∉ line) → (∀ line ∈ gap, KeepsComment line) →
      declaredIn (unlines (front ++ gap ++ back)) = declaredIn (unlines (front ++ back))) ∧
    ∀ comment : List Text, (∀ line ∈ comment, '\n' ∉ line) →
      (IsBlockComment comment ∨ ∃ line, comment = [line] ∧ IsLineComment line) →
      (declaredIn (unlines (front ++ comment ++ back))).map nameAndType =
        (declaredIn (unlines (front ++ back))).map nameAndType := by
  have hboth := List.forall_mem_append.mpr ⟨hfront, hback⟩
  obtain ⟨waiting, hstate⟩ := hpassed.stateAfter []
  rw [declaredIn_unlines hboth, declaredIn_unlines hfront, declaredIn_unlines hback, scan_append]
  refine ⟨?_, ?_, ?_⟩
  · rintro before last rfl hbefore hcode
    obtain ⟨held, hheld⟩ := hbefore.stateAfter []
    have hforgets : stateAfter (.code []) (before ++ [last]) = .code [] := by
      rw [stateAfter_append, hheld]
      exact congrArg Prod.snd (scanLine_of_isCode hcode held)
    rw [hforgets]
  · intro gap hgap hkeeps
    have hall := List.forall_mem_append.mpr ⟨List.forall_mem_append.mpr ⟨hfront, hgap⟩, hback⟩
    obtain ⟨hnone, hkept⟩ := run_keepsComment hkeeps waiting
    rw [declaredIn_unlines hall, scan_append, scan_append, stateAfter_append, hstate, hnone, hkept,
      List.append_nil]
  · intro comment hcomment hkind
    have hall := List.forall_mem_append.mpr ⟨List.forall_mem_append.mpr ⟨hfront, hcomment⟩, hback⟩
    obtain ⟨hnone, after, hafter⟩ := run_comment hkind waiting
    rw [declaredIn_unlines hall, scan_append, scan_append, stateAfter_append, hstate, hnone, hafter,
      List.append_nil, List.map_append, List.map_append, map_nameAndType_scan after waiting]

def sampleFront : List Text := ["/* Key", "of a row */", "private Long id;"]

def sampleGap : List Text := ["", "@Id"]

def sampleComment : List Text := ["/* In", "bytes */"]

def sampleBack : List Text := ["private int size;"]

theorem declaredIn_composes_sampleFront :
    declaredIn (unlines (sampleFront ++ sampleBack)) =
      declaredIn (unlines sampleFront) ++ declaredIn (unlines sampleBack) ∧
    declaredIn (unlines (sampleFront ++ sampleGap ++ sampleBack)) =
      declaredIn (unlines (sampleFront ++ sampleBack)) ∧
    (declaredIn (unlines (sampleFront ++ sampleComment ++ sampleBack))).map nameAndType =
      (declaredIn (unlines (sampleFront ++ sampleBack))).map nameAndType := by
  have hcomment : ∀ first last : Text, Opens first → ¬Closes first → Closes last →
      IsBlockComment [first, last] := fun first last hopens hfirst hlast =>
    ⟨⟨first, rfl, hopens⟩, [first], last, rfl, hlast, List.forall_mem_singleton.mpr hfirst⟩
  have hkey : IsBlockComment ["/* Key", "of a row */"] :=
    hcomment _ _ (by decide +kernel) (by decide +kernel) (by decide +kernel)
  have hcode : IsCode "private Long id;" :=
    ⟨by decide +kernel, by decide +kernel, by decide +kernel⟩
  obtain ⟨hjoin, hgap, hinsert⟩ := @declaredIn_composes sampleFront sampleBack
    (by decide +kernel) (by decide +kernel) (.block hkey (.line hcode.not_opens .nil))
  refine ⟨hjoin _ _ rfl (.block hkey .nil) hcode, hgap _ (by decide +kernel) (by decide +kernel),
    hinsert _ (by decide +kernel) (.inl ?_)⟩
  exact hcomment _ _ (by decide +kernel) (by decide +kernel) (by decide +kernel)

end SourceScout.ModelField
