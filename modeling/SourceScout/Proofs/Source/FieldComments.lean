import SourceScout.Proofs.Project.DistinctNames
import SourceScout.Proofs.Source.FieldDeclarations
import SourceScout.Proofs.Source.ModelFieldScan

/-!
# Where model fields and their comments come from

Each field stands on a line of code, outside of every block comment. Its comment is the one on its
own line, else the one that ends above it with nothing but blank lines and annotations between. So a
comment above belongs to one field at most.
-/

namespace SourceScout.ModelField

open Text

/-! ## The comment on the line itself -/

/-- Code and comment of a line: what follows the last `;` is a comment if it begins with `//`. -/
inductive Split : Text → Text → Text → Prop
  | commented {before after text : Text} (hlast : ';' ∉ after)
      (hmark : after.strip = "//" ++ text) :
      Split (before ++ ';' :: after) (stripLeft before ++ [';']) text.strip
  | plain {line : Text} (hplain : ∀ before after : Text, line = before ++ ';' :: after →
      ';' ∉ after → ¬("//" : Text) <+: after.strip) : Split line line.strip []

theorem splitComment_of_not_mem {line : Text} (h : ';' ∉ line) :
    splitComment line = (line, []) := by
  rw [splitComment, cutLast?_eq_none h]

theorem isTight_semicolon : IsTight [';'] := isTight_iff.mpr rfl

theorem splitComment_strip {before after : Text} (h : ';' ∉ after) :
    splitComment (Text.strip (before ++ ';' :: after)) =
      if ("//" : Text) <+: after.strip then
        (stripLeft before ++ [';'], Text.strip (after.strip.drop 2))
      else (Text.strip (before ++ ';' :: after), []) := by
  have hstrip : Text.strip (before ++ ';' :: after) = stripLeft before ++ ';' :: stripRight after :=
    isTight_semicolon.strip_around (List.cons_ne_nil _ _) before after
  have hafter : ';' ∉ stripRight after := fun hmem =>
    h ((List.rdropWhile_prefix isBlank after).subset hmem)
  rw [hstrip, splitComment, cutLast?_eq_some hafter]
  simp only [strip_stripRight, startsWith_iff]

theorem split_iff {line code own : Text} :
    Split line code own ↔ splitComment line.strip = (code, own) := by
  constructor
  · rintro (⟨hlast, hmark⟩ | hplain)
    · rw [splitComment_strip hlast, if_pos (hmark ▸ List.prefix_append _ _), hmark]
      rfl
    · by_cases hmem : ';' ∈ line
      · obtain ⟨before, after, rfl, hafter⟩ := exists_cut_of_mem hmem
        rw [splitComment_strip hafter, if_neg (hplain before after rfl hafter)]
      · exact splitComment_of_not_mem fun h => hmem ((mem_strip_iff rfl).mp h)
  · intro h
    by_cases hmem : ';' ∈ line
    · obtain ⟨before, after, rfl, hafter⟩ := exists_cut_of_mem hmem
      rw [splitComment_strip hafter] at h
      split at h
      · rename_i hmark
        obtain ⟨text, htext⟩ := hmark
        obtain ⟨rfl, rfl⟩ := Prod.mk.inj h
        rw [← htext]
        exact .commented hafter htext.symm
      · rename_i hmark
        obtain ⟨rfl, rfl⟩ := Prod.mk.inj h
        refine .plain fun other rest heq hrest => ?_
        have hsame := congrArg (afterLast ';') heq
        rw [afterLast_append hafter, afterLast_append hrest] at hsame
        rwa [← hsame]
    · rw [splitComment_of_not_mem fun h => hmem ((mem_strip_iff rfl).mp h)] at h
      obtain ⟨rfl, rfl⟩ := Prod.mk.inj h
      refine .plain fun before after heq => ?_
      exact absurd (heq ▸ List.mem_append_right _ List.mem_cons_self) hmem

theorem Split.isInfix {line code own : Text} (h : Split line code own) : code <:+: line := by
  cases h with
  | @commented before after text hlast hmark =>
    obtain ⟨margin, hmargin⟩ : stripLeft before <:+ before := List.dropWhile_suffix isBlank
    refine ⟨margin, after, ?_⟩
    rw [← List.append_assoc, hmargin, List.append_assoc]
    rfl
  | plain => exact isInfix_strip line

theorem ofLine?_of_split {line code own : Text} (h : Split line code own) (waiting : Text) :
    ofLine? waiting line.strip = (declared? code).map fun found =>
      ⟨found.1, found.2, if own.isEmpty then waiting else own⟩ := by
  rw [ofLine?, split_iff.mp h]

/-! ## Comments in front of a line -/

def IsComment (comment : List Text) : Prop :=
  IsBlockComment comment ∨ ∃ line, comment = [line] ∧ IsLineComment line

def commentText : List Text → Text
  | [] => []
  | [line] =>
    if IsLineComment line then Text.strip (line.strip.drop 2)
    else (replaceAll "*/" [] (commentOpening line.strip)).strip
  | first :: rest =>
    joinComment (commentOpening first.strip :: rest.map fun line => commentLine line.strip)

theorem commentText_cons (first : Text) {rest : List Text} (h : rest ≠ []) :
    commentText (first :: rest) =
      joinComment (commentOpening first.strip :: rest.map fun line => commentLine line.strip) := by
  cases rest with
  | nil => exact absurd rfl h
  | cons next rest => rfl

theorem joinComment_singleton (piece : Text) : joinComment [piece] = piece := by
  cases piece <;> rfl

theorem stateAfter_open {ls : List Text} (h : ∀ line ∈ ls, ¬Closes line) (pieces : List Text) :
    stateAfter (.comment pieces) ls =
      .comment (pieces ++ ls.map fun line => commentLine line.strip) := by
  induction ls generalizing pieces with
  | nil => rw [List.map_nil, List.append_nil]; rfl
  | cons line ls ih =>
    obtain ⟨hline, hrest⟩ := List.forall_mem_cons.mp h
    rw [stateAfter_cons, scanLine_inside, if_neg hline, ih hrest, List.append_assoc]
    rfl

theorem IsBlockComment.stateAfter {comment : List Text} (h : IsBlockComment comment)
    (waiting : Text) : stateAfter (.code waiting) comment = .code (commentText comment) := by
  obtain ⟨front, last, rfl, hlast, hfront⟩ := h.closes
  obtain ⟨first, hfirst, hopens⟩ := h.opens
  cases front with
  | nil =>
    cases Option.some.inj hfirst
    have hline : ¬IsLineComment last := fun hcomment => hcomment.not_opens hopens
    rw [List.nil_append, stateAfter_cons, scanLine_of_opens hopens, if_pos hlast,
      joinComment_singleton, commentText, if_neg hline]
    rfl
  | cons first' middle =>
    cases Option.some.inj hfirst
    obtain ⟨hopen, hmiddle⟩ := List.forall_mem_cons.mp hfront
    rw [List.cons_append, stateAfter_cons, scanLine_of_opens hopens, if_neg hopen,
      stateAfter_append, stateAfter_open hmiddle, stateAfter_cons, scanLine_inside, if_pos hlast,
      commentText_cons first (List.append_ne_nil_of_right_ne_nil _ (List.cons_ne_nil _ _)),
      List.map_append]
    rfl

theorem IsComment.stateAfter {comment : List Text} (h : IsComment comment) (waiting : Text) :
    stateAfter (.code waiting) comment = .code (commentText comment) := by
  rcases h with hblock | ⟨line, rfl, hline⟩
  · exact hblock.stateAfter waiting
  · rw [stateAfter_cons, scanLine_of_lineComment hline, commentText, if_pos hline]
    rfl

/-- A comment is the last thing in front of a line, blank lines and annotations apart. -/
structure CommentBefore (before front comment : List Text) : Prop where
  passed : Passed front
  isComment : IsComment comment
  gap : ∃ gap, before = front ++ comment ++ gap ∧ ∀ line ∈ gap, KeepsComment line

theorem CommentBefore.stateAfter {before front comment : List Text}
    (h : CommentBefore before front comment) :
    stateAfter (.code []) before = .code (commentText comment) := by
  obtain ⟨waiting, hfront⟩ := h.passed.stateAfter []
  obtain ⟨gap, rfl, hgap⟩ := h.gap
  rw [stateAfter_append, stateAfter_append, hfront, h.isComment.stateAfter,
    (run_keepsComment hgap _).2]

structure IsOpen (before front : List Text) (first : Text) (middle : List Text) : Prop where
  eq : before = front ++ first :: middle
  passed : Passed front
  opens : Opens first
  not_closes : ∀ line ∈ first :: middle, ¬Closes line

theorem IsOpen.stateAfter {before front middle : List Text} {first : Text}
    (h : IsOpen before front first middle) :
    stateAfter (.code []) before =
      .comment (commentOpening first.strip :: middle.map fun line => commentLine line.strip) := by
  obtain ⟨rfl, hpassed, hopens, hnone⟩ := h
  obtain ⟨hfirst, hmiddle⟩ := List.forall_mem_cons.mp hnone
  obtain ⟨waiting, hfront⟩ := hpassed.stateAfter []
  rw [stateAfter_append, hfront, stateAfter_cons, scanLine_of_opens hopens, if_neg hfirst,
    stateAfter_open hmiddle]
  rfl

theorem scanLine_eq_some_iff {state : ScanState} {line : Text} {field : ModelField} :
    (scanLine state line).1 = some field ↔
      ∃ waiting, state = .code waiting ∧ IsCode line ∧ ofLine? waiting line.strip = some field := by
  constructor
  · intro h
    cases state with
    | comment pieces => rw [scanLine_inside] at h; cases h
    | code waiting =>
      rcases line_kinds line with hopens | hline | hkeeps | hcode
      · rw [scanLine_of_opens hopens] at h; cases h
      · rw [scanLine_of_lineComment hline] at h; cases h
      · rw [scanLine_of_keepsComment hkeeps] at h; cases h
      · rw [scanLine_of_isCode hcode] at h
        exact ⟨waiting, rfl, hcode, h⟩
  · rintro ⟨waiting, rfl, hcode, h⟩
    rw [scanLine_of_isCode hcode]
    exact h

theorem ofLine?_eq_some_iff {line code own waiting : Text} {field : ModelField}
    (h : Split line code own) : ofLine? waiting line.strip = some field ↔
      declared? code = some (field.name, field.type) ∧
        field.comment = if own.isEmpty then waiting else own := by
  rw [ofLine?_of_split h, Option.map_eq_some_iff]
  constructor
  · rintro ⟨⟨name, type⟩, hdeclared, rfl⟩
    exact ⟨hdeclared, rfl⟩
  · rintro ⟨hdeclared, hcomment⟩
    exact ⟨_, hdeclared, by rw [← hcomment]⟩

theorem CommentBefore.length_le {ls front comment : List Text} {k : Nat}
    (h : CommentBefore (ls.take k) front comment) : front.length ≤ k := by
  obtain ⟨gap, hlines, -⟩ := h.gap
  have hlength := congrArg List.length hlines
  rw [List.length_append, List.length_append, List.length_take] at hlength
  omega

end SourceScout.ModelField
