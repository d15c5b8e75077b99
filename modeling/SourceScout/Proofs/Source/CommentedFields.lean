import SourceScout.Proofs.Source.FieldComments

/-!
# Comments on the line of a field

A comment behind a field belongs to it as long as no semicolon is in it. A block comment in front of
a field swallows the field.
-/

namespace SourceScout.ModelField

open Text

/-- A line that declares a field, taken alone, and has no comment on it. -/
structure DeclaresAlone (line name type : Text) : Prop where
  one_line : '\n' ∉ line
  alone : declaredIn line = [⟨name, type, []⟩]

section

variable {line name type : Text}

theorem DeclaresAlone.exists_split (h : DeclaresAlone line name type) :
    IsCode line ∧ ∃ code, Split line code [] ∧ declared? code = some (name, type) := by
  have hscan : scan (.code []) [line] = [⟨name, type, []⟩] := by
    rw [← declaredIn_unlines (List.forall_mem_singleton.mpr h.one_line)]
    exact h.alone
  have hfield : (scanLine (.code []) line).1 = some ⟨name, type, []⟩ := by
    simp only [scan, List.append_nil] at hscan
    cases hfirst : (scanLine (.code []) line).1 with
    | none => rw [hfirst] at hscan; cases hscan
    | some field => rw [hfirst] at hscan; cases hscan; rfl
  obtain ⟨waiting, hstate, hcode, hline⟩ := scanLine_eq_some_iff.mp hfield
  cases hstate
  obtain ⟨code, own, hsplit⟩ : ∃ code own, Split line code own := ⟨_, _, split_iff.mpr rfl⟩
  obtain ⟨hdeclared, hcomment⟩ := (ofLine?_eq_some_iff hsplit).mp hline
  have hown : own = [] := by
    cases own with
    | nil => rfl
    | cons c own => cases hcomment
  subst hown
  exact ⟨hcode, code, hsplit, hdeclared⟩

theorem DeclaresAlone.ofLine? (h : DeclaresAlone line name type) (waiting : Text) :
    ofLine? waiting line.strip = some ⟨name, type, waiting⟩ := by
  obtain ⟨-, code, hsplit, hdeclared⟩ := h.exists_split
  rw [ofLine?_of_split hsplit, hdeclared]
  rfl

end

def Yields (front back : List Text) (line : Text) (fields : List ModelField) : Prop :=
  declaredIn (unlines (front ++ line :: back)) =
    declaredIn (unlines front) ++ (fields ++ declaredIn (unlines back))

section

variable {front back : List Text} {line waiting : Text}

theorem Yields.unique {fields others : List ModelField} (h : Yields front back line fields)
    (h' : Yields front back line others) : fields = others :=
  List.append_cancel_right (List.append_cancel_left (h.symm.trans h'))

theorem yields_of_isCode (hfront : ∀ l ∈ front, '\n' ∉ l) (hback : ∀ l ∈ back, '\n' ∉ l)
    (hstate : stateAfter (.code []) front = .code waiting) (hline : '\n' ∉ line)
    (hcode : IsCode line) : Yields front back line (ofLine? waiting line.strip).toList := by
  have hall : ∀ l ∈ front ++ line :: back, '\n' ∉ l :=
    List.forall_mem_append.mpr ⟨hfront, List.forall_mem_cons.mpr ⟨hline, hback⟩⟩
  rw [Yields, declaredIn_unlines hall, declaredIn_unlines hfront, declaredIn_unlines hback,
    scan_append, hstate, scan, scanLine_of_isCode hcode]

end

/-! ## A comment behind the field -/

def withComment (line comment : Text) : Text := line ++ (" // " ++ comment)

section

variable {line code name type : Text}

theorem strip_of_ends (h : line = code ++ [';']) : line.strip = stripLeft code ++ [';'] := by
  have hstrip := isTight_semicolon.strip_around (List.cons_ne_nil _ _) code []
  rw [List.append_nil] at hstrip
  rw [h, hstrip]
  rfl

theorem strip_append_of_ends (h : line = code ++ [';']) (more : Text) :
    Text.strip (line ++ more) = line.strip ++ stripRight more := by
  rw [strip_of_ends h, h, List.append_assoc,
    isTight_semicolon.strip_around (List.cons_ne_nil _ _), List.append_assoc]

theorem IsCode.append (hcode : IsCode line) (h : line = code ++ [';']) (more : Text) :
    IsCode (line ++ more) := by
  have hend : ';' ∈ line.strip :=
    (mem_strip_iff rfl).mpr (h ▸ List.mem_append_right _ List.mem_cons_self)
  have hstart : ∀ {start : Text}, ';' ∉ start → start <+: Text.strip (line ++ more) →
      start <+: line.strip := by
    intro start hstart hprefix
    rw [strip_append_of_ends h] at hprefix
    rcases List.prefix_or_prefix_of_prefix hprefix (List.prefix_append _ _) with hshort | hlong
    · exact hshort
    · exact absurd (hlong.subset hend) hstart
  refine ⟨fun hopens => hcode.not_opens (hstart (by decide) hopens),
    fun hline => hcode.not_lineComment (hstart (by decide) hline), ?_⟩
  rintro (hmargin | hat)
  · exact absurd (hmargin ';' (List.mem_append_left _ ((mem_strip_iff rfl).mp hend))) (by decide)
  · exact hcode.not_keeps (.inr (hstart (by decide) hat))

theorem declared?_of_mem {code : Text} (h : '(' ∈ code) : declared? code = none := by
  rw [declared?_eq, if_pos h]

/-- More text behind the semicolon leaves the declaration as it is, or takes it away. -/
theorem DeclaresAlone.declared?_append (h : DeclaresAlone line name type)
    (hend : line = code ++ [';']) (more : Text) :
    declared? (line.strip ++ more) = if '(' ∈ more then none else some (name, type) := by
  have hplain : splitComment line.strip = (line.strip, []) := by
    rw [hend, splitComment_strip List.not_mem_nil, if_neg (by decide)]
  obtain ⟨-, other, hsplit, hdeclared⟩ := h.exists_split
  obtain rfl : line.strip = other := congrArg Prod.fst (hplain.symm.trans (split_iff.mp hsplit))
  by_cases hmore : '(' ∈ more
  · rw [if_pos hmore, declared?_of_mem (List.mem_append_right _ hmore)]
  · have hline : '\n' ∉ line.strip := fun hmem => h.one_line ((isInfix_strip line).subset hmem)
    rw [if_neg hmore, ModelField.declared?_append hline ⟨_, strip_of_ends hend⟩ hmore, hdeclared]

theorem split_withComment {comment : Text} (h : line = code ++ [';']) (hcomment : ';' ∉ comment) :
    Split (withComment line comment) line.strip comment.strip := by
  have htight : IsTight ("//" : Text) := isTight_iff.mpr (by decide)
  have hmark : Text.strip (" // " ++ comment) = "//" ++ stripRight (' ' :: comment) :=
    htight.strip_around (by decide) [' '] (' ' :: comment)
  have hafter : ';' ∉ (" // " ++ comment : Text) :=
    List.not_mem_append (by decide) hcomment
  have htext : Text.strip (stripRight (' ' :: comment)) = comment.strip := by
    rw [strip_stripRight]
    exact @strip_append_of_isMargin [' '] (by decide) comment
  rw [withComment, strip_of_ends h, h, ← htext, List.append_assoc]
  exact .commented hafter hmark

theorem split_withComment_cut {before after : Text} (h : line = code ++ [';'])
    (hafter : ';' ∉ after) :
    (∀ text, after.strip = "//" ++ text → Split (withComment line (before ++ ';' :: after))
      (line.strip ++ (" // " ++ before ++ [';'])) text.strip) ∧
    (¬("//" : Text) <+: after.strip → Split (withComment line (before ++ ';' :: after))
      (line.strip ++ stripRight (" // " ++ (before ++ ';' :: after))) []) := by
  have hcut : withComment line (before ++ ';' :: after) =
      (line ++ (" // " ++ before)) ++ ';' :: after := by
    simp only [withComment, List.append_assoc]
  constructor
  · intro text htext
    have hleft : stripLeft (line ++ (" // " ++ before)) = line.strip ++ (" // " ++ before) := by
      have hhead : ∀ c ∈ ([';'] ++ (" // " ++ before) : Text).head?, isBlank c = false := by
        rintro c ⟨⟩
        rfl
      rw [strip_of_ends h, h, List.append_assoc, stripLeft_append hhead, List.append_assoc]
    have hcode : line.strip ++ (" // " ++ before ++ [';']) =
        stripLeft (line ++ (" // " ++ before)) ++ [';'] := by
      rw [hleft]
      simp only [List.append_assoc]
    rw [hcut, hcode]
    exact .commented hafter htext
  · intro hmark
    refine split_iff.mpr ?_
    rw [← strip_append_of_ends h, ← withComment, hcut, splitComment_strip hafter, if_neg hmark]

end

section

variable {front back : List Text} {line code name type comment waiting : Text}

section

variable (hfront : ∀ l ∈ front, '\n' ∉ l) (hback : ∀ l ∈ back, '\n' ∉ l)
  (hstate : stateAfter (.code []) front = .code waiting) (hline : DeclaresAlone line name type)
  (hend : line = code ++ [';']) (hcomment : '\n' ∉ comment)

include hfront hback hstate hline hend hcomment

theorem yields_of_split {more own : Text}
    (hsplit : Split (withComment line comment) (line.strip ++ more) own) :
    Yields front back (withComment line comment)
      (if '(' ∈ more then [] else [⟨name, type, if own.isEmpty then waiting else own⟩]) := by
  obtain ⟨hcode, -⟩ := hline.exists_split
  have honeLine : '\n' ∉ withComment line comment :=
    List.not_mem_append hline.one_line (List.not_mem_append (by decide) hcomment)
  have hyields := yields_of_isCode hfront hback hstate honeLine (hcode.append hend _)
  rw [ofLine?_of_split hsplit, hline.declared?_append hend] at hyields
  by_cases hmore : '(' ∈ more
  · rwa [if_pos hmore] at hyields ⊢
  · rwa [if_neg hmore] at hyields ⊢

theorem yields_of_not_mem (hne : comment.strip ≠ []) (hsemicolon : ';' ∉ comment) :
    Yields front back (withComment line comment) [⟨name, type, comment.strip⟩] := by
  have hsplit := split_withComment hend hsemicolon
  rw [← List.append_nil line.strip] at hsplit
  have hfield := yields_of_split hfront hback hstate hline hend hcomment hsplit
  rwa [if_neg List.not_mem_nil, if_neg (by rwa [List.isEmpty_iff])] at hfield

theorem yields_of_marked {before after text : Text} (hcut : comment = before ++ ';' :: after)
    (hafter : ';' ∉ after) (htext : after.strip = "//" ++ text) :
    Yields front back (withComment line comment) (if '(' ∈ before then [] else
      [⟨name, type, if text.strip.isEmpty then waiting else text.strip⟩]) := by
  have hparen : '(' ∈ (" // " ++ before ++ [';'] : Text) ↔ '(' ∈ before := by simp
  have hsplit := (@split_withComment_cut _ _ before _ hend hafter).1 text htext
  rw [← hcut] at hsplit
  have hfield := yields_of_split hfront hback hstate hline hend hcomment hsplit
  rwa [if_congr hparen rfl rfl] at hfield

theorem yields_of_unmarked {before after : Text} (hcut : comment = before ++ ';' :: after)
    (hafter : ';' ∉ after) (hmark : ¬("//" : Text) <+: after.strip) :
    Yields front back (withComment line comment) (if '(' ∈ comment then [] else
      [⟨name, type, waiting⟩]) := by
  have hparen : '(' ∈ stripRight (" // " ++ comment : Text) ↔ '(' ∈ comment := by
    rw [← mem_strip_iff rfl, strip_stripRight, mem_strip_iff rfl, List.mem_append]
    exact or_iff_right (by decide)
  have hsplit := (@split_withComment_cut _ _ before _ hend hafter).2 hmark
  rw [← hcut] at hsplit
  have hfield := yields_of_split hfront hback hstate hline hend hcomment hsplit
  rwa [if_congr hparen rfl rfl] at hfield

theorem not_mem_of_yields (hwaiting : waiting ≠ comment.strip)
    (hfield : Yields front back (withComment line comment) [⟨name, type, comment.strip⟩]) :
    ';' ∉ comment := by
  intro hmem
  obtain ⟨before, after, hcut, hafter⟩ : ∃ before after : Text, comment = before ++ ';' :: after ∧
    ';' ∉ after := exists_cut_of_mem hmem
  by_cases hmark : ∃ text : Text, after.strip = "//" ++ text
  · obtain ⟨text, htext⟩ := hmark
    have hsame := hfield.unique
      (yields_of_marked hfront hback hstate hline hend hcomment hcut hafter htext)
    -- The semicolon is in the comment and cannot be in the text behind the last one.
    have hown : comment.strip ≠ text.strip := by
      intro heq
      have htail : ';' ∈ text.strip := heq ▸ (mem_strip_iff rfl).mpr hmem
      have hrest : ';' ∈ after.strip :=
        htext ▸ List.mem_append_right _ ((mem_strip_iff rfl).mp htail)
      exact hafter ((mem_strip_iff rfl).mp hrest)
    split at hsame
    · cases hsame
    · have heq := congrArg ModelField.comment (List.singleton_inj.mp hsame)
      dsimp only at heq
      split at heq
      · exact hwaiting heq.symm
      · exact hown heq
  · have hsame := hfield.unique
      (yields_of_unmarked hfront hback hstate hline hend hcomment hcut hafter
        fun ⟨text, htext⟩ => hmark ⟨text, htext.symm⟩)
    split at hsame
    · cases hsame
    · cases hsame
      exact hwaiting rfl

end

/-- A comment behind the field is the field's own exactly if no semicolon is in it, the case apart
where the same text waits above. With a semicolon, what stands behind the last one is taken for the
comment if it begins with `//`; all before it is taken for code, in which a parenthesis rules out
the field. -/
theorem yields_withComment (hfront : ∀ l ∈ front, '\n' ∉ l) (hback : ∀ l ∈ back, '\n' ∉ l)
    (hpassed : Passed front) (hline : DeclaresAlone line name type) (hend : line = code ++ [';'])
    (hcomment : '\n' ∉ comment) (hne : comment.strip ≠ []) :
    ∃ waiting, Yields front back line [⟨name, type, waiting⟩] ∧
      (';' ∉ comment →
        Yields front back (withComment line comment) [⟨name, type, comment.strip⟩]) ∧
      (waiting ≠ comment.strip →
        Yields front back (withComment line comment) [⟨name, type, comment.strip⟩] →
          ';' ∉ comment) ∧
      ∀ before after : Text, comment = before ++ ';' :: after → ';' ∉ after →
        (∀ text : Text, after.strip = "//" ++ text →
          Yields front back (withComment line comment) (if '(' ∈ before then [] else
            [⟨name, type, if text.strip.isEmpty then waiting else text.strip⟩])) ∧
        (¬("//" : Text) <+: after.strip →
          Yields front back (withComment line comment) (if '(' ∈ comment then [] else
            [⟨name, type, waiting⟩])) := by
  obtain ⟨waiting, hstate⟩ := hpassed.stateAfter []
  obtain ⟨hcode, -⟩ := hline.exists_split
  have hplain := yields_of_isCode hfront hback hstate hline.one_line hcode
  rw [hline.ofLine?] at hplain
  refine ⟨waiting, hplain, yields_of_not_mem hfront hback hstate hline hend hcomment hne,
    not_mem_of_yields hfront hback hstate hline hend hcomment,
    fun before after hcut hafter => ⟨?_, ?_⟩⟩
  · exact fun text => yields_of_marked hfront hback hstate hline hend hcomment hcut hafter
  · exact yields_of_unmarked hfront hback hstate hline hend hcomment hcut hafter

theorem declaresAlone_id : DeclaresAlone "private Long id;" "id" "Long" :=
  ⟨by decide +kernel, by decide +kernel⟩

theorem yields_withComment_idField :
    Yields ["// Key"] ["private int size;"] (withComment "private Long id;" "Row")
      [⟨"id", "Long", "Row"⟩] ∧
    Yields ["// Key"] ["private int size;"] (withComment "private Long id;" "Row; see (1)") [] := by
  have hpassed : Passed ["// Key"] := .line (by decide +kernel) .nil
  constructor
  · obtain ⟨waiting, -, hown, -⟩ := @yields_withComment ["// Key"] ["private int size;"]
      "private Long id;" "private Long id" "id" "Long" "Row" (by decide +kernel) (by decide +kernel)
      hpassed declaresAlone_id (by decide +kernel) (by decide +kernel) (by decide +kernel)
    exact hown (by decide +kernel)
  · obtain ⟨waiting, -, -, -, hcut⟩ := @yields_withComment ["// Key"] ["private int size;"]
      "private Long id;" "private Long id" "id" "Long" "Row; see (1)" (by decide +kernel)
      (by decide +kernel) hpassed declaresAlone_id (by decide +kernel) (by decide +kernel)
      (by decide +kernel)
    exact (hcut "Row" " see (1)" (by decide +kernel) (by decide +kernel)).2 (by decide +kernel)

theorem declaredIn_comment_with_semicolon :
    declaredIn "private int x;" = [⟨"x", "int", []⟩] ∧
      declaredIn "private int x; // a; b" = [⟨"x", "int", []⟩] ∧
      declaredIn "private int x; // a; (b)" = [] := by
  decide +kernel

end

/-! ## A block comment in front of the field -/

def blockComment (comment : Text) : Text := "/** " ++ (comment ++ " */")

section

variable {line name type : Text}

theorem isBlockComment_append (comment more : Text) :
    IsBlockComment [blockComment comment ++ more] := by
  have htight : IsTight ("/**" : Text) := isTight_iff.mpr (by decide)
  have hopens : Opens (blockComment comment ++ more) := by
    have hstrip : Text.strip (blockComment comment ++ more) =
        "/**" ++ stripRight (' ' :: (comment ++ " */") ++ more) :=
      htight.strip_around (by decide) [] (' ' :: (comment ++ " */") ++ more)
    rw [Opens, hstrip]
    exact List.IsPrefix.trans (by decide) (List.prefix_append ("/**" : Text) _)
  have hcloses : Closes (blockComment comment ++ more) := by
    have hend : (" */" : Text) <:+ blockComment comment :=
      (List.suffix_append comment " */").trans (List.suffix_append _ _)
    have hclose : ("*/" : Text) <:+ blockComment comment := List.IsSuffix.trans (by decide) hend
    exact hclose.isInfix.trans (List.prefix_append _ _).isInfix
  exact ⟨⟨_, rfl, hopens⟩, [], _, rfl, hcloses, List.forall_mem_nil _⟩

theorem one_line_blockComment {comment : Text} (h : '\n' ∉ comment) : '\n' ∉ blockComment comment :=
  List.not_mem_append (by decide) (List.not_mem_append h (by decide))

theorem declaredIn_comment_cons {first next : Text} {gap back : List Text}
    (hfirst : IsBlockComment [first]) (honeLine : '\n' ∉ first) (hgap : ∀ l ∈ gap, '\n' ∉ l)
    (hkeeps : ∀ l ∈ gap, KeepsComment l) (hback : ∀ l ∈ back, '\n' ∉ l)
    (hnext : DeclaresAlone next name type) :
    declaredIn (unlines (first :: (gap ++ next :: back))) =
      ⟨name, type, commentText [first]⟩ :: declaredIn (unlines back) := by
  have hfront : ∀ l ∈ first :: gap, '\n' ∉ l := List.forall_mem_cons.mpr ⟨honeLine, hgap⟩
  have hstate : stateAfter (.code []) (first :: gap) = .code (commentText [first]) := by
    rw [← List.singleton_append, stateAfter_append, hfirst.stateAfter,
      (run_keepsComment hkeeps _).2]
  have hnone : declaredIn (unlines (first :: gap)) = [] := by
    rw [declaredIn_unlines hfront, ← List.singleton_append, scan_append,
      (run_comment (.inl hfirst) []).1, hfirst.stateAfter, (run_keepsComment hkeeps _).1]
    rfl
  obtain ⟨hcode, -⟩ := hnext.exists_split
  have hyields := yields_of_isCode hfront hback hstate hnext.one_line hcode
  rw [hnext.ofLine?, Yields, hnone] at hyields
  exact hyields

theorem ne_mark {p : Char → Bool} (hslash : p '/' = false) (hstar : p '*' = false) {c : Char}
    (h : p c = true) : c ≠ '/' ∧ c ≠ '*' := by
  constructor
  · rintro rfl
    cases hslash.symm.trans h
  · rintro rfl
    cases hstar.symm.trans h

theorem DeclaresAlone.exists_part (h : DeclaresAlone line name type) :
    ∃ gap, IsGap gap ∧ IsTight (type ++ (gap ++ name)) ∧ type ++ (gap ++ name) <:+: line ∧
      ∀ c ∈ type ++ (gap ++ name), c ≠ '/' ∧ c ≠ '*' := by
  obtain ⟨-, code, hsplit, hdeclared⟩ := h.exists_split
  have hdeclares := declaresMember_of_declared? hdeclared
  obtain ⟨before, gap, after, hgap, hcode⟩ := hdeclares.placed
  have htype : IsTight type := isTight_iff.mpr hdeclares.type_stripped
  have hname := isSolid_of_isNameChar ⟨hdeclares.name_ne_nil, hdeclares.name_chars⟩
  refine ⟨gap, hgap, ⟨?_, ?_⟩, ?_, ?_⟩
  · rw [List.head?_append_of_ne_nil _ hdeclares.type_ne_nil]
    exact htype.head
  · rw [← List.append_assoc, List.getLast?_append_of_ne_nil _ hdeclares.name_ne_nil]
    exact fun c hc => hname.2 c (List.mem_of_getLast? hc)
  · refine List.IsInfix.trans ⟨before, after, ?_⟩ hsplit.isInfix
    rw [hcode]
    simp only [List.append_assoc]
  · simp only [List.forall_mem_append]
    exact ⟨fun c hc => ne_mark rfl rfl (hdeclares.type_chars c hc),
      fun c hc => ne_mark rfl rfl (hgap.2 c hc),
      fun c hc => ne_mark rfl rfl (hdeclares.name_chars c hc)⟩

theorem infix_commentText {part first : Text} (htight : IsTight part)
    (hchars : ∀ c ∈ part, c ≠ '/' ∧ c ≠ '*') (hfirst : Opens first) (h : part <:+: first) :
    part <:+: commentText [first] := by
  have hmark : ∀ mark : Text, mark.all (fun c => c == '/' || c == '*') = true →
      ∀ c ∈ mark, c ∉ part := by
    intro mark hall c hc hpart
    have hc' : c = '/' ∨ c = '*' := by
      simpa using List.all_eq_true.mp hall c hc
    exact hc'.elim (hchars c hpart).1 (hchars c hpart).2
  have hline : ¬IsLineComment first := fun hcomment => hcomment.not_opens hfirst
  have hopening : part <:+: commentOpening first.strip :=
    htight.infix_strip (infix_replaceFirst (by decide) (hmark _ (by decide))
      (infix_replaceFirst (by decide) (hmark _ (by decide)) (htight.infix_strip h)))
  rw [commentText, if_neg hline]
  exact htight.infix_strip (infix_replaceAll (by decide) (hmark _ (by decide)) hopening)

/-- A field behind a block comment on its line is not seen, and its declaration becomes part of the
comment of the next field. -/
theorem declaredIn_behind_blockComment {comment : Text} (hline : DeclaresAlone line name type)
    (hcomment : '\n' ∉ comment) :
    declaredIn (blockComment comment ++ ' ' :: line) = [] ∧
    (∀ (gap back : List Text) (next other otherType : Text), (∀ l ∈ gap, '\n' ∉ l) →
      (∀ l ∈ gap, KeepsComment l) → (∀ l ∈ back, '\n' ∉ l) → DeclaresAlone next other otherType →
      declaredIn (unlines ((blockComment comment ++ ' ' :: line) :: (gap ++ next :: back))) =
        ⟨other, otherType, commentText [blockComment comment ++ ' ' :: line]⟩ ::
          declaredIn (unlines back)) ∧
    (∃ gap, IsGap gap ∧
      type ++ (gap ++ name) <:+: commentText [blockComment comment ++ ' ' :: line]) ∧
    declaredIn (unlines [blockComment comment, line]) =
      [⟨name, type, commentText [blockComment comment]⟩] := by
  have hblock := isBlockComment_append comment (' ' :: line)
  have honeLine : '\n' ∉ blockComment comment ++ ' ' :: line :=
    List.not_mem_append (one_line_blockComment hcomment)
      (List.not_mem_cons_of_ne_of_not_mem (by decide) hline.one_line)
  refine ⟨?_, ?_, ?_, ?_⟩
  · have hnone := (run_comment (.inl hblock) []).1
    rwa [← declaredIn_unlines (List.forall_mem_singleton.mpr honeLine)] at hnone
  · intro gap back next other otherType hgap hkeeps hback hnext
    exact declaredIn_comment_cons hblock honeLine hgap hkeeps hback hnext
  · obtain ⟨gap, hgap, htight, hpart, hchars⟩ := hline.exists_part
    obtain ⟨first, hfirst, hopens⟩ := hblock.opens
    cases hfirst
    refine ⟨gap, hgap, infix_commentText htight hchars hopens ?_⟩
    exact hpart.trans (List.suffix_cons _ _ |>.trans (List.suffix_append _ _)).isInfix
  · have halone := isBlockComment_append comment []
    rw [List.append_nil] at halone
    exact declaredIn_comment_cons halone (one_line_blockComment hcomment) (List.forall_mem_nil _)
      (List.forall_mem_nil _) (List.forall_mem_nil _) hline

theorem declaredIn_behind_blockComment_idField :
    declaredIn (blockComment "Key" ++ ' ' :: "private Long id;") = [] ∧
      declaredIn (unlines [blockComment "Key" ++ ' ' :: "private Long id;", "private int size;"]) =
        [⟨"size", "int", commentText [blockComment "Key" ++ ' ' :: "private Long id;"]⟩] := by
  have hsize : DeclaresAlone "private int size;" "size" "int" :=
    ⟨by decide +kernel, by decide +kernel⟩
  have hcomment : '\n' ∉ ("Key" : Text) := by decide +kernel
  obtain ⟨hnone, hnext, -, -⟩ := declaredIn_behind_blockComment declaresAlone_id hcomment
  exact ⟨hnone, hnext [] [] _ _ _ (List.forall_mem_nil _) (List.forall_mem_nil _)
    (List.forall_mem_nil _) hsize⟩

theorem declaredIn_field_taken_for_comment :
    declaredIn "private Long id;" = [⟨"id", "Long", []⟩] ∧
      declaredIn "/** Key */ private Long id;" = [] ∧
      declaredIn "/** Key */ private Long id;\nprivate int size;" =
        [⟨"size", "int", "Key  private Long id;"⟩] := by
  decide +kernel

end

end SourceScout.ModelField
