import SourceScout.Proofs.Source.ImportNames

/-!
# Package declarations behind a header

The package of a text is the first thing in it that looks like a declaration, and a comment in front
of the real declaration can look like one: it only has to mention the keyword with a blank behind
it. Then the name starts in the comment and ends at the next semicolon.
-/

namespace SourceScout.Package

open Pattern Place Statement

theorem declaration_eq : declaration = Statement.pattern "package" := rfl

theorem declared?_eq (content : Text) :
    declared? content = (mention? "package" content).bind read? := by
  rw [declared?, search?, start_eq_behind, declaration_eq]
  exact map_searchFrom? (by decide) [] content

section

variable {name : Text} (hname : Import.IsStatementName name) (header rest : Text)

include hname

theorem mention?_statement : mention? "package" (Import.statement "package" name ++ rest) =
    some (' ' :: (name ++ ';' :: '\n' :: rest)) := by
  have hopens : opens "package" ("package" ++ ' ' :: (name ++ ';' :: '\n' :: rest)) = true := by
    refine opens_iff.mpr ⟨' ', _, rfl, ?_, rfl⟩
    obtain ⟨c, cs, rfl⟩ := List.exists_cons_of_ne_nil hname.ne_nil
    rintro ⟨⟩
    exact hname.no_end List.mem_cons_self
  have htext : Import.statement "package" name ++ rest =
      "package" ++ ' ' :: (name ++ ';' :: '\n' :: rest) := by
    simp [Import.statement]
  rw [htext]
  exact if_pos hopens

theorem mention?_append_statement :
    mention? "package" (header ++ Import.statement "package" name ++ rest) =
      ((mention? "package" header).map (· ++ (Import.statement "package" name ++ rest))).or
        (some (' ' :: (name ++ ';' :: '\n' :: rest))) := by
  rw [← mention?_statement hname, List.append_assoc]
  exact @mention?_append 'p' _ (by decide) (by decide) (by decide) header _

theorem declared?_of_not_mentioned (h : mention? "package" header = none) :
    declared? (header ++ Import.statement "package" name ++ rest) = some name := by
  have hspace : Text.IsMargin [' '] := by decide
  have hend : ';' ∉ ' ' :: name := by
    rw [List.mem_cons, not_or]
    exact ⟨by decide, hname.no_end⟩
  rw [declared?_eq, mention?_append_statement hname, h]
  change read? (' ' :: name ++ ';' :: '\n' :: rest) = some name
  rw [read?_append hend]
  exact congrArg some ((Text.strip_append_of_isMargin hspace name).trans hname.stripped)

theorem declared?_of_declared {other : Text} (h : declared? header = some other) :
    declared? (header ++ Import.statement "package" name ++ rest) = some other := by
  rw [declared?_eq] at h
  obtain ⟨right, hmention, hread⟩ := Option.bind_eq_some_iff.mp h
  have hmem : ';' ∈ right := by
    by_contra hno
    rw [read?_eq_none hno] at hread
    cases hread
  obtain ⟨body, after, rfl, hbody⟩ := List.eq_append_cons_of_mem hmem
  rw [read?_append hbody] at hread
  rw [declared?_eq, mention?_append_statement hname, hmention, Option.map_some, Option.some_or,
    Option.bind_some, List.append_assoc, List.cons_append, read?_append hbody, hread]

theorem declared?_of_open_mention {right : Text} (hmention : mention? "package" header = some right)
    (hopen : ';' ∉ right) :
    declared? (header ++ Import.statement "package" name ++ rest) =
      some (Text.strip (right ++ ("package " ++ name))) := by
  have hend : ';' ∉ right ++ ("package " ++ name) := by
    simp only [List.mem_append, not_or]
    exact ⟨hopen, by decide, hname.no_end⟩
  have htext : right ++ (Import.statement "package" name ++ rest) =
      (right ++ ("package " ++ name)) ++ ';' :: '\n' :: rest := by
    simp [Import.statement]
  rw [declared?_eq, mention?_append_statement hname, hmention, Option.map_some, Option.some_or,
    Option.bind_some, htext, read?_append hend]

omit hname in
theorem declared?_eq_none_of_open_mention {right : Text}
    (hmention : mention? "package" header = some right) (hopen : ';' ∉ right) :
    declared? header = none := by
  rw [declared?_eq, hmention, Option.bind_some, read?_eq_none hopen]

theorem strip_append_ne (right : Text) : Text.strip (right ++ ("package " ++ name)) ≠ name := by
  have hstrip := (Text.isTight_iff.mpr hname.stripped).strip_around hname.ne_nil
    (right ++ ("package " : Text)) []
  rw [List.append_nil, List.append_assoc] at hstrip
  intro heq
  have hnil : Text.stripLeft (right ++ ("package " : Text)) ++ name = name := by
    rw [hstrip] at heq
    simpa [Text.stripRight, Text.dropEndWhile] using heq
  -- the keyword in front of the name is not stripped away
  have hblank : isBlank 'p' = true :=
    List.dropWhile_eq_nil_iff.mp (List.append_left_eq_self.mp hnil) 'p'
      (List.mem_append_right _ List.mem_cons_self)
  exact absurd hblank (by decide)

/-- The name is read from its declaration if and only if the header does not mention the keyword
with a blank behind it (one blank in front of a semicolon does not count), or declares the same
name. A declaration in the header is the one that is read; a mention without a semicolon behind it
takes the real declaration along. -/
theorem declared?_behind_header :
    (declared? (header ++ Import.statement "package" name ++ rest) = some name ↔
      (∀ left c right, isBlank c = true → header = left ++ ("package" ++ c :: right) →
        right.head? = some ';') ∨ declared? header = some name) ∧
    (∀ other, declared? header = some other →
      declared? (header ++ Import.statement "package" name ++ rest) = some other) ∧
    (declared? header = none → ∀ right, mention? "package" header = some right →
      declared? (header ++ Import.statement "package" name ++ rest) =
        some (Text.strip (right ++ ("package " ++ name)))) := by
  rw [← mention?_eq_none_iff]
  cases hmention : mention? "package" header with
  | none =>
    have hnone : declared? header = none := by
      rw [declared?_eq, hmention]
      rfl
    rw [declared?_of_not_mentioned hname header rest hmention, hnone]
    refine ⟨iff_of_true rfl (.inl rfl), ?_, ?_⟩
    · rintro other ⟨⟩
    · rintro - right ⟨⟩
  | some right =>
    by_cases hend : ';' ∈ right
    · have hsome : ∃ other, declared? header = some other := by
        rw [declared?_eq, hmention, Option.bind_some, read?, if_pos hend]
        exact ⟨_, rfl⟩
      obtain ⟨other, hother⟩ := hsome
      rw [declared?_of_declared hname header rest hother, hother]
      refine ⟨⟨.inr, fun h => h.resolve_left (Option.some_ne_none right)⟩, fun _ h => h, ?_⟩
      rintro ⟨⟩
    · rw [declared?_of_open_mention hname header rest hmention hend,
        declared?_eq_none_of_open_mention header hmention hend]
      refine ⟨iff_of_false ?_ ?_, ?_, ?_⟩
      · exact fun h => strip_append_ne hname right (Option.some.inj h)
      · rintro (h | h) <;> cases h
      · rintro other ⟨⟩
      · rintro - behind ⟨⟩
        rfl

end

theorem declared?_behind_header_harmless :
    Import.IsStatementName "com.acme" ∧
      declared? ("// packages, repackaged\n/* a package ;\n */\n" ++
        Import.statement "package" "com.acme" ++ "class A;") = some "com.acme" := by
  have hname : Import.IsStatementName "com.acme" := ⟨by decide, by decide, by decide +kernel⟩
  refine ⟨hname, (declared?_behind_header hname _ _).1.mpr (.inl ?_)⟩
  rw [← mention?_eq_none_iff]
  decide +kernel

/-- A remark about packages is read as the name of one. -/
theorem declared?_from_remark :
    declared? "// One package per layer.\npackage com.acme;\n" =
      some "per layer.\npackage com.acme" := by decide +kernel

end SourceScout.Package
