import SourceScout.Proofs.Text.Margins
import SourceScout.Source.TypeName

/-!
# Type expressions and what is seen of their arguments

A type is a name with types as its arguments, and it is written with blanks around its parts as one
likes. Whether it looks like a collaborator is read off its text only. The name is found whatever
stands between the brackets; of the arguments only what stands before the first closing bracket is
seen. So an argument without arguments is judged as it should be, and an argument with arguments of
its own is always taken for a collaborator.
-/

namespace SourceScout

namespace TypeName

open Text

/-! ## Runs of blanks made one space -/

theorem collapseBlanks_append_cons {c : Char} (hc : isBlank c = false) (left right : Text) :
    collapseBlanks (left ++ c :: right) = collapseBlanks left ++ c :: collapseBlanks right := by
  induction left with
  | nil => simp [collapseBlanks, hc]
  | cons d left ih =>
    have hnext : ((left ++ c :: right).head?.map isBlank).getD false =
        (left.head?.map isBlank).getD false := by
      cases left <;> simp [hc]
    simp only [List.cons_append, collapseBlanks, ih, hnext]
    split
    · split <;> rfl
    · rfl

theorem mem_collapseBlanks_iff {c : Char} (hc : isBlank c = false) {t : Text} :
    c ∈ collapseBlanks t ↔ c ∈ t := by
  fun_induction collapseBlanks t with
  | case1 => rfl
  | case2 d cs hd _ ih =>
    have hne : c ≠ d := by rintro rfl; simp [hd] at hc
    simp [ih, hne]
  | case3 d cs hd _ ih =>
    have hne : c ≠ d := by rintro rfl; simp [hd] at hc
    have hspace : c ≠ ' ' := by rintro rfl; exact absurd hc (by decide)
    simp [ih, hne, hspace]
  | case4 d cs _ ih => simp [ih]

theorem isMargin_collapseBlanks {margin : Text} (h : IsMargin margin) :
    IsMargin (collapseBlanks margin) := by
  intro c hmem
  cases hc : isBlank c with
  | true => rfl
  | false =>
    have hblank := h c ((mem_collapseBlanks_iff hc).mp hmem)
    rw [hc] at hblank
    exact hblank

theorem collapseBlanks_append_word {word : Text} (hword : ∀ c ∈ word, isBlank c = false)
    (hne : word ≠ []) (left right : Text) :
    collapseBlanks (left ++ (word ++ right)) =
      collapseBlanks left ++ (word ++ collapseBlanks right) := by
  induction word generalizing left with
  | nil => exact absurd rfl hne
  | cons c word ih =>
    obtain ⟨hc, hrest⟩ := List.forall_mem_cons.mp hword
    rw [List.cons_append, collapseBlanks_append_cons hc]
    by_cases hempty : word = []
    · rw [hempty]
      rfl
    · have hinner := ih hrest hempty []
      rw [List.nil_append] at hinner
      rw [hinner]
      rfl

theorem words_collapseBlanks {t word : Text} (h : words t = [word]) :
    words (collapseBlanks t) = [word] := by
  obtain ⟨margin, rest, hmargin, rfl, hsolid, -, hrest⟩ := exists_of_words_eq_cons h
  rw [collapseBlanks_append_word hsolid.2 hsolid.1,
    words_blanks_append (isMargin_collapseBlanks hmargin)]
  exact words_solid_append_blanks hsolid (isMargin_collapseBlanks (isBlank_of_words_eq_nil hrest))

theorem newline_not_mem_collapseBlanks (t : Text) : '\n' ∉ collapseBlanks t := by
  fun_induction collapseBlanks t with
  | case1 => simp
  | case2 c cs hc _ ih => exact ih
  | case3 c cs hc _ ih => simp [ih]
  | case4 c cs hc ih =>
    have hne : '\n' ≠ c := by rintro rfl; exact hc (by decide)
    simp [ih, hne]

theorem collapseBlanks_join {sep : Char} (hsep : isBlank sep = false) (pieces : List Text) :
    collapseBlanks (join [sep] pieces) = join [sep] (pieces.map collapseBlanks) := by
  induction pieces with
  | nil => rfl
  | cons piece pieces ih =>
    cases pieces with
    | nil => rfl
    | cons next rest =>
      have hne : (next :: rest).map collapseBlanks ≠ [] := by simp
      rw [join_cons_of_ne_nil _ _ (List.cons_ne_nil next rest), List.map_cons,
        join_cons_of_ne_nil _ _ hne, ← ih, List.append_assoc, List.append_assoc]
      exact collapseBlanks_append_cons hsep piece _

theorem splitOn_collapseBlanks {sep : Char} (hsep : isBlank sep = false) (t : Text) :
    splitOn sep (collapseBlanks t) = (splitOn sep t).map collapseBlanks := by
  have hpieces : ∀ piece ∈ (splitOn sep t).map collapseBlanks, sep ∉ piece := by
    intro piece hpiece
    obtain ⟨part, hpart, rfl⟩ := List.mem_map.mp hpiece
    rw [mem_collapseBlanks_iff hsep]
    exact not_mem_of_mem_splitOn hpart
  have hne : (splitOn sep t).map collapseBlanks ≠ [] := by simp [splitOn_ne_nil]
  rw [← splitOn_join hne hpieces, ← collapseBlanks_join hsep, join_splitOn]

/-! ## What is stripped and what is cut out -/

theorem stripGenerics_of_line {t : Text} (h : '\n' ∉ t) :
    stripGenerics t = (stripLine t).strip := by
  have hlines : t.lines = [t] := splitOn_join (List.cons_ne_nil t []) (by simpa using h)
  rw [stripGenerics, hlines]
  rfl

theorem cutFirst?_eq_some {sep : Char} {before : Text} (h : sep ∉ before) (after : Text) :
    cutFirst? [sep] (before ++ sep :: after) = some (before, after) := by
  induction before with
  | nil => simp [cutFirst?, List.isPrefixOf]
  | cons c before ih =>
    have hc := List.ne_of_not_mem_cons h
    have hrest := List.not_mem_of_not_mem_cons h
    rw [List.cons_append, cutFirst?, ih hrest]
    simp [List.isPrefixOf, hc]

theorem cutFirst?_eq_none {sep : Char} {t : Text} (h : sep ∉ t) : cutFirst? [sep] t = none := by
  induction t with
  | nil => rfl
  | cons c t ih =>
    have hc := List.ne_of_not_mem_cons h
    have hrest := List.not_mem_of_not_mem_cons h
    rw [cutFirst?, ih hrest]
    simp [List.isPrefixOf, hc]

theorem stripLine_of_not_mem {t : Text} (h : '>' ∉ t) : stripLine t = t := by
  by_cases hopen : '<' ∈ t
  · obtain ⟨before, inside, rfl, hbefore⟩ := List.eq_append_cons_of_mem hopen
    have hinside : '>' ∉ inside := fun hmem => h (by simp [hmem])
    rw [stripLine, cutFirst?_eq_some hbefore]
    simp only [cutLast?_eq_none hinside]
  · rw [stripLine, cutFirst?_eq_none hopen]

theorem stripLine_brackets {before after : Text} (hbefore : '<' ∉ before) (hafter : '>' ∉ after)
    (inside : Text) : stripLine (before ++ '<' :: (inside ++ '>' :: after)) = before ++ after := by
  rw [stripLine, cutFirst?_eq_some hbefore]
  simp only [cutLast?_eq_some hafter]

theorem takeWhile_append_of_not_mem {c : Char} {left : Text} (h : c ∉ left) (right : Text) :
    (left ++ right).takeWhile (· != c) = left ++ right.takeWhile (· != c) := by
  apply List.takeWhile_append_of_pos
  intro d hd
  have hne : d ≠ c := by
    rintro rfl
    exact h hd
  simpa using hne

theorem argument?_of_not_mem {t : Text} (h : '>' ∉ t) : argument? t = none := by
  induction t with
  | nil => rfl
  | cons c t ih =>
    have hrest := List.not_mem_of_not_mem_cons h
    have htake := takeWhile_append_of_not_mem hrest []
    rw [List.append_nil, List.takeWhile_nil, List.append_nil] at htake
    simp [argument?, htake, ih hrest]

theorem argument?_brackets {before inside : Text} (hbefore : '<' ∉ before) (hne : inside ≠ [])
    (hinside : '>' ∉ inside) (after : Text) :
    argument? (before ++ '<' :: (inside ++ '>' :: after)) = some inside := by
  induction before with
  | nil => simp [argument?, takeWhile_append_cons hinside, hne]
  | cons c before ih =>
    have hc := List.ne_of_not_mem_cons hbefore
    have hrest := List.not_mem_of_not_mem_cons hbefore
    rw [List.cons_append, argument?, ih hrest]
    simp [Ne.symm hc]

/-! ## Texts without a closing bracket -/

theorem isLikelyInjected_eq (t : Text) : isLikelyInjected t =
    (!scalars.contains (stripGenerics (collapseBlanks t)) &&
      (!containers.contains (stripGenerics (collapseBlanks t)) ||
        match argument? (collapseBlanks t) with
        | none => false
        | some inside => (splitOn ',' inside).any fun part => isLikelyInjected part.strip)) := by
  rw [isLikelyInjected]
  cases scalars.contains (stripGenerics (collapseBlanks t)) with
  | true => rfl
  | false =>
    cases containers.contains (stripGenerics (collapseBlanks t)) with
    | false => rfl
    | true =>
      simp only [Bool.false_eq_true, if_false, if_true, Bool.not_false, Bool.not_true,
        Bool.true_and, Bool.false_or]
      split
      · rename_i hnone
        simp only [hnone]
      · rename_i inside hsome
        simp only [hsome]
        simp

theorem isLikelyInjected_of_not_mem {t : Text} (h : '>' ∉ t) : isLikelyInjected t =
    (!scalars.contains (collapseBlanks t).strip &&
      !containers.contains (collapseBlanks t).strip) := by
  have hclose : '>' ∉ collapseBlanks t := fun hmem =>
    h ((mem_collapseBlanks_iff (by decide)).mp hmem)
  rw [isLikelyInjected_eq, argument?_of_not_mem hclose,
    stripGenerics_of_line (newline_not_mem_collapseBlanks t), stripLine_of_not_mem hclose,
    Bool.or_false]

theorem isLikelyInjected_of_words {t name : Text} (h : '>' ∉ t) (hname : words t = [name]) :
    isLikelyInjected t = (!scalars.contains name && !containers.contains name) := by
  rw [isLikelyInjected_of_not_mem h, strip_of_words (words_collapseBlanks hname)]

theorem isLikelyInjected_of_open {t : Text} (h : '>' ∉ t) (hopen : '<' ∈ t) :
    isLikelyInjected t = true := by
  have hplain : ((scalars ++ containers).all fun name => !name.contains '<') = true := by
    decide +kernel
  have hmem : '<' ∈ (collapseBlanks t).strip :=
    (mem_strip_iff (by decide)).mpr ((mem_collapseBlanks_iff (by decide)).mpr hopen)
  have hnot : (collapseBlanks t).strip ∉ scalars ++ containers := by
    intro hname
    have hfree := List.all_eq_true.mp hplain _ hname
    simp [hmem] at hfree
  rw [List.mem_append, not_or] at hnot
  rw [isLikelyInjected_of_not_mem h]
  simp [hnot]

/-! ## Texts with brackets -/

theorem isLikelyInjected_brackets {before body after inside name : Text}
    (hname : words before = [name]) (hbefore : '<' ∉ before) (hafter : IsMargin after)
    (hinside : (body ++ '>' :: after).takeWhile (· != '>') = inside)
    (hsolid : ∃ c ∈ inside, isBlank c = false) :
    isLikelyInjected (before ++ '<' :: (body ++ '>' :: after)) =
      (!scalars.contains name && (!containers.contains name ||
        (splitOn ',' inside).any fun part => isLikelyInjected (collapseBlanks part).strip)) := by
  have hmem : '>' ∈ body ++ '>' :: after := List.mem_append_right body List.mem_cons_self
  obtain ⟨first, rest, hcut, hfirst⟩ := List.eq_append_cons_of_mem hmem
  have hopen : '<' ∉ collapseBlanks before :=
    fun hmem => hbefore ((mem_collapseBlanks_iff (by decide)).mp hmem)
  have hmargin := isMargin_collapseBlanks hafter
  have hclose : '>' ∉ collapseBlanks after := fun hmem => absurd (hmargin _ hmem) (by decide)
  rw [hcut, takeWhile_append_cons hfirst] at hinside
  subst hinside
  have hbase : stripGenerics (collapseBlanks (before ++ '<' :: (body ++ '>' :: after))) = name := by
    rw [stripGenerics_of_line (newline_not_mem_collapseBlanks _),
      collapseBlanks_append_cons (by decide), collapseBlanks_append_cons (by decide),
      stripLine_brackets hopen hclose]
    apply strip_of_words
    rw [words_append_margin _ hmargin, words_collapseBlanks hname]
  have hargument :
      argument? (collapseBlanks (before ++ '<' :: (body ++ '>' :: after))) =
        some (collapseBlanks first) := by
    obtain ⟨c, hc, hblank⟩ := hsolid
    rw [hcut, collapseBlanks_append_cons (by decide), collapseBlanks_append_cons (by decide)]
    apply argument?_brackets hopen
    · exact List.ne_nil_of_mem ((mem_collapseBlanks_iff hblank).mpr hc)
    · exact fun hmem => hfirst ((mem_collapseBlanks_iff (by decide)).mp hmem)
  rw [isLikelyInjected_eq, hbase, hargument]
  simp only [splitOn_collapseBlanks (show isBlank ',' = false by decide), List.any_map]
  rfl

end TypeName

/-! ## Types as trees -/

def isTypeNameChar (c : Char) : Bool := !isBlank c && c != '<' && c != '>' && c != ','

namespace TypeExpr

structure Name where
  text : Text
  ne_nil : text ≠ []
  plain : text.all isTypeNameChar = true

structure Margin where
  text : Text
  blank : Text.IsMargin text

end TypeExpr

/-- A type as it is written: its name, its arguments, and the blanks before the name, behind it and
at the end. -/
inductive TypeExpr where
  | mk (before : TypeExpr.Margin) (name : TypeExpr.Name) (gap : TypeExpr.Margin)
      (args : List TypeExpr) (after : TypeExpr.Margin)

namespace TypeExpr

open Text SourceScout.TypeName

def name : TypeExpr → Text
  | .mk _ name _ _ _ => name.text

def args : TypeExpr → List TypeExpr
  | .mk _ _ _ args _ => args

def bracketed : List Text → Text
  | [] => []
  | texts => '<' :: (join [','] texts ++ ['>'])

mutual
def toText : TypeExpr → Text
  | .mk before name gap args after =>
    before.text ++ (name.text ++ (gap.text ++ (bracketed (argumentTexts args) ++ after.text)))

def argumentTexts : List TypeExpr → List Text
  | [] => []
  | arg :: rest => arg.toText :: argumentTexts rest
end

mutual
/-- Whether a type stands for a collaborator: a scalar does not, and a container does if one of its
arguments does. -/
def isCollaborator : TypeExpr → Bool
  | .mk _ name _ args _ =>
    !scalars.contains name.text && (!containers.contains name.text || anyCollaborator args)

def anyCollaborator : List TypeExpr → Bool
  | [] => false
  | arg :: rest => arg.isCollaborator || anyCollaborator rest
end

theorem argumentTexts_eq (args : List TypeExpr) : argumentTexts args = args.map toText := by
  induction args with
  | nil => rfl
  | cons arg rest ih => rw [argumentTexts, ih, List.map_cons]

theorem anyCollaborator_eq (args : List TypeExpr) :
    anyCollaborator args = args.any isCollaborator := by
  induction args with
  | nil => rfl
  | cons arg rest ih => rw [anyCollaborator, ih, List.any_cons]

theorem isCollaborator_eq (t : TypeExpr) : t.isCollaborator =
    (!scalars.contains t.name && (!containers.contains t.name || t.args.any isCollaborator)) := by
  cases t with
  | mk before name gap args after => rw [isCollaborator, anyCollaborator_eq]; rfl

/-! ## What is read off the text -/

theorem Name.isSolid (name : Name) : IsSolid name.text := by
  refine ⟨name.ne_nil, fun c hc => ?_⟩
  have hplain := List.all_eq_true.mp name.plain c hc
  simp only [isTypeNameChar, Bool.and_eq_true] at hplain
  simpa using hplain.1.1.1

theorem mark_not_mem (before gap : Margin) (name : Name) {c : Char} (hblank : isBlank c = false)
    (hmark : isTypeNameChar c = false) : c ∉ before.text ++ (name.text ++ gap.text) := by
  have hmargin : ∀ margin : Margin, c ∉ margin.text := fun margin hmem => by
    rw [margin.blank c hmem] at hblank
    cases hblank
  simp only [List.mem_append, not_or]
  refine ⟨hmargin before, fun hmem => ?_, hmargin gap⟩
  rw [List.all_eq_true.mp name.plain c hmem] at hmark
  cases hmark

theorem words_upTo_name (before gap : Margin) (name : Name) :
    words (before.text ++ (name.text ++ gap.text)) = [name.text] := by
  rw [words_blanks_append before.blank]
  exact words_solid_append_blanks name.isSolid gap.blank

theorem toText_cases (t : TypeExpr) :
    ∃ upTo after, words upTo = [t.name] ∧ IsMargin after ∧
      (∀ c, isBlank c = false → isTypeNameChar c = false → c ∉ upTo) ∧
      ((t.args = [] ∧ t.toText = upTo ++ after) ∨
        (t.args ≠ [] ∧
          t.toText = upTo ++ '<' :: (join [','] (t.args.map toText) ++ '>' :: after))) := by
  cases t with
  | mk before name gap args after =>
    refine ⟨before.text ++ (name.text ++ gap.text), after.text, words_upTo_name before gap name,
      after.blank, fun c hblank hmark => mark_not_mem before gap name hblank hmark, ?_⟩
    cases args with
    | nil => simp [TypeExpr.args, toText, argumentTexts, bracketed]
    | cons arg rest => simp [TypeExpr.args, toText, argumentTexts_eq, bracketed]

theorem toText_of_no_args {t : TypeExpr} (h : t.args = []) :
    words t.toText = [t.name] ∧ '>' ∉ t.toText ∧ ',' ∉ t.toText := by
  obtain ⟨upTo, after, hname, hafter, hmarks, ⟨-, htext⟩ | ⟨hne, -⟩⟩ := toText_cases t
  · have hnot : ∀ c, isBlank c = false → isTypeNameChar c = false → c ∉ t.toText := by
      intro c hblank hmark hmem
      rw [htext, List.mem_append] at hmem
      rcases hmem with hupTo | hmargin
      · exact hmarks c hblank hmark hupTo
      · rw [hafter c hmargin] at hblank
        cases hblank
    rw [htext, words_append_margin _ hafter, hname, ← htext]
    exact ⟨rfl, hnot _ (by decide) (by decide), hnot _ (by decide) (by decide)⟩
  · exact absurd h hne

/-- Before the first closing bracket there is the opening bracket of the first argument that has
arguments. -/
theorem open_mem_takeWhile {args : List TypeExpr} (h : ∃ arg ∈ args, arg.args ≠ []) (tail : Text) :
    '<' ∈ (join [','] (args.map toText) ++ tail).takeWhile (· != '>') := by
  induction args with
  | nil => simp at h
  | cons arg rest ih =>
    obtain ⟨more, hmore⟩ : ∃ more, join [','] ((arg :: rest).map toText) = arg.toText ++ more := by
      cases rest with
      | nil => exact ⟨[], (List.append_nil _).symm⟩
      | cons next rest => exact ⟨',' :: join [','] ((next :: rest).map toText), by simp [join]⟩
    obtain ⟨upTo, after, -, -, hmarks, ⟨hnone, -⟩ | ⟨-, htext⟩⟩ := toText_cases arg
    · have hrest : ∃ arg ∈ rest, arg.args ≠ [] := by simpa [hnone] using h
      have hne : rest.map toText ≠ [] := by
        obtain ⟨other, hother, -⟩ := hrest
        exact List.ne_nil_of_mem (List.mem_map_of_mem hother)
      have hclose : '>' ∉ arg.toText ++ [','] := by simp [(toText_of_no_args hnone).2.1]
      rw [List.map_cons, join_cons_of_ne_nil _ _ hne, List.append_assoc,
        takeWhile_append_of_not_mem hclose]
      exact List.mem_append_right _ (ih hrest)
    · have hclose : '>' ∉ upTo := hmarks '>' (by decide) (by decide)
      rw [hmore, htext, List.append_assoc, List.append_assoc, takeWhile_append_of_not_mem hclose]
      simp

theorem isLikelyInjected_argument {arg : TypeExpr} (h : arg.args = []) :
    isLikelyInjected (collapseBlanks arg.toText).strip = arg.isCollaborator := by
  obtain ⟨hname, hclose, -⟩ := toText_of_no_args h
  have hstrip : words (collapseBlanks arg.toText).strip = [arg.name] := by
    rw [words_strip, words_collapseBlanks hname]
  have hnone : '>' ∉ (collapseBlanks arg.toText).strip := by
    rwa [mem_strip_iff (by decide), mem_collapseBlanks_iff (by decide)]
  rw [isLikelyInjected_of_words hnone hstrip, isCollaborator_eq, h]
  simp

theorem any_pieces_of_nested {args : List TypeExpr} (h : ∃ arg ∈ args, arg.args ≠ [])
    (tail : Text) :
    ((splitOn ',' ((join [','] (args.map toText) ++ tail).takeWhile (· != '>'))).any
      fun part => isLikelyInjected (collapseBlanks part).strip) = true := by
  obtain ⟨piece, hpiece, hopen⟩ := exists_mem_splitOn (open_mem_takeWhile h tail)
    (show '<' ≠ ',' by decide)
  have hclose : '>' ∉ piece := by
    intro hmem
    have hinside := (infix_of_mem_splitOn hpiece).subset hmem
    have hall := List.all_eq_true.mp List.all_takeWhile _ hinside
    simp at hall
  refine List.any_eq_true.mpr ⟨piece, hpiece, isLikelyInjected_of_open ?_ ?_⟩
  · rwa [mem_strip_iff (by decide), mem_collapseBlanks_iff (by decide)]
  · rwa [mem_strip_iff (by decide), mem_collapseBlanks_iff (by decide)]

theorem takeWhile_arguments {args : List TypeExpr} (h : ∀ arg ∈ args, arg.args = [])
    (after : Text) :
    (join [','] (args.map toText) ++ '>' :: after).takeWhile (· != '>') =
      join [','] (args.map toText) := by
  apply takeWhile_append_cons
  intro hmem
  rcases mem_join hmem with hcomma | ⟨piece, hpiece, hclose⟩
  · simp at hcomma
  · obtain ⟨arg, harg, rfl⟩ := List.mem_map.mp hpiece
    exact (toText_of_no_args (h arg harg)).2.1 hclose

theorem splitOn_arguments {args : List TypeExpr} (hne : args ≠ [])
    (h : ∀ arg ∈ args, arg.args = []) :
    splitOn ',' (join [','] (args.map toText)) = args.map toText := by
  apply splitOn_join
  · simpa using hne
  · intro piece hpiece
    obtain ⟨arg, harg, rfl⟩ := List.mem_map.mp hpiece
    exact (toText_of_no_args (h arg harg)).2.2

theorem exists_solid (t : TypeExpr) : ∃ c ∈ t.toText, isBlank c = false := by
  obtain ⟨upTo, after, hname, -, -, hcases⟩ := toText_cases t
  obtain ⟨margin, rest, -, rfl, ⟨hne, hsolid⟩, -, -⟩ := exists_of_words_eq_cons hname
  obtain ⟨c, cs, hcs⟩ := List.exists_cons_of_ne_nil hne
  have hc : c ∈ t.name := hcs ▸ List.mem_cons_self
  refine ⟨c, ?_, hsolid c hc⟩
  rcases hcases with ⟨-, htext⟩ | ⟨-, htext⟩
  · simp [htext, hc]
  · simp [htext, hc]

theorem exists_solid_of_args {args : List TypeExpr} (hne : args ≠ []) :
    ∃ c ∈ join [','] (args.map toText), isBlank c = false := by
  obtain ⟨arg, rest, rfl⟩ := List.exists_cons_of_ne_nil hne
  have hinfix : arg.toText <:+: join [','] ((arg :: rest).map toText) :=
    infix_join_of_mem List.mem_cons_self
  obtain ⟨c, hc, hblank⟩ := exists_solid arg
  exact ⟨c, hinfix.subset hc, hblank⟩

/-- What is seen of the arguments: all of them where none has arguments, and otherwise enough to
take one for a collaborator. -/
theorem isLikelyInjected_eq_any (t : TypeExpr) : isLikelyInjected t.toText =
    (!scalars.contains t.name && (!containers.contains t.name ||
      t.args.any fun arg => arg.isCollaborator || !arg.args.isEmpty)) := by
  obtain ⟨upTo, after, hname, hafter, hmarks, ⟨hnone, htext⟩ | ⟨hsome, htext⟩⟩ := toText_cases t
  · obtain ⟨hwords, hclose, -⟩ := toText_of_no_args hnone
    rw [isLikelyInjected_of_words hclose hwords, hnone]
    simp
  · have hopen : '<' ∉ upTo := hmarks '<' (by decide) (by decide)
    by_cases hnested : ∃ arg ∈ t.args, arg.args ≠ []
    · have hinside := open_mem_takeWhile hnested ('>' :: after)
      have hseen : (t.args.any fun arg => arg.isCollaborator || !arg.args.isEmpty) = true := by
        obtain ⟨arg, harg, hargs⟩ := hnested
        exact List.any_eq_true.mpr ⟨arg, harg, by simp [hargs]⟩
      rw [htext, isLikelyInjected_brackets hname hopen hafter rfl ⟨'<', hinside, by decide⟩,
        any_pieces_of_nested hnested, hseen]
    · have hplain : ∀ arg ∈ t.args, arg.args = [] := by simpa using hnested
      have hjudged : ((t.args.map toText).any fun part =>
          isLikelyInjected (collapseBlanks part).strip) =
          t.args.any fun arg => arg.isCollaborator || !arg.args.isEmpty := by
        rw [List.any_map, Bool.eq_iff_iff, List.any_eq_true, List.any_eq_true]
        refine exists_congr fun arg => and_congr_right fun harg => ?_
        simp [isLikelyInjected_argument (hplain arg harg), hplain arg harg]
      rw [htext, isLikelyInjected_brackets hname hopen hafter (takeWhile_arguments hplain after)
        (exists_solid_of_args hsome), splitOn_arguments hsome hplain, hjudged]

theorem any_or_ne_any_iff (args : List TypeExpr) :
    (args.any fun arg => arg.isCollaborator || !arg.args.isEmpty) ≠ args.any isCollaborator ↔
      (∀ arg ∈ args, arg.isCollaborator = false) ∧ ∃ arg ∈ args, arg.args ≠ [] := by
  by_cases hany : ∃ arg ∈ args, arg.isCollaborator = true
  · obtain ⟨arg, harg, hyes⟩ := hany
    have hseen : (args.any fun arg => arg.isCollaborator || !arg.args.isEmpty) = true :=
      List.any_eq_true.mpr ⟨arg, harg, by simp [hyes]⟩
    have hright : args.any isCollaborator = true := List.any_eq_true.mpr ⟨arg, harg, hyes⟩
    rw [hseen, hright]
    refine ⟨fun hne => absurd rfl hne, fun hnone => ?_⟩
    rw [hnone.1 arg harg] at hyes
    cases hyes
  · have hnone : ∀ arg ∈ args, arg.isCollaborator = false := by simpa using hany
    have hright : args.any isCollaborator = false := by simpa using hnone
    rw [hright, Bool.ne_false_iff, List.any_eq_true]
    constructor
    · rintro ⟨arg, harg, hseen⟩
      exact ⟨hnone, arg, harg, by simpa [hnone arg harg] using hseen⟩
    · rintro ⟨-, arg, harg, hargs⟩
      exact ⟨arg, harg, by simp [hargs]⟩

/-! ## The main statement -/

/-- The text of a type looks like a collaborator exactly if its name is no scalar and, for a
container, one of its arguments is a collaborator or has arguments of its own. So it is taken for
one wrongly exactly if it is a container of no collaborators and one of its arguments has
arguments. -/
theorem isLikelyInjected_toText (t : TypeExpr) :
    (isLikelyInjected t.toText = true ↔ t.name ∉ scalars ∧
      (t.name ∈ containers → ∃ arg ∈ t.args, arg.isCollaborator = true ∨ arg.args ≠ [])) ∧
    (isLikelyInjected t.toText ≠ t.isCollaborator ↔ t.name ∈ containers ∧
      (∀ arg ∈ t.args, arg.isCollaborator = false) ∧ ∃ arg ∈ t.args, arg.args ≠ []) := by
  have hapart : (containers.all fun name => !scalars.contains name) = true := by decide +kernel
  constructor
  · rw [isLikelyInjected_eq_any]
    simp [Classical.or_iff_not_imp_left]
  · rw [isLikelyInjected_eq_any, isCollaborator_eq]
    by_cases hcontainer : t.name ∈ containers
    · have hscalar : t.name ∉ scalars := by simpa using List.all_eq_true.mp hapart _ hcontainer
      simp only [List.contains_eq_mem, hscalar, hcontainer, decide_true, decide_false,
        Bool.not_true, Bool.not_false, Bool.true_and, Bool.false_or, true_and]
      exact any_or_ne_any_iff t.args
    · simp [hcontainer]

def noMargin : Margin := ⟨[], List.forall_mem_nil _⟩

def listOfLists : TypeExpr :=
  let list : Name := ⟨"List", by decide, by decide⟩
  let string : Name := ⟨"String", by decide, by decide⟩
  let strings : TypeExpr :=
    .mk noMargin list noMargin [.mk noMargin string noMargin [] noMargin] noMargin
  .mk noMargin list noMargin [strings] noMargin

theorem isLikelyInjected_listOfLists :
    listOfLists.toText = "List<List<String>>" ∧ listOfLists.isCollaborator = false ∧
      isLikelyInjected "List<List<String>>" = true := by
  have htext : listOfLists.toText = "List<List<String>>" := by decide +kernel
  refine ⟨htext, by decide +kernel, ?_⟩
  rw [← htext, isLikelyInjected_eq_any]
  decide +kernel

end TypeExpr

end SourceScout
