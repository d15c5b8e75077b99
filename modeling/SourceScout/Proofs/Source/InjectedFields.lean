import SourceScout.Proofs.Pattern.Searching
import SourceScout.Proofs.Text.Margins
import SourceScout.Source.InjectedField

/-!
# Private fields are read back

A declaration of a private field can be matched in many ways, since blanks may stand inside of a
type. But the name is what stands between the last blank and the semicolon, and the type is what is
left of it behind the modifiers; so all ways that come to an end agree, and the fields of a class
that is written line by line come back in their order.
-/

namespace SourceScout.InjectedField

open Pattern Place
open Text (IsGap IsMargin)

structure IsType (type : Text) : Prop where
  capital : ∃ c rest, c.isUpper = true ∧ rest ≠ [] ∧ type = c :: rest
  chars : ∀ c ∈ type, isTypeText c = true
  last : ∀ c ∈ type.getLast?, isBlank c = false

structure IsPlainName (name : Text) : Prop where
  ne_nil : name ≠ []
  chars : ∀ c ∈ name, c.isAlphanum = true

structure Declaration where
  isFinal : Bool
  field : InjectedField
  isType : IsType field.type
  isName : IsPlainName field.name

namespace Declaration

def modifier (d : Declaration) : Text := if d.isFinal then "final " else []

def body (d : Declaration) : Text :=
  "private" ++ ' ' :: (d.modifier ++ d.field.type) ++ ' ' :: d.field.name

def line (d : Declaration) : Text := "    " ++ (d.body ++ [';', '\n'])

end Declaration

def classText (header : Text) (declarations : List Declaration) (footer : Text) : Text :=
  header ++ '\n' :: (declarations.flatMap Declaration.line ++ footer)

/-! ## What the pattern reads -/

def modifiers : Pattern := word "private" ++ blanks1 ++ optional (word "final" ++ blanks1)

def typeText : Pattern := one Char.isUpper ++ many1 isTypeText

theorem ways_declaration : declaration.ways = (modifiers ++ (capture typeText ++
    (blanks1 ++ (capture (many1 Char.isAlphanum) ++ (blanks ++ char ';'))))).ways := by
  simp only [declaration, modifiers, typeText, ways_append, List.flatMap_assoc]

theorem takes_modifiers {t : Text} : modifiers.Takes t ↔ ∃ gap behind : Text, IsGap gap ∧
    (behind = [] ∨ ∃ gap', IsGap gap' ∧ behind = "final" ++ gap') ∧
      t = "private" ++ (gap ++ behind) := by
  constructor
  · rintro ⟨_, behind, ⟨_, gap, rfl, hgap, rfl⟩, hbehind, rfl⟩
    refine ⟨gap, behind, takes_many1.mp hgap, ?_, List.append_assoc _ _ _⟩
    rcases hbehind with ⟨_, gap', rfl, hgap', rfl⟩ | hnothing
    · exact .inr ⟨gap', takes_many1.mp hgap', rfl⟩
    · exact .inl hnothing
  · rintro ⟨gap, behind, hgap, hbehind, rfl⟩
    refine ⟨_, behind, ⟨_, gap, rfl, takes_many1.mpr hgap, rfl⟩, ?_,
      (List.append_assoc _ _ _).symm⟩
    rcases hbehind with rfl | ⟨gap', hgap', rfl⟩
    · exact .inr rfl
    · exact .inl ⟨_, gap', rfl, takes_many1.mpr hgap', rfl⟩

theorem takes_typeText {t : Text} : typeText.Takes t ↔ ∃ c rest, c.isUpper = true ∧ rest ≠ [] ∧
    (∀ d ∈ rest, isTypeText d = true) ∧ t = c :: rest := by
  constructor
  · rintro ⟨_, rest, ⟨c, hc, rfl⟩, hrest, rfl⟩
    obtain ⟨hne, hchars⟩ := takes_many1.mp hrest
    exact ⟨c, rest, hc, hne, hchars, rfl⟩
  · rintro ⟨c, rest, hc, hne, hchars, rfl⟩
    exact ⟨[c], rest, ⟨c, hc, rfl⟩, takes_many1.mpr ⟨hne, hchars⟩, rfl⟩

/-- One way to read a declaration, part by part. -/
structure Reading (front type gap name margin : Text) : Prop where
  front : modifiers.Takes front
  type : typeText.Takes type
  gap : IsGap gap
  name : IsPlainName name
  margin : IsMargin margin

theorem exists_reading {before rest : Text} {q : Place}
    (h : q ∈ declaration.ways (behind before rest)) :
    ∃ front type gap name margin : Text, Reading front type gap name margin ∧
      (behind before rest).Reads (front ++ type ++ (gap ++ (name ++ (margin ++ [';'])))) q ∧
      q.captures.map Stretch.toText = [type, name] := by
  rw [ways_declaration] at h
  obtain ⟨front, type, m, hfront, htype, hreads, hcaptures, hrest⟩ :=
    exists_mem_ways_behind_capture rfl rfl h
  obtain ⟨gap, name, _, hgap, hname, ⟨margin, _, hmargin, hend, rfl⟩, hreads', hcaptures'⟩ :=
    exists_takes_around_capture rfl rfl rfl hrest
  obtain rfl := takes_char.mp hend
  obtain ⟨hne, hchars⟩ := takes_many1.mp hname
  refine ⟨front, type, gap, name, margin,
    ⟨hfront, htype, takes_many1.mp hgap, ⟨hne, hchars⟩, hmargin⟩, hreads.trans hreads', ?_⟩
  rw [hcaptures', hcaptures]
  rfl

theorem beginsWith_private : declaration.BeginsWith "private" := by
  intro before rest h
  obtain ⟨q, hq⟩ := isSome_matchHere?_iff.mp h
  obtain ⟨front, type, gap, name, margin, hreading, hreads, -⟩ := exists_reading hq
  obtain ⟨gap', behind, -, -, rfl⟩ := takes_modifiers.mp hreading.front
  have hrest := hreads.rest
  simp only [Place.behind, List.append_assoc] at hrest
  exact ⟨_, hrest.symm⟩

/-! ## There is one way to read a declaration -/

theorem not_isBlank_of_isAlphanum {c : Char} (h : c.isAlphanum = true) : isBlank c = false := by
  rcases isWordChar_of_isNameChar (c := c) (by simp [isNameChar, h]) with hword | rfl
  · exact not_isBlank_of_isWordChar hword
  · decide

theorem isAlphanum_of_isUpper {c : Char} (h : c.isUpper = true) : c.isAlphanum = true := by
  have halpha : (c.isUpper || c.isLower) = true := by rw [h, Bool.true_or]
  have hall : (c.isAlpha || c.isDigit) = true := Bool.or_eq_true_iff.mpr (.inl halpha)
  exact hall

theorem IsPlainName.last_solid {name : Text} (h : IsPlainName name) (left : Text) :
    ∀ c ∈ (left ++ name).getLast?, isBlank c = false := by
  intro c hc
  rw [List.getLast?_append_of_ne_nil _ h.ne_nil] at hc
  exact not_isBlank_of_isAlphanum (h.chars c (List.mem_of_getLast? hc))

theorem IsPlainName.eq_of_append {name name' left left' margin : Text} (h : IsPlainName name)
    (h' : IsPlainName name') (hmargin : IsMargin margin)
    (hleft : ∀ c ∈ left.getLast?, isBlank c = true)
    (hleft' : ∀ c ∈ left'.getLast?, isBlank c = true)
    (heq : left ++ (name ++ margin) = left' ++ name') : left = left' ∧ name = name' := by
  have hsolid : ∀ {t : Text}, IsPlainName t → ∀ c ∈ t, (!isBlank c) = true := by
    intro t ht c hc
    rw [not_isBlank_of_isAlphanum (ht.chars c hc)]
    rfl
  have hgap : ∀ {t : Text}, (∀ c ∈ t.getLast?, isBlank c = true) →
      ∀ c ∈ t.getLast?, (!isBlank c) = false := by
    intro t ht c hc
    rw [ht c hc]
    rfl
  rw [← List.append_assoc, ← List.append_nil (left' ++ name')] at heq
  obtain ⟨hfront, -⟩ := Text.append_inj_of_forall_right hmargin (by simp) (h.last_solid left)
    (h'.last_solid left') heq
  exact Text.append_inj_of_forall_right (hsolid h) (hsolid h') (hgap hleft) (hgap hleft') hfront

theorem eq_of_append_gap {left left' gap : Text} (hgap : IsGap gap)
    (hleft' : ∀ c ∈ left'.getLast?, isBlank c = false) (h : left ++ gap = left' ++ [' ']) :
    left = left' := by
  obtain ⟨hne, hblank⟩ := hgap
  obtain ⟨rest, c, rfl⟩ := (List.eq_nil_or_concat gap).resolve_left hne
  rw [List.concat_eq_append, ← List.append_assoc] at h
  obtain ⟨hall, -⟩ := List.append_inj' h rfl
  -- a blank that is left of the gap would be the last character of the other side
  have hrest : rest = [] := by
    by_contra hsome
    rw [← hall, List.getLast?_append_of_ne_nil _ hsome] at hleft'
    have hlast := List.getLast?_eq_some_getLast hsome
    have hc := hblank (rest.getLast hsome) (by simp)
    rw [hleft' _ hlast] at hc
    cases hc
  rw [← hall, hrest, List.append_nil]

theorem head_solid_of_takes {type : Text} (h : typeText.Takes type) :
    ∀ c ∈ type.head?, isBlank c = false := by
  obtain ⟨c, rest, hc, -, -, rfl⟩ := takes_typeText.mp h
  rintro d ⟨⟩
  exact not_isBlank_of_isAlphanum (isAlphanum_of_isUpper hc)

theorem Declaration.takes_type (d : Declaration) : typeText.Takes d.field.type := by
  obtain ⟨c, rest, hc, hrest, htype⟩ := d.isType.capital
  refine takes_typeText.mpr ⟨c, rest, hc, hrest, fun e he => d.isType.chars e ?_, htype⟩
  rw [htype]
  exact List.mem_cons_of_mem c he

theorem Declaration.head_solid (d : Declaration) :
    ∀ c ∈ (d.modifier ++ d.field.type).head?, isBlank c = false := by
  rw [Declaration.modifier]
  cases d.isFinal with
  | true =>
    rintro c ⟨⟩
    decide
  | false => exact head_solid_of_takes d.takes_type

theorem Declaration.type_eq {d : Declaration} {front type : Text} (hfront : modifiers.Takes front)
    (htype : typeText.Takes type)
    (h : front ++ type = "private" ++ ' ' :: (d.modifier ++ d.field.type)) :
    type = d.field.type := by
  have hcapital : ∀ {t : Text}, typeText.Takes t → ∀ rest : Text, t ≠ 'f' :: rest := by
    rintro t ht rest rfl
    obtain ⟨c, more, hc, -, -, heq⟩ := takes_typeText.mp ht
    obtain ⟨rfl, -⟩ := List.cons_eq_cons.mp heq
    exact absurd hc (by decide)
  obtain ⟨gap, behind, hgap, hbehind, rfl⟩ := takes_modifiers.mp hfront
  have hspace : ∀ c ∈ ([' '] : Text), isBlank c = true := List.forall_mem_singleton.mpr (by decide)
  have hhead : ∀ c ∈ (behind ++ type).head?, isBlank c = false := by
    rcases hbehind with rfl | ⟨gap', -, rfl⟩
    · exact head_solid_of_takes htype
    · rintro c ⟨⟩
      decide
  rw [List.append_assoc, List.append_assoc] at h
  obtain ⟨-, hrest⟩ := Text.append_inj_of_forall hgap.2 hspace hhead d.head_solid
    (List.append_cancel_left h)
  rw [Declaration.modifier] at hrest
  rcases hbehind with rfl | ⟨gap', hgap', rfl⟩
  · cases hfinal : d.isFinal with
    | false =>
      rw [hfinal] at hrest
      exact hrest
    | true =>
      rw [hfinal] at hrest
      exact absurd hrest (hcapital htype _)
  · cases hfinal : d.isFinal with
    | false =>
      rw [hfinal] at hrest
      exact absurd hrest.symm (hcapital d.takes_type _)
    | true =>
      rw [hfinal, List.append_assoc] at hrest
      exact (Text.append_inj_of_forall hgap'.2 hspace (head_solid_of_takes htype)
        (head_solid_of_takes d.takes_type) (@List.append_cancel_left _ "final" _ _ hrest)).2

theorem end_not_mem_type {type : Text} (h : typeText.Takes type) : ';' ∉ type := by
  obtain ⟨c, rest, hc, -, hrest, rfl⟩ := takes_typeText.mp h
  rw [List.mem_cons, not_or]
  refine ⟨?_, Text.not_mem_of_forall hrest (by decide)⟩
  rintro rfl
  exact absurd hc (by decide)

theorem Declaration.end_not_mem (d : Declaration) : ';' ∉ d.body := by
  have hmodifier : ';' ∉ d.modifier := by
    rw [Declaration.modifier]
    split <;> decide
  have hname : ';' ∉ d.field.name := Text.not_mem_of_forall d.isName.chars (by decide)
  unfold Declaration.body
  simp only [List.mem_append, List.mem_cons, not_or]
  exact ⟨⟨by decide, by decide, hmodifier, end_not_mem_type d.takes_type⟩, by decide, hname⟩

theorem Reading.end_not_mem {front type gap name margin : Text}
    (h : Reading front type gap name margin) :
    ';' ∉ front ++ type ++ (gap ++ (name ++ margin)) := by
  have hgap : ∀ {t : Text}, (∀ c ∈ t, isBlank c = true) → ';' ∉ t :=
    fun ht => Text.not_mem_of_forall ht (by decide)
  have hname : ';' ∉ name := Text.not_mem_of_forall h.name.chars (by decide)
  have hfront : ';' ∉ front := by
    obtain ⟨gap', behind, hgap', hbehind, rfl⟩ := takes_modifiers.mp h.front
    rcases hbehind with rfl | ⟨gap'', hgap'', rfl⟩
    · simp [hgap hgap'.2]
    · simp [hgap hgap'.2, hgap hgap''.2]
  simp [hfront, end_not_mem_type h.type, hgap h.gap.2, hname, hgap h.margin]

theorem Reading.eq_of_append {d : Declaration} {front type gap name margin after rest : Text}
    (h : Reading front type gap name margin)
    (heq : front ++ type ++ (gap ++ (name ++ (margin ++ ';' :: after))) = d.body ++ ';' :: rest) :
    type = d.field.type ∧ name = d.field.name ∧
      front ++ type ++ (gap ++ (name ++ margin)) = d.body := by
  have hclass : ∀ {t : Text}, ';' ∉ t → ∀ c ∈ t, (c != ';') = true := by
    intro t ht c hc
    rw [bne_iff_ne]
    rintro rfl
    exact ht hc
  -- both sides are cut in front of the semicolon
  have hbody : front ++ type ++ (gap ++ (name ++ margin)) = d.body := by
    refine (@Text.append_inj_of_forall (· != ';') _ _ (';' :: after) (';' :: rest)
      (hclass h.end_not_mem) (hclass d.end_not_mem) ?_ ?_ (by simpa using heq)).1
    · rintro c ⟨⟩
      decide
    · rintro c ⟨⟩
      decide
  have hgap : ∀ c ∈ (front ++ type ++ gap).getLast?, isBlank c = true := by
    intro c hc
    rw [List.getLast?_append_of_ne_nil _ h.gap.1] at hc
    exact h.gap.2 c (List.mem_of_getLast? hc)
  have hspace : ∀ left : Text, ∀ c ∈ (left ++ [' ']).getLast?, isBlank c = true := by
    intro left c hc
    rw [List.getLast?_concat] at hc
    cases hc
    decide
  have hsplit : front ++ type ++ gap ++ (name ++ margin) =
      "private" ++ ' ' :: (d.modifier ++ d.field.type) ++ [' '] ++ d.field.name := by
    rw [List.append_assoc _ gap, hbody, List.append_assoc _ [' '], List.singleton_append]
    unfold Declaration.body
    rfl
  obtain ⟨hleft, hname⟩ := h.name.eq_of_append d.isName h.margin hgap (hspace _) hsplit
  have hlast : ∀ c ∈ (("private" : Text) ++ ' ' :: (d.modifier ++ d.field.type)).getLast?,
      isBlank c = false := by
    obtain ⟨c, rest, -, -, htype⟩ := d.isType.capital
    have hne : d.field.type ≠ [] := by
      rw [htype]
      exact List.cons_ne_nil _ _
    rw [← List.cons_append, ← List.append_assoc, List.getLast?_append_of_ne_nil _ hne]
    exact d.isType.last
  exact ⟨d.type_eq h.front h.type (eq_of_append_gap h.gap hlast hleft), hname, hbody⟩

/-! ## Line by line -/

def ofMatch (m : Match) : InjectedField := ⟨(m.capture 0).strip, m.capture 1⟩

theorem declaredIn_eq (content : Text) : declaredIn content =
    ((declaration.found [] content).map ofMatch).filter
      fun field => TypeName.isLikelyInjected field.type := by
  rw [declaredIn, findAll_eq_found]
  rfl

theorem Declaration.takes (d : Declaration) : (modifiers ++ (capture typeText ++ (blanks1 ++
    (capture (many1 Char.isAlphanum) ++ (blanks ++ char ';'))))).Takes (d.body ++ [';']) := by
  have hspace : IsGap [' '] := by decide
  have hmodifiers : modifiers.Takes ("private" ++ ([' '] ++ d.modifier)) := by
    refine takes_modifiers.mpr ⟨[' '], d.modifier, hspace, ?_, rfl⟩
    rw [Declaration.modifier]
    cases d.isFinal with
    | true => exact .inr ⟨[' '], hspace, rfl⟩
    | false => exact .inl rfl
  have hend : (blanks ++ char ';').Takes [';'] :=
    ⟨[], [';'], fun _ hc => absurd hc List.not_mem_nil, takes_char.mpr rfl, rfl⟩
  have hname : (capture (many1 Char.isAlphanum) ++ (blanks ++ char ';')).Takes
      (d.field.name ++ [';']) :=
    ⟨_, _, takes_many1.mpr ⟨d.isName.ne_nil, d.isName.chars⟩, hend, rfl⟩
  refine ⟨_, _, hmodifiers,
    ⟨_, _, d.takes_type, ⟨_, _, takes_many1.mpr hspace, hname, rfl⟩, rfl⟩, ?_⟩
  unfold Declaration.body
  simp only [List.append_assoc, List.cons_append, List.nil_append]

theorem Declaration.exists_matchHere? (d : Declaration) (before rest : Text) :
    ∃ m, declaration.matchHere? (behind before (m.text ++ rest)) = some m ∧
      m.text = d.body ++ [';'] ∧ m.captures = [d.field.type, d.field.name] := by
  obtain ⟨m, hm⟩ := @exists_matchHere?_of_takes _ before _ ways_declaration rfl _ d.takes rest
  -- whatever way is preferred, it can only read this declaration
  have hread : m.text = d.body ++ [';'] ∧ m.captures = [d.field.type, d.field.name] := by
    rw [matchHere?_behind, Option.map_eq_some_iff] at hm
    obtain ⟨stop, hstop, rfl⟩ := hm
    obtain ⟨front, type, gap, name, margin, hreading, hreads, hcaptures⟩ :=
      exists_reading (List.mem_of_head? hstop)
    have hall : front ++ type ++ (gap ++ (name ++ (margin ++ ';' :: stop.rest))) =
        d.body ++ ';' :: rest := by
      have hrest := hreads.rest
      simp only [behind, List.append_assoc, List.cons_append, List.nil_append] at hrest
      simpa only [List.append_assoc] using hrest.symm
    obtain ⟨htype, hname, hbody⟩ := hreading.eq_of_append hall
    rw [hreads.toText_stretchTo, hcaptures, htype, hname]
    refine ⟨?_, rfl⟩
    rw [← hbody, htype, hname]
    simp only [List.append_assoc]
  exact ⟨m, by rw [hread.1, hm], hread⟩

theorem Declaration.found_line (d : Declaration) (before rest : Text) :
    ∃ m, ofMatch m = d.field ∧ declaration.found before (d.line ++ rest) =
      m :: declaration.found (before ++ d.line) rest := by
  obtain ⟨m, hm, htext, hcaptures⟩ :=
    d.exists_matchHere? (before ++ ("    " : Text)) ('\n' :: rest)
  have hne : m.text ≠ [] := by
    rw [htext]
    exact List.append_ne_nil_of_right_ne_nil _ (List.cons_ne_nil _ _)
  have hfield : ofMatch m = d.field := by
    have hstrip : d.field.type.strip = d.field.type :=
      Text.isTight_iff.mp ⟨head_solid_of_takes d.takes_type, d.isType.last⟩
    rw [ofMatch, Match.capture, Match.capture, hcaptures]
    exact congrArg (InjectedField.mk · d.field.name) hstrip
  have hline : d.line = "    " ++ (m.text ++ ['\n']) := by
    rw [htext]
    unfold Declaration.line
    rw [List.append_assoc]
    rfl
  refine ⟨m, hfield, ?_⟩
  calc declaration.found before (d.line ++ rest)
    _ = declaration.found before ("    " ++ (m.text ++ '\n' :: rest)) := by
      rw [hline]
      simp only [List.append_assoc, List.singleton_append]
    _ = declaration.found (before ++ ("    " : Text)) (m.text ++ '\n' :: rest) :=
      found_append_of_no_word beginsWith_private (by decide) (by rintro c ⟨⟩; decide) _
    _ = m :: declaration.found (before ++ ("    " : Text) ++ m.text) (['\n'] ++ rest) :=
      found_of_match hne hm
    _ = m :: declaration.found (before ++ d.line) rest := by
      rw [found_append_of_no_word beginsWith_private (by decide) (by rintro c ⟨⟩; decide), hline]
      simp only [List.append_assoc]

theorem map_found_lines (declarations : List Declaration) (before rest : Text) :
    (declaration.found before (declarations.flatMap Declaration.line ++ rest)).map ofMatch =
      declarations.map Declaration.field ++
        (declaration.found (before ++ declarations.flatMap Declaration.line) rest).map ofMatch := by
  induction declarations generalizing before with
  | nil => rw [List.flatMap_nil, List.append_nil]; rfl
  | cons d declarations ih =>
    obtain ⟨m, hfield, hfound⟩ :=
      d.found_line before (declarations.flatMap Declaration.line ++ rest)
    rw [List.flatMap_cons, List.append_assoc, hfound, List.map_cons, ih, hfield, List.append_assoc]
    rfl

/-- The fields of a class come back in their order, less those whose type is a plain value, whatever
blanks, brackets and keywords stand inside of their types and names. -/
theorem declaredIn_classText {header footer : Text} (declarations : List Declaration)
    (hheader : ¬("private" : Text) <:+: header) (hfooter : ¬("private" : Text) <:+: footer) :
    declaredIn (classText header declarations footer) =
      (declarations.map Declaration.field).filter
        fun field => TypeName.isLikelyInjected field.type := by
  have hfirst : ¬("private" : Text) <:+: header ++ ['\n'] := by
    intro h
    rcases Text.infix_append_cons (by decide) h with hleft | hright
    · exact hheader hleft
    · exact absurd hright (by decide)
  have hend : ∀ c ∈ (header ++ ['\n']).getLast?, c ∉ ("private" : Text) := by
    intro c hc
    rw [List.getLast?_concat] at hc
    cases hc
    decide
  have htext : classText header declarations footer =
      (header ++ ['\n']) ++ (declarations.flatMap Declaration.line ++ footer) := by
    rw [classText, List.append_assoc]
    rfl
  rw [declaredIn_eq, htext, found_append_of_no_word beginsWith_private hfirst hend, map_found_lines,
    found_eq_nil_of_no_word beginsWith_private hfooter, List.map_nil, List.append_nil]

theorem declaredIn_classText_keywords :
    ∃ declarations : List Declaration,
      declarations.map (fun d => (d.isFinal, d.field)) =
        [(true, ⟨"Map<String, Dao>", "final"⟩), (false, ⟨"String", "name"⟩),
          (false, ⟨"Final private Bar", "b1"⟩)] ∧
      declaredIn (classText "class A" declarations "int x;") =
        [⟨"Map<String, Dao>", "final"⟩, ⟨"Final private Bar", "b1"⟩] := by
  have hmap : IsType "Map<String, Dao>" :=
    ⟨⟨'M', _, by decide, by decide, rfl⟩, List.all_eq_true.mp (by decide +kernel),
      by rintro c ⟨⟩; rfl⟩
  have hstring : IsType "String" :=
    ⟨⟨'S', _, by decide, by decide, rfl⟩, List.all_eq_true.mp (by decide +kernel),
      by rintro c ⟨⟩; rfl⟩
  have hbar : IsType "Final private Bar" :=
    ⟨⟨'F', _, by decide, by decide, rfl⟩, List.all_eq_true.mp (by decide +kernel),
      by rintro c ⟨⟩; rfl⟩
  have hnames : IsPlainName "final" ∧ IsPlainName "name" ∧ IsPlainName "b1" :=
    ⟨⟨by decide, List.all_eq_true.mp (by decide +kernel)⟩,
      ⟨by decide, List.all_eq_true.mp (by decide +kernel)⟩,
      ⟨by decide, List.all_eq_true.mp (by decide +kernel)⟩⟩
  refine ⟨[⟨true, _, hmap, hnames.1⟩, ⟨false, _, hstring, hnames.2.1⟩,
    ⟨false, _, hbar, hnames.2.2⟩], rfl, ?_⟩
  rw [declaredIn_classText _ (by decide +kernel) (by decide +kernel)]
  simp only [List.map_cons, List.map_nil]
  decide +kernel

end SourceScout.InjectedField
