import SourceScout.Proofs.Outline.Entries
import SourceScout.Proofs.Pattern.Reading
import SourceScout.Proofs.Text.Words

/-!
# Lines that declare a field

The rule for fields expects its modifiers one after the other with no gap between them, then a gap,
a type, a gap and the name. So the words of the line decide: with one modifier there are three of
them, and with more there is a word for which the rule has no place.
-/

namespace SourceScout

open Pattern
open Text (IsGap IsSolid words words_append_gap words_blanks_append words_solid
  words_solid_append_blanks)

namespace Language

def fieldModifiers : List Text := ["private", "public", "protected", "static", "final"]

def fieldRule : DeclRule := javaRules.get ⟨3, by decide⟩

theorem exists_javaRules_eq :
    ∃ classRule interfaceRule methodRule,
      javaRules = [classRule, interfaceRule, methodRule, fieldRule] ∧
      classRule.kind = .classType ∧ interfaceRule.kind = .interfaceType ∧
      methodRule.kind = .method :=
  ⟨_, _, _, rfl, rfl, rfl, rfl⟩

def beforeField : Pattern :=
  blanks ++ repeated (anyOf fieldModifiers) ++ blanks1 ++ many1 isTypeChar ++ blanks1

def afterField : Pattern :=
  blanks ++ optional (char '=' ++ blanks ++ many1 (· != ';')) ++ blanks ++ char ';'

theorem ways_fieldRule (line : Text) :
    fieldRule.pattern.ways (.start line) =
      (beforeField ++ (Pattern.name ++ afterField)).ways (.start line) := by
  have hrule : fieldRule.pattern.ways =
      (atStart ++ (beforeField ++ (Pattern.name ++ afterField))).ways := by
    change (atStart ++ blanks ++ repeated (anyOf fieldModifiers) ++ blanks1 ++ many1 isTypeChar ++
      blanks1 ++ Pattern.name ++ blanks ++ optional (char '=' ++ blanks ++ many1 (· != ';')) ++
      blanks ++ char ';').ways = _
    simp only [beforeField, afterField, ways_append, List.flatMap_assoc]
  rw [hrule]
  simp [ways_append, ways, Place.start]

theorem takes_blanks1 {t : Text} : blanks1.Takes t ↔ IsGap t := takes_many1

theorem takes_beforeField {t : Text} :
    beforeField.Takes t ↔ ∃ (margin : Text) (modifiers : List Text) (gap type space : Text),
      (∀ c ∈ margin, isBlank c = true) ∧ (∀ modifier ∈ modifiers, modifier ∈ fieldModifiers) ∧
      IsGap gap ∧ (type ≠ [] ∧ ∀ c ∈ type, isTypeChar c = true) ∧ IsGap space ∧
      t = margin ++ (modifiers.flatten ++ (gap ++ (type ++ space))) := by
  constructor
  · rintro ⟨_, space, ⟨_, type, ⟨_, gap, ⟨margin, _, hmargin, ⟨modifiers, hmodifiers, rfl⟩, rfl⟩,
      hgap, rfl⟩, htype, rfl⟩, hspace, rfl⟩
    refine ⟨margin, modifiers, gap, type, space, hmargin, ?_, takes_blanks1.mp hgap,
      takes_many1.mp htype, takes_blanks1.mp hspace, by simp only [List.append_assoc]⟩
    exact fun modifier hmem => takes_anyOf.mp (hmodifiers modifier hmem)
  · rintro ⟨margin, modifiers, gap, type, space, hmargin, hmodifiers, hgap, htype, hspace, rfl⟩
    refine ⟨_, space, ⟨_, type, ⟨_, gap, ⟨margin, _, hmargin, ⟨modifiers, ?_, rfl⟩, rfl⟩,
      takes_blanks1.mpr hgap, rfl⟩, takes_many1.mpr htype, rfl⟩, takes_blanks1.mpr hspace, ?_⟩
    · exact fun modifier hmem => takes_anyOf.mpr (hmodifiers modifier hmem)
    · simp only [List.append_assoc]

theorem takes_afterField {t : Text} (hplain : '=' ∉ t) :
    afterField.Takes t ↔
      ∃ margin : Text, (∀ c ∈ margin, isBlank c = true) ∧ t = margin ++ [';'] := by
  constructor
  · rintro ⟨_, _, ⟨_, right, ⟨left, value, hleft, hvalue, rfl⟩, hright, rfl⟩, hlast, rfl⟩
    rcases hvalue with ⟨_, _, ⟨_, _, hsign, -, rfl⟩, -, rfl⟩ | hnone
    · cases takes_char.mp hsign
      simp at hplain
    · obtain rfl : value = [] := hnone
      cases takes_char.mp hlast
      refine ⟨left ++ right, List.forall_mem_append.mpr ⟨hleft, hright⟩, ?_⟩
      rw [List.append_nil]
  · rintro ⟨margin, hmargin, rfl⟩
    refine ⟨margin, [';'], ⟨margin, [], ⟨margin, [], hmargin, .inr rfl, ?_⟩, ?_, ?_⟩, ?_, rfl⟩
    · rw [List.append_nil]
    · exact List.forall_mem_nil _
    · rw [List.append_nil]
    · exact takes_char.mpr rfl

theorem open_mem_of_method {rule : DeclRule} (hrule : rule ∈ javaRules)
    (hkind : rule.kind = .method) {line : Text} (h : rule.pattern.occursIn line = true) :
    '(' ∈ line := by
  simp only [javaRules, List.mem_cons, List.not_mem_nil, or_false] at hrule
  rcases hrule with rfl | rfl | rfl | rfl
  · cases hkind
  · cases hkind
  · obtain ⟨m, hm⟩ := Option.isSome_iff_exists.mp h
    obtain ⟨before, _, after, ⟨front, _, -, ⟨_, _, ⟨_, _, hopen, -, rfl⟩, -, rfl⟩, rfl⟩, rfl⟩ :=
      exists_takes_of_search? hm
    cases takes_char.mp hopen
    simp
  · cases hkind

end Language

theorem classifyFrom_cons_of_not_occurs {line : Text} {index : Nat} {rule : DeclRule}
    {rules : List DeclRule} (h : rule.pattern.occursIn line = false) :
    classifyFrom line index (rule :: rules) = classifyFrom line (index + 1) rules := by
  rw [classifyFrom, DeclRule.nameIn?_eq_none_iff.mpr h]

/-- A line made of a margin, modifiers with a gap after each, a type, a gap and a name. -/
structure FieldLine where
  margin : Text
  modifiers : List (Text × Text)
  type : Text
  gap : Text
  name : Text
  margin_blank : ∀ c ∈ margin, isBlank c = true
  modifiers_known : ∀ modifier ∈ modifiers, modifier.1 ∈ Language.fieldModifiers ∧ IsGap modifier.2
  type_chars : type ≠ [] ∧ ∀ c ∈ type, Language.isTypeChar c = true
  gap_blank : IsGap gap
  name_chars : name ≠ [] ∧ ∀ c ∈ name, isNameChar c = true

namespace FieldLine

def body (f : FieldLine) : Text :=
  f.margin ++ ((f.modifiers.flatMap fun modifier => modifier.1 ++ modifier.2) ++
    (f.type ++ (f.gap ++ f.name)))

def toText (f : FieldLine) : Text := f.body ++ [';']

def isBodyChar (c : Char) : Bool := isBlank c || Language.isTypeChar c || isNameChar c

theorem isSolid_of_isTypeChar {t : Text} (h : t ≠ [] ∧ ∀ c ∈ t, Language.isTypeChar c = true) :
    IsSolid t := by
  refine ⟨h.1, fun c hc => ?_⟩
  have hchar := h.2 c hc
  simp only [Language.isTypeChar, Bool.or_eq_true, beq_iff_eq] at hchar
  rcases hchar with (((hword | rfl) | rfl) | rfl) | rfl
  · exact not_isBlank_of_isWordChar hword
  all_goals rfl

theorem isTypeChar_of_mem_modifier {modifier : Text} (h : modifier ∈ Language.fieldModifiers) :
    modifier ≠ [] ∧ ∀ c ∈ modifier, Language.isTypeChar c = true := by
  have hall : ∀ modifier ∈ Language.fieldModifiers,
      modifier ≠ [] ∧ modifier.all Language.isTypeChar = true := by
    decide +kernel
  exact (hall modifier h).imp_right List.all_eq_true.mp

section

variable (f : FieldLine)

theorem isBodyChar_of_mem_body {c : Char} (h : c ∈ f.body) : isBodyChar c = true := by
  simp only [body, List.mem_append, List.mem_flatMap] at h
  simp only [isBodyChar, Bool.or_eq_true]
  rcases h with hmargin | ⟨modifier, hmodifier, hword | hgap⟩ | htype | hgap | hname
  · exact .inl (.inl (f.margin_blank c hmargin))
  · have hknown := (f.modifiers_known modifier hmodifier).1
    exact .inl (.inr ((isTypeChar_of_mem_modifier hknown).2 c hword))
  · exact .inl (.inl ((f.modifiers_known modifier hmodifier).2.2 c hgap))
  · exact .inl (.inr (f.type_chars.2 c htype))
  · exact .inl (.inl (f.gap_blank.2 c hgap))
  · exact .inr (f.name_chars.2 c hname)

theorem not_mem_body {c : Char} (h : isBodyChar c = false) : c ∉ f.body := by
  intro hmem
  rw [f.isBodyChar_of_mem_body hmem] at h
  cases h

theorem words_body : words f.body = f.modifiers.map (·.1) ++ [f.type, f.name] := by
  have hend : words (f.type ++ (f.gap ++ f.name)) = [f.type, f.name] := by
    rw [words_append_gap f.gap_blank, words_solid (isSolid_of_isTypeChar f.type_chars),
      words_solid (isSolid_of_isNameChar f.name_chars)]
    rfl
  have hmodifiers : ∀ modifiers : List (Text × Text), (∀ modifier ∈ modifiers,
      modifier.1 ∈ Language.fieldModifiers ∧ IsGap modifier.2) → ∀ rest,
      words ((modifiers.flatMap fun modifier => modifier.1 ++ modifier.2) ++ rest) =
        modifiers.map (·.1) ++ words rest := by
    intro modifiers hknown rest
    induction modifiers with
    | nil => rfl
    | cons modifier modifiers ih =>
      obtain ⟨⟨hword, hgap⟩, hrest⟩ := List.forall_mem_cons.mp hknown
      rw [List.flatMap_cons, List.append_assoc, List.append_assoc, words_append_gap hgap,
        words_solid (isSolid_of_isTypeChar (isTypeChar_of_mem_modifier hword)), ih hrest]
      rfl
  rw [body, words_blanks_append f.margin_blank, hmodifiers _ f.modifiers_known, hend]

/-- The line has room for the rule: one modifier, or none and a margin in its place. -/
def IsRead : Prop := f.modifiers.length = 1 ∨ f.modifiers = [] ∧ f.margin ≠ []

instance : Decidable f.IsRead := inferInstanceAs (Decidable (_ ∨ _ ∧ _))

variable {f}

theorem takes_of_isRead (h : f.IsRead) :
    ∃ before, Language.beforeField.Takes before ∧ f.body = before ++ f.name := by
  rcases h with hone | ⟨hnone, hmargin⟩
  · obtain ⟨⟨modifier, space⟩, hmodifiers⟩ := List.length_eq_one_iff.mp hone
    have hknown := f.modifiers_known
    rw [hmodifiers, List.forall_mem_singleton] at hknown
    refine ⟨_, Language.takes_beforeField.mpr ⟨f.margin, [modifier], space, f.type, f.gap,
      f.margin_blank, ?_, hknown.2, f.type_chars, f.gap_blank, rfl⟩, ?_⟩
    · exact List.forall_mem_singleton.mpr hknown.1
    · simp [body, hmodifiers]
  · refine ⟨_, Language.takes_beforeField.mpr ⟨[], [], f.margin, f.type, f.gap,
      List.forall_mem_nil _, List.forall_mem_nil _, ⟨hmargin, f.margin_blank⟩, f.type_chars,
      f.gap_blank, rfl⟩, ?_⟩
    simp [body, hnone]

theorem isSolid_flatten_modifiers {modifiers : List Text}
    (h : ∀ modifier ∈ modifiers, modifier ∈ Language.fieldModifiers)
    (hne : modifiers.flatten ≠ []) :
    IsSolid modifiers.flatten := by
  refine isSolid_of_isTypeChar ⟨hne, fun c hc => ?_⟩
  obtain ⟨modifier, hmodifier, hmem⟩ := List.mem_flatten.mp hc
  exact (isTypeChar_of_mem_modifier (h modifier hmodifier)).2 c hmem

theorem margin_ne_nil_of_starts_blank {blanks rest : Text} (hblanks : IsGap blanks)
    (hmodifiers : f.modifiers = []) (h : f.body = blanks ++ rest) : f.margin ≠ [] := by
  intro hmargin
  obtain ⟨c, type, htype⟩ := List.exists_cons_of_ne_nil f.type_chars.1
  obtain ⟨d, more, rfl⟩ := List.exists_cons_of_ne_nil hblanks.1
  simp only [body, hmargin, hmodifiers, htype, List.flatMap_nil, List.nil_append, List.cons_append,
    List.cons.injEq] at h
  have hsolid := (isSolid_of_isTypeChar f.type_chars).2 c (by simp [htype])
  rw [h.1, hblanks.2 d List.mem_cons_self] at hsolid
  cases hsolid

theorem body_eq_of_append {left rest : Text} (h : f.toText = left ++ ';' :: rest) :
    f.body = left := by
  have hnone : ';' ∉ f.body := f.not_mem_body (by decide)
  rcases List.append_eq_append_iff.mp h with ⟨more, rfl, hmore⟩ | ⟨more, hbody, hmore⟩
  · cases more with
    | nil => rw [List.append_nil]
    | cons c more => simp at hmore
  · cases more with
    | nil => rw [hbody, List.append_nil]
    | cons c more =>
      cases hmore
      exact absurd (by simp [hbody]) hnone

/-- However the rule shares out the words of the line, it takes the name for the name. -/
theorem isRead_of_takes {before taken after rest : Text}
    (hbefore : Language.beforeField.Takes before)
    (htaken : (many1 isNameChar).Takes taken) (hafter : Language.afterField.Takes after)
    (h : f.toText = before ++ (taken ++ (after ++ rest))) : taken = f.name ∧ f.IsRead := by
  have hplain : '=' ∉ after := by
    have hnone : '=' ∉ f.toText := by
      simpa [toText] using f.not_mem_body (c := '=') (by decide)
    rw [h] at hnone
    simp only [List.mem_append, not_or] at hnone
    exact hnone.2.2.1
  obtain ⟨margin, hmargin, rfl⟩ := (Language.takes_afterField hplain).mp hafter
  obtain ⟨front, modifiers, gap, type, space, hfront, hmodifiers, hgap, htype, hspace, rfl⟩ :=
    Language.takes_beforeField.mp hbefore
  have hbody : f.body =
      front ++ (modifiers.flatten ++ (gap ++ (type ++ (space ++ (taken ++ margin))))) := by
    refine @body_eq_of_append f _ rest ?_
    rw [h]
    simp only [List.append_assoc, List.cons_append, List.nil_append]
  -- Both readings of the body have the same words, and the last two of them are type and name.
  have hwords : f.modifiers.map (·.1) ++ [f.type, f.name] =
      words modifiers.flatten ++ [type, taken] := by
    rw [← words_body, hbody, words_blanks_append hfront, words_append_gap hgap,
      words_append_gap hspace, words_solid (isSolid_of_isTypeChar htype),
      words_solid_append_blanks (isSolid_of_isNameChar (takes_many1.mp htaken)) hmargin]
    rfl
  obtain ⟨hmiddle, hend⟩ := List.append_inj' hwords rfl
  cases hend
  refine ⟨rfl, ?_⟩
  by_cases hnone : modifiers.flatten = []
  · rw [hnone] at hmiddle hbody
    have hempty : f.modifiers = [] := List.map_eq_nil_iff.mp hmiddle
    have hstart : IsGap (front ++ gap) :=
      ⟨List.append_ne_nil_of_right_ne_nil _ hgap.1, List.forall_mem_append.mpr ⟨hfront, hgap.2⟩⟩
    have hblank : f.body = front ++ gap ++ (f.type ++ (space ++ (f.name ++ margin))) := by
      rw [hbody, List.nil_append, List.append_assoc]
    exact .inr ⟨hempty, margin_ne_nil_of_starts_blank hstart hempty hblank⟩
  · -- Without a gap between them, the modifiers that the rule reads are a single word.
    rw [words_solid (isSolid_flatten_modifiers hmodifiers hnone)] at hmiddle
    have hlength := congrArg List.length hmiddle
    rw [List.length_map] at hlength
    exact .inl hlength

theorem captures_of_mem_ways_fieldRule {q : Place}
    (hq : q ∈ Language.fieldRule.pattern.ways (.start f.toText)) :
    q.captures.map Stretch.toText = [f.name] ∧ f.IsRead := by
  rw [Language.ways_fieldRule] at hq
  obtain ⟨before, taken, after, hbefore, htaken, hafter, hreads, hcaptures⟩ :=
    exists_takes_around_capture rfl rfl rfl hq
  have hline : f.toText = before ++ (taken ++ (after ++ q.rest)) := by
    simpa [Place.start] using hreads.rest
  obtain ⟨rfl, hread⟩ := isRead_of_takes hbefore htaken hafter hline
  exact ⟨hcaptures, hread⟩

theorem exists_mem_ways_fieldRule (hread : f.IsRead) :
    ∃ q, q ∈ Language.fieldRule.pattern.ways (.start f.toText) := by
  obtain ⟨before, hbefore, hbody⟩ := takes_of_isRead hread
  have hafter : Language.afterField.Takes [';'] :=
    (Language.takes_afterField (by decide)).mpr ⟨[], List.forall_mem_nil _, rfl⟩
  have htakes : (Language.beforeField ++ (Pattern.name ++ Language.afterField)).Takes
      (before ++ (f.name ++ [';'])) :=
    ⟨before, _, hbefore, ⟨f.name, [';'], takes_many1.mpr f.name_chars, hafter, rfl⟩, rfl⟩
  have hline : (Place.start f.toText).rest = before ++ (f.name ++ [';']) ++ [] := by
    simp [Place.start, toText, hbody]
  obtain ⟨q, hq, -⟩ := exists_mem_ways_of_takes rfl htakes hline
  rw [Language.ways_fieldRule]
  exact ⟨q, hq⟩

theorem nameIn?_fieldRule (f : FieldLine) :
    Language.fieldRule.nameIn? f.toText = if f.IsRead then some f.name else none := by
  rw [DeclRule.nameIn?, search?_of_isAnchored rfl, matchStart?, matchHere?]
  change ((Language.fieldRule.pattern.ways (.start f.toText)).head?.map _).map _ = _
  cases hhead : (Language.fieldRule.pattern.ways (.start f.toText)).head? with
  | none =>
    have hnot : ¬f.IsRead := by
      intro hread
      obtain ⟨q, hq⟩ := exists_mem_ways_fieldRule hread
      rw [List.head?_eq_none_iff.mp hhead] at hq
      cases hq
    rw [if_neg hnot]
    rfl
  | some q =>
    obtain ⟨hcaptures, hread⟩ := captures_of_mem_ways_fieldRule (List.mem_of_mem_head? hhead)
    rw [if_pos hread]
    simp [Match.capture, hcaptures]

/-- A line with a margin, modifiers, a type and a name is classified as a field of that name if it
has one modifier, or none but a margin. With two modifiers or more it is not classified at all. -/
theorem classify?_toText (f : FieldLine)
    (hplain : ∀ rule ∈ Language.java.rules, rule.kind = .classType ∨ rule.kind = .interfaceType →
      rule.pattern.occursIn f.toText = false) :
    Language.java.classify? f.toText = if f.IsRead then some ⟨3, .field, f.name⟩ else none := by
  have hmethod : ∀ rule ∈ Language.javaRules, rule.kind = .method →
      rule.pattern.occursIn f.toText = false := by
    intro rule hrule hkind
    rw [← Bool.not_eq_true]
    intro hoccurs
    have hopen := Language.open_mem_of_method hrule hkind hoccurs
    have hnone : '(' ∉ f.toText := by
      simpa [toText] using f.not_mem_body (c := '(') (by decide)
    exact hnone hopen
  obtain ⟨classRule, interfaceRule, methodRule, hrules, hclass, hinterface, hkind⟩ :=
    Language.exists_javaRules_eq
  rw [Language.rules] at hplain
  rw [hrules] at hplain hmethod
  rw [Language.classify?, Language.rules, hrules,
    classifyFrom_cons_of_not_occurs (hplain classRule (by simp) (.inl hclass)),
    classifyFrom_cons_of_not_occurs (hplain interfaceRule (by simp) (.inr hinterface)),
    classifyFrom_cons_of_not_occurs (hmethod methodRule (by simp) hkind), classifyFrom,
    f.nameIn?_fieldRule]
  by_cases hread : f.IsRead
  · rw [if_pos hread, if_pos hread]
    rfl
  · rw [if_neg hread, if_neg hread]
    rfl

end

def sample (modifiers : List Text)
    (h : ∀ modifier ∈ modifiers, modifier ∈ Language.fieldModifiers) : FieldLine where
  margin := "  "
  modifiers := modifiers.map fun modifier => (modifier, [' '])
  type := "List<T>[]"
  gap := "\t "
  name := "items"
  margin_blank := List.all_eq_true.mp (by decide)
  modifiers_known := by
    intro modifier hmodifier
    obtain ⟨word, hword, rfl⟩ := List.mem_map.mp hmodifier
    exact ⟨h word hword, show IsGap [' '] by decide⟩
  type_chars := ⟨by decide, List.all_eq_true.mp (by decide +kernel)⟩
  gap_blank := by decide
  name_chars := ⟨by decide, List.all_eq_true.mp (by decide)⟩

theorem classify?_toText_one_modifier :
    (sample ["final"] (by decide)).toText = "  final List<T>[]\t items;".toList ∧
      Language.java.classify? (sample ["final"] (by decide)).toText =
        some ⟨3, .field, "items"⟩ :=
  ⟨by decide, classify?_toText (sample ["final"] (by decide)) (by decide +kernel)⟩

theorem classify?_toText_two_modifiers :
    (sample ["static", "final"] (by decide)).toText =
        "  static final List<T>[]\t items;".toList ∧
      (∀ rule ∈ Language.java.rules, rule.kind = .classType ∨ rule.kind = .interfaceType →
        rule.pattern.occursIn (sample ["static", "final"] (by decide)).toText = false) ∧
      Language.java.classify? (sample ["static", "final"] (by decide)).toText = none := by
  refine ⟨by decide, by decide +kernel, by decide +kernel⟩

end FieldLine

end SourceScout
