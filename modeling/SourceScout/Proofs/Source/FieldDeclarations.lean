import SourceScout.Proofs.Pattern.Extension
import SourceScout.Proofs.Text.Margins
import SourceScout.Source.ModelField

/-!
# What the declaration of a field reads

A declaration is read up to its semicolon: modifiers, the type, the name, and perhaps a value. The
text behind the semicolon plays no part in it.
-/

namespace SourceScout

namespace ModelField

open Pattern Place
open Text (IsGap exists_margins firstWord?_eq_head?_words isTight_iff isTight_strip
  strip_solid_append words words_strip)

def modifiers : Pattern :=
  atStart ++ optional (anyOf ["public", "protected", "private"]) ++ blanks ++
    optional (word "static" ++ blanks1) ++ optional (word "final" ++ blanks1)

def upToName : Pattern :=
  modifiers ++ (capture (many1 isTypeText) ++ (blanks1 ++ (Pattern.name ++ blanks)))

def ending : Pattern := optional (char '=' ++ many (· != '\n')) ++ char ';'

theorem ways_declaration : declaration.ways = (upToName ++ ending).ways := by
  simp only [declaration, upToName, modifiers, ending, ways_append, List.flatMap_assoc]

def ofCaptured (texts : List Text) : Option (Text × Text) :=
  if isDeclaration (texts.getD 0 []) then
    some (Text.strip (texts.getD 1 []), Text.strip (texts.getD 0 []))
  else none

theorem declared?_eq (code : Text) : declared? code =
    if '(' ∈ code then none
    else ((upToName ++ ending).captured? (.start code)).bind ofCaptured := by
  simp only [declared?, List.contains_iff_mem, matchStart?, matchHere?, captured?,
    ← ways_declaration, Option.bind_map]
  rfl

/-! ## Name and type -/

structure DeclaresMember (code name type : Text) : Prop where
  closed : '(' ∉ code
  name_ne_nil : name ≠ []
  name_chars : ∀ c ∈ name, isNameChar c = true
  type_ne_nil : type ≠ []
  type_stripped : type.strip = type
  type_chars : ∀ c ∈ type, isTypeText c = true
  first_word : ∃ first ∈ (words type).head?, first ∉ statementWords
  placed : ∃ before gap after, IsGap gap ∧ code = before ++ (type ++ (gap ++ (name ++ after)))

theorem exists_of_captured? {code : Text} {texts : List Text}
    (h : (upToName ++ ending).captured? (.start code) = some texts) :
    ∃ before type gap name after : Text, IsGap gap ∧ (∀ c ∈ type, isTypeText c = true) ∧
      (name ≠ [] ∧ ∀ c ∈ name, isNameChar c = true) ∧
      code = before ++ (type ++ (gap ++ (name ++ after))) ∧ texts = [type, name] := by
  obtain ⟨q, hq, rfl⟩ := Option.map_eq_some_iff.mp h
  obtain ⟨m, hm, hend⟩ := mem_ways_append.mp (List.mem_of_mem_head? hq)
  obtain ⟨before, type, middle, -, htype, hreads, hcaptures, hmore⟩ :=
    exists_mem_ways_behind_capture rfl rfl hm
  obtain ⟨gap, name, after, hgap, hname, -, hreads', hcaptures'⟩ :=
    exists_takes_around_capture rfl rfl rfl hmore
  refine ⟨before, type, gap, name, after ++ m.rest, takes_many1.mp hgap, (takes_many1.mp htype).2,
    takes_many1.mp hname, ?_, ?_⟩
  · have hall : code = before ++ type ++ (gap ++ (name ++ after)) ++ m.rest :=
      (hreads.trans hreads').rest
    simpa only [List.append_assoc] using hall
  · rw [captures_eq_of_mem_ways rfl hend, hcaptures', hcaptures]
    rfl

theorem isDeclaration_iff {type : Text} : isDeclaration type = true ↔
    ∃ first ∈ (words type).head?, first ∉ statementWords := by
  rw [isDeclaration, firstWord?_eq_head?_words]
  cases (words type).head? with
  | none => simp
  | some first => simp

theorem ofCaptured_eq_some {type name : Text} {found : Text × Text}
    (h : ofCaptured [type, name] = some found) :
    isDeclaration type = true ∧ found = (name.strip, type.strip) := by
  rw [ofCaptured] at h
  split at h
  · rename_i hdeclaration
    exact ⟨hdeclaration, (Option.some.inj h).symm⟩
  · cases h

theorem declaresMember_of_declared? {code name type : Text}
    (h : declared? code = some (name, type)) :
    DeclaresMember code name type := by
  rw [declared?_eq] at h
  by_cases hclosed : '(' ∈ code
  · rw [if_pos hclosed] at h
    cases h
  · rw [if_neg hclosed] at h
    obtain ⟨texts, hcaptured, htexts⟩ := Option.bind_eq_some_iff.mp h
    obtain ⟨before, read, gap, word, after, hgap, hread, hword, hcode, rfl⟩ :=
      exists_of_captured? hcaptured
    obtain ⟨hdeclaration, hfound⟩ := ofCaptured_eq_some htexts
    have hstrip : word.strip = word := by
      have hsolid := strip_solid_append (isSolid_of_isNameChar hword) (List.forall_mem_nil _)
      rwa [List.append_nil] at hsolid
    obtain ⟨rfl, rfl⟩ : name = word ∧ type = read.strip := by
      rw [hstrip] at hfound
      exact Prod.mk.inj hfound
    obtain ⟨left, right, hleft, hright, hmargins⟩ := exists_margins read
    have hfirst : ∃ first ∈ (words read.strip).head?, first ∉ statementWords := by
      rw [words_strip]
      exact isDeclaration_iff.mp hdeclaration
    have hgap' : IsGap (right ++ gap) :=
      ⟨List.append_ne_nil_of_right_ne_nil _ hgap.1, List.forall_mem_append.mpr ⟨hright, hgap.2⟩⟩
    refine ⟨hclosed, hword.1, hword.2, ?_, isTight_iff.mp (isTight_strip read), ?_, hfirst,
      before ++ left, right ++ gap, after, hgap', ?_⟩
    · intro hnil
      obtain ⟨first, hmem, -⟩ := hfirst
      rw [hnil] at hmem
      cases hmem
    · intro c hc
      apply hread c
      rw [hmargins]
      exact List.mem_append_right _ (List.mem_append_left _ hc)
    · conv_lhs => rw [hcode, hmargins]
      simp only [List.append_assoc]

/-! ## The text behind the semicolon -/

theorem takes_ending {t : Text} : ending.Takes t ↔
    t = [';'] ∨ ∃ value : Text, '\n' ∉ value ∧ t = '=' :: (value ++ [';']) := by
  have hvalue : ∀ {value : Text}, (many (· != '\n')).Takes value ↔ '\n' ∉ value := by
    intro value
    constructor
    · intro h hmem
      simpa using h '\n' hmem
    · intro h c hc
      have hne : c ≠ '\n' := fun heq => h (heq ▸ hc)
      simpa using hne
  constructor
  · rintro ⟨left, right, ⟨_, value, hmark, hchars, rfl⟩ | rfl, hend, rfl⟩
    · obtain rfl := takes_char.mp hmark
      obtain rfl := takes_char.mp hend
      exact .inr ⟨value, hvalue.mp hchars, rfl⟩
    · exact .inl (takes_char.mp hend)
  · rintro (rfl | ⟨value, hchars, rfl⟩)
    · exact ⟨[], [';'], .inr rfl, takes_char.mpr rfl, rfl⟩
    · exact ⟨'=' :: value, [';'], .inl ⟨['='], value, takes_char.mpr rfl, hvalue.mpr hchars, rfl⟩,
        takes_char.mpr rfl, rfl⟩

theorem ways_ending_ne_nil_iff {p : Place} {before more : Text}
    (hrest : p.rest = before ++ ';' :: more) (hbefore : '\n' ∉ before) :
    ending.ways p ≠ [] ↔ p.rest.head? = some ';' ∨ p.rest.head? = some '=' := by
  constructor
  · intro h
    obtain ⟨q, hq⟩ := List.exists_mem_of_ne_nil _ h
    obtain ⟨taken, htaken, hreads⟩ := exists_takes_of_mem_ways hq
    rw [hreads.rest]
    rcases takes_ending.mp htaken with rfl | ⟨value, -, rfl⟩
    · exact .inl rfl
    · exact .inr rfl
  · intro h
    obtain ⟨taken, rest, htaken, hsplit⟩ : ∃ taken rest, ending.Takes taken ∧
        p.rest = taken ++ rest := by
      rcases h with hhead | hhead
      · obtain ⟨rest, hsplit⟩ := List.head?_eq_some_iff.mp hhead
        exact ⟨[';'], rest, takes_ending.mpr (.inl rfl), hsplit⟩
      · obtain ⟨value, rfl⟩ : ∃ value, before = '=' :: value := by
          cases before with
          | nil => rw [hrest] at hhead; cases hhead
          | cons c value =>
            rw [hrest] at hhead
            exact ⟨value, congrArg (· :: value) (Option.some.inj hhead)⟩
        refine ⟨'=' :: (value ++ [';']), more, takes_ending.mpr (.inr ⟨value, ?_, rfl⟩), ?_⟩
        · exact List.not_mem_of_not_mem_cons hbefore
        · rw [hrest, List.cons_append, List.cons_append, List.append_assoc]
          rfl
    obtain ⟨q, hq, -⟩ := exists_mem_ways_of_takes rfl htaken hsplit
    exact List.ne_nil_of_mem hq

theorem declared?_append {code more : Text} (hcode : '\n' ∉ code)
    (hend : ∃ front, code = front ++ [';']) (hmore : '(' ∉ more) :
    declared? (code ++ more) = declared? code := by
  obtain ⟨front, rfl⟩ := hend
  have hstart : Extends ';' more (.start (front ++ [';'])) (.start (front ++ [';'] ++ more)) :=
    ⟨rfl, rfl, rfl, rfl, List.mem_append_right _ (List.mem_singleton_self _)⟩
  have hsame : ∀ a ∈ upToName.ways (.start (front ++ [';'])), ∀ b, Extends ';' more a b →
      (ending.ways a = [] ↔ ending.ways b = []) := by
    intro a ha b hab
    obtain ⟨taken, hreads⟩ := exists_reads_of_mem_ways ha
    -- what is left still ends with the semicolon
    obtain ⟨before, hbefore⟩ : ∃ before, a.rest = before ++ [';'] := by
      have hlast := congrArg List.getLast? hreads.rest
      rw [List.getLast?_append_of_ne_nil _ (List.ne_nil_of_mem hab.ahead)] at hlast
      exact List.getLast?_eq_some_iff.mp (hlast.symm.trans List.getLast?_concat)
    have hline : '\n' ∉ before := by
      intro hmem
      refine hcode ?_
      have hall : front ++ [';'] = taken ++ a.rest := hreads.rest
      rw [hall, hbefore]
      exact List.mem_append_right _ (List.mem_append_left _ hmem)
    have hlonger : b.rest = before ++ ';' :: more := by
      rw [hab.rest, hbefore, List.append_assoc]
      rfl
    have hhead : b.rest.head? = a.rest.head? := by
      rw [hab.rest, List.head?_append_of_ne_nil _ (List.ne_nil_of_mem hab.ahead)]
    have hways := ways_ending_ne_nil_iff hlonger hline
    rw [hhead] at hways
    exact not_iff_not.mp ((ways_ending_ne_nil_iff hbefore hline).trans hways.symm)
  rw [declared?_eq, declared?_eq, captured?_extends rfl rfl hsame hstart]
  simp only [List.mem_append, hmore, or_false]

end ModelField

end SourceScout
