import SourceScout.Proofs.Pattern.Searching
import SourceScout.Proofs.Project.DistinctNames
import SourceScout.Proofs.Text.Words
import SourceScout.Source.CalledField

/-!
# Names in front of a dot, and the types of fields

A name is called where it stands as a whole run of word characters, a dot behind it. A field is
declared by the words of a line up to its semicolon; of several declarations the last one counts.
-/

namespace SourceScout.CalledField

open Pattern Place
open Text (IsGap IsSolid not_mem_of_forall takeWhile_append_cons words words_append_gap
  words_blanks_append words_solid words_solid_append_blanks)

structure Named (cls : Char → Bool) (t : Text) : Prop where
  start : t.head?.any isNameStart = true
  chars : ∀ c ∈ t, cls c = true

theorem Named.ne_nil {cls : Char → Bool} {t : Text} (h : Named cls t) : t ≠ [] := by
  rintro rfl
  cases h.start

theorem isWordChar_of_isNameStart {c : Char} (h : isNameStart c = true) : isWordChar c = true := by
  rw [isNameStart, Bool.or_eq_true] at h
  have hname : isNameChar c = true := by
    rcases h with halpha | hline
    · simp [isNameChar, Char.isAlphanum, halpha]
    · simp [isNameChar, hline]
  rcases isWordChar_of_isNameChar hname with hword | rfl
  · exact hword
  · revert h
    decide

def nameOf (cls : Char → Bool) : Pattern := one isNameStart ++ many cls

theorem takes_nameOf {cls : Char → Bool} (hcls : ∀ c, isNameStart c = true → cls c = true)
    {t : Text} : (nameOf cls).Takes t ↔ Named cls t := by
  constructor
  · rintro ⟨_, rest, ⟨c, hc, rfl⟩, hrest, rfl⟩
    exact ⟨hc, List.forall_mem_cons.mpr ⟨hcls c hc, hrest⟩⟩
  · rintro ⟨hstart, hchars⟩
    cases t with
    | nil => cases hstart
    | cons c rest => exact ⟨[c], rest, ⟨c, hstart, rfl⟩, (List.forall_mem_cons.mp hchars).2, rfl⟩

theorem takes_name {t : Text} : (nameOf isWordChar).Takes t ↔ Named isWordChar t :=
  takes_nameOf fun _ => isWordChar_of_isNameStart

/-! ## Calls -/

/-- At a position of the code a name stands as a run of word characters that goes on to neither
side, and behind it comes a dot, with nothing but blanks between. -/
structure CalledAt (code : Text) (k : Nat) (name : Text) : Prop where
  named : Named isWordChar name
  placed : ∃ before after, before.length = k ∧ code = before ++ (name ++ after) ∧
    before.getLast?.any isWordChar = false ∧ after.head?.any isWordChar = false ∧
    ∃ gap rest, (∀ c ∈ gap, isBlank c = true) ∧ after = gap ++ '.' :: rest

theorem ways_call :
    call.ways = (atWordEdge ++ (capture (nameOf isWordChar) ++ (blanks ++ char '.'))).ways := by
  simp only [call, nameOf, ways_append, List.flatMap_assoc]

section

variable {before rest name gap : Text}

theorem exists_of_mem_ways_call {q : Place} (h : q ∈ call.ways (behind before rest)) :
    ∃ name gap after, Named isWordChar name ∧ (∀ c ∈ gap, isBlank c = true) ∧
      rest = name ++ (gap ++ '.' :: after) ∧ before.getLast?.any isWordChar = false ∧
      (behind before rest).Reads (name ++ (gap ++ ['.'])) q ∧
      q.captures.map Stretch.toText = [name] := by
  rw [ways_call] at h
  obtain ⟨_, name, _, hedge, hname, ⟨gap, _, hgap, hdot, rfl⟩, hreads, hcaptures⟩ :=
    exists_takes_around_capture rfl rfl rfl h
  obtain rfl := hedge
  obtain rfl := takes_char.mp hdot
  have hnamed : Named isWordChar name := takes_name.mp hname
  have hrest : rest = name ++ (gap ++ '.' :: q.rest) := by
    have hall := hreads.rest
    simpa [behind] using hall
  refine ⟨name, gap, q.rest, hnamed, hgap, hrest, ?_, hreads, hcaptures⟩
  -- the edge lies before a word character, so none stands on its other side
  obtain ⟨m, hm, -⟩ := mem_ways_append.mp h
  have hword := ((mem_ways_atWordEdge (stands_behind before rest)).mp hm).2
  obtain ⟨c, cs, rfl⟩ := List.exists_cons_of_ne_nil hnamed.ne_nil
  have hc : isWordChar c = true := hnamed.chars c List.mem_cons_self
  simpa [Text.isWordEdge, behind, hrest, hc] using hword

theorem exists_mem_ways_call (hname : Named isWordChar name) (hgap : ∀ c ∈ gap, isBlank c = true)
    (hbefore : before.getLast?.any isWordChar = false) (after : Text) :
    ∃ q, q ∈ call.ways (behind before (name ++ (gap ++ '.' :: after))) := by
  have hedge : behind before (name ++ (gap ++ '.' :: after)) ∈
      atWordEdge.ways (behind before (name ++ (gap ++ '.' :: after))) := by
    refine (mem_ways_atWordEdge (stands_behind _ _)).mpr ⟨rfl, ?_⟩
    obtain ⟨c, cs, rfl⟩ := List.exists_cons_of_ne_nil hname.ne_nil
    simp [Text.isWordEdge, behind, hbefore, hname.chars c List.mem_cons_self]
  have htakes : (capture (nameOf isWordChar) ++ (blanks ++ char '.')).Takes
      (name ++ (gap ++ ['.'])) :=
    ⟨name, _, takes_name.mpr hname, ⟨gap, _, hgap, takes_char.mpr rfl, rfl⟩, rfl⟩
  have hrest : (behind before (name ++ (gap ++ '.' :: after))).rest =
      name ++ (gap ++ ['.']) ++ after := by
    simp [behind]
  obtain ⟨q, hq, -⟩ := exists_mem_ways_of_takes rfl htakes hrest
  rw [ways_call]
  exact ⟨q, mem_ways_append.mpr ⟨_, hedge, hq⟩⟩

end

section

variable {code name : Text} {k : Nat}

theorem CalledAt.eq_takeWhile (h : CalledAt code k name) :
    name = (code.drop k).takeWhile isWordChar := by
  obtain ⟨hnamed, before, after, rfl, rfl, -, hstop, -⟩ := h
  rw [List.drop_left, List.takeWhile_append_of_pos hnamed.chars]
  cases after with
  | nil => rw [List.takeWhile_nil, List.append_nil]
  | cons c after =>
    have hc : isWordChar c = false := hstop
    simp [hc]

theorem matchAt?_call_eq_some {m : Match} (h : call.matchAt? code k = some m) :
    ∃ name gap, CalledAt code k name ∧ (∀ c ∈ gap, isBlank c = true) ∧ m.captures = [name] ∧
      m.text = name ++ (gap ++ ['.']) ∧ ∃ after, code.drop k = m.text ++ after := by
  rw [matchAt?, matchHere?_behind, Option.map_eq_some_iff] at h
  obtain ⟨q, hq, rfl⟩ := h
  obtain ⟨name, gap, after, hnamed, hgap, hrest, hbefore, hreads, hcaptures⟩ :=
    exists_of_mem_ways_call (List.mem_of_head? hq)
  have hk : k ≤ code.length := by
    by_contra hlong
    rw [List.drop_eq_nil_of_le (by omega)] at hrest
    exact absurd hrest.symm (by simp)
  refine ⟨name, gap, ⟨hnamed, code.take k, gap ++ '.' :: after, ?_, ?_, hbefore, ?_, gap, after,
    hgap, rfl⟩, hgap, hcaptures, hreads.toText_stretchTo, after, ?_⟩
  · rw [List.length_take, Nat.min_eq_left hk]
  · rw [← hrest, List.take_append_drop]
  · cases gap with
    | nil => exact (by decide : isWordChar '.' = false)
    | cons c gap => exact not_isWordChar_of_isBlank (hgap c List.mem_cons_self)
  · rw [hreads.toText_stretchTo, hrest]
    simp

theorem exists_matchAt?_call (h : CalledAt code k name) :
    ∃ m, call.matchAt? code k = some m ∧ m.capture 0 = name := by
  have hname := h.eq_takeWhile
  obtain ⟨hnamed, before, _, rfl, rfl, hbefore, -, gap, after, hgap, rfl⟩ := h
  obtain ⟨m, hm⟩ := Option.isSome_iff_exists.mp
    (isSome_matchHere?_iff.mpr (exists_mem_ways_call hnamed hgap hbefore after))
  have hmatch : call.matchAt? (before ++ (name ++ (gap ++ '.' :: after))) before.length =
      some m := by
    rw [matchAt?, List.take_left, List.drop_left, hm]
  obtain ⟨other, -, hother, -, hcaptures, -⟩ := matchAt?_call_eq_some hmatch
  refine ⟨m, hmatch, ?_⟩
  rw [Match.capture, hcaptures, hname, ← hother.eq_takeWhile]
  rfl

theorem CalledAt.isWordChar_here (h : CalledAt code k name) : code[k]?.any isWordChar = true := by
  obtain ⟨hnamed, before, after, rfl, rfl, -⟩ := h
  obtain ⟨c, cs, rfl⟩ := List.exists_cons_of_ne_nil hnamed.ne_nil
  simpa using hnamed.chars c List.mem_cons_self

theorem CalledAt.not_isWordChar_before (h : CalledAt code (k + 1) name) :
    code[k]?.any isWordChar = false := by
  obtain ⟨-, before, after, hlength, rfl, hbefore, -⟩ := h
  rw [List.getElem?_append_left (by omega)]
  rwa [List.getLast?_eq_getElem?, hlength] at hbefore

theorem call_apart (code : Text) : call.Apart code := by
  intro k m hm
  obtain ⟨name, gap, hname, hgap, -, htext, after, hdrop⟩ := matchAt?_call_eq_some hm
  refine ⟨by simp [htext], fun j hkj hj => ?_⟩
  by_contra hother
  obtain ⟨other, hother⟩ := Option.ne_none_iff_exists'.mp hother
  obtain ⟨inner, -, hinner, -⟩ := matchAt?_call_eq_some hother
  have hget : ∀ i, code[k + i]? = (m.text ++ after)[i]? := fun i => by
    rw [← hdrop, List.getElem?_drop]
  obtain ⟨i, rfl⟩ : ∃ i, j = k + (i + 1) := ⟨j - k - 1, by omega⟩
  rw [htext] at hget hj
  simp only [List.length_append, List.length_singleton] at hj
  by_cases hi : i < name.length
  · -- inside of the name a word character stands before the position
    have hbefore : code[k + i]?.any isWordChar = false := hinner.not_isWordChar_before
    rw [hget, List.append_assoc, List.getElem?_append_left hi, List.getElem?_eq_getElem hi,
      Option.any_some, hname.named.chars _ (List.getElem_mem hi)] at hbefore
    cases hbefore
  · -- behind the name there is no word character to start with
    have hhere := hinner.isWordChar_here
    have hlt : i + 1 - name.length < (gap ++ ['.']).length := by
      rw [List.length_append, List.length_singleton]
      omega
    rw [hget, List.append_assoc, List.getElem?_append_right (by omega),
      List.getElem?_append_left hlt, List.getElem?_eq_getElem hlt, Option.any_some] at hhere
    have hnone : ∀ c ∈ gap ++ ['.'], isWordChar c = false :=
      List.forall_mem_append.mpr ⟨fun c hc => not_isWordChar_of_isBlank (hgap c hc),
        List.forall_mem_singleton.mpr (by decide)⟩
    rw [hnone _ (List.getElem_mem hlt)] at hhere
    cases hhere

theorem calledAt_iff : CalledAt code k name ↔
    (call.matchAt? code k).map (·.capture 0) = some name := by
  rw [Option.map_eq_some_iff]
  constructor
  · exact exists_matchAt?_call
  · rintro ⟨m, hm, rfl⟩
    obtain ⟨name, -, hname, -, hcaptures, -⟩ := matchAt?_call_eq_some hm
    rwa [Match.capture, hcaptures]

theorem listed_calledIn (code : Text) :
    Listed (fun k name => CalledAt code k name ∧ ∀ j < k, ¬CalledAt code j name) code.length
      (calledIn code) := by
  have hall : Listed (CalledAt code) code.length ((call.findAll code).map (·.capture 0)) := by
    rw [findAll_eq_filterMap (call_apart code), List.map_filterMap]
    exact (Listed.of_filterMap_range _ _).congr fun k _ name => calledAt_iff.symm
  exact hall.eraseDups

theorem nodup_calledIn (code : Text) : (calledIn code).Nodup := nodup_eraseDups _

end

/-! ## Declarations -/

def modifiers : List Text := ["private", "protected", "public"]

def isTypeChar (c : Char) : Bool := isWordChar c || c == '<' || c == '>'

/-- The words of the line up to its semicolon: a modifier, perhaps `final`, a type and a name. -/
structure Declares (line type name : Text) : Prop where
  closed : ';' ∈ line
  typed : Named isTypeChar type
  named : Named isWordChar name
  words : ∃ modifier ∈ modifiers, ∃ marks : List Text, (marks = [] ∨ marks = ["final"]) ∧
    Text.words (line.takeWhile (· != ';')) = modifier :: (marks ++ [type, name])

theorem Declares.unique {line type name type' name' : Text} (h : Declares line type name)
    (h' : Declares line type' name') : type = type' ∧ name = name' := by
  obtain ⟨modifier, -, marks, hmarks, hwords⟩ := h.words
  obtain ⟨modifier', -, marks', hmarks', hwords'⟩ := h'.words
  obtain ⟨-, hsame⟩ := List.cons_eq_cons.mp (hwords.symm.trans hwords')
  have hpair := List.append_inj_right' hsame rfl
  simpa using hpair

theorem Named.isSolid {cls : Char → Bool} {t : Text} (h : Named cls t)
    (hcls : ∀ c, cls c = true → isTypeChar c = true) : IsSolid t := by
  refine ⟨h.ne_nil, fun c hc => ?_⟩
  have hchar := hcls c (h.chars c hc)
  simp only [isTypeChar, Bool.or_eq_true, beq_iff_eq] at hchar
  rcases hchar with (hword | rfl) | rfl
  · exact not_isBlank_of_isWordChar hword
  all_goals rfl

theorem isTypeChar_of_isWordChar {c : Char} (h : isWordChar c = true) : isTypeChar c = true := by
  rw [isTypeChar, h]
  rfl

theorem takes_type {t : Text} : (nameOf isTypeChar).Takes t ↔ Named isTypeChar t :=
  takes_nameOf fun _ hc => isTypeChar_of_isWordChar (isWordChar_of_isNameStart hc)

def beforeType : Pattern :=
  blanks ++ (anyOf modifiers ++ (blanks1 ++ optional (word "final" ++ blanks1)))

def fieldParts : Pattern :=
  beforeType ++ (capture (nameOf isTypeChar) ++ (blanks1 ++
    (capture (nameOf isWordChar) ++ (blanks ++ char ';'))))

theorem ways_declaration (line : Text) :
    declaration.ways (.start line) = fieldParts.ways (.start line) := by
  have hrule : declaration.ways = (atStart ++ fieldParts).ways := by
    change (atStart ++ blanks ++ anyOf modifiers ++ blanks1 ++ optional (word "final" ++ blanks1) ++
      capture (nameOf isTypeChar) ++ blanks1 ++ capture (nameOf isWordChar) ++ blanks ++
      char ';').ways = _
    simp only [fieldParts, beforeType, ways_append, List.flatMap_assoc]
  rw [hrule]
  simp [ways_append, ways, Place.start]

theorem named_of_mem_modifiers {modifier : Text} (h : modifier ∈ modifiers) :
    Named isWordChar modifier := by
  have hall : ∀ modifier ∈ modifiers,
      modifier.head?.any isNameStart = true ∧ modifier.all isWordChar = true := by
    decide +kernel
  exact ⟨(hall modifier h).1, List.all_eq_true.mp (hall modifier h).2⟩

theorem named_final : Named isWordChar "final" :=
  ⟨by decide, List.all_eq_true.mp (by decide)⟩

theorem takes_beforeType {t : Text} : beforeType.Takes t ↔ ∃ margin modifier gap mark : Text,
    (∀ c ∈ margin, isBlank c = true) ∧ modifier ∈ modifiers ∧ IsGap gap ∧
    (mark = [] ∨ ∃ space, IsGap space ∧ mark = "final" ++ space) ∧
    t = margin ++ (modifier ++ (gap ++ mark)) := by
  constructor
  · rintro ⟨margin, _, hmargin, ⟨modifier, _, hmodifier, ⟨gap, mark, hgap, hmark, rfl⟩, rfl⟩, rfl⟩
    refine ⟨margin, modifier, gap, mark, hmargin, takes_anyOf.mp hmodifier, takes_many1.mp hgap,
      ?_, rfl⟩
    rcases hmark with ⟨_, space, rfl, hspace, rfl⟩ | hnone
    · exact .inr ⟨space, takes_many1.mp hspace, rfl⟩
    · exact .inl hnone
  · rintro ⟨margin, modifier, gap, mark, hmargin, hmodifier, hgap, hmark, rfl⟩
    refine ⟨margin, _, hmargin, ⟨modifier, _, takes_anyOf.mpr hmodifier, ⟨gap, mark,
      takes_many1.mpr hgap, ?_, rfl⟩, rfl⟩, rfl⟩
    rcases hmark with hnone | ⟨space, hspace, rfl⟩
    · exact .inr hnone
    · exact .inl ⟨_, space, rfl, takes_many1.mpr hspace, rfl⟩

theorem words_beforeType {before : Text} (h : beforeType.Takes before) :
    ∃ modifier ∈ modifiers, ∃ marks : List Text, (marks = [] ∨ marks = ["final"]) ∧
      ∀ t, words (before ++ t) = modifier :: (marks ++ words t) := by
  obtain ⟨margin, modifier, gap, mark, hmargin, hmodifier, hgap, hmark, rfl⟩ :=
    takes_beforeType.mp h
  have hfirst : words modifier = [modifier] :=
    words_solid ((named_of_mem_modifiers hmodifier).isSolid fun _ => isTypeChar_of_isWordChar)
  rcases hmark with rfl | ⟨space, hspace, rfl⟩
  · refine ⟨modifier, hmodifier, [], .inl rfl, fun t => ?_⟩
    rw [List.append_nil, List.append_assoc, List.append_assoc, words_blanks_append hmargin,
      words_append_gap hgap, hfirst]
    rfl
  · have hfinal : words "final" = ["final"] :=
      words_solid (named_final.isSolid fun _ => isTypeChar_of_isWordChar)
    refine ⟨modifier, hmodifier, ["final"], .inr rfl, fun t => ?_⟩
    rw [List.append_assoc, List.append_assoc, List.append_assoc, List.append_assoc,
      words_blanks_append hmargin, words_append_gap hgap, hfirst, words_append_gap hspace, hfinal]
    rfl

theorem exists_takes_beforeType {t modifier type : Text} {marks more : List Text}
    (hmodifier : modifier ∈ modifiers) (hmarks : marks = [] ∨ marks = ["final"])
    (h : words t = modifier :: (marks ++ type :: more)) :
    ∃ before rest, beforeType.Takes before ∧ t = before ++ (type ++ rest) ∧
      (∀ c ∈ rest.head?, isBlank c = true) ∧ words rest = more := by
  obtain ⟨margin, rest, hmargin, rfl, -, hrest, hwords⟩ := Text.exists_of_words_eq_cons h
  rcases hmarks with rfl | rfl
  · obtain ⟨gap, rest, hgap, rfl, -, hrest, hmore⟩ := Text.exists_gap_of_words_eq_cons hrest hwords
    refine ⟨_, rest, takes_beforeType.mpr ⟨margin, modifier, gap, [], hmargin, hmodifier, hgap,
      .inl rfl, rfl⟩, ?_, hrest, hmore⟩
    simp only [List.append_assoc, List.append_nil]
  · obtain ⟨gap, rest, hgap, rfl, -, hrest, hwords⟩ := Text.exists_gap_of_words_eq_cons hrest hwords
    obtain ⟨space, rest, hspace, rfl, -, hrest, hmore⟩ :=
      Text.exists_gap_of_words_eq_cons hrest hwords
    refine ⟨_, rest, takes_beforeType.mpr ⟨margin, modifier, gap, "final" ++ space, hmargin,
      hmodifier, hgap, .inr ⟨space, hspace, rfl⟩, rfl⟩, ?_, hrest, hmore⟩
    simp only [List.append_assoc]

theorem semicolon_not_mem_beforeType {before : Text} (h : beforeType.Takes before) :
    ';' ∉ before := by
  obtain ⟨margin, modifier, gap, mark, hmargin, hmodifier, hgap, hmark, rfl⟩ :=
    takes_beforeType.mp h
  have hblank : isBlank ';' = false := by decide
  have hword : isWordChar ';' = false := by decide
  have hmarked : ';' ∉ mark := by
    rcases hmark with rfl | ⟨space, hspace, rfl⟩
    · exact List.not_mem_nil
    · rw [List.mem_append, not_or]
      exact ⟨not_mem_of_forall named_final.chars hword, not_mem_of_forall hspace.2 hblank⟩
  simp only [List.mem_append, not_or]
  exact ⟨not_mem_of_forall hmargin hblank,
    not_mem_of_forall (named_of_mem_modifiers hmodifier).chars hword,
    not_mem_of_forall hgap.2 hblank, hmarked⟩

theorem declares_iff {line type name : Text} : Declares line type name ↔
    ∃ before space tail rest : Text, beforeType.Takes before ∧ Named isTypeChar type ∧
      IsGap space ∧ Named isWordChar name ∧ (∀ c ∈ tail, isBlank c = true) ∧
      line = before ++ (type ++ (space ++ (name ++ tail))) ++ ';' :: rest := by
  constructor
  · rintro ⟨hclosed, htyped, hnamed, modifier, hmodifier, marks, hmarks, hwords⟩
    obtain ⟨before, rest, hbefore, hbody, hrest, hwords⟩ :=
      exists_takes_beforeType hmodifier hmarks hwords
    obtain ⟨space, tail, hspace, rfl, -, -, hend⟩ := Text.exists_gap_of_words_eq_cons hrest hwords
    obtain ⟨left, right, rfl, hleft⟩ := List.eq_append_cons_of_mem hclosed
    refine ⟨before, space, tail, right, hbefore, htyped, hspace, hnamed,
      Text.isBlank_of_words_eq_nil hend, ?_⟩
    rw [← hbody, takeWhile_append_cons hleft]
  · rintro ⟨before, space, tail, rest, hbefore, htyped, hspace, hnamed, htail, rfl⟩
    obtain ⟨modifier, hmodifier, marks, hmarks, hwords⟩ := words_beforeType hbefore
    refine ⟨by simp, htyped, hnamed, modifier, hmodifier, marks, hmarks, ?_⟩
    have hblank : isBlank ';' = false := by decide
    have hnone : ';' ∉ before ++ (type ++ (space ++ (name ++ tail))) := by
      simp only [List.mem_append, not_or]
      exact ⟨semicolon_not_mem_beforeType hbefore, not_mem_of_forall htyped.chars (by decide),
        not_mem_of_forall hspace.2 hblank, not_mem_of_forall hnamed.chars (by decide),
        not_mem_of_forall htail hblank⟩
    rw [takeWhile_append_cons hnone, hwords, words_append_gap hspace,
      words_solid (htyped.isSolid fun _ h => h),
      words_solid_append_blanks (hnamed.isSolid fun _ => isTypeChar_of_isWordChar) htail]
    rfl

theorem declares_of_mem_ways {line : Text} {q : Place} (h : q ∈ declaration.ways (.start line)) :
    ∃ type name, Declares line type name ∧ q.captures.map Stretch.toText = [type, name] := by
  rw [ways_declaration, fieldParts] at h
  obtain ⟨before, type, m, hbefore, htype, hreads, hcaptures, hq⟩ :=
    exists_mem_ways_behind_capture rfl rfl h
  obtain ⟨space, name, _, hspace, hname, ⟨tail, _, htail, hclose, rfl⟩, hreads', hcaptures'⟩ :=
    exists_takes_around_capture rfl rfl rfl hq
  obtain rfl := takes_char.mp hclose
  have hline : line = before ++ type ++ (space ++ (name ++ (tail ++ [';']))) ++ q.rest :=
    (hreads.trans hreads').rest
  refine ⟨type, name, declares_iff.mpr ⟨before, space, tail, q.rest, hbefore, takes_type.mp htype,
    takes_many1.mp hspace, takes_name.mp hname, htail, ?_⟩, ?_⟩
  · rw [hline]
    simp only [List.append_assoc, List.singleton_append]
  · rw [hcaptures', hcaptures]
    rfl

theorem exists_mem_ways_of_declares {line type name : Text} (h : Declares line type name) :
    ∃ q, q ∈ declaration.ways (.start line) := by
  obtain ⟨before, space, tail, rest, hbefore, htyped, hspace, hnamed, htail, rfl⟩ :=
    declares_iff.mp h
  have htakes : fieldParts.Takes (before ++ (type ++ (space ++ (name ++ (tail ++ [';']))))) :=
    ⟨before, _, hbefore, ⟨type, _, takes_type.mpr htyped, ⟨space, _, takes_many1.mpr hspace,
      ⟨name, _, takes_name.mpr hnamed, ⟨tail, _, htail, takes_char.mpr rfl, rfl⟩, rfl⟩, rfl⟩,
      rfl⟩, rfl⟩
  have hrest : (Place.start (before ++ (type ++ (space ++ (name ++ tail))) ++ ';' :: rest)).rest =
      before ++ (type ++ (space ++ (name ++ (tail ++ [';'])))) ++ rest := by
    simp [Place.start]
  rw [ways_declaration]
  obtain ⟨q, hq, -⟩ := exists_mem_ways_of_takes rfl htakes hrest
  exact ⟨q, hq⟩

theorem declares_iff_matchStart? {line type name : Text} : Declares line type name ↔
    ∃ m, declaration.matchStart? line = some m ∧ m.capture 0 = type ∧ m.capture 1 = name := by
  have hdeclares : ∀ {m}, declaration.matchStart? line = some m →
      Declares line (m.capture 0) (m.capture 1) := by
    intro m hm
    rw [matchStart?, start_eq_behind, matchHere?_behind, Option.map_eq_some_iff] at hm
    obtain ⟨q, hq, rfl⟩ := hm
    obtain ⟨type, name, hline, hcaptures⟩ := declares_of_mem_ways (List.mem_of_head? hq)
    simpa [Match.capture, hcaptures] using hline
  constructor
  · intro h
    have hsome : (declaration.matchStart? line).isSome = true := by
      rw [matchStart?, start_eq_behind, isSome_matchHere?_iff, ← start_eq_behind]
      exact exists_mem_ways_of_declares h
    obtain ⟨m, hm⟩ := Option.isSome_iff_exists.mp hsome
    exact ⟨m, hm, (hdeclares hm).unique h⟩
  · rintro ⟨m, hm, rfl, rfl⟩
    exact hdeclares hm

/-! ## The type of a field -/

/-- The last line that declares a name gives it its type. -/
def FieldType (lines : List Text) (name type : Text) : Prop :=
  ∃ before line after written, lines = before ++ line :: after ∧ Declares line written name ∧
    (∀ later ∈ after, ∀ other, ¬Declares later other name) ∧ type = TypeName.stripGenerics written

theorem fieldType_concat {lines : List Text} {line name type : Text} :
    FieldType (lines ++ [line]) name type ↔
      (∃ written, Declares line written name ∧ type = TypeName.stripGenerics written) ∨
        (∀ written, ¬Declares line written name) ∧ FieldType lines name type := by
  constructor
  · rintro ⟨before, found, after, written, hlines, hfound, hlater, rfl⟩
    rcases List.eq_nil_or_concat after with rfl | ⟨inner, last, rfl⟩
    · obtain ⟨rfl, hlast⟩ := List.append_inj' hlines rfl
      obtain rfl : line = found := List.head_eq_of_cons_eq hlast
      exact .inl ⟨written, hfound, rfl⟩
    · rw [List.concat_eq_append, ← List.cons_append, ← List.append_assoc] at hlines
      obtain ⟨rfl, hlast⟩ := List.append_inj' hlines rfl
      obtain rfl : line = last := List.head_eq_of_cons_eq hlast
      refine .inr ⟨hlater line (by simp), before, found, inner, written, rfl, hfound, ?_, rfl⟩
      exact fun later hmem => hlater later (by simp [hmem])
  · rintro (⟨written, hline, rfl⟩ |
      ⟨hnone, before, found, after, written, rfl, hfound, hlater, rfl⟩)
    · exact ⟨lines, line, [], written, rfl, hline, List.forall_mem_nil _, rfl⟩
    · refine ⟨before, found, after ++ [line], written, by simp, hfound, ?_, rfl⟩
      exact List.forall_mem_append.mpr ⟨hlater, List.forall_mem_singleton.mpr hnone⟩

theorem lookup_assign (name type other : Text) (types : List (Text × Text)) :
    (assign name type types).lookup other =
      if other = name then some type else types.lookup other := by
  have hcons : ∀ (found : Text × Text) (types : List (Text × Text)),
      (found :: types).lookup other =
        if other = found.1 then some found.2 else types.lookup other := by
    intro found types
    rw [List.lookup_cons]
    by_cases h : other = found.1
    · rw [beq_iff_eq.mpr h, if_pos h]
    · rw [beq_eq_false_iff_ne.mpr h, if_neg h]
  induction types with
  | nil => rw [assign, hcons]
  | cons found types ih =>
    rw [assign]
    split
    · rename_i hfound
      by_cases h : other = name
      · rw [hcons, if_pos h, if_pos h]
      · rw [hcons, hcons, hfound, if_neg h, if_neg h, if_neg h]
    · rename_i hfound
      rw [hcons, hcons, ih]
      by_cases h : other = found.1
      · have hne : other ≠ name := fun heq => hfound (h.symm.trans heq)
        rw [if_pos h, if_neg hne, if_pos h]
      · rw [if_neg h, if_neg h]

theorem typesIn_concat (lines : List Text) (line : Text) :
    typesIn (lines ++ [line]) = ((declaration.matchStart? line).map fun m =>
      assign (m.capture 1) (TypeName.stripGenerics (m.capture 0)) (typesIn lines)).getD
        (typesIn lines) := by
  rw [typesIn, List.foldl_append, List.foldl_cons, List.foldl_nil, ← typesIn]
  cases declaration.matchStart? line with
  | none => rfl
  | some m => rfl

theorem lookup_typesIn {lines : List Text} {name type : Text} :
    (typesIn lines).lookup name = some type ↔ FieldType lines name type := by
  induction lines using List.reverseRecOn with
  | nil =>
    refine iff_of_false (by simp [typesIn]) ?_
    rintro ⟨before, line, after, written, hnil, -⟩
    simp at hnil
  | append_singleton lines line ih =>
    rw [typesIn_concat, fieldType_concat, ← ih]
    cases hm : declaration.matchStart? line with
    | none =>
      have hnone : ∀ written, ¬Declares line written name := by
        intro written hdeclares
        obtain ⟨m, hsome, -⟩ := declares_iff_matchStart?.mp hdeclares
        cases hm.symm.trans hsome
      simp [hnone]
    | some m =>
      have hline : Declares line (m.capture 0) (m.capture 1) :=
        declares_iff_matchStart?.mpr ⟨m, hm, rfl, rfl⟩
      rw [Option.map_some, Option.getD_some, lookup_assign]
      split
      · rename_i hname
        subst hname
        constructor
        · intro htype
          exact .inl ⟨m.capture 0, hline, (Option.some.inj htype).symm⟩
        · rintro (⟨written, hwritten, rfl⟩ | ⟨hnone, -⟩)
          · rw [(hwritten.unique hline).1]
          · exact absurd hline (hnone _)
      · rename_i hname
        have hnone : ∀ written, ¬Declares line written name := fun written hwritten =>
          hname (hwritten.unique hline).2
        simp [hnone]

end SourceScout.CalledField
