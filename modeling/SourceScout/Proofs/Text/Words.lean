import SourceScout.Text.Blank
import SourceScout.Text.Word

/-!
# The words of a text

A text is a row of words with blanks around them. Its words are found again however the blanks and
the words were put together.
-/

namespace SourceScout

namespace Text

def words (t : Text) : List Text := (t.splitOnP isBlank).filter fun word => !word.isEmpty

def IsGap (gap : Text) : Prop := gap ≠ [] ∧ ∀ c ∈ gap, isBlank c = true

instance (gap : Text) : Decidable (IsGap gap) :=
  decidable_of_iff (gap ≠ [] ∧ gap.all isBlank = true) (and_congr_right fun _ => List.all_eq_true)

def IsSolid (word : Text) : Prop := word ≠ [] ∧ ∀ c ∈ word, isBlank c = false

theorem not_mem_of_forall {cls : Char → Bool} {c : Char} {t : Text} (h : ∀ d ∈ t, cls d = true)
    (hc : cls c = false) : c ∉ t := by
  intro hmem
  rw [h c hmem] at hc
  cases hc

theorem takeWhile_append_cons {c : Char} {left : Text} (h : c ∉ left) (right : Text) :
    (left ++ c :: right).takeWhile (· != c) = left := by
  rw [List.takeWhile_append_of_pos]
  · simp
  · intro d hd
    have hne : d ≠ c := by
      rintro rfl
      exact h hd
    simpa using hne

theorem append_inj_of_forall {cls : Char → Bool} {left left' right right' : Text}
    (hleft : ∀ c ∈ left, cls c = true) (hleft' : ∀ c ∈ left', cls c = true)
    (hright : ∀ c ∈ right.head?, cls c = false) (hright' : ∀ c ∈ right'.head?, cls c = false)
    (h : left ++ right = left' ++ right') : left = left' ∧ right = right' := by
  have hcut : ∀ t : Text, (∀ c ∈ t.head?, cls c = false) → t.takeWhile cls = [] := by
    intro t ht
    cases t with
    | nil => rfl
    | cons c cs => exact List.takeWhile_cons_of_neg (by simp [ht c rfl])
  have htake := congrArg (List.takeWhile cls) h
  rw [List.takeWhile_append_of_pos hleft, List.takeWhile_append_of_pos hleft', hcut right hright,
    hcut right' hright', List.append_nil, List.append_nil] at htake
  subst htake
  exact ⟨rfl, List.append_cancel_left h⟩

theorem append_inj_of_forall_right {cls : Char → Bool} {left left' right right' : Text}
    (hright : ∀ c ∈ right, cls c = true) (hright' : ∀ c ∈ right', cls c = true)
    (hleft : ∀ c ∈ left.getLast?, cls c = false) (hleft' : ∀ c ∈ left'.getLast?, cls c = false)
    (h : left ++ right = left' ++ right') : left = left' ∧ right = right' := by
  have hreverse := congrArg List.reverse h
  rw [List.reverse_append, List.reverse_append] at hreverse
  obtain ⟨hr, hl⟩ := @append_inj_of_forall cls right.reverse right'.reverse left.reverse
    left'.reverse (by simpa using hright) (by simpa using hright') (by simpa using hleft)
    (by simpa using hleft') hreverse
  exact ⟨List.reverse_inj.mp hl, List.reverse_inj.mp hr⟩

theorem words_append_cons {c : Char} (hc : isBlank c = true) (left right : Text) :
    words (left ++ c :: right) = words left ++ words right := by
  rw [words, List.splitOnP_append_cons left right hc, List.filter_append]
  rfl

theorem words_blanks_append {blanks : Text} (h : ∀ c ∈ blanks, isBlank c = true) (t : Text) :
    words (blanks ++ t) = words t := by
  induction blanks with
  | nil => rfl
  | cons c blanks ih =>
    obtain ⟨hc, hblanks⟩ := List.forall_mem_cons.mp h
    have hcons : words (c :: (blanks ++ t)) = words (blanks ++ t) := words_append_cons hc [] _
    rw [List.cons_append, hcons, ih hblanks]

theorem words_append_gap {gap : Text} (h : IsGap gap) (left right : Text) :
    words (left ++ (gap ++ right)) = words left ++ words right := by
  obtain ⟨hne, hblank⟩ := h
  obtain ⟨c, rest, rfl⟩ := List.exists_cons_of_ne_nil hne
  obtain ⟨hc, hrest⟩ := List.forall_mem_cons.mp hblank
  rw [List.cons_append, words_append_cons hc, words_blanks_append hrest]

theorem words_solid {word : Text} (h : IsSolid word) : words word = [word] := by
  rw [words, List.splitOnP_eq_singleton h.2]
  simp [h.1]

theorem words_solid_append_blanks {word blanks : Text} (h : IsSolid word)
    (hblanks : ∀ c ∈ blanks, isBlank c = true) : words (word ++ blanks) = [word] := by
  cases blanks with
  | nil => rw [List.append_nil, words_solid h]
  | cons c rest =>
    have hgap : IsGap (c :: rest) := ⟨List.cons_ne_nil _ _, hblanks⟩
    have hnone : words (word ++ (c :: rest ++ [])) = words word ++ words [] :=
      words_append_gap hgap word []
    rw [List.append_nil] at hnone
    rw [hnone, words_solid h]
    rfl

theorem words_solid_append {word rest : Text} (h : IsSolid word)
    (hrest : ∀ c ∈ rest.head?, isBlank c = true) : words (word ++ rest) = word :: words rest := by
  cases rest with
  | nil => rw [List.append_nil, words_solid h]; rfl
  | cons c rest =>
    have hc : isBlank c = true := hrest c rfl
    have hcons : words (c :: rest) = words rest := words_append_cons hc [] rest
    rw [words_append_cons hc, words_solid h, hcons]
    rfl

theorem words_of_head_solid {c : Char} (hc : isBlank c = false) (cs : Text) :
    IsSolid ((c :: cs).takeWhile (!isBlank ·)) ∧
      (∀ d ∈ ((c :: cs).dropWhile (!isBlank ·)).head?, isBlank d = true) ∧
      words (c :: cs) =
        (c :: cs).takeWhile (!isBlank ·) :: words ((c :: cs).dropWhile (!isBlank ·)) := by
  have hsolid : IsSolid ((c :: cs).takeWhile (!isBlank ·)) := by
    refine ⟨by simp [hc], fun d hd => ?_⟩
    simpa using List.all_eq_true.mp List.all_takeWhile d hd
  have hrest : ∀ d ∈ ((c :: cs).dropWhile (!isBlank ·)).head?, isBlank d = true := by
    intro d hd
    have hfirst := List.head?_dropWhile_not (!isBlank ·) (c :: cs)
    rw [Option.mem_def.mp hd] at hfirst
    simpa using hfirst
  refine ⟨hsolid, hrest, ?_⟩
  rw [← words_solid_append hsolid hrest, List.takeWhile_append_dropWhile]

theorem exists_of_words_eq_cons {t word : Text} {more : List Text} (h : words t = word :: more) :
    ∃ margin rest, (∀ c ∈ margin, isBlank c = true) ∧ t = margin ++ (word ++ rest) ∧
      IsSolid word ∧ (∀ c ∈ rest.head?, isBlank c = true) ∧ words rest = more := by
  have hmargin : ∀ c ∈ t.takeWhile isBlank, isBlank c = true :=
    List.all_eq_true.mp List.all_takeWhile
  have ht : t.takeWhile isBlank ++ t.dropWhile isBlank = t := List.takeWhile_append_dropWhile
  have hfirst := List.head?_dropWhile_not isBlank t
  rw [← ht, words_blanks_append hmargin] at h
  cases hinner : t.dropWhile isBlank with
  | nil => rw [hinner] at h; cases h
  | cons c cs =>
    rw [hinner] at h ht hfirst
    obtain ⟨hsolid, hrest, hwords⟩ := words_of_head_solid (by simpa using hfirst) cs
    obtain ⟨rfl, hmore⟩ := List.cons_eq_cons.mp (hwords.symm.trans h)
    refine ⟨t.takeWhile isBlank, _, hmargin, ?_, hsolid, hrest, hmore⟩
    rw [List.takeWhile_append_dropWhile, ht]

theorem exists_gap_of_words_eq_cons {t word : Text} {more : List Text}
    (hstart : ∀ c ∈ t.head?, isBlank c = true) (h : words t = word :: more) :
    ∃ gap rest, IsGap gap ∧ t = gap ++ (word ++ rest) ∧ IsSolid word ∧
      (∀ c ∈ rest.head?, isBlank c = true) ∧ words rest = more := by
  obtain ⟨gap, rest, hgap, rfl, hsolid, hrest, hmore⟩ := exists_of_words_eq_cons h
  refine ⟨gap, rest, ⟨?_, hgap⟩, rfl, hsolid, hrest, hmore⟩
  rintro rfl
  obtain ⟨c, cs, rfl⟩ := List.exists_cons_of_ne_nil hsolid.1
  have hblank : isBlank c = true := hstart c rfl
  rw [hsolid.2 c List.mem_cons_self] at hblank
  cases hblank

theorem isBlank_of_words_eq_nil {t : Text} (h : words t = []) : ∀ c ∈ t, isBlank c = true := by
  have hmargin : ∀ c ∈ t.takeWhile isBlank, isBlank c = true :=
    List.all_eq_true.mp List.all_takeWhile
  have ht : t.takeWhile isBlank ++ t.dropWhile isBlank = t := List.takeWhile_append_dropWhile
  have hfirst := List.head?_dropWhile_not isBlank t
  rw [← ht, words_blanks_append hmargin] at h
  cases hinner : t.dropWhile isBlank with
  | nil =>
    rw [hinner, List.append_nil] at ht
    rwa [ht] at hmargin
  | cons c cs =>
    rw [hinner] at h hfirst
    have hwords := (words_of_head_solid (by simpa using hfirst) cs).2.2
    cases hwords.symm.trans h

theorem firstWord?_eq_head?_words (t : Text) : t.firstWord? = (words t).head? := by
  have hmargin : ∀ c ∈ t.takeWhile isBlank, isBlank c = true :=
    List.all_eq_true.mp List.all_takeWhile
  have hfirst := List.head?_dropWhile_not isBlank t
  have hwords : words t = words (t.dropWhile isBlank) := by
    rw [← words_blanks_append hmargin (t.dropWhile isBlank), List.takeWhile_append_dropWhile]
  rw [hwords, firstWord?, stripLeft]
  cases hrest : t.dropWhile isBlank with
  | nil => rfl
  | cons c cs =>
    rw [hrest] at hfirst
    rw [(words_of_head_solid (by simpa using hfirst) cs).2.2]
    rfl

end Text

theorem not_isBlank_of_isWordChar {c : Char} (h : isWordChar c = true) : isBlank c = false := by
  rcases Nat.lt_or_ge c.toNat 0x80 with hascii | hbeyond
  · have hall : ∀ n < 0x80, isWordChar (Char.ofNat n) = true → isBlank (Char.ofNat n) = false := by
      decide +kernel
    have hc := hall c.toNat hascii
    rw [Char.ofNat_toNat] at hc
    exact hc h
  · have hapart : ∀ blank ∈ Text.blankRanges, ∀ word ∈ Text.wordRanges,
        blank.2 < word.1 ∨ word.2 < blank.1 := by
      decide +kernel
    rw [isWordChar, if_neg (Nat.not_lt.mpr hbeyond), Text.inRanges, List.any_eq_true] at h
    obtain ⟨word, hword, hin⟩ := h
    rw [isBlank, Text.inRanges, List.any_eq_false]
    intro blank hblank hboth
    simp only [Bool.and_eq_true, decide_eq_true_eq] at hin hboth
    have := hapart blank hblank word hword
    omega

theorem not_isWordChar_of_isBlank {c : Char} (h : isBlank c = true) : isWordChar c = false := by
  cases hword : isWordChar c with
  | false => rfl
  | true => cases h.symm.trans (not_isBlank_of_isWordChar hword)

theorem isWordChar_of_isNameChar {c : Char} (h : isNameChar c = true) :
    isWordChar c = true ∨ c = '$' := by
  simp only [isNameChar, Bool.or_eq_true, beq_iff_eq] at h
  rcases h with (halnum | rfl) | rfl
  · have hascii : c.toNat < 0x80 := by
      have hval : c.toNat = c.val.toNat := rfl
      have hranges : (decide (c.val ≥ 'A'.val ∧ c.val ≤ 'Z'.val) ||
          decide (c.val ≥ 'a'.val) && decide (c.val ≤ 'z'.val) ||
          decide (c.val ≥ '0'.val) && decide (c.val ≤ '9'.val)) = true := halnum
      simp only [Bool.or_eq_true, Bool.and_eq_true, decide_eq_true_eq, ge_iff_le,
        UInt32.le_iff_toNat_le] at hranges
      simp at hranges
      omega
    left
    rw [isWordChar, if_pos hascii, halnum]
    rfl
  · exact .inl (by decide)
  · exact .inr rfl

theorem isSolid_of_isNameChar {t : Text} (h : t ≠ [] ∧ ∀ c ∈ t, isNameChar c = true) :
    Text.IsSolid t := by
  refine ⟨h.1, fun c hc => ?_⟩
  rcases isWordChar_of_isNameChar (h.2 c hc) with hword | rfl
  · exact not_isBlank_of_isWordChar hword
  · rfl

end SourceScout
