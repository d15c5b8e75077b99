import Mathlib.Data.List.DropRight
import SourceScout.Proofs.Text.Parts
import SourceScout.Proofs.Text.Words

/-!
# Margins of a text

A text is its stripped text with blanks around it, so parts and words without blanks are the same
before and after stripping. Stripping stops at the first and the last character that is not blank.
-/

namespace SourceScout.Text

def IsMargin (margin : Text) : Prop := ∀ c ∈ margin, isBlank c = true

instance (margin : Text) : Decidable (IsMargin margin) :=
  decidable_of_iff (margin.all isBlank = true) List.all_eq_true

theorem exists_margins (t : Text) :
    ∃ left right, IsMargin left ∧ IsMargin right ∧ t = left ++ (t.strip ++ right) := by
  refine ⟨t.takeWhile isBlank, ((t.dropWhile isBlank).reverse.takeWhile isBlank).reverse,
    List.all_eq_true.mp List.all_takeWhile, ?_, ?_⟩
  · intro c hc
    exact List.all_eq_true.mp List.all_takeWhile c (List.mem_reverse.mp hc)
  · have hstrip : t.strip ++ ((t.dropWhile isBlank).reverse.takeWhile isBlank).reverse =
        t.dropWhile isBlank := by
      rw [strip, stripRight, stripLeft, dropEndWhile, ← List.reverse_append,
        List.takeWhile_append_dropWhile, List.reverse_reverse]
    rw [hstrip, List.takeWhile_append_dropWhile]

theorem isInfix_strip (t : Text) : t.strip <:+: t := by
  obtain ⟨left, right, -, -, ht⟩ := exists_margins t
  exact ⟨left, right, by rw [List.append_assoc, ← ht]⟩

theorem strip_append_of_isMargin {margin : Text} (h : IsMargin margin) (t : Text) :
    strip (margin ++ t) = strip t := by
  rw [strip, strip, stripLeft, stripLeft, List.dropWhile_append_of_pos h]

theorem strip_eq_nil_iff {t : Text} : t.strip = [] ↔ IsMargin t := by
  constructor
  · intro h
    obtain ⟨left, right, hleft, hright, ht⟩ := exists_margins t
    rw [h, List.nil_append] at ht
    rw [ht]
    exact List.forall_mem_append.mpr ⟨hleft, hright⟩
  · intro h
    have hnil := strip_append_of_isMargin h []
    rwa [List.append_nil] at hnil

theorem infix_of_infix_margin_append {part margin t : Text} (hpart : ∀ c ∈ part, isBlank c = false)
    (hmargin : IsMargin margin) (h : part <:+: margin ++ t) : part <:+: t := by
  induction margin with
  | nil => exact h
  | cons c margin ih =>
    obtain ⟨hc, hrest⟩ := List.forall_mem_cons.mp hmargin
    have hnot : c ∉ part := fun hmem => by simp [hpart c hmem] at hc
    rcases @infix_append_cons part [] (margin ++ t) c hnot h with hnil | hright
    · rw [List.infix_nil.mp hnil]
      exact List.nil_infix
    · exact ih hrest hright

theorem infix_of_infix_append_margin {part margin t : Text} (hpart : ∀ c ∈ part, isBlank c = false)
    (hmargin : IsMargin margin) (h : part <:+: t ++ margin) : part <:+: t := by
  rw [← List.reverse_infix] at h ⊢
  rw [List.reverse_append] at h
  refine infix_of_infix_margin_append (fun c hc => hpart c (List.mem_reverse.mp hc)) ?_ h
  exact fun c hc => hmargin c (List.mem_reverse.mp hc)

theorem infix_strip_iff {part t : Text} (hpart : ∀ c ∈ part, isBlank c = false) :
    part <:+: t.strip ↔ part <:+: t := by
  obtain ⟨left, right, hleft, hright, ht⟩ := exists_margins t
  constructor
  · intro h
    rw [ht]
    exact h.trans ⟨left, right, by rw [List.append_assoc]⟩
  · intro h
    rw [ht] at h
    exact infix_of_infix_append_margin hpart hright (infix_of_infix_margin_append hpart hleft h)

theorem mem_strip_iff {c : Char} {t : Text} (hc : isBlank c = false) : c ∈ t.strip ↔ c ∈ t := by
  obtain ⟨left, right, hleft, hright, ht⟩ := exists_margins t
  have hnot : ∀ margin : Text, IsMargin margin → c ∉ margin := fun margin hmargin hmem => by
    simp [hmargin c hmem] at hc
  constructor
  · intro h
    rw [ht]
    exact List.mem_append_right _ (List.mem_append_left _ h)
  · intro h
    rw [ht, List.mem_append, List.mem_append] at h
    exact (h.resolve_left (hnot left hleft)).resolve_right (hnot right hright)

theorem words_append_margin (t : Text) {margin : Text} (h : IsMargin margin) :
    words (t ++ margin) = words t := by
  cases margin with
  | nil => rw [List.append_nil]
  | cons c rest =>
    have hwords := words_append_gap ⟨List.cons_ne_nil c rest, h⟩ t []
    rw [List.append_nil] at hwords
    rw [hwords]
    exact List.append_nil _

theorem words_strip (t : Text) : words t.strip = words t := by
  obtain ⟨left, right, hleft, hright, ht⟩ := exists_margins t
  have hwords := congrArg words ht
  rw [words_blanks_append hleft, words_append_margin _ hright] at hwords
  exact hwords.symm

theorem strip_solid_append {word margin : Text} (hword : IsSolid word) (hmargin : IsMargin margin) :
    strip (word ++ margin) = word := by
  obtain ⟨hne, hsolid⟩ := hword
  have hfirst : ∀ t : Text, t ≠ [] → (∀ c ∈ t, isBlank c = false) → ∀ rest,
      (t ++ rest).dropWhile isBlank = t ++ rest := by
    intro t ht hplain rest
    obtain ⟨c, cs, rfl⟩ := List.exists_cons_of_ne_nil ht
    rw [List.cons_append, List.dropWhile_cons_of_neg]
    simp [hplain c List.mem_cons_self]
  have hlast := hfirst word.reverse (by simpa using hne)
    (fun c hc => hsolid c (List.mem_reverse.mp hc)) []
  rw [List.append_nil] at hlast
  rw [strip, stripLeft, stripRight, dropEndWhile, hfirst word hne hsolid, List.reverse_append,
    List.dropWhile_append_of_pos fun c hc => hmargin c (List.mem_reverse.mp hc), hlast,
    List.reverse_reverse]

theorem strip_of_words {t word : Text} (h : words t = [word]) : t.strip = word := by
  obtain ⟨margin, rest, hmargin, rfl, hsolid, -, hrest⟩ := exists_of_words_eq_cons h
  rw [strip_append_of_isMargin hmargin]
  exact strip_solid_append hsolid (isBlank_of_words_eq_nil hrest)

/-! ## Texts without a margin -/

structure IsTight (t : Text) : Prop where
  head : ∀ c ∈ t.head?, isBlank c = false
  last : ∀ c ∈ t.getLast?, isBlank c = false

theorem strip_eq_rdropWhile (t : Text) :
    t.strip = (t.dropWhile isBlank).rdropWhile isBlank := rfl

theorem isTight_strip (t : Text) : IsTight t.strip := by
  rw [strip_eq_rdropWhile]
  constructor
  · intro c hc
    obtain ⟨cs, hcs⟩ := List.head?_eq_some_iff.mp hc
    obtain ⟨rest, hrest⟩ := List.rdropWhile_prefix isBlank (t.dropWhile isBlank)
    have hfirst := List.head?_dropWhile_not isBlank t
    rw [← hrest, hcs] at hfirst
    simpa using hfirst
  · intro c hc
    obtain ⟨front, hfront⟩ := List.getLast?_eq_some_iff.mp hc
    have hne : (t.dropWhile isBlank).rdropWhile isBlank ≠ [] := by simp [hfront]
    have hlast := List.rdropWhile_last_not isBlank (t.dropWhile isBlank) hne
    simpa [hfront] using hlast

theorem stripLeft_append {right : Text} (h : ∀ c ∈ right.head?, isBlank c = false) (left : Text) :
    stripLeft (left ++ right) = stripLeft left ++ right := by
  induction left with
  | nil =>
    cases right with
    | nil => rfl
    | cons c right => exact List.dropWhile_cons_of_neg (by simp [h c rfl])
  | cons c left ih =>
    by_cases hc : isBlank c = true
    · simpa [stripLeft, hc] using ih
    · simp [stripLeft, hc]

theorem dropEndWhile_append {p : Char → Bool} {left : Text}
    (h : ∀ c ∈ left.getLast?, p c = false) (right : Text) :
    dropEndWhile p (left ++ right) = left ++ dropEndWhile p right := by
  induction right using List.reverseRecOn with
  | nil =>
    rw [List.append_nil]
    refine (List.rdropWhile_eq_self_iff.mpr fun hne => ?_).trans (List.append_nil left).symm
    simp [h _ (List.getLast?_eq_some_getLast hne)]
  | append_singleton right c ih =>
    rw [← List.append_assoc]
    by_cases hc : p c = true
    · have hleft : dropEndWhile p (left ++ right ++ [c]) = dropEndWhile p (left ++ right) :=
        List.rdropWhile_concat_pos p _ c hc
      have hright : dropEndWhile p (right ++ [c]) = dropEndWhile p right :=
        List.rdropWhile_concat_pos p _ c hc
      rw [hleft, hright, ih]
    · have hleft : dropEndWhile p (left ++ right ++ [c]) = left ++ right ++ [c] :=
        List.rdropWhile_concat_neg p _ c hc
      have hright : dropEndWhile p (right ++ [c]) = right ++ [c] :=
        List.rdropWhile_concat_neg p _ c hc
      rw [hleft, hright, List.append_assoc]

theorem stripRight_append {left : Text} (h : ∀ c ∈ left.getLast?, isBlank c = false)
    (right : Text) : stripRight (left ++ right) = left ++ stripRight right :=
  dropEndWhile_append h right

theorem IsTight.strip_around {part : Text} (h : IsTight part) (hne : part ≠ [])
    (left right : Text) :
    strip (left ++ (part ++ right)) = stripLeft left ++ (part ++ stripRight right) := by
  have hhead : ∀ c ∈ (part ++ right).head?, isBlank c = false := by
    rw [List.head?_append_of_ne_nil _ hne]
    exact h.head
  have hlast : ∀ c ∈ (stripLeft left ++ part).getLast?, isBlank c = false := by
    rw [List.getLast?_append_of_ne_nil _ hne]
    exact h.last
  rw [strip, stripLeft_append hhead, ← List.append_assoc, stripRight_append hlast,
    List.append_assoc]

theorem isTight_iff {t : Text} : IsTight t ↔ t.strip = t := by
  constructor
  · intro h
    cases t with
    | nil => rfl
    | cons c cs =>
      have hstrip := h.strip_around (List.cons_ne_nil c cs) [] []
      rw [List.append_nil] at hstrip
      exact hstrip.trans (List.append_nil _)
  · intro h
    rw [← h]
    exact isTight_strip t

theorem IsTight.infix_strip {part t : Text} (h : IsTight part) (hpart : part <:+: t) :
    part <:+: t.strip := by
  by_cases hne : part = []
  · exact hne ▸ List.nil_infix
  · obtain ⟨left, right, rfl⟩ := hpart
    rw [List.append_assoc, h.strip_around hne]
    exact ⟨stripLeft left, stripRight right, List.append_assoc _ _ _⟩

theorem strip_append_margin (t : Text) {margin : Text} (h : IsMargin margin) :
    strip (t ++ margin) = strip t := by
  obtain ⟨left, right, hleft, hright, ht⟩ := exists_margins t
  by_cases hnil : t.strip = []
  · rw [hnil, strip_eq_nil_iff]
    exact List.forall_mem_append.mpr ⟨strip_eq_nil_iff.mp hnil, h⟩
  · have hend : ∀ c ∈ right ++ margin, isBlank c = true :=
      List.forall_mem_append.mpr ⟨hright, h⟩
    have hdrop : stripRight (right ++ margin) = [] := List.rdropWhile_eq_nil_iff.mpr hend
    have hstart : stripLeft left = [] := List.dropWhile_eq_nil_iff.mpr hleft
    conv_lhs => rw [ht, List.append_assoc, List.append_assoc]
    rw [(isTight_strip t).strip_around hnil, hdrop, hstart, List.append_nil, List.nil_append]

theorem strip_stripRight (t : Text) : strip (stripRight t) = strip t := by
  have hmargin : IsMargin (t.rtakeWhile isBlank) := fun c hc => List.mem_rtakeWhile_imp hc
  have hparts : stripRight t ++ t.rtakeWhile isBlank = t := List.rdropWhile_append_rtakeWhile
  rw [← strip_append_margin _ hmargin, hparts]

end SourceScout.Text
