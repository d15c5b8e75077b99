import SourceScout.Source.Import

/-!
# Parts of a text

Cutting a text at a character is the splitting of lists, and joining the pieces is its inverse. The
cut at the last dot is unique, so a qualified name with a dot in it ends with a dot and a simple
name exactly if that is its own simple name. A replacement leaves alone what has no character in
common with the text that it replaces.
-/

namespace SourceScout

namespace Text

theorem splitOn_eq (sep : Char) (t : Text) : splitOn sep t = List.splitOn sep t := by
  induction t with
  | nil => rfl
  | cons c cs ih =>
    have hcons := List.splitOnP_cons_eq_if_modifyHead (p := (· == sep)) c cs
    rw [splitOn, ih]
    refine Eq.trans ?_ hcons.symm
    simp only [beq_iff_eq]
    split
    · rfl
    · cases hpieces : List.splitOn sep cs with
      | nil => exact absurd hpieces (ih ▸ splitOn_ne_nil sep cs)
      | cons piece pieces =>
        rw [List.splitOn] at hpieces
        rw [hpieces]
        rfl

theorem join_eq (sep : Text) (pieces : List Text) : join sep pieces = sep.intercalate pieces := by
  induction pieces with
  | nil => rfl
  | cons piece pieces ih =>
    cases pieces with
    | nil => simp [join, List.intercalate]
    | cons next rest =>
      rw [join_cons_of_ne_nil _ _ (List.cons_ne_nil _ _), ih]
      simp [List.intercalate]

theorem join_append (sep : Text) {front back : List Text} (hfront : front ≠ [])
    (hback : back ≠ []) :
    join sep (front ++ back) = join sep front ++ sep ++ join sep back := by
  induction front with
  | nil => exact absurd rfl hfront
  | cons piece rest ih =>
    by_cases hrest : rest = []
    · subst hrest
      exact join_cons_of_ne_nil sep piece hback
    · have hne : rest ++ back ≠ [] := List.append_ne_nil_of_left_ne_nil hrest back
      rw [List.cons_append, join_cons_of_ne_nil _ _ hne, ih hrest, join_cons_of_ne_nil _ _ hrest]
      simp only [List.append_assoc]

theorem join_map_join (sep : Text) {groups : List (List Text)} (h : ∀ group ∈ groups, group ≠ []) :
    join sep (groups.map (join sep)) = join sep groups.flatten := by
  induction groups with
  | nil => rfl
  | cons group groups ih =>
    obtain ⟨hgroup, hrest⟩ := List.forall_mem_cons.mp h
    by_cases hnil : groups = []
    · subst hnil
      simp [join]
    · obtain ⟨next, others, rfl⟩ := List.exists_cons_of_ne_nil hnil
      have hflat : (next :: others).flatten ≠ [] := by simp [hrest next List.mem_cons_self]
      rw [List.map_cons, join_cons_of_ne_nil _ _ (by simp), ih hrest,
        ← join_append sep hgroup hflat]
      rfl

theorem splitOn_join {sep : Char} {pieces : List Text} (hne : pieces ≠ [])
    (h : ∀ piece ∈ pieces, sep ∉ piece) : splitOn sep (join [sep] pieces) = pieces := by
  rw [splitOn_eq, join_eq, List.splitOn_intercalate sep h hne]

theorem not_mem_of_mem_splitOn {sep : Char} {t piece : Text} (h : piece ∈ splitOn sep t) :
    sep ∉ piece := by
  induction t generalizing piece with
  | nil =>
    cases List.mem_singleton.mp h
    exact List.not_mem_nil
  | cons c cs ih =>
    rw [splitOn] at h
    split at h
    · rcases List.mem_cons.mp h with rfl | hpiece
      · exact List.not_mem_nil
      · exact ih hpiece
    · rename_i hc
      cases hpieces : splitOn sep cs with
      | nil => exact absurd hpieces (splitOn_ne_nil sep cs)
      | cons first rest =>
        rw [hpieces] at h ih
        rcases List.mem_cons.mp h with rfl | hpiece
        · exact List.not_mem_cons_of_ne_of_not_mem (Ne.symm hc) (ih List.mem_cons_self)
        · exact ih (List.mem_cons_of_mem _ hpiece)

theorem infix_join_of_mem {sep piece : Text} {pieces : List Text} (h : piece ∈ pieces) :
    piece <:+: join sep pieces := by
  induction pieces with
  | nil => cases h
  | cons first rest ih =>
    cases rest with
    | nil =>
      cases List.mem_singleton.mp h
      exact List.infix_rfl
    | cons next rest =>
      rw [join_cons_of_ne_nil _ _ (List.cons_ne_nil _ _), List.append_assoc]
      rcases List.mem_cons.mp h with rfl | hrest
      · exact (List.prefix_append _ _).isInfix
      · exact (ih hrest).trans ((List.suffix_append _ _).trans (List.suffix_append _ _)).isInfix

theorem mem_join {c : Char} {sep : Text} {pieces : List Text} (h : c ∈ join sep pieces) :
    c ∈ sep ∨ ∃ piece ∈ pieces, c ∈ piece := by
  induction pieces with
  | nil => cases h
  | cons first rest ih =>
    cases rest with
    | nil => exact .inr ⟨first, List.mem_cons_self, h⟩
    | cons next rest =>
      rw [join_cons_of_ne_nil _ _ (List.cons_ne_nil _ _), List.mem_append, List.mem_append] at h
      rcases h with (hfirst | hsep) | hrest
      · exact .inr ⟨first, List.mem_cons_self, hfirst⟩
      · exact .inl hsep
      · rcases ih hrest with hsep | ⟨piece, hpiece, hc⟩
        · exact .inl hsep
        · exact .inr ⟨piece, List.mem_cons_of_mem _ hpiece, hc⟩

theorem newline_not_mem_of_mem_lines {t line : Text} (h : line ∈ t.lines) : '\n' ∉ line :=
  not_mem_of_mem_splitOn h

theorem lines_unlines {ls : List Text} (hne : ls ≠ []) (h : ∀ line ∈ ls, '\n' ∉ line) :
    (unlines ls).lines = ls :=
  splitOn_join hne h

theorem infix_append_cons {part left right : Text} {sep : Char} (hsep : sep ∉ part)
    (h : part <:+: left ++ sep :: right) : part <:+: left ∨ part <:+: right := by
  obtain ⟨before, after, heq⟩ := h
  rcases List.append_eq_append_iff.mp heq with ⟨rest, rfl, -⟩ | ⟨rest, hleft, hright⟩
  · exact .inl ⟨before, rest, rfl⟩
  · cases rest with
    | nil =>
      rw [List.append_nil] at hleft
      exact .inl ⟨before, [], by rw [List.append_nil, hleft]⟩
    | cons c rest =>
      obtain ⟨rfl, rfl⟩ := List.cons_eq_cons.mp hright
      rcases List.append_eq_append_iff.mp hleft with ⟨middle, -, hpart⟩ | ⟨middle, -, hpart⟩
      · exact absurd (hpart ▸ List.mem_append_right _ List.mem_cons_self) hsep
      · cases middle with
        | nil =>
          rw [List.nil_append] at hpart
          exact absurd (hpart ▸ List.mem_cons_self) hsep
        | cons d middle =>
          obtain ⟨-, rfl⟩ := List.cons_eq_cons.mp hpart
          exact .inr ⟨middle, after, rfl⟩

theorem exists_infix_of_infix_unlines {part : Text} {ls : List Text} (hpart : '\n' ∉ part)
    (h : part <:+: unlines ls) : part = [] ∨ ∃ line ∈ ls, part <:+: line := by
  induction ls with
  | nil => exact .inl (List.infix_nil.mp h)
  | cons line ls ih =>
    cases ls with
    | nil => exact .inr ⟨line, List.mem_cons_self, h⟩
    | cons next rest =>
      have hcut : unlines (line :: next :: rest) = line ++ '\n' :: unlines (next :: rest) := by
        rw [unlines, join_cons_of_ne_nil _ _ (List.cons_ne_nil _ _), List.append_assoc]
        rfl
      rw [hcut] at h
      rcases infix_append_cons hpart h with hline | hrest
      · exact .inr ⟨line, List.mem_cons_self, hline⟩
      · refine (ih hrest).imp_right ?_
        rintro ⟨other, hother, hinfix⟩
        exact ⟨other, List.mem_cons_of_mem _ hother, hinfix⟩

theorem infix_of_mem_splitOn {sep : Char} {t piece : Text} (h : piece ∈ splitOn sep t) :
    piece <:+: t := by
  have hinfix : piece <:+: join [sep] (splitOn sep t) := infix_join_of_mem h
  rwa [join_splitOn] at hinfix

theorem exists_mem_splitOn {sep c : Char} {t : Text} (hc : c ∈ t) (hne : c ≠ sep) :
    ∃ piece ∈ splitOn sep t, c ∈ piece := by
  rw [← join_splitOn sep t] at hc
  exact (mem_join hc).resolve_left fun hsep => hne (List.mem_singleton.mp hsep)

theorem hasPart_iff {part t : Text} : hasPart part t = true ↔ part <:+: t := by
  induction t with
  | nil => simp [hasPart]
  | cons c cs ih =>
    rw [hasPart, Bool.or_eq_true, List.isPrefixOf_iff_prefix, ih, List.infix_cons_iff]

theorem cutLast?_eq_none_iff {sep t : Text} : cutLast? sep t = none ↔ ¬sep <:+: t := by
  induction t with
  | nil => simp [cutLast?]
  | cons c cs ih =>
    rw [cutLast?, List.infix_cons_iff, not_or, ← ih, ← List.isPrefixOf_iff_prefix]
    cases cutLast? sep cs with
    | some cut => simp
    | none => simp

theorem cutLast?_eq_none {sep : Char} {t : Text} (h : sep ∉ t) : cutLast? [sep] t = none :=
  cutLast?_eq_none_iff.mpr fun hpart => h (hpart.subset List.mem_cons_self)

/-- A text cut where `sep` begins for the last time. -/
structure CutsLast (sep t before after : Text) : Prop where
  eq : t = before ++ (sep ++ after)
  last : ∀ front back, t = front ++ (sep ++ back) → front.length ≤ before.length

theorem cutsLast_of_cutLast? {sep t before after : Text}
    (h : cutLast? sep t = some (before, after)) : CutsLast sep t before after := by
  induction t generalizing before with
  | nil =>
    rw [cutLast?] at h
    split at h
    · rename_i hsep
      cases h
      refine ⟨by rw [List.isEmpty_iff.mp hsep]; rfl, fun front back hback => ?_⟩
      exact Nat.le_of_eq (congrArg List.length (List.append_eq_nil_iff.mp hback.symm).1)
    · cases h
  | cons c cs ih =>
    rw [cutLast?] at h
    cases hcut : cutLast? sep cs with
    | some cut =>
      obtain ⟨front, back⟩ := cut
      rw [hcut] at h
      cases h
      obtain ⟨heq, hlast⟩ := ih hcut
      refine ⟨congrArg (c :: ·) heq, fun other rest hother => ?_⟩
      cases other with
      | nil => exact Nat.zero_le _
      | cons d other => exact Nat.succ_le_succ (hlast other rest (List.cons_eq_cons.mp hother).2)
    | none =>
      rw [hcut] at h
      dsimp only at h
      split at h
      · rename_i hprefix
        obtain ⟨rest, hrest⟩ := List.isPrefixOf_iff_prefix.mp hprefix
        cases h
        refine ⟨by rw [← hrest, List.drop_left]; rfl, fun other back hother => ?_⟩
        cases other with
        | nil => exact Nat.le_refl _
        | cons d other =>
          -- `sep` does not begin again further on
          refine absurd ⟨other, back, ?_⟩ (cutLast?_eq_none_iff.mp hcut)
          rw [List.append_assoc]
          exact (List.cons_eq_cons.mp hother).2.symm
      · cases h

theorem cutLast?_eq_some {sep : Char} {before after : Text} (h : sep ∉ after) :
    cutLast? [sep] (before ++ sep :: after) = some (before, after) := by
  induction before with
  | nil =>
    rw [List.nil_append, cutLast?, cutLast?_eq_none h]
    simp [List.isPrefixOf]
  | cons c before ih => rw [List.cons_append, cutLast?, ih]

theorem afterLast_append {sep : Char} {before after : Text} (h : sep ∉ after) :
    afterLast sep (before ++ sep :: after) = after := by
  rw [afterLast, cutLast?_eq_some h]

theorem exists_cut_of_mem {sep : Char} {t : Text} (h : sep ∈ t) :
    ∃ before after, t = before ++ sep :: after ∧ sep ∉ after := by
  induction t with
  | nil => cases h
  | cons c cs ih =>
    by_cases hcs : sep ∈ cs
    · obtain ⟨before, after, rfl, hafter⟩ := ih hcs
      exact ⟨c :: before, after, rfl, hafter⟩
    · rcases List.mem_cons.mp h with rfl | hmem
      · exact ⟨[], cs, rfl, hcs⟩
      · exact absurd hmem hcs

theorem not_mem_afterLast (sep : Char) (t : Text) : sep ∉ afterLast sep t := by
  by_cases h : sep ∈ t
  · obtain ⟨before, after, rfl, hafter⟩ := exists_cut_of_mem h
    rwa [afterLast_append hafter]
  · rwa [afterLast, cutLast?_eq_none h]

/-! ## Parts that a replacement leaves alone -/

section

variable {part old new : Text}

theorem infix_of_infix_append {left right : Text} (hleft : ∀ c ∈ left, c ∉ part)
    (h : part <:+: left ++ right) : part <:+: right := by
  induction left with
  | nil => exact h
  | cons c left ih =>
    obtain ⟨hc, hrest⟩ := List.forall_mem_cons.mp hleft
    rcases @infix_append_cons part [] (left ++ right) c hc h with hnil | hinfix
    · rw [List.infix_nil.mp hnil]
      exact List.nil_infix
    · exact ih hrest hinfix

theorem eq_append_of_cutFirst? {sep t before after : Text}
    (h : cutFirst? sep t = some (before, after)) : t = before ++ (sep ++ after) := by
  induction t generalizing before with
  | nil =>
    rw [cutFirst?] at h
    split at h
    · rename_i hsep
      cases h
      rw [List.isEmpty_iff.mp hsep]
      rfl
    · cases h
  | cons c cs ih =>
    rw [cutFirst?] at h
    split at h
    · rename_i hprefix
      obtain ⟨rest, hrest⟩ := List.isPrefixOf_iff_prefix.mp hprefix
      cases h
      rw [← hrest, List.drop_left]
      rfl
    · obtain ⟨⟨front, back⟩, hcut, heq⟩ := Option.map_eq_some_iff.mp h
      cases heq
      rw [ih hcut]
      rfl

theorem infix_replaceFirst (hold : old ≠ []) (hpart : ∀ c ∈ old, c ∉ part) {t : Text}
    (h : part <:+: t) : part <:+: replaceFirst old new t := by
  rw [replaceFirst]
  cases hcut : cutFirst? old t with
  | none => exact h
  | some cut =>
    obtain ⟨before, after⟩ := cut
    obtain ⟨c, rest, rfl⟩ := List.exists_cons_of_ne_nil hold
    obtain ⟨hc, hrest⟩ := List.forall_mem_cons.mp hpart
    rw [eq_append_of_cutFirst? hcut] at h
    rcases infix_append_cons hc h with hbefore | hafter
    · exact hbefore.trans ⟨[], new ++ after, by simp only [List.nil_append, List.append_assoc]⟩
    · exact (infix_of_infix_append hrest hafter).trans (List.suffix_append _ _).isInfix

theorem replaceFrom_append (hold : old ≠ []) (hpart : ∀ c ∈ old, c ∉ part) (rest : Text) :
    replaceFrom old new 0 (part ++ rest) = part ++ replaceFrom old new 0 rest := by
  induction part with
  | nil => rfl
  | cons c part ih =>
    have hstart : ¬old <+: c :: (part ++ rest) := by
      obtain ⟨d, ds, rfl⟩ := List.exists_cons_of_ne_nil hold
      rintro ⟨after, hafter⟩
      obtain ⟨rfl, -⟩ := List.cons_eq_cons.mp hafter
      exact hpart d List.mem_cons_self List.mem_cons_self
    rw [List.cons_append, replaceFrom, if_neg fun h => hstart (List.isPrefixOf_iff_prefix.mp h),
      ih fun d hd => List.not_mem_of_not_mem_cons (hpart d hd)]
    rfl

theorem length_le_of_prefix (hne : part ≠ []) (hpart : ∀ c ∈ old, c ∉ part) {before after : Text}
    (h : old <+: before ++ (part ++ after)) : old.length ≤ before.length := by
  obtain ⟨rest, hrest⟩ := h
  obtain ⟨d, ds, rfl⟩ := List.exists_cons_of_ne_nil hne
  rcases List.append_eq_append_iff.mp hrest with ⟨more, rfl, -⟩ | ⟨more, rfl, hmore⟩
  · rw [List.length_append]
    omega
  · cases more with
    | nil => exact Nat.le_of_eq (congrArg List.length (List.append_nil before))
    | cons e more =>
      obtain ⟨rfl, -⟩ := List.cons_eq_cons.mp hmore
      exact absurd List.mem_cons_self (hpart d (List.mem_append_right _ List.mem_cons_self))

theorem infix_replaceFrom (hold : old ≠ []) (hne : part ≠ []) (hpart : ∀ c ∈ old, c ∉ part)
    {before : Text} (after : Text) {skip : Nat} (hskip : skip ≤ before.length) :
    part <:+: replaceFrom old new skip (before ++ (part ++ after)) := by
  induction before generalizing skip with
  | nil =>
    obtain rfl := Nat.le_zero.mp hskip
    rw [List.nil_append, replaceFrom_append hold hpart]
    exact (List.prefix_append _ _).isInfix
  | cons c before ih =>
    cases skip with
    | succ skip => exact ih (Nat.le_of_succ_le_succ hskip)
    | zero =>
      rw [List.cons_append, replaceFrom]
      split
      · rename_i hprefix
        -- what is replaced here ends before the part begins
        have hlength : old.length ≤ (c :: before).length :=
          length_le_of_prefix hne hpart (List.isPrefixOf_iff_prefix.mp hprefix)
        rw [List.length_cons] at hlength
        exact (ih (by omega)).trans (List.suffix_append _ _).isInfix
      · exact (ih (Nat.zero_le _)).trans (List.suffix_cons _ _).isInfix

theorem infix_replaceAll (hold : old ≠ []) (hpart : ∀ c ∈ old, c ∉ part) {t : Text}
    (h : part <:+: t) : part <:+: replaceAll old new t := by
  by_cases hne : part = []
  · rw [hne]
    exact List.nil_infix
  · obtain ⟨before, after, rfl⟩ := h
    rw [List.append_assoc]
    exact infix_replaceFrom hold hne hpart after (Nat.zero_le _)

end

end Text

theorem dot_not_mem_simpleName (qualifiedName : Text) : '.' ∉ simpleName qualifiedName :=
  Text.not_mem_afterLast '.' qualifiedName

theorem simpleName_append {package name : Text} (h : '.' ∉ name) :
    simpleName (package ++ '.' :: name) = name :=
  Text.afterLast_append h

theorem endsWith_dot_iff {qualifiedName name : Text} (hdot : '.' ∈ qualifiedName)
    (hname : '.' ∉ name) :
    Text.endsWith ('.' :: name) qualifiedName = true ↔ simpleName qualifiedName = name := by
  rw [Text.endsWith, List.isSuffixOf_iff_suffix]
  constructor
  · rintro ⟨package, rfl⟩
    exact simpleName_append hname
  · rintro rfl
    obtain ⟨package, last, rfl, hlast⟩ := Text.exists_cut_of_mem hdot
    rw [simpleName_append hlast]
    exact ⟨package, rfl⟩

end SourceScout
