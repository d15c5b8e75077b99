import SourceScout.Path.Written
import SourceScout.Proofs.Text.Margins

/-!
# Directory and base name of a written path

The directory part of a path is made of slashes only, or it does not end in one. A name put below
such a text is the base name of the result, and the text is its directory part again. A directory
that a path leads through is led through by every name in the directory part of that path.
-/

namespace SourceScout.WrittenPath

def IsTrimmed (d : Text) : Prop := (∀ c ∈ d, c = '/') ∨ d.getLast? ≠ some '/'

section

variable {name : Text}

theorem head?_ne_slash (hname : '/' ∉ name) : name.head? ≠ some '/' :=
  fun hhead => hname (List.mem_of_mem_head? hhead)

theorem append_nil (hname : '/' ∉ name) : append [] name = name := by
  rw [append, if_neg (head?_ne_slash hname)]
  rfl

theorem append_slash (hname : '/' ∉ name) (before : Text) :
    append (before ++ ['/']) name = before ++ '/' :: name := by
  rw [append, if_neg (head?_ne_slash hname), if_pos (by simp), List.append_assoc]
  rfl

theorem append_of_ne_slash (hname : '/' ∉ name) (before : Text) {c : Char} (hc : c ≠ '/') :
    append (before ++ [c]) name = before ++ [c] ++ '/' :: name := by
  rw [append, if_neg (head?_ne_slash hname), if_neg (by simp [hc])]

theorem isPrefix_append (hname : '/' ∉ name) (d : Text) : d <+: append d name := by
  rw [append, if_neg (head?_ne_slash hname)]
  split
  · exact List.prefix_append _ _
  · exact List.prefix_append _ _

theorem baseName_of_no_slash {t : Text} (h : '/' ∉ t) : baseName t = t := by
  rw [baseName, Text.afterLast, Text.cutLast?_eq_none h]

theorem baseName_append (hname : '/' ∉ name) (d : Text) : baseName (append d name) = name := by
  rcases List.eq_nil_or_concat' d with rfl | ⟨before, c, rfl⟩
  · rw [append_nil hname, baseName_of_no_slash hname]
  · by_cases hc : c = '/'
    · subst hc
      rw [append_slash hname]
      exact Text.afterLast_append hname
    · rw [append_of_ne_slash hname before hc]
      exact Text.afterLast_append hname

theorem isSuffix_baseName (t : Text) : baseName t <:+ t := by
  by_cases hslash : '/' ∈ t
  · obtain ⟨before, name, rfl, hname⟩ := Text.exists_cut_of_mem hslash
    rw [baseName, Text.afterLast_append hname]
    exact (List.suffix_cons _ _).trans (List.suffix_append _ _)
  · exact ⟨[], baseName_of_no_slash hslash⟩

theorem directory_of_no_slash {t : Text} (h : '/' ∉ t) : directory t = [] := by
  rw [directory, Text.cutLast?_eq_none h]

theorem directory_of_slashes (hname : '/' ∉ name) {before : Text} (h : ∀ c ∈ before, c = '/') :
    directory (before ++ '/' :: name) = before ++ ['/'] := by
  have hall : (before ++ ['/']).all (· == '/') = true := by
    simpa using h
  rw [directory, Text.cutLast?_eq_some hname]
  exact if_pos hall

theorem directory_of_not_slashes (hname : '/' ∉ name) {before : Text} {c : Char} (hmem : c ∈ before)
    (hc : c ≠ '/') :
    directory (before ++ '/' :: name) = Text.dropEndWhile (· == '/') (before ++ ['/']) := by
  have hall : ¬(before ++ ['/']).all (· == '/') = true := by
    rw [List.all_eq_true]
    intro h
    exact hc (beq_iff_eq.mp (h c (List.mem_append_left _ hmem)))
  rw [directory, Text.cutLast?_eq_some hname]
  exact if_neg hall

theorem isTrimmed_directory (t : Text) : IsTrimmed (directory t) := by
  by_cases hslash : '/' ∈ t
  · obtain ⟨before, name, rfl, hname⟩ := Text.exists_cut_of_mem hslash
    by_cases hall : ∀ c ∈ before, c = '/'
    · rw [directory_of_slashes hname hall]
      exact .inl (List.forall_mem_append.mpr ⟨hall, List.forall_mem_singleton.mpr rfl⟩)
    · push Not at hall
      obtain ⟨c, hmem, hc⟩ := hall
      right
      rw [directory_of_not_slashes hname hmem hc]
      intro hlast
      have hne := List.ne_nil_of_mem (List.mem_of_getLast? hlast)
      have hnot := List.rdropWhile_last_not (· == '/') (before ++ ['/']) hne
      rw [List.getLast?_eq_some_getLast hne] at hlast
      exact hnot (beq_iff_eq.mpr (Option.some.inj hlast))
  · rw [directory_of_no_slash hslash]
    exact .inr nofun

theorem directory_append (hname : '/' ∉ name) {d : Text} (hd : IsTrimmed d) :
    directory (append d name) = d := by
  rcases List.eq_nil_or_concat' d with rfl | ⟨before, c, rfl⟩
  · rw [append_nil hname, directory_of_no_slash hname]
  · by_cases hc : c = '/'
    · subst hc
      have hslashes : ∀ c ∈ before ++ ['/'], c = '/' := hd.resolve_right (by simp)
      rw [append_slash hname]
      exact directory_of_slashes hname (List.forall_mem_append.mp hslashes).1
    · rw [append_of_ne_slash hname before hc,
        directory_of_not_slashes hname (List.mem_append_right _ List.mem_cons_self) hc]
      exact (Text.dropEndWhile_append (by simpa using hc) ['/']).trans (List.append_nil _)

theorem exists_directory_eq (front : Text) {c : Char} (hc : c ≠ '/') (tail : Text) :
    ∃ rest, directory (front ++ [c] ++ '/' :: tail) =
      front ++ [c] ++ Text.dropEndWhile (· == '/') ('/' :: rest) := by
  have hlast : ∀ d ∈ (front ++ [c]).getLast?, (d == '/') = false := by
    simpa using hc
  have hmem : c ∈ front ++ [c] := List.mem_append_right _ List.mem_cons_self
  -- the last slash is one of the tail, or else the one in front of it
  by_cases hslash : '/' ∈ tail
  · obtain ⟨middle, base, rfl, hbase⟩ := Text.exists_cut_of_mem hslash
    have hcut : front ++ [c] ++ '/' :: (middle ++ '/' :: base) =
        (front ++ [c] ++ '/' :: middle) ++ '/' :: base := by
      simp only [List.append_assoc, List.cons_append]
    refine ⟨middle ++ ['/'], ?_⟩
    rw [hcut, directory_of_not_slashes hbase (List.mem_append_left _ hmem) hc, List.append_assoc,
      Text.dropEndWhile_append hlast]
    rfl
  · refine ⟨[], ?_⟩
    rw [directory_of_not_slashes hslash hmem hc, Text.dropEndWhile_append hlast]

theorem isPrefix_append_directory (hname : '/' ∉ name) (front : Text) {c : Char} (hc : c ≠ '/')
    (tail : Text) :
    front ++ [c] ++ ['/'] <+: append (directory (front ++ [c] ++ '/' :: tail)) name := by
  obtain ⟨rest, hdirectory⟩ := exists_directory_eq front hc tail
  rw [hdirectory]
  have hprefix : Text.dropEndWhile (· == '/') ('/' :: rest) <+: '/' :: rest :=
    List.rdropWhile_prefix _ _
  -- the slash behind `c` is trimmed and written again, or it was kept
  cases hkept : Text.dropEndWhile (· == '/') ('/' :: rest) with
  | nil =>
    rw [List.append_nil, append_of_ne_slash hname front hc]
    exact ⟨name, by simp⟩
  | cons d kept =>
    rw [hkept] at hprefix
    obtain rfl : d = '/' := (List.cons_prefix_cons.mp hprefix).1
    refine List.IsPrefix.trans ?_ (isPrefix_append hname _)
    exact ⟨kept, by simp⟩

end

end SourceScout.WrittenPath
