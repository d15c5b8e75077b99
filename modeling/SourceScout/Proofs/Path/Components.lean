import SourceScout.Proofs.Text.Parts

/-!
# Components of paths

A path whose names can stand between slashes is read back from its written form. The path of a
qualified name has no `..` in it, since a segment has no dot; but it is anchored as soon as one
segment starts with a slash, and an anchored path put below another one stays as it is.
-/

namespace SourceScout

namespace Path

structure IsComponent (name : Text) : Prop where
  isName : Path.isName name = true
  no_slash : '/' ∉ name

/-- A component that does not lead back up, as the entries of a directory are named. -/
structure IsEntryName (name : Text) : Prop extends IsComponent name where
  ne_up : name ≠ ['.', '.']

instance : DecidablePred IsComponent := fun _ =>
  decidable_of_iff' (_ ∧ _) ⟨fun h => ⟨h.isName, h.no_slash⟩, fun h => ⟨h.1, h.2⟩⟩

instance : DecidablePred IsEntryName := fun _ =>
  decidable_of_iff' (_ ∧ _) ⟨fun h => ⟨h.toIsComponent, h.ne_up⟩, fun h => ⟨h.1, h.2⟩⟩

def Below (p q : Path) : Prop :=
  ∃ rest, rest ≠ [] ∧ (∀ name ∈ rest, IsEntryName name) ∧ q = ⟨p.anchor, p.names ++ rest⟩

theorem isComponent_of_mem_namesOf {t name : Text} (h : name ∈ namesOf t) : IsComponent name := by
  obtain ⟨hpiece, hname⟩ := List.mem_filter.mp h
  exact ⟨hname, Text.not_mem_of_mem_splitOn hpiece⟩

theorem IsComponent.ne_nil {name : Text} (h : IsComponent name) : name ≠ [] := by
  rintro rfl
  exact absurd h.isName (by decide)

theorem IsComponent.ne_dot {name : Text} (h : IsComponent name) : name ≠ ['.'] := by
  rintro rfl
  exact absurd h.isName (by decide)

theorem IsComponent.head?_ne {name : Text} (h : IsComponent name) : name.head? ≠ some '/' :=
  fun hhead => h.no_slash (List.mem_of_mem_head? hhead)

theorem namesOf_join {names : List Text} (h : ∀ name ∈ names, IsComponent name) :
    namesOf (Text.join ['/'] names) = names := by
  cases names with
  | nil => rfl
  | cons name names =>
    rw [namesOf, Text.splitOn_join (List.cons_ne_nil _ _) fun n hn => (h n hn).no_slash,
      List.filter_eq_self]
    exact fun n hn => (h n hn).isName

theorem head?_join_ne {names : List Text} (h : ∀ name ∈ names, IsComponent name) :
    (Text.join ['/'] names).head? ≠ some '/' := by
  cases names with
  | nil => simp [Text.join]
  | cons name names =>
    have hname := h name List.mem_cons_self
    obtain ⟨c, cs, rfl⟩ := List.exists_cons_of_ne_nil hname.ne_nil
    cases names with
    | nil => exact hname.head?_ne
    | cons next rest => exact hname.head?_ne

theorem anchor_ofText_eq_relative_iff {t : Text} :
    (ofText t).anchor = .relative ↔ t.head? ≠ some '/' := by
  cases t with
  | nil => simp [ofText, Anchor.ofText]
  | cons c cs =>
    by_cases hc : c = '/'
    · subst hc
      rw [ofText, Anchor.ofText.eq_def]
      split <;> simp_all
    · simp [ofText, Anchor.ofText, hc]

theorem anchor_ofText_append {t : Text} (h : t.head? ≠ some '/') (anchor : Anchor) :
    Anchor.ofText (anchor.toText ++ t) = anchor := by
  cases t with
  | nil => cases anchor <;> rfl
  | cons c t =>
    have hc : c ≠ '/' := fun heq => h (congrArg some heq)
    cases anchor <;> simp [Anchor.toText, Anchor.ofText, hc]

theorem namesOf_append (anchor : Anchor) (t : Text) : namesOf (anchor.toText ++ t) = namesOf t := by
  cases anchor <;> rfl

theorem ofText_toText {p : Path} (h : ∀ name ∈ p.names, IsComponent name) :
    ofText p.toText = p := by
  obtain ⟨anchor, names⟩ := p
  rw [toText]
  split
  · rename_i hempty
    obtain ⟨rfl, rfl⟩ : anchor = .relative ∧ names = [] := hempty
    rfl
  · rw [ofText, anchor_ofText_append (head?_join_ne h), namesOf_append, namesOf_join h]

theorem append_of_relative {p q : Path} (h : q.anchor = .relative) :
    p ++ q = ⟨p.anchor, p.names ++ q.names⟩ := if_pos h

theorem append_of_anchored {p q : Path} (h : q.anchor ≠ .relative) : p ++ q = q := if_neg h

theorem below_append {p q : Path} (hanchor : q.anchor = .relative) (hne : q.names ≠ [])
    (hnames : ∀ name ∈ q.names, IsEntryName name) : Below p (p ++ q) :=
  ⟨q.names, hne, hnames, append_of_relative hanchor⟩

theorem below_child (p : Path) {name : Text} (h : IsEntryName name) : Below p (p.child name) :=
  ⟨[name], List.cons_ne_nil _ _, List.forall_mem_singleton.mpr h, rfl⟩

theorem Below.trans {p q r : Path} (hpq : Below p q) (hqr : Below q r) : Below p r := by
  obtain ⟨upper, hne, hupper, rfl⟩ := hpq
  obtain ⟨lower, -, hlower, rfl⟩ := hqr
  refine ⟨upper ++ lower, List.append_ne_nil_of_left_ne_nil hne lower, ?_, ?_⟩
  · exact List.forall_mem_append.mpr ⟨hupper, hlower⟩
  · rw [List.append_assoc]

theorem Below.ofText_toText {p q : Path} (h : Below p q) (hp : ∀ name ∈ p.names, IsComponent name) :
    ofText q.toText = q := by
  obtain ⟨rest, -, hrest, rfl⟩ := h
  refine Path.ofText_toText fun name hname => ?_
  rcases List.mem_append.mp hname with hname | hname
  · exact hp name hname
  · exact (hrest name hname).toIsComponent

theorem join_append_cancel {names rest others : List Text} (hrest : rest ≠ [])
    (hothers : others ≠ []) (hslash : ∀ name ∈ rest, '/' ∉ name)
    (hslash' : ∀ name ∈ others, '/' ∉ name)
    (h : Text.join ['/'] (names ++ rest) = Text.join ['/'] (names ++ others)) : rest = others := by
  induction names with
  | nil =>
    rw [List.nil_append, List.nil_append] at h
    rw [← Text.splitOn_join hrest hslash, h, Text.splitOn_join hothers hslash']
  | cons name names ih =>
    rw [List.cons_append, List.cons_append,
      Text.join_cons_of_ne_nil _ _ (List.append_ne_nil_of_right_ne_nil names hrest),
      Text.join_cons_of_ne_nil _ _ (List.append_ne_nil_of_right_ne_nil names hothers)] at h
    exact ih (List.append_cancel_left h)

theorem Below.toText_inj {p q r : Path} (hq : Below p q) (hr : Below p r)
    (h : q.toText = r.toText) : q = r := by
  obtain ⟨rest, hrest, hnames, rfl⟩ := hq
  obtain ⟨others, hothers, hnames', rfl⟩ := hr
  have hne : ¬(p.anchor = .relative ∧ p.names ++ rest = []) := fun hnil => by
    exact List.append_ne_nil_of_right_ne_nil _ hrest hnil.2
  have hne' : ¬(p.anchor = .relative ∧ p.names ++ others = []) := fun hnil => by
    exact List.append_ne_nil_of_right_ne_nil _ hothers hnil.2
  rw [toText, toText, if_neg hne, if_neg hne'] at h
  rw [join_append_cancel hrest hothers (fun name hname => (hnames name hname).no_slash)
    (fun name hname => (hnames' name hname).no_slash) (List.append_cancel_left h)]

theorem append_anchor (p q : Path) :
    (p ++ q).anchor = .relative ↔ p.anchor = .relative ∧ q.anchor = .relative := by
  by_cases hq : q.anchor = .relative
  · simp [append_of_relative hq, hq]
  · simp [append_of_anchored hq, hq]

theorem mem_append_names {p q : Path} {name : Text} (h : name ∈ (p ++ q).names) :
    name ∈ p.names ∨ name ∈ q.names := by
  by_cases hq : q.anchor = .relative
  · rw [append_of_relative hq] at h
    exact List.mem_append.mp h
  · rw [append_of_anchored hq] at h
    exact .inr h

theorem foldl_append_anchor (p : Path) (ps : List Path) :
    (ps.foldl (· ++ ·) p).anchor = .relative ↔
      p.anchor = .relative ∧ ∀ q ∈ ps, q.anchor = .relative := by
  induction ps generalizing p with
  | nil => simp
  | cons q ps ih =>
    rw [List.foldl_cons, ih, append_anchor, and_assoc, List.forall_mem_cons]

theorem mem_foldl_append_names {p : Path} {ps : List Path} {name : Text}
    (h : name ∈ (ps.foldl (· ++ ·) p).names) : name ∈ p.names ∨ ∃ q ∈ ps, name ∈ q.names := by
  induction ps generalizing p with
  | nil => exact .inl h
  | cons q ps ih =>
    rcases ih h with hpq | ⟨r, hr, hname⟩
    · rcases mem_append_names hpq with hp | hq
      · exact .inl hp
      · exact .inr ⟨q, List.mem_cons_self, hq⟩
    · exact .inr ⟨r, List.mem_cons_of_mem _ hr, hname⟩

end Path

namespace Import

theorem segments_ne_nil (qualifiedName : Text) : Package.segments qualifiedName ≠ [] :=
  Text.splitOn_ne_nil '.' qualifiedName

theorem dot_not_mem_segment {qualifiedName segment : Text}
    (h : segment ∈ Package.segments qualifiedName) : '.' ∉ segment :=
  Text.not_mem_of_mem_splitOn h

theorem exists_relativePath_eq (qualifiedName : Text) :
    ∃ outer last, Package.segments qualifiedName = outer ++ [last] ∧
      relativePath qualifiedName =
        (outer.map Path.ofText).foldl (· ++ ·) ⟨.relative, []⟩ ++
          Path.ofText (last ++ (".java" : Text)) := by
  obtain ⟨outer, last, hsegments⟩ : ∃ outer last,
      Package.segments qualifiedName = outer ++ [last] :=
    ⟨_, _, (List.dropLast_concat_getLast (segments_ne_nil qualifiedName)).symm⟩
  refine ⟨outer, last, hsegments, ?_⟩
  simp only [relativePath, hsegments, List.dropLast_concat, List.getLastD_concat]

theorem relativePath_anchor (qualifiedName : Text) :
    (relativePath qualifiedName).anchor = .relative ↔
      ∀ segment ∈ Package.segments qualifiedName, segment.head? ≠ some '/' := by
  obtain ⟨outer, last, hsegments, hpath⟩ := exists_relativePath_eq qualifiedName
  have hlast : (last ++ (".java" : Text)).head? ≠ some '/' ↔ last.head? ≠ some '/' := by
    cases last <;> simp
  rw [hpath, hsegments, Path.append_anchor, Path.foldl_append_anchor,
    Path.anchor_ofText_eq_relative_iff, hlast]
  simp [Path.anchor_ofText_eq_relative_iff, or_imp, forall_and]

theorem isEntryName_of_mem_relativePath {qualifiedName name : Text}
    (h : name ∈ (relativePath qualifiedName).names) : Path.IsEntryName name := by
  obtain ⟨outer, last, hsegments, hpath⟩ := exists_relativePath_eq qualifiedName
  have hdot : ∀ segment ∈ outer ++ [last], segment.count '.' = 0 := by
    intro segment hsegment
    exact List.count_eq_zero.mpr (dot_not_mem_segment (hsegments ▸ hsegment))
  -- the name lies in a text with at most one dot
  obtain ⟨t, ht, hname⟩ : ∃ t : Text, t.count '.' ≤ 1 ∧ name ∈ Path.namesOf t := by
    rw [hpath] at h
    rcases Path.mem_append_names h with houter | hlast
    · rcases Path.mem_foldl_append_names houter with hnil | ⟨p, hp, hname⟩
      · cases hnil
      · obtain ⟨segment, hsegment, rfl⟩ := List.mem_map.mp hp
        have hzero := hdot segment (List.mem_append_left _ hsegment)
        exact ⟨segment, by omega, hname⟩
    · have hzero := hdot last (List.mem_append_right _ List.mem_cons_self)
      refine ⟨last ++ (".java" : Text), ?_, hlast⟩
      rw [List.count_append, hzero]
      decide
  refine ⟨Path.isComponent_of_mem_namesOf hname, ?_⟩
  rintro rfl
  have hcount := (Text.infix_of_mem_splitOn (List.mem_filter.mp hname).1).sublist.count_le '.'
  exact absurd (Nat.le_trans hcount ht) (by decide)

theorem relativePath_names_ne_nil (qualifiedName : Text) :
    (relativePath qualifiedName).names ≠ [] := by
  obtain ⟨outer, last, -, hpath⟩ := exists_relativePath_eq qualifiedName
  -- the letters of the suffix lie in some name
  have hj : 'j' ∈ last ++ (".java" : Text) := List.mem_append_right _ (by decide)
  obtain ⟨piece, hpiece, hmem⟩ := Text.exists_mem_splitOn hj (show 'j' ≠ '/' by decide)
  have hname : piece ∈ Path.namesOf (last ++ (".java" : Text)) := by
    refine List.mem_filter.mpr ⟨hpiece, ?_⟩
    rw [Path.isName, Bool.and_eq_true, bne_iff_ne, bne_iff_ne]
    constructor <;> rintro rfl <;> simp at hmem
  rw [hpath]
  by_cases hanchor : (Path.ofText (last ++ (".java" : Text))).anchor = .relative
  · rw [Path.append_of_relative hanchor]
    exact List.ne_nil_of_mem (List.mem_append_right _ hname)
  · rw [Path.append_of_anchored hanchor]
    exact List.ne_nil_of_mem hname

end Import

end SourceScout
