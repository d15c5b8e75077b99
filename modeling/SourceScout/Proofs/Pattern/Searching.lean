import SourceScout.Proofs.Pattern.Reading

/-!
# Where a search finds a pattern

A search looks at every place of a text, and a place is known by what stands before it and what is
left. So a pattern occurs exactly if it matches at one of these places. All matches are found by
passing over the characters at which none begins and over the text of each match; where matches
cannot overlap, they are those at the places of the text, one after the other.
-/

namespace SourceScout

namespace Place

def behind (before rest : Text) : Place := ⟨before.getLast?, rest, before.length, []⟩

structure Stands (before : Text) (p : Place) : Prop where
  prev : p.prev = before.getLast?
  offset : p.offset = before.length

theorem stands_behind (before rest : Text) : (behind before rest).Stands before := ⟨rfl, rfl⟩

theorem start_eq_behind (t : Text) : start t = behind [] t := rfl

theorem step_behind (before cs : Text) (c : Char) :
    (behind before (c :: cs)).step c cs = behind (before ++ [c]) cs := by
  simp [behind, step]

theorem Stands.step {before : Text} {p : Place} (h : p.Stands before) (c : Char) (cs : Text) :
    (p.step c cs).Stands (before ++ [c]) :=
  ⟨List.getLast?_concat.symm, by
    rw [Place.step, h.offset, List.length_append, List.length_singleton]⟩

end Place

open Place

def Text.isWordEdge (before after : Text) : Bool :=
  before.getLast?.any isWordChar != after.head?.any isWordChar

namespace Pattern

variable {pattern : Pattern} {before t : Text} {p q : Place}

theorem isWordEdge_eq (h : p.Stands before) : isWordEdge p = Text.isWordEdge before p.rest := by
  obtain ⟨prev, rest, offset, captures⟩ := p
  obtain rfl : prev = before.getLast? := h.prev
  rw [isWordEdge, Text.isWordEdge]
  cases before.getLast? <;> cases rest <;> rfl

theorem mem_ways_atWordEdge (hp : p.Stands before) :
    q ∈ atWordEdge.ways p ↔ q = p ∧ Text.isWordEdge before p.rest = true := by
  rw [ways, isWordEdge_eq hp]
  split
  · rename_i hedge
    rw [List.mem_singleton, and_iff_left hedge]
  · rename_i hedge
    exact iff_of_false List.not_mem_nil fun h => hedge h.2

theorem exists_stands_of_mem_ways (hp : p.Stands before) (h : q ∈ pattern.ways p) :
    ∃ taken, p.rest = taken ++ q.rest ∧ q.Stands (before ++ taken) := by
  refine ways_related (R := fun a b => ∀ before, a.Stands before → ∃ taken,
    a.rest = taken ++ b.rest ∧ b.Stands (before ++ taken)) ?_ ?_ ?_ ?_ h before hp
  · intro a before ha
    exact ⟨[], rfl, by rwa [List.append_nil]⟩
  · intro a b c hab hbc before ha
    obtain ⟨left, hleft, hb⟩ := hab before ha
    obtain ⟨right, hright, hc⟩ := hbc _ hb
    exact ⟨left ++ right, by rw [hleft, hright, List.append_assoc], by rwa [← List.append_assoc]⟩
  · intro a c cs ha before hstands
    exact ⟨[c], ha, hstands.step c cs⟩
  · intro a b captures hab before ha
    obtain ⟨taken, hrest, hb⟩ := hab before ha
    exact ⟨taken, hrest, hb.prev, hb.offset⟩

theorem exists_takes_standing (hp : p.Stands before) (h : q ∈ pattern.ways p) :
    ∃ taken, pattern.Takes taken ∧ p.Reads taken q ∧ q.Stands (before ++ taken) := by
  obtain ⟨taken, htaken, hreads⟩ := exists_takes_of_mem_ways h
  obtain ⟨other, hother, hq⟩ := exists_stands_of_mem_ways hp h
  obtain rfl : taken = other := List.append_cancel_right (hreads.rest.symm.trans hother)
  exact ⟨taken, htaken, hreads, hq⟩

theorem exists_mem_ways_standing (hfloating : pattern.isFloating = true) {taken rest : Text}
    (htaken : pattern.Takes taken) (hp : p.Stands before) (hrest : p.rest = taken ++ rest) :
    ∃ q ∈ pattern.ways p, q.Stands (before ++ taken) ∧ q.rest = rest := by
  obtain ⟨q, hq, hreads⟩ := exists_mem_ways_of_takes hfloating htaken hrest
  obtain ⟨other, hother, hstands⟩ := exists_stands_of_mem_ways hp hq
  obtain rfl : taken = other := List.append_cancel_right (hreads.rest.symm.trans hother)
  exact ⟨q, hq, hstands, List.append_cancel_left (hreads.rest.symm.trans hrest)⟩

theorem matchHere?_behind (pattern : Pattern) (before rest : Text) :
    pattern.matchHere? (behind before rest) = (pattern.ways (behind before rest)).head?.map fun q =>
      ⟨((behind before rest).stretchTo q).toText, q.captures.map Stretch.toText⟩ := rfl

theorem isSome_matchHere?_iff {rest : Text} :
    (pattern.matchHere? (behind before rest)).isSome = true ↔
      ∃ q, q ∈ pattern.ways (behind before rest) := by
  rw [matchHere?_behind, Option.isSome_map, List.isSome_head?]
  exact ⟨List.exists_mem_of_ne_nil _, fun ⟨_, hq⟩ => List.ne_nil_of_mem hq⟩

theorem exists_matchHere?_of_takes {other : Pattern} (hways : pattern.ways = other.ways)
    (hfloating : other.isFloating = true) {taken : Text} (h : other.Takes taken) (after : Text) :
    ∃ m, pattern.matchHere? (behind before (taken ++ after)) = some m := by
  have hrest : (behind before (taken ++ after)).rest = taken ++ after := rfl
  obtain ⟨q, hq, -⟩ := exists_mem_ways_of_takes hfloating h hrest
  rw [← hways] at hq
  exact Option.isSome_iff_exists.mp (isSome_matchHere?_iff.mpr ⟨q, hq⟩)

theorem isSome_searchFrom?_iff {rest : Text} :
    (pattern.searchFrom? rest (behind before rest)).isSome = true ↔ ∃ skipped left,
      rest = skipped ++ left ∧ (pattern.matchHere? (behind (before ++ skipped) left)).isSome := by
  induction rest generalizing before with
  | nil =>
    rw [searchFrom?]
    constructor
    · intro h
      exact ⟨[], [], rfl, by rwa [List.append_nil]⟩
    · rintro ⟨skipped, left, hnil, h⟩
      obtain ⟨rfl, rfl⟩ := List.append_eq_nil_iff.mp hnil.symm
      rwa [List.append_nil] at h
  | cons c cs ih =>
    rw [searchFrom?]
    cases hhere : pattern.matchHere? (behind before (c :: cs)) with
    | some m => exact iff_of_true rfl ⟨[], c :: cs, rfl, by rw [List.append_nil, hhere]; rfl⟩
    | none =>
      dsimp only
      rw [step_behind, ih]
      constructor
      · rintro ⟨skipped, left, rfl, h⟩
        exact ⟨c :: skipped, left, rfl, by rwa [List.append_cons]⟩
      · rintro ⟨skipped, left, hrest, h⟩
        cases skipped with
        | nil =>
          obtain rfl : c :: cs = left := hrest
          rw [List.append_nil, hhere] at h
          cases h
        | cons d skipped =>
          obtain ⟨rfl, rfl⟩ := List.cons_eq_cons.mp hrest
          exact ⟨skipped, left, rfl, by rwa [List.append_cons] at h⟩

theorem occursIn_iff : pattern.occursIn t = true ↔ ∃ before rest,
    t = before ++ rest ∧ ∃ q, q ∈ pattern.ways (behind before rest) := by
  rw [occursIn, search?, start_eq_behind, isSome_searchFrom?_iff]
  simp only [isSome_matchHere?_iff, List.nil_append]

/-! ## Matches that cannot overlap -/

def matchAt? (pattern : Pattern) (t : Text) (k : Nat) : Option Match :=
  pattern.matchHere? (behind (t.take k) (t.drop k))

/-- A match takes something, and no other match begins inside of what it takes. -/
def Apart (pattern : Pattern) (t : Text) : Prop :=
  ∀ k m, pattern.matchAt? t k = some m → m.text ≠ [] ∧
    ∀ j, k < j → j < k + m.text.length → pattern.matchAt? t j = none

def Piece.match? : Piece → Option Match
  | .found m => some m
  | .plain _ => none

theorem findAll_eq (pattern : Pattern) (t : Text) :
    pattern.findAll t = (pattern.pieces t).filterMap Piece.match? := by
  rw [findAll]
  refine List.filterMap_congr fun piece _ => ?_
  cases piece <;> rfl

theorem filterMap_piecesFrom (hapart : pattern.Apart t) {n skip : Nat} (hn : n ≤ t.length)
    (hskip : ∀ j, n ≤ j → j < n + skip → pattern.matchAt? t j = none) :
    (pattern.piecesFrom skip (t.drop n) (behind (t.take n) (t.drop n))).filterMap Piece.match? =
      (List.range' n (t.length - n)).filterMap (pattern.matchAt? t) := by
  obtain ⟨left, hleft⟩ : ∃ left, left = t.length - n := ⟨_, rfl⟩
  induction left generalizing n skip with
  | zero =>
    rw [← hleft, List.drop_eq_nil_of_le (by omega)]
    cases skip <;> rfl
  | succ left ih =>
    have hlt : n < t.length := by omega
    have hnext : behind (t.take n ++ [t[n]]) (t.drop (n + 1)) =
        behind (t.take (n + 1)) (t.drop (n + 1)) := by
      rw [List.take_append_getElem]
    have hhere : pattern.matchHere? (behind (t.take n) (t[n] :: t.drop (n + 1))) =
        pattern.matchAt? t n := by
      rw [matchAt?, List.drop_eq_getElem_cons hlt]
    have hrest : t.length - (n + 1) = left := by omega
    rw [List.drop_eq_getElem_cons hlt, ← hleft, List.range'_succ]
    cases skip with
    | succ skip =>
      have hnone : pattern.matchAt? t n = none := hskip n (by omega) (by omega)
      rw [piecesFrom, step_behind, hnext, List.filterMap_cons_none hnone, ← hrest]
      exact ih hlt (fun j hj hlast => hskip j (by omega) (by omega)) hrest.symm
    | zero =>
      rw [piecesFrom, step_behind, hnext, hhere]
      cases hmatch : pattern.matchAt? t n with
      | none =>
        rw [List.filterMap_cons_none hmatch, ← hrest]
        exact ih hlt (fun j hj hlast => absurd hj (by omega)) hrest.symm
      | some m =>
        obtain ⟨hne, hinside⟩ := hapart n m hmatch
        have hlength : 0 < m.text.length := List.length_pos_iff.mpr hne
        rw [List.filterMap_cons_some hmatch, ← hrest]
        simp only [List.isEmpty_iff, if_neg hne]
        refine congrArg (m :: ·) (ih hlt ?_ hrest.symm)
        exact fun j hj hlast => hinside j (by omega) (by omega)

theorem findAll_eq_filterMap (hapart : pattern.Apart t) :
    pattern.findAll t = (List.range t.length).filterMap (pattern.matchAt? t) := by
  rw [findAll_eq, List.range_eq_range']
  exact @filterMap_piecesFrom pattern t hapart 0 0 (Nat.zero_le _)
    fun j _ hj => absurd hj (by omega)

/-! ## Matches one after the other -/

def found (pattern : Pattern) (before rest : Text) : List Match :=
  (pattern.piecesFrom 0 rest (behind before rest)).filterMap Piece.match?

theorem findAll_eq_found (pattern : Pattern) (t : Text) : pattern.findAll t = pattern.found [] t :=
  findAll_eq pattern t

theorem piecesFrom_skip (taken rest : Text) :
    pattern.piecesFrom taken.length (taken ++ rest) (behind before (taken ++ rest)) =
      pattern.piecesFrom 0 rest (behind (before ++ taken) rest) := by
  induction taken generalizing before with
  | nil => rw [List.append_nil]; rfl
  | cons c taken ih =>
    rw [List.length_cons, List.cons_append, piecesFrom, step_behind, ih, List.append_assoc]
    rfl

theorem found_of_match {m : Match} {rest : Text} (hne : m.text ≠ [])
    (h : pattern.matchHere? (behind before (m.text ++ rest)) = some m) :
    pattern.found before (m.text ++ rest) = m :: pattern.found (before ++ m.text) rest := by
  obtain ⟨c, taken, htext⟩ := List.exists_cons_of_ne_nil hne
  have hlength : m.text.length - 1 = taken.length := by rw [htext]; rfl
  rw [htext, List.cons_append] at h
  rw [found, htext, List.cons_append, piecesFrom, h]
  simp only [List.isEmpty_iff, if_neg hne, hlength]
  rw [step_behind, piecesFrom_skip, List.append_assoc]
  rfl

theorem found_append_of_none {plain rest : Text} (h : ∀ left right, plain = left ++ right →
    right ≠ [] → pattern.matchHere? (behind (before ++ left) (right ++ rest)) = none) :
    pattern.found before (plain ++ rest) = pattern.found (before ++ plain) rest := by
  induction plain generalizing before with
  | nil => rw [List.append_nil]; rfl
  | cons c plain ih =>
    have hhere := h [] (c :: plain) rfl (List.cons_ne_nil _ _)
    rw [List.append_nil, List.cons_append] at hhere
    rw [found, List.cons_append, piecesFrom, hhere]
    simp only
    rw [List.filterMap_cons_none rfl, step_behind, List.append_cons before c plain]
    refine ih fun left right heq hright => ?_
    rw [List.append_assoc]
    exact h (c :: left) right (by rw [heq]; rfl) hright

def BeginsWith (pattern : Pattern) (w : Text) : Prop :=
  ∀ before rest, (pattern.matchHere? (behind before rest)).isSome = true → w <+: rest

theorem found_append_of_no_word {w : Text} (hpattern : pattern.BeginsWith w) {plain : Text}
    (hplain : ¬w <:+: plain) (hlast : ∀ c ∈ plain.getLast?, c ∉ w) (rest : Text) :
    pattern.found before (plain ++ rest) = pattern.found (before ++ plain) rest := by
  refine found_append_of_none ?_
  rintro left right rfl hright
  rw [← Option.not_isSome_iff_eq_none]
  intro hsome
  obtain ⟨after, hafter⟩ := hpattern _ _ hsome
  rcases List.append_eq_append_iff.mp hafter with ⟨more, rfl, -⟩ | ⟨more, rfl, -⟩
  · exact hplain ⟨left, more, by rw [List.append_assoc]⟩
  · -- the word would go on behind the last character
    rw [List.getLast?_append_of_ne_nil _ hright] at hlast
    exact hlast _ (List.getLast?_eq_some_getLast hright)
      (List.mem_append_left _ (List.getLast_mem hright))

theorem found_eq_nil_of_no_word {w : Text} (hpattern : pattern.BeginsWith w) (ht : ¬w <:+: t) :
    pattern.found before t = [] := by
  have hnone := @found_append_of_none pattern before t [] ?_
  · rw [List.append_nil] at hnone
    exact hnone
  · rintro left right rfl -
    rw [← Option.not_isSome_iff_eq_none, List.append_nil]
    intro hsome
    exact ht ((hpattern _ _ hsome).isInfix.trans (List.suffix_append left right).isInfix)

end Pattern

end SourceScout
