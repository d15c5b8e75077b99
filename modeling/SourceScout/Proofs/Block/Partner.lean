import SourceScout.Proofs.Block.Nesting
import SourceScout.Proofs.Block.Resolution

/-!
# Blocks and partners of braces

In balanced lines a block ends on the line of the partner of its first `{`, if no `}` stands before
that `{` on its own line. The scan counts from the beginning of that line: with a `}` before the `{`
it never stops at the partner, and its answer is right only if another `}` on the partner's line
stops it.
-/

namespace SourceScout.Block

structure FirstOpen (t : Text) (start opening : Nat) : Prop where
  start_le : start ≤ opening
  brace : t[opening]? = some '{'
  before : ∀ place, start ≤ place → place < opening → t[place]? ≠ some '{'

/-- The first `{` of the block at `hit` is at `opening`, on line `k`, and its partner at `closing`,
on line `last`. -/
structure Partners (lines : List Text) (hit k opening closing last : Nat) : Prop where
  first : FirstOpen lines.flatten (lineStart lines hit) opening
  open_line : OnLine lines opening k
  partner : Matches lines.flatten opening closing
  close_line : OnLine lines closing last

theorem FirstOpen.unique {t : Text} {start opening other : Nat} (h : FirstOpen t start opening)
    (hother : FirstOpen t start other) : opening = other := by
  rcases Nat.lt_trichotomy opening other with hlt | heq | hgt
  · exact absurd h.brace (hother.before opening h.start_le hlt)
  · exact heq
  · exact absurd hother.brace (h.before other hother.start_le hgt)

theorem firstOpen_append {front before rest : Text} (h : '{' ∉ before) :
    FirstOpen (front ++ (before ++ '{' :: rest)) front.length (front.length + before.length) := by
  refine ⟨Nat.le_add_right _ _, ?_, ?_⟩
  · rw [List.getElem?_append_right (Nat.le_add_right _ _), Nat.add_sub_cancel_left,
      List.getElem?_append_right le_rfl, Nat.sub_self, List.getElem?_cons_zero]
  · intro place hle hlt hbrace
    obtain ⟨n, rfl⟩ := Nat.exists_eq_add_of_le hle
    rw [List.getElem?_append_right hle, Nat.add_sub_cancel_left,
      List.getElem?_append_left (by omega)] at hbrace
    exact h (List.mem_of_getElem? hbrace)

/-- Lines without the end of a declaration: either nothing decides how the definition ends, or the
first deciding line has a `{`. -/
theorem neverStops_or_exists_cut {lines : List Text} {hit : Nat}
    (hend : declarationEnd? lines hit = none) :
    NeverStops lines hit ∨
      ∃ k before rest, FirstStop lines hit k (before ++ '{' :: rest) ∧ '{' ∉ before := by
  rcases neverStops_or_exists_firstStop lines hit with hnever | ⟨k, line, hfirst⟩
  · exact .inl hnever
  · rw [hfirst.declarationEnd?_eq] at hend
    have hopen : '{' ∈ line := by
      rw [← opens_iff]
      by_contra hno
      rw [if_neg hno] at hend
      cases hend
    obtain ⟨before, rest, rfl, hbefore⟩ := List.eq_append_cons_of_mem hopen
    exact .inr ⟨k, before, rest, hfirst, hbefore⟩

theorem exists_firstStop_cut {lines : List Text} {hit : Nat}
    (hend : declarationEnd? lines hit = none)
    (hopens : ∃ i line, hit ≤ i ∧ lines[i]? = some line ∧ '{' ∈ line) :
    ∃ k before rest, FirstStop lines hit k (before ++ '{' :: rest) ∧ '{' ∉ before := by
  rcases neverStops_or_exists_cut hend with hnever | hcut
  · obtain ⟨i, line, hle, hline, hopen⟩ := hopens
    exact absurd (.inl hopen) (hnever i hle line hline)
  · exact hcut

namespace FirstStop

variable {lines : List Text} {hit k : Nat} {before rest : Text}

theorem firstOpen (h : FirstStop lines hit k (before ++ '{' :: rest)) (hbefore : '{' ∉ before) :
    FirstOpen lines.flatten (lineStart lines hit) (lineStart lines k + before.length) := by
  obtain ⟨skipped, hdrop, rfl, hskipped⟩ := h.drop_eq
  have hplain : '{' ∉ skipped.flatten ++ before := by
    intro hmem
    rcases List.mem_append.mp hmem with hmem | hmem
    · obtain ⟨line, hline, hbrace⟩ := List.mem_flatten.mp hmem
      exact hskipped line hline (.inl hbrace)
    · exact hbefore hmem
  have htext : lines.flatten = (lines.take hit).flatten ++ ((skipped.flatten ++ before) ++
      '{' :: (rest ++ (lines.drop (hit + skipped.length + 1)).flatten)) := by
    have hsplit := congrArg List.flatten (List.take_append_drop hit lines)
    rw [hdrop] at hsplit
    simpa using hsplit.symm
  have hstart : lineStart lines (hit + skipped.length) =
      lineStart lines hit + skipped.flatten.length := by
    rw [lineStart_add, hdrop, lineStart, lineStart, List.take_left]
  have hopen := @firstOpen_append (lines.take hit).flatten _
    (rest ++ (lines.drop (hit + skipped.length + 1)).flatten) hplain
  rwa [← htext, List.length_append, ← Nat.add_assoc, ← lineStart, ← hstart] at hopen

theorem onLine_open (h : FirstStop lines hit k (before ++ '{' :: rest)) :
    OnLine lines (lineStart lines k + before.length) k := by
  refine ⟨Nat.le_add_right _ _, ?_⟩
  rw [lineStart_succ h.line_eq, List.length_append, List.length_cons]
  omega

theorem around?_last_iff (h : FirstStop lines hit k (before ++ '{' :: rest)) {last : Nat} :
    (∃ block, around? lines hit = some block ∧ block.last = last) ↔
      ∃ place, ClosesFirst lines.flatten (lineStart lines k) place ∧ OnLine lines place last := by
  have hlt := (List.getElem?_eq_some_iff.mp h.line_eq).1
  rw [around?_of_lt (Nat.lt_of_le_of_lt h.hit_le hlt), h.lastLine?_eq_of_opens (by simp),
    ← closeLine?_eq_some_iff]
  constructor
  · rintro ⟨block, hblock, rfl⟩
    obtain ⟨last, hlast, rfl⟩ := Option.map_eq_some_iff.mp hblock
    exact hlast
  · intro hlast
    exact ⟨_, by rw [hlast]; rfl, rfl⟩

theorem forall_ne_close_iff (h : FirstStop lines hit k (before ++ '{' :: rest)) :
    (∀ place, lineStart lines k ≤ place → place < lineStart lines k + before.length →
      lines.flatten[place]? ≠ some '}') ↔ '}' ∉ before := by
  have hat : ∀ n < before.length, lines.flatten[lineStart lines k + n]? = before[n]? := by
    intro n hn
    rw [flatten_eq_of_getElem? h.line_eq, lineStart,
      List.getElem?_append_right (Nat.le_add_right _ _), Nat.add_sub_cancel_left,
      List.append_assoc, List.getElem?_append_left hn]
  constructor
  · intro hclean hmem
    obtain ⟨n, hn, hbrace⟩ := List.mem_iff_getElem.mp hmem
    apply hclean (lineStart lines k + n) (Nat.le_add_right _ _) (by omega)
    rw [hat n hn, List.getElem?_eq_getElem hn, hbrace]
  · intro hclean place hle hlt hbrace
    obtain ⟨n, rfl⟩ := Nat.exists_eq_add_of_le hle
    rw [hat n (by omega)] at hbrace
    exact hclean (List.mem_of_getElem? hbrace)

end FirstStop

theorem FirstStop.exists_partners {lines : List Text} {hit k : Nat} {before rest : Text}
    (h : FirstStop lines hit k (before ++ '{' :: rest)) (hbefore : '{' ∉ before)
    (hbalanced : Balanced lines.flatten) :
    ∃ closing last, Partners lines hit k (lineStart lines k + before.length) closing last ∧
      (ClosesFirst lines.flatten (lineStart lines k) closing ↔ '}' ∉ before) := by
  have htext := flatten_eq_of_getElem? h.line_eq
  rw [List.append_assoc, List.cons_append] at htext
  obtain ⟨inner, after, hrest, hinner⟩ : ∃ inner after,
      rest ++ (lines.drop (k + 1)).flatten = inner ++ '}' :: after ∧ Nested inner := by
    rw [htext, ← List.append_assoc] at hbalanced
    exact hbalanced.exists_nested
  rw [hrest] at htext
  have hmatch : Matches lines.flatten (lineStart lines k + before.length)
      (lineStart lines k + (before.length + (inner.length + 1))) := by
    refine ⟨(lines.take k).flatten ++ before, inner, after, by rw [htext, List.append_assoc],
      hinner, by rw [List.length_append]; rfl, ?_⟩
    rw [List.length_append, lineStart]
    omega
  obtain ⟨last, hlast⟩ : ∃ last,
      OnLine lines (lineStart lines k + (before.length + (inner.length + 1))) last := by
    apply exists_onLine
    rw [htext, lineStart]
    simp
  refine ⟨_, last, ⟨h.firstOpen hbefore, h.onLine_open, hmatch, hlast⟩, ?_⟩
  rw [htext]
  exact closesFirst_partner_iff hbefore hinner

/-- In balanced lines the first `{` of a block has a partner, and the block ends on the line of the
partner exactly if no `}` stands before the `{` on its line, or another `}` on the partner's line is
the first at which the braces counted from the beginning of the line of the `{` are even. -/
theorem around?_last_eq_partner_iff (lines : List Text) (hit : Nat)
    (hbalanced : Balanced lines.flatten) (hend : declarationEnd? lines hit = none)
    (hopens : ∃ i line, hit ≤ i ∧ lines[i]? = some line ∧ '{' ∈ line) :
    (∃ k opening closing last, Partners lines hit k opening closing last) ∧
    ∀ k opening closing last, Partners lines hit k opening closing last →
      ((∃ block, around? lines hit = some block ∧ block.last = last) ↔
        (∀ place, lineStart lines k ≤ place → place < opening →
          lines.flatten[place]? ≠ some '}') ∨
        ∃ other, other ≠ closing ∧ OnLine lines other last ∧
          ClosesFirst lines.flatten (lineStart lines k) other) := by
  obtain ⟨k, before, rest, hfirst, hbefore⟩ := exists_firstStop_cut hend hopens
  obtain ⟨closing, last, hpartners, hcount⟩ := hfirst.exists_partners hbefore hbalanced
  refine ⟨⟨k, _, closing, last, hpartners⟩, ?_⟩
  intro k' opening closing' last' hother
  -- the places are those found on the first deciding line
  obtain rfl := hother.first.unique hpartners.first
  obtain rfl := hother.open_line.unique hpartners.open_line
  obtain rfl := hother.partner.unique hpartners.partner
  obtain rfl := hother.close_line.unique hpartners.close_line
  rw [hfirst.around?_last_iff, hfirst.forall_ne_close_iff]
  constructor
  · rintro ⟨place, hplace, hline⟩
    by_cases heq : place = closing'
    · subst heq
      exact .inl (hcount.mp hplace)
    · exact .inr ⟨place, heq, hline, hplace⟩
  · rintro (hclean | ⟨other, -, hline, hother⟩)
    · exact ⟨closing', hcount.mpr hclean, hpartners.close_line⟩
    · exact ⟨other, hother, hline⟩

theorem around?_last_eq_partner_of_inner :
    Balanced (List.flatten [['A', '{'], ['f', '{', '}'], ['}']]) ∧
      declarationEnd? [['A', '{'], ['f', '{', '}'], ['}']] 0 = none ∧
      Partners [['A', '{'], ['f', '{', '}'], ['}']] 0 0 1 5 2 ∧
      ∃ block, around? [['A', '{'], ['f', '{', '}'], ['}']] 0 = some block ∧ block.last = 2 := by
  have hpartners : Partners [['A', '{'], ['f', '{', '}'], ['}']] 0 0 1 5 2 := by
    refine ⟨⟨by decide, rfl, by decide⟩, by decide, ?_, by decide⟩
    exact ⟨['A'], ['f', '{', '}'], [], rfl, by decide, rfl, rfl⟩
  refine ⟨by decide, rfl, hpartners, ?_⟩
  have hiff := (around?_last_eq_partner_iff [['A', '{'], ['f', '{', '}'], ['}']] 0 (by decide) rfl
    ⟨0, ['A', '{'], le_rfl, rfl, by decide⟩).2 0 1 5 2 hpartners
  exact hiff.mpr (.inl (by decide))

/-- Balanced lines in which a `}` stands before the `{`: the `{` has a partner, and no block is
found. -/
theorem around?_eq_none_of_close_before_open :
    Balanced (List.flatten [['{'], ['}', ' ', '{'], ['}']]) ∧
      declarationEnd? [['{'], ['}', ' ', '{'], ['}']] 1 = none ∧
      Partners [['{'], ['}', ' ', '{'], ['}']] 1 1 3 4 2 ∧
      around? [['{'], ['}', ' ', '{'], ['}']] 1 = none := by
  refine ⟨by decide, rfl, ⟨⟨by decide, rfl, by decide⟩, by decide, ?_, by decide⟩, by decide⟩
  exact ⟨['{', '}', ' '], [], [], rfl, .nil, rfl, rfl⟩

end SourceScout.Block
