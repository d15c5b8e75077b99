import SourceScout.Proofs.Block.Partner
import SourceScout.Proofs.Outline.Span

/-!
# Spans and blocks

Two counts of braces look for the end of a definition. That of blocks stops inside a line, at the
partner of the first `{`; that of spans looks only at whole lines. If nothing closes before the
first `{`, the span is not settled before the line of the partner, and it is settled there unless
what follows the partner on that line opens more than it closes. Then the span goes on, except on
the last line, where there is nothing left.
-/

namespace SourceScout.Outline

open Block

section

variable {lines : List Text} {hit k j : Nat}

theorem settles_iff_of_plain (hle : hit ≤ k)
    (hopen : '{' ∉ ((lines.take k).drop hit).flatten)
    (hclose : '}' ∉ ((lines.take k).drop hit).flatten) :
    Settles lines hit j ↔ Settles lines k j := by
  rcases Nat.lt_or_ge j k with hlt | hge
  · apply iff_of_false
    · intro h
      apply hopen
      rw [lines_between_append lines (h.index_le.trans (Nat.le_add_right j 1)) hlt,
        List.flatten_append]
      exact List.mem_append_left _ h.opened
    · intro h
      exact absurd h.index_le (Nat.not_le_of_lt hlt)
  · have htext : ((lines.take (j + 1)).drop hit).flatten =
        ((lines.take k).drop hit).flatten ++ ((lines.take (j + 1)).drop k).flatten := by
      rw [lines_between_append lines hle (Nat.le_add_right_of_le hge), List.flatten_append]
    have hbalance : balance ((lines.take (j + 1)).drop hit).flatten =
        balance ((lines.take (j + 1)).drop k).flatten := by
      rw [htext, balance_append, balance_eq_zero hopen hclose, Int.zero_add]
    constructor
    · rintro ⟨-, hlast, hopened, hclosed⟩
      rw [htext] at hopened
      exact ⟨hge, hlast, (List.mem_append.mp hopened).resolve_left hopen, hbalance ▸ hclosed⟩
    · rintro ⟨-, hlast, hopened, hclosed⟩
      refine ⟨hle.trans hge, hlast, ?_, hbalance ▸ hclosed⟩
      rw [htext]
      exact List.mem_append_right _ hopened

variable {before rest : Text}

theorem Settles.exists_closesFirst (h : Settles lines k j)
    (hline : lines[k]? = some (before ++ '{' :: rest)) (hopen : '{' ∉ before)
    (hclose : '}' ∉ before) :
    ∃ place < lineStart lines (j + 1), ClosesFirst lines.flatten (lineStart lines k) place := by
  have hlines := lines_between_cons hline (Nat.lt_add_one_of_le h.index_le)
  have hclosed := h.closed
  rw [hlines, List.flatten_cons, List.append_assoc, balance_append, balance_eq_zero hopen hclose,
    List.cons_append, balance_cons, balance_open] at hclosed
  obtain ⟨inner, after, hinner, hnested⟩ := exists_nested_of_balance_neg
    (t := rest ++ ((lines.take (j + 1)).drop (k + 1)).flatten) (by omega)
  have hupto : (lines.take (j + 1)).flatten =
      (lines.take k).flatten ++ (before ++ '{' :: (inner ++ '}' :: after)) := by
    have hsplit := lines_between_append lines (Nat.zero_le k)
      (h.index_le.trans (Nat.le_add_right j 1))
    rw [List.drop_zero, List.drop_zero] at hsplit
    rw [hsplit, hlines, List.flatten_append, List.flatten_cons, List.append_assoc,
      List.cons_append, hinner]
  refine ⟨lineStart lines k + (before.length + (inner.length + 1)), ?_, ?_⟩
  · rw [lineStart, lineStart, hupto]
    simp only [List.length_append, List.length_cons]
    omega
  · have htext : lines.flatten = (lines.take k).flatten ++
        (before ++ '{' :: (inner ++ '}' :: (after ++ (lines.drop (j + 1)).flatten))) := by
      have hsplit := congrArg List.flatten (List.take_append_drop (j + 1) lines)
      rw [List.flatten_append, hupto] at hsplit
      simpa using hsplit.symm
    rw [htext]
    exact (closesFirst_partner_iff hopen hnested).mpr hclose

theorem settles_partner_iff {place last : Nat} {front after : Text}
    (hline : lines[k]? = some (before ++ '{' :: rest)) (hle : k ≤ last)
    (hplace : Closes lines.flatten (lineStart lines k) place)
    (hlast : lines[last]? = some (front ++ '}' :: after))
    (hat : place = lineStart lines last + front.length) :
    Settles lines k last ↔ after.count '{' ≤ after.count '}' := by
  have hlt := (List.getElem?_eq_some_iff.mp hlast).1
  -- the text of the lines is what lies before and at the partner, and what follows it
  have hupto : lines.flatten.take (lineStart lines (last + 1)) =
      lines.flatten.take (place + 1) ++ after := by
    have htext := flatten_eq_of_getElem? hlast
    have hsplit : lines.flatten = ((lines.take last).flatten ++ (front ++ ['}'])) ++
        (after ++ (lines.drop (last + 1)).flatten) := by
      rw [htext]
      simp
    have hplace : place + 1 = ((lines.take last).flatten ++ (front ++ ['}'])).length := by
      rw [hat, lineStart]
      simp [Nat.add_assoc]
    rw [lineStart_succ hlast, hsplit, hplace, List.take_left, ← List.append_assoc]
    apply List.take_left'
    rw [lineStart]
    simp
  have hspan : ((lines.take (last + 1)).drop k).flatten =
      (lines.flatten.take (place + 1)).drop (lineStart lines k) ++ after := by
    rw [← lines_flatten_between lines (Nat.le_add_right_of_le hle), hupto]
    apply List.drop_append_of_le_length
    have hstart := hplace.start_le
    have hlength := (List.getElem?_eq_some_iff.mp hplace.brace).1
    rw [List.length_take]
    omega
  have hbalance : balance ((lines.take (last + 1)).drop k).flatten = balance after := by
    rw [hspan, balance_append, hplace.even, Int.zero_add]
  constructor
  · intro h
    have hclosed := h.closed
    rw [hbalance, balance] at hclosed
    omega
  · intro hcount
    refine ⟨hle, hlt, ?_, ?_⟩
    · rw [lines_between_cons hline (Nat.lt_add_one_of_le hle), List.flatten_cons]
      exact List.mem_append_left _ (List.mem_append_right _ List.mem_cons_self)
    · rw [hbalance, balance]
      omega

theorem SpanEnds.eq_succ_iff {index stop last : Nat} (h : SpanEnds lines index stop)
    (hlast : last < lines.length) (hbefore : ∀ i < last, ¬Settles lines index i) :
    last + 1 ≤ stop ∧ (stop = last + 1 ↔ Settles lines index last ∨ last + 1 = lines.length) := by
  cases h with
  | @settled other hsettles hfirst =>
    have hle : last ≤ other := Nat.le_of_not_lt fun hlt => hbefore other hlt hsettles
    have hother := hsettles.last_lt
    refine ⟨by omega, ?_⟩
    constructor
    · intro heq
      obtain rfl : other = last := by omega
      exact .inl hsettles
    · rintro (hsettled | hend)
      · have hge : ¬last < other := fun hlt => hfirst last hlt hsettled
        omega
      · omega
  | unsettled hnever =>
    refine ⟨hlast, ?_⟩
    constructor
    · exact fun heq => .inr heq.symm
    · rintro (hsettled | hend)
      · exact absurd hsettled (hnever last)
      · exact hend.symm

end

/-- Where the text between the beginning of a line and the first `{` after it closes nothing, the
lines before that of the `{` have no braces, and the part of its line before it has none. -/
theorem plain_before_open {lines : List Text} {hit k : Nat} {before rest : Text}
    (h : FirstStop lines hit k (before ++ '{' :: rest)) (hopen : '{' ∉ before)
    (hclean : ∀ opening, FirstOpen lines.flatten (lineStart lines hit) opening →
      ∀ place, lineStart lines hit ≤ place → place < opening →
        lines.flatten[place]? ≠ some '}') :
    '{' ∉ ((lines.take k).drop hit).flatten ∧ '}' ∉ ((lines.take k).drop hit).flatten ∧
      '}' ∉ before := by
  have hfirst := h.firstOpen hopen
  have hmono := lineStart_mono lines h.hit_le
  refine ⟨?_, ?_, ?_⟩
  · intro hmem
    obtain ⟨line, hline, hbrace⟩ := List.mem_flatten.mp hmem
    obtain ⟨skipped, hdrop, rfl, hskipped⟩ := h.drop_eq
    rw [List.drop_take, hdrop, Nat.add_sub_cancel_left, List.take_left] at hline
    exact hskipped line hline (.inl hbrace)
  · rw [← lines_flatten_between lines h.hit_le]
    intro hmem
    obtain ⟨n, hn⟩ := List.mem_iff_getElem?.mp hmem
    rw [List.getElem?_drop, List.getElem?_take] at hn
    split at hn
    · exact hclean _ hfirst _ (Nat.le_add_right _ _) (by omega) hn
    · cases hn
  · apply h.forall_ne_close_iff.mp
    intro place hle hlt
    exact hclean _ hfirst place (hmono.trans hle) hlt

theorem not_settles_of_neverStops {lines : List Text} {hit : Nat} (h : NeverStops lines hit)
    (j : Nat) : ¬Settles lines hit j := by
  intro hsettles
  obtain ⟨line, hline, hbrace⟩ := List.mem_flatten.mp hsettles.opened
  rw [List.drop_take] at hline
  exact h.drop line (List.mem_of_mem_take hline) (.inl hbrace)

theorem spanEnd_eq_length {lines : List Text} {hit : Nat} (hhit : hit < lines.length)
    (h : ∀ j, ¬Settles lines hit j) : spanEnd lines hit = lines.length := by
  have hspan := spanEnd_ends hhit
  generalize spanEnd lines hit = stop at hspan ⊢
  cases hspan with
  | settled hsettles _ => exact absurd hsettles (h _)
  | unsettled _ => rfl

/-- The span of a definition and its block, where no `;` ends the definition and nothing closes
between the beginning of the hit and the first `{`. Without a block the span ends with the text.
With one it ends no earlier than the block, and on the same line exactly if what follows the partner
of the first `{` on that line opens no more than it closes, or if that line is the last. -/
theorem spanEnd_of_around? (lines : List Text) (hit : Nat) (hhit : hit < lines.length)
    (hend : declarationEnd? lines hit = none)
    (hclean : ∀ opening, FirstOpen lines.flatten (lineStart lines hit) opening →
      ∀ place, lineStart lines hit ≤ place → place < opening →
        lines.flatten[place]? ≠ some '}') :
    (around? lines hit = none → spanEnd lines hit = lines.length) ∧
    ∀ block, around? lines hit = some block →
      block.last + 1 ≤ spanEnd lines hit ∧
      ∃ k opening closing front after, Partners lines hit k opening closing block.last ∧
        lines[block.last]? = some (front ++ '}' :: after) ∧
        closing = lineStart lines block.last + front.length ∧
        (spanEnd lines hit = block.last + 1 ↔
          after.count '{' ≤ after.count '}' ∨ block.last + 1 = lines.length) := by
  rw [around?_of_lt hhit]
  rcases neverStops_or_exists_cut hend with hnever | ⟨k, before, rest, hfirst, hopen⟩
  · rw [hnever.lastLine?_eq]
    refine ⟨fun _ => spanEnd_eq_length hhit (not_settles_of_neverStops hnever), ?_⟩
    intro block hblock
    cases hblock
  · obtain ⟨hplain, hclosed, hclose⟩ := plain_before_open hfirst hopen hclean
    have hsettles : ∀ j, Settles lines hit j ↔ Settles lines k j := fun j =>
      settles_iff_of_plain hfirst.hit_le hplain hclosed
    rw [hfirst.lastLine?_eq_of_opens (by simp)]
    constructor
    · intro hnone
      have hnever := closeLine?_eq_none_iff.mp (Option.map_eq_none_iff.mp hnone)
      apply spanEnd_eq_length hhit
      intro j hj
      obtain ⟨place, -, hplace⟩ :=
        ((hsettles j).mp hj).exists_closesFirst hfirst.line_eq hopen hclose
      exact hnever place hplace.1
    · intro block hblock
      obtain ⟨last, hlast, rfl⟩ := Option.map_eq_some_iff.mp hblock
      obtain ⟨hle, place, hplace, hline⟩ := closesFirst_of_closeLine?_eq_some hlast
      obtain ⟨front, after, hcut, hat⟩ := exists_cut_of_onLine hline hplace.1.brace
      -- a span that is settled has passed the partner
      have hbefore : ∀ i < last, ¬Settles lines hit i := by
        intro i hi hi'
        obtain ⟨other, hother, hcloses⟩ :=
          ((hsettles i).mp hi').exists_closesFirst hfirst.line_eq hopen hclose
        obtain rfl := hplace.unique hcloses
        have hmono := lineStart_mono lines (i := i + 1) hi
        have hstart := hline.1
        omega
      obtain ⟨hge, heq⟩ := (spanEnd_ends hhit).eq_succ_iff hline.lt_length hbefore
      refine ⟨hge, k, _, place, front, after, ⟨hfirst.firstOpen hopen, hfirst.onLine_open, ?_,
        hline⟩, hcut, hat, ?_⟩
      · have htext := flatten_eq_of_getElem? hfirst.line_eq
        rw [List.append_assoc, List.cons_append] at htext
        rw [htext] at hplace ⊢
        exact hplace.matches hopen hclose
      · rw [heq, hsettles, settles_partner_iff hfirst.line_eq hle hplace.1 hcut hat]

def branches : List Text := [['i', '{'], ['}', 'e', '{'], ['}'], ['x']]

theorem branches_clean (opening : Nat)
    (h : FirstOpen branches.flatten (lineStart branches 0) opening) (place : Nat)
    (_ : lineStart branches 0 ≤ place) (hlt : place < opening) :
    branches.flatten[place]? ≠ some '}' := by
  obtain rfl : opening = 1 := h.unique ⟨by decide, rfl, by decide⟩
  obtain rfl : place = 0 := by omega
  decide

/-- The block of a conditional ends with its first branch and the span goes on. -/
theorem spanEnd_of_around?_branches :
    declarationEnd? branches 0 = none ∧ around? branches 0 = some ⟨0, 1⟩ ∧
      2 ≤ spanEnd branches 0 ∧ spanEnd branches 0 ≠ 2 := by
  have hblock : around? branches 0 = some ⟨0, 1⟩ := by decide
  obtain ⟨hle, k, opening, closing, front, after, -, hcut, -, hiff⟩ :=
    (spanEnd_of_around? branches 0 (by decide) rfl branches_clean).2 _ hblock
  refine ⟨rfl, hblock, hle, fun heq => ?_⟩
  cases front with
  | nil =>
    obtain rfl : ['e', '{'] = after := by simpa [branches] using hcut
    exact absurd (hiff.mp heq) (by decide)
  | cons c front =>
    have hrest : ['e', '{'] = front ++ '}' :: after := (List.cons.inj (Option.some.inj hcut)).2
    have hmem : '}' ∈ ['e', '{'] := by
      rw [hrest]
      simp
    exact absurd hmem (by decide)

/-- On the last line the span ends with the block although what follows the partner opens more than
it closes. -/
theorem spanEnd_eq_of_open_on_last_line :
    declarationEnd? [['{', '}', '{']] 0 = none ∧
      (∀ opening,
        FirstOpen (List.flatten [['{', '}', '{']]) (lineStart [['{', '}', '{']] 0) opening →
        ∀ place, lineStart [['{', '}', '{']] 0 ≤ place → place < opening →
          (List.flatten [['{', '}', '{']])[place]? ≠ some '}') ∧
      around? [['{', '}', '{']] 0 = some ⟨0, 0⟩ ∧ Partners [['{', '}', '{']] 0 0 0 1 0 ∧
      [['{', '}', '{']][0]? = some (['{'] ++ '}' :: ['{']) ∧
      spanEnd [['{', '}', '{']] 0 = 0 + 1 ∧ ¬['{'].count '{' ≤ ['{'].count '}' := by
  have hfirst : FirstOpen (List.flatten [['{', '}', '{']]) (lineStart [['{', '}', '{']] 0) 0 :=
    ⟨by decide, rfl, by decide⟩
  refine ⟨rfl, ?_, by decide, ⟨hfirst, by decide, ?_, by decide⟩, rfl, by decide, by decide⟩
  · intro opening hopening place _ hlt
    obtain rfl := hopening.unique hfirst
    omega
  · exact ⟨[], [], ['{'], rfl, .nil, rfl, rfl⟩

end SourceScout.Outline
