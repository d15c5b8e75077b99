import SourceScout.Proofs.Outline.Entries

/-!
# Spans inside spans

Two spans of one text are found by two counts, each from its own first line. The later count starts
with what the earlier one has open taken away. If that is anything at all, the later count is at
most zero wherever the earlier one is, so the inner span is settled by the end of the outer one.
-/

namespace SourceScout.Outline

open Block (balance balance_append lines_between_append)

def OpensWithin (lines : List Text) (first stop : Nat) : Prop :=
  ∃ k line, first ≤ k ∧ k < stop ∧ lines[k]? = some line ∧ '{' ∈ line

section

variable {lines : List Text} {i j last first stop : Nat}

theorem opensWithin_iff :
    OpensWithin lines first stop ↔ '{' ∈ ((lines.take stop).drop first).flatten := by
  rw [List.mem_flatten]
  constructor
  · rintro ⟨k, line, hfirst, hstop, hline, hopen⟩
    obtain ⟨n, rfl⟩ := Nat.exists_eq_add_of_le hfirst
    refine ⟨line, List.mem_of_getElem? (i := n) ?_, hopen⟩
    rw [List.getElem?_drop, List.getElem?_take_of_lt hstop, hline]
  · rintro ⟨line, hmem, hopen⟩
    obtain ⟨n, hn⟩ := List.mem_iff_getElem?.mp hmem
    rw [List.getElem?_drop, List.getElem?_take] at hn
    split at hn
    · rename_i hlt
      exact ⟨first + n, line, Nat.le_add_right _ _, hlt, hn, hopen⟩
    · cases hn

theorem balance_between (hij : i ≤ j) (hjs : j ≤ stop) :
    balance ((lines.take stop).drop i).flatten =
      balance ((lines.take j).drop i).flatten + balance ((lines.take stop).drop j).flatten := by
  rw [lines_between_append lines hij hjs, List.flatten_append, balance_append]

theorem balance_pos_of_not_settles (hij : i < j) (hj : j ≤ lines.length)
    (hopened : OpensWithin lines i j) (h : ¬Settles lines i (j - 1)) :
    0 < balance ((lines.take j).drop i).flatten := by
  have hlines : lines.take (j - 1 + 1) = lines.take j := by rw [Nat.sub_add_cancel (by omega)]
  by_contra hle
  apply h
  refine ⟨by omega, by omega, ?_, ?_⟩
  · rw [hlines]
    exact opensWithin_iff.mp hopened
  · rw [hlines]
    omega

theorem Settles.of_inside (h : Settles lines i last) (hij : i < j) (hj : j ≤ last)
    (hopened : OpensWithin lines i j) (hbefore : ¬Settles lines i (j - 1))
    (hopens : OpensWithin lines j (last + 1)) : Settles lines j last := by
  have hlast := h.last_lt
  have hclosed := h.closed
  have hopen := balance_pos_of_not_settles hij (by omega) hopened hbefore
  rw [balance_between (j := j) (by omega) (by omega)] at hclosed
  exact ⟨hj, hlast, opensWithin_iff.mp hopens, by omega⟩

theorem SpanEnds.le_of_settles (h : SpanEnds lines j stop) (hsettles : Settles lines j last) :
    stop ≤ last + 1 := by
  cases h with
  | @settled other _ hfirst =>
    have hle : ¬last < other := fun hlt => hfirst last hlt hsettles
    omega
  | unsettled hnever => exact absurd hsettles (hnever last)

theorem spanEnd_le_of_inside (hij : i < j) (hj : j < lines.length)
    (hopened : OpensWithin lines i j) (hinside : j + 1 ≤ spanEnd lines i)
    (hopens : OpensWithin lines j (spanEnd lines i)) : spanEnd lines j ≤ spanEnd lines i := by
  have houter := @spanEnd_ends lines i (by omega)
  have hinner := spanEnd_ends hj
  generalize spanEnd lines i = stop at houter hinside hopens ⊢
  cases houter with
  | settled hsettles hfirst =>
    -- the outer span goes on behind the line before the inner one
    have hbefore := hfirst (j - 1) (by omega)
    exact hinner.le_of_settles (hsettles.of_inside hij (by omega) hopened hbefore hopens)
  | unsettled _ => exact (hinner.bounds hj).2

end

theorem span_of_item? {language : Language} {lines : List Text} {index : Nat} {line : Text}
    {item : OutlineItem} (h : item? language lines index line = some item) :
    item.startLine = index + 1 ∧
      (item.kind = .field ∧ item.endLine = index + 1 ∨
        item.kind ≠ .field ∧ item.endLine = spanEnd lines index) := by
  obtain ⟨declaration, -, rfl⟩ := Option.map_eq_some_iff.mp h
  refine ⟨rfl, ?_⟩
  by_cases hfield : declaration.kind = .field
  · exact .inl ⟨hfield, if_pos hfield⟩
  · exact .inr ⟨hfield, if_neg hfield⟩

/-- Spans nest. If a line lies inside the span that starts at an earlier one, a brace is opened
before it and one is opened from it on within that span, then its own span ends no later. So in an
outline no entry inside an opened one outlasts it if it opens a brace there. -/
theorem inLanguage_spans_nest :
    (∀ (lines : List Text) (i j : Nat), i < j → j < lines.length → OpensWithin lines i j →
      j + 1 ≤ spanEnd lines i → OpensWithin lines j (spanEnd lines i) →
      spanEnd lines j ≤ spanEnd lines i) ∧
    ∀ (language : Option Language) (content : Text),
      ∀ outer ∈ inLanguage language content, ∀ inner ∈ inLanguage language content,
        outer.startLine < inner.startLine → inner.startLine ≤ outer.endLine →
        OpensWithin content.lines (outer.startLine - 1) (inner.startLine - 1) →
        OpensWithin content.lines (inner.startLine - 1) outer.endLine →
        inner.endLine ≤ outer.endLine := by
  constructor
  · intro lines i j hij hj hopened hinside hopens
    exact spanEnd_le_of_inside hij hj hopened hinside hopens
  · intro language content outer houter inner hinner hlt hinside hopened hopens
    cases language with
    | none => cases houter
    | some language =>
      obtain ⟨i, outerLine, -, hi⟩ := mem_ofLines_iff.mp houter
      obtain ⟨j, innerLine, hline, hj⟩ := mem_ofLines_iff.mp hinner
      obtain ⟨houterStart, houterEnd⟩ := span_of_item? hi
      obtain ⟨hinnerStart, hinnerEnd⟩ := span_of_item? hj
      rw [houterStart, hinnerStart] at hopened
      rw [hinnerStart] at hopens
      simp only [Nat.add_sub_cancel] at hopened hopens
      rcases houterEnd with ⟨-, houterEnd⟩ | ⟨-, houterEnd⟩
      · -- nothing starts inside a field
        omega
      · rcases hinnerEnd with ⟨-, hinnerEnd⟩ | ⟨-, hinnerEnd⟩
        · omega
        · rw [houterEnd] at hinside hopens ⊢
          rw [hinnerEnd]
          have hlength := (List.getElem?_eq_some_iff.mp hline).1
          exact spanEnd_le_of_inside (by omega) hlength hopened (by omega) hopens

def sampleNesting : Text := "class A \x7b\n  void f() \x7b\n  \x7d\n\x7d \x7d"

theorem inLanguage_spans_nest_sampleNesting :
    inLanguage (some .java) sampleNesting =
        [⟨"A", .classType, 1, 4, "class A \x7b"⟩, ⟨"f", .method, 2, 3, "void f() \x7b"⟩] ∧
      OpensWithin sampleNesting.lines 0 1 ∧ OpensWithin sampleNesting.lines 1 4 ∧
      spanEnd sampleNesting.lines 1 ≤ spanEnd sampleNesting.lines 0 ∧
      (⟨"f", .method, 2, 3, "void f() \x7b"⟩ : OutlineItem).endLine ≤
        (⟨"A", .classType, 1, 4, "class A \x7b"⟩ : OutlineItem).endLine := by
  have houtline : inLanguage (some .java) sampleNesting =
      [⟨"A", .classType, 1, 4, "class A \x7b"⟩, ⟨"f", .method, 2, 3, "void f() \x7b"⟩] := by
    decide +kernel
  have hopened : OpensWithin sampleNesting.lines 0 1 :=
    ⟨0, "class A \x7b", by decide, by decide, by decide +kernel, by decide⟩
  have hopens : OpensWithin sampleNesting.lines 1 4 :=
    ⟨1, "  void f() \x7b", by decide, by decide, by decide +kernel, by decide⟩
  have hend : spanEnd sampleNesting.lines 0 = 4 := by decide +kernel
  obtain ⟨hspans, hitems⟩ := inLanguage_spans_nest
  refine ⟨houtline, hopened, hopens, ?_, ?_⟩
  · apply hspans sampleNesting.lines 0 1 (by decide) (by decide +kernel) hopened
    · rw [hend]
      decide
    · rw [hend]
      exact hopens
  · refine hitems (some .java) sampleNesting ⟨"A", .classType, 1, 4, "class A \x7b"⟩ ?_
      ⟨"f", .method, 2, 3, "void f() \x7b"⟩ ?_ (by decide) (by decide) hopened hopens
    · rw [houtline]
      exact List.mem_cons_self
    · rw [houtline]
      exact List.mem_cons_of_mem _ List.mem_cons_self

end SourceScout.Outline
