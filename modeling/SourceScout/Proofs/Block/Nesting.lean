import SourceScout.Proofs.Block.Braces

/-!
# Nested braces

Two braces match if the text between them is nested. A text is nested exactly if its braces are
balanced by count, and in a balanced text every `{` has one partner.
-/

namespace SourceScout.Block

inductive Nested : Text → Prop where
  | nil : Nested []
  | plain {c : Char} {t : Text} (hopen : c ≠ '{') (hclose : c ≠ '}') (h : Nested t) :
      Nested (c :: t)
  | braces {inner t : Text} (hinner : Nested inner) (h : Nested t) :
      Nested ('{' :: (inner ++ '}' :: t))

def Matches (t : Text) (opening closing : Nat) : Prop :=
  ∃ before inner after, t = before ++ '{' :: (inner ++ '}' :: after) ∧ Nested inner ∧
    opening = before.length ∧ closing = before.length + 1 + inner.length

/-- No prefix closes more braces than it opens, and the whole text closes all of them. -/
structure Balanced (t : Text) : Prop where
  prefixes : ∀ n ≤ t.length, (t.take n).count '}' ≤ (t.take n).count '{'
  total : t.count '{' = t.count '}'

instance (t : Text) : Decidable (Balanced t) :=
  decidable_of_iff ((∀ n ≤ t.length, (t.take n).count '}' ≤ (t.take n).count '{') ∧
      t.count '{' = t.count '}')
    ⟨fun h => ⟨h.1, h.2⟩, fun h => ⟨h.prefixes, h.total⟩⟩

theorem Nested.balance_eq {t : Text} (h : Nested t) : balance t = 0 := by
  induction h with
  | nil => rfl
  | plain hopen hclose _ ih =>
    rw [balance_cons, ih, balance_plain hopen hclose]
    rfl
  | braces _ _ ihinner ih =>
    rw [balance_cons, balance_append, balance_cons '}', ihinner, ih]
    rfl

theorem Nested.balance_take_nonneg {t : Text} (h : Nested t) (n : Nat) :
    0 ≤ balance (t.take n) := by
  induction h generalizing n with
  | nil => simp
  | plain hopen hclose _ ih =>
    cases n with
    | zero => simp
    | succ n =>
      rw [List.take_succ_cons, balance_cons, balance_plain hopen hclose]
      have hrest := ih n
      omega
  | @braces inner t hinner _ ihinner ih =>
    cases n with
    | zero => simp
    | succ n =>
      rw [List.take_succ_cons, balance_cons, balance_open]
      rcases Nat.lt_or_ge inner.length n with hpast | hwithin
      · obtain ⟨m, rfl⟩ := Nat.exists_eq_add_of_lt hpast
        rw [Nat.add_assoc, List.take_length_add_append, List.take_succ_cons, balance_append,
          balance_cons '}', balance_close, hinner.balance_eq]
        have hrest := ih m
        omega
      · rw [List.take_append_of_le_length hwithin]
        have hrest := ihinner n
        omega

theorem exists_nested_of_balance_neg {t : Text} (h : balance t < 0) :
    ∃ inner after, t = inner ++ '}' :: after ∧ Nested inner := by
  induction hlength : t.length using Nat.strongRecOn generalizing t with
  | ind length ih =>
    subst hlength
    cases t with
    | nil => simp at h
    | cons c t =>
      rw [balance_cons] at h
      by_cases hclose : c = '}'
      · exact ⟨[], t, by rw [hclose]; rfl, .nil⟩
      by_cases hopen : c = '{'
      · -- the rest closes this brace first, and what follows still closes too many
        subst c
        rw [balance_open] at h
        obtain ⟨inner, after, rfl, hinner⟩ := ih t.length (by simp) (t := t) (by omega) rfl
        rw [balance_append, balance_cons, hinner.balance_eq, balance_close] at h
        obtain ⟨next, rest, rfl, hnext⟩ := ih after.length (by simp; omega) (t := after)
          (by omega) rfl
        exact ⟨'{' :: (inner ++ '}' :: next), rest, by simp, .braces hinner hnext⟩
      · rw [balance_plain hopen hclose] at h
        obtain ⟨inner, after, rfl, hinner⟩ := ih t.length (by simp) (t := t) (by omega) rfl
        exact ⟨c :: inner, after, rfl, .plain hopen hclose hinner⟩

theorem balanced_iff {t : Text} :
    Balanced t ↔ (∀ n, 0 ≤ balance (t.take n)) ∧ balance t = 0 := by
  constructor
  · rintro ⟨hprefixes, htotal⟩
    have hzero : balance t = 0 := by
      rw [balance, htotal]
      omega
    refine ⟨fun n => ?_, hzero⟩
    rcases Nat.le_total n t.length with hle | hge
    · have hprefix := hprefixes n hle
      rw [balance]
      omega
    · rw [List.take_of_length_le hge]
      exact Int.le_of_eq hzero.symm
  · rintro ⟨hprefixes, hzero⟩
    rw [balance] at hzero
    refine ⟨fun n _ => ?_, by omega⟩
    have hprefix := hprefixes n
    rw [balance] at hprefix
    omega

theorem Balanced.of_append {a b : Text} (h : Balanced (a ++ b)) (ha : balance a = 0) :
    Balanced b := by
  obtain ⟨hprefixes, hzero⟩ := balanced_iff.mp h
  refine balanced_iff.mpr ⟨fun n => ?_, by rw [balance_append] at hzero; omega⟩
  have hprefix := hprefixes (a.length + n)
  rw [List.take_length_add_append, balance_append] at hprefix
  omega

theorem Balanced.exists_nested {before rest : Text} (h : Balanced (before ++ '{' :: rest)) :
    ∃ inner after, rest = inner ++ '}' :: after ∧ Nested inner := by
  apply exists_nested_of_balance_neg
  obtain ⟨hprefixes, hzero⟩ := balanced_iff.mp h
  have hprefix := hprefixes before.length
  rw [List.take_left] at hprefix
  rw [balance_append, balance_cons, balance_open] at hzero
  omega

theorem nested_iff_balanced {t : Text} : Nested t ↔ Balanced t := by
  constructor
  · exact fun h => balanced_iff.mpr ⟨h.balance_take_nonneg, h.balance_eq⟩
  · intro h
    induction hlength : t.length using Nat.strongRecOn generalizing t with
    | ind length ih =>
      subst hlength
      cases t with
      | nil => exact .nil
      | cons c t =>
        by_cases hclose : c = '}'
        · have hprefix := (balanced_iff.mp h).1 1
          rw [hclose] at hprefix
          exact absurd hprefix (by simp)
        by_cases hopen : c = '{'
        · subst c
          obtain ⟨inner, after, rfl, hinner⟩ := @Balanced.exists_nested [] t h
          refine .braces hinner (ih after.length (by simp; omega) ?_ rfl)
          apply Balanced.of_append (a := '{' :: (inner ++ ['}'])) (by simpa using h)
          rw [balance_cons, balance_append, hinner.balance_eq]
          rfl
        · exact .plain hopen hclose
            (ih t.length (by simp) (h.of_append (a := [c]) (balance_plain hopen hclose)) rfl)

instance (t : Text) : Decidable (Nested t) := decidable_of_iff _ nested_iff_balanced.symm

/-! ## The partner and the count -/

/-- Counting from the beginning of `before`, the first `}` at which the braces are even is the
partner of the `{` behind `before` exactly if `before` closes nothing. -/
theorem closesFirst_partner_iff {front before inner after : Text} (hopen : '{' ∉ before)
    (hinner : Nested inner) :
    ClosesFirst (front ++ (before ++ '{' :: (inner ++ '}' :: after))) front.length
        (front.length + (before.length + (inner.length + 1))) ↔ '}' ∉ before := by
  have hpartner : ∀ depth, ClosesAt depth (before ++ '{' :: (inner ++ '}' :: after))
      (before.length + (inner.length + 1)) ↔ depth + balance before = 0 := by
    intro depth
    rw [closesAt_append_right, closesAt_cons_succ, ← Nat.add_zero inner.length,
      closesAt_append_right, closesAt_cons_zero, hinner.balance_eq, balance_open]
    simp only [true_and]
    omega
  rw [closesFirst_add_iff, List.drop_left, ClosesFirstAt, hpartner]
  constructor
  · rintro ⟨heven, -⟩
    rw [Int.zero_add, balance, List.count_eq_zero.mpr hopen] at heven
    apply List.count_eq_zero.mp
    omega
  · intro hclose
    have hzero := balance_eq_zero hopen hclose
    refine ⟨by omega, fun i hi hat => ?_⟩
    rcases Nat.lt_or_ge i before.length with hbefore | hpast
    · exact hclose (List.mem_of_getElem? ((closesAt_append_left hbefore).mp hat).1)
    · -- between the partners the count stays above zero
      obtain ⟨j, rfl⟩ := Nat.exists_eq_add_of_le hpast
      rw [closesAt_append_right] at hat
      cases j with
      | zero => cases (closesAt_cons_zero.mp hat).1
      | succ j =>
        rw [closesAt_cons_succ, closesAt_append_left (by omega)] at hat
        have hnonneg := hinner.balance_take_nonneg (j + 1)
        have heven := hat.2
        rw [balance_open] at heven
        omega

theorem ClosesFirst.matches {front before rest : Text} {place : Nat} (hopen : '{' ∉ before)
    (hclose : '}' ∉ before)
    (h : ClosesFirst (front ++ (before ++ '{' :: rest)) front.length place) :
    Matches (front ++ (before ++ '{' :: rest)) (front.length + before.length) place := by
  obtain ⟨n, rfl⟩ := Nat.exists_eq_add_of_le h.1.start_le
  have hat : ClosesAt 0 (before ++ '{' :: rest) n := by
    have hfirst := closesFirst_add_iff.mp h
    rw [List.drop_left] at hfirst
    exact hfirst.1
  have hpast : before.length ≤ n := by
    by_contra hlt
    have hbrace := ((closesAt_append_left (Nat.lt_of_not_le hlt)).mp hat).1
    exact hclose (List.mem_of_getElem? hbrace)
  obtain ⟨j, rfl⟩ := Nat.exists_eq_add_of_le hpast
  rw [closesAt_append_right, balance_eq_zero hopen hclose] at hat
  cases j with
  | zero => cases (closesAt_cons_zero.mp hat).1
  | succ m =>
    have heven := (closesAt_cons_succ.mp hat).2
    rw [balance_open] at heven
    obtain ⟨inner, after, hinner, hnested⟩ :=
      exists_nested_of_balance_neg (t := rest.take (m + 1)) (by omega)
    have hrest : rest = inner ++ '}' :: (after ++ rest.drop (m + 1)) := by
      rw [← List.cons_append, ← List.append_assoc, ← hinner, List.take_append_drop]
    rw [hrest] at h ⊢
    have hplace := h.unique ((closesFirst_partner_iff hopen hnested).mpr hclose)
    refine ⟨front ++ before, inner, after ++ rest.drop (m + 1), ?_, hnested, ?_, ?_⟩
    · rw [List.append_assoc]
    · rw [List.length_append]
    · rw [List.length_append]
      omega

theorem Matches.unique {t : Text} {opening closing other : Nat} (h : Matches t opening closing)
    (hother : Matches t opening other) : closing = other := by
  have hfirst : ∀ {place}, Matches t opening place → ClosesFirst t opening place := by
    rintro place ⟨before, inner, after, rfl, hinner, rfl, rfl⟩
    have hiff := @closesFirst_partner_iff before [] inner after (by simp) hinner
    have hplace := hiff.mpr (by simp)
    simpa [Nat.add_assoc, Nat.add_comm 1] using hplace
  exact (hfirst h).unique (hfirst hother)

end SourceScout.Block
