import Mathlib.Data.Nat.Find
import SourceScout.Proofs.Block.Places

/-!
# Where braces close

The braces of a text, counted from some place on, are even at a `}` if as many were opened as
closed. The scan for the end of a block stops at the first such `}`. The scan works line by line
with a depth; here its answer is stated by places in the text that all lines make up, and without a
depth. Nothing is assumed about the text: braces may close that were never opened.
-/

namespace SourceScout.Block

def balance (t : Text) : Int := (t.count '{' : Int) - t.count '}'

@[simp]
theorem balance_nil : balance [] = 0 := rfl

@[simp]
theorem balance_append (a b : Text) : balance (a ++ b) = balance a + balance b := by
  simp only [balance, List.count_append, Int.natCast_add]
  omega

theorem balance_cons (c : Char) (t : Text) : balance (c :: t) = balance [c] + balance t :=
  balance_append [c] t

@[simp]
theorem balance_open : balance ['{'] = 1 := rfl

@[simp]
theorem balance_close : balance ['}'] = -1 := rfl

theorem balance_eq_zero {t : Text} (hopen : '{' ∉ t) (hclose : '}' ∉ t) : balance t = 0 := by
  simp [balance, List.count_eq_zero.mpr hopen, List.count_eq_zero.mpr hclose]

theorem balance_plain {c : Char} (hopen : c ≠ '{') (hclose : c ≠ '}') : balance [c] = 0 := by
  apply balance_eq_zero
  · simpa using hopen.symm
  · simpa using hclose.symm

def ClosesAt (depth : Int) (t : Text) (n : Nat) : Prop :=
  t[n]? = some '}' ∧ depth + balance (t.take (n + 1)) = 0

theorem closesAt_cons_zero {depth : Int} {c : Char} {t : Text} :
    ClosesAt depth (c :: t) 0 ↔ c = '}' ∧ depth = 1 := by
  simp only [ClosesAt, List.getElem?_cons_zero, Option.some.injEq, List.take_succ_cons,
    List.take_zero]
  constructor
  · rintro ⟨rfl, heven⟩
    rw [balance_close] at heven
    exact ⟨rfl, by omega⟩
  · rintro ⟨rfl, rfl⟩
    exact ⟨rfl, rfl⟩

theorem closesAt_append_left {depth : Int} {a b : Text} {n : Nat} (hn : n < a.length) :
    ClosesAt depth (a ++ b) n ↔ ClosesAt depth a n := by
  rw [ClosesAt, ClosesAt, List.getElem?_append_left hn, List.take_append_of_le_length hn]

theorem closesAt_append_right {depth : Int} {a b : Text} {n : Nat} :
    ClosesAt depth (a ++ b) (a.length + n) ↔ ClosesAt (depth + balance a) b n := by
  rw [ClosesAt, ClosesAt, List.getElem?_append_right (Nat.le_add_right _ _),
    Nat.add_sub_cancel_left, Nat.add_assoc, List.take_length_add_append, balance_append,
    Int.add_assoc]

theorem closesAt_cons_succ {depth : Int} {c : Char} {t : Text} {n : Nat} :
    ClosesAt depth (c :: t) (n + 1) ↔ ClosesAt (depth + balance [c]) t n := by
  rw [Nat.add_comm]
  exact closesAt_append_right (a := [c])

theorem ClosesAt.lt_length {depth : Int} {t : Text} {n : Nat} (h : ClosesAt depth t n) :
    n < t.length :=
  (List.getElem?_eq_some_iff.mp h.1).1

/-! ## One line -/

theorem depthAfter?_cons (depth : Int) (c : Char) (t : Text) :
    depthAfter? depth (c :: t) =
      if c = '}' ∧ depth = 1 then none else depthAfter? (depth + balance [c]) t := by
  rw [depthAfter?]
  by_cases hopen : c = '{'
  · subst c
    simp
  · by_cases hclose : c = '}'
    · subst c
      simp [Int.sub_eq_add_neg]
    · simp [hopen, hclose, balance_plain hopen hclose]

theorem depthAfter?_eq_some {depth after : Int} {t : Text}
    (h : depthAfter? depth t = some after) :
    after = depth + balance t ∧ ∀ n, ¬ClosesAt depth t n := by
  induction t generalizing depth with
  | nil =>
    cases h
    exact ⟨by simp, fun n hn => by simpa using hn.lt_length⟩
  | cons c t ih =>
    rw [depthAfter?_cons] at h
    split at h
    · cases h
    · rename_i hstop
      obtain ⟨hafter, hnone⟩ := ih h
      refine ⟨by rw [hafter, balance_cons c t, Int.add_assoc], ?_⟩
      intro n hn
      cases n with
      | zero => exact hstop (closesAt_cons_zero.mp hn)
      | succ n => exact hnone n (closesAt_cons_succ.mp hn)

theorem exists_closesAt_of_depthAfter?_eq_none {depth : Int} {t : Text}
    (h : depthAfter? depth t = none) : ∃ n, ClosesAt depth t n := by
  induction t generalizing depth with
  | nil => cases h
  | cons c t ih =>
    rw [depthAfter?_cons] at h
    split at h
    · rename_i hstop
      exact ⟨0, closesAt_cons_zero.mpr hstop⟩
    · obtain ⟨n, hn⟩ := ih h
      exact ⟨n + 1, closesAt_cons_succ.mpr hn⟩

/-! ## All lines -/

def ClosesFirstAt (depth : Int) (t : Text) (n : Nat) : Prop :=
  ClosesAt depth t n ∧ ∀ i < n, ¬ClosesAt depth t i

theorem exists_closesFirstAt {depth : Int} {t : Text} (h : ∃ n, ClosesAt depth t n) :
    ∃ n, ClosesFirstAt depth t n := by
  classical
  exact ⟨Nat.find h, Nat.find_spec h, fun _ hi => Nat.find_min h hi⟩

theorem not_closesAt_of_closeLineFrom?_eq_none {depth : Int} {index : Nat} {lines : List Text}
    (h : closeLineFrom? depth index lines = none) (n : Nat) :
    ¬ClosesAt depth lines.flatten n := by
  induction lines generalizing depth index n with
  | nil => exact fun hn => by simpa using hn.lt_length
  | cons line lines ih =>
    rw [closeLineFrom?] at h
    split at h
    · cases h
    · rename_i after hafter
      obtain ⟨rfl, hnone⟩ := depthAfter?_eq_some hafter
      intro hn
      rcases Nat.lt_or_ge n line.length with hleft | hright
      · exact hnone n ((closesAt_append_left hleft).mp hn)
      · obtain ⟨m, rfl⟩ := Nat.exists_eq_add_of_le hright
        exact ih h m (closesAt_append_right.mp hn)

theorem closesFirstAt_of_closeLineFrom?_eq_some {depth : Int} {index last : Nat}
    {lines : List Text} (h : closeLineFrom? depth index lines = some last) :
    ∃ n i, ClosesFirstAt depth lines.flatten n ∧ OnLine lines n i ∧ last = index + i := by
  induction lines generalizing depth index with
  | nil => cases h
  | cons line lines ih =>
    rw [closeLineFrom?] at h
    split at h
    · rename_i hstop
      obtain ⟨n, hn, hfirst⟩ := exists_closesFirstAt (exists_closesAt_of_depthAfter?_eq_none hstop)
      have hlt := hn.lt_length
      refine ⟨n, 0, ⟨(closesAt_append_left hlt).mpr hn, ?_⟩, onLine_cons_zero.mpr hlt, ?_⟩
      · intro i hi hclose
        exact hfirst i hi ((closesAt_append_left (Nat.lt_trans hi hlt)).mp hclose)
      · exact (Option.some.inj h).symm
    · rename_i after hafter
      obtain ⟨rfl, hnone⟩ := depthAfter?_eq_some hafter
      obtain ⟨n, i, ⟨hn, hfirst⟩, hline, rfl⟩ := ih h
      refine ⟨line.length + n, i + 1, ⟨closesAt_append_right.mpr hn, ?_⟩,
        onLine_cons_succ.mpr hline, by omega⟩
      intro j hj hclose
      -- the first line has no such brace, and the others have none before `n`
      rcases Nat.lt_or_ge j line.length with hleft | hright
      · exact hnone j ((closesAt_append_left hleft).mp hclose)
      · obtain ⟨m, rfl⟩ := Nat.exists_eq_add_of_le hright
        exact hfirst m (by omega) (closesAt_append_right.mp hclose)

/-- A `}` at `place` at which the braces read from `start` on are even. -/
structure Closes (t : Text) (start place : Nat) : Prop where
  start_le : start ≤ place
  brace : t[place]? = some '}'
  even : balance ((t.take (place + 1)).drop start) = 0

def ClosesFirst (t : Text) (start place : Nat) : Prop :=
  Closes t start place ∧ ∀ earlier < place, ¬Closes t start earlier

theorem ClosesFirst.unique {t : Text} {start place other : Nat} (h : ClosesFirst t start place)
    (hother : ClosesFirst t start other) : place = other := by
  rcases Nat.lt_trichotomy place other with hlt | heq | hgt
  · exact absurd h.1 (hother.2 place hlt)
  · exact heq
  · exact absurd hother.1 (h.2 other hgt)

theorem closes_add_iff {t : Text} {start n : Nat} :
    Closes t start (start + n) ↔ ClosesAt 0 (t.drop start) n := by
  have htake : (t.take (start + n + 1)).drop start = (t.drop start).take (n + 1) := by
    rw [List.drop_take]
    congr 1
    omega
  rw [ClosesAt, List.getElem?_drop, Int.zero_add, ← htake]
  exact ⟨fun h => ⟨h.brace, h.even⟩, fun h => ⟨Nat.le_add_right _ _, h.1, h.2⟩⟩

theorem closesFirst_add_iff {t : Text} {start n : Nat} :
    ClosesFirst t start (start + n) ↔ ClosesFirstAt 0 (t.drop start) n := by
  constructor
  · rintro ⟨hn, hfirst⟩
    exact ⟨closes_add_iff.mp hn, fun i hi hclose =>
      hfirst (start + i) (by omega) (closes_add_iff.mpr hclose)⟩
  · rintro ⟨hn, hfirst⟩
    refine ⟨closes_add_iff.mpr hn, fun earlier hearlier hclose => ?_⟩
    obtain ⟨i, rfl⟩ := Nat.exists_eq_add_of_le hclose.start_le
    exact hfirst i (by omega) (closes_add_iff.mp hclose)

theorem not_closes_of_closeLine?_eq_none {lines : List Text} {start : Nat}
    (h : closeLine? lines start = none) (place : Nat) :
    ¬Closes lines.flatten (lineStart lines start) place := by
  intro hclose
  obtain ⟨n, rfl⟩ := Nat.exists_eq_add_of_le hclose.start_le
  rw [closes_add_iff, lines_flatten_drop] at hclose
  exact not_closesAt_of_closeLineFrom?_eq_none h n hclose

theorem closesFirst_of_closeLine?_eq_some {lines : List Text} {start last : Nat}
    (h : closeLine? lines start = some last) :
    start ≤ last ∧ ∃ place, ClosesFirst lines.flatten (lineStart lines start) place ∧
      OnLine lines place last := by
  obtain ⟨n, i, hfirst, hline, rfl⟩ := closesFirstAt_of_closeLineFrom?_eq_some h
  refine ⟨Nat.le_add_right _ _, lineStart lines start + n, ?_, onLine_drop_iff.mp hline⟩
  rwa [closesFirst_add_iff, lines_flatten_drop]

theorem closeLine?_eq_some_iff {lines : List Text} {start last : Nat} :
    closeLine? lines start = some last ↔
      ∃ place, ClosesFirst lines.flatten (lineStart lines start) place ∧
        OnLine lines place last := by
  constructor
  · exact fun h => (closesFirst_of_closeLine?_eq_some h).2
  · rintro ⟨place, hfirst, hline⟩
    cases h : closeLine? lines start with
    | none => exact absurd hfirst.1 (not_closes_of_closeLine?_eq_none h place)
    | some other =>
      obtain ⟨-, place', hfirst', hline'⟩ := closesFirst_of_closeLine?_eq_some h
      obtain rfl := hfirst.unique hfirst'
      rw [hline.unique hline']

theorem closeLine?_eq_none_iff {lines : List Text} {start : Nat} :
    closeLine? lines start = none ↔
      ∀ place, ¬Closes lines.flatten (lineStart lines start) place := by
  constructor
  · exact not_closes_of_closeLine?_eq_none
  · intro hnone
    cases h : closeLine? lines start with
    | none => rfl
    | some last =>
      obtain ⟨-, place, hfirst, -⟩ := closesFirst_of_closeLine?_eq_some h
      exact absurd hfirst.1 (hnone place)

end SourceScout.Block
