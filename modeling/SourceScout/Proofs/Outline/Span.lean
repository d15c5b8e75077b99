import SourceScout.Outline
import SourceScout.Proofs.Block.Braces

/-!
# Where spans end

A span is settled at a line if, from its first line to the end of that one, some brace is opened and
no fewer are closed. It ends with the first line at which it is settled, and with the text if there
is none. Braces are counted over whole lines: what happens inside a line does not matter.
-/

namespace SourceScout.Outline

open Block (balance balance_nil balance_append)

/-- Settled at line `n`, for lines that come after others, in which a brace was opened or not and
`depth` more were opened than closed. -/
def SettledAt (opened : Bool) (depth : Int) (lines : List Text) (n : Nat) : Prop :=
  n < lines.length ∧ (opened = true ∨ '{' ∈ (lines.take (n + 1)).flatten) ∧
    depth + balance (lines.take (n + 1)).flatten ≤ 0

structure Settles (lines : List Text) (index last : Nat) : Prop where
  index_le : index ≤ last
  last_lt : last < lines.length
  opened : '{' ∈ ((lines.take (last + 1)).drop index).flatten
  closed : balance ((lines.take (last + 1)).drop index).flatten ≤ 0

/-- The number of the last line, counted from one, of the span that starts at line `index`, counted
from zero. -/
inductive SpanEnds (lines : List Text) (index : Nat) : Nat → Prop where
  | settled {last : Nat} (h : Settles lines index last)
      (hfirst : ∀ i < last, ¬Settles lines index i) : SpanEnds lines index (last + 1)
  | unsettled (h : ∀ last, ¬Settles lines index last) : SpanEnds lines index lines.length

section

variable {opened : Bool} {depth : Int} {line : Text} {lines : List Text}

theorem settledAt_cons_zero :
    SettledAt opened depth (line :: lines) 0 ↔
      ((opened || line.contains '{') && decide (depth + braceBalance line ≤ 0)) = true := by
  rw [Bool.and_eq_true, decide_eq_true_eq]
  simp [SettledAt, braceBalance, balance]

theorem settledAt_cons_succ {n : Nat} :
    SettledAt opened depth (line :: lines) (n + 1) ↔
      SettledAt (opened || line.contains '{') (depth + braceBalance line) lines n := by
  have hdepth : depth + balance (line ++ (lines.take (n + 1)).flatten) =
      depth + braceBalance line + balance (lines.take (n + 1)).flatten := by
    rw [balance_append, Int.add_assoc]
    rfl
  simp only [SettledAt, List.length_cons, List.take_succ_cons, List.flatten_cons, hdepth]
  simp [or_assoc]

theorem spanLength_cases (opened : Bool) (depth : Int) (lines : List Text) :
    (∃ n, SettledAt opened depth lines n ∧ (∀ i < n, ¬SettledAt opened depth lines i) ∧
      spanLength opened depth lines = n + 1) ∨
    (∀ n, ¬SettledAt opened depth lines n) ∧ spanLength opened depth lines = lines.length := by
  induction lines generalizing opened depth with
  | nil =>
    right
    constructor
    · intro n hn
      cases hn.1
    · rfl
  | cons line lines ih =>
    rw [spanLength]
    split
    · rename_i hhere
      left
      refine ⟨0, settledAt_cons_zero.mpr hhere, ?_, rfl⟩
      intro i hi
      cases hi
    · rename_i hhere
      -- not settled here, so it is the rest that decides
      have hzero : ¬SettledAt opened depth (line :: lines) 0 :=
        fun h => hhere (settledAt_cons_zero.mp h)
      rcases ih (opened || line.contains '{') (depth + braceBalance line) with
        ⟨n, hn, hfirst, hlength⟩ | ⟨hnever, hlength⟩
      · left
        refine ⟨n + 1, settledAt_cons_succ.mpr hn, ?_, by rw [hlength]; omega⟩
        intro i hi
        cases i with
        | zero => exact hzero
        | succ i => exact fun h => hfirst i (by omega) (settledAt_cons_succ.mp h)
      · right
        refine ⟨?_, by rw [hlength, List.length_cons]; omega⟩
        intro n
        cases n with
        | zero => exact hzero
        | succ n => exact fun h => hnever n (settledAt_cons_succ.mp h)

end

theorem settles_add_iff {lines : List Text} {index n : Nat} :
    Settles lines index (index + n) ↔ SettledAt false 0 (lines.drop index) n := by
  have htake : (lines.take (index + n + 1)).drop index = (lines.drop index).take (n + 1) := by
    rw [List.drop_take]
    congr 1
    omega
  rw [SettledAt, ← htake, List.length_drop]
  constructor
  · rintro ⟨-, hlt, hopened, hclosed⟩
    exact ⟨by omega, .inr hopened, by omega⟩
  · rintro ⟨hlt, hopened, hclosed⟩
    refine ⟨by omega, by omega, ?_, by omega⟩
    exact hopened.resolve_left Bool.false_ne_true

theorem spanEnd_ends {lines : List Text} {index : Nat} (h : index < lines.length) :
    SpanEnds lines index (spanEnd lines index) := by
  have hpast : ∀ {last}, Settles lines index last → ∃ n, last = index + n ∧
      SettledAt false 0 (lines.drop index) n := by
    intro last hlast
    obtain ⟨n, rfl⟩ := Nat.exists_eq_add_of_le hlast.index_le
    exact ⟨n, rfl, settles_add_iff.mp hlast⟩
  rw [spanEnd]
  rcases spanLength_cases false 0 (lines.drop index) with
    ⟨n, hn, hfirst, hlength⟩ | ⟨hnever, hlength⟩
  · rw [hlength, if_neg (Nat.succ_ne_zero n)]
    apply SpanEnds.settled (settles_add_iff.mpr hn)
    intro i hi hsettles
    obtain ⟨m, rfl, hm⟩ := hpast hsettles
    exact hfirst m (by omega) hm
  · have hall : ∀ last, ¬Settles lines index last := by
      intro last hlast
      obtain ⟨n, -, hn⟩ := hpast hlast
      exact hnever n hn
    have hlast : index + (lines.drop index).length = lines.length := by
      rw [List.length_drop]
      omega
    rw [hlength, if_neg (by rw [List.length_drop]; omega), hlast]
    exact .unsettled hall

theorem SpanEnds.bounds {lines : List Text} {index stop : Nat} (h : SpanEnds lines index stop)
    (hindex : index < lines.length) : index + 1 ≤ stop ∧ stop ≤ lines.length := by
  cases h with
  | settled h _ =>
    have hle := h.index_le
    have hlt := h.last_lt
    omega
  | unsettled _ => omega

end SourceScout.Outline
