import SourceScout.Block

/-!
# Places in lines

All lines together make up one text. A place of that text belongs to one line, and a place of the
lines from some line on is a place of all of them.
-/

namespace SourceScout.Block

def lineStart (lines : List Text) (i : Nat) : Nat := (lines.take i).flatten.length

def OnLine (lines : List Text) (place i : Nat) : Prop :=
  lineStart lines i ≤ place ∧ place < lineStart lines (i + 1)

instance (lines : List Text) (place i : Nat) : Decidable (OnLine lines place i) :=
  inferInstanceAs (Decidable (_ ∧ _))

theorem lineStart_add (lines : List Text) (start i : Nat) :
    lineStart lines (start + i) = lineStart lines start + lineStart (lines.drop start) i := by
  rw [lineStart, lineStart, lineStart, List.take_add, List.flatten_append, List.length_append]

theorem lineStart_mono (lines : List Text) {i j : Nat} (h : i ≤ j) :
    lineStart lines i ≤ lineStart lines j := by
  obtain ⟨k, rfl⟩ := Nat.exists_eq_add_of_le h
  rw [lineStart_add]
  exact Nat.le_add_right _ _

theorem OnLine.unique {lines : List Text} {place i j : Nat} (hi : OnLine lines place i)
    (hj : OnLine lines place j) : i = j := by
  rcases Nat.lt_trichotomy i j with hlt | heq | hgt
  · have hmono := lineStart_mono lines (i := i + 1) hlt
    have hleft := hi.2
    have hright := hj.1
    omega
  · exact heq
  · have hmono := lineStart_mono lines (i := j + 1) hgt
    have hleft := hj.2
    have hright := hi.1
    omega

theorem OnLine.lt_length {lines : List Text} {place i : Nat} (h : OnLine lines place i) :
    i < lines.length := by
  rcases Nat.lt_or_ge i lines.length with hlt | hge
  · exact hlt
  · have hboth : lineStart lines (i + 1) = lineStart lines i := by
      rw [lineStart, lineStart, List.take_of_length_le hge, List.take_of_length_le (by omega)]
    have hleft := h.1
    have hright := h.2
    omega

theorem onLine_drop_iff {lines : List Text} {start place i : Nat} :
    OnLine (lines.drop start) place i ↔
      OnLine lines (lineStart lines start + place) (start + i) := by
  rw [OnLine, OnLine, Nat.add_assoc, lineStart_add lines start i, lineStart_add lines start (i + 1)]
  omega

theorem onLine_cons_zero {line : Text} {lines : List Text} {place : Nat} :
    OnLine (line :: lines) place 0 ↔ place < line.length := by
  simp [OnLine, lineStart]

theorem onLine_cons_succ {line : Text} {lines : List Text} {place i : Nat} :
    OnLine (line :: lines) (line.length + place) (i + 1) ↔ OnLine lines place i := by
  have hdrop := @onLine_drop_iff (line :: lines) 1 place i
  rw [List.drop_one, List.tail_cons, Nat.add_comm 1 i] at hdrop
  rw [hdrop]
  simp [lineStart]

theorem lineStart_succ {lines : List Text} {i : Nat} {line : Text} (h : lines[i]? = some line) :
    lineStart lines (i + 1) = lineStart lines i + line.length := by
  simp [lineStart, List.take_add_one, h]

theorem flatten_eq_of_getElem? {lines : List Text} {k : Nat} {line : Text}
    (h : lines[k]? = some line) :
    lines.flatten = (lines.take k).flatten ++ (line ++ (lines.drop (k + 1)).flatten) := by
  obtain ⟨hlt, hget⟩ := List.getElem?_eq_some_iff.mp h
  rw [← hget, ← List.flatten_cons, ← List.drop_eq_getElem_cons hlt, ← List.flatten_append,
    List.take_append_drop]

theorem exists_onLine {lines : List Text} {place : Nat} (h : place < lines.flatten.length) :
    ∃ i, OnLine lines place i := by
  induction lines generalizing place with
  | nil => simp at h
  | cons line lines ih =>
    rcases Nat.lt_or_ge place line.length with hlt | hge
    · exact ⟨0, onLine_cons_zero.mpr hlt⟩
    · obtain ⟨rest, rfl⟩ := Nat.exists_eq_add_of_le hge
      rw [List.flatten_cons, List.length_append, Nat.add_lt_add_iff_left] at h
      obtain ⟨i, hi⟩ := ih h
      exact ⟨i + 1, onLine_cons_succ.mpr hi⟩

theorem exists_cut_of_onLine {lines : List Text} {place i : Nat} {c : Char}
    (hline : OnLine lines place i) (hc : lines.flatten[place]? = some c) :
    ∃ before after, lines[i]? = some (before ++ c :: after) ∧
      place = lineStart lines i + before.length := by
  obtain ⟨n, rfl⟩ := Nat.exists_eq_add_of_le hline.1
  obtain ⟨line, hi⟩ : ∃ line, lines[i]? = some line :=
    ⟨_, List.getElem?_eq_getElem hline.lt_length⟩
  have hn : n < line.length := by
    have hlt := hline.2
    rw [lineStart_succ hi] at hlt
    omega
  rw [flatten_eq_of_getElem? hi, lineStart, List.getElem?_append_right (Nat.le_add_right _ _),
    Nat.add_sub_cancel_left, List.getElem?_append_left hn, List.getElem?_eq_getElem hn,
    Option.some.injEq] at hc
  refine ⟨line.take n, line.drop (n + 1), ?_, ?_⟩
  · rw [hi, ← hc, ← List.drop_eq_getElem_cons hn, List.take_append_drop]
  · rw [List.length_take, Nat.min_eq_left (Nat.le_of_lt hn)]

theorem lines_flatten_drop (lines : List Text) (start : Nat) :
    lines.flatten.drop (lineStart lines start) = (lines.drop start).flatten := by
  have hsplit : lines.flatten = (lines.take start).flatten ++ (lines.drop start).flatten := by
    rw [← List.flatten_append, List.take_append_drop]
  rw [hsplit]
  exact List.drop_left

theorem lines_flatten_take (lines : List Text) (stop : Nat) :
    lines.flatten.take (lineStart lines stop) = (lines.take stop).flatten := by
  have hsplit : lines.flatten = (lines.take stop).flatten ++ (lines.drop stop).flatten := by
    rw [← List.flatten_append, List.take_append_drop]
  rw [hsplit]
  exact List.take_left

theorem lines_flatten_between (lines : List Text) {start stop : Nat} (h : start ≤ stop) :
    (lines.flatten.take (lineStart lines stop)).drop (lineStart lines start) =
      ((lines.take stop).drop start).flatten := by
  have hstart : lineStart lines start = lineStart (lines.take stop) start := by
    rw [lineStart, lineStart, List.take_take, Nat.min_eq_left h]
  rw [lines_flatten_take, hstart, lines_flatten_drop]

theorem lines_between_append (lines : List Text) {first middle stop : Nat} (hfirst : first ≤ middle)
    (hstop : middle ≤ stop) :
    (lines.take stop).drop first =
      (lines.take middle).drop first ++ (lines.take stop).drop middle := by
  have htake : (lines.take middle).drop first =
      ((lines.take stop).drop first).take (middle - first) := by
    rw [← List.drop_take, List.take_take, Nat.min_eq_left hstop]
  have hdrop : (lines.take stop).drop middle =
      ((lines.take stop).drop first).drop (middle - first) := by
    rw [List.drop_drop, Nat.add_sub_cancel' hfirst]
  rw [htake, hdrop, List.take_append_drop]

theorem lines_between_cons {lines : List Text} {first stop : Nat} {line : Text}
    (h : lines[first]? = some line) (hlt : first < stop) :
    (lines.take stop).drop first = line :: (lines.take stop).drop (first + 1) := by
  have hone : (lines.take (first + 1)).drop first = [line] := by
    have hlength := (List.getElem?_eq_some_iff.mp h).1
    rw [List.take_add_one, h, List.drop_append_of_le_length (by simp; omega)]
    simp
  rw [lines_between_append lines (Nat.le_succ first) hlt, hone, List.singleton_append]

end SourceScout.Block
