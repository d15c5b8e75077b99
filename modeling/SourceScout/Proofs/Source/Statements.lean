import SourceScout.Proofs.Pattern.Searching
import SourceScout.Proofs.Text.Margins

/-!
# Statements of a keyword and a name

A statement is a keyword with a blank behind it and something more up to the next semicolon. It is
looked for anywhere in a text, also inside of words and comments, so the first one that is found
starts at the first mention of the keyword from which a semicolon can be reached.
-/

namespace SourceScout.Statement

open Pattern Place
open Text (IsGap)

def pattern (keyword : Text) : Pattern :=
  word keyword ++ blanks1 ++ capture (many1 (· != ';')) ++ char ';'

/-- What stands between the keyword and the semicolon: a blank and at least one character more. -/
structure IsBody (body : Text) : Prop where
  no_end : ';' ∉ body
  starts : ∃ c name, isBlank c = true ∧ name ≠ [] ∧ body = c :: name

section

variable {keyword before rest body : Text} {q : Place} {m : Match}

theorem ways_pattern (keyword : Text) : (pattern keyword).ways =
    (word keyword ++ blanks1 ++ (capture (many1 (· != ';')) ++ char ';')).ways := by
  simp only [pattern, ways_append, List.flatMap_assoc]

theorem exists_of_mem_ways (h : q ∈ (pattern keyword).ways (behind before rest)) :
    ∃ gap name : Text, IsGap gap ∧ name ≠ [] ∧ ';' ∉ name ∧
      (behind before rest).Reads (keyword ++ gap ++ (name ++ [';'])) q ∧
      q.captures.map Stretch.toText = [name] := by
  rw [ways_pattern] at h
  obtain ⟨_, name, _, ⟨_, gap, rfl, hgap, rfl⟩, hname, hend, hreads, hcaptures⟩ :=
    exists_takes_around_capture rfl rfl rfl h
  obtain rfl := takes_char.mp hend
  obtain ⟨hne, hchars⟩ := takes_many1.mp hname
  refine ⟨gap, name, takes_many1.mp hgap, hne, fun hmem => ?_, hreads, hcaptures⟩
  simpa using hchars ';' hmem

/-- However the blanks are divided between the gap and the name, the stripped name is that of all
that stands before the semicolon. -/
theorem exists_body_of_matchHere? (h : (pattern keyword).matchHere? (behind before rest) = some m) :
    ∃ body after, IsBody body ∧ rest = keyword ++ (body ++ ';' :: after) ∧
      m.text = keyword ++ (body ++ [';']) ∧ (m.capture 0).strip = body.strip := by
  rw [matchHere?_behind, Option.map_eq_some_iff] at h
  obtain ⟨stop, hstop, rfl⟩ := h
  obtain ⟨gap, name, ⟨hgap, hblank⟩, hname, hend, hreads, hcaptures⟩ :=
    exists_of_mem_ways (List.mem_of_head? hstop)
  have hno : ';' ∉ gap ++ name := by
    rw [List.mem_append, not_or]
    exact ⟨Text.not_mem_of_forall hblank (by decide), hend⟩
  have hstart : ∃ c more, isBlank c = true ∧ more ≠ [] ∧ gap ++ name = c :: more := by
    obtain ⟨c, gap, rfl⟩ := List.exists_cons_of_ne_nil hgap
    exact ⟨c, gap ++ name, hblank c List.mem_cons_self, List.append_ne_nil_of_right_ne_nil _ hname,
      rfl⟩
  refine ⟨gap ++ name, stop.rest, ⟨hno, hstart⟩, ?_, ?_, ?_⟩
  · simpa [behind] using hreads.rest
  · simpa using hreads.toText_stretchTo
  · rw [Text.strip_append_of_isMargin hblank, Match.capture, hcaptures]
    rfl

theorem exists_matchHere? (h : IsBody body) (keyword before after : Text) :
    ∃ m, (pattern keyword).matchHere? (behind before (keyword ++ (body ++ ';' :: after))) = some m ∧
      m.text = keyword ++ (body ++ [';']) ∧ (m.capture 0).strip = body.strip := by
  obtain ⟨c, name, hc, hname, rfl⟩ := h.starts
  have hend : ∀ d ∈ name, (d != ';') = true := by
    rintro d hd
    rw [bne_iff_ne]
    rintro rfl
    exact h.no_end (List.mem_cons_of_mem _ hd)
  have htakes : (word keyword ++ blanks1 ++ (capture (many1 (· != ';')) ++ char ';')).Takes
      (keyword ++ [c] ++ (name ++ [';'])) := by
    have hgap : [c] ≠ [] ∧ ∀ d ∈ [c], isBlank d = true :=
      ⟨List.cons_ne_nil _ _, List.forall_mem_singleton.mpr hc⟩
    exact ⟨_, _, ⟨_, [c], rfl, takes_many1.mpr hgap, rfl⟩,
      ⟨name, [';'], takes_many1.mpr ⟨hname, hend⟩, takes_char.mpr rfl, rfl⟩, rfl⟩
  have htext : keyword ++ [c] ++ (name ++ [';']) ++ after =
      keyword ++ (c :: name ++ ';' :: after) := by simp
  obtain ⟨m, hm⟩ := @exists_matchHere?_of_takes _ before _ (ways_pattern keyword) rfl _ htakes after
  rw [htext] at hm
  obtain ⟨other, left, hother, hsame, hmatch, hcapture⟩ := exists_body_of_matchHere? hm
  -- both bodies end in front of the first semicolon
  obtain rfl : c :: name = other := by
    have hcut := congrArg (List.takeWhile (· != ';')) (List.append_cancel_left hsame)
    rwa [Text.takeWhile_append_cons h.no_end, Text.takeWhile_append_cons hother.no_end] at hcut
  exact ⟨m, hm, hmatch, hcapture⟩

end

/-! ## The first mention -/

def opens (keyword t : Text) : Bool :=
  keyword.isPrefixOf t &&
    match t.drop keyword.length with
    | [] => false
    | c :: rest => isBlank c && rest.head? != some ';'

/-- What stands behind the first mention of the keyword that can open a statement. -/
def mention? (keyword : Text) : Text → Option Text
  | [] => none
  | c :: cs =>
    if opens keyword (c :: cs) then some ((c :: cs).drop keyword.length) else mention? keyword cs

def read? (behind : Text) : Option Text :=
  if ';' ∈ behind then some (Text.strip (behind.takeWhile (· != ';'))) else none

section

variable {keyword t : Text}

theorem opens_iff : opens keyword t = true ↔
    ∃ c rest, isBlank c = true ∧ rest.head? ≠ some ';' ∧ t = keyword ++ c :: rest := by
  constructor
  · intro h
    rw [opens, Bool.and_eq_true, List.isPrefixOf_iff_prefix] at h
    obtain ⟨⟨behind, rfl⟩, hbehind⟩ := h
    rw [List.drop_left] at hbehind
    cases behind with
    | nil => cases hbehind
    | cons c rest =>
      obtain ⟨hc, hrest⟩ := Bool.and_eq_true_iff.mp hbehind
      exact ⟨c, rest, hc, bne_iff_ne.mp hrest, rfl⟩
  · rintro ⟨c, rest, hc, hrest, rfl⟩
    rw [opens, List.drop_left]
    simpa [hc] using hrest

theorem read?_append {body : Text} (h : ';' ∉ body) (after : Text) :
    read? (body ++ ';' :: after) = some body.strip := by
  rw [read?, if_pos (List.mem_append_right _ List.mem_cons_self), Text.takeWhile_append_cons h]

theorem read?_eq_none {behind : Text} (h : ';' ∉ behind) : read? behind = none := if_neg h

theorem exists_of_mention? {right : Text} (h : mention? keyword t = some right) :
    ∃ left, t = left ++ (keyword ++ right) ∧ opens keyword (keyword ++ right) = true := by
  induction t with
  | nil => cases h
  | cons c cs ih =>
    rw [mention?] at h
    split at h
    · rename_i hopens
      obtain ⟨d, rest, -, -, heq⟩ := opens_iff.mp hopens
      rw [heq, List.drop_left] at h
      cases h
      exact ⟨[], heq, heq ▸ hopens⟩
    · obtain ⟨left, rfl, hopens⟩ := ih h
      exact ⟨c :: left, rfl, hopens⟩

theorem isSome_mention? {right : Text} (h : opens keyword right = true) (left : Text) :
    (mention? keyword (left ++ right)).isSome = true := by
  induction left with
  | nil =>
    obtain ⟨c, rest, -, -, rfl⟩ := opens_iff.mp h
    have hne : keyword ++ c :: rest ≠ [] :=
      List.append_ne_nil_of_right_ne_nil _ (List.cons_ne_nil _ _)
    obtain ⟨d, ds, hds⟩ := List.exists_cons_of_ne_nil hne
    rw [hds] at h ⊢
    rw [List.nil_append, mention?, if_pos h]
    rfl
  | cons c left ih =>
    rw [List.cons_append, mention?]
    split
    · rfl
    · exact ih

theorem mention?_eq_none_iff : mention? keyword t = none ↔
    ∀ left c right, isBlank c = true → t = left ++ (keyword ++ c :: right) →
      right.head? = some ';' := by
  constructor
  · rintro h left c right hc rfl
    by_contra hright
    have hopens : opens keyword (keyword ++ c :: right) = true :=
      opens_iff.mpr ⟨c, right, hc, hright, rfl⟩
    have hsome := isSome_mention? hopens left
    rw [h] at hsome
    cases hsome
  · intro h
    cases hmention : mention? keyword t with
    | none => rfl
    | some right =>
      obtain ⟨left, rfl, hopens⟩ := exists_of_mention? hmention
      obtain ⟨c, rest, hc, hrest, heq⟩ := opens_iff.mp hopens
      rw [heq] at h
      exact absurd (h left c rest hc rfl) hrest

theorem exists_isBody {c : Char} {rest : Text} (hc : isBlank c = true)
    (hrest : rest.head? ≠ some ';') (hmem : ';' ∈ c :: rest) :
    ∃ body after, IsBody body ∧ c :: rest = body ++ ';' :: after := by
  obtain ⟨body, after, heq, hbody⟩ := List.eq_append_cons_of_mem hmem
  refine ⟨body, after, ⟨hbody, ?_⟩, heq⟩
  cases body with
  | nil =>
    obtain ⟨rfl, -⟩ := List.cons_eq_cons.mp heq
    exact absurd hc (by decide)
  | cons d name =>
    obtain ⟨rfl, rfl⟩ := List.cons_eq_cons.mp heq
    refine ⟨c, name, hc, ?_, rfl⟩
    rintro rfl
    exact hrest rfl

end

theorem map_searchFrom? {keyword : Text} (hkeyword : ';' ∉ keyword) (before t : Text) :
    ((pattern keyword).searchFrom? t (behind before t)).map (fun m => (m.capture 0).strip) =
      (mention? keyword t).bind read? := by
  induction t generalizing before with
  | nil =>
    rw [searchFrom?]
    cases hm : (pattern keyword).matchHere? (behind before []) with
    | none => rfl
    | some m =>
      obtain ⟨body, after, -, hrest, -⟩ := exists_body_of_matchHere? hm
      simp at hrest
  | cons c cs ih =>
    rw [searchFrom?, mention?]
    cases hm : (pattern keyword).matchHere? (behind before (c :: cs)) with
    | some m =>
      obtain ⟨body, after, hbody, hrest, -, hcapture⟩ := exists_body_of_matchHere? hm
      have hopens : opens keyword (c :: cs) = true := by
        obtain ⟨d, name, hd, hname, rfl⟩ := hbody.starts
        refine opens_iff.mpr ⟨d, name ++ ';' :: after, hd, ?_, hrest⟩
        obtain ⟨e, es, rfl⟩ := List.exists_cons_of_ne_nil hname
        rintro ⟨⟩
        exact hbody.no_end (by simp)
      rw [if_pos hopens, hrest, List.drop_left, Option.bind_some, read?_append hbody.no_end,
        ← hcapture]
      rfl
    | none =>
      simp only [step_behind, ih]
      split
      · rename_i hopens
        obtain ⟨d, rest, hd, hrest, heq⟩ := opens_iff.mp hopens
        -- a mention without a match has no semicolon behind it, so that no later one has
        have hno : ';' ∉ d :: rest := by
          intro hmem
          obtain ⟨body, after, hbody, hbehind⟩ := exists_isBody hd hrest hmem
          obtain ⟨m, hsome, -⟩ := exists_matchHere? hbody keyword before after
          rw [← hbehind, ← heq, hm] at hsome
          cases hsome
        have hlater : (mention? keyword cs).bind read? = none := by
          rw [Option.bind_eq_none_iff]
          intro right hright
          obtain ⟨left, hcs, -⟩ := exists_of_mention? hright
          refine read?_eq_none fun hmem => ?_
          have hall : ';' ∈ c :: cs := by simp [hcs, hmem]
          rw [heq, List.mem_append] at hall
          exact hall.elim hkeyword hno
        rw [heq, List.drop_left, Option.bind_some, read?_eq_none hno, hlater]
      · rfl

/-! ## A mention behind another text -/

section

variable {first : Char} {others : Text} (hfirst : isBlank first = false) (hend : first ≠ ';')
  (hothers : first ∉ others)

include hfirst hothers

/-- The keyword does not begin inside of itself, so it cannot reach over the place where it stands
for the next time. -/
theorem exists_of_reaching {left right rest : Text} {c : Char} (hleft : left ≠ [])
    (hc : isBlank c = true) (h : left ++ first :: right = (first :: others) ++ c :: rest) :
    ∃ more, left = (first :: others) ++ c :: more ∧ rest = more ++ first :: right := by
  rcases List.append_eq_append_iff.mp h with ⟨inside, hkeyword, hinside⟩ | ⟨more, hkeyword, hmore⟩
  · cases inside with
    | nil =>
      obtain ⟨rfl, -⟩ := List.cons_eq_cons.mp hinside
      rw [hfirst] at hc
      cases hc
    | cons d inside =>
      obtain ⟨rfl, -⟩ := List.cons_eq_cons.mp hinside
      obtain ⟨e, left, rfl⟩ := List.exists_cons_of_ne_nil hleft
      obtain ⟨-, rfl⟩ := List.cons_eq_cons.mp hkeyword
      exact absurd (by simp) hothers
  · cases more with
    | nil =>
      obtain ⟨rfl, -⟩ := List.cons_eq_cons.mp hmore
      rw [hfirst] at hc
      cases hc
    | cons d more =>
      obtain ⟨rfl, rfl⟩ := List.cons_eq_cons.mp hmore
      exact ⟨more, hkeyword, rfl⟩

include hend

theorem opens_append {left : Text} (hleft : left ≠ []) (right : Text) :
    opens (first :: others) (left ++ first :: right) = opens (first :: others) left := by
  rw [Bool.eq_iff_iff, opens_iff, opens_iff]
  constructor
  · rintro ⟨c, rest, hc, hrest, heq⟩
    obtain ⟨more, rfl, rfl⟩ := exists_of_reaching hfirst hothers hleft hc heq
    refine ⟨c, more, hc, fun hmore => hrest ?_, rfl⟩
    rw [List.head?_append, hmore]
    rfl
  · rintro ⟨c, rest, hc, hrest, rfl⟩
    refine ⟨c, rest ++ first :: right, hc, ?_, by simp⟩
    cases rest with
    | nil => simpa using hend
    | cons d rest => exact hrest

theorem mention?_append (left right : Text) :
    mention? (first :: others) (left ++ first :: right) =
      ((mention? (first :: others) left).map (· ++ first :: right)).or
        (mention? (first :: others) (first :: right)) := by
  induction left with
  | nil => rfl
  | cons c left ih =>
    rw [mention?, List.cons_append, mention?, ← List.cons_append,
      opens_append hfirst hend hothers (List.cons_ne_nil c left)]
    split
    · rename_i hopens
      obtain ⟨d, rest, -, -, heq⟩ := opens_iff.mp hopens
      rw [heq, List.append_assoc, List.drop_left, List.drop_left]
      rfl
    · exact ih

end

end SourceScout.Statement
