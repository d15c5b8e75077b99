import Mathlib.Data.List.Forall2
import SourceScout.Pattern.Search

/-!
# What a match reads and records

A match reads on from the place where it starts, and what a capture records is the text that its
pattern read. `Pattern.recorded?` finds out from a pattern alone which texts every match of it
records; it has no answer where a capture stands in an alternative or a repetition.
-/

namespace SourceScout

namespace Place

structure Reads (p : Place) (taken : Text) (q : Place) : Prop where
  rest : p.rest = taken ++ q.rest
  offset : q.offset = p.offset + taken.length

theorem Reads.refl (p : Place) : p.Reads [] p := ⟨rfl, rfl⟩

theorem Reads.trans {p q r : Place} {left right : Text} (hpq : p.Reads left q)
    (hqr : q.Reads right r) : p.Reads (left ++ right) r := by
  constructor
  · rw [hpq.rest, hqr.rest, List.append_assoc]
  · rw [hqr.offset, hpq.offset, List.length_append]
    omega

theorem reads_step {p : Place} {c : Char} {cs : Text} (h : p.rest = c :: cs) :
    p.Reads [c] (p.step c cs) := ⟨h, rfl⟩

theorem Reads.toText_stretchTo {p q : Place} {taken : Text} (h : p.Reads taken q) :
    (p.stretchTo q).toText = taken := by
  have hlength : q.offset - p.offset = taken.length := by
    rw [h.offset]
    omega
  rw [Stretch.toText, stretchTo, hlength, h.rest]
  exact List.take_left

theorem one?_eq_some {cls : Char → Bool} {p q : Place} (h : p.one? cls = some q) :
    ∃ c, cls c = true ∧ p.Reads [c] q ∧ q.captures = p.captures := by
  rw [one?] at h
  split at h
  · cases h
  · rename_i c cs hrest
    split at h
    · rename_i hcls
      cases h
      exact ⟨c, hcls, reads_step hrest, rfl⟩
    · cases h

theorem word?_eq_some {w : Text} {p q : Place} (h : p.word? w = some q) :
    p.Reads w q ∧ q.captures = p.captures := by
  induction w generalizing p with
  | nil =>
    cases h
    exact ⟨.refl q, rfl⟩
  | cons c w ih =>
    obtain ⟨next, hnext, hrest⟩ := Option.bind_eq_some_iff.mp h
    obtain ⟨other, hother, hreads, hcaptures⟩ := one?_eq_some hnext
    obtain rfl : other = c := by simpa using hother
    obtain ⟨hword, hkept⟩ := ih hrest
    exact ⟨hreads.trans hword, hkept.trans hcaptures⟩

theorem mem_run {cls : Char → Bool} {t : Text} {p q : Place} {shorter : List Place}
    (hp : p.rest = t) (h : q ∈ p.run cls t shorter) :
    q ∈ shorter ∨ ∃ taken, (∀ c ∈ taken, cls c = true) ∧ p.Reads taken q ∧
      q.captures = p.captures := by
  have hhere : ∃ taken, (∀ c ∈ taken, cls c = true) ∧ p.Reads taken p ∧ p.captures = p.captures :=
    ⟨[], by simp, .refl p, rfl⟩
  induction t generalizing p shorter with
  | nil =>
    rcases List.mem_cons.mp h with rfl | hmem
    · exact .inr hhere
    · exact .inl hmem
  | cons c cs ih =>
    rw [run] at h
    split at h
    · rename_i hcls
      rcases ih rfl h ⟨[], by simp, .refl _, rfl⟩ with hmem | ⟨taken, htaken, hreads, hcaptures⟩
      · rcases List.mem_cons.mp hmem with rfl | hmem
        · exact .inr hhere
        · exact .inl hmem
      · refine .inr ⟨c :: taken, ?_, (reads_step hp).trans hreads, hcaptures⟩
        exact List.forall_mem_cons.mpr ⟨hcls, htaken⟩
    · rcases List.mem_cons.mp h with rfl | hmem
      · exact .inr hhere
      · exact .inl hmem

end Place

namespace Pattern

open Place

theorem repeatUpTo_related {step : Place → List Place} {R : Place → Place → Prop}
    (hrefl : ∀ p, R p p) (htrans : ∀ p q r, R p q → R q r → R p r)
    (hstep : ∀ p q, q ∈ step p → R p q) {n : Nat} {p q : Place} (h : q ∈ repeatUpTo step n p) :
    R p q := by
  induction n generalizing p with
  | zero =>
    obtain rfl := List.mem_singleton.mp h
    exact hrefl q
  | succ n ih =>
    rcases List.mem_append.mp h with hmore | hstop
    · obtain ⟨m, hm, hq⟩ := List.mem_flatMap.mp hmore
      exact htrans p m q (hstep p m hm) (ih hq)
    · obtain rfl := List.mem_singleton.mp hstop
      exact hrefl q

theorem mem_ways_many {cls : Char → Bool} {p q : Place} (h : q ∈ (many cls).ways p) :
    ∃ taken, (∀ c ∈ taken, cls c = true) ∧ p.Reads taken q ∧ q.captures = p.captures :=
  (mem_run rfl h).resolve_left List.not_mem_nil

theorem mem_ways_few {cls : Char → Bool} {p q : Place} (h : q ∈ (few cls).ways p) :
    ∃ taken, (∀ c ∈ taken, cls c = true) ∧ p.Reads taken q ∧ q.captures = p.captures :=
  (mem_run rfl (List.mem_reverse.mp h)).resolve_left List.not_mem_nil

theorem mem_ways_many1 {cls : Char → Bool} {p q : Place} (h : q ∈ (many1 cls).ways p) :
    ∃ taken, taken ≠ [] ∧ (∀ c ∈ taken, cls c = true) ∧ p.Reads taken q := by
  obtain ⟨m, hm, hq⟩ := List.mem_flatMap.mp h
  obtain ⟨c, hc, hfirst, -⟩ := one?_eq_some (Option.mem_toList.mp hm)
  obtain ⟨taken, htaken, hrest, -⟩ := mem_ways_many hq
  exact ⟨c :: taken, List.cons_ne_nil _ _, List.forall_mem_cons.mpr ⟨hc, htaken⟩,
    hfirst.trans hrest⟩

section

variable {R : Place → Place → Prop} (hrefl : ∀ p, R p p)
  (htrans : ∀ p q r, R p q → R q r → R p r)
  (hstep : ∀ p c cs, p.rest = c :: cs → R p (p.step c cs))

include hstep in
theorem one?_related {cls : Char → Bool} {p q : Place} (h : p.one? cls = some q) : R p q := by
  rw [one?] at h
  split at h
  · cases h
  · rename_i c cs hrest
    split at h
    · cases h
      exact hstep p c cs hrest
    · cases h

include hrefl htrans hstep

theorem word?_related {w : Text} {p q : Place} (h : p.word? w = some q) : R p q := by
  induction w generalizing p with
  | nil =>
    cases h
    exact hrefl q
  | cons c w ih =>
    obtain ⟨next, hnext, hrest⟩ := Option.bind_eq_some_iff.mp h
    exact htrans p next q (one?_related hstep hnext) (ih hrest)

theorem run_related {cls : Char → Bool} {t : Text} {p q : Place} {shorter : List Place}
    (hp : p.rest = t) (h : q ∈ p.run cls t shorter) : q ∈ shorter ∨ R p q := by
  induction t generalizing p shorter with
  | nil =>
    rcases List.mem_cons.mp h with rfl | hmem
    · exact .inr (hrefl q)
    · exact .inl hmem
  | cons c cs ih =>
    have hhere : q ∈ p :: shorter → q ∈ shorter ∨ R p q := by
      intro hmem
      rcases List.mem_cons.mp hmem with rfl | hshorter
      · exact .inr (hrefl q)
      · exact .inl hshorter
    rw [run] at h
    split at h
    · rcases @ih (p.step c cs) (p :: shorter) rfl h with hmem | hrest
      · exact hhere hmem
      · exact .inr (htrans p _ q (hstep p c cs hp) hrest)
    · exact hhere h

/-- A relation that holds of one step, whatever is captured, holds of every way to match. -/
theorem ways_related (hkeep : ∀ p q captures, R p q → R p { q with captures := captures })
    {pattern : Pattern} {p q : Place} (h : q ∈ pattern.ways p) : R p q := by
  induction pattern generalizing p q with
  | nothing =>
    obtain rfl := List.mem_singleton.mp h
    exact hrefl q
  | one cls => exact one?_related hstep (Option.mem_toList.mp h)
  | many cls => exact (run_related hrefl htrans hstep rfl h).resolve_left List.not_mem_nil
  | few cls =>
    exact (run_related hrefl htrans hstep rfl (List.mem_reverse.mp h)).resolve_left
      List.not_mem_nil
  | word w => exact word?_related hrefl htrans hstep (Option.mem_toList.mp h)
  | seq first second ihfirst ihsecond =>
    obtain ⟨m, hm, hq⟩ := List.mem_flatMap.mp h
    exact htrans p m q (ihfirst hm) (ihsecond hq)
  | either first second ihfirst ihsecond =>
    rcases List.mem_append.mp h with hfirst | hsecond
    · exact ihfirst hfirst
    · exact ihsecond hsecond
  | repeated body ih => exact repeatUpTo_related hrefl htrans (fun a b hb => ih hb) h
  | atStart =>
    rw [ways] at h
    split at h
    · obtain rfl := List.mem_singleton.mp h
      exact hrefl q
    · cases h
  | atWordEdge =>
    rw [ways] at h
    split at h
    · obtain rfl := List.mem_singleton.mp h
      exact hrefl q
    · cases h
  | capture body ih =>
    obtain ⟨m, hm, rfl⟩ := List.mem_map.mp h
    exact hkeep p m _ (ih hm)

end

theorem exists_reads_of_mem_ways {pattern : Pattern} {p q : Place} (h : q ∈ pattern.ways p) :
    ∃ taken, p.Reads taken q := by
  refine ways_related (R := fun a b => ∃ taken, a.Reads taken b) ?_ ?_ ?_ ?_ h
  · exact fun a => ⟨[], .refl a⟩
  · rintro a b c ⟨left, hleft⟩ ⟨right, hright⟩
    exact ⟨left ++ right, hleft.trans hright⟩
  · exact fun a c cs ha => ⟨[c], reads_step ha⟩
  · rintro a b captures ⟨taken, hreads⟩
    exact ⟨taken, hreads.rest, hreads.offset⟩

/-- The patterns whose texts a match records, one after the other, if they do not depend on how the
match is found. -/
def recorded? : Pattern → Option (List Pattern)
  | seq first second =>
    match first.recorded?, second.recorded? with
    | some left, some right => some (left ++ right)
    | _, _ => none
  | either first second =>
    match first.recorded?, second.recorded? with
    | some [], some [] => some []
    | _, _ => none
  | repeated body =>
    match body.recorded? with
    | some [] => some []
    | _ => none
  | capture body =>
    match body.recorded? with
    | some [] => some [body]
    | _ => none
  | _ => some []

def RecordedBehind (p : Place) (body : Pattern) (stretch : Stretch) : Prop :=
  ∃ before start stop, p.Reads before start ∧ stop ∈ body.ways start ∧
    stretch = start.stretchTo stop

theorem RecordedBehind.of_reads {p q : Place} {taken : Text} {body : Pattern} {stretch : Stretch}
    (h : RecordedBehind q body stretch) (hreads : p.Reads taken q) :
    RecordedBehind p body stretch := by
  obtain ⟨before, start, stop, hbefore, hstop, hstretch⟩ := h
  exact ⟨taken ++ before, start, stop, hreads.trans hbefore, hstop, hstretch⟩

theorem exists_stretches_of_kept {p q : Place} (h : q.captures = p.captures) :
    ∃ stretches, q.captures = p.captures ++ stretches ∧
      List.Forall₂ (RecordedBehind p) [] stretches :=
  ⟨[], by rw [h, List.append_nil], .nil⟩

theorem captures_of_mem_ways {pattern : Pattern} {bodies : List Pattern}
    (hbodies : pattern.recorded? = some bodies) {p q : Place} (h : q ∈ pattern.ways p) :
    ∃ stretches, q.captures = p.captures ++ stretches ∧
      List.Forall₂ (RecordedBehind p) bodies stretches := by
  induction pattern generalizing p q bodies with
  | nothing =>
    cases hbodies
    obtain rfl := List.mem_singleton.mp h
    exact exists_stretches_of_kept rfl
  | one cls =>
    cases hbodies
    obtain ⟨-, -, -, hkept⟩ := one?_eq_some (Option.mem_toList.mp h)
    exact exists_stretches_of_kept hkept
  | many cls =>
    cases hbodies
    obtain ⟨-, -, -, hkept⟩ := mem_ways_many h
    exact exists_stretches_of_kept hkept
  | few cls =>
    cases hbodies
    obtain ⟨-, -, -, hkept⟩ := mem_ways_few h
    exact exists_stretches_of_kept hkept
  | word w =>
    cases hbodies
    exact exists_stretches_of_kept (word?_eq_some (Option.mem_toList.mp h)).2
  | seq first second ihfirst ihsecond =>
    rw [recorded?] at hbodies
    split at hbodies
    · rename_i left right hleft hright
      cases hbodies
      obtain ⟨m, hm, hq⟩ := List.mem_flatMap.mp h
      obtain ⟨taken, hreads⟩ := exists_reads_of_mem_ways hm
      obtain ⟨earlier, hearlier, hfirst⟩ := ihfirst hleft hm
      obtain ⟨later, hlater, hsecond⟩ := ihsecond hright hq
      refine ⟨earlier ++ later, by rw [hlater, hearlier, List.append_assoc], ?_⟩
      exact List.rel_append hfirst (hsecond.imp fun _ _ hrecorded => hrecorded.of_reads hreads)
    · cases hbodies
  | either first second ihfirst ihsecond =>
    rw [recorded?] at hbodies
    split at hbodies
    · rename_i hleft hright
      cases hbodies
      rcases List.mem_append.mp h with hfirst | hsecond
      · exact ihfirst hleft hfirst
      · exact ihsecond hright hsecond
    · cases hbodies
  | repeated body ih =>
    rw [recorded?] at hbodies
    split at hbodies
    · rename_i hbody
      cases hbodies
      apply exists_stretches_of_kept
      apply repeatUpTo_related (R := fun a b => b.captures = a.captures) ?_ ?_ ?_ h
      · exact fun _ => rfl
      · exact fun a b c hab hbc => hbc.trans hab
      · intro a b hb
        obtain ⟨stretches, hcaptures, hrecorded⟩ := ih hbody hb
        cases hrecorded
        rw [hcaptures, List.append_nil]
    · cases hbodies
  | atStart =>
    cases hbodies
    rw [ways] at h
    split at h
    · obtain rfl := List.mem_singleton.mp h
      exact exists_stretches_of_kept rfl
    · cases h
  | atWordEdge =>
    cases hbodies
    rw [ways] at h
    split at h
    · obtain rfl := List.mem_singleton.mp h
      exact exists_stretches_of_kept rfl
    · cases h
  | capture body ih =>
    rw [recorded?] at hbodies
    split at hbodies
    · rename_i hbody
      cases hbodies
      obtain ⟨m, hm, rfl⟩ := List.mem_map.mp h
      obtain ⟨stretches, hcaptures, hrecorded⟩ := ih hbody hm
      cases hrecorded
      rw [List.append_nil] at hcaptures
      refine ⟨[p.stretchTo m], by rw [← hcaptures], .cons ?_ .nil⟩
      exact ⟨[], p, m, .refl p, hm, rfl⟩
    · cases hbodies

/-! ## Searching -/

theorem searchFrom?_eq_some {pattern : Pattern} {t : Text} {p : Place} {m : Match}
    (hp : p.rest = t) (h : pattern.searchFrom? t p = some m) :
    ∃ before start stop, p.Reads before start ∧ start.captures = [] ∧
      stop ∈ pattern.ways start ∧ m.captures = stop.captures.map Stretch.toText := by
  have hhere : ∀ {r : Place}, pattern.matchHere? r = some m → ∃ stop,
      stop ∈ pattern.ways { r with captures := [] } ∧
        m.captures = stop.captures.map Stretch.toText := by
    intro r hr
    obtain ⟨stop, hstop, rfl⟩ := Option.map_eq_some_iff.mp hr
    exact ⟨stop, List.mem_of_mem_head? hstop, rfl⟩
  induction t generalizing p with
  | nil =>
    obtain ⟨stop, hstop, hcaptures⟩ := hhere h
    exact ⟨[], { p with captures := [] }, stop, ⟨rfl, rfl⟩, rfl, hstop, hcaptures⟩
  | cons c cs ih =>
    rw [searchFrom?] at h
    split at h
    · rename_i found hfound
      obtain ⟨stop, hstop, hcaptures⟩ := hhere (hfound.trans h)
      exact ⟨[], { p with captures := [] }, stop, ⟨rfl, rfl⟩, rfl, hstop, hcaptures⟩
    · obtain ⟨before, start, stop, hreads, hrest⟩ := ih rfl h
      exact ⟨c :: before, start, stop, (reads_step hp).trans hreads, hrest⟩

theorem captures_of_search? {pattern : Pattern} {bodies : List Pattern}
    (hbodies : pattern.recorded? = some bodies) {t : Text} {m : Match}
    (h : pattern.search? t = some m) :
    List.Forall₂ (fun body text => text <:+: t ∧ ∃ start stop, stop ∈ body.ways start ∧
      start.Reads text stop) bodies m.captures := by
  obtain ⟨before, start, stop, hreads, hempty, hstop, hcaptures⟩ :=
    searchFrom?_eq_some (p := .start t) rfl h
  obtain ⟨stretches, hstretches, hrecorded⟩ := captures_of_mem_ways hbodies hstop
  rw [hempty, List.nil_append] at hstretches
  rw [hcaptures, hstretches, List.forall₂_map_right_iff]
  apply hrecorded.imp
  rintro body stretch ⟨skipped, first, last, hskipped, hlast, rfl⟩
  obtain ⟨taken, htaken⟩ := exists_reads_of_mem_ways hlast
  rw [htaken.toText_stretchTo]
  refine ⟨⟨before ++ skipped, last.rest, ?_⟩, first, last, hlast, htaken⟩
  have hall := ((hreads.trans hskipped).trans htaken).rest
  exact hall.symm

end Pattern

end SourceScout
