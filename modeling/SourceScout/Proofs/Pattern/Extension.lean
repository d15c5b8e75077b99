import SourceScout.Proofs.Pattern.Reading

/-!
# Patterns that stop before a character

A pattern that cannot read a certain character looks no further than its next occurrence. Whatever
comes behind it, the pattern has the same ways to match, in the same order.
-/

namespace SourceScout

namespace Place

/-- The same place in a longer text: the two differ only behind a character that is still to come,
and the same was captured on the way. -/
structure Extends (stop : Char) (more : Text) (p q : Place) : Prop where
  prev : q.prev = p.prev
  rest : q.rest = p.rest ++ more
  offset : q.offset = p.offset
  captures : q.captures.map Stretch.toText = p.captures.map Stretch.toText
  ahead : stop ∈ p.rest

variable {stop : Char} {more : Text} {p q : Place} {cls : Char → Bool}

theorem Extends.step (h : Extends stop more p q) {c : Char} {cs : Text} (hrest : p.rest = c :: cs)
    (hc : c ≠ stop) : Extends stop more (p.step c cs) (q.step c (cs ++ more)) where
  prev := rfl
  rest := rfl
  offset := congrArg (· + 1) h.offset
  captures := h.captures
  ahead := (List.mem_cons.mp (hrest ▸ h.ahead)).resolve_left (Ne.symm hc)

theorem Extends.one? (h : Extends stop more p q) (hcls : cls stop = false) :
    List.Forall₂ (Extends stop more) (p.one? cls).toList (q.one? cls).toList := by
  obtain ⟨c, cs, hrest⟩ := List.exists_cons_of_ne_nil (List.ne_nil_of_mem h.ahead)
  have hlonger : q.rest = c :: (cs ++ more) := by rw [h.rest, hrest, List.cons_append]
  simp only [Place.one?, hrest, hlonger]
  split
  · rename_i hc
    have hne : c ≠ stop := by
      rintro rfl
      rw [hcls] at hc
      cases hc
    exact .cons (h.step hrest hne) .nil
  · exact .nil

theorem Extends.word? {w : Text} (h : Extends stop more p q) (hw : stop ∉ w) :
    List.Forall₂ (Extends stop more) (p.word? w).toList (q.word? w).toList := by
  induction w generalizing p q with
  | nil => exact .cons h .nil
  | cons c w ih =>
    have hc : (stop == c) = false := by simpa using List.ne_of_not_mem_cons hw
    rw [Place.word?, Place.word?, Option.toList_bind, Option.toList_bind]
    exact List.rel_flatMap (h.one? hc) fun _ _ hab => ih hab (List.not_mem_of_not_mem_cons hw)

theorem Extends.run {t : Text} (h : Extends stop more p q) (hrest : p.rest = t)
    (hcls : cls stop = false) {shorter longer : List Place}
    (hshorter : List.Forall₂ (Extends stop more) shorter longer) :
    List.Forall₂ (Extends stop more) (p.run cls t shorter) (q.run cls (t ++ more) longer) := by
  induction t generalizing p q shorter longer with
  | nil => exact absurd (hrest ▸ h.ahead) List.not_mem_nil
  | cons c cs ih =>
    rw [List.cons_append, Place.run, Place.run]
    split
    · rename_i hc
      have hne : c ≠ stop := by
        rintro rfl
        rw [hcls] at hc
        cases hc
      exact ih (h.step hrest hne) rfl (.cons h hshorter)
    · exact .cons h hshorter

end Place

namespace Pattern

open Place

/-- Whether a pattern never reads a character. Repetitions are left out: how often they are tried
depends on the length of the text. -/
def avoids (stop : Char) : Pattern → Bool
  | one cls => !cls stop
  | many cls => !cls stop
  | few cls => !cls stop
  | word w => !w.contains stop
  | seq first second => first.avoids stop && second.avoids stop
  | either first second => first.avoids stop && second.avoids stop
  | repeated _ => false
  | capture body => body.avoids stop
  | _ => true

theorem isWordEdge_of_extends {stop : Char} {more : Text} {p q : Place}
    (h : Extends stop more p q) : isWordEdge q = isWordEdge p := by
  obtain ⟨c, cs, hrest⟩ := List.exists_cons_of_ne_nil (List.ne_nil_of_mem h.ahead)
  simp only [isWordEdge, h.prev, h.rest, hrest, List.cons_append]

theorem ways_extends {pattern : Pattern} {stop : Char} {more : Text} {p q : Place}
    (hpattern : pattern.avoids stop = true) (h : Extends stop more p q) :
    List.Forall₂ (Extends stop more) (pattern.ways p) (pattern.ways q) := by
  induction pattern generalizing p q with
  | nothing => exact .cons h .nil
  | one cls => exact h.one? (by simpa [avoids] using hpattern)
  | many cls =>
    rw [ways, ways, h.rest]
    exact h.run rfl (by simpa [avoids] using hpattern) .nil
  | few cls =>
    rw [ways, ways, h.rest]
    exact List.rel_reverse (h.run rfl (by simpa [avoids] using hpattern) .nil)
  | word w => exact h.word? (by simpa [avoids] using hpattern)
  | seq first second ihfirst ihsecond =>
    obtain ⟨hfirst, hsecond⟩ := Bool.and_eq_true_iff.mp hpattern
    exact List.rel_flatMap (ihfirst hfirst h) fun _ _ hab => ihsecond hsecond hab
  | either first second ihfirst ihsecond =>
    obtain ⟨hfirst, hsecond⟩ := Bool.and_eq_true_iff.mp hpattern
    exact List.rel_append (ihfirst hfirst h) (ihsecond hsecond h)
  | repeated body _ => cases hpattern
  | atStart =>
    rw [ways, ways, h.prev]
    split
    · exact .cons h .nil
    · exact .nil
  | atWordEdge =>
    rw [ways, ways, isWordEdge_of_extends h]
    split
    · exact .cons h .nil
    · exact .nil
  | capture body ih =>
    have hbody := (List.forall₂_and_left _ _).mpr
      ⟨fun _ hm => exists_reads_of_mem_ways hm, ih hpattern h⟩
    rw [ways, ways, List.forall₂_map_left_iff, List.forall₂_map_right_iff]
    apply hbody.imp
    rintro a b ⟨⟨taken, hreads⟩, hab⟩
    have hlonger : q.Reads taken b :=
      ⟨by rw [h.rest, hreads.rest, hab.rest, List.append_assoc],
        by rw [hab.offset, hreads.offset, h.offset]⟩
    refine ⟨hab.prev, hab.rest, hab.offset, ?_, hab.ahead⟩
    simp only [List.map_append, List.map_singleton, hab.captures, hreads.toText_stretchTo,
      hlonger.toText_stretchTo]

def captured? (pattern : Pattern) (p : Place) : Option (List Text) :=
  (pattern.ways p).head?.map fun q => q.captures.map Stretch.toText

theorem head?_map_captures {ending : Pattern} (hending : ending.recorded? = some []) {p : Place}
    (h : ending.ways p ≠ []) (others : List Place) :
    ((ending.ways p ++ others).head?.map fun q => q.captures.map Stretch.toText) =
      some (p.captures.map Stretch.toText) := by
  obtain ⟨q, rest, hways⟩ := List.exists_cons_of_ne_nil h
  have hq : q.captures = p.captures :=
    captures_eq_of_mem_ways hending (hways ▸ List.mem_cons_self)
  rw [hways, List.cons_append, List.head?_cons, Option.map_some, hq]

theorem head?_flatMap_captures {ending : Pattern} (hending : ending.recorded? = some [])
    {shorter longer : List Place}
    (h : List.Forall₂ (fun a b => (ending.ways a = [] ↔ ending.ways b = []) ∧
      b.captures.map Stretch.toText = a.captures.map Stretch.toText) shorter longer) :
    ((longer.flatMap ending.ways).head?.map fun q => q.captures.map Stretch.toText) =
      (shorter.flatMap ending.ways).head?.map fun q => q.captures.map Stretch.toText := by
  induction h with
  | nil => rfl
  | @cons a b shorter longer hab _ ih =>
    rw [List.flatMap_cons, List.flatMap_cons]
    by_cases hnone : ending.ways a = []
    · rw [hnone, hab.1.mp hnone]
      exact ih
    · rw [head?_map_captures hending hnone, head?_map_captures hending (hnone ∘ hab.1.mpr), hab.2]

theorem captured?_extends {front ending : Pattern} {stop : Char} {more : Text} {p q : Place}
    (hfront : front.avoids stop = true) (hending : ending.recorded? = some [])
    (hsame : ∀ a ∈ front.ways p, ∀ b, Extends stop more a b →
      (ending.ways a = [] ↔ ending.ways b = []))
    (h : Extends stop more p q) :
    (front ++ ending).captured? q = (front ++ ending).captured? p := by
  have hboth := (List.forall₂_and_left _ _).mpr ⟨hsame, ways_extends hfront h⟩
  exact head?_flatMap_captures hending
    (hboth.imp fun a b hab => ⟨hab.1 b hab.2, hab.2.captures⟩)

end Pattern

end SourceScout
