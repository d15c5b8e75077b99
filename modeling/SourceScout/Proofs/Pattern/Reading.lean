import SourceScout.Proofs.Pattern.Recording

/-!
# The texts that a pattern can take

`Pattern.Takes` says which texts a pattern reads, without regard to preferences. Every way to match
reads such a text; and if a text goes on with one, then some way to match reads just that, provided
that the pattern does not ask where it stands.
-/

namespace SourceScout

open Place

namespace Pattern

def Takes : Pattern → Text → Prop
  | nothing, t => t = []
  | one cls, t => ∃ c, cls c = true ∧ t = [c]
  | many cls, t => ∀ c ∈ t, cls c = true
  | few cls, t => ∀ c ∈ t, cls c = true
  | word w, t => t = w
  | seq first second, t => ∃ left right, first.Takes left ∧ second.Takes right ∧ t = left ++ right
  | either first second, t => first.Takes t ∨ second.Takes t
  | repeated body, t => ∃ pieces : List Text, (∀ piece ∈ pieces, body.Takes piece) ∧
      t = pieces.flatten
  | atStart, t => t = []
  | atWordEdge, t => t = []
  | capture body, t => body.Takes t

/-- Whether a pattern matches in the same way wherever its text stands. -/
def isFloating : Pattern → Bool
  | atStart => false
  | atWordEdge => false
  | seq first second => first.isFloating && second.isFloating
  | either first second => first.isFloating && second.isFloating
  | repeated body => body.isFloating
  | capture body => body.isFloating
  | _ => true

def isAnchored : Pattern → Bool
  | atStart => true
  | seq first _ => first.isAnchored
  | _ => false

section

variable {first second : Pattern} {cls : Char → Bool} {t : Text}

theorem takes_char {c : Char} : (char c).Takes t ↔ t = [c] := by
  simp [char, Takes]

theorem takes_many1 : (many1 cls).Takes t ↔ t ≠ [] ∧ ∀ c ∈ t, cls c = true := by
  constructor
  · rintro ⟨_, right, ⟨c, hc, rfl⟩, hright, rfl⟩
    exact ⟨List.cons_ne_nil _ _, List.forall_mem_cons.mpr ⟨hc, hright⟩⟩
  · rintro ⟨hne, ht⟩
    obtain ⟨c, rest, rfl⟩ := List.exists_cons_of_ne_nil hne
    obtain ⟨hc, hrest⟩ := List.forall_mem_cons.mp ht
    exact ⟨[c], rest, ⟨c, hc, rfl⟩, hrest, rfl⟩

theorem takes_anyOf {words : List Text} : (anyOf words).Takes t ↔ t ∈ words := by
  induction words with
  | nil => simp [anyOf, Takes]
  | cons w words ih =>
    cases words with
    | nil => simp [anyOf, Takes]
    | cons next rest =>
      rw [anyOf, Takes, ih, List.mem_cons (b := w)]
      · rfl
      · simp

theorem isFloating_anyOf (words : List Text) : (anyOf words).isFloating = true := by
  induction words with
  | nil => rfl
  | cons w words ih =>
    cases words with
    | nil => rfl
    | cons next rest => exact Bool.and_eq_true_iff.mpr ⟨rfl, ih⟩

theorem ways_append (first second : Pattern) :
    (first ++ second).ways = fun p => (first.ways p).flatMap second.ways := rfl

theorem mem_ways_append {p q : Place} :
    q ∈ (first ++ second).ways p ↔ ∃ m ∈ first.ways p, q ∈ second.ways m :=
  List.mem_flatMap

end

/-! ## What is read is what a pattern takes -/

theorem exists_takes_of_mem_ways {pattern : Pattern} {p q : Place} (h : q ∈ pattern.ways p) :
    ∃ taken, pattern.Takes taken ∧ p.Reads taken q := by
  induction pattern generalizing p q with
  | nothing =>
    obtain rfl := List.mem_singleton.mp h
    exact ⟨[], rfl, .refl q⟩
  | one cls =>
    obtain ⟨c, hc, hreads, -⟩ := one?_eq_some (Option.mem_toList.mp h)
    exact ⟨[c], ⟨c, hc, rfl⟩, hreads⟩
  | many cls =>
    obtain ⟨taken, htaken, hreads, -⟩ := mem_ways_many h
    exact ⟨taken, htaken, hreads⟩
  | few cls =>
    obtain ⟨taken, htaken, hreads, -⟩ := mem_ways_few h
    exact ⟨taken, htaken, hreads⟩
  | word w => exact ⟨w, rfl, (word?_eq_some (Option.mem_toList.mp h)).1⟩
  | seq first second ihfirst ihsecond =>
    obtain ⟨m, hm, hq⟩ := List.mem_flatMap.mp h
    obtain ⟨left, hleft, hfirst⟩ := ihfirst hm
    obtain ⟨right, hright, hsecond⟩ := ihsecond hq
    exact ⟨left ++ right, ⟨left, right, hleft, hright, rfl⟩, hfirst.trans hsecond⟩
  | either first second ihfirst ihsecond =>
    rcases List.mem_append.mp h with hfirst | hsecond
    · obtain ⟨taken, htaken, hreads⟩ := ihfirst hfirst
      exact ⟨taken, .inl htaken, hreads⟩
    · obtain ⟨taken, htaken, hreads⟩ := ihsecond hsecond
      exact ⟨taken, .inr htaken, hreads⟩
  | repeated body ih =>
    have hpieces : ∃ pieces : List Text, (∀ piece ∈ pieces, body.Takes piece) ∧
        p.Reads pieces.flatten q := by
      apply repeatUpTo_related (R := fun a b => ∃ pieces : List Text,
        (∀ piece ∈ pieces, body.Takes piece) ∧ a.Reads pieces.flatten b) ?_ ?_ ?_ h
      · intro a
        exact ⟨[], by simp, .refl a⟩
      · rintro a b c ⟨left, hleft, hab⟩ ⟨right, hright, hbc⟩
        refine ⟨left ++ right, List.forall_mem_append.mpr ⟨hleft, hright⟩, ?_⟩
        rw [List.flatten_append]
        exact hab.trans hbc
      · intro a b hb
        obtain ⟨taken, htaken, hreads⟩ := ih hb
        exact ⟨[taken], by simpa using htaken, by simpa using hreads⟩
    obtain ⟨pieces, hbody, hreads⟩ := hpieces
    exact ⟨pieces.flatten, ⟨pieces, hbody, rfl⟩, hreads⟩
  | atStart =>
    rw [ways] at h
    split at h
    · obtain rfl := List.mem_singleton.mp h
      exact ⟨[], rfl, .refl q⟩
    · cases h
  | atWordEdge =>
    rw [ways] at h
    split at h
    · obtain rfl := List.mem_singleton.mp h
      exact ⟨[], rfl, .refl q⟩
    · cases h
  | capture body ih =>
    obtain ⟨m, hm, rfl⟩ := List.mem_map.mp h
    obtain ⟨taken, htaken, hreads⟩ := ih hm
    exact ⟨taken, htaken, hreads.rest, hreads.offset⟩

/-! ## What a pattern takes is read -/

theorem one?_of_rest {cls : Char → Bool} {p : Place} {c : Char} {rest : Text} (hc : cls c = true)
    (hp : p.rest = c :: rest) : p.one? cls = some (p.step c rest) := by
  simp [one?, hp, hc]

theorem exists_word? {w rest : Text} {p : Place} (hp : p.rest = w ++ rest) :
    ∃ q, p.word? w = some q ∧ p.Reads w q := by
  induction w generalizing p with
  | nil => exact ⟨p, rfl, .refl p⟩
  | cons c w ih =>
    obtain ⟨q, hq, hreads⟩ := @ih (p.step c (w ++ rest)) rfl
    have hc : p.one? (fun x => x == c) = some (p.step c (w ++ rest)) :=
      one?_of_rest (beq_self_eq_true c) hp
    refine ⟨q, ?_, (reads_step hp).trans hreads⟩
    rw [word?, hc]
    exact hq

theorem mem_run_of_mem {cls : Char → Bool} {t : Text} {p q : Place} {shorter : List Place}
    (h : q ∈ shorter) : q ∈ p.run cls t shorter := by
  induction t generalizing p shorter with
  | nil => exact List.mem_cons_of_mem _ h
  | cons c cs ih =>
    rw [run]
    split
    · exact ih (List.mem_cons_of_mem _ h)
    · exact List.mem_cons_of_mem _ h

theorem exists_mem_run {cls : Char → Bool} {taken rest : Text} (htaken : ∀ c ∈ taken, cls c = true)
    {p : Place} (hp : p.rest = taken ++ rest) (shorter : List Place) :
    ∃ q ∈ p.run cls (taken ++ rest) shorter, p.Reads taken q := by
  induction taken generalizing p shorter with
  | nil =>
    refine ⟨p, ?_, .refl p⟩
    cases rest with
    | nil => exact List.mem_cons_self
    | cons c cs =>
      rw [List.nil_append, run]
      split
      · exact mem_run_of_mem List.mem_cons_self
      · exact List.mem_cons_self
  | cons c taken ih =>
    obtain ⟨hc, hrest⟩ := List.forall_mem_cons.mp htaken
    obtain ⟨q, hq, hreads⟩ := @ih hrest (p.step c (taken ++ rest)) rfl (p :: shorter)
    refine ⟨q, ?_, (reads_step hp).trans hreads⟩
    rw [List.cons_append, run, if_pos hc]
    exact hq

theorem exists_mem_repeatUpTo {body : Pattern} {pieces : List Text} {rest : Text} {n : Nat}
    {p : Place} (hbody : ∀ piece ∈ pieces, ∀ {a : Place} {after : Text}, a.rest = piece ++ after →
      ∃ b ∈ body.ways a, a.Reads piece b)
    (hp : p.rest = pieces.flatten ++ rest) (hn : pieces.flatten.length ≤ n) :
    ∃ q ∈ repeatUpTo body.ways n p, p.Reads pieces.flatten q := by
  have hstop : ∀ n (a : Place), a ∈ repeatUpTo body.ways n a := by
    intro n a
    cases n with
    | zero => exact List.mem_cons_self
    | succ n => exact List.mem_append_right _ List.mem_cons_self
  induction pieces generalizing p n with
  | nil => exact ⟨p, hstop n p, .refl p⟩
  | cons piece pieces ih =>
    rw [List.flatten_cons] at hp hn ⊢
    obtain ⟨hpiece, hpieces⟩ := List.forall_mem_cons.mp hbody
    cases piece with
    | nil => exact ih hpieces hp (by simpa using hn)
    | cons c cs =>
      rw [List.append_assoc] at hp
      obtain ⟨m, hm, hfirst⟩ := hpiece hp
      have hrest : m.rest = pieces.flatten ++ rest :=
        List.append_cancel_left (hfirst.rest.symm.trans hp)
      rw [List.length_append, List.length_cons] at hn
      -- a piece that is not empty leaves fewer repetitions to make
      obtain ⟨n, rfl⟩ : ∃ k, n = k + 1 := ⟨n - 1, by omega⟩
      obtain ⟨q, hq, hreads⟩ := @ih n m hpieces hrest (by omega)
      exact ⟨q, List.mem_append_left _ (List.mem_flatMap.mpr ⟨m, hm, hq⟩), hfirst.trans hreads⟩

theorem exists_mem_ways_of_takes {pattern : Pattern} (hfloating : pattern.isFloating = true)
    {taken rest : Text} (h : pattern.Takes taken) {p : Place} (hp : p.rest = taken ++ rest) :
    ∃ q ∈ pattern.ways p, p.Reads taken q := by
  induction pattern generalizing taken rest p with
  | nothing =>
    obtain rfl : taken = [] := h
    exact ⟨p, List.mem_cons_self, .refl p⟩
  | one cls =>
    obtain ⟨c, hc, rfl⟩ := h
    exact ⟨p.step c rest, Option.mem_toList.mpr (one?_of_rest hc hp), reads_step hp⟩
  | many cls =>
    obtain ⟨q, hq, hreads⟩ := exists_mem_run h hp []
    rw [← hp] at hq
    exact ⟨q, hq, hreads⟩
  | few cls =>
    obtain ⟨q, hq, hreads⟩ := exists_mem_run h hp []
    rw [← hp] at hq
    exact ⟨q, List.mem_reverse.mpr hq, hreads⟩
  | word w =>
    obtain rfl : taken = w := h
    obtain ⟨q, hq, hreads⟩ := exists_word? hp
    exact ⟨q, Option.mem_toList.mpr hq, hreads⟩
  | seq first second ihfirst ihsecond =>
    obtain ⟨hleft, hright⟩ := Bool.and_eq_true_iff.mp hfloating
    obtain ⟨left, right, hfirst, hsecond, rfl⟩ := h
    rw [List.append_assoc] at hp
    obtain ⟨m, hm, hreads⟩ := ihfirst hleft hfirst hp
    have hrest : m.rest = right ++ rest := List.append_cancel_left (hreads.rest.symm.trans hp)
    obtain ⟨q, hq, hreads'⟩ := ihsecond hright hsecond hrest
    exact ⟨q, List.mem_flatMap.mpr ⟨m, hm, hq⟩, hreads.trans hreads'⟩
  | either first second ihfirst ihsecond =>
    obtain ⟨hleft, hright⟩ := Bool.and_eq_true_iff.mp hfloating
    rcases h with hfirst | hsecond
    · obtain ⟨q, hq, hreads⟩ := ihfirst hleft hfirst hp
      exact ⟨q, List.mem_append_left _ hq, hreads⟩
    · obtain ⟨q, hq, hreads⟩ := ihsecond hright hsecond hp
      exact ⟨q, List.mem_append_right _ hq, hreads⟩
  | repeated body ih =>
    obtain ⟨pieces, hpieces, rfl⟩ := h
    refine exists_mem_repeatUpTo ?_ hp ?_
    · intro piece hpiece a after ha
      exact ih hfloating (hpieces piece hpiece) ha
    · rw [hp, List.length_append]
      omega
  | atStart => cases hfloating
  | atWordEdge => cases hfloating
  | capture body ih =>
    obtain ⟨q, hq, hreads⟩ := ih hfloating h hp
    exact ⟨_, List.mem_map.mpr ⟨q, hq, rfl⟩, hreads.rest, hreads.offset⟩

/-! ## Searching -/

theorem exists_takes_of_search? {pattern : Pattern} {t : Text} {m : Match}
    (h : pattern.search? t = some m) :
    ∃ before taken after, pattern.Takes taken ∧ t = before ++ taken ++ after := by
  obtain ⟨before, start, stop, hreads, -, hstop, -⟩ := searchFrom?_eq_some (p := .start t) rfl h
  obtain ⟨taken, htaken, hrest⟩ := exists_takes_of_mem_ways hstop
  exact ⟨before, taken, stop.rest, htaken, (hreads.trans hrest).rest⟩

theorem ways_eq_nil_of_isAnchored {pattern : Pattern} (h : pattern.isAnchored = true) {p : Place}
    (hp : p.prev.isNone = false) : pattern.ways p = [] := by
  induction pattern with
  | seq first second ih _ => rw [ways, ih h, List.flatMap_nil]
  | atStart => simp [ways, hp]
  | _ => cases h

theorem searchFrom?_eq_none_of_isAnchored {pattern : Pattern} (h : pattern.isAnchored = true)
    {t : Text} {p : Place} (hp : p.prev.isNone = false) : pattern.searchFrom? t p = none := by
  have hhere : ∀ {a : Place}, a.prev.isNone = false → pattern.matchHere? a = none := by
    intro a ha
    have hnil : pattern.ways { a with captures := [] } = [] := ways_eq_nil_of_isAnchored h ha
    rw [matchHere?, hnil]
    rfl
  induction t generalizing p with
  | nil => exact hhere hp
  | cons c cs ih =>
    rw [searchFrom?, hhere hp]
    exact ih rfl

theorem search?_of_isAnchored {pattern : Pattern} (h : pattern.isAnchored = true) (t : Text) :
    pattern.search? t = pattern.matchStart? t := by
  cases t with
  | nil => rfl
  | cons c cs =>
    rw [search?, searchFrom?, searchFrom?_eq_none_of_isAnchored h rfl, matchStart?]
    cases pattern.matchHere? (.start (c :: cs)) <;> rfl

theorem captures_eq_of_mem_ways {pattern : Pattern} {p q : Place}
    (hpattern : pattern.recorded? = some []) (h : q ∈ pattern.ways p) :
    q.captures = p.captures := by
  obtain ⟨stretches, hcaptures, hnone⟩ := captures_of_mem_ways hpattern h
  cases hnone
  rw [hcaptures, List.append_nil]

section

variable {front body back : Pattern} {p q : Place}

/-- Up to the end of the first capture: what is read before it, what it takes, and where the rest of
the pattern starts. -/
theorem exists_mem_ways_behind_capture (hfront : front.recorded? = some [])
    (hbody : body.recorded? = some []) (h : q ∈ (front ++ (capture body ++ back)).ways p) :
    ∃ before taken m, front.Takes before ∧ body.Takes taken ∧ p.Reads (before ++ taken) m ∧
      m.captures.map Stretch.toText = p.captures.map Stretch.toText ++ [taken] ∧
      q ∈ back.ways m := by
  obtain ⟨first, hfirst, hrest⟩ := mem_ways_append.mp h
  obtain ⟨marked, hmarked, hlast⟩ := mem_ways_append.mp hrest
  obtain ⟨second, hsecond, rfl⟩ := List.mem_map.mp hmarked
  obtain ⟨before, hbefore, hreads⟩ := exists_takes_of_mem_ways hfirst
  obtain ⟨taken, htaken, hreads'⟩ := exists_takes_of_mem_ways hsecond
  refine ⟨before, taken, _, hbefore, htaken, ?_, ?_, hlast⟩
  · exact hreads.trans ⟨hreads'.rest, hreads'.offset⟩
  · rw [captures_eq_of_mem_ways hbody hsecond, captures_eq_of_mem_ways hfront hfirst,
      List.map_append, List.map_singleton, hreads'.toText_stretchTo]

theorem exists_takes_around_capture (hfront : front.recorded? = some [])
    (hbody : body.recorded? = some []) (hback : back.recorded? = some [])
    (h : q ∈ (front ++ (capture body ++ back)).ways p) :
    ∃ before taken after, front.Takes before ∧ body.Takes taken ∧ back.Takes after ∧
      p.Reads (before ++ (taken ++ after)) q ∧
      q.captures.map Stretch.toText = p.captures.map Stretch.toText ++ [taken] := by
  obtain ⟨before, taken, m, hbefore, htaken, hreads, hcaptures, hlast⟩ :=
    exists_mem_ways_behind_capture hfront hbody h
  obtain ⟨after, hafter, hreads'⟩ := exists_takes_of_mem_ways hlast
  refine ⟨before, taken, after, hbefore, htaken, hafter, ?_, ?_⟩
  · rw [← List.append_assoc]
    exact hreads.trans hreads'
  · rw [captures_eq_of_mem_ways hback hlast, hcaptures]

end

end Pattern

end SourceScout
