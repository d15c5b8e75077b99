import Mathlib.Data.List.Induction
import Mathlib.Data.List.Nodup
import SourceScout.Implementation
import SourceScout.Project.Resolve

/-!
# The first import of each name

Both loops over imports keep what comes first under a qualified name, in the order in which it
comes, as elsewhere the first of equal texts is kept. `Listed` says what such a list holds in terms
of positions: which position gives an element, and which element it gives.
-/

namespace SourceScout

/-- The list of what is picked at the positions below a bound, one position after the other. -/
inductive Listed {α : Type} (picked : Nat → α → Prop) : Nat → List α → Prop
  | nil : Listed picked 0 []
  | skip {n : Nat} {kept : List α} (h : Listed picked n kept) (hnone : ∀ x, ¬picked n x) :
      Listed picked (n + 1) kept
  | take {n : Nat} {kept : List α} {x : α} (h : Listed picked n kept) (hx : picked n x)
      (hunique : ∀ y, picked n y → y = x) : Listed picked (n + 1) (kept ++ [x])

namespace Listed

variable {α β : Type} {picked other : Nat → α → Prop} {n : Nat} {kept : List α}

theorem congr (h : Listed picked n kept) (heq : ∀ k < n, ∀ x, picked k x ↔ other k x) :
    Listed other n kept := by
  induction h with
  | nil => exact .nil
  | @skip n kept _ hnone ih =>
    refine .skip (ih fun k hk => heq k (by omega)) fun x hx => ?_
    exact hnone x ((heq n (by omega) x).mpr hx)
  | @take n kept x _ hx hunique ih =>
    refine .take (ih fun k hk => heq k (by omega)) ((heq n (by omega) x).mp hx) fun y hy => ?_
    exact hunique y ((heq n (by omega) y).mpr hy)

theorem mem_iff (h : Listed picked n kept) {x : α} : x ∈ kept ↔ ∃ k < n, picked k x := by
  induction h with
  | nil => simp
  | @skip n kept _ hnone ih =>
    rw [ih]
    constructor
    · rintro ⟨k, hk, hx⟩
      exact ⟨k, by omega, hx⟩
    · rintro ⟨k, hk, hx⟩
      have hne : k ≠ n := by
        rintro rfl
        exact hnone x hx
      exact ⟨k, by omega, hx⟩
  | @take n kept y _ hy hunique ih =>
    rw [List.mem_append, List.mem_singleton, ih]
    constructor
    · rintro (⟨k, hk, hx⟩ | rfl)
      · exact ⟨k, by omega, hx⟩
      · exact ⟨n, by omega, hy⟩
    · rintro ⟨k, hk, hx⟩
      by_cases hkn : k = n
      · subst hkn
        exact .inr (hunique x hx)
      · exact .inl ⟨k, by omega, hx⟩

theorem nodup_map (h : Listed picked n kept) (key : α → β)
    (hkey : ∀ j k x y, j < k → picked j x → picked k y → key x ≠ key y) :
    (kept.map key).Nodup := by
  induction h with
  | nil => exact List.nodup_nil
  | skip _ _ ih => exact ih
  | @take n kept y h hy _ ih =>
    rw [List.map_append, List.map_singleton, ← List.concat_eq_append, List.nodup_concat]
    refine ⟨?_, ih⟩
    intro hmem
    obtain ⟨x, hx, hxy⟩ := List.mem_map.mp hmem
    obtain ⟨k, hk, hpicked⟩ := h.mem_iff.mp hx
    exact hkey k n x y hk hpicked hy hxy

theorem head?_eq (h : Listed picked n kept) (hn : 0 < n) {x : α} (hx : picked 0 x) :
    kept.head? = some x := by
  induction h with
  | nil => omega
  | @skip n kept h hnone ih =>
    refine ih (Nat.pos_of_ne_zero ?_)
    rintro rfl
    exact hnone x hx
  | @take n kept y h hy hunique ih =>
    by_cases hzero : n = 0
    · subst hzero
      cases h
      rw [hunique x hx]
      rfl
    · rw [List.head?_append, ih (by omega)]
      rfl

theorem existsUnique_lt_succ {p : Nat → Prop} :
    (∃! k, k < n + 1 ∧ p k) ↔ p n ∧ (∀ k < n, ¬p k) ∨ ¬p n ∧ ∃! k, k < n ∧ p k := by
  constructor
  · rintro ⟨k, ⟨hk, hp⟩, hunique⟩
    by_cases hkn : k = n
    · subst hkn
      refine .inl ⟨hp, fun j hj hpj => ?_⟩
      exact absurd (hunique j ⟨by omega, hpj⟩) (by omega)
    · refine .inr ⟨fun hpn => hkn (hunique n ⟨by omega, hpn⟩).symm, k, ⟨by omega, hp⟩, ?_⟩
      rintro j ⟨hj, hpj⟩
      exact hunique j ⟨by omega, hpj⟩
  · rintro (⟨hp, hnone⟩ | ⟨hnot, k, ⟨hk, hp⟩, hunique⟩)
    · refine ⟨n, ⟨by omega, hp⟩, ?_⟩
      rintro j ⟨hj, hpj⟩
      by_contra hne
      exact hnone j (by omega) hpj
    · refine ⟨k, ⟨by omega, hp⟩, ?_⟩
      rintro j ⟨hj, hpj⟩
      have hne : j ≠ n := by
        rintro rfl
        exact hnot hpj
      exact hunique j ⟨by omega, hpj⟩

theorem count_map_eq_one_iff [BEq β] [LawfulBEq β] (h : Listed picked n kept) (key : α → β)
    (value : β) :
    (kept.map key).count value = 1 ↔ ∃! k, k < n ∧ ∃ x, picked k x ∧ key x = value := by
  induction h with
  | nil =>
    refine iff_of_false (by simp) ?_
    rintro ⟨k, ⟨hk, -⟩, -⟩
    omega
  | @skip n kept _ hnone ih =>
    have hlast : ¬∃ x, picked n x ∧ key x = value := by
      rintro ⟨x, hx, -⟩
      exact hnone x hx
    rw [ih, existsUnique_lt_succ]
    simp [hlast]
  | @take n kept x h hx hunique ih =>
    have hlast : (∃ y, picked n y ∧ key y = value) ↔ key x = value := by
      constructor
      · rintro ⟨y, hy, hvalue⟩
        rwa [hunique y hy] at hvalue
      · intro hvalue
        exact ⟨x, hx, hvalue⟩
    have hzero : (kept.map key).count value = 0 ↔ ∀ k < n, ¬∃ y, picked k y ∧ key y = value := by
      rw [List.count_eq_zero, List.mem_map]
      constructor
      · rintro hnone k hk ⟨y, hy, hvalue⟩
        exact hnone ⟨y, h.mem_iff.mpr ⟨k, hk, hy⟩, hvalue⟩
      · rintro hnone ⟨y, hy, hvalue⟩
        obtain ⟨k, hk, hpicked⟩ := h.mem_iff.mp hy
        exact hnone k hk ⟨y, hpicked, hvalue⟩
    rw [existsUnique_lt_succ, hlast, ← hzero, ← ih, List.map_append, List.count_append]
    by_cases hvalue : key x = value <;> simp [hvalue]

theorem of_filterMap (f : β → Option α) (xs : List β) :
    Listed (fun k x => xs[k]?.bind f = some x) xs.length (xs.filterMap f) := by
  induction xs using List.reverseRecOn with
  | nil => exact .nil
  | append_singleton xs last ih =>
    have hkept : Listed (fun k x => (xs ++ [last])[k]?.bind f = some x) xs.length
        (xs.filterMap f) := by
      refine ih.congr fun k hk x => ?_
      rw [List.getElem?_append_left hk]
    have hlast : (xs ++ [last])[xs.length]?.bind f = f last := by simp
    rw [List.filterMap_append, List.length_append]
    cases hf : f last with
    | none =>
      rw [List.filterMap_cons_none hf, List.filterMap_nil, List.append_nil]
      exact hkept.skip fun x hx => nomatch (hlast.trans hf).symm.trans hx
    | some y =>
      rw [List.filterMap_cons_some hf, List.filterMap_nil]
      exact hkept.take (hlast.trans hf) fun x hx =>
        Option.some.inj (hx.symm.trans (hlast.trans hf))

theorem of_list (xs : List α) : Listed (fun k x => xs[k]? = some x) xs.length xs := by
  have hlisted := of_filterMap some xs
  rw [List.filterMap_some] at hlisted
  refine hlisted.congr fun k _ x => ?_
  cases xs[k]? <;> rfl

theorem of_filterMap_range (f : Nat → Option α) (n : Nat) :
    Listed (fun k x => f k = some x) n ((List.range n).filterMap f) := by
  have hlisted := of_filterMap f (List.range n)
  rw [List.length_range] at hlisted
  refine hlisted.congr fun k hk x => ?_
  rw [List.getElem?_range hk, Option.bind_some]

theorem of_filter (p : α → Bool) (xs : List α) :
    Listed (fun k x => xs[k]? = some x ∧ p x = true) xs.length (xs.filter p) := by
  have hlisted := of_filterMap (Option.guard p) xs
  rw [List.filterMap_eq_filter] at hlisted
  refine hlisted.congr fun k _ x => ?_
  rw [Option.bind_eq_some_iff]
  constructor
  · rintro ⟨y, hy, hguard⟩
    obtain ⟨rfl, hp⟩ := Option.guard_eq_some_iff.mp hguard
    exact ⟨hy, hp⟩
  · rintro ⟨hx, hp⟩
    exact ⟨x, hx, Option.guard_eq_some_iff.mpr ⟨rfl, hp⟩⟩

theorem filter (h : Listed picked n kept) (p : α → Bool) :
    Listed (fun k x => picked k x ∧ p x = true) n (kept.filter p) := by
  induction h with
  | nil => exact .nil
  | skip _ hnone ih => exact ih.skip fun x hx => hnone x hx.1
  | @take n kept x h hx hunique ih =>
    rw [List.filter_append]
    cases hp : p x with
    | false =>
      rw [List.filter_cons_of_neg (by simp [hp]), List.filter_nil, List.append_nil]
      refine ih.skip fun y hy => ?_
      rw [hunique y hy.1] at hy
      cases hp.symm.trans hy.2
    | true =>
      rw [List.filter_cons_of_pos hp, List.filter_nil]
      exact ih.take ⟨hx, hp⟩ fun y hy => hunique y hy.1

end Listed

section

variable {α : Type}

theorem eraseDupsBy_loop_concat (same : α → α → Bool) (xs kept : List α) (x : α) :
    List.eraseDupsBy.loop same (xs ++ [x]) kept =
      if (List.eraseDupsBy.loop same xs kept).any (same x) then List.eraseDupsBy.loop same xs kept
      else List.eraseDupsBy.loop same xs kept ++ [x] := by
  induction xs generalizing kept with
  | nil =>
    rw [List.nil_append, List.eraseDupsBy.loop, List.eraseDupsBy.loop, List.any_reverse]
    cases kept.any (same x) with
    | true => rfl
    | false => exact List.reverse_cons
  | cons y ys ih =>
    rw [List.cons_append, List.eraseDupsBy.loop, List.eraseDupsBy.loop]
    cases kept.any (same y) with
    | true => exact ih kept
    | false => exact ih (y :: kept)

theorem eraseDupsBy_concat (same : α → α → Bool) (xs : List α) (x : α) :
    (xs ++ [x]).eraseDupsBy same =
      if (xs.eraseDupsBy same).any (same x) then xs.eraseDupsBy same
      else xs.eraseDupsBy same ++ [x] :=
  eraseDupsBy_loop_concat same xs [] x

variable [BEq α]

theorem eraseDups_concat (xs : List α) (x : α) :
    (xs ++ [x]).eraseDups =
      if xs.eraseDups.contains x then xs.eraseDups else xs.eraseDups ++ [x] := by
  rw [List.contains_eq_any_beq]
  exact eraseDupsBy_concat _ xs x

variable [LawfulBEq α]

theorem nodup_eraseDups (xs : List α) : xs.eraseDups.Nodup := by
  induction xs using List.reverseRecOn with
  | nil => exact List.nodup_nil
  | append_singleton xs x ih =>
    rw [eraseDups_concat]
    split
    · exact ih
    · rename_i hx
      rw [← List.concat_eq_append, List.nodup_concat]
      exact ⟨fun hmem => hx (List.contains_iff_mem.mpr hmem), ih⟩

theorem Listed.eraseDups {picked : Nat → α → Prop} {n : Nat} {kept : List α}
    (h : Listed picked n kept) :
    Listed (fun k x => picked k x ∧ ∀ j < k, ¬picked j x) n kept.eraseDups := by
  induction h with
  | nil => exact .nil
  | skip _ hnone ih => exact ih.skip fun x hx => hnone x hx.1
  | @take n kept x h hx hunique ih =>
    rw [eraseDups_concat]
    split
    · rename_i hmem
      obtain ⟨j, hj, hpicked⟩ :=
        h.mem_iff.mp (List.mem_eraseDups.mp (List.contains_iff_mem.mp hmem))
      refine ih.skip fun y hy => hy.2 j hj ?_
      rwa [hunique y hy.1]
    · rename_i hmem
      refine ih.take ⟨hx, fun j hj hpicked => hmem ?_⟩ fun y hy => hunique y hy.1
      exact List.contains_iff_mem.mpr (List.mem_eraseDups.mpr (h.mem_iff.mpr ⟨j, hj, hpicked⟩))

end

namespace Project

/-- An import is what the element at a position answers, and no element before it answers with the
same qualified name. -/
structure FirstAt {α : Type} (answer : α → Option Import) (xs : List α) (k : Nat) (i : Import) :
    Prop where
  answers : xs[k]?.bind answer = some i
  first : ∀ j < k, ∀ before, xs[j]?.bind answer = some before →
    before.qualifiedName ≠ i.qualifiedName

theorem distinctNames_concat (imports : List Import) (i : Import) :
    distinctNames (imports ++ [i]) =
      if (distinctNames imports).any fun kept => kept.qualifiedName == i.qualifiedName then
        distinctNames imports
      else distinctNames imports ++ [i] :=
  eraseDupsBy_concat _ imports i

section

variable {α : Type} {answer : α → Option Import} {xs : List α}

theorem exists_firstAt {k : Nat} {i : Import} (h : xs[k]?.bind answer = some i) :
    ∃ j ≤ k, ∃ first, FirstAt answer xs j first ∧ first.qualifiedName = i.qualifiedName := by
  induction k using Nat.strongRecOn generalizing i with
  | ind k ih =>
    by_cases hbefore : ∃ j < k, ∃ before, xs[j]?.bind answer = some before ∧
        before.qualifiedName = i.qualifiedName
    · obtain ⟨j, hj, before, hanswer, hname⟩ := hbefore
      obtain ⟨l, hl, first, hfirst, heq⟩ := ih j hj hanswer
      exact ⟨l, by omega, first, hfirst, heq.trans hname⟩
    · refine ⟨k, Nat.le_refl k, i, ⟨h, ?_⟩, rfl⟩
      intro j hj before hanswer hname
      exact hbefore ⟨j, hj, before, hanswer, hname⟩

theorem firstAt_concat {x : α} {k : Nat} (hk : k < xs.length) {i : Import} :
    FirstAt answer xs k i ↔ FirstAt answer (xs ++ [x]) k i := by
  have hget : ∀ j ≤ k, (xs ++ [x])[j]? = xs[j]? := fun j hj =>
    List.getElem?_append_left (by omega)
  constructor
  · rintro ⟨hanswers, hfirst⟩
    refine ⟨by rwa [hget k (Nat.le_refl k)], fun j hj => ?_⟩
    rw [hget j (by omega)]
    exact hfirst j hj
  · rintro ⟨hanswers, hfirst⟩
    refine ⟨by rwa [hget k (Nat.le_refl k)] at hanswers, fun j hj => ?_⟩
    have hj' := hfirst j hj
    rwa [hget j (by omega)] at hj'

theorem listed_distinctNames (answer : α → Option Import) (xs : List α) :
    Listed (FirstAt answer xs) xs.length (distinctNames (xs.filterMap answer)) := by
  induction xs using List.reverseRecOn with
  | nil => exact .nil
  | append_singleton xs x ih =>
    have hlast : (xs ++ [x])[xs.length]?.bind answer = answer x := by simp
    have hkept := ih.congr fun k hk i => firstAt_concat (x := x) hk
    rw [List.filterMap_append, List.length_append]
    cases hx : answer x with
    | none =>
      rw [List.filterMap_cons_none hx, List.filterMap_nil, List.append_nil]
      refine hkept.skip fun i hi => ?_
      have hi := hi.answers
      rw [hlast, hx] at hi
      cases hi
    | some i =>
      rw [hx] at hlast
      rw [List.filterMap_cons_some hx, List.filterMap_nil, distinctNames_concat]
      split
      · rename_i hany
        obtain ⟨before, hbefore, hname⟩ := List.any_eq_true.mp hany
        obtain ⟨j, hj, hfirst⟩ := hkept.mem_iff.mp hbefore
        refine hkept.skip fun other hother => ?_
        obtain rfl : i = other := Option.some.inj (hlast.symm.trans hother.answers)
        exact hother.first j hj before hfirst.answers (by simpa using hname)
      · rename_i hany
        refine hkept.take ⟨hlast, ?_⟩ fun other hother =>
          Option.some.inj (hother.answers.symm.trans hlast)
        intro j hj before hanswer hname
        rw [List.getElem?_append_left hj] at hanswer
        obtain ⟨l, hl, first, hfirst, heq⟩ := exists_firstAt hanswer
        refine hany (List.any_eq_true.mpr ⟨first, ih.mem_iff.mpr ⟨l, by omega, hfirst⟩, ?_⟩)
        simpa using heq.trans hname

theorem distinctNames_nodup (imports : List Import) :
    ((distinctNames imports).map fun i => i.qualifiedName).Nodup := by
  have hlisted := listed_distinctNames some imports
  rw [List.filterMap_some] at hlisted
  refine hlisted.nodup_map _ fun j k before i hj hbefore hi => ?_
  exact hi.first j hj before hbefore.answers

end

end Project

end SourceScout
