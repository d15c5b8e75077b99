import SourceScout.Proofs.Block.Braces
import SourceScout.Proofs.Block.Signature

/-!
# Which block a line belongs to

The end of a block is fixed by the first line from the hit on that has a `{` or a `;`. `Ends` says
so without a scan, and it says one thing only: the scans answer with an end exactly if it is the end
that `Ends` gives.
-/

namespace SourceScout.Block

def Stops (line : Text) : Prop := '{' ∈ line ∨ ';' ∈ line

structure FirstStop (lines : List Text) (hit k : Nat) (line : Text) : Prop where
  hit_le : hit ≤ k
  line_eq : lines[k]? = some line
  stops : Stops line
  before : ∀ i, hit ≤ i → i < k → ∀ earlier, lines[i]? = some earlier → ¬Stops earlier

def NeverStops (lines : List Text) (hit : Nat) : Prop :=
  ∀ i, hit ≤ i → ∀ line, lines[i]? = some line → ¬Stops line

inductive Ends (lines : List Text) (hit : Nat) : Option Nat → Prop where
  | never (h : NeverStops lines hit) : Ends lines hit none
  | bodyless {k : Nat} {line : Text} (h : FirstStop lines hit k line) (hopen : '{' ∉ line) :
      Ends lines hit (some k)
  | closed {k place last : Nat} {line : Text} (h : FirstStop lines hit k line)
      (hopen : '{' ∈ line) (hfirst : ClosesFirst lines.flatten (lineStart lines k) place)
      (hline : OnLine lines place last) : Ends lines hit (some last)
  | unclosed {k : Nat} {line : Text} (h : FirstStop lines hit k line) (hopen : '{' ∈ line)
      (hnever : ∀ place, ¬Closes lines.flatten (lineStart lines k) place) : Ends lines hit none

theorem opens_iff {line : Text} : opens line = true ↔ '{' ∈ line := by simp [opens]

theorem opens_eq_false {line : Text} (h : '{' ∉ line) : opens line = false := by
  simpa [opens] using h

theorem terminates_iff {line : Text} : terminates line = true ↔ ';' ∈ line := by simp [terminates]

theorem terminates_eq_false {line : Text} (h : ';' ∉ line) : terminates line = false := by
  simpa [terminates] using h

/-! ## The scans -/

theorem neverStops_or_exists_firstStop (lines : List Text) (hit : Nat) :
    NeverStops lines hit ∨ ∃ k line, FirstStop lines hit k line := by
  classical
  by_cases h : ∃ k, hit ≤ k ∧ ∃ line, lines[k]? = some line ∧ Stops line
  · obtain ⟨hle, line, hline, hstops⟩ := Nat.find_spec h
    refine .inr ⟨Nat.find h, line, hle, hline, hstops, ?_⟩
    intro i hi hlt earlier hearlier hstop
    exact Nat.find_min h hlt ⟨hi, earlier, hearlier, hstop⟩
  · left
    intro i hi line hline hstop
    exact h ⟨i, hi, line, hline, hstop⟩

theorem FirstStop.drop_eq {lines : List Text} {hit k : Nat} {line : Text}
    (h : FirstStop lines hit k line) :
    ∃ skipped, lines.drop hit = skipped ++ line :: lines.drop (k + 1) ∧
      k = hit + skipped.length ∧ ∀ earlier ∈ skipped, ¬Stops earlier := by
  obtain ⟨n, rfl⟩ := Nat.exists_eq_add_of_le h.hit_le
  obtain ⟨hlt, hget⟩ := List.getElem?_eq_some_iff.mp h.line_eq
  refine ⟨(lines.drop hit).take n, ?_, ?_, ?_⟩
  · rw [← hget, ← List.drop_eq_getElem_cons hlt, ← List.drop_drop, List.take_append_drop]
  · rw [List.length_take, List.length_drop]
    omega
  · intro earlier hmem
    obtain ⟨i, hi, hat⟩ := List.mem_iff_getElem.mp hmem
    have hin : i < n := by
      rw [List.length_take] at hi
      omega
    have hget : lines[hit + i]? = some earlier := by
      rw [← List.getElem?_drop, ← List.getElem?_take_of_lt hin, ← hat]
      exact List.getElem?_eq_getElem hi
    exact h.before (hit + i) (by omega) (by omega) earlier hget

theorem declarationEndFrom?_append {skipped rest : List Text} {index : Nat}
    (h : ∀ line ∈ skipped, ¬Stops line) :
    declarationEndFrom? index (skipped ++ rest) =
      declarationEndFrom? (index + skipped.length) rest := by
  induction skipped generalizing index with
  | nil => rfl
  | cons line skipped ih =>
    have hline := h line List.mem_cons_self
    have hopen := opens_eq_false fun hmem => hline (.inl hmem)
    have hterm := terminates_eq_false fun hmem => hline (.inr hmem)
    rw [List.cons_append, declarationEndFrom?, hopen, hterm,
      ih fun line hmem => h line (List.mem_cons_of_mem _ hmem), List.length_cons]
    simp only [Bool.false_eq_true, if_false]
    congr 1
    omega

theorem NeverStops.drop {lines : List Text} {hit : Nat} (h : NeverStops lines hit) :
    ∀ line ∈ lines.drop hit, ¬Stops line := by
  intro line hmem
  obtain ⟨i, hi, hat⟩ := List.mem_iff_getElem.mp hmem
  apply h (hit + i) (Nat.le_add_right _ _)
  rw [← List.getElem?_drop, ← hat]
  exact List.getElem?_eq_getElem hi

theorem findIdx?_opens_eq_none {lines : List Text} (h : ∀ line ∈ lines, ¬Stops line) :
    lines.findIdx? opens = none := by
  rw [List.findIdx?_eq_none_iff]
  exact fun line hmem => opens_eq_false fun hopen => h line hmem (.inl hopen)

theorem NeverStops.lastLine?_eq {lines : List Text} {hit : Nat} (h : NeverStops lines hit) :
    lastLine? lines hit = none := by
  have hend : declarationEnd? lines hit = none := by
    have happend := @declarationEndFrom?_append _ [] hit h.drop
    rwa [List.append_nil] at happend
  rw [lastLine?, hend, openLine?, findIdx?_opens_eq_none h.drop]
  rfl

namespace FirstStop

variable {lines : List Text} {hit k : Nat} {line : Text}

theorem declarationEnd?_eq (h : FirstStop lines hit k line) :
    declarationEnd? lines hit = if opens line then none else some k := by
  obtain ⟨skipped, hdrop, rfl, hskipped⟩ := h.drop_eq
  rw [declarationEnd?, hdrop, declarationEndFrom?_append hskipped, declarationEndFrom?]
  split
  · rfl
  · rename_i hopen
    have hterm : terminates line = true :=
      terminates_iff.mpr (h.stops.resolve_left fun hmem => hopen (opens_iff.mpr hmem))
    rw [if_pos hterm]

theorem openLine?_eq (h : FirstStop lines hit k line) (hopen : '{' ∈ line) :
    openLine? lines hit = some k := by
  obtain ⟨skipped, hdrop, rfl, hskipped⟩ := h.drop_eq
  rw [openLine?, hdrop, List.findIdx?_append, findIdx?_opens_eq_none hskipped,
    List.findIdx?_cons, opens_iff.mpr hopen]
  simp

theorem lastLine?_eq_of_not_opens (h : FirstStop lines hit k line) (hopen : '{' ∉ line) :
    lastLine? lines hit = some k := by
  rw [lastLine?, h.declarationEnd?_eq, opens_eq_false hopen]
  rfl

theorem lastLine?_eq_of_opens (h : FirstStop lines hit k line) (hopen : '{' ∈ line) :
    lastLine? lines hit = closeLine? lines k := by
  rw [lastLine?, h.declarationEnd?_eq, opens_iff.mpr hopen, h.openLine?_eq hopen]
  rfl

end FirstStop

/-! ## The end of a block -/

theorem lastLine?_ends (lines : List Text) (hit : Nat) : Ends lines hit (lastLine? lines hit) := by
  rcases neverStops_or_exists_firstStop lines hit with hnever | ⟨k, line, hfirst⟩
  · rw [hnever.lastLine?_eq]
    exact .never hnever
  · by_cases hopen : '{' ∈ line
    · rw [hfirst.lastLine?_eq_of_opens hopen]
      cases hclose : closeLine? lines k with
      | none => exact .unclosed hfirst hopen (closeLine?_eq_none_iff.mp hclose)
      | some last =>
        obtain ⟨place, hplace, hline⟩ := closeLine?_eq_some_iff.mp hclose
        exact .closed hfirst hopen hplace hline
    · rw [hfirst.lastLine?_eq_of_not_opens hopen]
      exact .bodyless hfirst hopen

theorem Ends.eq_lastLine? {lines : List Text} {hit : Nat} {last : Option Nat}
    (h : Ends lines hit last) : lastLine? lines hit = last := by
  cases h with
  | never h => exact h.lastLine?_eq
  | bodyless h hopen => exact h.lastLine?_eq_of_not_opens hopen
  | closed h hopen hfirst hline =>
    rw [h.lastLine?_eq_of_opens hopen]
    exact closeLine?_eq_some_iff.mpr ⟨_, hfirst, hline⟩
  | unclosed h hopen hnever =>
    rw [h.lastLine?_eq_of_opens hopen]
    exact closeLine?_eq_none_iff.mpr hnever

theorem lastLine?_eq_iff {lines : List Text} {hit : Nat} {last : Option Nat} :
    lastLine? lines hit = last ↔ Ends lines hit last := by
  constructor
  · rintro rfl
    exact lastLine?_ends lines hit
  · exact Ends.eq_lastLine?

theorem Ends.bounds {lines : List Text} {hit last : Nat} (h : Ends lines hit (some last)) :
    hit ≤ last ∧ last < lines.length := by
  cases h with
  | bodyless h _ => exact ⟨h.hit_le, (List.getElem?_eq_some_iff.mp h.line_eq).1⟩
  | closed h _ hfirst hline =>
    have hclose := closeLine?_eq_some_iff.mpr ⟨_, hfirst, hline⟩
    exact ⟨h.hit_le.trans (closesFirst_of_closeLine?_eq_some hclose).1, hline.lt_length⟩

/-! ## The block around a line -/

structure Encloses (lines : List Text) (hit : Nat) (block : Block) : Prop where
  first_le : block.first ≤ hit
  le_last : hit ≤ block.last
  last_lt : block.last < lines.length
  signature : ∀ i, block.first ≤ i → i < hit → ∀ line, lines[i]? = some line →
    isSignatureLine line = true
  top_not_blank : block.first < hit → ∀ line, lines[block.first]? = some line →
    Text.isBlankLine line = false
  run_above_blank : ∀ i < block.first,
    (∀ j, i ≤ j → j < block.first → ∀ line, lines[j]? = some line → isSignatureLine line = true) →
    ∀ line, lines[i]? = some line → Text.isBlankLine line = true

theorem around?_of_lt {lines : List Text} {hit : Nat} (h : hit < lines.length) :
    around? lines hit = (lastLine? lines hit).map (⟨signatureStart lines hit, ·⟩) := by
  rw [around?, if_pos ⟨by omega, by omega⟩, Int.toNat_natCast]

theorem encloses_signatureStart {lines : List Text} {hit last : Nat} (hhit : hit < lines.length)
    (hlast : Ends lines hit (some last)) :
    Encloses lines hit ⟨signatureStart lines hit, last⟩ := by
  have hstart := startsSignature_signatureStart hhit.le
  exact
    { first_le := hstart.start_le
      le_last := hlast.bounds.1
      last_lt := hlast.bounds.2
      signature := hstart.signature
      top_not_blank := hstart.top_not_blank
      run_above_blank := hstart.above_blank }

theorem encloses_of_around? {lines : List Text} {hit : Nat} (hlt : hit < lines.length)
    {block : Block} (h : around? lines hit = some block) : Encloses lines hit block := by
  rw [around?_of_lt hlt] at h
  obtain ⟨last, hlast, rfl⟩ := Option.map_eq_some_iff.mp h
  exact encloses_signatureStart hlt (lastLine?_eq_iff.mp hlast)

/-- The block around a line: there is none for a hit outside the lines; its end is the one that the
first deciding line gives; and it starts with the signature that stands directly above the hit. -/
theorem around?_resolves (lines : List Text) (hit : Int) :
    (¬(0 ≤ hit ∧ hit < lines.length) → around? lines hit = none) ∧
    (0 ≤ hit ∧ hit < lines.length →
      ∀ last, (around? lines hit).map Block.last = last ↔ Ends lines hit.toNat last) ∧
    ∀ block, around? lines hit = some block → Encloses lines hit.toNat block := by
  by_cases hrange : 0 ≤ hit ∧ hit < lines.length
  · obtain ⟨n, rfl⟩ := Int.eq_ofNat_of_zero_le hrange.1
    have hn : n < lines.length := by omega
    refine ⟨fun h => absurd hrange h, fun _ last => ?_, fun block hblock => ?_⟩
    · rw [around?_of_lt hn, Option.map_map, Int.toNat_natCast, ← lastLine?_eq_iff]
      exact Eq.congr_left Option.map_id'
    · rw [around?_of_lt hn] at hblock
      obtain ⟨last, hlast, rfl⟩ := Option.map_eq_some_iff.mp hblock
      exact encloses_signatureStart hn (lastLine?_eq_iff.mp hlast)
  · have hnone : around? lines hit = none := if_neg hrange
    refine ⟨fun _ => hnone, fun h => absurd h hrange, fun block hblock => ?_⟩
    rw [hnone] at hblock
    cases hblock

theorem around?_resolves_annotated :
    around? [['}'], [], ['@', 'A'], ['f', '{'], ['}']] 3 = some ⟨2, 4⟩ ∧
      Ends [['}'], [], ['@', 'A'], ['f', '{'], ['}']] 3 (some 4) ∧
      Encloses [['}'], [], ['@', 'A'], ['f', '{'], ['}']] 3 ⟨2, 4⟩ := by
  have hblock : around? [['}'], [], ['@', 'A'], ['f', '{'], ['}']] 3 = some ⟨2, 4⟩ := by decide
  obtain ⟨-, hend, hencloses⟩ := around?_resolves [['}'], [], ['@', 'A'], ['f', '{'], ['}']] 3
  refine ⟨hblock, (hend (by decide) (some 4)).mp ?_, hencloses ⟨2, 4⟩ hblock⟩
  rw [hblock]
  rfl

end SourceScout.Block
