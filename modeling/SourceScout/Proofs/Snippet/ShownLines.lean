import SourceScout.Proofs.Block.Resolution
import SourceScout.Proofs.FileTree.Rewriting
import SourceScout.Proofs.Text.Parts
import SourceScout.Snippet

/-!
# The lines that a snippet shows

A snippet is a stretch of whole lines of its file. Where the block of the hit is known, the stretch
is the block, and its first line that mentions the item is the hit. Where it is not, a window takes
its place; it has the hit in it exactly if it goes on for at least one line.
-/

namespace SourceScout

namespace Text

def between (ls : List Text) (first last : Nat) : List Text := (ls.take last).drop (first - 1)

theorem getElem?_between (ls : List Text) {first last i : Nat} (h : first - 1 + i < last) :
    (between ls first last)[i]? = ls[first - 1 + i]? := by
  rw [between, List.getElem?_drop, List.getElem?_take_of_lt h]

theorem mem_of_mem_between {ls : List Text} {first last : Nat} {line : Text}
    (h : line ∈ between ls first last) : line ∈ ls :=
  List.mem_of_mem_take (List.mem_of_mem_drop h)

end Text

namespace Snippet

open Text

structure FirstMention (item : Text) (ls : List Text) (hit : Nat) : Prop where
  mentions : ∃ line, ls[hit]? = some line ∧ item <:+: line
  before : ∀ i < hit, ∀ line, ls[i]? = some line → ¬item <:+: line

structure Covers (path item : Text) (ls : List Text) (first last : Nat) (s : Snippet) : Prop where
  startLine_eq : s.startLine = first
  endLine_eq : s.endLine = last
  one_le_first : 1 ≤ first
  last_le : last ≤ ls.length
  code_eq : s.code = unlines (between ls first last)
  toText_eq : s.toText = ("--- File: " : Text) ++ path ++ (" (lines " : Text) ++ ofNat first ++
    ("-" : Text) ++ ofNat last ++ (", item: '" : Text) ++ item ++ ("') ---" : Text) ++
      ("\n\n" : Text) ++ s.code

/-- The hit is one of the lines from number `first` to number `last`, and of those lines it is the
first that mentions the item. -/
structure ShowsHit (item : Text) (hit first last : Nat) (s : Snippet) : Prop where
  first_le : first ≤ hit + 1
  le_last : hit + 1 ≤ last
  mentions : item <:+: s.code
  firstMention : FirstMention item s.code.lines (hit + 1 - first)

theorem hit?_eq_some_iff {item : Text} {ls : List Text} {hit : Nat} :
    hit? item ls = some hit ↔ FirstMention item ls hit := by
  rw [hit?, List.findIdx?_eq_some_iff_getElem]
  constructor
  · rintro ⟨hlt, hpart, hbefore⟩
    refine ⟨⟨_, List.getElem?_eq_getElem hlt, hasPart_iff.mp hpart⟩, ?_⟩
    intro i hi line hline hinfix
    obtain ⟨hlength, rfl⟩ := List.getElem?_eq_some_iff.mp hline
    exact hbefore i hi (hasPart_iff.mpr hinfix)
  · rintro ⟨⟨line, hline, hinfix⟩, hbefore⟩
    obtain ⟨hlt, rfl⟩ := List.getElem?_eq_some_iff.mp hline
    refine ⟨hlt, hasPart_iff.mpr hinfix, ?_⟩
    intro i hi hpart
    exact hbefore i hi _ (List.getElem?_eq_getElem (hi.trans hlt)) (hasPart_iff.mp hpart)

theorem hit?_eq_none_iff {item : Text} {ls : List Text} :
    hit? item ls = none ↔ ∀ line ∈ ls, ¬item <:+: line := by
  rw [hit?, List.findIdx?_eq_none_iff]
  simp only [← hasPart_iff, Bool.not_eq_true]

namespace FirstMention

variable {item : Text} {ls : List Text} {hit first last : Nat}

theorem hit_lt (h : FirstMention item ls hit) : hit < ls.length := by
  obtain ⟨line, hline, -⟩ := h.mentions
  exact (List.getElem?_eq_some_iff.mp hline).1

theorem between (h : FirstMention item ls hit) (hone : 1 ≤ first) (hfirst : first ≤ hit + 1)
    (hlast : hit + 1 ≤ last) :
    FirstMention item (between ls first last) (hit + 1 - first) := by
  obtain ⟨line, hline, hinfix⟩ := h.mentions
  have hplace : first - 1 + (hit + 1 - first) = hit := by omega
  refine ⟨⟨line, ?_, hinfix⟩, ?_⟩
  · rw [getElem?_between ls (by omega), hplace, hline]
  · intro i hi other hother
    rw [getElem?_between ls (by omega)] at hother
    exact h.before (first - 1 + i) (by omega) other hother

theorem not_mem_between (h : FirstMention item ls hit) {line : Text}
    (hline : line ∈ Text.between ls first hit) : ¬item <:+: line := by
  obtain ⟨i, hi⟩ := List.mem_iff_getElem?.mp hline
  have hlt : first - 1 + i < hit := by
    obtain ⟨hlength, -⟩ := List.getElem?_eq_some_iff.mp hi
    rw [Text.between, List.length_drop, List.length_take] at hlength
    omega
  rw [getElem?_between ls hlt] at hi
  exact h.before _ hlt line hi

end FirstMention

/-! ## What is cut out -/

theorem covers_ofBounds (path item : Text) {ls : List Text} {first last : Nat}
    (hlast : last ≤ ls.length) :
    Covers path item ls (first + 1) last (ofBounds path item ls (first, last)) := by
  refine ⟨rfl, rfl, by omega, hlast, ?_, ?_⟩
  · rw [ofBounds, cut_of_nonneg]
    rfl
  · have hstart : ofNat (first + 1) = ofInt ((first : Int) + 1) := rfl
    have hend : ofNat last = ofInt (last : Int) := rfl
    rw [hstart, hend]
    rfl

theorem Covers.showsHit {path item : Text} {content : Text} {hit first last : Nat} {s : Snippet}
    (hcovers : Covers path item content.lines first last s)
    (hhit : FirstMention item content.lines hit) (hfirst : first ≤ hit + 1)
    (hlast : hit + 1 ≤ last) : ShowsHit item hit first last s := by
  have hbetween := hhit.between hcovers.one_le_first hfirst hlast
  obtain ⟨line, hline, hinfix⟩ := hbetween.mentions
  have hmem := List.mem_of_getElem? hline
  have hlines : s.code.lines = between content.lines first last := by
    rw [hcovers.code_eq]
    refine lines_unlines (List.ne_nil_of_mem hmem) fun other hother => ?_
    exact newline_not_mem_of_mem_lines (mem_of_mem_between hother)
  refine ⟨hfirst, hlast, ?_, ?_⟩
  · rw [hcovers.code_eq]
    exact hinfix.trans (infix_join_of_mem hmem)
  · rw [hlines]
    exact hbetween

theorem ofFile_of_readText {w : Workspace} {path content : Text}
    (h : w.tree.readText (.ofText path) = .ok content) (item : Text) (before after : Option Int) :
    ofFile w path item before after =
      .ok (match ofLines? path item content.lines (before.getD w.settings.snippetBefore)
          (after.getD w.settings.snippetAfter) with
        | some snippet => .ok snippet
        | none => .error (.notMentioned path item)) := by
  rw [ofFile, FileTree.isFile_of_readText h]
  simp only [bind, Except.bind, if_true, h]
  cases ofLines? path item content.lines (before.getD w.settings.snippetBefore)
    (after.getD w.settings.snippetAfter) <;> rfl

theorem ofFile_of_firstMention {w : Workspace} {path content item : Text} {hit : Nat}
    (h : w.tree.readText (.ofText path) = .ok content)
    (hhit : FirstMention item content.lines hit) (before after : Option Int) :
    ofFile w path item before after =
      .ok (.ok (ofBounds path item content.lines (bounds content.lines hit
        (before.getD w.settings.snippetBefore) (after.getD w.settings.snippetAfter)))) := by
  rw [ofFile_of_readText h, ofLines?, hit?_eq_some_iff.mpr hhit]
  rfl

theorem ofFile_of_no_mention {w : Workspace} {path content item : Text}
    (h : w.tree.readText (.ofText path) = .ok content)
    (hnone : ∀ line ∈ content.lines, ¬item <:+: line) (before after : Option Int) :
    ofFile w path item before after = .ok (.error (.notMentioned path item)) := by
  rw [ofFile_of_readText h, ofLines?, hit?_eq_none_iff.mpr hnone]
  rfl

theorem bounds_of_around? {ls : List Text} {hit : Nat} {block : Block}
    (h : Block.around? ls hit = some block) (before after : Int) :
    bounds ls hit before after = ((block.first : Int), ((block.last + 1 : Nat) : Int)) := by
  rw [bounds, h]
  rfl

theorem bounds_of_around?_eq_none {ls : List Text} {hit : Nat} (h : Block.around? ls hit = none)
    (before after : Nat) :
    bounds ls hit before after =
      (((hit - before : Nat) : Int), ((min ls.length (hit + after) : Nat) : Int)) := by
  rw [bounds, h]
  dsimp only
  rw [Block.fallbackWindow]
  refine Prod.ext ?_ ?_ <;> dsimp only <;> omega

/-! ## The main statements -/

/-- In a file that can be read, an item has a snippet exactly if a line mentions it. Where the block
of the first such line is known, the snippet has the lines of the block and no others, among them
the hit, which is its first line that mentions the item. -/
theorem ofFile_shows_block (w : Workspace) {path content : Text}
    (hread : w.tree.readText (.ofText path) = .ok content) (item : Text)
    (before after : Option Int) :
    ((∃ s, ofFile w path item before after = .ok (.ok s)) ↔
      ∃ line ∈ content.lines, item <:+: line) ∧
    ((∀ line ∈ content.lines, ¬item <:+: line) →
      ofFile w path item before after = .ok (.error (.notMentioned path item))) ∧
    ∀ hit block, FirstMention item content.lines hit →
      Block.around? content.lines hit = some block →
        ∃ s first last, ofFile w path item before after = .ok (.ok s) ∧
          first = block.first + 1 ∧ last = block.last + 1 ∧
          Covers path item content.lines first last s ∧ ShowsHit item hit first last s := by
  refine ⟨?_, fun hnone => ofFile_of_no_mention hread hnone before after, ?_⟩
  · constructor
    · rintro ⟨s, hs⟩
      by_contra hnone
      have hmissing := ofFile_of_no_mention hread
        (fun line hline hinfix => hnone ⟨line, hline, hinfix⟩) before after
      rw [hs] at hmissing
      cases hmissing
    · rintro ⟨line, hline, hinfix⟩
      cases hhit : hit? item content.lines with
      | none => exact absurd hinfix (hit?_eq_none_iff.mp hhit line hline)
      | some hit =>
        exact ⟨_, ofFile_of_firstMention hread (hit?_eq_some_iff.mp hhit) before after⟩
  · intro hit block hhit hblock
    have hencloses := Block.encloses_of_around? hhit.hit_lt hblock
    have hfirst := hencloses.first_le
    have hlast := hencloses.le_last
    have hfile := ofFile_of_firstMention hread hhit before after
    rw [bounds_of_around? hblock] at hfile
    have hcovers := @covers_ofBounds path item _ block.first _ hencloses.last_lt
    exact ⟨_, _, _, hfile, rfl, rfl, hcovers, hcovers.showsHit hhit (by omega) (by omega)⟩

def sampleFile (content : Text) : Workspace where
  tree := ⟨.directory true true [("A.java", .file true (Utf8.encode content))], []⟩
  home := ⟨.root, ["h"]⟩
  settings := ⟨500, 20, 15, 12, 10, 60, 4, []⟩

def annotated : Text := "int a;\n\n@Test\nvoid run() \x7b\n\x7d\nrun();"

theorem ofFile_shows_block_annotated :
    ∃ s, ofFile (sampleFile annotated) "/A.java" "run" none none = .ok (.ok s) ∧
      s.startLine = 3 ∧ s.endLine = 5 ∧ s.code = "@Test\nvoid run() \x7b\n\x7d" ∧
      FirstMention "run" s.code.lines 1 := by
  have hread : (sampleFile annotated).tree.readText (.ofText "/A.java") = .ok annotated := by
    decide +kernel
  have hhit : FirstMention "run" annotated.lines 3 := hit?_eq_some_iff.mp (by decide +kernel)
  have hblock : Block.around? annotated.lines (3 : Nat) = some ⟨2, 4⟩ := by decide +kernel
  obtain ⟨-, -, hshows⟩ := ofFile_shows_block (sampleFile annotated) hread "run" none none
  obtain ⟨s, first, last, hs, rfl, rfl, hcovers, hhits⟩ := hshows 3 ⟨2, 4⟩ hhit hblock
  refine ⟨s, hs, hcovers.startLine_eq, hcovers.endLine_eq, ?_, hhits.firstMention⟩
  rw [hcovers.code_eq]
  decide +kernel

/-- Where the block is not known, the snippet starts no later than with the hit; the hit is in it
exactly if the window goes on for at least one line, and so is the item, unless it is empty. -/
theorem ofFile_window_shows_hit_iff (w : Workspace) {path content item : Text} {hit : Nat}
    (hread : w.tree.readText (.ofText path) = .ok content)
    (hhit : FirstMention item content.lines hit) (hblock : Block.around? content.lines hit = none)
    {before after : Option Int} {above below : Nat}
    (habove : before.getD w.settings.snippetBefore = above)
    (hbelow : after.getD w.settings.snippetAfter = below) :
    ∃ s first last, ofFile w path item before after = .ok (.ok s) ∧
      Covers path item content.lines first last s ∧
      first = hit - above + 1 ∧ last = min content.lines.length (hit + below) ∧
      first ≤ hit + 1 ∧ (hit + 1 ≤ last ↔ 0 < below) ∧
      (0 < below → ShowsHit item hit first last s) ∧
      (item <:+: s.code ↔ 0 < below ∨ item = []) := by
  have hlt := hhit.hit_lt
  have hfile := ofFile_of_firstMention hread hhit before after
  rw [habove, hbelow, bounds_of_around?_eq_none hblock] at hfile
  have hcovers := @covers_ofBounds path item _ (hit - above) _
    (Nat.min_le_left content.lines.length (hit + below))
  have hshows : 0 < below → ShowsHit item hit (hit - above + 1)
      (min content.lines.length (hit + below)) _ := fun hpos =>
    hcovers.showsHit hhit (by omega) (by omega)
  refine ⟨_, _, _, hfile, hcovers, rfl, rfl, by omega, by omega, hshows, ?_, ?_⟩
  · intro hinfix
    by_contra hneither
    obtain ⟨hzero, hne⟩ := not_or.mp hneither
    obtain ⟨line, hline, hpart⟩ := hhit.mentions
    have hplain : '\n' ∉ item := fun hmem =>
      newline_not_mem_of_mem_lines (List.mem_of_getElem? hline) (hpart.subset hmem)
    have hend : min content.lines.length (hit + below) = hit := by omega
    rw [hcovers.code_eq, hend] at hinfix
    obtain ⟨shown, hshown, hmentions⟩ :=
      (exists_infix_of_infix_unlines hplain hinfix).resolve_left hne
    exact hhit.not_mem_between hshown hmentions
  · rintro (hpos | rfl)
    · exact (hshows hpos).mentions
    · exact List.nil_infix

def unclosed : Text := "int a;\nvoid run() \x7b\nstart();\n"

theorem ofFile_window_shows_hit_iff_unclosed :
    Block.around? unclosed.lines (1 : Nat) = none ∧
      ∃ s, ofFile (sampleFile unclosed) "/A.java" "run" (some 0) (some 2) = .ok (.ok s) ∧
        s.startLine = 2 ∧ s.endLine = 3 ∧ ("run" : Text) <:+: s.code := by
  have hread : (sampleFile unclosed).tree.readText (.ofText "/A.java") = .ok unclosed := by
    decide +kernel
  have hhit : FirstMention "run" unclosed.lines 1 := hit?_eq_some_iff.mp (by decide +kernel)
  have hblock : Block.around? unclosed.lines (1 : Nat) = none := by decide +kernel
  obtain ⟨s, first, last, hs, hcovers, rfl, rfl, -, -, hshows, -⟩ :=
    @ofFile_window_shows_hit_iff (sampleFile unclosed) "/A.java" _ "run" 1 hread hhit hblock
      (some 0) (some 2) 0 2 rfl rfl
  exact ⟨hblock, s, hs, hcovers.startLine_eq, hcovers.endLine_eq, (hshows (by decide)).mentions⟩

/-- A window of no lines is a setting like any other, and it leaves the hit out. -/
theorem ofFile_window_without_hit :
    Setting.snippetBefore.read "0" = .ok (.int 0) ∧ Setting.snippetAfter.read "0" = .ok (.int 0) ∧
      FirstMention "run" (Text.lines "run") 0 ∧
      Block.around? (Text.lines "run") (0 : Nat) = none ∧
      ∃ s, ofFile (sampleFile "run") "/A.java" "run" (some 0) (some 0) = .ok (.ok s) ∧
        ¬(0 + 1 ≤ s.endLine) ∧ ¬("run" : Text) <:+: s.code := by
  have hzero : Numeral.toInt "0" = .ok 0 := by decide +kernel
  refine ⟨?_, ?_, hit?_eq_some_iff.mp (by decide +kernel), by decide +kernel,
    ⟨"/A.java", "run", 1, 0, []⟩, by decide +kernel, by decide, ?_⟩
  · rw [Setting.read, hzero]
    rfl
  · rw [Setting.read, hzero]
    rfl
  · rw [← hasPart_iff]
    decide

end Snippet

end SourceScout
