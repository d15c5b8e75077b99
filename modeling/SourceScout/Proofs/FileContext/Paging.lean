import Mathlib.Data.List.TakeWhile
import SourceScout.FileContext
import SourceScout.Proofs.FileTree.Rewriting
import SourceScout.Proofs.Text.Parts

/-!
# Pages of a file

The context of a file shows a window of its lines and says in its header which lines these are. The
windows that start at lines 1, 1 + size, 1 + 2 · size and so on show the text of the file once: put
together they are the text, and no line is in two of them.
-/

namespace SourceScout.FileContext

open Text

def numbered (ls : List Text) (first last : Nat) : List (Text × Nat) :=
  (ls.zipIdx 1).filter fun line => first ≤ line.2 && line.2 ≤ last

def source (window : List (Text × Nat)) : Text := unlines (window.map (·.1))

/-- A context that says it has the lines from number `first` to number `last` and shows them, with
`used` between its header and the lines. -/
def page (path : Text) (used ls : List Text) (first last : Nat) : Text :=
  unlines (["[FILE_PATH]: " ++ path, "[PAGINATION]: Lines " ++ ofNat first ++ "-" ++ ofNat last ++
    " (Total " ++ ofNat ls.length ++ ")"] ++ used ++
      [[], "[SOURCE_CODE]:", source (numbered ls first last)])

/-! ## The lines of a window -/

theorem map_fst_filter_zipIdx (ls : List Text) (k first last : Nat) :
    ((ls.zipIdx k).filter fun line => first ≤ line.2 && line.2 ≤ last).map (·.1) =
      (ls.take (last + 1 - k)).drop (first - k) := by
  induction ls generalizing k with
  | nil => simp
  | cons line ls ih =>
    rw [List.zipIdx_cons, List.filter_cons]
    by_cases hlast : k ≤ last
    · have htake : last + 1 - k = last + 1 - (k + 1) + 1 := by omega
      rw [htake, List.take_succ_cons]
      by_cases hfirst : first ≤ k
      · have hhere : first - k = 0 := by omega
        have hnext : first - (k + 1) = 0 := by omega
        simp [hfirst, hlast, ih, hhere, hnext]
      · have hdrop : first - k = first - (k + 1) + 1 := by omega
        simp [hfirst, ih, hdrop]
    · have htake : last + 1 - k = 0 := by omega
      have hnext : last + 1 - (k + 1) = 0 := by omega
      simp [hlast, ih, htake, hnext]

theorem source_numbered (ls : List Text) (first last : Nat) :
    source (numbered ls first last) = unlines ((ls.take last).drop (first - 1)) := by
  rw [source, numbered, map_fst_filter_zipIdx, Nat.add_sub_cancel]

theorem mem_numbered_iff {ls : List Text} {first last : Nat} {line : Text × Nat} :
    line ∈ numbered ls first last ↔ line ∈ ls.zipIdx 1 ∧ first ≤ line.2 ∧ line.2 ≤ last := by
  simp [numbered]

theorem windowLines_eq (ls : List Text) {first : Nat} (h : 1 ≤ first) (last : Nat) :
    unlines (windowLines ls (first, last)) = source (numbered ls first last) := by
  have hstart : (first : Int) - 1 = ((first - 1 : Nat) : Int) := by omega
  rw [source_numbered, windowLines, hstart, cut_of_nonneg]

/-! ## What a context shows -/

theorem given?_of_pos {n : Nat} (h : 1 ≤ n) : given? (some (n : Int)) = some (n : Int) := by
  have hne : n ≠ 0 := by omega
  simp [given?, hne]

theorem pageWindow_of_stop (size : Int) (total : Nat) {first last : Nat} (hfirst : 1 ≤ first)
    (hlast : 1 ≤ last) :
    pageWindow size total (some (first : Int)) (some (last : Int)) =
      ((first : Int), ((min last total : Nat) : Int)) := by
  rw [pageWindow, given?_of_pos hfirst, given?_of_pos hlast]
  simp only [Option.getD_some, Prod.mk.injEq]
  omega

theorem pageWindow_of_no_stop (size total : Nat) {first : Nat} (hfirst : 1 ≤ first) :
    pageWindow size total (some (first : Int)) none =
      ((first : Int), ((min total (first + size - 1) : Nat) : Int)) := by
  rw [pageWindow, given?_of_pos hfirst]
  simp only [given?, Option.filter_none, Option.getD_some, Prod.mk.injEq]
  omega

theorem ofFile_of_readText {w : Workspace} {path content : Text}
    (h : w.tree.readText (.ofText path) = .ok content) (start stop : Option Int) :
    ofFile w path start stop = ofContent w path content start stop := by
  rw [ofFile, FileTree.isFile_of_readText h]
  simp only [bind, Except.bind, if_true, h]

theorem exists_sectionsOfFile {w : Workspace} {path content out : Text} {start stop : Option Int}
    (h : ofContent w path content start stop = .ok out) :
    ∃ used, sectionsOfFile w path content = .ok used := by
  obtain ⟨used, hused, -⟩ := bind_eq_ok.mp h
  exact ⟨used, hused⟩

theorem ofContent_eq_page {w : Workspace} {path content : Text} {used : List Text}
    {start stop : Option Int} {first last : Nat}
    (hused : sectionsOfFile w path content = .ok used) (hfirst : 1 ≤ first)
    (hwindow : pageWindow w.settings.defaultWindow content.lines.length start stop =
      ((first : Int), (last : Int))) :
    ofContent w path content start stop = .ok (page path used content.lines first last) := by
  rw [ofContent, hused, page, ← windowLines_eq _ hfirst, hwindow]
  rfl

/-! ## Pages in order -/

theorem take_eq_flatMap (ls : List Text) (size count : Nat) :
    ls.take (count * size) =
      (List.range count).flatMap fun k => (ls.drop (k * size)).take size := by
  induction count with
  | zero => simp
  | succ count ih =>
    rw [Nat.succ_mul, List.take_add, ih, List.range_succ, List.flatMap_append]
    simp

theorem exists_pageCount {size : Nat} (hsize : 1 ≤ size) (total : Nat) :
    ∃ count, (∀ k, k < count ↔ 1 + k * size ≤ total) ∧ total ≤ count * size := by
  refine ⟨(total + size - 1) / size, fun k => ?_, ?_⟩
  · rw [Nat.lt_iff_add_one_le, Nat.le_div_iff_mul_le hsize, Nat.succ_mul]
    omega
  · have hdiv := Nat.div_add_mod (total + size - 1) size
    have hmod := Nat.mod_lt (total + size - 1) hsize
    rw [Nat.mul_comm]
    omega

theorem source_page (ls : List Text) (size k : Nat) :
    source (numbered ls (1 + k * size) (min ls.length (k * size + size))) =
      unlines ((ls.drop (k * size)).take size) := by
  have hstart : 1 + k * size - 1 = k * size := by omega
  have hstop : ls.take (min ls.length (k * size + size)) = ls.take (k * size + size) := by
    rcases Nat.le_total ls.length (k * size + size) with hle | hle
    · rw [Nat.min_eq_left hle, List.take_length, List.take_of_length_le hle]
    · rw [Nat.min_eq_right hle]
  rw [source_numbered, hstart, hstop, List.drop_take, Nat.add_sub_cancel_left]

theorem unlines_pages {content : Text} {size count : Nat} (hsize : 1 ≤ size)
    (hcount : ∀ k, k < count ↔ 1 + k * size ≤ content.lines.length)
    (hall : content.lines.length ≤ count * size) :
    unlines ((List.range count).map fun k =>
      unlines ((content.lines.drop (k * size)).take size)) = content := by
  have hne : ∀ group ∈ (List.range count).map fun k => (content.lines.drop (k * size)).take size,
      group ≠ [] := by
    intro group hgroup
    obtain ⟨k, hk, rfl⟩ := List.mem_map.mp hgroup
    have hinside := (hcount k).mp (List.mem_range.mp hk)
    apply List.ne_nil_of_length_pos
    rw [List.length_take, List.length_drop]
    omega
  have hjoin := join_map_join ['\n'] hne
  rw [List.map_map] at hjoin
  refine hjoin.trans ?_
  rw [← List.flatMap_def, ← take_eq_flatMap, List.take_of_length_le hall]
  exact unlines_lines content

theorem existsUnique_page {ls : List Text} {size count : Nat} (hsize : 1 ≤ size)
    (hcount : ∀ k, k < count ↔ 1 + k * size ≤ ls.length) {line : Text × Nat}
    (hline : line ∈ ls.zipIdx 1) :
    ∃! k, k < count ∧ line ∈ numbered ls (1 + k * size) (min ls.length (k * size + size)) := by
  have hfirst : 1 ≤ line.2 := List.le_snd_of_mem_zipIdx hline
  have hlast : line.2 < 1 + ls.length := List.snd_lt_add_of_mem_zipIdx hline
  have hdiv := Nat.div_add_mod (line.2 - 1) size
  have hmod := Nat.mod_lt (line.2 - 1) hsize
  rw [Nat.mul_comm] at hdiv
  refine ⟨(line.2 - 1) / size, ⟨(hcount _).mpr (by omega), mem_numbered_iff.mpr ⟨hline, ?_⟩⟩, ?_⟩
  · omega
  · rintro k ⟨-, hk⟩
    obtain ⟨-, hle, hge⟩ := mem_numbered_iff.mp hk
    symm
    apply Nat.div_eq_of_lt_le
    · omega
    · rw [Nat.succ_mul]
      omega

/-! ## The main statement -/

/-- The pages of a file that can be read. Whatever window is asked for, the context says which lines
it shows and shows them; the pages of the default size put together are the text of the file, and
each line is on exactly one of them. -/
theorem ofFile_pages (w : Workspace) {path content out : Text} {start stop : Option Int}
    (hread : w.tree.readText (.ofText path) = .ok content)
    (hout : ofFile w path start stop = .ok out) :
    ∃ used, sectionsOfFile w path content = .ok used ∧
      (∀ size : Nat, 1 ≤ size → w.settings.defaultWindow = size →
        ∃ count, (∀ k, k < count ↔ 1 + k * size ≤ content.lines.length) ∧
          (∀ k < count, ofFile w path (some ((1 + k * size : Nat) : Int)) none =
            .ok (page path used content.lines (1 + k * size)
              (min content.lines.length (k * size + size)))) ∧
          unlines ((List.range count).map fun k => source (numbered content.lines (1 + k * size)
            (min content.lines.length (k * size + size)))) = content ∧
          ∀ line ∈ content.lines.zipIdx 1, ∃! k, k < count ∧
            line ∈ numbered content.lines (1 + k * size)
              (min content.lines.length (k * size + size))) ∧
      ∀ first last : Nat, 1 ≤ first → 1 ≤ last →
        ofFile w path (some (first : Int)) (some (last : Int)) =
          .ok (page path used content.lines first (min last content.lines.length)) := by
  rw [ofFile_of_readText hread] at hout
  obtain ⟨used, hused⟩ := exists_sectionsOfFile hout
  refine ⟨used, hused, ?_, ?_⟩
  · intro size hsize hsetting
    obtain ⟨count, hcount, hall⟩ := exists_pageCount hsize content.lines.length
    refine ⟨count, hcount, ?_, ?_, fun line hline => existsUnique_page hsize hcount hline⟩
    · intro k _
      have hstop : k * size + size = 1 + k * size + size - 1 := by omega
      rw [ofFile_of_readText hread, hstop]
      apply ofContent_eq_page hused (by omega)
      rw [hsetting]
      exact pageWindow_of_no_stop size content.lines.length (by omega)
    · simp only [source_page]
      exact unlines_pages hsize hcount hall
  · intro first last hfirst hlast
    rw [ofFile_of_readText hread]
    exact ofContent_eq_page hused hfirst (pageWindow_of_stop _ _ hfirst hlast)

def fiveLines : Text := "a\nb\nc\nd\ne"

def sampleFile : Workspace where
  tree := ⟨.directory true true [("A.txt", .file true (Utf8.encode fiveLines))], []⟩
  home := ⟨.root, ["h"]⟩
  settings := ⟨2, 20, 15, 12, 10, 60, 4, []⟩

theorem ofFile_pages_sampleFile :
    ofFile sampleFile "/A.txt" (some 5) none =
        .ok "[FILE_PATH]: /A.txt\n[PAGINATION]: Lines 5-5 (Total 5)\n\n[SOURCE_CODE]:\ne" ∧
      ofFile sampleFile "/A.txt" (some 2) (some 9) =
        .ok "[FILE_PATH]: /A.txt\n[PAGINATION]: Lines 2-5 (Total 5)\n\n[SOURCE_CODE]:\nb\nc\nd\ne" ∧
      ∃ count, (∀ k, k < count ↔ 1 + k * 2 ≤ 5) ∧
        unlines ((List.range count).map fun k => source (numbered fiveLines.lines (1 + k * 2)
          (min 5 (k * 2 + 2)))) = fiveLines := by
  have hread : sampleFile.tree.readText (.ofText "/A.txt") = .ok fiveLines := by decide +kernel
  have hunused : sectionsOfFile sampleFile "/A.txt" fiveLines = .ok [] := by decide +kernel
  have hok : (ofFile sampleFile "/A.txt" none none).isOk = true := by decide +kernel
  cases hout : ofFile sampleFile "/A.txt" none none with
  | error failure =>
    rw [hout] at hok
    cases hok
  | ok out =>
    obtain ⟨used, hused, hpages, hwindow⟩ := ofFile_pages sampleFile hread hout
    cases hunused.symm.trans hused
    obtain ⟨count, hcount, hshown, hjoined, -⟩ := hpages 2 (by decide) rfl
    have hlength : fiveLines.lines.length = 5 := by decide +kernel
    rw [hlength] at hcount hshown hjoined
    refine ⟨(hshown 2 ((hcount 2).mpr (by decide))).trans ?_,
      (hwindow 2 9 (by decide) (by decide)).trans ?_, count, hcount, hjoined⟩
    · decide +kernel
    · decide +kernel

end SourceScout.FileContext
