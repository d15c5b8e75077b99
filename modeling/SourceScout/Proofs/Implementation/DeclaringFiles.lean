import SourceScout.Proofs.Pattern.Searching
import SourceScout.Proofs.Project.DistinctNames
import SourceScout.Proofs.Project.WalkOrder
import SourceScout.Proofs.Text.Words

/-!
# The files that define a type

A file defines a type if it has its name and its text declares it: a keyword, a gap and the name,
with no word character joined to either end. The search keeps exactly these files of a walk.
-/

namespace SourceScout.Implementation

open Pattern Place
open Text (IsGap)

def DeclaresType (keywords : List Text) (name content : Text) : Prop :=
  ∃ before keyword gap after, content = before ++ (keyword ++ (gap ++ (name ++ after))) ∧
    keyword ∈ keywords ∧ IsGap gap ∧ before.getLast?.any isWordChar = false ∧
    Text.isWordEdge name after = true

structure Defines (tree : FileTree) (keywords : List Text) (name : Text) (file : Path) : Prop where
  named : file.name = name ++ sourceEnding
  declared : ∃ content, tree.readText file = .ok content ∧ DeclaresType keywords name content

section

variable {keywords : List Text} {name : Text}

theorem ways_declaration (keywords : List Text) (name : Text) :
    (declaration keywords name).ways =
      (atWordEdge ++ ((anyOf keywords ++ (blanks1 ++ word name)) ++ atWordEdge)).ways := by
  simp only [declaration, ways_append, List.flatMap_assoc]

theorem takes_declaration {t : Text} :
    (anyOf keywords ++ (blanks1 ++ word name)).Takes t ↔
      ∃ keyword ∈ keywords, ∃ gap, IsGap gap ∧ t = keyword ++ (gap ++ name) := by
  constructor
  · rintro ⟨keyword, _, hkeyword, ⟨gap, _, hgap, rfl, rfl⟩, rfl⟩
    exact ⟨keyword, takes_anyOf.mp hkeyword, gap, takes_many1.mp hgap, rfl⟩
  · rintro ⟨keyword, hkeyword, gap, hgap, rfl⟩
    exact ⟨keyword, _, takes_anyOf.mpr hkeyword, ⟨gap, name, takes_many1.mpr hgap, rfl, rfl⟩, rfl⟩

theorem isWordEdge_append_gap {gap : Text} (hgap : IsGap gap) (before name after : Text) :
    Text.isWordEdge (before ++ (gap ++ name)) after = Text.isWordEdge name after := by
  have hlast : (before ++ (gap ++ name)).getLast?.any isWordChar =
      name.getLast?.any isWordChar := by
    rcases List.eq_nil_or_concat name with rfl | ⟨init, c, rfl⟩
    · obtain ⟨init, c, rfl⟩ := (List.eq_nil_or_concat gap).resolve_left hgap.1
      have hc : isBlank c = true := hgap.2 c (by simp)
      simp [not_isWordChar_of_isBlank hc]
    · simp
  rw [Text.isWordEdge, Text.isWordEdge, hlast]

theorem isWordEdge_append_left {keyword : Text} (h : keyword.head?.any isWordChar = true)
    (before after : Text) :
    Text.isWordEdge before (keyword ++ after) = !before.getLast?.any isWordChar := by
  cases keyword with
  | nil => cases h
  | cons c keyword =>
    have hc : isWordChar c = true := h
    simp [Text.isWordEdge, hc]

theorem occursIn_declaration (hkeywords : ∀ keyword ∈ keywords, keyword.head?.any isWordChar = true)
    {content : Text} :
    (declaration keywords name).occursIn content = true ↔ DeclaresType keywords name content := by
  rw [occursIn_iff]
  constructor
  · rintro ⟨before, rest, rfl, q, hq⟩
    rw [ways_declaration] at hq
    obtain ⟨_, hfirst, hq⟩ := mem_ways_append.mp hq
    obtain ⟨rfl, hstart⟩ := (mem_ways_atWordEdge (stands_behind before rest)).mp hfirst
    obtain ⟨m, hm, hq⟩ := mem_ways_append.mp hq
    obtain ⟨taken, htaken, hreads, hstands⟩ := exists_takes_standing (stands_behind before rest) hm
    obtain ⟨keyword, hkeyword, gap, hgap, rfl⟩ := takes_declaration.mp htaken
    obtain ⟨-, hstop⟩ := (mem_ways_atWordEdge hstands).mp hq
    obtain rfl : rest = keyword ++ (gap ++ name) ++ m.rest := hreads.rest
    refine ⟨before, keyword, gap, m.rest, by simp only [List.append_assoc], hkeyword, hgap, ?_, ?_⟩
    · have hedge := isWordEdge_append_left (hkeywords keyword hkeyword) before
        (gap ++ (name ++ m.rest))
      simpa [behind, hedge] using hstart
    · rwa [← List.append_assoc before, isWordEdge_append_gap hgap] at hstop
  · rintro ⟨before, keyword, gap, after, rfl, hkeyword, hgap, hbefore, hafter⟩
    refine ⟨before, keyword ++ (gap ++ (name ++ after)), rfl, ?_⟩
    have hrest : (behind before (keyword ++ (gap ++ (name ++ after)))).rest =
        keyword ++ (gap ++ name) ++ after := by
      simp [behind]
    have hfloating : (anyOf keywords ++ (blanks1 ++ word name)).isFloating = true :=
      Bool.and_eq_true_iff.mpr ⟨isFloating_anyOf keywords, rfl⟩
    obtain ⟨m, hm, hstands, hafter'⟩ := exists_mem_ways_standing hfloating
      (takes_declaration.mpr ⟨keyword, hkeyword, gap, hgap, rfl⟩) (stands_behind before _) hrest
    rw [ways_declaration]
    refine ⟨m, mem_ways_append.mpr ⟨_, (mem_ways_atWordEdge (stands_behind _ _)).mpr ⟨rfl, ?_⟩,
      mem_ways_append.mpr ⟨m, hm, (mem_ways_atWordEdge hstands).mpr ⟨rfl, ?_⟩⟩⟩⟩
    · have hedge := isWordEdge_append_left (hkeywords keyword hkeyword) before
        (gap ++ (name ++ after))
      simpa [behind, hbefore] using hedge
    · rw [hafter', ← List.append_assoc before, isWordEdge_append_gap hgap, hafter]

theorem declaringFiles_eq_ok (hkeywords : ∀ keyword ∈ keywords, keyword.head?.any isWordChar = true)
    {w : Workspace} {root : Path} {files : List Path}
    (hwalk : w.tree.walk w.ignored sourceEnding root = .ok files) :
    ∃ found, declaringFiles w keywords root name = .ok (found.map Path.toText) ∧
      Listed (fun k file => files[k]? = some file ∧ Defines w.tree keywords name file) files.length
        found := by
  refine ⟨_, ?_, (Listed.of_filter (fun file => declares w.tree (declaration keywords name) file &&
    [name ++ sourceEnding].contains file.name) files).congr fun k _ file =>
      and_congr_right fun _ => ?_⟩
  · have hnamed : w.tree.walkNamed w.ignored [name ++ sourceEnding] root =
        .ok (files.filter fun file => [name ++ sourceEnding].contains file.name) := by
      rw [FileTree.walkNamed, ← sourceEnding, hwalk]
      rfl
    rw [declaringFiles, hnamed, ← List.filter_filter]
    rfl
  · have hdeclares : declares w.tree (declaration keywords name) file = true ↔
        ∃ content, w.tree.readText file = .ok content ∧ DeclaresType keywords name content := by
      rw [declares]
      cases hread : w.tree.readText file with
      | error fault => simp
      | ok content => simp [occursIn_declaration hkeywords]
    rw [Bool.and_eq_true, hdeclares, List.contains_iff_mem, List.mem_singleton]
    exact ⟨fun h => ⟨h.2, h.1⟩, fun h => ⟨h.declared, h.named⟩⟩

theorem nodup_map_toText {picked : Path → Prop} {root : Path} {files found : List Path}
    (hnodup : files.Nodup) (hbelow : ∀ file ∈ files, Path.Below root file)
    (h : Listed (fun k file => files[k]? = some file ∧ picked file) files.length found) :
    (found.map Path.toText).Nodup := by
  refine h.nodup_map _ fun j k x y hjk hx hy hsame => ?_
  obtain rfl : x = y := (hbelow x (List.mem_of_getElem? hx.1)).toText_inj
    (hbelow y (List.mem_of_getElem? hy.1)) hsame
  have hj : j < files.length := (List.getElem?_eq_some_iff.mp hx.1).1
  have hsame : j = k := (List.getElem?_inj hj hnodup).mp (hx.1.trans hy.1.symm)
  omega

theorem exists_walk_of_declaringFiles {w : Workspace} {root : Path} {texts : List Text}
    (h : declaringFiles w keywords root name = .ok texts) :
    ∃ files, w.tree.walk w.ignored sourceEnding root = .ok files := by
  cases hwalk : w.tree.walk w.ignored sourceEnding root with
  | ok files => exact ⟨files, rfl⟩
  | error failure =>
    rw [declaringFiles, FileTree.walkNamed, ← sourceEnding, hwalk] at h
    cases h

theorem declaringFiles_eq_error {w : Workspace} {root : Path} (hnul : '\x00' ∈ root.toText) :
    declaringFiles w keywords root name = .error .nulInPath := by
  have hwalk : w.tree.walk w.ignored ".java" root = .error .nulInPath := by
    rw [FileTree.walk, if_pos (by simpa using hnul)]
  rw [declaringFiles, FileTree.walkNamed, hwalk]
  rfl

end

end SourceScout.Implementation
