import SourceScout.Implementation
import SourceScout.Proofs.Path.WrittenParts

/-!
# The file and the class of an implementation

One rule gives the path where the implementation of a service is expected, another the name of its
class. Only the first looks at directories. It changes them by putting one in, so the base name is
not touched, and the name that it writes is the name of the class. Both rules end there: the path is
not that of a service, and its class is the one that it is named for.
-/

namespace SourceScout

theorem Text.endsWith_append {ending last : Text} (h : ending.length ≤ last.length) (stem : Text) :
    Text.endsWith ending (stem ++ last) = Text.endsWith ending last := by
  rw [Bool.eq_iff_iff, Text.endsWith, Text.endsWith, List.isSuffixOf_iff_suffix,
    List.isSuffixOf_iff_suffix]
  constructor
  · intro hsuffix
    exact List.suffix_of_suffix_length_le hsuffix (List.suffix_append _ _) h
  · intro hsuffix
    exact hsuffix.trans (List.suffix_append _ _)

namespace Implementation

open WrittenPath

def Moves (path : Text) : Prop := serviceDirectory <:+: path ∧ ¬implDirectory <:+: path

def moved (path : Text) : Text :=
  match Text.cutLast? serviceDirectory path with
  | some (head, tail) =>
    if Text.hasPart implDirectory path then path else head ++ implDirectory ++ tail
  | none => path

section

variable {path stem : Text}

theorem moved_eq_self (h : ¬Moves path) : moved path = path := by
  unfold moved
  cases hcut : Text.cutLast? serviceDirectory path with
  | none => rfl
  | some cut =>
    obtain ⟨head, tail⟩ := cut
    have hservice : serviceDirectory <:+: path := by
      by_contra hnot
      rw [Text.cutLast?_eq_none_iff.mpr hnot] at hcut
      cases hcut
    have himpl : implDirectory <:+: path := by
      by_contra hnot
      exact h ⟨hservice, hnot⟩
    exact if_pos (Text.hasPart_iff.mpr himpl)

theorem exists_moved_eq (h : Moves path) : ∃ head tail,
    Text.CutsLast serviceDirectory path head tail ∧ moved path = head ++ implDirectory ++ tail := by
  unfold moved
  cases hcut : Text.cutLast? serviceDirectory path with
  | none => exact absurd h.1 (Text.cutLast?_eq_none_iff.mp hcut)
  | some cut =>
    obtain ⟨head, tail⟩ := cut
    have himpl : ¬Text.hasPart implDirectory path = true := fun hpart =>
      h.2 (Text.hasPart_iff.mp hpart)
    exact ⟨head, tail, Text.cutsLast_of_cutLast? hcut, if_neg himpl⟩

theorem implDirectory_infix_append (head tail : Text) {name : Text} (hname : '/' ∉ name) :
    implDirectory <:+: append (directory (head ++ implDirectory ++ tail)) name := by
  have himpl : implDirectory = ("/service/imp" : Text) ++ ['l'] ++ ['/'] := by decide
  have hpath : head ++ implDirectory ++ tail =
      (head ++ ("/service/imp" : Text)) ++ ['l'] ++ '/' :: tail := by
    rw [himpl]
    simp only [List.append_assoc, List.cons_append, List.nil_append]
  have hprefix := isPrefix_append_directory hname (head ++ ("/service/imp" : Text))
    (show 'l' ≠ '/' by decide) tail
  rw [hpath]
  refine List.IsInfix.trans ⟨head, [], ?_⟩ hprefix.isInfix
  rw [himpl]
  simp only [List.append_assoc, List.append_nil]

theorem expectedPath?_of_baseName (h : baseName path = stem ++ serviceEnding) :
    expectedPath? path =
      some (append (directory (moved path)) (stem ++ ("ServiceImpl.java" : Text))) := by
  have hends : Text.endsWith serviceEnding (baseName path) = true := by
    rw [h, Text.endsWith, List.isSuffixOf_iff_suffix]
    exact List.suffix_append _ _
  have hstem : (baseName path).take ((baseName path).length - serviceEnding.length) = stem := by
    rw [h, List.length_append, Nat.add_sub_cancel, List.take_left]
  unfold expectedPath?
  rw [if_pos hends, hstem]
  rfl

theorem expectedPath?_eq_none (h : Text.endsWith serviceEnding (baseName path) = false) :
    expectedPath? path = none := by
  unfold expectedPath?
  exact if_neg (Bool.eq_false_iff.mp h)

theorem className?_of_baseName {base : Text} (h : baseName path = base ++ sourceEnding) :
    className? path =
      some (if Text.endsWith "Impl" base then base else base ++ ("Impl" : Text)) := by
  have hends : Text.endsWith sourceEnding path = true := by
    rw [Text.endsWith, List.isSuffixOf_iff_suffix]
    refine List.IsSuffix.trans ?_ (isSuffix_baseName path)
    rw [h]
    exact List.suffix_append _ _
  have hbase : (baseName path).take ((baseName path).length - sourceEnding.length) = base := by
    rw [h, List.length_append, Nat.add_sub_cancel, List.take_left]
  unfold className?
  rw [if_pos hends]
  dsimp only
  rw [hbase]

end

/-- The expected path of a service has the name of the class as its base name, and following it once
more leads nowhere else. It lies below the last directory of services, in one of implementations
that is put in there; without such a directory, or if the path has it already, the directory part
stays. -/
theorem expectedPath?_names_class {path : Text}
    (h : Text.endsWith serviceEnding (baseName path) = true) :
    ∃ expected name stem, expectedPath? path = some expected ∧ className? path = some name ∧
      baseName path = stem ++ serviceEnding ∧ name = stem ++ ("ServiceImpl" : Text) ∧
      baseName expected = name ++ sourceEnding ∧ className? expected = some name ∧
      expectedPath? expected = none ∧
      (Moves path → implDirectory <:+: expected ∧
        ∃ head tail, Text.CutsLast serviceDirectory path head tail ∧
          directory expected = directory (head ++ implDirectory ++ tail)) ∧
      (¬Moves path → directory expected = directory path) := by
  obtain ⟨stem, hstem⟩ := List.isSuffixOf_iff_suffix.mp h
  have hservice : baseName path = stem ++ ("Service" : Text) ++ sourceEnding := by
    rw [← hstem, List.append_assoc]
    rfl
  have hfile : stem ++ ("ServiceImpl.java" : Text) =
      stem ++ ("ServiceImpl" : Text) ++ sourceEnding := by
    rw [List.append_assoc]
    rfl
  have hslash : '/' ∉ stem ++ ("ServiceImpl.java" : Text) := by
    have hbase : '/' ∉ baseName path := Text.not_mem_afterLast '/' path
    rw [← hstem, List.mem_append, not_or] at hbase
    rw [List.mem_append, not_or]
    exact ⟨hbase.1, by decide⟩
  have hbase := baseName_append hslash (directory (moved path))
  refine ⟨_, stem ++ ("ServiceImpl" : Text), stem, expectedPath?_of_baseName hstem.symm, ?_,
    hstem.symm, rfl, hbase.trans hfile, ?_, ?_, ?_, ?_⟩
  · rw [className?_of_baseName hservice, Text.endsWith_append (by decide),
      if_neg (by decide), List.append_assoc]
    rfl
  · rw [className?_of_baseName (hbase.trans hfile), Text.endsWith_append (by decide),
      if_pos (by decide)]
  · apply expectedPath?_eq_none
    rw [hbase, Text.endsWith_append (by decide)]
    decide
  · intro hmoves
    obtain ⟨head, tail, hcut, hmoved⟩ := exists_moved_eq hmoves
    rw [hmoved]
    exact ⟨implDirectory_infix_append head tail hslash, head, tail, hcut,
      directory_append hslash (isTrimmed_directory _)⟩
  · intro hstays
    rw [moved_eq_self hstays]
    exact directory_append hslash (isTrimmed_directory _)

def nestedService : Text := "/service//service//XService.java"

theorem expectedPath?_names_class_nestedService :
    ∃ expected, expectedPath? nestedService = some expected ∧
      expected = "/service//service/impl/XServiceImpl.java" ∧
      className? expected = some "XServiceImpl" ∧ expectedPath? expected = none ∧
      implDirectory <:+: expected := by
  have hclass : className? nestedService = some "XServiceImpl" := by decide +kernel
  have hpath : expectedPath? nestedService = some "/service//service/impl/XServiceImpl.java" := by
    decide +kernel
  have hmoves : Moves nestedService := by
    constructor
    · exact Text.hasPart_iff.mp (by decide +kernel)
    · exact fun himpl => absurd (Text.hasPart_iff.mpr himpl) (by decide +kernel)
  obtain ⟨expected, name, -, hexpected, hname, -, -, -, hsame, hends, hplace, -⟩ :=
    @expectedPath?_names_class nestedService (by decide +kernel)
  cases hpath.symm.trans hexpected
  cases hclass.symm.trans hname
  exact ⟨_, hpath, rfl, hsame, hends, (hplace hmoves).1⟩

end Implementation

end SourceScout
