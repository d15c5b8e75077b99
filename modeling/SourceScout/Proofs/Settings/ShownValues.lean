import SourceScout.CommandLine.Run
import SourceScout.Proofs.Settings.Validity
import SourceScout.Proofs.Text.Margins
import SourceScout.Proofs.Text.Numerals

/-!
# Settings as they are shown

The table of settings shows a number by its digits and a list by its names with commas between them.
Both can be given on the command line: what is read there is shown in a form that is read again, and
as the same value, whatever the form in which it was first written.
-/

namespace SourceScout

theorem CommandLine.namesOf_texts (index : Nat) (names : List Text) :
    namesOf index (names.map .text) = .ok names := by
  induction names generalizing index with
  | nil => rfl
  | cons name names ih =>
    rw [List.map_cons, namesOf, ih]
    rfl

namespace Setting

structure IsListed (name : Text) : Prop where
  ne_nil : name ≠ []
  stripped : name.strip = name
  no_comma : ',' ∉ name

theorem isListed_of_mem_splitNames {raw name : Text} (h : name ∈ splitNames raw) :
    IsListed name := by
  obtain ⟨hmem, hne⟩ := List.mem_filter.mp h
  obtain ⟨piece, hpiece, rfl⟩ := List.mem_map.mp hmem
  refine ⟨by simpa using hne, Text.isTight_iff.mp (Text.isTight_strip piece), ?_⟩
  intro hcomma
  exact Text.not_mem_of_mem_splitOn hpiece ((Text.isInfix_strip piece).subset hcomma)

theorem splitNames_of_isListed {name : Text} (h : IsListed name) : splitNames name = [name] := by
  have hpieces : Text.splitOn ',' name = [name] :=
    @Text.splitOn_join ',' [name] (List.cons_ne_nil _ _)
      (List.forall_mem_singleton.mpr h.no_comma)
  simp [splitNames, hpieces, h.stripped, h.ne_nil]

theorem splitNames_append_comma (left right : Text) :
    splitNames (left ++ ',' :: right) = splitNames left ++ splitNames right := by
  have hpieces : Text.splitOn ',' (left ++ ',' :: right) =
      Text.splitOn ',' left ++ Text.splitOn ',' right := by
    simp only [Text.splitOn_eq, List.splitOn]
    exact List.splitOnP_append_cons left right (beq_self_eq_true ',')
  rw [splitNames, hpieces, List.map_append, List.filter_append]
  rfl

theorem splitNames_space (t : Text) : splitNames (' ' :: t) = splitNames t := by
  have hspace : Text.IsMargin [' '] := by decide
  have hstrip : ∀ piece : Text, Text.strip (' ' :: piece) = piece.strip :=
    fun piece => Text.strip_append_of_isMargin hspace piece
  rw [splitNames, splitNames, Text.splitOn, if_neg (by decide)]
  cases hpieces : Text.splitOn ',' t with
  | nil => exact absurd hpieces (Text.splitOn_ne_nil ',' t)
  | cons piece pieces => simp only [List.map_cons, hstrip]

theorem splitNames_join {names : List Text} (h : ∀ name ∈ names, IsListed name) :
    splitNames (Text.join ", " names) = names := by
  induction names with
  | nil => rfl
  | cons name names ih =>
    obtain ⟨hname, hnames⟩ := List.forall_mem_cons.mp h
    cases names with
    | nil => exact splitNames_of_isListed hname
    | cons next rest =>
      have hjoin : Text.join ", " (name :: next :: rest) =
          name ++ ',' :: ' ' :: Text.join ", " (next :: rest) := by
        rw [Text.join_cons_of_ne_nil _ _ (List.cons_ne_nil _ _), List.append_assoc]
        rfl
      rw [hjoin, splitNames_append_comma, splitNames_space, ih hnames, splitNames_of_isListed hname]
      rfl

section

variable {setting : Setting} {raw : Text} {value : Value}

theorem read_list (hlist : setting.isList = true) (raw : Text) :
    setting.read raw = .ok (.list ((splitNames raw).map .text)) := by
  rw [read, if_pos hlist]

theorem read_number (hlist : setting.isList = false) {n : Nat} (h : Numeral.toInt raw = .ok n) :
    setting.read raw = .ok (.int n) := by
  have hnonneg : ¬(n : Int) < 0 := Int.not_lt.mpr (Int.natCast_nonneg n)
  rw [read, if_neg (by simp [hlist])]
  exact bind_eq_ok.mpr ⟨n, h, if_neg hnonneg⟩

theorem exists_toInt_of_read (hlist : setting.isList = false) (h : setting.read raw = .ok value) :
    ∃ n : Nat, Numeral.toInt raw = .ok n ∧ value = .int n := by
  have hvalid := valid_of_read h
  rw [Valid, if_neg (by simp [hlist])] at hvalid
  obtain ⟨n, rfl⟩ := hvalid
  rw [read, if_neg (by simp [hlist])] at h
  obtain ⟨m, hm, hread⟩ := bind_eq_ok.mp h
  split at hread
  · cases hread
  · cases hread
    exact ⟨n, hm, rfl⟩

theorem readByKey_eq_ok {key : Text} :
    readByKey key raw = .ok value ↔
      ∃ setting, ofKey? key = some setting ∧ setting.read raw = .ok value := by
  rw [readByKey]
  cases ofKey? key with
  | none => simp
  | some setting => simp

end

/-- A value that the command line takes for a key is shown in a form that it takes again, as the
same value. Names in a list are neither empty nor surrounded by blanks, and have no comma. -/
theorem readByKey_settingCell {key raw : Text} {value : Value}
    (h : readByKey key raw = .ok value) :
    ∃ shown, CommandLine.settingCell value = .ok shown ∧ readByKey key shown = .ok value ∧
      ∃ setting, ofKey? key = some setting ∧
        if setting.isList then
          ∃ names : List Text, value = .list (names.map .text) ∧ shown = Text.join ", " names ∧
            ∀ name ∈ names, IsListed name
        else ∃ n : Nat, value = .int n ∧ shown = Text.ofNat n := by
  obtain ⟨setting, hkey, hread⟩ := readByKey_eq_ok.mp h
  cases hlist : setting.isList with
  | true =>
    rw [read_list hlist] at hread
    cases hread
    have hlisted : ∀ name ∈ splitNames raw, IsListed name :=
      fun name hname => isListed_of_mem_splitNames hname
    have hagain : setting.read (Text.join ", " (splitNames raw)) =
        .ok (.list ((splitNames raw).map .text)) := by
      rw [read_list hlist, splitNames_join hlisted]
    refine ⟨_, ?_, readByKey_eq_ok.mpr ⟨setting, hkey, hagain⟩, setting, hkey, ?_⟩
    · rw [CommandLine.settingCell, CommandLine.namesOf_texts]
      rfl
    · rw [if_pos hlist]
      exact ⟨splitNames raw, rfl, rfl, hlisted⟩
  | false =>
    obtain ⟨n, hn, rfl⟩ := exists_toInt_of_read hlist hread
    have hsmall : n < 10 ^ Failure.maxDigits := Numeral.natAbs_lt_of_toInt hn
    have hagain : setting.read (Text.ofNat n) = .ok (.int n) :=
      read_number hlist (Numeral.toInt_ofNat hsmall)
    refine ⟨_, rfl, readByKey_eq_ok.mpr ⟨setting, hkey, hagain⟩, setting, hkey, ?_⟩
    rw [if_neg (by simp [hlist])]
    exact ⟨n, rfl, rfl⟩

theorem readByKey_settingCell_spelled :
    readByKey "max_workers" " +0_1٠\t" = .ok (.int 10) ∧
      ∃ shown, CommandLine.settingCell (.int 10) = .ok shown ∧
        readByKey "max_workers" shown = .ok (.int 10) := by
  have hnumber : Numeral.toInt " +0_1٠\t" = .ok (10 : Nat) := by decide +kernel
  have hkey : ofKey? "max_workers" = some .maxWorkers := by decide +kernel
  have hread : readByKey "max_workers" " +0_1٠\t" = .ok (.int 10) :=
    readByKey_eq_ok.mpr ⟨.maxWorkers, hkey, read_number rfl hnumber⟩
  obtain ⟨shown, hshown, hagain, -⟩ := readByKey_settingCell hread
  exact ⟨hread, shown, hshown, hagain⟩

end Setting

end SourceScout
