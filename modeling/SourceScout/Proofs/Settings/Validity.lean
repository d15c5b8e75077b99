import SourceScout.Proofs.FileTree.Rewriting
import SourceScout.Proofs.Settings.Sameness
import SourceScout.Proofs.Text.EncodedText

/-!
# Valid settings

On the command line a number is never negative and a list has nothing but texts in it. A settings
file is asked only for the kind of a value, so truth values, negative numbers and lists of anything
get through. All but lists and tables inside the list of directory names can be put in force.
-/

namespace SourceScout

namespace Document

def stored? (document : Document) (key : Text) : Option Value :=
  (Value.get? Setting.sectionName document).bind (Value.below? (.key key))

end Document

namespace Setting

def Valid (setting : Setting) (value : Value) : Prop :=
  if setting.isList then ∃ names : List Text, value = .list (names.map .text)
  else ∃ n : Nat, value = .int n

/-- The values that have the kind of a setting and are not valid. -/
inductive Lapse (setting : Setting) : Value → Prop
  | truth (h : setting.isList = false) (b : Bool) : Lapse setting (.bool b)
  | negative (h : setting.isList = false) {n : Int} (hn : n < 0) : Lapse setting (.int n)
  | mixed (h : setting.isList = true) {items : List Value} {item : Value} (hitem : item ∈ items)
      (hother : ∀ name, item ≠ .text name) : Lapse setting (.list items)

section

variable {setting : Setting} {value : Value}

theorem valid_default (setting : Setting) : setting.Valid setting.default := by
  cases setting with
  | defaultWindow => exact ⟨500, rfl⟩
  | maxListedImports => exact ⟨20, rfl⟩
  | maxModelImports => exact ⟨15, rfl⟩
  | maxDependencyOutlines => exact ⟨12, rfl⟩
  | snippetBefore => exact ⟨10, rfl⟩
  | snippetAfter => exact ⟨60, rfl⟩
  | maxWorkers => exact ⟨4, rfl⟩
  | extraIgnoreDirs => exact ⟨[], rfl⟩

theorem valid_of_read {raw : Text} (h : setting.read raw = .ok value) : setting.Valid value := by
  rw [read] at h
  rw [Valid]
  split at h
  · rename_i hlist
    cases h
    rw [if_pos hlist]
    exact ⟨splitNames raw, rfl⟩
  · rename_i hnumber
    obtain ⟨n, -, hn⟩ := bind_eq_ok.mp h
    rw [if_neg hnumber]
    split at hn
    · cases hn
    · rename_i hnonneg
      cases hn
      exact ⟨n.toNat, by rw [Int.toNat_of_nonneg (Int.not_lt.mp hnonneg)]⟩

theorem accepts_of_valid (h : setting.Valid value) : setting.accepts value = true := by
  rw [Valid] at h
  split at h
  · rename_i hlist
    obtain ⟨names, rfl⟩ := h
    exact hlist
  · rename_i hnumber
    obtain ⟨n, rfl⟩ := h
    simpa [accepts] using hnumber

theorem exists_texts_or_other (items : List Value) :
    (∃ names : List Text, items = names.map .text) ∨ ∃ item ∈ items, ∀ name, item ≠ .text name := by
  induction items with
  | nil => exact .inl ⟨[], rfl⟩
  | cons item items ih =>
    rcases ih with ⟨names, rfl⟩ | ⟨other, hother, hne⟩
    · cases item with
      | text name => exact .inl ⟨name :: names, rfl⟩
      | _ => exact .inr ⟨_, List.mem_cons_self, by simp⟩
    · exact .inr ⟨other, List.mem_cons_of_mem _ hother, hne⟩

theorem valid_or_lapse (h : setting.accepts value = true) :
    setting.Valid value ∨ setting.Lapse value := by
  rw [Valid]
  cases value with
  | bool b => exact .inr (.truth (by simpa [accepts] using h) b)
  | int n =>
    have hnumber : setting.isList = false := by simpa [accepts] using h
    rw [if_neg (by simp [hnumber])]
    by_cases hneg : n < 0
    · exact .inr (.negative hnumber hneg)
    · exact .inl ⟨n.toNat, by rw [Int.toNat_of_nonneg (Int.not_lt.mp hneg)]⟩
  | list items =>
    rw [if_pos (show setting.isList = true from h)]
    rcases exists_texts_or_other items with ⟨names, rfl⟩ | ⟨item, hitem, hother⟩
    · exact .inl ⟨names, rfl⟩
    · exact .inr (.mixed h hitem hother)
  | _ => cases h

theorem Lapse.accepts (h : setting.Lapse value) : setting.accepts value = true := by
  cases h with
  | truth hnumber b => simp [Setting.accepts, hnumber]
  | negative hnumber _ => simp [Setting.accepts, hnumber]
  | mixed hlist _ _ => exact hlist

theorem Lapse.not_valid (h : setting.Lapse value) : ¬setting.Valid value := by
  rw [Valid]
  cases h with
  | truth hnumber b => simp [hnumber]
  | @negative hnumber n hn =>
    rw [if_neg (by simp [hnumber])]
    rintro ⟨m, hm⟩
    cases hm
    omega
  | @mixed hlist items item hitem hother =>
    rw [if_pos hlist]
    rintro ⟨names, hnames⟩
    cases hnames
    obtain ⟨name, -, rfl⟩ := List.mem_map.mp hitem
    exact hother name rfl

theorem valueIn_eq (document : Document) (setting : Setting) :
    setting.valueIn document = ((document.stored? setting.key).filter setting.accepts).getD
      setting.default := by
  rw [valueIn, Document.stored?]
  cases Value.get? sectionName document with
  | none => rfl
  | some found =>
    rw [Option.bind_some, Value.below?]
    cases hfields : found.fields? with
    | none => simp [hfields, Value.get?]
    | some fields =>
      cases hvalue : Value.get? setting.key fields with
      | none => simp [hfields, hvalue]
      | some value =>
        cases haccepts : setting.accepts value <;>
          simp [hfields, hvalue, haccepts, Option.filter_some]

/-- A setting takes what the document says, if that has its kind, and its default otherwise. -/
inductive Taken (document : Document) (setting : Setting) : Value → Prop
  | fromFile {value : Value} (hentry : document.stored? setting.key = some value)
      (haccepts : setting.accepts value = true) : Taken document setting value
  | byDefault (h : ∀ value, document.stored? setting.key = some value →
      setting.accepts value = false) : Taken document setting setting.default

theorem taken_valueIn (document : Document) (setting : Setting) :
    Taken document setting (setting.valueIn document) := by
  rw [valueIn_eq]
  cases hentry : document.stored? setting.key with
  | none => exact .byDefault (by simp [hentry])
  | some value =>
    cases haccepts : setting.accepts value with
    | true =>
      rw [Option.filter_some, if_pos haccepts]
      exact .fromFile hentry haccepts
    | false =>
      rw [Option.filter_some, if_neg (by simp [haccepts])]
      refine .byDefault fun other hother => ?_
      cases hentry.symm.trans hother
      exact haccepts

theorem valid_valueIn_iff (document : Document) (setting : Setting) :
    setting.Valid (setting.valueIn document) ↔
      ∀ value, document.stored? setting.key = some value → ¬setting.Lapse value := by
  have htaken := taken_valueIn document setting
  generalize setting.valueIn document = taken at htaken ⊢
  cases htaken with
  | fromFile hentry haccepts =>
    constructor
    · intro hvalid value hvalue hlapse
      cases hentry.symm.trans hvalue
      exact hlapse.not_valid hvalid
    · intro h
      exact (valid_or_lapse haccepts).resolve_right (h _ hentry)
  | byDefault hkind =>
    refine iff_of_true (valid_default setting) fun value hvalue hlapse => ?_
    have haccepts := hlapse.accepts
    rw [hkind value hvalue] at haccepts
    cases haccepts

end

end Setting

namespace Settings

def isPlain (value : Value) : Bool := value.items?.isNone && value.fields?.isNone

theorem unusable?_eq_find? (items : List Value) :
    unusable? items = items.find? fun item => !isPlain item := by
  induction items with
  | nil => rfl
  | cons item items ih =>
    cases item <;> simp [unusable?, isPlain, Value.items?, Value.fields?, ih]

theorem exists_valueIn_eq_list (document : Document) :
    ∃ items, Setting.valueIn document .extraIgnoreDirs = .list items := by
  have htaken := Setting.taken_valueIn document .extraIgnoreDirs
  generalize Setting.valueIn document .extraIgnoreDirs = taken at htaken ⊢
  cases htaken with
  | byDefault _ => exact ⟨[], rfl⟩
  | fromFile _ haccepts =>
    cases taken with
    | list items => exact ⟨items, rfl⟩
    | _ => cases haccepts

theorem ofDocument_cases {document : Document} {items : List Value}
    (h : Setting.valueIn document .extraIgnoreDirs = .list items) :
    (∀ item ∈ items, isPlain item = true) ∧ (∃ settings, ofDocument document = .ok settings) ∨
      ∃ bad ∈ items, isPlain bad = false ∧
        ofDocument document = .error (.notHashable bad.typeName) := by
  rw [ofDocument]
  simp only [h, unusable?_eq_find?]
  cases hfind : items.find? fun item => !isPlain item with
  | none =>
    left
    refine ⟨fun item hitem => ?_, _, rfl⟩
    simpa using List.find?_eq_none.mp hfind item hitem
  | some bad =>
    right
    refine ⟨bad, List.mem_of_find?_eq_some hfind, ?_, rfl⟩
    simpa using List.find?_some hfind

end Settings

namespace Workspace

theorem loadSettings_eq_ok {w : Workspace} {document : Document}
    (h : w.loadDocument = .ok document) :
    w.loadSettings =
      .ok (Setting.all.map fun setting => (setting.key, setting.valueIn document)) := by
  rw [loadSettings, h]
  rfl

theorem exists_reload_eq_ok_iff {w : Workspace} {document : Document}
    (h : w.loadDocument = .ok document) {items : List Value}
    (hitems : Setting.valueIn document .extraIgnoreDirs = .list items) :
    (∃ reloaded, w.reload = .ok reloaded) ↔ ∀ item ∈ items, Settings.isPlain item = true := by
  rw [reload, h]
  rcases Settings.ofDocument_cases hitems with ⟨hplain, settings, hok⟩ | ⟨bad, hbad, hother, herror⟩
  · refine iff_of_true ⟨{ w with settings := settings }, ?_⟩ hplain
    simp only [bind, Except.bind, hok]
    rfl
  · apply iff_of_false
    · rintro ⟨reloaded, hreloaded⟩
      simp only [bind, Except.bind, herror] at hreloaded
      cases hreloaded
    · intro hplain
      rw [hplain bad hbad] at hother
      cases hother

/-- The settings of a file that can be read are eight values by their keys. Each is what the file
says, if that has the kind of the setting, and the default otherwise. It is valid exactly if the
file does not say a truth value or a negative number for a number, or a list with anything but texts
in it. The settings can be put in force exactly if the list of directory names has neither lists nor
tables in it. On the command line only valid values are read. -/
theorem loadSettings_valid_iff (w : Workspace) (document : Document)
    (h : w.loadDocument = .ok document) :
    w.loadSettings =
        .ok (Setting.all.map fun setting => (setting.key, setting.valueIn document)) ∧
      (Setting.all.map Setting.key).Nodup ∧ Setting.all.length = 8 ∧
      (∀ setting, setting ∈ Setting.all ∧
        Setting.Taken document setting (setting.valueIn document)) ∧
      (∀ setting : Setting, setting.Valid (setting.valueIn document) ↔
        ∀ value, document.stored? setting.key = some value → ¬setting.Lapse value) ∧
      (∃ items, Setting.valueIn document .extraIgnoreDirs = .list items ∧
        ((∃ reloaded, w.reload = .ok reloaded) ↔
          ∀ item ∈ items, Settings.isPlain item = true)) ∧
      ∀ (setting : Setting) (raw : Text) (value : Value),
        setting.read raw = .ok value → setting.Valid value := by
  refine ⟨loadSettings_eq_ok h, by decide, rfl, ?_, ?_, ?_, ?_⟩
  · intro setting
    exact ⟨by cases setting <;> decide, Setting.taken_valueIn document setting⟩
  · exact Setting.valid_valueIn_iff document
  · obtain ⟨items, hitems⟩ := Settings.exists_valueIn_eq_list document
    exact ⟨items, hitems, exists_reload_eq_ok_iff h hitems⟩
  · intro setting raw value hread
    exact Setting.valid_of_read hread

theorem loadDocument_of_readBytes {w : Workspace} {content : Text}
    (h : w.tree.readBytes w.settingsFile = .ok (Utf8.encode content)) :
    w.loadDocument = Document.ofText (Utf8.plainLineEnds content) := by
  rw [loadDocument, FileTree.contains_of_readBytes h]
  dsimp only [bind, Except.bind]
  rw [if_pos rfl, h]
  dsimp only
  rw [Utf8.decodeStrict_encode]

def withFile (content : Text) : Workspace where
  tree := ⟨.directory true true [("h", .directory true true
    [("config.toml", .file true (Utf8.encode content))])], []⟩
  home := ⟨.root, ["h"]⟩
  settings := ⟨500, 20, 15, 12, 10, 60, 4, []⟩

theorem loadDocument_withFile (content : Text) :
    (withFile content).loadDocument = Document.ofText (Utf8.plainLineEnds content) :=
  loadDocument_of_readBytes rfl

def sampleSettings : Text := "[scan]\nmax_workers = 7\ncolour = 3\nsnippet_after = [1]\n"

theorem loadSettings_valid_iff_sampleSettings :
    (withFile sampleSettings).loadDocument =
        .ok [("scan", .table [("max_workers", .int 7), ("colour", .int 3),
          ("snippet_after", .list [.int 1])])] ∧
      Setting.Valid .maxWorkers (.int 7) ∧ Setting.Valid .snippetAfter (.int 60) ∧
      ∃ reloaded, (withFile sampleSettings).reload = .ok reloaded := by
  have hload : (withFile sampleSettings).loadDocument =
      .ok [("scan", .table [("max_workers", .int 7), ("colour", .int 3),
        ("snippet_after", .list [.int 1])])] := by
    rw [loadDocument_withFile]
    exact Document.eq_ok_of_isReading (by decide +kernel)
  obtain ⟨-, -, -, -, hvalid, ⟨items, hitems, hreload⟩, -⟩ :=
    loadSettings_valid_iff (withFile sampleSettings) _ hload
  refine ⟨hload, (hvalid .maxWorkers).mpr ?_, (hvalid .snippetAfter).mpr ?_, hreload.mpr ?_⟩
  · intro value hvalue hlapse
    cases hvalue
    cases hlapse with
    | negative _ hn => exact absurd hn (by decide)
  · intro value hvalue hlapse
    cases hvalue
    cases hlapse with
    | mixed hlist _ _ => cases hlist
  · cases hitems
    simp

/-- A file that puts a negative number and a truth value in place of numbers, and a list in the list
of directory names. The first two are taken as they are, and the last keeps the settings from being
put in force. -/
def sampleLapses : Text :=
  "[scan]\nsnippet_before = -5\nmax_workers = true\nextra_ignore_dirs = [[\"a\"]]\n"

theorem loadSettings_not_valid_sampleLapses :
    ∃ document, (withFile sampleLapses).loadDocument = .ok document ∧
      Setting.valueIn document .snippetBefore = .int (-5) ∧
      ¬Setting.Valid .snippetBefore (.int (-5)) ∧
      Setting.valueIn document .maxWorkers = .bool true ∧
      ¬Setting.Valid .maxWorkers (.bool true) ∧
      (withFile sampleLapses).reload = .error (.notHashable "list") := by
  have hload : (withFile sampleLapses).loadDocument =
      .ok [("scan", .table [("snippet_before", .int (-5)), ("max_workers", .bool true),
        ("extra_ignore_dirs", .list [.list [.text "a"]])])] := by
    rw [loadDocument_withFile]
    exact Document.eq_ok_of_isReading (by decide +kernel)
  refine ⟨_, hload, rfl, ?_, rfl, ?_, ?_⟩
  · exact Setting.Lapse.not_valid (.negative rfl (by decide))
  · exact Setting.Lapse.not_valid (.truth rfl true)
  · rw [reload, hload]
    rfl

end Workspace

end SourceScout
