import SourceScout.Proofs.Settings.Validity

/-!
# Settings over a history of changes

Each change reads the whole settings document, edits it and writes it back. If the documents that
are written are read back as the same documents, then after any history a setting has the value that
was saved last, all else in the document is as it was, and a change that fails has changed nothing.
-/

namespace SourceScout

namespace Setting

theorem ofKey?_key (setting : Setting) : ofKey? setting.key = some setting := by
  cases setting <;> decide

theorem key_of_ofKey? {key : Text} {setting : Setting} (h : ofKey? key = some setting) :
    setting.key = key := by
  simpa using List.find?_some h

section

variable {document other : Document} {setting : Setting} {value : Value}

theorem eq_of_same {w : Value} (h : Value.Same value w) (hvalid : setting.Valid value) :
    w = value := by
  rw [Valid] at hvalid
  split at hvalid
  · obtain ⟨names, rfl⟩ := hvalid
    exact h.eq_texts
  · obtain ⟨n, rfl⟩ := hvalid
    exact h.eq_int

theorem accepts_shell (setting : Setting) (value : Value) :
    setting.accepts value.shell = setting.accepts value := by
  cases value <;> rfl

theorem accepts_congr {w : Value} (h : Value.Same value w) :
    setting.accepts value = setting.accepts w := by
  rw [← accepts_shell, h.shell_eq, accepts_shell]

theorem valueIn_congr
    (h : Value.Agree (document.stored? setting.key) (other.stored? setting.key)) :
    Value.Same (setting.valueIn document) (setting.valueIn other) := by
  rw [valueIn_eq, valueIn_eq]
  cases hentry : document.stored? setting.key with
  | none =>
    rw [hentry] at h
    rw [h.eq_none_iff.mp rfl]
    exact .refl _
  | some value =>
    rw [hentry] at h
    obtain ⟨w, hw, hsame⟩ := h.exists_same
    rw [hw, Option.filter_some, Option.filter_some, accepts_congr hsame]
    split
    · exact hsame
    · exact .refl _

theorem valueIn_of_valid (hvalid : setting.Valid value)
    (h : Value.Agree (some value) (document.stored? setting.key)) :
    setting.valueIn document = value := by
  obtain ⟨w, hw, hsame⟩ := h.exists_same
  obtain rfl := eq_of_same hsame hvalid
  rw [valueIn_eq, hw, Option.filter_some, if_pos (accepts_of_valid hvalid)]
  rfl

theorem valueIn_of_none (h : document.stored? setting.key = none) :
    setting.valueIn document = setting.default := by
  rw [valueIn_eq, h]
  rfl

end

end Setting

namespace Document

variable {document changed other : Document} {key : Text} {value : Value}

def HasRoom (document : Document) : Prop :=
  ∀ found, Value.get? Setting.sectionName document = some found → found.fields?.isSome = true

def IsReadBack (document : Document) : Prop :=
  ∃ t read, document.toText = .ok t ∧ ofText (Utf8.plainLineEnds t) = .ok read ∧
    Same document read

theorem Same.stored? (h : Same document other) (key : Text) :
    Value.Agree (document.stored? key) (other.stored? key) :=
  (h Setting.sectionName).bind_below? (.key key)

theorem get?_of_withSetting (h : document.withSetting key value = .ok changed) {name : Text}
    (hname : name ≠ Setting.sectionName) :
    Value.get? name changed = Value.get? name document := by
  rw [withSetting] at h
  split at h
  · cases h
    exact Value.get?_set_of_ne hname _ _
  · cases h
  · split at h
    · cases h
      exact Value.get?_set_of_ne hname _ _
    · cases h

theorem stored?_of_withSetting (h : document.withSetting key value = .ok changed) (name : Text) :
    changed.stored? name = if name = key then some value else document.stored? name := by
  rw [withSetting] at h
  rw [stored?, stored?]
  split at h
  · rename_i hnone
    cases h
    rw [Value.get?_set_self, hnone, Option.bind_some, Value.below?, Value.fields?,
      Option.bind_some]
    by_cases heq : name = key
    · simp [heq, Value.get?]
    · simp [heq, Value.get?, Ne.symm heq]
  · cases h
  · rename_i found _ hfound
    split at h
    · rename_i fields hfields
      cases h
      rw [Value.get?_set_self, hfound, Option.bind_some, Option.bind_some, Value.below?,
        Value.below?, Value.fields?_withFields, hfields, Option.bind_some, Option.bind_some]
      by_cases heq : name = key
      · rw [heq, if_pos rfl, Value.get?_set_self]
      · rw [if_neg heq, Value.get?_set_of_ne heq]
    · cases h

theorem exists_withSetting_eq_ok (h : document.HasRoom) (key : Text) (value : Value) :
    ∃ changed, document.withSetting key value = .ok changed := by
  rw [withSetting]
  split
  · exact ⟨_, rfl⟩
  · rename_i items hlist
    cases h _ hlist
  · rename_i found _ hfound
    obtain ⟨fields, hfields⟩ := Option.isSome_iff_exists.mp (h _ hfound)
    rw [hfields]
    exact ⟨_, rfl⟩

theorem exists_withSetting_eq_error (h : ¬document.HasRoom) (key : Text) (value : Value) :
    ∃ found, document.withSetting key value = .error (.sectionNotTable found) := by
  rw [withSetting]
  split
  · rename_i hnone
    exact absurd (by simp [HasRoom, hnone]) h
  · exact ⟨_, rfl⟩
  · rename_i found _ hfound
    cases hfields : found.fields? with
    | none => exact ⟨_, rfl⟩
    | some fields => exact absurd (by simp [HasRoom, hfound, hfields]) h

theorem stored?_withoutSettings (document : Document) (name : Text) :
    document.withoutSettings.stored? name = none := by
  rw [stored?, withoutSettings, Value.get?_erase_self]
  rfl

end Document

namespace Workspace

variable {w : Workspace} {document : Document}

/-- The settings file can be written, and then has what was written. -/
def Stores (w : Workspace) : Prop :=
  ∀ bytes, ∃ tree, w.tree.write w.settingsFile bytes = .ok tree ∧
    tree.readBytes w.settingsFile = .ok bytes

theorem stores_of_readBytes {bytes : List UInt8}
    (h : w.tree.readBytes w.settingsFile = .ok bytes) : w.Stores :=
  FileTree.exists_write_eq_ok h

-- A file that is not there yet is made.
example : Stores { withFile [] with
    tree := ⟨.directory true true [("h", .directory true true [])], []⟩ } :=
  fun _ => ⟨_, rfl, rfl⟩

theorem saveDocument_readBack (hstores : w.Stores) (hback : document.IsReadBack) :
    ∃ next read, w.saveDocument document = (.ok true, next) ∧ next.Stores ∧
      next.loadDocument = .ok read ∧ document.Same read := by
  obtain ⟨t, read, htext, hread, hsame⟩ := hback
  obtain ⟨tree, hwrite, hbytes⟩ := hstores (Utf8.encode t)
  refine ⟨{ w with tree := tree }, read, ?_, stores_of_readBytes hbytes, ?_, hsame⟩
  · rw [saveDocument, htext]
    dsimp only
    rw [hwrite]
  · rw [@loadDocument_of_readBytes { w with tree := tree } t hbytes]
    exact hread

end Workspace

namespace Setting

inductive Change where
  | save (key : Text) (value : Value)
  | clear

abbrev Log := List (Change × Except Failure Bool)

namespace Change

def apply (w : Workspace) : Change → Except Failure Bool × Workspace
  | .save key value => w.saveSetting key value
  | .clear => w.clearSettings

def IsRead : Change → Prop
  | .save key value => ofKey? key = none ∨ ∃ raw, readByKey key raw = .ok value
  | .clear => True

def written? (document : Document) : Change → Option Document
  | .save key value => (ofKey? key).bind fun _ => (document.withSetting key value).toOption
  | .clear => some document.withoutSettings

/-- How a change can end. One that fails leaves the workspace as it was. -/
inductive Outcome (w : Workspace) : Change → Except Failure Bool × Workspace → Prop
  | saved {setting : Setting} {value : Value} {document : Document} {next : Workspace}
      (hload : w.loadDocument = .ok document) (hroom : document.HasRoom) :
      Outcome w (.save setting.key value) (.ok true, next)
  | cleared {next : Workspace} : Outcome w .clear (.ok true, next)
  | unknown {key : Text} {value : Value} (hkey : ofKey? key = none) :
      Outcome w (.save key value) (.error (.unknownSetting key), w)
  | noTable {setting : Setting} {value : Value} {document : Document} {found : NoTable}
      (hload : w.loadDocument = .ok document) (hroom : ¬document.HasRoom) :
      Outcome w (.save setting.key value) (.error (.sectionNotTable found), w)

end Change

def Touched (setting : Setting) (entry : Change × Except Failure Bool) : Prop :=
  entry.2 = .ok true ∧ (entry.1 = .clear ∨ ∃ value, entry.1 = .save setting.key value)

/-- The value of a setting after some changes: the one saved last, or the default if all settings
were dropped after that, or else the one it had at first. -/
inductive Effective (setting : Setting) (initial : Value) : Log → Value → Prop
  | saved {before after : Log} {value : Value} (h : ∀ entry ∈ after, ¬setting.Touched entry) :
      Effective setting initial (before ++ (.save setting.key value, .ok true) :: after) value
  | cleared {before after : Log} (h : ∀ entry ∈ after, ¬setting.Touched entry) :
      Effective setting initial (before ++ (.clear, .ok true) :: after) setting.default
  | untouched {log : Log} (h : ∀ entry ∈ log, ¬setting.Touched entry) :
      Effective setting initial log initial

theorem Effective.concat {setting : Setting} {initial value : Value} {log : Log}
    (h : setting.Effective initial log value) {entry : Change × Except Failure Bool}
    (hentry : ¬setting.Touched entry) : setting.Effective initial (log ++ [entry]) value := by
  have hall {after : Log} (hafter : ∀ e ∈ after, ¬setting.Touched e) :
      ∀ e ∈ after ++ [entry], ¬setting.Touched e := by
    intro e he
    rcases List.mem_append.mp he with he | he
    · exact hafter e he
    · rwa [List.mem_singleton.mp he]
  cases h with
  | saved hafter =>
    rw [List.append_assoc, List.cons_append]
    exact .saved (hall hafter)
  | cleared hafter =>
    rw [List.append_assoc, List.cons_append]
    exact .cleared (hall hafter)
  | untouched hlog => exact .untouched (hall hlog)

def effect (setting : Setting) (current : Value) : Change × Except Failure Bool → Value
  | (.save key value, .ok true) => if key = setting.key then value else current
  | (.clear, .ok true) => setting.default
  | _ => current

theorem effect_of_not_touched {setting : Setting} {entry : Change × Except Failure Bool}
    (h : ¬setting.Touched entry) (current : Value) : setting.effect current entry = current := by
  unfold effect
  split
  · exact if_neg fun hkey => h ⟨rfl, .inr ⟨_, by rw [hkey]⟩⟩
  · exact absurd ⟨rfl, .inl rfl⟩ h
  · rfl

theorem foldl_effect_of_not_touched {setting : Setting} {log : Log}
    (h : ∀ entry ∈ log, ¬setting.Touched entry) (current : Value) :
    log.foldl setting.effect current = current := by
  induction log with
  | nil => rfl
  | cons entry log ih =>
    rw [List.foldl_cons, effect_of_not_touched (h entry List.mem_cons_self)]
    exact ih fun later hlater => h later (List.mem_cons_of_mem _ hlater)

theorem Effective.eq_foldl {setting : Setting} {initial value : Value} {log : Log}
    (h : setting.Effective initial log value) : value = log.foldl setting.effect initial := by
  cases h with
  | saved hafter =>
    rw [List.foldl_append, List.foldl_cons, effect, if_pos rfl,
      foldl_effect_of_not_touched hafter]
  | cleared hafter =>
    rw [List.foldl_append, List.foldl_cons, effect, foldl_effect_of_not_touched hafter]
  | untouched hlog => rw [foldl_effect_of_not_touched hlog]

/-- What a document has kept of an initial one after some changes. -/
structure Kept (initial : Document) (log : Log) (document : Document) : Prop where
  others : ∀ key ≠ sectionName,
    Value.Agree (Value.get? key initial) (Value.get? key document)
  strangers : ∀ key, ofKey? key = none → (∀ entry ∈ log, entry.1 ≠ .clear) →
    Value.Agree (initial.stored? key) (document.stored? key)
  dropped : ∀ key, ofKey? key = none → (∃ entry ∈ log, entry.1 = .clear) →
    document.stored? key = none
  effective : ∀ setting : Setting, ∃ value,
    setting.Effective (setting.valueIn initial) log value ∧
      Value.Same value (setting.valueIn document) ∧
        (setting.Valid value → setting.valueIn document = value)

namespace Kept

variable {initial document changed read : Document} {log : Log}

theorem refl (document : Document) : Kept document [] document where
  others _ _ := .refl _
  strangers _ _ _ := .refl _
  dropped := by simp
  effective setting := ⟨_, .untouched (by simp), .refl _, fun _ => rfl⟩

theorem failed (h : Kept initial log document) (key : Text) (value : Value) (failure : Failure) :
    Kept initial (log ++ [(.save key value, .error failure)]) document where
  others := h.others
  strangers name hname hlog := h.strangers name hname fun entry hentry =>
    hlog entry (List.mem_append_left _ hentry)
  dropped name hname hclear :=
    h.dropped name hname (by simpa [or_and_right, exists_or] using hclear)
  effective setting := by
    obtain ⟨current, heffective, hsame⟩ := h.effective setting
    exact ⟨current, heffective.concat (by simp [Touched]), hsame⟩

theorem saved (h : Kept initial log document) {setting : Setting} {value : Value}
    (hvalid : setting.Valid value) (hchanged : document.withSetting setting.key value = .ok changed)
    (hread : changed.Same read) :
    Kept initial (log ++ [(.save setting.key value, .ok true)]) read where
  others name hname := by
    have hkept := h.others name hname
    rw [← Document.get?_of_withSetting hchanged hname] at hkept
    exact hkept.trans (hread name)
  strangers name hname hlog := by
    have hkept := h.strangers name hname fun entry hentry =>
      hlog entry (List.mem_append_left _ hentry)
    have hentry := Document.stored?_of_withSetting hchanged name
    rw [if_neg (by rintro rfl; simp [ofKey?_key] at hname)] at hentry
    rw [← hentry] at hkept
    exact hkept.trans (hread.stored? name)
  dropped name hname hclear := by
    have hentry := Document.stored?_of_withSetting hchanged name
    rw [if_neg (by rintro rfl; simp [ofKey?_key] at hname),
      h.dropped name hname (by simpa [or_and_right, exists_or] using hclear)] at hentry
    exact (hread.stored? name).eq_none_iff.mp hentry
  effective other := by
    have hentry := Document.stored?_of_withSetting hchanged other.key
    have hagree := hread.stored? other.key
    by_cases hother : other = setting
    · subst hother
      rw [if_pos rfl] at hentry
      rw [hentry] at hagree
      have hvalue := valueIn_of_valid hvalid hagree
      exact ⟨value, .saved (by simp), by rw [hvalue]; exact .refl _, fun _ => hvalue⟩
    · have hkey : other.key ≠ setting.key := by
        intro heq
        have hsome := ofKey?_key other
        rw [heq, ofKey?_key] at hsome
        exact hother (Option.some.inj hsome).symm
      rw [if_neg hkey] at hentry
      rw [hentry] at hagree
      obtain ⟨current, heffective, hsame, hexact⟩ := h.effective other
      have hnow := Value.Agree.trans hsame (valueIn_congr hagree)
      exact ⟨current, heffective.concat (by simp [Touched, Ne.symm hkey]), hnow,
        eq_of_same hnow⟩

theorem cleared (h : Kept initial log document) (hread : document.withoutSettings.Same read) :
    Kept initial (log ++ [(.clear, .ok true)]) read where
  others name hname := by
    have hkept := h.others name hname
    rw [← Value.get?_erase_of_ne hname document] at hkept
    exact hkept.trans (hread name)
  strangers name hname hlog := absurd rfl (hlog (.clear, .ok true) (by simp))
  dropped name hname hclear :=
    (hread.stored? name).eq_none_iff.mp (Document.stored?_withoutSettings document name)
  effective setting := by
    have hnone := (hread.stored? setting.key).eq_none_iff.mp
      (Document.stored?_withoutSettings document setting.key)
    have hvalue := valueIn_of_none hnone
    exact ⟨setting.default, .cleared (by simp), by rw [hvalue]; exact .refl _, fun _ => hvalue⟩

end Kept

end Setting

namespace Workspace

open Setting (Change Kept)

variable {w : Workspace} {document initial : Document} {log : Setting.Log}

def run : Workspace → List Change → Setting.Log × Workspace
  | w, [] => ([], w)
  | w, change :: changes =>
    let (answer, next) := change.apply w
    let (log, last) := run next changes
    ((change, answer) :: log, last)

theorem log_cons {change : Change} {answer : Except Failure Bool} {next : Workspace}
    (h : change.apply w = (answer, next)) (changes : List Change) :
    (w.run (change :: changes)).1 = (change, answer) :: (next.run changes).1 := by
  rw [run, h]

def ReadsBack : Workspace → List Change → Prop
  | _, [] => True
  | w, change :: changes =>
    (∀ document written, w.loadDocument = .ok document →
      change.written? document = some written → written.IsReadBack) ∧
    ReadsBack (change.apply w).2 changes

theorem kept_apply (hload : w.loadDocument = .ok document) (hstores : w.Stores)
    (hkept : Kept initial log document) {change : Change} (hread : change.IsRead)
    (hback : ∀ written, change.written? document = some written → written.IsReadBack) :
    change.Outcome w (change.apply w) ∧ (change.apply w).2.Stores ∧
      ∃ next, (change.apply w).2.loadDocument = .ok next ∧
        Kept initial (log ++ [(change, (change.apply w).1)]) next := by
  cases change with
  | clear =>
    obtain ⟨next, read, hsave, hnext, hloaded, hsame⟩ := saveDocument_readBack hstores (hback _ rfl)
    have happly : Change.apply w .clear = (.ok true, next) := by
      rw [Change.apply, clearSettings, hload]
      exact hsave
    rw [happly]
    exact ⟨.cleared, hnext, read, hloaded, hkept.cleared hsame⟩
  | save key value =>
    cases hkey : Setting.ofKey? key with
    | none =>
      have happly : Change.apply w (.save key value) = (.error (.unknownSetting key), w) := by
        rw [Change.apply, saveSetting, hkey]
      rw [happly]
      exact ⟨.unknown hkey, hstores, document, hload, hkept.failed key value _⟩
    | some setting =>
      obtain rfl := Setting.key_of_ofKey? hkey
      have hvalid : setting.Valid value := by
        rcases hread with hnone | ⟨raw, hraw⟩
        · simp [hkey] at hnone
        · rw [Setting.readByKey, hkey] at hraw
          exact Setting.valid_of_read hraw
      by_cases hroom : document.HasRoom
      · obtain ⟨changed, hchanged⟩ := Document.exists_withSetting_eq_ok hroom setting.key value
        obtain ⟨next, read, hsave, hnext, hloaded, hsame⟩ := saveDocument_readBack hstores
          (hback changed (by rw [Change.written?, hkey, Option.bind_some, hchanged]; rfl))
        have happly : Change.apply w (.save setting.key value) = (.ok true, next) := by
          rw [Change.apply, saveSetting, hkey, hload]
          dsimp only [Except.bind]
          rw [hchanged]
          exact hsave
        rw [happly]
        exact ⟨.saved hload hroom, hnext, read, hloaded, hkept.saved hvalid hchanged hsame⟩
      · obtain ⟨found, hfound⟩ := Document.exists_withSetting_eq_error hroom setting.key value
        have happly : Change.apply w (.save setting.key value) =
            (.error (.sectionNotTable found), w) := by
          rw [Change.apply, saveSetting, hkey, hload]
          dsimp only [Except.bind]
          rw [hfound]
        rw [happly]
        exact ⟨.noTable hload hroom, hstores, document, hload, hkept.failed setting.key value _⟩

theorem kept_run {changes : List Change} (hload : w.loadDocument = .ok document)
    (hstores : w.Stores) (hkept : Kept initial log document)
    (hread : ∀ change ∈ changes, change.IsRead) (hback : w.ReadsBack changes) :
    (∃ last, (w.run changes).2.loadDocument = .ok last ∧
      Kept initial (log ++ (w.run changes).1) last) ∧
    ∀ before change after, changes = before ++ change :: after →
      change.Outcome (w.run before).2 (change.apply (w.run before).2) := by
  -- The log of the changes already made grows with each step, and the workspace moves on.
  induction changes generalizing w document log with
  | nil => exact ⟨⟨document, hload, by simpa [run] using hkept⟩, by simp⟩
  | cons change changes ih =>
    obtain ⟨houtcome, hnext, next, hloaded, hgrown⟩ := kept_apply hload hstores hkept
      (hread change List.mem_cons_self) fun written => hback.1 document written hload
    obtain ⟨⟨last, hlast, hall⟩, hafter⟩ := ih hloaded hnext hgrown
      (fun later hlater => hread later (List.mem_cons_of_mem _ hlater)) hback.2
    refine ⟨⟨last, hlast, by simpa [run] using hall⟩, ?_⟩
    intro before later after hsplit
    cases before with
    | nil =>
      cases hsplit
      exact houtcome
    | cons first before =>
      cases hsplit
      exact hafter before later after rfl

theorem loadSettings_run {changes : List Change} (hload : w.loadDocument = .ok document)
    (hstores : w.Stores) (hread : ∀ change ∈ changes, change.IsRead)
    (hback : w.ReadsBack changes) :
    (∃ last, (w.run changes).2.loadDocument = .ok last ∧
      (w.run changes).2.loadSettings =
        .ok (Setting.all.map fun setting => (setting.key, setting.valueIn last)) ∧
      Kept document (w.run changes).1 last) ∧
    ∀ before change after, changes = before ++ change :: after →
      change.Outcome (w.run before).2 (change.apply (w.run before).2) := by
  obtain ⟨⟨last, hlast, hkept⟩, houtcome⟩ := kept_run hload hstores (Kept.refl document) hread hback
  exact ⟨⟨last, hlast, loadSettings_eq_ok hlast, by simpa using hkept⟩, houtcome⟩

theorem stores_withFile (content : Text) : (withFile content).Stores :=
  @stores_of_readBytes _ (Utf8.encode content) rfl

theorem apply_withFile {content t : Text} {change : Change} {written : Document}
    (hload : (withFile content).loadDocument = .ok document)
    (hwritten : change.written? document = some written) (htext : written.toText = .ok t) :
    change.apply (withFile content) = (.ok true, withFile t) := by
  have hsave : (withFile content).saveDocument written = (.ok true, withFile t) := by
    rw [saveDocument, htext]
    rfl
  cases change with
  | clear =>
    cases hwritten
    rw [Change.apply, clearSettings, hload]
    exact hsave
  | save key value =>
    obtain ⟨setting, hkey, hchanged⟩ := Option.bind_eq_some_iff.mp hwritten
    rw [Change.apply, saveSetting, hkey, hload]
    dsimp only [Except.bind]
    cases hnew : document.withSetting key value with
    | error failure =>
      rw [hnew] at hchanged
      cases hchanged
    | ok changed =>
      rw [hnew] at hchanged
      cases hchanged
      exact hsave

theorem step_withFile {content t : Text} {change : Change} {written : Document}
    (hload : (withFile content).loadDocument = .ok document)
    (hwritten : change.written? document = some written) (htext : written.toText = .ok t)
    (hread : (withFile t).loadDocument = .ok written) (changes : List Change) :
    ((withFile content).run (change :: changes)).1 =
        (change, .ok true) :: ((withFile t).run changes).1 ∧
      ((withFile t).ReadsBack changes → (withFile content).ReadsBack (change :: changes)) := by
  have happly := apply_withFile hload hwritten htext
  refine ⟨log_cons happly changes, ?_⟩
  intro hrest
  refine ⟨?_, by rwa [happly]⟩
  intro found other hfound hother
  cases hload.symm.trans hfound
  cases hwritten.symm.trans hother
  exact ⟨t, written, htext, by rw [← loadDocument_withFile, hread], .refl written⟩

def sampleDocument : Text := "name = \"x\"\n\n[scan]\ncolour = 3\nmax_workers = 2\n"

def sampleChanges : List Change :=
  [.save "max_workers" (.int 7), .save "shade" (.int 1), .clear,
    .save "extra_ignore_dirs" (.list [.text "a"])]

def sampleLog : Setting.Log :=
  [(.save "max_workers" (.int 7), .ok true),
    (.save "shade" (.int 1), .error (.unknownSetting "shade")), (.clear, .ok true),
    (.save "extra_ignore_dirs" (.list [.text "a"]), .ok true)]

theorem isRead_sampleChanges : ∀ change ∈ sampleChanges, change.IsRead := by
  intro change hchange
  simp only [sampleChanges, List.mem_cons, List.not_mem_nil, or_false] at hchange
  rcases hchange with rfl | rfl | rfl | rfl
  · exact .inr ⟨"7", rfl⟩
  · exact .inl rfl
  · trivial
  · exact .inr ⟨"a", rfl⟩

theorem loadDocument_sampleDocument : (withFile sampleDocument).loadDocument =
    .ok [("name", .text "x"),
      ("scan", .table [("colour", .int 3), ("max_workers", .int 2)])] := by
  rw [loadDocument_withFile]
  exact Document.eq_ok_of_isReading (by decide +kernel)

theorem run_sampleChanges : (withFile sampleDocument).ReadsBack sampleChanges ∧
    ((withFile sampleDocument).run sampleChanges).1 = sampleLog := by
  -- The file after each of the changes that are written.
  let saved : Text := "name = \"x\"\n\n[scan]\ncolour = 3\nmax_workers = 7\n"
  let cleared : Text := "name = \"x\"\n"
  let listed : Text := "name = \"x\"\n\n[scan]\nextra_ignore_dirs = [ \"a\",]\n"
  have hsaved : (withFile saved).loadDocument = .ok [("name", .text "x"),
      ("scan", .table [("colour", .int 3), ("max_workers", .int 7)])] := by
    rw [loadDocument_withFile]
    exact Document.eq_ok_of_isReading (by decide +kernel)
  have hcleared : (withFile cleared).loadDocument = .ok [("name", .text "x")] := by
    rw [loadDocument_withFile]
    exact Document.eq_ok_of_isReading (by decide +kernel)
  have hlisted : (withFile listed).loadDocument = .ok [("name", .text "x"),
      ("scan", .table [("extra_ignore_dirs", .list [.text "a"])])] := by
    rw [loadDocument_withFile]
    exact Document.eq_ok_of_isReading (by decide +kernel)
  obtain ⟨hsaveLog, hsaveBack⟩ := @step_withFile _ _ saved (.save "max_workers" (.int 7)) _
    loadDocument_sampleDocument rfl rfl hsaved [.save "shade" (.int 1), .clear,
      .save "extra_ignore_dirs" (.list [.text "a"])]
  obtain ⟨hclearLog, hclearBack⟩ := @step_withFile _ _ cleared .clear _ hsaved rfl rfl hcleared
    [.save "extra_ignore_dirs" (.list [.text "a"])]
  obtain ⟨hlistLog, hlistBack⟩ := @step_withFile _ _ listed
    (.save "extra_ignore_dirs" (.list [.text "a"])) _ hcleared rfl rfl hlisted []
  constructor
  · refine hsaveBack ⟨?_, hclearBack (hlistBack trivial)⟩
    intro _ _ _ hwritten
    cases hwritten
  · rw [sampleChanges, hsaveLog, @log_cons (withFile saved) (.save "shade" (.int 1))
      (.error (.unknownSetting "shade")) (withFile saved) rfl, hclearLog, hlistLog]
    rfl

theorem loadSettings_run_sampleChanges :
    ∃ document last, (withFile sampleDocument).loadDocument = .ok document ∧
      (withFile sampleDocument).Stores ∧ (∀ change ∈ sampleChanges, change.IsRead) ∧
      (withFile sampleDocument).ReadsBack sampleChanges ∧
      ((withFile sampleDocument).run sampleChanges).2.loadDocument = .ok last ∧
      Value.get? "name" last = some (.text "x") ∧ last.stored? "colour" = none ∧
      Setting.valueIn last .maxWorkers = .int 4 ∧
      Setting.valueIn last .extraIgnoreDirs = .list [.text "a"] := by
  obtain ⟨hback, hlog⟩ := run_sampleChanges
  obtain ⟨⟨last, hlast, -, hkept⟩, -⟩ := loadSettings_run loadDocument_sampleDocument
    (stores_withFile sampleDocument) isRead_sampleChanges hback
  rw [hlog] at hkept
  refine ⟨_, last, loadDocument_sampleDocument, stores_withFile sampleDocument,
    isRead_sampleChanges, hback, hlast, ?_, ?_, ?_, ?_⟩
  · obtain ⟨name, hname, hsame⟩ := (hkept.others "name" (by decide)).exists_same
    rw [hname, hsame.eq_text]
  · exact hkept.dropped "colour" rfl ⟨(.clear, .ok true), by simp [sampleLog], rfl⟩
  · obtain ⟨value, heffective, -, hexact⟩ := hkept.effective .maxWorkers
    cases heffective.eq_foldl
    exact hexact (Setting.valid_default .maxWorkers)
  · obtain ⟨value, heffective, -, hexact⟩ := hkept.effective .extraIgnoreDirs
    cases heffective.eq_foldl
    exact hexact ⟨["a"], rfl⟩

end Workspace

end SourceScout
