import SourceScout.ItemView
import SourceScout.Proofs.Implementation.DeclaringFiles
import SourceScout.Proofs.Project.NearestRoot

/-!
# Which implementations a view shows

The candidates are the expected file and the files found by the name of the class, each once and
never the file that is viewed. Those that mention the item are shown in their order, and only they
use up a number.
-/

namespace SourceScout

namespace Implementation

inductive NamedFiles (w : Workspace) (path : Text) (root : Path) : List Path → Prop
  | unnamed (h : className? path = none) : NamedFiles w path root []
  | walked {name : Text} {files found : List Path} (hname : className? path = some name)
      (hwalk : w.tree.walk w.ignored sourceEnding root = .ok files)
      (hfound : Listed (fun k file => files[k]? = some file ∧ Defines w.tree ["class"] name file)
        files.length found) : NamedFiles w path root found

def inOrder (w : Workspace) (expected : Option Text) (named : List Path) : List Text :=
  (expected.toList ++ named.map Path.toText).map (fullPath w)

/-- The candidates for a file, where `expected` is the file at the expected place, if any. -/
structure AreCandidates (w : Workspace) (path : Text) (expected : Option Text) (named : List Path)
    (files : List Text) : Prop where
  expected_iff : ∀ t, expected = some t ↔
    expectedPath? path = some t ∧ w.tree.isFile (.ofText t) = .ok true
  nodup : files.Nodup
  not_own : fullPath w path ∉ files
  starts : ∀ t, expected = some t → fullPath w t ≠ fullPath w path →
    files.head? = some (fullPath w t)
  listed : Listed (fun k file => (inOrder w expected named)[k]? = some file ∧
    (∀ j < k, (inOrder w expected named)[j]? ≠ some file) ∧ file ≠ fullPath w path)
    (inOrder w expected named).length files

section

variable {w : Workspace} {path : Text} {root : Path}

theorem areCandidates_eraseDups (w : Workspace) (path : Text) (named : List Path) :
    AreCandidates w path (expectedFile? w path) named
      ((inOrder w (expectedFile? w path) named).eraseDups.filter (· != fullPath w path)) := by
  have hlisted : Listed (fun k file => (inOrder w (expectedFile? w path) named)[k]? = some file ∧
      (∀ j < k, (inOrder w (expectedFile? w path) named)[j]? ≠ some file) ∧ file ≠ fullPath w path)
      (inOrder w (expectedFile? w path) named).length
      ((inOrder w (expectedFile? w path) named).eraseDups.filter (· != fullPath w path)) := by
    refine ((Listed.of_list _).eraseDups.filter _).congr fun k _ file => ?_
    rw [and_assoc, bne_iff_ne]
  refine ⟨?_, (nodup_eraseDups _).filter _, by simp, ?_, hlisted⟩
  · intro t
    rw [expectedFile?, Option.filter_eq_some_iff]
    exact and_congr_right fun _ => ⟨FileTree.isFile_of_seesFile, FileTree.seesFile_of_isFile⟩
  · intro t ht hne
    have hfirst : (inOrder w (expectedFile? w path) named)[0]? = some (fullPath w t) := by
      rw [inOrder, ht]
      rfl
    have hpos : 0 < (inOrder w (expectedFile? w path) named).length :=
      (List.getElem?_eq_some_iff.mp hfirst).1
    exact hlisted.head?_eq hpos ⟨hfirst, fun j hj => absurd hj (Nat.not_lt_zero j), hne⟩

theorem candidates_eq_ok {files : List Text} (h : candidates w path root = .ok files) :
    ∃ named, NamedFiles w path root named ∧
      AreCandidates w path (expectedFile? w path) named files := by
  rw [candidates] at h
  cases hname : className? path with
  | none =>
    rw [hname] at h
    cases h
    exact ⟨[], .unnamed hname, areCandidates_eraseDups w path []⟩
  | some name =>
    rw [hname] at h
    obtain ⟨texts, htexts, h⟩ := bind_eq_ok.mp h
    obtain ⟨walked, hwalk⟩ := exists_walk_of_declaringFiles htexts
    obtain ⟨found, hfound, hlisted⟩ := @declaringFiles_eq_ok ["class"] name
      (List.forall_mem_singleton.mpr (by decide)) _ _ _ hwalk
    obtain rfl : texts = found.map Path.toText := Except.ok.inj (htexts.symm.trans hfound)
    cases h
    exact ⟨found, .walked hname hwalk hlisted, areCandidates_eraseDups w path found⟩

end

end Implementation

namespace ItemView

open Implementation (candidates className?)

def Shows (w : Workspace) (root : Path) (front file : Text) (s : Snippet) (parts : List Text) :
    Prop :=
  ∃ calls, CallPath.ofFile w file s.code (some root) = .ok calls ∧
    parts = (front ++ ("--- File: " ++ s.path ++ " (lines " ++ Text.ofInt s.startLine ++ "-" ++
      Text.ofInt s.endLine ++ ", item: '" ++ s.item ++ "') ---\n\n" ++ s.code)) :: calls.toList

/-- What a view starts with: the snippet of the item, or the reason why there is none. -/
inductive Opens (w : Workspace) (root : Path) (path : Text) :
    Except NoSnippet Snippet → List Text → Prop
  | found {s : Snippet} {parts : List Text} (h : Shows w root [] path s parts) :
      Opens w root path (.ok s) parts
  | notFile (file : Text) : Opens w root path (.error (.notFile file))
      ["--- File: " ++ file ++ " (error: file does not exist or is not a regular file) ---"]
  | unreadable (file : Text) (failure : Failure) :
      Opens w root path (.error (.unreadable file failure))
        ["--- File: " ++ file ++ " (error: read failed - " ++ failure.message ++ ") ---"]
  | notMentioned (file item : Text) : Opens w root path (.error (.notMentioned file item))
      ["--- File: " ++ file ++ " (error: item '" ++ item ++ "' not found) ---"]

def hit? (w : Workspace) (item file : Text) : Option (Text × Snippet) :=
  match Snippet.ofFile w file item none none with
  | .ok (.ok s) => some (file, s)
  | _ => none

section

variable {w : Workspace} {root : Path} {path item file className : Text} {s : Snippet}

theorem hit?_eq_some_iff {found : Text × Snippet} : hit? w item file = some found ↔
    file = found.1 ∧ Snippet.ofFile w found.1 item none none = .ok (.ok found.2) := by
  obtain ⟨other, s⟩ := found
  rw [hit?]
  constructor
  · intro h
    cases hfile : Snippet.ofFile w file item none none with
    | error failure =>
      rw [hfile] at h
      cases h
    | ok answer =>
      rw [hfile] at h
      cases answer with
      | error miss => cases h
      | ok s =>
        cases h
        exact ⟨rfl, hfile⟩
  · rintro ⟨rfl, hfile⟩
    rw [hfile]

theorem path_of_ofFile (h : Snippet.ofFile w file item none none = .ok (.ok s)) :
    s.path = file := by
  rw [Snippet.ofFile] at h
  obtain ⟨isFile, -, h⟩ := bind_eq_ok.mp h
  cases isFile with
  | false => cases h
  | true =>
    cases hread : w.tree.readText (Path.ofText file) with
    | error failure =>
      rw [if_pos rfl, hread] at h
      cases h
    | ok content =>
      rw [if_pos rfl, hread] at h
      dsimp only at h
      cases hlines : Snippet.ofLines? file item content.lines w.settings.snippetBefore
          w.settings.snippetAfter with
      | none =>
        rw [Option.getD_none, Option.getD_none, hlines] at h
        cases h
      | some found =>
        rw [Option.getD_none, Option.getD_none, hlines] at h
        cases h
        obtain ⟨hit, -, rfl⟩ := Option.map_eq_some_iff.mp hlines
        rfl

theorem toText_eq (s : Snippet) : s.toText =
    "--- File: " ++ s.path ++ " (lines " ++ Text.ofInt s.startLine ++ "-" ++
      Text.ofInt s.endLine ++ ", item: '" ++ s.item ++ "') ---\n\n" ++ s.code := by
  unfold Snippet.toText Snippet.header
  simp only [List.append_assoc]
  rfl

theorem shows_of_snippetParts {front : Text} {parts : List Text}
    (h : Snippet.ofFile w file item none none = .ok (.ok s))
    (hparts : snippetParts w root front s = .ok parts) : Shows w root front file s parts := by
  rw [snippetParts, path_of_ofFile h] at hparts
  obtain ⟨calls, hcalls, hparts⟩ := bind_eq_ok.mp hparts
  cases hparts
  refine ⟨calls, hcalls, ?_⟩
  rw [toText_eq]

theorem opens_of_miss (miss : NoSnippet) : Opens w root path (.error miss) [miss.toText] := by
  cases miss with
  | notFile file => exact .notFile file
  | unreadable file failure => exact .unreadable file failure
  | notMentioned file item => exact .notMentioned file item

/-- The numbers go up with the files that mention the item, from any number on. -/
theorem exists_groups_of_implementationParts {count rank : Nat} {files parts : List Text}
    (h : implementationParts w root item className count rank files = .ok parts) :
    ∃ groups, parts = groups.flatten ∧
      List.Forall₂ (fun (hit : (Text × Snippet) × Nat) group =>
        Shows w root (label className hit.2 count) hit.1.1 hit.1.2 group)
        ((files.filterMap (hit? w item)).zipIdx rank) groups := by
  induction files generalizing rank parts with
  | nil =>
    cases h
    exact ⟨[], rfl, .nil⟩
  | cons file files ih =>
    rw [implementationParts] at h
    obtain ⟨found, hfound, h⟩ := bind_eq_ok.mp h
    cases found with
    | error miss =>
      have hnone : hit? w item file = none := by rw [hit?, hfound]
      rw [List.filterMap_cons_none hnone]
      exact ih h
    | ok s =>
      have hsome : hit? w item file = some (file, s) := by rw [hit?, hfound]
      obtain ⟨shown, hshown, h⟩ := bind_eq_ok.mp h
      obtain ⟨others, hothers, h⟩ := bind_eq_ok.mp h
      cases h
      obtain ⟨groups, rfl, hgroups⟩ := ih hothers
      rw [List.filterMap_cons_some hsome, List.zipIdx_cons]
      exact ⟨shown :: groups, rfl, .cons (shows_of_snippetParts hfound hshown) hgroups⟩

theorem ofFile_eq_ok {view : Text} (h : ofFile w path item = .ok view) :
    ∃ answer root main files others, Snippet.ofFile w path item none none = .ok answer ∧
      searchRoot w path = .ok root ∧ Opens w root path answer main ∧
      candidates w path root = .ok files ∧
      implementationParts w root item ((className? path).getD "unknown implementation")
        files.length 1 files = .ok others ∧
      view = Text.join "\n\n" (main ++ others) := by
  rw [ofFile] at h
  obtain ⟨answer, hanswer, h⟩ := bind_eq_ok.mp h
  obtain ⟨root, hroot, h⟩ := bind_eq_ok.mp h
  cases answer with
  | ok s =>
    obtain ⟨main, hmain, h⟩ := bind_eq_ok.mp h
    obtain ⟨files, hfiles, h⟩ := bind_eq_ok.mp h
    obtain ⟨others, hothers, h⟩ := bind_eq_ok.mp h
    cases h
    exact ⟨.ok s, root, main, files, others, hanswer, hroot,
      .found (shows_of_snippetParts hanswer hmain), hfiles, hothers, rfl⟩
  | error miss =>
    obtain ⟨main, hmain, h⟩ := bind_eq_ok.mp h
    cases hmain
    obtain ⟨files, hfiles, h⟩ := bind_eq_ok.mp h
    obtain ⟨others, hothers, h⟩ := bind_eq_ok.mp h
    cases h
    exact ⟨.error miss, root, [miss.toText], files, others, hanswer, hroot, opens_of_miss miss,
      hfiles, hothers, rfl⟩

theorem listed_hits (w : Workspace) (item : Text) (files : List Text) :
    Listed (fun k (hit : Text × Snippet) => files[k]? = some hit.1 ∧
      Snippet.ofFile w hit.1 item none none = .ok (.ok hit.2)) files.length
      (files.filterMap (hit? w item)) := by
  refine (Listed.of_filterMap (hit? w item) files).congr fun k _ hit => ?_
  rw [Option.bind_eq_some_iff]
  constructor
  · rintro ⟨file, hfile, hhit⟩
    obtain ⟨rfl, hsnippet⟩ := hit?_eq_some_iff.mp hhit
    exact ⟨hfile, hsnippet⟩
  · rintro ⟨hfile, hsnippet⟩
    exact ⟨hit.1, hfile, hit?_eq_some_iff.mpr ⟨rfl, hsnippet⟩⟩

end

/-- A view that is shown starts with the snippet of the item. Behind it come the candidates that
mention the item, in their order and numbered from one. -/
theorem ofFile_numbers_implementations (w : Workspace) {path item view : Text}
    (h : ofFile w path item = .ok view) :
    ∃ root expected named files answer main hits groups,
      searchRoot w path = .ok root ∧ candidates w path root = .ok files ∧
      Implementation.NamedFiles w path root named ∧
      Implementation.AreCandidates w path expected named files ∧
      Snippet.ofFile w path item none none = .ok answer ∧ Opens w root path answer main ∧
      Listed (fun k (hit : Text × Snippet) => files[k]? = some hit.1 ∧
        Snippet.ofFile w hit.1 item none none = .ok (.ok hit.2)) files.length hits ∧
      List.Forall₂ (fun (hit : (Text × Snippet) × Nat) group =>
        Shows w root ("--- Impl match: " ++ (className? path).getD "unknown implementation" ++
          " (" ++ Text.ofNat hit.2 ++ "/" ++ Text.ofNat files.length ++ ") ---\n") hit.1.1 hit.1.2
          group)
        (hits.zipIdx 1) groups ∧
      view = Text.join "\n\n" (main ++ groups.flatten) := by
  obtain ⟨answer, root, main, files, others, hanswer, hroot, hmain, hfiles, hothers, rfl⟩ :=
    ofFile_eq_ok h
  obtain ⟨named, hnamed, hcandidates⟩ := Implementation.candidates_eq_ok hfiles
  obtain ⟨groups, rfl, hgroups⟩ := exists_groups_of_implementationParts hothers
  exact ⟨root, _, named, files, answer, main, _, groups, hroot, hfiles, hnamed, hcandidates,
    hanswer, hmain, listed_hits w item files, hgroups, rfl⟩

def sampleService : Workspace where
  tree := ⟨.directory true true [("Service.java", .file true (Utf8.encode "run")),
    ("ServiceImpl.java", .file true (Utf8.encode "run class ServiceImpl")),
    ("x", .directory true true
      [("ServiceImpl.java", .file true (Utf8.encode "class ServiceImpl"))]),
    ("y", .directory true true
      [("ServiceImpl.java", .file true (Utf8.encode "run class ServiceImpl"))])], []⟩
  home := ⟨.root, ["h"]⟩
  settings := ⟨500, 20, 15, 12, 10, 60, 4, []⟩

theorem candidates_sampleService :
    candidates sampleService "/Service.java" ⟨.root, []⟩ =
      .ok ["/ServiceImpl.java", "/x/ServiceImpl.java", "/y/ServiceImpl.java"] := by
  decide +kernel

theorem ofFile_numbers_implementations_sampleService :
    ∃ (view : Text) (main : List Text) (hits : List (Text × Snippet)) (groups : List (List Text)),
      ofFile sampleService "/Service.java" "run" = .ok view ∧
      (∃ hit ∈ hits, hit.1 = "/y/ServiceImpl.java") ∧
      (∀ hit ∈ hits, hit.1 ≠ "/x/ServiceImpl.java") ∧
      List.Forall₂ (fun (hit : (Text × Snippet) × Nat) group =>
        Shows sampleService ⟨.root, []⟩ ("--- Impl match: ServiceImpl (" ++ Text.ofNat hit.2 ++
          "/3) ---\n") hit.1.1 hit.1.2 group) (hits.zipIdx 1) groups ∧
      view = Text.join "\n\n" (main ++ groups.flatten) := by
  have hroot : searchRoot sampleService "/Service.java" = .ok ⟨.root, []⟩ := by decide +kernel
  have hok : (ofFile sampleService "/Service.java" "run").isOk = true := by decide +kernel
  obtain ⟨view, hview⟩ : ∃ view, ofFile sampleService "/Service.java" "run" = .ok view := by
    cases hresult : ofFile sampleService "/Service.java" "run" with
    | error failure =>
      rw [hresult] at hok
      cases hok
    | ok view => exact ⟨view, rfl⟩
  obtain ⟨root, expected, named, files, answer, main, hits, groups, hroot', hfiles, -, -, -, -,
    hhits, hgroups, hjoin⟩ := ofFile_numbers_implementations sampleService hview
  cases hroot.symm.trans hroot'
  cases candidates_sampleService.symm.trans hfiles
  have hfront : ("--- Impl match: " ++ (className? "/Service.java").getD "unknown implementation" ++
      " (" : Text) = "--- Impl match: ServiceImpl (" := by decide +kernel
  have hend : ("/" ++ Text.ofNat 3 ++ ") ---\n" : Text) = "/3) ---\n" := by decide +kernel
  refine ⟨view, main, hits, groups, hview, ?_, ?_, ?_, hjoin⟩
  · have hsnippet : Snippet.ofFile sampleService "/y/ServiceImpl.java" "run" none none =
        .ok (.ok ⟨"/y/ServiceImpl.java", "run", 1, 1, "run class ServiceImpl"⟩) := by
      decide +kernel
    refine ⟨("/y/ServiceImpl.java", ⟨"/y/ServiceImpl.java", "run", 1, 1, "run class ServiceImpl"⟩),
      hhits.mem_iff.mpr ⟨2, ?_, rfl, hsnippet⟩, rfl⟩
    decide
  · intro hit hmem hfile
    obtain ⟨-, -, -, hsnippet⟩ := hhits.mem_iff.mp hmem
    have hmiss : Snippet.ofFile sampleService "/x/ServiceImpl.java" "run" none none =
        .ok (.error (.notMentioned "/x/ServiceImpl.java" "run")) := by
      decide +kernel
    rw [hfile] at hsnippet
    cases hmiss.symm.trans hsnippet
  · refine hgroups.imp fun hit group hshows => ?_
    rw [hfront] at hshows
    rw [← hend]
    simp only [List.append_assoc] at hshows ⊢
    exact hshows

end ItemView

end SourceScout
