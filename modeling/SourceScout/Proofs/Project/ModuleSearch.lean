import SourceScout.Project.Resolve
import SourceScout.Proofs.FileTree.Access
import SourceScout.Proofs.Path.Components
import SourceScout.Proofs.Text.Sorting

/-!
# The search through modules

The modules below a directory form a flat list of source roots. On every tree, what the search finds
is a file below one of them; it is the first that there is whenever the questions that the search
asks have an answer. One entry of a directory that cannot be asked what it is hides all other
entries of that directory.
-/

namespace SourceScout.Project

section

variable (tree : FileTree) (ignored : IgnoredNames) (target here : Path)

/-- What an entry of a directory adds to the source roots; `below` are the source roots below it. -/
def entryRoots (entry : Text × Node) (below : List Path) : List Path :=
  if !entry.2.isDirectory then []
  else if tree.seesDirectory (here.child entry.1 ++ moduleSources) then
    [here.child entry.1 ++ moduleSources]
  else if isIgnored ignored entry.1 then []
  else below

def moduleRoots (here : Path) : Node → List Path
  | .directory _ _ entries =>
    (sortNamed entries).attach.flatMap fun ⟨entry, _hentry⟩ =>
      entryRoots tree ignored here entry (moduleRoots (here.child entry.1) entry.2)
  | _ => []
termination_by node => sizeOf node
decreasing_by exact Node.sizeOf_entry_lt (mem_sortNamed.mp _hentry)

theorem moduleRoots_directory (listable searchable : Bool) (entries : List (Text × Node)) :
    moduleRoots tree ignored here (.directory listable searchable entries) =
      (sortNamed entries).flatMap fun entry => entryRoots tree ignored here entry
        (moduleRoots tree ignored (here.child entry.1) entry.2) := by
  rw [moduleRoots]
  conv_rhs => rw [← List.attach_map_subtype_val (sortNamed entries), List.flatMap_map]

/-- The paths about which the search asks on behalf of an entry; `below` are those below it. -/
def entryQuestions (entry : Text × Node) (below : List Path) : List Path :=
  here.child entry.1 ::
    if !entry.2.isDirectory then []
    else (here.child entry.1 ++ moduleSources) ::
      if tree.seesDirectory (here.child entry.1 ++ moduleSources) then
        [here.child entry.1 ++ moduleSources ++ target]
      else if isIgnored ignored entry.1 then []
      else below

def moduleQuestions (here : Path) : Node → List Path
  | .directory _ _ entries =>
    entries.attach.flatMap fun ⟨entry, _hentry⟩ =>
      entryQuestions tree ignored target here entry (moduleQuestions (here.child entry.1) entry.2)
  | _ => []
termination_by node => sizeOf node
decreasing_by exact Node.sizeOf_entry_lt _hentry

theorem mem_moduleQuestions {listable searchable : Bool} {entries : List (Text × Node)}
    {entry : Text × Node} (hentry : entry ∈ entries) {p : Path}
    (h : p ∈ entryQuestions tree ignored target here entry
      (moduleQuestions tree ignored target (here.child entry.1) entry.2)) :
    p ∈ moduleQuestions tree ignored target here (.directory listable searchable entries) := by
  rw [moduleQuestions]
  exact List.mem_flatMap.mpr ⟨⟨entry, hentry⟩, List.mem_attach _ _, h⟩

def entryHit (entry : Text × Node) : Except Failure (Option Path) := do
  if ← tree.isDirectory (here.child entry.1 ++ moduleSources) then
    let file := here.child entry.1 ++ moduleSources ++ target
    return if ← tree.isFile file then some file else none
  else if isIgnored ignored entry.1 then return none
  else moduleHit tree ignored target (here.child entry.1) entry.2

theorem moduleHits_eq (entries : List (Text × Node)) :
    moduleHits tree ignored target here entries =
      (entries.filter fun entry => entry.2.isDirectory).map fun entry =>
        (entry.1, entryHit tree ignored target here entry) := by
  induction entries with
  | nil => rw [moduleHits]; rfl
  | cons entry entries ih =>
    obtain ⟨name, node⟩ := entry
    cases node with
    | file readable bytes => simpa [moduleHits, Node.isDirectory] using ih
    | link text => simpa [moduleHits, Node.isDirectory] using ih
    | directory listable searchable below =>
      simp only [moduleHits, ih, Node.isDirectory, List.filter_cons, if_true, List.map_cons]
      rfl

theorem moduleHit_directory (listable searchable : Bool) (entries : List (Text × Node)) :
    moduleHit tree ignored target here (.directory listable searchable entries) =
      if listable && canAsk tree here entries then
        firstHit (((sortNamed entries).filter fun entry => entry.2.isDirectory).map fun entry =>
          (entry.1, entryHit tree ignored target here entry))
      else .ok none := by
  rw [moduleHit, moduleHits_eq, sortNamed_map, sortNamed_filter]

def firstFile (roots : List Path) : Option Path := (roots.map (· ++ target)).find? tree.seesFile

end

section

variable {tree : FileTree} {ignored : IgnoredNames} {target here : Path}

/-- A source root is that of a directory among the entries that is a module, or one below a
directory that is neither a module nor ignored. -/
theorem mem_moduleRoots {node : Node} {m : Path} (h : m ∈ moduleRoots tree ignored here node) :
    ∃ listable searchable entries, node = .directory listable searchable entries ∧
      ∃ entry ∈ entries,
        tree.seesDirectory (here.child entry.1 ++ moduleSources) = true ∧
          m = here.child entry.1 ++ moduleSources ∨
        tree.seesDirectory (here.child entry.1 ++ moduleSources) = false ∧
          isIgnored ignored entry.1 = false ∧
          m ∈ moduleRoots tree ignored (here.child entry.1) entry.2 := by
  cases node with
  | file readable bytes =>
    rw [moduleRoots] at h
    · cases h
    · simp
  | link text =>
    rw [moduleRoots] at h
    · cases h
    · simp
  | directory listable searchable entries =>
    rw [moduleRoots_directory] at h
    obtain ⟨entry, hsorted, hm⟩ := List.mem_flatMap.mp h
    refine ⟨listable, searchable, entries, rfl, entry, mem_sortNamed.mp hsorted, ?_⟩
    rw [entryRoots] at hm
    cases hdirectory : entry.2.isDirectory with
    | false => simp [hdirectory] at hm
    | true =>
      cases hmodule : tree.seesDirectory (here.child entry.1 ++ moduleSources) with
      | true => exact .inl ⟨rfl, by simpa [hdirectory, hmodule] using hm⟩
      | false =>
        cases hignored : isIgnored ignored entry.1 with
        | true => simp [hdirectory, hmodule, hignored] at hm
        | false => exact .inr ⟨rfl, rfl, by simpa [hdirectory, hmodule, hignored] using hm⟩

theorem firstFile_append (left right : List Path) :
    firstFile tree target (left ++ right) =
      (firstFile tree target left).or (firstFile tree target right) := by
  rw [firstFile, List.map_append, List.find?_append]
  rfl

theorem firstHit_eq_firstFile {entries : List (Text × Node)}
    {hit : Text × Node → Except Failure (Option Path)} {roots : Text × Node → List Path}
    (h : ∀ entry ∈ entries, entry.2.isDirectory = true →
      hit entry = .ok (firstFile tree target (roots entry)))
    (hnil : ∀ entry ∈ entries, entry.2.isDirectory = false → roots entry = []) :
    firstHit ((entries.filter fun entry => entry.2.isDirectory).map fun entry =>
        (entry.1, hit entry)) = .ok (firstFile tree target (entries.flatMap roots)) := by
  induction entries with
  | nil => rfl
  | cons entry entries ih =>
    have hrest := ih (fun other hother => h other (List.mem_cons_of_mem _ hother))
      fun other hother => hnil other (List.mem_cons_of_mem _ hother)
    rw [List.flatMap_cons, firstFile_append, List.filter_cons]
    cases hdirectory : entry.2.isDirectory with
    | false =>
      rw [hnil entry List.mem_cons_self hdirectory]
      exact hrest
    | true =>
      simp only [if_true, List.map_cons, firstHit, h entry List.mem_cons_self hdirectory, hrest]
      cases firstFile tree target (roots entry) <;> rfl

theorem entryHit_eq_firstFile (hopen : tree.root.Open) {entry : Text × Node}
    (hdirectory : entry.2.isDirectory = true) {below : List Path}
    (hlong : ∀ p ∈ entryQuestions tree ignored target here entry below, tree.isTooLong p = false)
    (hbelow : (∀ p ∈ below, tree.isTooLong p = false) →
      moduleHit tree ignored target (here.child entry.1) entry.2 =
        .ok (firstFile tree target (moduleRoots tree ignored (here.child entry.1) entry.2))) :
    entryHit tree ignored target here entry =
      .ok (firstFile tree target (entryRoots tree ignored here entry
        (moduleRoots tree ignored (here.child entry.1) entry.2))) := by
  simp only [entryQuestions, hdirectory, Bool.not_true, Bool.false_eq_true, if_false,
    List.forall_mem_cons] at hlong
  obtain ⟨-, hsources, hrest⟩ := hlong
  rw [entryHit, entryRoots, FileTree.isDirectory_eq_ok hopen hsources, hdirectory]
  cases hmodule : tree.seesDirectory (here.child entry.1 ++ moduleSources) with
  | true =>
    rw [hmodule, if_pos rfl] at hrest
    have hfile := FileTree.isFile_eq_ok hopen (hrest _ List.mem_cons_self)
    cases hsees : tree.seesFile (here.child entry.1 ++ moduleSources ++ target) <;>
      simp [bind, Except.bind, pure, Except.pure, hfile, hsees, firstFile]
  | false =>
    cases hignored : isIgnored ignored entry.1 with
    | true => rfl
    | false =>
      rw [hmodule, hignored] at hrest
      exact hbelow hrest

theorem moduleHit_eq_firstFile (hopen : tree.root.Open) {node : Node} (hnode : node.Open)
    (hlong : ∀ p ∈ moduleQuestions tree ignored target here node, tree.isTooLong p = false) :
    moduleHit tree ignored target here node =
      .ok (firstFile tree target (moduleRoots tree ignored here node)) := by
  induction node using Node.entriesInduction generalizing here with
  | file readable bytes => rw [moduleHit, moduleRoots] <;> simp [firstFile]
  | link text => rw [moduleHit, moduleRoots] <;> simp [firstFile]
  | directory listable searchable entries ih =>
    obtain ⟨⟨hlistable, -⟩, hentries⟩ := Node.everywhere_directory.mp hnode
    have hentry : ∀ entry ∈ entries, ∀ p ∈ entryQuestions tree ignored target here entry
        (moduleQuestions tree ignored target (here.child entry.1) entry.2),
        tree.isTooLong p = false :=
      fun entry hentry p hp => hlong p (mem_moduleQuestions tree ignored target here hentry hp)
    have hcan : canAsk tree here entries = true := by
      refine List.all_eq_true.mpr fun entry hmem => ?_
      rw [FileTree.isDirectory_eq_ok hopen (hentry entry hmem _ List.mem_cons_self)]
      rfl
    rw [moduleHit_directory, moduleRoots_directory, hlistable, hcan, Bool.and_self, if_pos rfl]
    refine firstHit_eq_firstFile (fun entry hsorted hdirectory => ?_) fun entry _ hdirectory => ?_
    · have hmem := mem_sortNamed.mp hsorted
      exact entryHit_eq_firstFile hopen hdirectory (hentry entry hmem)
        fun hbelow => ih entry hmem (hentries entry hmem) hbelow
    · rw [entryRoots, hdirectory]
      rfl

theorem firstHit_eq_some {answers : List (Text × Except Failure (Option Path))} {file : Path}
    (h : firstHit answers = .ok (some file)) : ∃ answer ∈ answers, answer.2 = .ok (some file) := by
  induction answers with
  | nil => cases h
  | cons answer answers ih =>
    obtain ⟨name, answer⟩ := answer
    rw [firstHit] at h
    obtain ⟨found, hfound, hrest⟩ := bind_eq_ok.mp h
    cases found with
    | some hit =>
      cases hrest
      exact ⟨_, List.mem_cons_self, hfound⟩
    | none =>
      obtain ⟨other, hother, heq⟩ := ih hrest
      exact ⟨other, List.mem_cons_of_mem _ hother, heq⟩

theorem entryHit_eq_some {entry : Text × Node} (hdirectory : entry.2.isDirectory = true)
    {file : Path} {below : List Path}
    (h : entryHit tree ignored target here entry = .ok (some file))
    (hbelow : moduleHit tree ignored target (here.child entry.1) entry.2 = .ok (some file) →
      ∃ m ∈ below, file = m ++ target) :
    ∃ m ∈ entryRoots tree ignored here entry below, file = m ++ target := by
  obtain ⟨isModule, hmodule, hrest⟩ := bind_eq_ok.mp h
  have hsees : tree.seesDirectory (here.child entry.1 ++ moduleSources) = isModule := by
    rw [FileTree.seesDirectory, hmodule]
  rw [entryRoots, hdirectory, hsees]
  cases isModule with
  | true =>
    obtain ⟨isFile, -, hfile⟩ := bind_eq_ok.mp hrest
    cases isFile with
    | true =>
      cases hfile
      exact ⟨_, List.mem_cons_self, rfl⟩
    | false => cases hfile
  | false =>
    cases hignored : isIgnored ignored entry.1 with
    | true =>
      rw [hignored] at hrest
      cases hrest
    | false =>
      rw [hignored] at hrest
      exact hbelow hrest

theorem moduleHit_eq_some {node : Node} {file : Path}
    (h : moduleHit tree ignored target here node = .ok (some file)) :
    ∃ m ∈ moduleRoots tree ignored here node, file = m ++ target := by
  induction node using Node.entriesInduction generalizing here with
  | file readable bytes => rw [moduleHit] at h <;> simp at h ⊢
  | link text => rw [moduleHit] at h <;> simp at h ⊢
  | directory listable searchable entries ih =>
    rw [moduleHit_directory] at h
    split at h
    · obtain ⟨answer, hanswer, hhit⟩ := firstHit_eq_some h
      obtain ⟨entry, hentry, rfl⟩ := List.mem_map.mp hanswer
      obtain ⟨hsorted, hdirectory⟩ := List.mem_filter.mp hentry
      obtain ⟨m, hm, rfl⟩ := entryHit_eq_some hdirectory hhit
        fun hbelow => ih entry (mem_sortNamed.mp hsorted) hbelow
      refine ⟨m, ?_, rfl⟩
      rw [moduleRoots_directory]
      exact List.mem_flatMap.mpr ⟨entry, hsorted, hm⟩
    · cases h

end

section

variable (tree : FileTree) (ignored : IgnoredNames) (root : Path) (qualifiedName : Text)

def modulesBelow : List Path :=
  match tree.lookup root with
  | .ok node => moduleRoots tree ignored root node
  | .error _ => []

def candidates : List Path :=
  (root ++ moduleSources ++ Import.relativePath qualifiedName) ::
    (root ++ Import.relativePath qualifiedName) ::
    (modulesBelow tree ignored root).map (· ++ Import.relativePath qualifiedName)

def questions : List Path :=
  (root ++ moduleSources ++ Import.relativePath qualifiedName) ::
    (root ++ Import.relativePath qualifiedName) ::
    match tree.lookup root with
    | .ok node => moduleQuestions tree ignored (Import.relativePath qualifiedName) root node
    | .error _ => []

theorem resolve?_eq :
    resolve? tree ignored (some root) qualifiedName = (do
      if ← tree.isFile (root ++ moduleSources ++ Import.relativePath qualifiedName) then
        return some (root ++ moduleSources ++ Import.relativePath qualifiedName)
      else if ← tree.isFile (root ++ Import.relativePath qualifiedName) then
        return some (root ++ Import.relativePath qualifiedName)
      else inModules tree ignored root (Import.relativePath qualifiedName)) := by
  simp only [resolve?, List.findM?, bind, Except.bind]
  cases tree.isFile (root ++ moduleSources ++ Import.relativePath qualifiedName) with
  | error failure => rfl
  | ok first =>
    cases first with
    | true => rfl
    | false =>
      cases tree.isFile (root ++ Import.relativePath qualifiedName) with
      | error failure => rfl
      | ok second => cases second <;> rfl

variable {tree ignored root qualifiedName} in
theorem mem_candidates_of_resolve? {file : Path}
    (h : resolve? tree ignored (some root) qualifiedName = .ok (some file)) :
    file ∈ candidates tree ignored root qualifiedName := by
  rw [resolve?_eq] at h
  obtain ⟨inSources, -, hrest⟩ := bind_eq_ok.mp h
  cases inSources with
  | true =>
    cases hrest
    exact List.mem_cons_self
  | false =>
    obtain ⟨inRoot, -, hrest⟩ := bind_eq_ok.mp hrest
    cases inRoot with
    | true =>
      cases hrest
      exact List.mem_cons_of_mem _ List.mem_cons_self
    | false =>
      refine List.mem_cons_of_mem _ (List.mem_cons_of_mem _ (List.mem_map.mpr ?_))
      change inModules tree ignored root _ = _ at hrest
      rw [inModules] at hrest
      split at hrest
      · cases hrest
      · cases hlookup : tree.lookup root with
        | error fault =>
          rw [hlookup] at hrest
          cases hrest
        | ok node =>
          rw [hlookup] at hrest
          obtain ⟨m, hm, hfile⟩ := moduleHit_eq_some hrest
          rw [modulesBelow, hlookup]
          exact ⟨m, hm, hfile.symm⟩

/-- In a tree without access rights in the way, a class is defined by the first file among the
candidates, and by none if none of them is a file; provided that no path about which the search asks
is too long, in itself or through a link, and that the root can be a path at all. -/
theorem resolve?_eq_first_candidate (hopen : tree.root.Open) (hroot : '\x00' ∉ root.toText)
    (hlong : ∀ p ∈ questions tree ignored root qualifiedName, tree.isTooLong p = false) :
    resolve? tree ignored (some root) qualifiedName =
        .ok ((candidates tree ignored root qualifiedName).find? tree.seesFile) ∧
      (resolve? tree ignored (some root) qualifiedName = .ok none ↔
        ∀ file ∈ candidates tree ignored root qualifiedName, tree.seesFile file = false) := by
  simp only [questions, List.forall_mem_cons] at hlong
  obtain ⟨hsources, hplain, hbelow⟩ := hlong
  have hmodules : inModules tree ignored root (Import.relativePath qualifiedName) =
      .ok (firstFile tree (Import.relativePath qualifiedName)
        (modulesBelow tree ignored root)) := by
    rw [inModules, modulesBelow, if_neg (by simpa using hroot)]
    cases hlookup : tree.lookup root with
    | error fault => rfl
    | ok node =>
      rw [hlookup] at hbelow
      exact moduleHit_eq_firstFile hopen (FileTree.lookup_everywhere hopen hlookup) hbelow
  have hresolve : resolve? tree ignored (some root) qualifiedName =
      .ok ((candidates tree ignored root qualifiedName).find? tree.seesFile) := by
    rw [resolve?_eq, FileTree.isFile_eq_ok hopen hsources, FileTree.isFile_eq_ok hopen hplain,
      hmodules, candidates, List.find?_cons, List.find?_cons]
    cases tree.seesFile (root ++ moduleSources ++ Import.relativePath qualifiedName) with
    | true => rfl
    | false => cases tree.seesFile (root ++ Import.relativePath qualifiedName) <;> rfl
  refine ⟨hresolve, ?_⟩
  rw [hresolve]
  simp

end

def sampleModule (file : Text) : Node :=
  .directory true true [("src", .directory true true [("main", .directory true true
    [("java", .directory true true [(file, .file true [])])])])]

def sampleTree (link : Text) : FileTree :=
  ⟨.directory true true [("z", .link link), ("lib", .directory true true
    [("core", sampleModule "A.java")]), ("app", sampleModule "B.java")], []⟩

theorem sampleTree_open (link : Text) : (sampleTree link).root.Open := by
  simp [sampleTree, sampleModule, Node.Open]

theorem resolve?_eq_first_candidate_nested :
    (sampleTree "lib").root.Open ∧
      (candidates (sampleTree "lib") [] ⟨.root, []⟩ "A").find? (sampleTree "lib").seesFile =
        some ⟨.root, ["lib", "core", "src", "main", "java", "A.java"]⟩ ∧
      resolve? (sampleTree "lib") [] (some ⟨.root, []⟩) "A" =
        .ok (some ⟨.root, ["lib", "core", "src", "main", "java", "A.java"]⟩) := by
  have hfind : (candidates (sampleTree "lib") [] ⟨.root, []⟩ "A").find?
      (sampleTree "lib").seesFile =
      some ⟨.root, ["lib", "core", "src", "main", "java", "A.java"]⟩ := by decide +kernel
  refine ⟨sampleTree_open _, hfind, ?_⟩
  rw [← hfind]
  exact (resolve?_eq_first_candidate (sampleTree "lib") [] ⟨.root, []⟩ "A" (sampleTree_open _)
    (by decide +kernel) (by decide +kernel)).1

/-- A link to a name of 256 bytes hides all modules beside it, however short the names of the class
are. -/
theorem resolve?_eq_none_of_long_link :
    (sampleTree (List.replicate 256 'x')).root.Open ∧
      (∀ name ∈ (Import.relativePath "A").names, name.utf8Length ≤ FileTree.maxNameLength) ∧
      (candidates (sampleTree (List.replicate 256 'x')) [] ⟨.root, []⟩ "A").find?
          (sampleTree (List.replicate 256 'x')).seesFile =
        some ⟨.root, ["lib", "core", "src", "main", "java", "A.java"]⟩ ∧
      resolve? (sampleTree (List.replicate 256 'x')) [] (some ⟨.root, []⟩) "A" = .ok none := by
  exact ⟨sampleTree_open _, by decide +kernel, by decide +kernel, by decide +kernel⟩

end SourceScout.Project
