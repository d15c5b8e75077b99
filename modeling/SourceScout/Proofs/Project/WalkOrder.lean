import SourceScout.Proofs.FileTree.Reordering
import SourceScout.Proofs.Project.IgnoredDirectories

/-!
# What a walk lists, and in which order

In a tree as file systems have them, a walk lists the files that a way down of listable directories
leads to, none of them ignored, each file once: first those of a directory itself by name, then
those of its subdirectories by name. So the order in which entries stand in the tree has no part in
it.
-/

namespace SourceScout

namespace Path

/-- The order in which the names that lead to files follow each other: a file of the directory
itself comes before those below, files among each other and subdirectories by name. -/
inductive Precedes : List Text → List Text → Prop
  | files {a b : Text} (h : a < b) : Precedes [a] [b]
  | above {a b : Text} {names : List Text} (hnames : names ≠ []) : Precedes [a] (b :: names)
  | beside {a b : Text} {names others : List Text} (hnames : names ≠ []) (hothers : others ≠ [])
      (h : a < b) : Precedes (a :: names) (b :: others)
  | inside {a : Text} {names others : List Text} (h : Precedes names others) :
      Precedes (a :: names) (a :: others)

theorem Precedes.asymm {names others : List Text} (h : Precedes names others) :
    ¬Precedes others names := by
  induction h with
  | files h =>
    intro hback
    cases hback with
    | files hlt => exact List.lt_asymm h hlt
    | above hnames => exact hnames rfl
    | beside hnames => exact hnames rfl
    | inside hnil => cases hnil
  | above hnames =>
    intro hback
    cases hback with
    | files => exact hnames rfl
    | above hnil => exact hnil rfl
    | beside _ hnil => exact hnil rfl
    | inside hnil => cases hnil
  | beside hnames hothers h =>
    intro hback
    cases hback with
    | files => exact hnames rfl
    | above => exact hothers rfl
    | beside _ _ hlt => exact List.lt_asymm h hlt
    | inside _ => exact List.lt_irrefl _ h
  | inside h ih =>
    intro hback
    cases hback with
    | files hlt => exact List.lt_irrefl _ hlt
    | above => cases h
    | beside _ _ hlt => exact List.lt_irrefl _ hlt
    | inside hinner => exact ih hinner

theorem down_injective {p : Path} {names others : List Text} (h : p.down names = p.down others) :
    names = others := by
  simpa [down] using h

def Before (here p q : Path) : Prop :=
  ∃ names others, p = here.down names ∧ q = here.down others ∧ Precedes names others

theorem Before.asymm {here p q : Path} (h : Before here p q) : ¬Before here q p := by
  rintro ⟨others, names, rfl, rfl, hback⟩
  obtain ⟨names', others', hp, hq, hforth⟩ := h
  rw [← down_injective hp, ← down_injective hq] at hforth
  exact hforth.asymm hback

theorem nodup_of_before {here : Path} {files : List Path} (h : files.Pairwise (Before here)) :
    files.Nodup := by
  refine h.imp ?_
  rintro p q hbefore rfl
  exact hbefore.asymm hbefore

theorem Before.of_child {here p q : Path} {name : Text} (h : Before (here.child name) p q) :
    Before here p q := by
  obtain ⟨names, others, rfl, rfl, hprecedes⟩ := h
  exact ⟨_, _, child_down here name names, child_down here name others, .inside hprecedes⟩

end Path

namespace FileTree

variable {tree : FileTree} {ignored : IgnoredNames} {ending : Text} {here : Path}

/-- The way down to a file that ends with `ending`: through directories that can be listed and are
neither ignored nor hidden, to an entry that is no directory, nor a link that leads to one. -/
inductive WayDown (tree : FileTree) (ignored : IgnoredNames) (ending : Text) :
    Path → List Text → Text → Prop
  | here {here : Path} {entries : List (Text × Node)} {name : Text} {node : Node}
      (listed : tree.entries here = .ok entries) (mem : (name, node) ∈ entries)
      (no_directory : node.isDirectory = false)
      (no_link : node.isLink = true → ∀ found, tree.lookup (here.child name) = .ok found →
        found.isDirectory = false)
      (ends : ending <:+ name) :
      WayDown tree ignored ending here [] name
  | inside {here : Path} {entries : List (Text × Node)} {directory name : Text} {node : Node}
      {directories : List Text}
      (listed : tree.entries here = .ok entries) (mem : (directory, node) ∈ entries)
      (real : node.isDirectory = true) (kept : directory ∉ ignored) (shown : ¬['.'] <+: directory)
      (rest : WayDown tree ignored ending (here.child directory) directories name) :
      WayDown tree ignored ending here (directory :: directories) name

theorem entries_eq_ok {found : List (Text × Node)} :
    tree.entries here = .ok found ↔ '\x00' ∉ here.toText ∧ ∃ searchable entries,
      tree.lookup here = .ok (.directory true searchable entries) ∧ found = sortNamed entries := by
  rw [FileTree.entries]
  by_cases hnul : '\x00' ∈ here.toText
  · simp [hnul]
  · rw [if_neg (by simpa using hnul)]
    cases tree.lookup here with
    | error fault => simp
    | ok node =>
      cases node with
      | file readable bytes => simp
      | link target => simp
      | directory listable searchable entries => cases listable <;> simp [hnul, eq_comm]

theorem WayDown.exists_entries {directories : List Text} {name : Text}
    (h : WayDown tree ignored ending here directories name) :
    ∃ entries, tree.entries here = .ok entries := by
  cases h with
  | here hlisted => exact ⟨_, hlisted⟩
  | inside hlisted => exact ⟨_, hlisted⟩

theorem isIgnored_eq_false {name : Text} :
    isIgnored ignored name = false ↔ name ∉ ignored ∧ ¬['.'] <+: name := by
  rw [isIgnored, Text.startsWith, Bool.or_eq_false_iff, ← Bool.not_eq_true, ← Bool.not_eq_true,
    List.isPrefixOf_iff_prefix, List.contains_iff_mem]
  rfl

theorem countsAsDirectory_eq_false {name : Text} {node : Node} :
    tree.countsAsDirectory here (name, node) = false ↔ node.isDirectory = false ∧
      (node.isLink = true → ∀ found, tree.lookup (here.child name) = .ok found →
        found.isDirectory = false) := by
  rw [countsAsDirectory]
  cases node with
  | file readable bytes => simp [Node.isDirectory, Node.isLink]
  | directory listable searchable entries => simp [Node.isDirectory]
  | link target =>
    cases tree.lookup (here.child name) with
    | error fault => simp [Node.isDirectory]
    | ok found => simp [Node.isDirectory, Node.isLink]

theorem mem_filesHere_iff {entries : List (Text × Node)} {file : Path} :
    file ∈ tree.filesHere ending here entries ↔ ∃ name node, (name, node) ∈ entries ∧
      tree.countsAsDirectory here (name, node) = false ∧ ending <:+ name ∧
        file = here.child name := by
  simp only [filesHere, List.mem_map, List.mem_filter, mem_sortNamed, Bool.and_eq_true,
    Bool.not_eq_true', Text.endsWith, List.isSuffixOf_iff_suffix]
  constructor
  · rintro ⟨⟨name, node⟩, ⟨hmem, hcounts, hends⟩, rfl⟩
    exact ⟨name, node, hmem, hcounts, hends, rfl⟩
  · rintro ⟨name, node, hmem, hcounts, hends, rfl⟩
    exact ⟨(name, node), ⟨hmem, hcounts, hends⟩, rfl⟩

theorem mem_walkEntries_of_mem {entries : List (Text × Node)} {name : Text} {node : Node}
    (h : (name, node) ∈ entries) (hname : isIgnored ignored name = false) :
    (name, tree.walkNode ignored ending (here.child name) node) ∈
      tree.walkEntries ignored ending here entries := by
  induction entries with
  | nil => cases h
  | cons entry entries ih =>
    obtain ⟨other, found⟩ := entry
    rw [walkEntries]
    rcases List.mem_cons.mp h with heq | hrest
    · cases heq
      rw [if_neg (by simp [hname])]
      exact List.mem_cons_self
    · split
      · exact ih hrest
      · exact List.mem_cons_of_mem _ (ih hrest)

theorem length_of_mem_walkNode {node : Node} {file : Path}
    (h : file ∈ tree.walkNode ignored ending here node) :
    here.toText.utf8Length < maxPathLength := by
  obtain ⟨listable, searchable, entries, rfl, -⟩ := mem_walkNode h
  rw [walkNode] at h
  split at h
  · cases h
  · rename_i hopen
    simp only [Bool.or_eq_true, decide_eq_true_eq, not_or] at hopen
    omega

theorem mem_walkNode_directory (hlength : here.toText.utf8Length < maxPathLength)
    {listable searchable : Bool} {entries : List (Text × Node)} {file : Path} :
    file ∈ tree.walkNode ignored ending here (.directory listable searchable entries) ↔
      listable = true ∧ (file ∈ tree.filesHere ending here entries ∨
        searchable = true ∧ ∃ name node, (name, node) ∈ entries ∧
          isIgnored ignored name = false ∧
            file ∈ tree.walkNode ignored ending (here.child name) node) := by
  rw [walkNode]
  cases listable with
  | false => simp
  | true =>
    rw [if_neg (by simpa using hlength), List.mem_append]
    simp only [true_and]
    refine or_congr_right ?_
    cases searchable with
    | false => simp
    | true =>
      simp only [if_true, true_and, List.mem_flatMap, mem_sortNamed]
      constructor
      · rintro ⟨⟨name, files⟩, hwalk, hfile⟩
        obtain ⟨hname, node, hmem, rfl⟩ := mem_walkEntries hwalk
        exact ⟨name, node, hmem, hname, hfile⟩
      · rintro ⟨name, node, hmem, hname, hfile⟩
        exact ⟨_, mem_walkEntries_of_mem hmem hname, hfile⟩

theorem lookup_subdirectory {listable searchable : Bool} {entries : List (Text × Node)}
    (hlookup : tree.lookup here = .ok (.directory listable searchable entries))
    (hformed : (Node.directory listable searchable entries).WellFormed) {name : Text} {node : Node}
    (hmem : (name, node) ∈ entries) (hreal : node.isDirectory = true) :
    tree.lookup (here.child name) =
      if maxPathLength ≤ (here.child name).toText.utf8Length then .error .nameTooLong
      else if searchable then .ok node else .error .denied := by
  cases hformed with
  | directory hhere _ =>
    obtain ⟨hname, -, hshort⟩ := hhere.2 _ hmem
    refine lookup_child hlookup hname hshort (Node.child?_of_mem hhere.1 hmem) ?_
    cases node with
    | file readable bytes => rfl
    | link target => cases hreal
    | directory listable searchable entries => rfl

theorem wayDown_of_mem_walkNode {node : Node} (hformed : node.WellFormed)
    (hlookup : tree.lookup here = .ok node) (hnul : '\x00' ∉ here.toText) {file : Path}
    (h : file ∈ tree.walkNode ignored ending here node) :
    ∃ directories name, WayDown tree ignored ending here directories name ∧
      file = here.down (directories ++ [name]) := by
  induction hformed generalizing here with
  | file readable bytes =>
    obtain ⟨_, _, _, hnode, -⟩ := mem_walkNode h
    cases hnode
  | link target =>
    obtain ⟨_, _, _, hnode, -⟩ := mem_walkNode h
    cases hnode
  | @directory listable searchable entries hhere hbelow ih =>
    rw [mem_walkNode_directory (length_of_lookup hlookup)] at h
    obtain ⟨rfl, hfile | ⟨rfl, name, node, hmem, hname, hfile⟩⟩ := h
    · obtain ⟨name, node, hmem, hcounts, hends, rfl⟩ := mem_filesHere_iff.mp hfile
      obtain ⟨hnode, hlink⟩ := countsAsDirectory_eq_false.mp hcounts
      exact ⟨[], name, .here (entries_eq_ok.mpr ⟨hnul, _, _, hlookup, rfl⟩)
        (mem_sortNamed.mpr hmem) hnode hlink hends, rfl⟩
    · have hreal : node.isDirectory = true := by
        obtain ⟨_, _, _, rfl, -⟩ := mem_walkNode hfile
        rfl
      have hchild : tree.lookup (here.child name) = .ok node := by
        rw [lookup_subdirectory hlookup (.directory hhere hbelow) hmem hreal,
          if_neg (Nat.not_le.mpr (length_of_mem_walkNode hfile)), if_pos rfl]
      have hclean : '\x00' ∉ (here.child name).toText := fun hchar =>
        (Path.nul_mem_child.mp hchar).elim hnul (hhere.2 _ hmem).2.1
      obtain ⟨directories, last, hlisted, rfl⟩ := ih (name, node) hmem hchild hclean hfile
      obtain ⟨hkept, hshown⟩ := isIgnored_eq_false.mp hname
      exact ⟨name :: directories, last, .inside (entries_eq_ok.mpr ⟨hnul, _, _, hlookup, rfl⟩)
        (mem_sortNamed.mpr hmem) hreal hkept hshown hlisted, Path.child_down here name _⟩

theorem mem_walkNode_of_listed {node : Node} (hformed : node.WellFormed)
    (hlookup : tree.lookup here = .ok node) {directories : List Text} {name : Text}
    (h : WayDown tree ignored ending here directories name) :
    here.down (directories ++ [name]) ∈ tree.walkNode ignored ending here node := by
  induction h generalizing node with
  | here hentries hmem hnode hlink hends =>
    obtain ⟨-, _, _, hdirectory, rfl⟩ := entries_eq_ok.mp hentries
    cases hlookup.symm.trans hdirectory
    rw [mem_walkNode_directory (length_of_lookup hlookup)]
    exact ⟨rfl, .inl (mem_filesHere_iff.mpr ⟨_, _, mem_sortNamed.mp hmem,
      countsAsDirectory_eq_false.mpr ⟨hnode, hlink⟩, hends, rfl⟩)⟩
  | @inside here _ name last child directories hentries hmem hreal hkept hshown hrest ih =>
    obtain ⟨-, searchable, entries, hdirectory, rfl⟩ := entries_eq_ok.mp hentries
    cases hlookup.symm.trans hdirectory
    have hmem := mem_sortNamed.mp hmem
    -- The subdirectory can be listed, so the path to it is short and this directory is passed.
    have hsub := lookup_subdirectory hlookup hformed hmem hreal
    obtain ⟨found, hfound⟩ := hrest.exists_entries
    obtain ⟨-, _, _, hbelow, -⟩ := entries_eq_ok.mp hfound
    rw [hbelow] at hsub
    split at hsub
    · cases hsub
    · split at hsub
      · rename_i hpass
        cases hsub
        cases hformed with
        | directory hhere hinner =>
          rw [mem_walkNode_directory (length_of_lookup hlookup)]
          refine ⟨rfl, .inr ⟨hpass, name, _, hmem, isIgnored_eq_false.mpr ⟨hkept, hshown⟩, ?_⟩⟩
          have hfile := ih (hinner _ hmem) hbelow
          rwa [Path.child_down] at hfile
      · cases hsub

theorem map_fst_walkEntries (entries : List (Text × Node)) :
    (tree.walkEntries ignored ending here entries).map (·.1) =
      (entries.map (·.1)).filter fun name => !isIgnored ignored name := by
  induction entries with
  | nil => rfl
  | cons entry entries ih =>
    obtain ⟨name, node⟩ := entry
    rw [walkEntries]
    cases hname : isIgnored ignored name with
    | true => simp [hname, ih]
    | false => simp [hname, ih]

theorem pairwise_filesHere {entries : List (Text × Node)} (hnodup : (entries.map (·.1)).Nodup) :
    (tree.filesHere ending here entries).Pairwise (Path.Before here) := by
  rw [filesHere, List.pairwise_map]
  refine List.Pairwise.filter _ ((pairwise_sortNamed hnodup).imp ?_)
  intro entry other hlt
  exact ⟨[entry.1], [other.1], rfl, rfl, .files hlt⟩

theorem exists_down_of_mem_walkNode {node : Node} {name : Text} {file : Path}
    (h : file ∈ tree.walkNode ignored ending (here.child name) node) :
    ∃ names, names ≠ [] ∧ file = here.down (name :: names) := by
  obtain ⟨directories, last, rfl, -⟩ := entered_of_mem_walkNode h
  exact ⟨directories ++ [last], by simp, Path.child_down here name _⟩

theorem pairwise_walkNode {node : Node} (hformed : node.WellFormed) :
    (tree.walkNode ignored ending here node).Pairwise (Path.Before here) := by
  induction hformed generalizing here with
  | file readable bytes =>
    rw [walkNode]
    · exact .nil
    · simp
  | link target =>
    rw [walkNode]
    · exact .nil
    · simp
  | @directory listable searchable entries hhere _ ih =>
    have hnames : ((tree.walkEntries ignored ending here entries).map (·.1)).Nodup := by
      rw [map_fst_walkEntries]
      exact hhere.1.filter _
    rw [walkNode]
    split
    · exact .nil
    · refine List.pairwise_append.mpr ⟨pairwise_filesHere hhere.1, ?_, ?_⟩
      · split
        · refine List.pairwise_flatMap.mpr ⟨?_, (pairwise_sortNamed hnames).imp_of_mem ?_⟩
          · rintro ⟨name, files⟩ hwalk
            obtain ⟨-, node, hmem, rfl⟩ := mem_walkEntries (mem_sortNamed.mp hwalk)
            exact (ih (name, node) hmem).imp Path.Before.of_child
          · rintro ⟨name, files⟩ ⟨other, others⟩ hwalk hlater hlt file hfile next hnext
            obtain ⟨-, node, -, rfl⟩ := mem_walkEntries (mem_sortNamed.mp hwalk)
            obtain ⟨-, later, -, rfl⟩ := mem_walkEntries (mem_sortNamed.mp hlater)
            obtain ⟨names, hne, rfl⟩ := exists_down_of_mem_walkNode hfile
            obtain ⟨below, hbelow, rfl⟩ := exists_down_of_mem_walkNode hnext
            exact ⟨_, _, rfl, rfl, .beside hne hbelow hlt⟩
        · exact .nil
      · intro file hfile next hnext
        obtain ⟨entry, -, rfl⟩ := mem_filesHere hfile
        split at hnext
        · obtain ⟨⟨name, files⟩, hwalk, hmem⟩ := List.mem_flatMap.mp hnext
          obtain ⟨-, node, -, rfl⟩ := mem_walkEntries (mem_sortNamed.mp hwalk)
          obtain ⟨names, hne, rfl⟩ := exists_down_of_mem_walkNode hmem
          exact ⟨[entry.1], _, rfl, rfl, .above hne⟩
        · cases hnext

theorem exists_walk_eq_ok (hformed : tree.root.WellFormed) (ignored : IgnoredNames) (ending : Text)
    {root : Path} (hnul : '\x00' ∉ root.toText) :
    ∃ files, tree.walk ignored ending root = .ok files ∧ files.Pairwise (Path.Before root) ∧
      ∀ file, file ∈ files ↔ ∃ directories name,
        WayDown tree ignored ending root directories name ∧
          file = root.down (directories ++ [name]) := by
  rw [walk, if_neg (by simpa using hnul)]
  cases hlookup : tree.lookup root with
  | error fault =>
    refine ⟨[], rfl, .nil, ?_⟩
    intro file
    constructor
    · intro h
      cases h
    · rintro ⟨directories, name, hlisted, -⟩
      obtain ⟨entries, hentries⟩ := hlisted.exists_entries
      simp [entries_eq_ok, hlookup] at hentries
  | ok node =>
    have hnode : node.WellFormed := lookup_everywhere hformed hlookup
    refine ⟨_, rfl, pairwise_walkNode hnode, ?_⟩
    intro file
    constructor
    · exact wayDown_of_mem_walkNode hnode hlookup hnul
    · rintro ⟨directories, name, hlisted, rfl⟩
      exact mem_walkNode_of_listed hnode hlookup hlisted

theorem exists_entries_reordered {other : FileTree} (hreordered : tree.root.Reordered other.root)
    (hworking : tree.workingDirectory = other.workingDirectory) (hformed : tree.root.WellFormed)
    {found : List (Text × Node)} (hfound : tree.entries here = .ok found) :
    ∃ others, other.entries here = .ok others ∧ ∀ name node, (name, node) ∈ found →
      ∃ same, (name, same) ∈ others ∧ node.Reordered same := by
  obtain ⟨hnul, searchable, entries, hlookup, rfl⟩ := entries_eq_ok.mp hfound
  obtain ⟨same, hsame, hdirectory⟩ := lookup_reordered hreordered hworking hformed hlookup
  cases hdirectory with
  | directory hnames hbelow =>
    refine ⟨_, entries_eq_ok.mpr ⟨hnul, _, _, hsame, rfl⟩, ?_⟩
    intro name node hmem
    obtain ⟨child, hchild⟩ := Node.exists_mem_of_perm hnames (mem_sortNamed.mp hmem)
    exact ⟨child, mem_sortNamed.mpr hchild, hbelow _ _ _ (mem_sortNamed.mp hmem) hchild⟩

theorem WayDown.reordered {other : FileTree} (hreordered : tree.root.Reordered other.root)
    (hworking : tree.workingDirectory = other.workingDirectory) (hformed : tree.root.WellFormed)
    {directories : List Text} {name : Text}
    (h : WayDown tree ignored ending here directories name) :
    WayDown other ignored ending here directories name := by
  induction h with
  | here hentries hmem hnode hlink hends =>
    obtain ⟨others, hothers, hsame⟩ := exists_entries_reordered hreordered hworking hformed hentries
    obtain ⟨same, hmem', hnodes⟩ := hsame _ _ hmem
    refine .here hothers hmem' (hnodes.isDirectory_eq ▸ hnode) ?_ hends
    intro hislink found hfound
    obtain ⟨back, hback, hfounds⟩ := lookup_reordered hreordered.symm hworking.symm
      (hreordered.wellFormed hformed) hfound
    rw [hfounds.isDirectory_eq]
    exact hlink (hnodes.isLink_eq ▸ hislink) back hback
  | inside hentries hmem hreal hkept hshown _ ih =>
    obtain ⟨others, hothers, hsame⟩ := exists_entries_reordered hreordered hworking hformed hentries
    obtain ⟨same, hmem', hnodes⟩ := hsame _ _ hmem
    exact .inside hothers hmem' (hnodes.isDirectory_eq ▸ hreal) hkept hshown ih

theorem walk_reordered {other : FileTree} (hreordered : tree.root.Reordered other.root)
    (hworking : tree.workingDirectory = other.workingDirectory) (hformed : tree.root.WellFormed)
    (ignored : IgnoredNames) (ending : Text) (root : Path) :
    other.walk ignored ending root = tree.walk ignored ending root := by
  by_cases hnul : '\x00' ∈ root.toText
  · rw [walk, walk, if_pos (by simpa using hnul), if_pos (by simpa using hnul)]
  · have hother := hreordered.wellFormed hformed
    obtain ⟨files, hfiles, hordered, hmem⟩ := exists_walk_eq_ok hformed ignored ending hnul
    obtain ⟨others, hothers, hordered', hmem'⟩ := exists_walk_eq_ok hother ignored ending hnul
    rw [hfiles, hothers]
    -- Two lists of the same files in one strict order are equal.
    have hperm : others.Perm files := by
      refine (List.perm_ext_iff_of_nodup (Path.nodup_of_before hordered')
        (Path.nodup_of_before hordered)).mpr ?_
      intro file
      rw [hmem, hmem']
      constructor
      · rintro ⟨directories, name, hlisted, rfl⟩
        exact ⟨directories, name, hlisted.reordered hreordered.symm hworking.symm hother, rfl⟩
      · rintro ⟨directories, name, hlisted, rfl⟩
        exact ⟨directories, name, hlisted.reordered hreordered hworking hformed, rfl⟩
    have hasymm : ∀ p q, p ∈ others → q ∈ files → Path.Before root p q → Path.Before root q p →
        p = q := fun p q _ _ hpq hqp => absurd hqp hpq.asymm
    rw [List.Perm.eq_of_pairwise hasymm hordered' hordered hperm]

/-- In a tree as file systems have them, a walk from any path lists exactly the files that a way
down leads to, each once and in a fixed order, which does not depend on how the entries stand in the
tree. A NUL in the path makes the walk fail; nothing is below such a path. -/
theorem walk_lists_exactly (tree : FileTree) (hformed : tree.root.WellFormed)
    (ignored : IgnoredNames) (ending : Text) (root : Path) :
    ('\x00' ∈ root.toText → tree.walk ignored ending root = .error .nulInPath ∧
      ∀ directories name, ¬WayDown tree ignored ending root directories name) ∧
    ('\x00' ∉ root.toText → ∃ files, tree.walk ignored ending root = .ok files ∧
      files.Nodup ∧ files.Pairwise (Path.Before root) ∧
      ∀ file, file ∈ files ↔ ∃ directories name,
        WayDown tree ignored ending root directories name ∧
          file = root.down (directories ++ [name])) ∧
    ∀ other : FileTree, tree.root.Reordered other.root →
      tree.workingDirectory = other.workingDirectory →
        other.walk ignored ending root = tree.walk ignored ending root := by
  refine ⟨?_, ?_, ?_⟩
  · intro hnul
    refine ⟨by rw [walk, if_pos (by simpa using hnul)], ?_⟩
    intro directories name hlisted
    obtain ⟨entries, hentries⟩ := hlisted.exists_entries
    exact (entries_eq_ok.mp hentries).1 hnul
  · intro hnul
    obtain ⟨files, hfiles, hordered, hmem⟩ := exists_walk_eq_ok hformed ignored ending hnul
    exact ⟨files, hfiles, Path.nodup_of_before hordered, hordered, hmem⟩
  · intro other hreordered hworking
    exact walk_reordered hreordered hworking hformed ignored ending root

/-- An ignored and a hidden directory beside one that is entered, a broken link, and a link to a
directory. -/
def sampleEntries : List (Text × Node) :=
  [("src", .directory true true [("X.java", .file true [])]), ("B.java", .link "gone"),
    ("l.java", .link "src"), ("gen", .directory true true [("Y.java", .file true [])]),
    (".hid", .directory true true [("Z.java", .file true [])]), ("A.java", .file true [])]

theorem walk_lists_exactly_sampleEntries :
    (Node.directory true true sampleEntries).WellFormed ∧
      FileTree.walk ⟨.directory true true sampleEntries.reverse, []⟩ ["gen"] ".java" ⟨.root, []⟩ =
        .ok [⟨.root, ["A.java"]⟩, ⟨.root, ["B.java"]⟩, ⟨.root, ["src", "X.java"]⟩] ∧
      ∃ directories name, WayDown ⟨.directory true true sampleEntries, []⟩ ["gen"] ".java"
        ⟨.root, []⟩ directories name ∧ directories ++ [name] = ["src", "X.java"] := by
  have hformed : (Node.directory true true sampleEntries).WellFormed := by
    simp only [Node.WellFormed, sampleEntries, Node.everywhere_directory, Node.everywhere_file,
      Node.everywhere_link, List.forall_mem_cons, List.not_mem_nil, false_implies, implies_true,
      and_true, true_and]
    refine ⟨⟨?_, ?_⟩, ?_⟩ <;> decide
  obtain ⟨-, hlists, hreordered⟩ := walk_lists_exactly ⟨.directory true true sampleEntries, []⟩
    hformed ["gen"] ".java" ⟨.root, []⟩
  have hwalk : FileTree.walk ⟨.directory true true sampleEntries, []⟩ ["gen"] ".java" ⟨.root, []⟩ =
      .ok [⟨.root, ["A.java"]⟩, ⟨.root, ["B.java"]⟩, ⟨.root, ["src", "X.java"]⟩] := by
    decide +kernel
  refine ⟨hformed, ?_, ?_⟩
  · rw [hreordered ⟨.directory true true sampleEntries.reverse, []⟩
      (Node.reordered_of_perm hformed (List.reverse_perm sampleEntries).symm) rfl, hwalk]
  · obtain ⟨files, hfiles, -, -, hmem⟩ := hlists (by decide)
    cases hwalk.symm.trans hfiles
    obtain ⟨directories, name, hlisted, hdown⟩ := (hmem ⟨.root, ["src", "X.java"]⟩).mp (by decide)
    exact ⟨directories, name, hlisted, by simpa [Path.down, eq_comm] using hdown⟩

/-- A link to a directory that the walk cannot see, as the directory above it refuses to be passed:
the link is listed. -/
theorem walk_lists_hidden_directory_link :
    let root : Node := .directory true true [("w", .directory true true
      [("c", .directory false false [("x", .empty)]), ("l.java", .link "c/x")])]
    root.below? ["w", "l.java"] = some (.link "c/x") ∧ root.below? ["w", "c", "x"] = some .empty ∧
      FileTree.walk ⟨root, []⟩ [] ".java" ⟨.root, ["w"]⟩ =
        .ok [⟨.root, ["w", "l.java"]⟩] := by
  exact ⟨rfl, rfl, by decide +kernel⟩

end FileTree

end SourceScout
