import SourceScout.Proofs.FileTree.Descent

/-!
# Trees that differ in the order of their entries

Two trees that have the same entries in every directory, though in different orders, send every path
to the same place, and there the same is found up to the order of entries.
-/

namespace SourceScout

namespace Node

inductive Reordered : Node → Node → Prop
  | file (readable : Bool) (bytes : List UInt8) :
      Reordered (.file readable bytes) (.file readable bytes)
  | link (target : Text) : Reordered (.link target) (.link target)
  | directory {listable searchable : Bool} {entries others : List (Text × Node)}
      (names : (entries.map (·.1)).Perm (others.map (·.1)))
      (below : ∀ name child other, (name, child) ∈ entries → (name, other) ∈ others →
        Reordered child other) :
      Reordered (.directory listable searchable entries) (.directory listable searchable others)

variable {a b : Node}

theorem Reordered.symm (h : Reordered a b) : Reordered b a := by
  induction h with
  | file readable bytes => exact .file readable bytes
  | link target => exact .link target
  | directory hnames _ ih =>
    refine .directory hnames.symm ?_
    intro name other child hother hchild
    exact ih name child other hchild hother

theorem Reordered.refl (hformed : a.WellFormed) : Reordered a a := by
  induction hformed with
  | file readable bytes => exact .file readable bytes
  | link target => exact .link target
  | directory hhere _ ih =>
    refine .directory (.refl _) ?_
    intro name child other hchild hother
    have hsame := (child?_of_mem hhere.1 hchild).symm.trans (child?_of_mem hhere.1 hother)
    cases hsame
    exact ih _ hchild

theorem reordered_of_perm {listable searchable : Bool} {entries others : List (Text × Node)}
    (hformed : (directory listable searchable entries).WellFormed) (h : entries.Perm others) :
    Reordered (.directory listable searchable entries)
      (.directory listable searchable others) := by
  cases Reordered.refl hformed with
  | directory _ hbelow =>
    refine .directory (h.map _) ?_
    intro name child other hchild hother
    exact hbelow name child other hchild (h.mem_iff.mpr hother)

theorem Reordered.isDirectory_eq (h : Reordered a b) : a.isDirectory = b.isDirectory := by
  cases h <;> rfl

theorem Reordered.isLink_eq (h : Reordered a b) : a.isLink = b.isLink := by
  cases h <;> rfl

theorem exists_mem_of_perm {entries others : List (Text × Node)}
    (h : (entries.map (·.1)).Perm (others.map (·.1))) {name : Text} {child : Node}
    (hmem : (name, child) ∈ entries) : ∃ other, (name, other) ∈ others := by
  have hname : name ∈ entries.map (·.1) := List.mem_map.mpr ⟨_, hmem, rfl⟩
  obtain ⟨⟨_, other⟩, hother, rfl⟩ := List.mem_map.mp (h.mem_iff.mp hname)
  exact ⟨other, hother⟩

theorem Reordered.wellFormed (h : Reordered a b) (hformed : a.WellFormed) : b.WellFormed := by
  induction h with
  | file readable bytes => exact .file readable bytes
  | link target => exact .link target
  | directory hnames _ ih =>
    cases hformed with
    | directory hhere hbelow =>
      refine .directory ⟨hnames.nodup_iff.mp hhere.1, ?_⟩ ?_
      · rintro ⟨name, other⟩ hother
        obtain ⟨child, hchild⟩ := exists_mem_of_perm hnames.symm hother
        exact hhere.2 (name, child) hchild
      · rintro ⟨name, other⟩ hother
        obtain ⟨child, hchild⟩ := exists_mem_of_perm hnames.symm hother
        exact ih name child other hchild hother (hbelow _ hchild)

theorem Reordered.below? (h : Reordered a b) (hformed : a.WellFormed) {place : List Text}
    {found : Node} (hfound : a.below? place = some found) :
    ∃ other, b.below? place = some other ∧ Reordered found other := by
  induction place generalizing a b with
  | nil =>
    rw [below?_nil] at hfound
    cases hfound
    exact ⟨b, below?_nil b, h⟩
  | cons name place ih =>
    have hother := h.wellFormed hformed
    cases h with
    | file readable bytes => cases hfound
    | link target => cases hfound
    | directory hnames hbelow =>
      obtain ⟨child, hchild, hrest⟩ := Option.bind_eq_some_iff.mp hfound
      have hmem := mem_of_child? hchild
      obtain ⟨other, hmem'⟩ := exists_mem_of_perm hnames hmem
      cases hformed with
      | directory _ hinner =>
        obtain ⟨last, hlast, hreordered⟩ :=
          ih (hbelow name child other hmem hmem') (hinner _ hmem) hrest
        cases hother with
        | directory hhere _ =>
          refine ⟨last, ?_, hreordered⟩
          rw [Node.below?, child?_of_mem hhere.1 hmem', Option.bind_some, hlast]

theorem Reordered.alike (h : Reordered a b) (hformed : a.WellFormed) : Alike a b := by
  intro place
  cases hfound : a.below? place with
  | none =>
    cases hother : b.below? place with
    | none => exact .nothing
    | some other =>
      obtain ⟨found, hback, -⟩ := h.symm.below? (h.wellFormed hformed) hother
      rw [hfound] at hback
      cases hback
  | some found =>
    obtain ⟨other, hother, hreordered⟩ := h.below? hformed hfound
    rw [hother]
    cases hreordered with
    | file readable bytes => exact .file
    | link target => exact .link
    | directory => exact .directory

end Node

namespace FileTree

variable {tree other : FileTree}

theorem lookup_reordered (h : tree.root.Reordered other.root)
    (hworking : tree.workingDirectory = other.workingDirectory) (hformed : tree.root.WellFormed)
    {p : Path} {found : Node} (hfound : tree.lookup p = .ok found) :
    ∃ same, other.lookup p = .ok same ∧ found.Reordered same := by
  obtain ⟨place, hplace, hbelow⟩ := node_eq_ok.mp hfound
  obtain ⟨same, hsame, hreordered⟩ := h.below? hformed hbelow
  rw [locate_congr (h.alike hformed) hworking] at hplace
  exact ⟨same, node_eq_ok.mpr ⟨place, hplace, hsame⟩, hreordered⟩

end FileTree

end SourceScout
