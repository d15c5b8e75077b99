import Mathlib.Data.List.Basic
import SourceScout.Batch
import SourceScout.Settings.Basic

/-!
# Batches in any order of completion

While a pool works, the slots of the complete entries hold their results and all others are empty.
One completion keeps this, whatever entry it is, so after a run over all entries every slot holds
the result of its own entry. A batch therefore gives what working through the entries in order
gives.
-/

namespace SourceScout

theorem Settings.maxWorkers_pos {document : List (Text × Value)} {settings : Settings}
    (h : Settings.ofDocument document = .ok settings) : 0 < settings.maxWorkers := by
  rw [Settings.ofDocument] at h
  split at h
  · cases h
  · cases h
    exact Int.lt_of_lt_of_le Int.one_pos (Int.le_max_left _ _)

namespace Batch

variable {α β ε : Type}

/-- The slots when the entries at the places `done` are complete and no others. -/
structure Filled (result : α → β) (entries : List α) (done : List Nat)
    (slots : List (Option β)) : Prop where
  length_eq : slots.length = entries.length
  slot_eq : ∀ i entry, entries[i]? = some entry →
    slots[i]? = some (if i ∈ done then some (result entry) else none)

theorem filled_nil (result : α → β) (entries : List α) :
    Filled result entries [] (List.replicate entries.length none) where
  length_eq := List.length_replicate
  slot_eq i entry h := by
    have hi := (List.getElem?_eq_some_iff.mp h).1
    rw [List.getElem?_replicate, if_pos hi, if_neg List.not_mem_nil]

theorem Filled.complete {result : α → β} {entries : List α} {done : List Nat}
    {slots : List (Option β)} (h : Filled result entries done slots) (index : Nat) :
    Filled result entries (done ++ [index]) (complete result entries slots index) := by
  cases hindex : entries[index]? with
  | none =>
    rw [Batch.complete, hindex]
    refine ⟨h.length_eq, fun i entry hentry => ?_⟩
    have hne : i ≠ index := by
      rintro rfl
      rw [hindex] at hentry
      cases hentry
    rw [h.slot_eq i entry hentry]
    simp [hne]
  | some found =>
    rw [Batch.complete, hindex]
    refine ⟨by rw [List.length_set, h.length_eq], fun i entry hentry => ?_⟩
    by_cases heq : i = index
    · subst heq
      have hi : i < slots.length := by
        rw [h.length_eq]
        exact (List.getElem?_eq_some_iff.mp hentry).1
      rw [hindex] at hentry
      cases hentry
      rw [List.getElem?_set_self hi, if_pos (by simp)]
    · rw [List.getElem?_set_ne (Ne.symm heq), h.slot_eq i entry hentry]
      simp [heq]

theorem Filled.foldl_complete {result : α → β} {entries : List α} {done : List Nat}
    {slots : List (Option β)} (h : Filled result entries done slots) (order : List Nat) :
    Filled result entries (done ++ order) (order.foldl (Batch.complete result entries) slots) := by
  induction order generalizing done slots with
  | nil => simpa using h
  | cons index order ih =>
    have hrest := ih (h.complete index)
    rwa [List.append_assoc] at hrest

theorem filled_pooled (result : α → β) (entries : List α) (order : List Nat) :
    Filled result entries order (pooled result entries order) :=
  (filled_nil result entries).foldl_complete order

theorem pooled_eq_map (result : α → β) {entries : List α} {order : List Nat}
    (h : order.Perm (List.range entries.length)) :
    pooled result entries order = entries.map fun entry => some (result entry) := by
  have hfilled := filled_pooled result entries order
  apply List.ext_getElem?
  intro i
  rw [List.getElem?_map]
  cases hentry : entries[i]? with
  | none =>
    rw [List.getElem?_eq_none_iff] at hentry
    rw [Option.map_none, List.getElem?_eq_none_iff, hfilled.length_eq]
    exact hentry
  | some entry =>
    have hi : i ∈ order :=
      h.mem_iff.mpr (List.mem_range.mpr (List.getElem?_eq_some_iff.mp hentry).1)
    rw [hfilled.slot_eq i entry hentry, if_pos hi]
    rfl

theorem workerCount_pos {requested : Option Int} {configured : Int} {count : Nat}
    (hrequested : ∀ n, requested = some n → 0 ≤ n) (hconfigured : 0 < configured)
    (hcount : 0 < count) : 0 < workerCount requested configured count := by
  have hasked : 0 < (requested.filter fun n => n != 0).getD configured := by
    cases requested with
    | none => exact hconfigured
    | some n =>
      have hn := hrequested n rfl
      by_cases hzero : n = 0
      · subst hzero
        exact hconfigured
      · simp only [Option.filter_some, bne_iff_ne, ne_eq, hzero, not_false_eq_true, if_true,
          Option.getD_some]
        omega
  rw [workerCount]
  omega

theorem run_eq_ok_map (work : α → Except ε β) (onFailure : α → ε → β) {requested : Option Int}
    {configured : Int} {order : List Nat} {entries : List α}
    (hrequested : ∀ n, requested = some n → 0 ≤ n) (hconfigured : 0 < configured)
    (horder : order.Perm (List.range entries.length)) :
    run work onFailure requested configured order entries =
      .ok (entries.map (outcome work onFailure)) := by
  rw [run]
  split
  · rfl
  · rename_i hlarge
    have hcount : 0 < entries.length := by
      rw [poolThreshold] at hlarge
      omega
    have hworkers := workerCount_pos hrequested hconfigured hcount
    rw [if_neg (by omega), pooled_eq_map _ horder]
    simp [List.filterMap_map]

theorem outcome_of_ok {work : α → Except ε β} {onFailure : α → ε → β} {entry : α} {value : β}
    (h : work entry = .ok value) : outcome work onFailure entry = value := by
  rw [outcome, h]

theorem outcome_of_error {work : α → Except ε β} {onFailure : α → ε → β} {entry : α} {failure : ε}
    (h : work entry = .error failure) : outcome work onFailure entry = onFailure entry failure := by
  rw [outcome, h]

/-- Whatever the settings, the work, the entries and the order in which a pool completes them: there
is one result for each entry, in the order of the entries; it is the value of the work on the entry,
or what the failure of that work is turned into. No slot of the pool stays empty, and the pool gives
what working in order gives. -/
theorem run_results (work : α → Except ε β) (onFailure : α → ε → β) (requested : Option Int)
    (document : List (Text × Value)) (settings : Settings) (entries : List α) (order : List Nat)
    (hsettings : Settings.ofDocument document = .ok settings)
    (hrequested : ∀ n, requested = some n → 0 ≤ n)
    (horder : order.Perm (List.range entries.length)) :
    ∃ results : List β,
      run work onFailure requested settings.maxWorkers order entries = .ok results ∧
      results.length = entries.length ∧
      (∀ (i : Nat) (entry : α), entries[i]? = some entry →
        (∀ value, work entry = .ok value → results[i]? = some value) ∧
        ∀ failure, work entry = .error failure → results[i]? = some (onFailure entry failure)) ∧
      pooled (outcome work onFailure) entries order = results.map some ∧
      results = entries.map (outcome work onFailure) := by
  refine ⟨entries.map (outcome work onFailure), ?_, List.length_map _, ?_, ?_, rfl⟩
  · exact run_eq_ok_map work onFailure hrequested (Settings.maxWorkers_pos hsettings) horder
  · intro i entry hentry
    rw [List.getElem?_map, hentry]
    exact ⟨fun value h => congrArg some (outcome_of_ok h),
      fun failure h => congrArg some (outcome_of_error h)⟩
  · rw [pooled_eq_map _ horder, List.map_map]
    rfl

/-- Five entries, two of them alike and failing, completed from the last to the first. The request
leaves the number of workers to the settings, and these have a negative one. -/
theorem run_results_reversed :
    ∃ settings,
      Settings.ofDocument [("scan".toList, .table [("max_workers".toList, .int (-3))])] =
        .ok settings ∧
      [4, 3, 2, 1, 0].Perm (List.range 5) ∧
      run (fun n : Nat => if n = 0 then Except.error 'z' else .ok (10 / n)) (fun n _ => n)
        (some 0) settings.maxWorkers [4, 3, 2, 1, 0] [1, 0, 2, 0, 5] = .ok [10, 0, 5, 0, 2] := by
  refine ⟨_, rfl, by decide, ?_⟩
  obtain ⟨results, hrun, -, -, -, rfl⟩ :=
    run_results (fun n : Nat => if n = 0 then Except.error 'z' else .ok (10 / n)) (fun n _ => n)
      (some 0) [("scan".toList, .table [("max_workers".toList, .int (-3))])] _ [1, 0, 2, 0, 5]
      [4, 3, 2, 1, 0] rfl (by rintro n ⟨⟩; decide) (by decide)
  exact hrun

end Batch

end SourceScout
