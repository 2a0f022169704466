import KernelAbi.Proofs.Recording
import KernelAbi.Selection.Resolve
import Mathlib.Data.List.Basic

/-! Group ids under sorts. The host puts them in order, and there is one order only that they can be in; the
substitute leaves them as they are. Whoever carries out a sort, and however many follow, no id is lost or
made, and ids in order stay where they are. -/
namespace KernelAbi.Groups

/-- No group id is greater than a later one. -/
def InOrder (ids : List UInt32) : Prop :=
  ∀ (i j : Nat) (before : i < j) (inside : j < ids.length), ids[i] ≤ ids[j]

/-- Has the groups sorted under one selection after another. -/
def sortAll : List Selection → List UInt32 → MachineM Recorder (List UInt32)
  | [], ids => return ids
  | selection :: selections, ids => do
    let sorted ← selection.bridge.sortGroups ids
    sortAll selections sorted

section Order

variable {ids other : List UInt32}

/-- What holds between neighbours holds between all, since an id passes on what it is above. -/
theorem isSorted_iff_pairwise : isSorted ids ↔ ids.Pairwise (· ≤ ·) := by
  induction ids with
  | nil => exact iff_of_true rfl .nil
  | cons a ids ih =>
    cases ids with
    | nil => exact iff_of_true rfl (List.pairwise_singleton _ a)
    | cons b ids =>
      rw [isSorted, Bool.and_eq_true, decide_eq_true_eq, ih, List.pairwise_cons (a := a)]
      constructor
      · rintro ⟨first, rest⟩
        refine ⟨fun c member => ?_, rest⟩
        rcases List.mem_cons.mp member with rfl | later
        · exact first
        · exact UInt32.le_trans first (List.rel_of_pairwise_cons rest later)
      · rintro ⟨all, rest⟩
        exact ⟨all b List.mem_cons_self, rest⟩

theorem isSorted_iff_inOrder : isSorted ids ↔ InOrder ids := by
  rw [isSorted_iff_pairwise, List.pairwise_iff_getElem]
  exact ⟨fun all i j before inside => all i j (Nat.lt_trans before inside) inside before,
    fun all i j _ inside before => all i j before inside⟩

instance : Decidable (InOrder ids) := decidable_of_iff (isSorted ids) isSorted_iff_inOrder

theorem sort_perm (ids : List UInt32) : (sort ids).Perm ids := List.mergeSort_perm ids _

theorem isSorted_sort (ids : List UInt32) : isSorted (sort ids) := by
  have trans (a b c : UInt32) : decide (a ≤ b) → decide (b ≤ c) → decide (a ≤ c) := by
    simpa using UInt32.le_trans
  have total (a b : UInt32) : decide (a ≤ b) || decide (b ≤ a) := by
    simpa using UInt32.le_total a b
  rw [isSorted_iff_pairwise, sort]
  simpa using List.pairwise_mergeSort trans total ids

/-- The same ids cannot be in order in two ways. -/
theorem eq_of_isSorted (same : other.Perm ids) (sorted : isSorted other) (sorted' : isSorted ids) :
    other = ids :=
  List.Perm.eq_of_pairwise (fun _ _ _ _ => UInt32.le_antisymm) (isSorted_iff_pairwise.mp sorted)
    (isSorted_iff_pairwise.mp sorted') same

theorem sort_eq_self (sorted : isSorted ids) : sort ids = ids :=
  eq_of_isSorted (sort_perm ids) (isSorted_sort ids) sorted

end Order

section Sorting

variable (selection : Selection) (m : Machine Recorder) (ids : List UInt32)

theorem sortGroups_run :
    ((selection.bridge.sortGroups ids).run m).1 =
      if selection.groupSort = .kernel then sort ids else ids := by
  cases supplier : selection.groupSort <;> simp only [Bridge.sortGroups, supplier] <;> rfl

theorem sortGroups_perm : ((selection.bridge.sortGroups ids).run m).1.Perm ids := by
  rw [sortGroups_run]
  split
  · exact sort_perm ids
  · exact .refl ids

theorem isSorted_sortGroups :
    isSorted ((selection.bridge.sortGroups ids).run m).1 ↔
      selection.groupSort = .kernel ∨ isSorted ids := by
  rw [sortGroups_run]
  split
  next supplied => exact iff_of_true (isSorted_sort ids) (.inl supplied)
  next refused => exact (or_iff_right refused).symm

theorem sortGroups_eq_self (sorted : isSorted ids) : ((selection.bridge.sortGroups ids).run m).1 = ids := by
  rw [sortGroups_run, sort_eq_self sorted, ite_self]

theorem sortAll_cons (selections : List Selection) :
    (sortAll (selection :: selections) ids).run m =
      (sortAll selections ((selection.bridge.sortGroups ids).run m).1).run
        ((selection.bridge.sortGroups ids).run m).2 := rfl

end Sorting

section Run

variable (selections : List Selection) (m : Machine Recorder) (ids : List UInt32)

theorem sortAll_perm : ((sortAll selections ids).run m).1.Perm ids := by
  induction selections generalizing m ids with
  | nil => exact .refl ids
  | cons selection selections ih =>
    rw [sortAll_cons]
    exact (ih _ _).trans (sortGroups_perm selection m ids)

/-- One sort by the host is enough, wherever it stands among the others. -/
theorem isSorted_sortAll :
    isSorted ((sortAll selections ids).run m).1 ↔
      (∃ selection ∈ selections, selection.groupSort = .kernel) ∨ isSorted ids := by
  induction selections generalizing m ids with
  | nil => simp [sortAll]
  | cons selection selections ih =>
    rw [sortAll_cons, ih, isSorted_sortGroups, List.exists_mem_cons_iff, or_left_comm, or_assoc]

theorem sortAll_eq_self (sorted : isSorted ids) : ((sortAll selections ids).run m).1 = ids := by
  refine eq_of_isSorted (sortAll_perm selections m ids) ?_ sorted
  exact (isSorted_sortAll selections m ids).mpr (.inr sorted)

end Run

/-- The test for order looks at neighbours and answers for all pairs. A sort keeps the ids with their
repetitions, leaves them in order exactly if the host carried it out or they were in order before, and does
nothing to ids in order. What the host gives back is the one order of the ids, by whatever means it found it.
The same holds of any number of sorts, each by whichever of the two. -/
theorem sortGroups_exact (ids : List UInt32) :
    (isSorted ids ↔ InOrder ids) ∧
    (∀ (selection : Selection) (m : Machine Recorder),
      let sorted := ((selection.bridge.sortGroups ids).run m).1
      sorted.Perm ids ∧
      (isSorted sorted ↔ selection.groupSort = .kernel ∨ InOrder ids) ∧
      (InOrder ids → sorted = ids) ∧
      (selection.groupSort = .kernel →
        ∀ other : List UInt32, other.Perm ids → InOrder other → sorted = other)) ∧
    ∀ (selections : List Selection) (m : Machine Recorder),
      let sorted := ((sortAll selections ids).run m).1
      sorted.Perm ids ∧
      (isSorted sorted ↔ (∃ selection ∈ selections, selection.groupSort = .kernel) ∨ InOrder ids) ∧
      (InOrder ids → sorted = ids) := by
  rw [← isSorted_iff_inOrder]
  refine ⟨Iff.rfl, fun selection m => ?_, fun selections m => ?_⟩
  · have kept := sortGroups_perm selection m ids
    have exact := isSorted_sortGroups selection m ids
    refine ⟨kept, exact, sortGroups_eq_self selection m ids, ?_⟩
    intro supplied other same ordered
    exact eq_of_isSorted (kept.trans same.symm) (exact.mpr (.inl supplied)) (isSorted_iff_inOrder.mpr ordered)
  · exact ⟨sortAll_perm selections m ids, isSorted_sortAll selections m ids,
      sortAll_eq_self selections m ids⟩

/-- Ids with a repetition. An old kernel leaves them as they are, a recent one puts them in order, and behind
it neither changes them. -/
theorem sortGroups_exact_repeated :
    let ids : List UInt32 := [9, 3, 3, 1]
    let ordered : List UInt32 := [1, 3, 3, 9]
    let old := Selection.of (.make 4 9 0) .empty
    let recent := Selection.of (.make 6 12 0) .empty
    let m : Machine Recorder := { kernel := {} }
    recent.groupSort = .kernel ∧ ordered.Perm ids ∧ InOrder ordered ∧
    isSorted ((old.bridge.sortGroups ids).run m).1 = false ∧
    ((recent.bridge.sortGroups ids).run m).1 = ordered ∧
    ((sortAll [old, recent, old] ordered).run m).1 = ordered := by
  intro ids ordered old recent m
  have supplied : recent.groupSort = .kernel := by decide
  have same : ordered.Perm ids := by decide
  have inOrder : InOrder ordered := by decide
  obtain ⟨-, once, -⟩ := sortGroups_exact ids
  obtain ⟨-, -, settled⟩ := sortGroups_exact ordered
  obtain ⟨-, byOld, -, -⟩ := once old m
  obtain ⟨-, -, -, only⟩ := once recent m
  obtain ⟨-, -, kept⟩ := settled [old, recent, old] m
  have refused : ¬ (old.groupSort = .kernel ∨ InOrder ids) := by decide
  exact ⟨supplied, same, inOrder, Bool.eq_false_iff.mpr (mt byOld.mp refused),
    only supplied ordered same inOrder, kept inOrder⟩

end KernelAbi.Groups
