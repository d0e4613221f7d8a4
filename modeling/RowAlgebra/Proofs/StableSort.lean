/-! What a stable sort of a list is, without regard to how it is computed. Every element
keeps the position it came from, and positions settle what the comparator calls equal.
A list has one such arrangement, and merging finds it. -/

namespace RowAlgebra.Proofs.StableSort

/-- Of two elements with their positions, the smaller one goes first, and of equal ones the
one that came first. -/
def Precedes (order : α → α → Ordering) (first second : α × Nat) : Prop :=
  order first.1 second.1 = .lt ∨ order first.1 second.1 = .eq ∧ first.2 < second.2

instance (order : α → α → Ordering) : DecidableRel (Precedes order) :=
  fun _ _ => inferInstanceAs (Decidable (_ ∨ _))

/-- A list rearranged so that every element precedes those behind it. -/
def IsStableSort (order : α → α → Ordering) (items sorted : List α) : Prop :=
  ∃ arranged : List (α × Nat),
    arranged.Perm items.zipIdx ∧ arranged.Pairwise (Precedes order) ∧ arranged.map Prod.fst = sorted

variable {order : α → α → Ordering}

theorem IsStableSort.perm {items sorted : List α} (stable : IsStableSort order items sorted) : sorted.Perm items := by
  obtain ⟨arranged, rearranged, -, rfl⟩ := stable
  simpa only [List.zipIdx_map_fst] using rearranged.map Prod.fst

theorem IsStableSort.pairwise {items sorted : List α} (stable : IsStableSort order items sorted) :
    sorted.Pairwise fun first second => (order first second).isLE = true := by
  obtain ⟨arranged, -, ordered, rfl⟩ := stable
  refine List.pairwise_map.mpr (ordered.imp ?_)
  intro first second precedes
  rcases precedes with less | ⟨same, -⟩
  · rw [less, Ordering.isLE_lt]
  · rw [same, Ordering.isLE_eq]

theorem pairwise_zipIdx (items : List α) : items.zipIdx.Pairwise fun first second => first.2 < second.2 := by
  apply List.pairwise_map.mp
  rw [List.zipIdx_map_snd]
  exact List.pairwise_lt_range'

theorem isStableSort_of_level (items : List α) (level : ∀ first second, order first second = .eq) :
    IsStableSort order items items :=
  ⟨items.zipIdx, .refl _, (pairwise_zipIdx items).imp fun before => .inr ⟨level _ _, before⟩, List.zipIdx_map_fst 0 items⟩

variable [Std.TransCmp order]

theorem precedes_asymm {first second : α × Nat} (forward : Precedes order first second) :
    ¬Precedes order second first := by
  have turned : order second.1 first.1 = (order first.1 second.1).swap := Std.OrientedCmp.eq_swap
  intro backward
  rcases forward with less | ⟨same, before⟩
  · simp [Precedes, turned, less] at backward
  · simp only [Precedes, turned, same, Ordering.swap_eq, reduceCtorEq, true_and, false_or] at backward
    omega

theorem IsStableSort.unique {items sorted other : List α} (stable : IsStableSort order items sorted)
    (again : IsStableSort order items other) : sorted = other := by
  obtain ⟨arranged, rearranged, ordered, rfl⟩ := stable
  obtain ⟨arranged', rearranged', ordered', rfl⟩ := again
  have same : arranged = arranged' := by
    refine List.Perm.eq_of_pairwise ?_ ordered ordered' (rearranged.trans rearranged'.symm)
    intro first second _ _ forward backward
    exact absurd backward (precedes_asymm forward)
  rw [same]

private theorem isLE_total (first second : α) : ((order first second).isLE || (order second first).isLE) = true := by
  have turned : order second first = (order first second).swap := Std.OrientedCmp.eq_swap
  rw [turned]
  cases order first second
  all_goals rfl

private theorem zipIdxLE_iff {first second : α × Nat} :
    List.zipIdxLE (fun first second => (order first second).isLE) first second = true ↔
      order first.1 second.1 = .lt ∨ order first.1 second.1 = .eq ∧ first.2 ≤ second.2 := by
  have turned : order second.1 first.1 = (order first.1 second.1).swap := Std.OrientedCmp.eq_swap
  rw [List.zipIdxLE, turned]
  cases order first.1 second.1
  all_goals simp

theorem isStableSort_mergeSort (items : List α) :
    IsStableSort order items (items.mergeSort fun first second => (order first second).isLE) := by
  let arranged := items.zipIdx.mergeSort (List.zipIdxLE fun first second => (order first second).isLE)
  have rearranged : arranged.Perm items.zipIdx := List.mergeSort_perm _ _
  have ordered : arranged.Pairwise fun first second =>
      List.zipIdxLE (fun first second => (order first second).isLE) first second = true :=
    List.pairwise_mergeSort (List.zipIdxLE_trans fun _ _ _ => Std.TransCmp.isLE_trans)
      (List.zipIdxLE_total isLE_total) _
  have apart : arranged.Pairwise fun first second => first.2 ≠ second.2 :=
    (rearranged.pairwise_iff Ne.symm).mpr ((pairwise_zipIdx items).imp Nat.ne_of_lt)
  refine ⟨arranged, rearranged, (ordered.and apart).imp ?_, List.mergeSort_zipIdx⟩
  intro first second ⟨atMost, different⟩
  rcases zipIdxLE_iff.mp atMost with less | ⟨same, before⟩
  · exact .inl less
  · exact .inr ⟨same, Nat.lt_of_le_of_ne before different⟩

theorem isStableSort_iff {items sorted : List α} :
    IsStableSort order items sorted ↔ sorted = items.mergeSort fun first second => (order first second).isLE := by
  constructor
  · exact fun stable => stable.unique (isStableSort_mergeSort items)
  · intro same
    subst same
    exact isStableSort_mergeSort items

end RowAlgebra.Proofs.StableSort
