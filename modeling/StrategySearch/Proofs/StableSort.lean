import Mathlib.Data.List.Basic

/-! Sorting by a total preorder keeps the order of the list among elements that tie. -/

set_option autoImplicit false

namespace StrategySearch

variable {α : Type} {R : α → α → Prop} {as bs : List α}

theorem pairwise_mergeSort_of_ties (le : α → α → Bool)
    (trans : ∀ a b c, le a b → le b c → le a c) (total : ∀ a b, le a b || le b a)
    (ordered : as.Pairwise R) :
    (as.mergeSort le).Pairwise fun a b => le a b ∧ (le b a → R a b) := by
  -- Sorting the elements together with their places decides all ties by the places.
  rw [← List.mergeSort_zipIdx, List.pairwise_map]
  have sorted := List.pairwise_mergeSort (List.zipIdxLE_trans trans) (List.zipIdxLE_total total)
    as.zipIdx
  have same := List.mergeSort_perm as.zipIdx (List.zipIdxLE le)
  have places : (as.zipIdx.map Prod.snd).Nodup := by
    rw [List.zipIdx_map_snd]
    exact List.nodup_range'
  have apart := List.pairwise_map.mp ((same.map Prod.snd).nodup_iff.mpr places)
  refine (sorted.and apart).imp_of_mem ?_
  rintro ⟨a, i⟩ ⟨b, j⟩ left right ⟨before, differ⟩
  have entryLeft := List.mk_mem_zipIdx_iff_getElem?.mp (same.mem_iff.mp left)
  have entryRight := List.mk_mem_zipIdx_iff_getElem?.mp (same.mem_iff.mp right)
  simp only [List.zipIdxLE, Bool.if_false_right, Bool.and_eq_true, decide_eq_true_eq] at before
  refine ⟨before.1, fun tie => ?_⟩
  have earlier : i ≤ j := by simpa [tie] using before.2
  obtain ⟨boundLeft, rfl⟩ := List.getElem?_eq_some_iff.mp entryLeft
  obtain ⟨boundRight, rfl⟩ := List.getElem?_eq_some_iff.mp entryRight
  exact List.pairwise_iff_getElem.mp ordered i j boundLeft boundRight
    (Nat.lt_of_le_of_ne earlier differ)

/-- Elements that all tie stand in the sorted list as they stood before. -/
theorem filter_mergeSort_of_ties (le : α → α → Bool)
    (trans : ∀ a b c, le a b → le b c → le a c) (total : ∀ a b, le a b || le b a)
    {keep : α → Bool} (ties : ∀ a b, keep a → keep b → le a b) (as : List α) :
    (as.mergeSort le).filter keep = as.filter keep := by
  have ordered : (as.filter keep).Pairwise (le · ·) :=
    List.pairwise_of_forall_mem_list fun a left b right =>
      ties a b (List.mem_filter.mp left).2 (List.mem_filter.mp right).2
  have inside := (List.sublist_mergeSort trans total ordered List.filter_sublist).filter keep
  simp only [List.filter_filter, Bool.and_self] at inside
  exact (inside.eq_of_length ((List.mergeSort_perm as le).filter keep).length_eq.symm).symm

theorem mem_iff_of_ties {le : α → α → Bool} (refl : ∀ a, le a a)
    (groups : ∀ a, as.filter (fun b => le a b && le b a) = bs.filter (fun b => le a b && le b a))
    (a : α) : a ∈ as ↔ a ∈ bs := by
  simpa [refl] using congrArg (a ∈ ·) (groups a)

/-- An ordered list is determined by its groups of elements that tie. -/
theorem eq_of_pairwise_of_ties (le : α → α → Bool) (refl : ∀ a, le a a)
    (left : as.Pairwise (le · ·)) (right : bs.Pairwise (le · ·))
    (groups : ∀ a, as.filter (fun b => le a b && le b a) = bs.filter (fun b => le a b && le b a)) :
    as = bs := by
  induction as generalizing bs with
  | nil =>
    cases bs with
    | nil => rfl
    | cons b bs =>
      exact absurd ((mem_iff_of_ties refl groups b).mpr List.mem_cons_self) List.not_mem_nil
  | cons a as ih =>
    cases bs with
    | nil => exact absurd ((mem_iff_of_ties refl groups a).mp List.mem_cons_self) List.not_mem_nil
    | cons b bs =>
      obtain ⟨least, tail⟩ := List.pairwise_cons.mp left
      obtain ⟨least', tail'⟩ := List.pairwise_cons.mp right
      have members := mem_iff_of_ties refl groups
      have below : le a b := by
        rcases List.mem_cons.mp ((members b).mpr List.mem_cons_self) with rfl | member
        · exact refl b
        · exact least b member
      have above : le b a := by
        rcases List.mem_cons.mp ((members a).mp List.mem_cons_self) with rfl | member
        · exact refl a
        · exact least' a member
      -- The heads tie, so both are the first of one group.
      have heads : a = b := by
        have group := groups a
        rw [List.filter_cons_of_pos (by simp [refl]),
          List.filter_cons_of_pos (by simp [below, above])] at group
        exact (List.cons.inj group).1
      subst heads
      have tails : ∀ c, as.filter (fun b => le c b && le b c) =
          bs.filter (fun b => le c b && le b c) := fun c => by
        have group := groups c
        simp only [List.filter_cons] at group
        split at group
        · exact (List.cons.inj group).2
        · exact group
      rw [ih tail tail' tails]

theorem mergeSort_filter (le : α → α → Bool)
    (trans : ∀ a b c, le a b → le b c → le a c) (total : ∀ a b, le a b || le b a)
    (keep : α → Bool) (as : List α) :
    (as.filter keep).mergeSort le = (as.mergeSort le).filter keep := by
  refine eq_of_pairwise_of_ties le (fun a => by simpa using total a a)
    (List.pairwise_mergeSort trans total _)
    ((List.pairwise_mergeSort trans total as).filter keep) fun a => ?_
  have ties : ∀ b c, (le a b && le b a) = true → (le a c && le c a) = true → le b c = true := by
    simp only [Bool.and_eq_true]
    exact fun b c left right => trans b a c left.2 right.1
  calc ((as.filter keep).mergeSort le).filter (fun b => le a b && le b a)
      = (as.filter (fun b => le a b && le b a)).filter keep := by
        rw [filter_mergeSort_of_ties le trans total ties, List.filter_comm]
    _ = ((as.mergeSort le).filter keep).filter (fun b => le a b && le b a) := by
        rw [← filter_mergeSort_of_ties le trans total ties, List.filter_comm]

end StrategySearch
