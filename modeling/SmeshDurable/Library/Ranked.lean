import Mathlib.Data.List.Sort
import Mathlib.Data.Finset.Card

/-!
# Sorting by a rank, and the first of each key

A list sorted by a rank does not depend on the order it came in, if the rank tells its elements
apart. Of a list in which several elements may have one key, `firsts` keeps the first of each;
in a sorted list these are the least.
-/

namespace Ranked

variable {α β κ : Type*}

/-! ## Sorting -/

section Sorting

variable [LinearOrder β] (rank : α → β)

/-- The elements by rising rank; elements of one rank stay in their order. -/
def sortOn (xs : List α) : List α := xs.insertionSort fun a b => rank a ≤ rank b

theorem sortOn_perm (xs : List α) : (sortOn rank xs).Perm xs := List.perm_insertionSort _ xs

@[simp] theorem mem_sortOn {xs : List α} {x : α} : x ∈ sortOn rank xs ↔ x ∈ xs :=
  (sortOn_perm rank xs).mem_iff

theorem sortOn_pairwise (xs : List α) :
    (sortOn rank xs).Pairwise fun a b => rank a ≤ rank b := by
  have : IsTrans α fun a b => rank a ≤ rank b := ⟨fun _ _ _ => le_trans⟩
  have : Std.Total fun a b : α => rank a ≤ rank b := ⟨fun a b => le_total (rank a) (rank b)⟩
  exact List.pairwise_insertionSort _ xs

/-- Permutations of a list are sorted alike if no two of its elements have one rank. -/
theorem sortOn_eq_of_perm {xs ys : List α} (h : xs.Perm ys)
    (hrank : ∀ a ∈ xs, ∀ b ∈ xs, rank a = rank b → a = b) : sortOn rank xs = sortOn rank ys := by
  apply List.Perm.eq_of_pairwise _ (sortOn_pairwise rank xs) (sortOn_pairwise rank ys)
  · exact (sortOn_perm rank xs).trans (h.trans (sortOn_perm rank ys).symm)
  · intro a b ha hb hab hba
    apply hrank a ((mem_sortOn rank).mp ha) b (h.mem_iff.mpr ((mem_sortOn rank).mp hb))
    exact le_antisymm hab hba

/-- The first of a sorted list is a least element of it. -/
theorem mem_of_head?_sortOn {xs : List α} {x : α} (h : (sortOn rank xs).head? = some x) :
    x ∈ xs ∧ ∀ y ∈ xs, rank x ≤ rank y := by
  have hsorted := sortOn_pairwise rank xs
  obtain ⟨rest, hrest⟩ := List.head?_eq_some_iff.mp h
  have hmem (y : α) : y ∈ x :: rest ↔ y ∈ xs := by rw [← hrest, mem_sortOn]
  rw [hrest, List.pairwise_cons] at hsorted
  refine ⟨(hmem x).mp List.mem_cons_self, fun y hy => ?_⟩
  rcases List.mem_cons.mp ((hmem y).mpr hy) with rfl | hy
  · exact le_rfl
  · exact hsorted.1 y hy

theorem sortOn_head?_eq_none {xs : List α} : (sortOn rank xs).head? = none ↔ xs = [] := by
  rw [List.head?_eq_none_iff, ← List.length_eq_zero_iff, (sortOn_perm rank xs).length_eq,
    List.length_eq_zero_iff]

end Sorting

/-! ## The first of each key -/

section Firsts

variable [DecidableEq κ] (key : α → κ)

/-- The elements whose key comes for the first time, where the keys `seen` have come before. -/
def firstsFrom (seen : List κ) : List α → List α
  | [] => []
  | x :: xs => if key x ∈ seen then firstsFrom seen xs else x :: firstsFrom (key x :: seen) xs

/-- The first element of each key. -/
def firsts (xs : List α) : List α := firstsFrom key [] xs

variable {key}

theorem firstsFrom_sublist {seen : List κ} {xs : List α} : (firstsFrom key seen xs).Sublist xs := by
  induction xs generalizing seen with
  | nil => exact .slnil
  | cons x xs ih =>
    rw [firstsFrom]
    split
    · exact ih.cons x
    · exact ih.cons_cons x

theorem key_notMem_of_mem_firstsFrom {seen : List κ} {xs : List α} {x : α}
    (h : x ∈ firstsFrom key seen xs) : key x ∉ seen := by
  induction xs generalizing seen with
  | nil => cases h
  | cons y xs ih =>
    rw [firstsFrom] at h
    split at h
    case isTrue => exact ih h
    case isFalse hnew =>
      rcases List.mem_cons.mp h with rfl | h
      · exact hnew
      · exact fun hseen => ih h (List.mem_cons_of_mem _ hseen)

/-- The elements kept have different keys. -/
theorem nodup_map_firstsFrom {seen : List κ} {xs : List α} :
    ((firstsFrom key seen xs).map key).Nodup := by
  induction xs generalizing seen with
  | nil => exact List.nodup_nil
  | cons x xs ih =>
    rw [firstsFrom]
    split
    · exact ih
    · refine List.nodup_cons.mpr ⟨fun hmem => ?_, ih⟩
      obtain ⟨y, hy, hkey⟩ := List.mem_map.mp hmem
      apply key_notMem_of_mem_firstsFrom hy
      rw [hkey]
      exact List.mem_cons_self

theorem mem_firstsFrom_iff {rank : α → β} [LinearOrder β] {seen : List κ} {xs : List α} {x : α}
    (hsorted : xs.Pairwise fun a b => rank a < rank b) :
    x ∈ firstsFrom key seen xs ↔
      x ∈ xs ∧ key x ∉ seen ∧ ∀ y ∈ xs, key y = key x → rank x ≤ rank y := by
  induction xs generalizing seen with
  | nil => simp [firstsFrom]
  | cons z xs ih =>
    obtain ⟨hz, hxs⟩ := List.pairwise_cons.mp hsorted
    rw [firstsFrom]
    split
    case isTrue hseen =>
      rw [ih hxs]
      constructor
      · rintro ⟨hmem, hnew, hleast⟩
        refine ⟨List.mem_cons_of_mem z hmem, hnew, fun y hy hkey => ?_⟩
        rcases List.mem_cons.mp hy with rfl | hy
        · exact absurd (hkey ▸ hseen) hnew
        · exact hleast y hy hkey
      · rintro ⟨hmem, hnew, hleast⟩
        rcases List.mem_cons.mp hmem with rfl | hmem
        · exact absurd hseen hnew
        · exact ⟨hmem, hnew, fun y hy => hleast y (List.mem_cons_of_mem z hy)⟩
    case isFalse hnew =>
      rw [List.mem_cons, ih hxs]
      constructor
      · rintro (rfl | ⟨hmem, hother, hleast⟩)
        · refine ⟨List.mem_cons_self, hnew, fun y hy _ => ?_⟩
          rcases List.mem_cons.mp hy with rfl | hy
          · exact le_rfl
          · exact (hz y hy).le
        · refine ⟨List.mem_cons_of_mem z hmem, ?_, fun y hy hkey => ?_⟩
          · exact fun hseen => hother (List.mem_cons_of_mem _ hseen)
          · rcases List.mem_cons.mp hy with rfl | hy
            · exact absurd (hkey ▸ List.mem_cons_self) hother
            · exact hleast y hy hkey
      · rintro ⟨hmem, hseen, hleast⟩
        rcases List.mem_cons.mp hmem with rfl | hmem
        · exact .inl rfl
        · -- an element of the key of `z` would have to rank below `z`, which comes first
          refine .inr ⟨hmem, fun hkey => ?_, fun y hy => hleast y (List.mem_cons_of_mem z hy)⟩
          rcases List.mem_cons.mp hkey with hkey | hkey
          · exact absurd (hleast z List.mem_cons_self hkey.symm) (not_le.mpr (hz x hmem))
          · exact hseen hkey

/-- In a sorted list the first of a key is the least of it. -/
theorem mem_firsts_iff {rank : α → β} [LinearOrder β] {xs : List α} {x : α}
    (hsorted : xs.Pairwise fun a b => rank a < rank b) :
    x ∈ firsts key xs ↔ x ∈ xs ∧ ∀ y ∈ xs, key y = key x → rank x ≤ rank y := by
  rw [firsts, mem_firstsFrom_iff hsorted]
  simp

/-- The first elements with a property, counted by their keys. -/
theorem length_filter_firsts (xs : List α) (p : α → Bool) :
    ((firsts key xs).filter p).length = (((firsts key xs).filter p).map key).toFinset.card := by
  have hnodup : (((firsts key xs).filter p).map key).Nodup :=
    (List.filter_sublist.map key).nodup nodup_map_firstsFrom
  rw [List.toFinset_card_of_nodup hnodup, List.length_map]

end Firsts

end Ranked
