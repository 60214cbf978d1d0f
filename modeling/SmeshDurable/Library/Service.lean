import Mathlib.Algebra.BigOperators.Group.Finset.Basic
import Mathlib.Algebra.GroupWithZero.Nat
import Mathlib.Algebra.Order.BigOperators.Group.Finset
import Mathlib.Data.List.Count
import Mathlib.Data.Prod.Lex
import Mathlib.Logic.Function.Basic

/-!
# Overtaking in a queue by service counts

Clients are ranked by how often they were served, then by the place of their last service, then by
themselves, and the first one that is ready is served. While a client waits, another one overtakes
it about as often as it was served less before: its count has to catch up first.
-/

universe u

namespace Service

/-- How often each client was served, the place of its last service, and the places given so far. -/
structure Counters (κ : Type u) where
  finish : κ → Nat
  stamp : κ → Nat
  clock : Nat

namespace Counters

variable {κ : Type u} [LinearOrder κ]

/-- The order clients are served in. -/
def rank (c : Counters κ) (k : κ) : Nat ×ₗ Nat ×ₗ κ := toLex (c.finish k, toLex (c.stamp k, k))

/-- The counters once a client was served. -/
def serve (c : Counters κ) (k : κ) : Counters κ where
  finish := Function.update c.finish k (c.finish k + 1)
  stamp := Function.update c.stamp k (c.clock + 1)
  clock := c.clock + 1

variable {c : Counters κ} {j k : κ}

@[simp] theorem finish_serve : (c.serve k).finish j = c.finish j + if j = k then 1 else 0 := by
  by_cases h : j = k
  · subst h
    simp [serve]
  · simp [serve, h]

@[simp] theorem stamp_serve : (c.serve k).stamp j = if j = k then c.clock + 1 else c.stamp j := by
  by_cases h : j = k
  · subst h
    simp [serve]
  · simp [serve, h]

theorem finish_le_of_rank_le (h : c.rank j ≤ c.rank k) : c.finish j ≤ c.finish k := by
  rcases Prod.Lex.toLex_le_toLex.mp h with hlt | ⟨heq, -⟩
  · exact hlt.le
  · exact heq.le

/-- Of two clients the one that was served later is first only if it was served less often. -/
theorem finish_lt_of_rank_lt (h : c.rank j < c.rank k) (hstamp : c.stamp k < c.stamp j) :
    c.finish j < c.finish k := by
  rcases Prod.Lex.toLex_lt_toLex.mp h with hlt | ⟨-, hrest⟩
  · exact hlt
  · rcases Prod.Lex.toLex_lt_toLex.mp hrest with hlt | ⟨heq, -⟩
    · exact absurd hlt hstamp.not_gt
    · exact absurd heq.symm hstamp.ne

end Counters

variable {κ : Type u} [LinearOrder κ]

/-- The clients that are served, one after another, while one waits: each ranks before it. -/
inductive Overtakes (waiting : κ) (c : Counters κ) : List κ → Counters κ → Prop
  | refl : Overtakes waiting c [] c
  | serve {served : List κ} {c' : Counters κ} {k : κ} (h : Overtakes waiting c served c')
      (hfirst : c'.rank k < c'.rank waiting) :
      Overtakes waiting c (served ++ [k]) (c'.serve k)

namespace Overtakes

variable {waiting k : κ} {c c' : Counters κ} {served : List κ}

theorem not_mem (h : Overtakes waiting c served c') : waiting ∉ served := by
  induction h with
  | refl => exact List.not_mem_nil
  | serve _ hfirst ih =>
    rw [List.mem_append, List.mem_singleton, not_or]
    exact ⟨ih, fun heq => absurd (heq ▸ hfirst) (lt_irrefl _)⟩

theorem finish_eq (h : Overtakes waiting c served c') (k : κ) :
    c'.finish k = c.finish k + served.count k := by
  induction h with
  | refl => simp
  | @serve served c' j _ _ ih =>
    rw [Counters.finish_serve, ih, List.count_append, List.count_singleton, Nat.add_assoc]
    by_cases heq : k = j
    · simp [heq]
    · simp [heq, Ne.symm heq]

theorem clock_le (h : Overtakes waiting c served c') : c.clock ≤ c'.clock := by
  induction h with
  | refl => exact le_rfl
  | serve _ _ ih => exact ih.trans (Nat.le_succ _)

theorem stamp_of_not_mem (h : Overtakes waiting c served c') (hk : k ∉ served) :
    c'.stamp k = c.stamp k := by
  induction h with
  | refl => rfl
  | serve _ _ ih =>
    rw [List.mem_append, List.mem_singleton, not_or] at hk
    rw [Counters.stamp_serve, if_neg hk.2, ih hk.1]

/-- A client that was served meanwhile has a later place. -/
theorem lt_stamp_of_mem (h : Overtakes waiting c served c') (hk : k ∈ served) :
    c.clock < c'.stamp k := by
  induction h with
  | refl => cases hk
  | @serve served c' j h _ ih =>
    rw [Counters.stamp_serve]
    split_ifs with heq
    · exact Nat.lt_succ_of_le h.clock_le
    · refine ih ?_
      rw [List.mem_append, List.mem_singleton] at hk
      exact hk.resolve_right heq

/-- A client is served a second time only while its count is behind. -/
theorem count_le_max (h : Overtakes waiting c served c') (hstamp : c.stamp waiting ≤ c.clock)
    (k : κ) : served.count k ≤ max 1 (c.finish waiting - c.finish k) := by
  induction h with
  | refl => simp
  | @serve served c' j h hfirst ih =>
    rw [List.count_append, List.count_singleton]
    by_cases heq : j = k
    · subst heq
      by_cases hmem : j ∈ served
      · have hlater : c'.stamp waiting < c'.stamp j := by
          rw [h.stamp_of_not_mem h.not_mem]
          exact hstamp.trans_lt (h.lt_stamp_of_mem hmem)
        have hbehind := Counters.finish_lt_of_rank_lt hfirst hlater
        rw [h.finish_eq, h.finish_eq, List.count_eq_zero_of_not_mem h.not_mem] at hbehind
        simp only [beq_self_eq_true, if_true]
        omega
      · rw [List.count_eq_zero_of_not_mem hmem]
        simp
    · simpa [heq] using ih

/-- Once a client does not rank before the waiting one, its count has caught up. -/
theorem le_count (h : Overtakes waiting c served c') (hbehind : c'.rank waiting ≤ c'.rank k) :
    c.finish waiting - c.finish k ≤ served.count k := by
  have hle := Counters.finish_le_of_rank_le hbehind
  rw [h.finish_eq, h.finish_eq, List.count_eq_zero_of_not_mem h.not_mem] at hle
  omega

end Overtakes

/-- A list in which nothing comes more than `bound` times. -/
theorem length_le_mul_card {xs : List κ} {bound : Nat} (h : ∀ k ∈ xs, xs.count k ≤ bound) :
    xs.length ≤ bound * xs.toFinset.card := by
  calc xs.length = ∑ k ∈ xs.toFinset, xs.count k := (List.sum_toFinset_count_eq_length xs).symm
    _ ≤ xs.toFinset.card • bound := Finset.sum_le_card_nsmul _ _ _ fun k hk => h k (List.mem_toFinset.mp hk)
    _ = bound * xs.toFinset.card := by rw [Nat.nsmul_eq_mul, Nat.mul_comm]

end Service
