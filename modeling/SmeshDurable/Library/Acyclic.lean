import Mathlib.Logic.Relation

/-!
# Growing acyclic graphs

A relation is acyclic when no path leads back to its start. Edges out of one node, added at
once, close a cycle exactly when that node can already be reached from one of their ends.
-/

universe u

open Relation

/-- No path leads back to its start. -/
def Acyclic {α : Type u} (r : α → α → Prop) : Prop := ∀ a, ¬ TransGen r a a

namespace Acyclic

variable {α : Type u} {r r' : α → α → Prop} {node : α} {ends : α → Prop}

theorem mono (h : Acyclic r) (hle : ∀ a b, r' a b → r a b) : Acyclic r' := by
  intro a hcycle
  apply h a
  apply TransGen.mono _ _ _ hcycle
  exact hle

/-- A path that may use the new edges either uses none, or reaches `node` without them and goes
on without them from the end of the last one it uses. -/
theorem path_cases {a b : α}
    (h : TransGen (fun x y => r x y ∨ x = node ∧ ends y) a b) :
    TransGen r a b ∨ ReflTransGen r a node ∧ ∃ y, ends y ∧ ReflTransGen r y b := by
  induction h with
  | single hstep =>
    rcases hstep with hold | ⟨rfl, hend⟩
    · exact .inl (.single hold)
    · exact .inr ⟨.refl, _, hend, .refl⟩
  | tail _ hstep ih =>
    rcases ih with hold | ⟨hreach, y, hend, hrest⟩
    · rcases hstep with hlast | ⟨rfl, hend⟩
      · exact .inl (hold.tail hlast)
      · exact .inr ⟨hold.to_reflTransGen, _, hend, .refl⟩
    · rcases hstep with hlast | ⟨rfl, hend'⟩
      · exact .inr ⟨hreach, y, hend, hrest.tail hlast⟩
      · exact .inr ⟨hreach, _, hend', .refl⟩

theorem insert_iff : Acyclic (fun x y => r x y ∨ x = node ∧ ends y) ↔
    Acyclic r ∧ ∀ y, ends y → ¬ ReflTransGen r y node := by
  constructor
  · intro h
    refine ⟨h.mono fun _ _ => .inl, ?_⟩
    intro y hend hreach
    apply h y
    have hback : ReflTransGen (fun x y => r x y ∨ x = node ∧ ends y) y node := by
      apply ReflTransGen.mono _ _ _ hreach
      exact fun _ _ => .inl
    exact TransGen.tail' hback (.inr ⟨rfl, hend⟩)
  · rintro ⟨h, hnew⟩ a hcycle
    rcases path_cases hcycle with hold | ⟨hreach, y, hend, hrest⟩
    · exact h a hold
    · exact hnew y hend (hrest.trans hreach)

end Acyclic
