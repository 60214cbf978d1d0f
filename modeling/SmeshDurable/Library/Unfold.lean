import Mathlib.Data.List.Induction

/-!
# Unfolding loops

A stream that unfolds a state runs a loop: each turn of it looks at what the outside
answers, may call the outside, and then goes round again, hands out an item, or ends.
`Unfold.run` plays a loop against any sequence of answers and keeps the trace of calls and
items; where one poll ends and the next begins does not matter to it.
-/

universe u v w x

/-- How one turn of a loop ends. -/
inductive Turn (σ : Type u) (ω : Type v) where
  | again (state : σ)
  | item (value : ω) (state : σ)
  | done
deriving DecidableEq

/-- One entry of a trace. -/
inductive Observation (κ : Type u) (ω : Type v) where
  | call (call : κ)
  | item (value : ω)
deriving DecidableEq

/-- A loop over states `σ` with answers `ι`, calls `κ` and items `ω`. -/
structure Unfold (σ : Type u) (ι : Type v) (κ : Type w) (ω : Type x) where
  turn : σ → ι → List κ × Turn σ ω

namespace Unfold

variable {σ : Type u} {ι : Type v} {κ : Type w} {ω : Type x}

/-- The trace so far, and the state to go on from unless the stream has ended. -/
structure Progress (σ : Type u) (κ : Type w) (ω : Type x) where
  trace : List (Observation κ ω)
  state : Option σ

/-- The progress one turn makes. -/
def Progress.after (p : Progress σ κ ω) : List κ × Turn σ ω → Progress σ κ ω
  | (calls, .again state) => ⟨p.trace ++ calls.map .call, some state⟩
  | (calls, .item value state) => ⟨p.trace ++ calls.map .call ++ [.item value], some state⟩
  | (calls, .done) => ⟨p.trace ++ calls.map .call, none⟩

variable (m : Unfold σ ι κ ω)

/-- One more answer; an ended stream stays as it is. -/
def advance (p : Progress σ κ ω) (answer : ι) : Progress σ κ ω :=
  match p.state with
  | none => p
  | some state => p.after (m.turn state answer)

/-- The progress from a state against a sequence of answers. -/
def run (start : σ) (answers : List ι) : Progress σ κ ω :=
  answers.foldl m.advance ⟨[], some start⟩

theorem run_concat (start : σ) (answers : List ι) (answer : ι) :
    m.run start (answers ++ [answer]) = m.advance (m.run start answers) answer := by
  rw [run, List.foldl_append]
  rfl

theorem advance_of_some {p : Progress σ κ ω} {state : σ} (h : p.state = some state) (answer : ι) :
    m.advance p answer = p.after (m.turn state answer) := by
  rw [advance, h]

theorem advance_of_none {p : Progress σ κ ω} (h : p.state = none) (answer : ι) :
    m.advance p answer = p := by
  rw [advance, h]

variable {m} {start : σ}

/-- What holds at the start and survives every turn holds of every run. A turn may use
where in the run it is taken. -/
theorem run_induction {P : Progress σ κ ω → Prop} {answers : List ι}
    (hstart : P ⟨[], some start⟩)
    (hturn : ∀ before answer after state, answers = before ++ answer :: after →
      (m.run start before).state = some state → P (m.run start before) →
      P ((m.run start before).after (m.turn state answer))) : P (m.run start answers) := by
  induction answers using List.reverseRecOn with
  | nil => exact hstart
  | append_singleton front answer ih =>
    have hfront : P (m.run start front) := by
      apply ih
      intro before next after state hsplit
      apply hturn before next (after ++ [answer]) state
      rw [hsplit, List.append_assoc, List.cons_append]
    rw [run_concat]
    cases hstate : (m.run start front).state with
    | none => rwa [advance_of_none m hstate]
    | some state =>
      rw [advance_of_some m hstate]
      exact hturn front answer [] state rfl hstate hfront

/-- A trace only grows. -/
theorem advance_trace (p : Progress σ κ ω) (answer : ι) :
    p.trace <+: (m.advance p answer).trace := by
  cases hstate : p.state with
  | none => simp only [advance_of_none m hstate, List.prefix_rfl]
  | some state =>
    rw [advance_of_some m hstate]
    obtain ⟨calls, turn⟩ := m.turn state answer
    cases turn with
    | again state' => exact List.prefix_append _ _
    | item value state' =>
      rw [Progress.after, List.append_assoc]
      exact List.prefix_append _ _
    | done => exact List.prefix_append _ _

theorem run_trace_append (before after : List ι) :
    (m.run start before).trace <+: (m.run start (before ++ after)).trace := by
  induction after using List.reverseRecOn with
  | nil => simp only [List.append_nil, List.prefix_rfl]
  | append_singleton after answer ih =>
    rw [← List.append_assoc, run_concat]
    exact ih.trans (advance_trace _ _)

end Unfold
