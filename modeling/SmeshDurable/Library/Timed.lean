import Mathlib.Order.Basic
import Mathlib.Data.Int.Order.Basic
import Mathlib.Data.List.Basic

/-!
# Runs of a clocked system

A clocked system takes one action at a time, each at an instant, and the
instants of a run never decrease. `Run` relates the state and clock at two
points of a run all of whose actions are allowed; `Run.invariant` is the
induction rule every invariant of such a system is proved with.
-/

universe u v

/-- A deterministic system whose actions carry the instant they happen at. -/
structure Clocked (State : Type u) (Action : Type v) where
  time : Action → Int
  next : State → Action → State

namespace Clocked

variable {State : Type u} {Action : Type v} (M : Clocked State Action)

/-- `M.Run allowed s t s' t'`: actions that are `allowed` where they happen lead from
`s` at clock `t` to `s'` at clock `t'`, and no action happens before the clock. -/
inductive Run (allowed : State → Action → Prop) (s : State) (t : Int) : State → Int → Prop
  | refl : Run allowed s t s t
  | step {s' : State} {t' : Int} {a : Action} (hrun : Run allowed s t s' t')
      (htime : t' ≤ M.time a) (hallowed : allowed s' a) :
      Run allowed s t (M.next s' a) (M.time a)

/-- Every action is allowed in the state it is taken in. -/
def Permits (allowed : State → Action → Prop) : State → List Action → Prop
  | _, [] => True
  | s, a :: rest => allowed s a ∧ Permits allowed (M.next s a) rest

instance Permits.decidable (allowed : State → Action → Prop) [∀ s a, Decidable (allowed s a)] :
    ∀ s actions, Decidable (M.Permits allowed s actions)
  | _, [] => isTrue trivial
  | s, a :: rest =>
      have := Permits.decidable allowed (M.next s a) rest
      inferInstanceAs (Decidable (allowed s a ∧ M.Permits allowed (M.next s a) rest))

variable {M} {allowed permitted : State → Action → Prop} {s s' s'' : State} {t t' t'' : Int}

theorem permits_of_forall {actions : List Action} (h : ∀ s a, allowed s a) :
    M.Permits allowed s actions := by
  induction actions generalizing s with
  | nil => trivial
  | cons a rest ih => exact ⟨h s a, ih⟩

theorem permits_append {actions others : List Action} :
    M.Permits allowed s (actions ++ others) ↔
      M.Permits allowed s actions ∧ M.Permits allowed (actions.foldl M.next s) others := by
  induction actions generalizing s with
  | nil => simp [Permits]
  | cons a rest ih => simp only [List.cons_append, Permits, List.foldl_cons, ih, and_assoc]

/-- A property that an action preserves exactly when it is allowed holds at every point of a run
exactly when every action of the run is allowed. -/
theorem forall_take_iff_permits {P : State → Prop}
    (hstep : ∀ s a, P s → (P (M.next s a) ↔ allowed s a)) (hs : P s) (actions : List Action) :
    (∀ n, P ((actions.take n).foldl M.next s)) ↔ M.Permits allowed s actions := by
  induction actions generalizing s with
  | nil => simp [Permits, hs]
  | cons a rest ih =>
    constructor
    · intro hall
      have hfirst : P (M.next s a) := by simpa using hall 1
      refine ⟨(hstep s a hs).mp hfirst, (ih hfirst).mp fun n => ?_⟩
      simpa using hall (n + 1)
    · rintro ⟨hallowed, hrest⟩ n
      have hnext := (hstep s a hs).mpr hallowed
      cases n with
      | zero => simpa using hs
      | succ n => simpa using (ih hnext).mpr hrest n

namespace Run

theorem trans (h : M.Run allowed s t s' t') (h' : M.Run allowed s' t' s'' t'') :
    M.Run allowed s t s'' t'' := by
  induction h' with
  | refl => exact h
  | step _ htime hallowed ih => exact ih.step htime hallowed

theorem mono (himp : ∀ s a, allowed s a → permitted s a) (h : M.Run allowed s t s' t') :
    M.Run permitted s t s' t' := by
  induction h with
  | refl => exact .refl
  | step _ htime hallowed ih => exact ih.step htime (himp _ _ hallowed)

/-- Actions one after another, none before the one ahead of it. -/
theorem foldl (actions : List Action) (hsorted : (actions.map M.time).Pairwise (· ≤ ·))
    (hstart : ∀ a ∈ actions, t ≤ M.time a) (hallowed : M.Permits allowed s actions) :
    M.Run allowed s t (actions.foldl M.next s) (actions.foldl (fun _ a => M.time a) t) := by
  induction actions generalizing s t with
  | nil => exact .refl
  | cons a rest ih =>
    rw [List.map_cons, List.pairwise_cons] at hsorted
    have hfirst : M.Run allowed s t (M.next s a) (M.time a) :=
      Run.refl.step (hstart a List.mem_cons_self) hallowed.1
    apply trans hfirst
    exact ih hsorted.2 (fun b hb => hsorted.1 _ (List.mem_map_of_mem hb)) hallowed.2

/-- What every allowed action preserves, whatever the clock, a whole run preserves. -/
theorem invariant {Inv : State → Int → Prop}
    (hstep : ∀ s t a, Inv s t → t ≤ M.time a → allowed s a → Inv (M.next s a) (M.time a))
    (h : M.Run allowed s t s' t') (hinv : Inv s t) : Inv s' t' := by
  induction h with
  | refl => exact hinv
  | step _ htime hallowed ih => exact hstep _ _ _ ih htime hallowed

/-- A relation between the two ends of a run that holds across each action, and composes,
holds across the run. The invariant may be used at every intermediate state. -/
theorem relates {Inv : State → Int → Prop} {Rel : State → State → Prop}
    (hrefl : ∀ s, Rel s s) (htrans : ∀ a b c, Rel a b → Rel b c → Rel a c)
    (hinv : ∀ s t a, Inv s t → t ≤ M.time a → allowed s a → Inv (M.next s a) (M.time a))
    (hstep : ∀ s t a, Inv s t → t ≤ M.time a → allowed s a → Rel s (M.next s a))
    (h : M.Run allowed s t s' t') (hs : Inv s t) : Rel s s' := by
  induction h with
  | refl => exact hrefl _
  | step hrun htime hallowed ih =>
    have hmid := hrun.invariant hinv hs
    exact htrans _ _ _ ih (hstep _ _ _ hmid htime hallowed)

end Run

end Clocked
