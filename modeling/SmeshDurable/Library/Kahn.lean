import Mathlib.Data.Finset.Max
import Mathlib.Data.Fintype.Card
import Mathlib.Data.List.Sort
import Mathlib.Data.Set.Finite.List
import Mathlib.Logic.Relation
import Mathlib.Order.WellFounded

/-!
# Placing the nodes of a graph

Every node counts the nodes it still waits for. The least ready node is placed, and the counts of
its children go down; a node is ready when its count is zero. The counts never go below zero, the
nodes left over are those behind a cycle, and if every edge goes up in the order of the keys the
nodes are placed in this order.
-/

namespace Kahn

open Relation

variable {α κ : Type} [DecidableEq α] [LinearOrder κ]

/-! ## The loop -/

/-- Insertion into a set of keys that is kept in order. -/
def insert (key : κ) (ready : List κ) : List κ :=
  if key ∈ ready then ready else ready.orderedInsert (· ≤ ·) key

/-- One child of a placed node: its count goes down, which fails at zero, and the child becomes
ready when nothing is left. -/
def release (key : α → κ) (state : (α → Nat) × List κ) (child : α) :
    Option ((α → Nat) × List κ) :=
  match state.1 child with
  | 0 => none
  | degree + 1 => some (Function.update state.1 child degree,
      if degree = 0 then insert (key child) state.2 else state.2)

/-- Place the least ready node and release its children, until none is ready. -/
def run (children : α → List α) (key : α → κ) (label : κ → α) :
    Nat → (α → Nat) → List κ → List α → Option ((α → Nat) × List α)
  | 0, degrees, _, ordered => some (degrees, ordered)
  | _, degrees, [], ordered => some (degrees, ordered)
  | fuel + 1, degrees, least :: ready, ordered => do
      let (degrees, ready) ← (children (label least)).foldlM (release key) (degrees, ready)
      run children key label fuel degrees ready (ordered ++ [label least])

theorem mem_insert {key k : κ} {ready : List κ} : k ∈ insert key ready ↔ k = key ∨ k ∈ ready := by
  unfold insert
  split
  next hmem =>
    constructor
    · exact .inr
    · rintro (rfl | hready)
      · exact hmem
      · exact hready
  next => exact List.mem_orderedInsert _

theorem insert_sorted {key : κ} {ready : List κ} (h : ready.Pairwise (· < ·)) :
    (insert key ready).Pairwise (· < ·) := by
  unfold insert
  split
  next => exact h
  next hnew =>
    have hle : (ready.orderedInsert (· ≤ ·) key).Pairwise (· ≤ ·) :=
      List.Pairwise.orderedInsert key ready (h.imp le_of_lt)
    have hnodup : (ready.orderedInsert (· ≤ ·) key).Nodup := by
      rw [(List.perm_orderedInsert _ _ _).nodup_iff, List.nodup_cons]
      exact ⟨hnew, h.imp ne_of_lt⟩
    exact (hle.and hnodup).imp fun hab => lt_of_le_of_ne hab.1 hab.2

/-- The children of a placed node: no count was zero, each goes down by one, and those that reach
zero become ready. -/
theorem foldlM_release (key : α → κ) {children : List α} (h : children.Nodup)
    {degrees : α → Nat} (hpos : ∀ child ∈ children, 0 < degrees child) {ready : List κ}
    (hsorted : ready.Pairwise (· < ·)) :
    ∃ degrees' ready', children.foldlM (release key) (degrees, ready) = some (degrees', ready') ∧
      (∀ a, degrees' a = if a ∈ children then degrees a - 1 else degrees a) ∧
      (∀ k, k ∈ ready' ↔ k ∈ ready ∨ ∃ child ∈ children, degrees child = 1 ∧ k = key child) ∧
      ready'.Pairwise (· < ·) := by
  induction children generalizing degrees ready with
  | nil =>
    refine ⟨degrees, ready, rfl, ?_, ?_, hsorted⟩
    · simp
    · simp
  | cons child rest ih =>
    rw [List.nodup_cons] at h
    rw [List.forall_mem_cons] at hpos
    obtain ⟨degree, hdegree⟩ := Nat.exists_eq_add_one.mpr hpos.1
    have hother : ∀ a ∈ rest, Function.update degrees child degree a = degrees a := by
      intro a ha
      apply Function.update_of_ne
      rintro rfl
      exact h.1 ha
    have hnext : (if degree = 0 then insert (key child) ready else ready).Pairwise (· < ·) := by
      split
      · exact insert_sorted hsorted
      · exact hsorted
    obtain ⟨degrees', ready', hfold, hdegrees, hready, hsorted'⟩ := ih h.2
      (fun a ha => (hother a ha).symm ▸ hpos.2 a ha) hnext
    refine ⟨degrees', ready', ?_, ?_, ?_, hsorted'⟩
    · rw [List.foldlM_cons, release]
      simp only [hdegree]
      exact hfold
    · intro a
      rw [hdegrees]
      by_cases ha : a = child
      · subst ha
        simp [h.1, hdegree]
      · rw [Function.update_of_ne ha]
        simp [ha]
    · intro k
      have hrest : (∃ c ∈ rest, Function.update degrees child degree c = 1 ∧ k = key c) ↔
          ∃ c ∈ rest, degrees c = 1 ∧ k = key c := by
        apply exists_congr
        intro c
        rw [and_congr_right_iff]
        intro hc
        rw [hother c hc]
      rw [hready, hrest]
      simp only [List.mem_cons, exists_eq_or_imp, hdegree]
      by_cases hzero : degree = 0
      · rw [if_pos hzero, mem_insert]
        simp only [hzero, zero_add, true_and]
        rw [or_comm (a := k = key child), or_assoc]
      · rw [if_neg hzero]
        have hne : ¬ degree + 1 = 1 := by omega
        simp only [hne, false_and, false_or]

/-! ## Graphs -/

/-- Finitely many nodes, what each of them waits for and who waits for it. -/
structure Graph (α κ : Type) [DecidableEq α] [LinearOrder κ] where
  nodes : List α
  nodes_nodup : nodes.Nodup
  before : α → List α
  before_nodup : ∀ a, (before a).Nodup
  before_subset : ∀ a, before a ⊆ nodes
  children : α → List α
  children_nodup : ∀ a, (children a).Nodup
  mem_children : ∀ a b, b ∈ children a ↔ b ∈ nodes ∧ a ∈ before b
  key : α → κ
  label : κ → α
  label_key : ∀ a, label (key a) = a

namespace Graph

variable (G : Graph α κ)

def Edge (a b : α) : Prop := b ∈ G.nodes ∧ a ∈ G.before b

/-- The keys of the nodes that wait for nothing. -/
def initial : List κ :=
  ((G.nodes.filter fun a => (G.before a).isEmpty).map G.key).dedup.insertionSort (· ≤ ·)

/-- A node is placed once, so as many turns as there are nodes are enough. -/
def order : Option ((α → Nat) × List α) :=
  run G.children G.key G.label G.nodes.length (fun a => (G.before a).length) G.initial []

theorem key_inj {a b : α} : G.key a = G.key b ↔ a = b := by
  constructor
  · intro h
    rw [← G.label_key a, h, G.label_key]
  · rintro rfl
    rfl

/-- What holds between two turns: a node counts what it waits for and is not placed, and counts
nothing exactly if it is placed or ready; what is placed waited for earlier nodes only. -/
structure Countdown (degrees : α → Nat) (ready : List κ) (ordered : List α) : Prop where
  ready_sorted : ready.Pairwise (· < ·)
  ready_key : ∀ k ∈ ready, ∃ a ∈ G.nodes, a ∉ ordered ∧ k = G.key a
  ordered_nodup : ordered.Nodup
  ordered_subset : ordered ⊆ G.nodes
  degree : ∀ a ∈ G.nodes, degrees a = ((G.before a).filter (· ∉ ordered)).length
  free : ∀ a ∈ G.nodes, degrees a = 0 ↔ a ∈ ordered ∨ G.key a ∈ ready
  settled : ∀ left a right, ordered = left ++ a :: right → G.before a ⊆ left

variable {G} {degrees : α → Nat} {ready : List κ} {ordered : List α}

theorem initial_countdown (G : Graph α κ) :
    G.Countdown (fun a => (G.before a).length) G.initial [] := by
  have hmem (k : κ) : k ∈ G.initial ↔ ∃ a ∈ G.nodes, G.before a = [] ∧ G.key a = k := by
    rw [initial, (List.perm_insertionSort _ _).mem_iff, List.mem_dedup, List.mem_map]
    simp only [List.mem_filter, List.isEmpty_iff, and_assoc]
  refine ⟨?_, ?_, List.nodup_nil, List.nil_subset _, by simp, ?_, by simp⟩
  · have hle : G.initial.Pairwise (· ≤ ·) := List.pairwise_insertionSort _ _
    have hnodup : G.initial.Nodup :=
      (List.perm_insertionSort _ _).nodup_iff.mpr (List.nodup_dedup _)
    exact (hle.and hnodup).imp fun hab => lt_of_le_of_ne hab.1 hab.2
  · intro k hk
    obtain ⟨a, ha, -, rfl⟩ := (hmem k).mp hk
    exact ⟨a, ha, List.not_mem_nil, rfl⟩
  · intro a ha
    rw [List.length_eq_zero_iff, hmem]
    constructor
    · intro hnil
      exact .inr ⟨a, ha, hnil, rfl⟩
    · rintro (hnone | ⟨b, -, hnil, hkey⟩)
      · exact absurd hnone List.not_mem_nil
      · rwa [← G.key_inj.mp hkey]

/-- Once a node is placed, others wait for it no longer. -/
theorem filter_placed {a b : α} (ha : a ∉ ordered) :
    ((G.before b).filter (· ∉ ordered ++ [a])).length =
      if a ∈ G.before b then ((G.before b).filter (· ∉ ordered)).length - 1
      else ((G.before b).filter (· ∉ ordered)).length := by
  have hfilter : (G.before b).filter (· ∉ ordered ++ [a]) =
      ((G.before b).filter (· ∉ ordered)).erase a := by
    rw [((G.before_nodup b).filter _).erase_eq_filter, List.filter_filter]
    apply List.filter_congr
    intro x _
    by_cases hx : x = a
    · simp [hx]
    · simp [hx]
  rw [hfilter]
  split
  next hmem => exact List.length_erase_of_mem (List.mem_filter.mpr ⟨hmem, by simpa using ha⟩)
  next hmem =>
    rw [List.erase_of_not_mem]
    intro h
    exact hmem (List.mem_filter.mp h).1

theorem settled_append {a : α}
    (h : ∀ left b right, ordered = left ++ b :: right → G.before b ⊆ left)
    (ha : G.before a ⊆ ordered) (left : List α) (b : α) (right : List α)
    (hsplit : ordered ++ [a] = left ++ b :: right) : G.before b ⊆ left := by
  rcases List.eq_nil_or_concat right with rfl | ⟨front, last, rfl⟩
  · obtain ⟨rfl, hlast⟩ := List.append_inj' hsplit rfl
    cases hlast
    exact ha
  · have hcons : left ++ b :: front.concat last = (left ++ b :: front) ++ [last] := by simp
    obtain ⟨hfront, -⟩ := List.append_inj' (hsplit.trans hcons) rfl
    exact h left b front hfront

namespace Countdown

/-- A node that counts nothing waits for placed nodes only. -/
theorem before_subset (h : G.Countdown degrees ready ordered) {a : α} (ha : a ∈ G.nodes)
    (hzero : degrees a = 0) : G.before a ⊆ ordered := by
  intro b hb
  rw [h.degree a ha, List.length_eq_zero_iff] at hzero
  by_contra hnot
  have hmem : b ∈ (G.before a).filter (· ∉ ordered) := List.mem_filter.mpr ⟨hb, by simpa using hnot⟩
  rw [hzero] at hmem
  cases hmem

/-- A turn succeeds and keeps the countdown. -/
theorem turn {least : κ} (h : G.Countdown degrees (least :: ready) ordered) :
    ∃ degrees' ready',
      (G.children (G.label least)).foldlM (release G.key) (degrees, ready) =
        some (degrees', ready') ∧
      G.Countdown degrees' ready' (ordered ++ [G.label least]) := by
  obtain ⟨a, hknown, hplaced, rfl⟩ := h.ready_key least List.mem_cons_self
  rw [G.label_key]
  obtain ⟨hleast, hsorted⟩ := List.pairwise_cons.mp h.ready_sorted
  have hzero : degrees a = 0 := (h.free a hknown).mpr (.inr List.mem_cons_self)
  -- a child waits for the node that is placed now, so it counts something
  have hpos : ∀ child ∈ G.children a, 0 < degrees child := by
    intro child hchild
    obtain ⟨hnode, hbefore⟩ := (G.mem_children a child).mp hchild
    rw [h.degree child hnode]
    apply List.length_pos_of_mem
    exact List.mem_filter.mpr ⟨hbefore, by simpa using hplaced⟩
  obtain ⟨degrees', ready', hfold, hdegrees, hready, hsorted'⟩ :=
    foldlM_release G.key (G.children_nodup a) hpos hsorted
  refine ⟨degrees', ready', hfold, hsorted', ?_, ?_, ?_, ?_, ?_, ?_⟩
  · intro k hk
    rcases (hready k).mp hk with hold | ⟨child, hchild, -, rfl⟩
    · obtain ⟨b, hb, hnot, rfl⟩ := h.ready_key k (List.mem_cons_of_mem _ hold)
      refine ⟨b, hb, ?_, rfl⟩
      rw [List.mem_append, List.mem_singleton]
      rintro (hordered | rfl)
      · exact hnot hordered
      · exact lt_irrefl _ (hleast _ hold)
    · have hcount := hpos child hchild
      obtain ⟨hnode, -⟩ := (G.mem_children a child).mp hchild
      refine ⟨child, hnode, ?_, rfl⟩
      rw [List.mem_append, List.mem_singleton]
      rintro (hordered | rfl)
      · have hnone := (h.free child hnode).mpr (.inl hordered)
        omega
      · omega
  · apply h.ordered_nodup.append (List.nodup_singleton _)
    exact List.disjoint_singleton.mpr hplaced
  · exact List.append_subset.mpr ⟨h.ordered_subset, List.cons_subset.mpr ⟨hknown, List.nil_subset _⟩⟩
  · intro b hb
    rw [hdegrees, filter_placed hplaced, ← h.degree b hb]
    exact if_congr ((G.mem_children a b).trans (and_iff_right hb)) rfl rfl
  · intro b hb
    have hfree := h.free b hb
    rw [List.mem_cons, G.key_inj] at hfree
    have hnew : (∃ child ∈ G.children a, degrees child = 1 ∧ G.key b = G.key child) ↔
        b ∈ G.children a ∧ degrees b = 1 := by
      constructor
      · rintro ⟨child, hchild, hone, hkey⟩
        rw [G.key_inj.mp hkey]
        exact ⟨hchild, hone⟩
      · rintro ⟨hchild, hone⟩
        exact ⟨b, hchild, hone, rfl⟩
    rw [hdegrees, List.mem_append, List.mem_singleton, hready, hnew]
    by_cases hchild : b ∈ G.children a
    · have hcount := hpos b hchild
      have hwaits : ¬ (b ∈ ordered ∨ b = a ∨ G.key b ∈ ready) := fun hnot => by
        have hnone := hfree.mpr hnot
        omega
      have hone : degrees b - 1 = 0 ↔ degrees b = 1 := by omega
      rw [not_or, not_or] at hwaits
      rw [if_pos hchild, hone]
      simp [hwaits, hchild]
    · rw [if_neg hchild, hfree]
      simp [hchild, or_assoc]
  · exact settled_append h.settled (h.before_subset hknown hzero)

/-- Placed and ready nodes are different nodes. -/
theorem length_le (h : G.Countdown degrees ready ordered) :
    ordered.length + ready.length ≤ G.nodes.length := by
  have hlabels : (ready.map G.label).Nodup := by
    apply List.Nodup.map_on _ (h.ready_sorted.imp ne_of_lt)
    intro k hk k' hk' heq
    obtain ⟨a, -, -, rfl⟩ := h.ready_key k hk
    obtain ⟨b, -, -, rfl⟩ := h.ready_key k' hk'
    rwa [G.label_key, G.label_key, ← G.key_inj] at heq
  have hnodup : (ordered ++ ready.map G.label).Nodup := by
    apply h.ordered_nodup.append hlabels
    intro a hordered hready
    obtain ⟨k, hk, rfl⟩ := List.mem_map.mp hready
    obtain ⟨b, -, hnot, rfl⟩ := h.ready_key k hk
    rw [G.label_key] at hordered
    exact hnot hordered
  have hsubset : ordered ++ ready.map G.label ⊆ G.nodes := by
    apply List.append_subset.mpr ⟨h.ordered_subset, ?_⟩
    intro a ha
    obtain ⟨k, hk, rfl⟩ := List.mem_map.mp ha
    obtain ⟨b, hb, -, rfl⟩ := h.ready_key k hk
    rwa [G.label_key]
  have hlength := (List.subperm_of_subset hnodup hsubset).length_le
  rwa [List.length_append, List.length_map] at hlength

/-- With a turn left for every node that is not placed, the loop ends because nothing is ready,
and keeps what every turn keeps. -/
theorem run_eq {P : List α → Prop}
    (hstep : ∀ degrees least ready ordered, G.Countdown degrees (least :: ready) ordered →
      P ordered → P (ordered ++ [G.label least]))
    {fuel : Nat} (h : G.Countdown degrees ready ordered) (hP : P ordered)
    (hfuel : G.nodes.length ≤ fuel + ordered.length) :
    ∃ degrees' ordered',
      run G.children G.key G.label fuel degrees ready ordered = some (degrees', ordered') ∧
        G.Countdown degrees' [] ordered' ∧ P ordered' := by
  induction fuel generalizing degrees ready ordered with
  | zero =>
    have hlength := h.length_le
    have hready : ready = [] := List.length_eq_zero_iff.mp (by omega)
    subst hready
    exact ⟨degrees, ordered, by rw [run], h, hP⟩
  | succ fuel ih =>
    cases ready with
    | nil => exact ⟨degrees, ordered, by rw [run]; nofun, h, hP⟩
    | cons least ready =>
      obtain ⟨degrees', ready', hfold, hturn⟩ := h.turn
      have hlength : (ordered ++ [G.label least]).length = ordered.length + 1 := by simp
      obtain ⟨degrees'', ordered'', hrun, hend⟩ := ih hturn (hstep _ _ _ _ h hP) (by omega)
      refine ⟨degrees'', ordered'', ?_, hend⟩
      rw [run, hfold]
      exact hrun

/-! ## What is left over -/

/-- What a placed node waits for is placed before it. -/
theorem earlier (h : G.Countdown degrees ready ordered) {a b : α} (hedge : G.Edge a b)
    (hb : b ∈ ordered) : a ∈ ordered ∧ ordered.idxOf a < ordered.idxOf b := by
  obtain ⟨left, right, rfl⟩ := List.append_of_mem hb
  have ha : a ∈ left := h.settled left b right rfl hedge.2
  have hfresh : b ∉ left := by
    intro hleft
    exact List.disjoint_of_nodup_append h.ordered_nodup hleft List.mem_cons_self
  refine ⟨List.mem_append_left _ ha, ?_⟩
  rw [List.idxOf_append_of_mem ha, List.idxOf_append_of_notMem hfresh, List.idxOf_cons_self]
  exact List.idxOf_lt_length_of_mem ha

theorem earlier_of_path (h : G.Countdown degrees ready ordered) {a b : α}
    (hpath : TransGen G.Edge a b) (hb : b ∈ ordered) :
    a ∈ ordered ∧ ordered.idxOf a < ordered.idxOf b := by
  induction hpath with
  | single hedge => exact h.earlier hedge hb
  | tail _ hedge ih =>
    obtain ⟨hmid, hlt⟩ := h.earlier hedge hb
    obtain ⟨ha, hlt'⟩ := ih hmid
    exact ⟨ha, hlt'.trans hlt⟩

theorem unplaced_iff (h : G.Countdown degrees [] ordered) {a : α} (ha : a ∈ G.nodes) :
    a ∉ ordered ↔ 0 < degrees a := by
  have hfree := h.free a ha
  simp only [List.not_mem_nil, or_false] at hfree
  rw [← hfree]
  omega

/-- A node that is left over waits for one that is left over. -/
theorem exists_unplaced (h : G.Countdown degrees [] ordered) {a : α} (ha : a ∈ G.nodes)
    (hnot : a ∉ ordered) : ∃ b ∈ G.nodes, b ∉ ordered ∧ G.Edge b a := by
  have hpos := (h.unplaced_iff ha).mp hnot
  rw [h.degree a ha] at hpos
  obtain ⟨b, hb⟩ := List.exists_mem_of_length_pos hpos
  obtain ⟨hbefore, hplaced⟩ := List.mem_filter.mp hb
  exact ⟨b, G.before_subset a hbefore, by simpa using hplaced, ha, hbefore⟩

/-- The nodes left over are those on a cycle or behind one. -/
theorem unplaced_iff_cycle (h : G.Countdown degrees [] ordered) {a : α} (ha : a ∈ G.nodes) :
    a ∉ ordered ↔ ∃ c, TransGen G.Edge c c ∧ ReflTransGen G.Edge c a := by
  constructor
  · intro hnot
    by_contra hacyclic
    -- the nodes left over from which `a` is reached would have one that waits for none of them
    let S : Set α := {b | b ∈ G.nodes ∧ b ∉ ordered ∧ ReflTransGen G.Edge b a}
    have hfinite : Finite S := by
      apply Set.Finite.subset (G.nodes.finite_toSet) fun b hb => hb.1
    have : IsTrans S fun x y => TransGen G.Edge x.1 y.1 := ⟨fun _ _ _ => TransGen.trans⟩
    have : Std.Irrefl fun x y : S => TransGen G.Edge x.1 y.1 := by
      refine ⟨fun x hcycle => hacyclic ⟨x.1, hcycle, x.2.2.2⟩⟩
    have hwf : WellFounded fun x y : S => TransGen G.Edge x.1 y.1 :=
      Finite.wellFounded_of_trans_of_irrefl _
    obtain ⟨⟨b, hb⟩, -, hmin⟩ := hwf.has_min Set.univ ⟨⟨a, ha, hnot, .refl⟩, trivial⟩
    obtain ⟨c, hc, hcnot, hedge⟩ := h.exists_unplaced hb.1 hb.2.1
    exact hmin ⟨c, hc, hcnot, .head hedge hb.2.2⟩ trivial (.single hedge)
  · rintro ⟨c, hcycle, hreach⟩ hplaced
    have hc : c ∈ ordered := by
      rcases reflTransGen_iff_eq_or_transGen.mp hreach with rfl | hpath
      · exact hplaced
      · exact (h.earlier_of_path hpath hplaced).1
    exact lt_irrefl _ (h.earlier_of_path hcycle hc).2

theorem length_eq_iff (h : G.Countdown degrees [] ordered) :
    ordered.length = G.nodes.length ↔ ∀ a ∈ G.nodes, a ∈ ordered := by
  have hsub := List.subperm_of_subset h.ordered_nodup h.ordered_subset
  constructor
  · intro hlength a ha
    exact (hsub.perm_of_length_le hlength.ge).mem_iff.mpr ha
  · intro hall
    have hsub' := List.subperm_of_subset G.nodes_nodup hall
    exact le_antisymm hsub.length_le hsub'.length_le

/-! ## Edges that go up -/

/-- The nodes are placed in the order of their keys, those before all others. -/
def Lowest (G : Graph α κ) (ordered : List α) : Prop :=
  (ordered.map G.key).Pairwise (· < ·) ∧
    ∀ a ∈ ordered, ∀ b ∈ G.nodes, b ∉ ordered → G.key a < G.key b

/-- If edges go up, the least ready node is the least of all that are not placed. -/
theorem lowest_turn (hup : ∀ a b, G.Edge a b → G.key a < G.key b) {least : κ}
    (h : G.Countdown degrees (least :: ready) ordered) (hlow : Lowest G ordered) :
    Lowest G (ordered ++ [G.label least]) := by
  obtain ⟨a, hknown, hplaced, rfl⟩ := h.ready_key least List.mem_cons_self
  rw [G.label_key]
  have hleast : ∀ b ∈ G.nodes, b ∉ ordered → G.key a ≤ G.key b := by
    intro b hb hnot
    have hne : (G.nodes.toFinset.filter (· ∉ ordered)).Nonempty := ⟨b, by simp [hb, hnot]⟩
    obtain ⟨c, hc, hmin⟩ := Finset.exists_min_image _ G.key hne
    simp only [Finset.mem_filter, List.mem_toFinset] at hc hmin
    have hzero : degrees c = 0 := by
      rw [h.degree c hc.1, List.length_eq_zero_iff, List.filter_eq_nil_iff]
      intro d hd hdnot
      have hle := hmin d ⟨G.before_subset c hd, by simpa using hdnot⟩
      exact absurd (hup d c ⟨hc.1, hd⟩) (not_lt.mpr hle)
    have hready := ((h.free c hc.1).mp hzero).resolve_left hc.2
    apply le_trans _ (hmin b ⟨hb, hnot⟩)
    rcases List.mem_cons.mp hready with heq | hrest
    · exact heq.ge
    · exact ((List.pairwise_cons.mp h.ready_sorted).1 _ hrest).le
  constructor
  · rw [List.map_append, List.pairwise_append]
    refine ⟨hlow.1, List.pairwise_singleton _ _, ?_⟩
    intro k hk k' hk'
    obtain ⟨b, hb, rfl⟩ := List.mem_map.mp hk
    rw [List.map_singleton, List.mem_singleton] at hk'
    rw [hk']
    exact hlow.2 b hb a hknown hplaced
  · intro b hb c hc hnot
    rw [List.mem_append, List.mem_singleton, not_or] at hnot
    rcases List.mem_append.mp hb with hb | hb
    · exact hlow.2 b hb c hc hnot.1
    · rw [List.mem_singleton.mp hb]
      exact lt_of_le_of_ne (hleast c hc hnot.1) fun heq => hnot.2 (G.key_inj.mp heq).symm

end Countdown

/-! ## The order of a graph -/

/-- The loop never counts below zero and ends with nothing ready. -/
theorem order_eq_some (G : Graph α κ) :
    ∃ degrees ordered, G.order = some (degrees, ordered) ∧ G.Countdown degrees [] ordered := by
  obtain ⟨degrees, ordered, hrun, h, -⟩ :=
    (initial_countdown G).run_eq (P := fun _ => True) (fun _ _ _ _ _ _ => trivial) trivial
      (Nat.le_add_right _ _)
  exact ⟨degrees, ordered, hrun, h⟩

/-- If edges go up, the order is that of the keys. -/
theorem order_sorted (G : Graph α κ) (hup : ∀ a b, G.Edge a b → G.key a < G.key b) :
    ∃ degrees ordered, G.order = some (degrees, ordered) ∧ ordered.Perm G.nodes ∧
      (ordered.map G.key).Pairwise (· < ·) := by
  obtain ⟨degrees, ordered, hrun, h, hlow⟩ :=
    (initial_countdown G).run_eq (P := Countdown.Lowest G)
      (fun _ _ _ _ h hlow => h.lowest_turn hup hlow) ⟨List.Pairwise.nil, by simp⟩
      (Nat.le_add_right _ _)
  refine ⟨degrees, ordered, hrun, ?_, hlow.1⟩
  have hall : ∀ a ∈ G.nodes, a ∈ ordered := by
    intro a ha
    by_contra hnot
    obtain ⟨c, hcycle, -⟩ := (h.unplaced_iff_cycle ha).mp hnot
    have hlt : G.key c < G.key c := by
      have hpath : ∀ {x y}, TransGen G.Edge x y → G.key x < G.key y := by
        intro x y hxy
        induction hxy with
        | single hedge => exact hup _ _ hedge
        | tail _ hedge ih => exact ih.trans (hup _ _ hedge)
      exact hpath hcycle
    exact lt_irrefl _ hlt
  rw [List.perm_ext_iff_of_nodup h.ordered_nodup G.nodes_nodup]
  exact fun a => ⟨fun ha => h.ordered_subset ha, hall a⟩

end Graph

end Kahn
