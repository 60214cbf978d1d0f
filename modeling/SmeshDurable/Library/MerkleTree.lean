import Mathlib.Data.List.Basic
import Mathlib.Data.Set.Function

/-!
# Trees built by levels

A list is folded level by level: neighbours are combined, and an element without a neighbour goes
up unchanged. The fold commutes with homomorphisms, so a root computed from digests is the root of
the tree that has the list as its leaves. If leaves and inner nodes are hashed apart, a root
determines the tree, whatever its shape.
-/

namespace MerkleTree

variable {α β γ δ : Type*}

/-! ## Levels -/

section Levels

variable (combine : β → β → β)

/-- Neighbours are combined; a last element without a neighbour stays. -/
def level : List β → List β
  | a :: b :: rest => combine a b :: level rest
  | rest => rest

theorem level_length_le (xs : List β) : (level combine xs).length ≤ xs.length := by
  fun_induction level combine xs with
  | case1 a b rest ih =>
    simp only [List.length_cons]
    omega
  | case2 rest hshort => exact le_rfl

theorem level_length_lt (a b : β) (rest : List β) :
    (level combine (a :: b :: rest)).length < (a :: b :: rest).length := by
  have hrest := level_length_le combine rest
  rw [level]
  simp only [List.length_cons]
  omega

/-- Levels up to a single element. -/
def top : List β → Option β
  | [] => none
  | [root] => some root
  | a :: b :: rest => top (level combine (a :: b :: rest))
termination_by xs => xs.length
decreasing_by exact level_length_lt combine a b rest

/-- The neighbours of one level. -/
def neighbours : List β → List (β × β)
  | a :: b :: rest => (a, b) :: neighbours rest
  | _ => []

/-- All pairs that are combined on the way up. -/
def combined : List β → List (β × β)
  | [] => []
  | [_] => []
  | a :: b :: rest =>
    neighbours (a :: b :: rest) ++ combined (level combine (a :: b :: rest))
termination_by xs => xs.length
decreasing_by exact level_length_lt combine a b rest

theorem top_isSome {xs : List β} (h : xs ≠ []) : ∃ root, top combine xs = some root := by
  fun_induction top combine xs with
  | case1 => exact absurd rfl h
  | case2 root => exact ⟨root, rfl⟩
  | case3 a b rest ih => exact ih (by rw [level]; exact List.cons_ne_nil _ _)

/-- What holds of every element and is kept by each combination holds on the next level. -/
theorem level_invariant {P : β → Prop} {xs : List β} (hall : ∀ x ∈ xs, P x)
    (hstep : ∀ p ∈ neighbours xs, P p.1 → P p.2 → P (combine p.1 p.2)) :
    ∀ x ∈ level combine xs, P x := by
  fun_induction level combine xs with
  | case1 a b rest ih =>
    rw [List.forall_mem_cons, List.forall_mem_cons] at hall
    rw [neighbours, List.forall_mem_cons] at hstep
    rw [List.forall_mem_cons]
    exact ⟨hstep.1 hall.1 hall.2.1, ih hall.2.2 hstep.2⟩
  | case2 rest hshort => exact hall

theorem top_invariant {P : β → Prop} {xs : List β} {root : β} (h : top combine xs = some root)
    (hall : ∀ x ∈ xs, P x)
    (hstep : ∀ p ∈ combined combine xs, P p.1 → P p.2 → P (combine p.1 p.2)) : P root := by
  fun_induction top combine xs with
  | case1 => cases h
  | case2 x =>
    cases h
    exact hall root List.mem_cons_self
  | case3 a b rest ih =>
    rw [combined, List.forall_mem_append] at hstep
    exact ih h (level_invariant combine hall hstep.1) hstep.2

end Levels

/-! ## Homomorphisms -/

section Map

variable {combine : β → β → β} {combine' : γ → γ → γ} {f : β → γ}

theorem map_level (hf : ∀ a b, f (combine a b) = combine' (f a) (f b)) (xs : List β) :
    (level combine xs).map f = level combine' (xs.map f) := by
  fun_induction level combine xs with
  | case1 a b rest ih =>
    simp only [List.map_cons, level, hf, ih]
  | case2 rest hshort =>
    match rest, hshort with
    | [], _ => rfl
    | [x], _ => rfl
    | a :: b :: rest, hshort => exact absurd rfl (hshort a b rest)

theorem map_neighbours (xs : List β) :
    (neighbours xs).map (Prod.map f f) = neighbours (xs.map f) := by
  fun_induction neighbours xs with
  | case1 a b rest ih => simp only [List.map_cons, neighbours, ih, Prod.map_apply]
  | case2 rest hshort =>
    match rest, hshort with
    | [], _ => rfl
    | [x], _ => rfl
    | a :: b :: rest, hshort => exact absurd rfl (hshort a b rest)

theorem map_top (hf : ∀ a b, f (combine a b) = combine' (f a) (f b)) (xs : List β) :
    (top combine xs).map f = top combine' (xs.map f) := by
  fun_induction top combine xs with
  | case1 => rw [List.map_nil, top, Option.map_none]
  | case2 root => rw [List.map_cons, List.map_nil, top, Option.map_some]
  | case3 a b rest ih =>
    rw [ih, map_level hf]
    simp only [List.map_cons]
    rw [top]

theorem map_combined (hf : ∀ a b, f (combine a b) = combine' (f a) (f b)) (xs : List β) :
    (combined combine xs).map (Prod.map f f) = combined combine' (xs.map f) := by
  fun_induction combined combine xs with
  | case1 => simp only [List.map_nil, combined]
  | case2 root => simp only [List.map_cons, List.map_nil, combined]
  | case3 a b rest ih =>
    rw [List.map_append, ih, map_neighbours, map_level hf]
    simp only [List.map_cons]
    rw [combined]

end Map

/-- Concatenating by levels concatenates the whole list. -/
theorem top_append {xss : List (List α)} (h : xss ≠ []) :
    top (· ++ ·) xss = some xss.flatten := by
  have hlevel (xss : List (List α)) : (level (· ++ ·) xss).flatten = xss.flatten := by
    fun_induction level (fun a b : List α => a ++ b) xss with
    | case1 a b rest ih => simp only [List.flatten_cons, ih, List.append_assoc]
    | case2 rest hshort => rfl
  fun_induction top (fun a b : List α => a ++ b) xss with
  | case1 => exact absurd rfl h
  | case2 root => simp
  | case3 a b rest ih =>
    rw [ih (by rw [level]; exact List.cons_ne_nil _ _), hlevel]

/-! ## Trees -/

inductive Tree (α : Type*) where
  | leaf (value : α)
  | node (left right : Tree α)

/-- What is hashed at one place of a tree. -/
inductive Input (α δ : Type*) where
  | leaf (value : α)
  | node (left right : δ)

namespace Tree

def leaves : Tree α → List α
  | .leaf value => [value]
  | .node left right => left.leaves ++ right.leaves

variable (hash : Input α δ → δ)

def root : Tree α → δ
  | .leaf value => hash (.leaf value)
  | .node left right => hash (.node (left.root) (right.root))

/-- All that is hashed for a root lies in a set. -/
def Within (known : Set (Input α δ)) : Tree α → Prop
  | .leaf value => Input.leaf value ∈ known
  | .node left right =>
    Input.node (left.root hash) (right.root hash) ∈ known ∧ left.Within known ∧ right.Within known

variable {hash}

theorem Within.mono {known known' : Set (Input α δ)} {t : Tree α} (h : t.Within hash known)
    (hsub : ∀ input ∈ known, input ∈ known') : t.Within hash known' := by
  induction t with
  | leaf value => exact hsub _ h
  | node left right ihl ihr => exact ⟨hsub _ h.1, ihl h.2.1, ihr h.2.2⟩

/-- Trees of any two shapes with one root are equal if no two hashed inputs collide. -/
theorem eq_of_root {known : Set (Input α δ)} (hinj : Set.InjOn hash known) {s t : Tree α}
    (hs : s.Within hash known) (ht : t.Within hash known) (h : s.root hash = t.root hash) :
    s = t := by
  induction s generalizing t with
  | leaf value =>
    cases t with
    | leaf other =>
      cases hinj hs ht h
      rfl
    | node left right => cases hinj hs ht.1 h
  | node left right ihl ihr =>
    cases t with
    | leaf other => cases hinj hs.1 ht h
    | node left' right' =>
      have hinput := hinj hs.1 ht.1 h
      injection hinput with hleft hright
      rw [ihl hs.2.1 ht.2.1 hleft, ihr hs.2.2 ht.2.2 hright]

end Tree

/-! ## Roots of lists -/

section Roots

variable (hash : Input α δ → δ)

/-- The root over a list of leaves, computed on digests only. -/
def rootOf (xs : List α) : Option δ :=
  top (fun a b => hash (.node a b)) (xs.map fun x => hash (.leaf x))

/-- All that is hashed for the root of a list. -/
def inputs (xs : List α) : List (Input α δ) :=
  xs.map .leaf ++
    (combined (fun a b => hash (.node a b)) (xs.map fun x => hash (.leaf x))).map
      fun p => .node p.1 p.2

variable {hash}

/-- A root over a list is the root of a tree with this list as its leaves. -/
theorem exists_tree {xs : List α} (h : xs ≠ []) :
    ∃ t : Tree α, t.leaves = xs ∧ rootOf hash xs = some (t.root hash) ∧
      t.Within hash {input | input ∈ inputs hash xs} := by
  have hne : xs.map Tree.leaf ≠ [] := mt List.map_eq_nil_iff.mp h
  obtain ⟨t, ht⟩ := top_isSome Tree.node hne
  have hroots : (xs.map Tree.leaf).map (Tree.root hash) = xs.map fun x => hash (.leaf x) := by
    rw [List.map_map]
    rfl
  refine ⟨t, ?_, ?_, ?_⟩
  · have hleaves : (top Tree.node (xs.map Tree.leaf)).map Tree.leaves =
        top (· ++ ·) ((xs.map Tree.leaf).map Tree.leaves) := map_top (fun _ _ => rfl) _
    have hsingle : ((xs.map Tree.leaf).map Tree.leaves).flatten = xs := by
      rw [List.map_map, ← List.flatMap_def]
      exact List.flatMap_singleton' xs
    rw [ht, top_append (mt List.map_eq_nil_iff.mp hne), hsingle] at hleaves
    exact Option.some.inj hleaves
  · have hroot : (top Tree.node (xs.map Tree.leaf)).map (Tree.root hash) =
        top (fun a b => hash (.node a b)) ((xs.map Tree.leaf).map (Tree.root hash)) :=
      map_top (fun _ _ => rfl) _
    rw [rootOf, ← hroots, ← hroot, ht, Option.map_some]
  · have hcombined : (combined Tree.node (xs.map Tree.leaf)).map
        (Prod.map (Tree.root hash) (Tree.root hash)) =
        combined (fun a b => hash (.node a b)) ((xs.map Tree.leaf).map (Tree.root hash)) :=
      map_combined (fun _ _ => rfl) _
    rw [hroots] at hcombined
    -- each leaf is hashed, and each pair of subtrees that are joined by the pair of their roots
    apply top_invariant Tree.node ht
    · intro leaf hleaf
      obtain ⟨x, hx, rfl⟩ := List.mem_map.mp hleaf
      exact List.mem_append_left _ (List.mem_map_of_mem hx)
    · intro pair hpair hleft hright
      refine ⟨List.mem_append_right _ (List.mem_map.mpr ⟨pair.map _ _, ?_, rfl⟩), hleft, hright⟩
      rw [← hcombined]
      exact List.mem_map_of_mem hpair

/-- Lists of any lengths with one root are equal if no two hashed inputs collide. -/
theorem eq_of_rootOf {known : Set (Input α δ)} (hinj : Set.InjOn hash known) {xs ys : List α}
    (hxs : ∀ input ∈ inputs hash xs, input ∈ known) (hys : ∀ input ∈ inputs hash ys, input ∈ known)
    (hx : xs ≠ []) (hy : ys ≠ []) (h : rootOf hash xs = rootOf hash ys) : xs = ys := by
  obtain ⟨s, hs, hsroot, hswithin⟩ := exists_tree hx
  obtain ⟨t, ht, htroot, htwithin⟩ := exists_tree hy
  rw [hsroot, htroot] at h
  have heq : s = t := Tree.eq_of_root hinj (hswithin.mono hxs) (htwithin.mono hys)
    (Option.some.inj h)
  rw [← hs, ← ht, heq]

end Roots

end MerkleTree
