import SmeshDurable.Library.CanonicalBounds
import SmeshDurable.Library.JsonPath
import SmeshDurable.Privacy.Policy

/-!
# The bounds of a record

Before a record is classified, one walk over its tree counts the values and adds up the lengths the
pointers to them will have. The classification is a second walk that builds these pointers. Both
keep the values still to visit on a stack.
-/

namespace SmeshDurable.Privacy

open CanonicalJson Transaction

def maxDepth : Nat := 64

/-! ## Pointers of a tree -/

mutual

/-- The pointers to all values below a value that has a pointer itself. -/
def pointersBelow (pointer : String) : Json → List String
  | .arr items => itemPointers pointer 0 items
  | .obj fields => fieldPointers pointer fields
  | _ => []

def itemPointers (pointer : String) (index : Nat) : List Json → List String
  | [] => []
  | item :: rest =>
    let child := pointer ++ "/" ++ index.repr
    child :: pointersBelow child item ++ itemPointers pointer (index + 1) rest

def fieldPointers (pointer : String) : List (String × Json) → List String
  | [] => []
  | (key, value) :: rest =>
    let child := pointer ++ "/" ++ encodePointerToken key
    child :: pointersBelow child value ++ fieldPointers pointer rest

end

def nodeCount (v : Json) : Nat := 1 + (pointersBelow "" v).length

def treeDepth (v : Json) : Nat := 1 + height v

def pointerBytes (v : Json) : Nat := ((pointersBelow "" v).map String.utf8ByteSize).sum

/-! ## The walk that counts -/

def decimalLen (value : Nat) : Nat := if 10 ≤ value then decimalLen (value / 10) + 1 else 1

/-- The two bytes that are escaped only occur as characters of their own. -/
def escapedKeyLen (key : String) : Nat :=
  key.utf8ByteSize + key.toList.countP fun c => c = '~' || c = '/'

/-- The values directly inside a value, with the lengths of their tokens. -/
def tokenLengths : Json → List (Nat × Json)
  | .arr items => items.zipIdx.map fun item => (decimalLen item.2, item.1)
  | .obj fields => fields.map fun field => (escapedKeyLen field.1, field.2)
  | _ => []

/-- A value to visit, with its depth and the length of its pointer. -/
structure Pending where
  value : Json
  depth : Nat
  pointerLen : Nat

/-- The loop over the values inside a value; sums that do not fit in 64 bits are over the limit. -/
def pushChildren (limit depth pointerLen : Nat) :
    List (Nat × Json) → Nat → List Pending → Except PrivacyError (Nat × List Pending)
  | [], work, stack => .ok (work, stack)
  | (length, value) :: rest, work, stack => do
      let childLen := pointerLen + 1 + length
      require (childLen < 2 ^ 64) .limitExceeded
      require (work + childLen < 2 ^ 64) .limitExceeded
      require (work + childLen ≤ limit) .limitExceeded
      pushChildren limit depth pointerLen rest (work + childLen)
        (⟨value, depth + 1, childLen⟩ :: stack)

/-- The loop over the stack. The values visited and the `remaining` ones add up to the most there
may be, so a loop that has none remaining fails at the next value. -/
def boundsLoop (limit : Nat) :
    Nat → List Pending → Nat → Nat → Except PrivacyError (Nat × Nat)
  | _, [], records, work => .ok (records, work)
  | 0, _ :: _, _, _ => .error .limitExceeded
  | remaining + 1, top :: stack, records, work => do
      require (top.depth ≤ maxDepth) .limitExceeded
      let (work, stack) ← pushChildren limit top.depth top.pointerLen (tokenLengths top.value) work stack
      boundsLoop limit remaining stack (records + 1) work

def validateTreeBounds (root : Json) (maxPointerWork : Nat) : Except PrivacyError (Nat × Nat) :=
  boundsLoop maxPointerWork maxRecords [⟨root, 1, 0⟩] 0 0

/-! ## The walk that classifies -/

/-- The values directly inside a value, with their tokens and whether they are members. -/
def children : Json → List (String × Bool × Json)
  | .arr items => items.zipIdx.map fun item => (item.2.repr, false, item.1)
  | .obj fields => fields.map fun field => (encodePointerToken field.1, true, field.2)
  | _ => []

/-- A value to classify, with its pointer. -/
structure Unclassified where
  value : Json
  pointer : String
  objectMember : Bool

def Unclassified.child (top : Unclassified) (child : String × Bool × Json) : Unclassified :=
  ⟨child.2.2, top.pointer ++ "/" ++ child.1, child.2.1⟩

def Unclassified.inside (top : Unclassified) : List Unclassified :=
  (children top.value).map top.child

def weight (stack : List Unclassified) : Nat := (stack.map fun u => u.value.nodes.length).sum

theorem map_children (v : Json) : (children v).map (fun child => child.2.2) = v.children := by
  cases v with
  | arr items =>
    rw [children, List.map_map, Json.children_arr]
    exact List.zipIdx_map_fst 0 items
  | obj fields =>
    rw [children, List.map_map]
    rfl
  | _ => rfl

theorem weight_inside (top : Unclassified) : weight top.inside + 1 = top.value.nodes.length := by
  rw [Json.nodes_eq, ← map_children, List.length_cons, List.length_flatMap, List.map_map, weight,
    Unclassified.inside, List.map_map]
  rfl

theorem weight_push (top : Unclassified) (stack : List Unclassified) :
    weight (top.inside.reverse ++ stack) < weight (top :: stack) := by
  have hinside := weight_inside top
  simp only [weight, List.map_append, List.sum_append, List.map_reverse, List.sum_reverse,
    List.map_cons, List.sum_cons] at hinside ⊢
  omega

theorem weight_pop (top : Unclassified) (stack : List Unclassified) :
    weight stack < weight (top :: stack) := by
  have hinside := weight_inside top
  simp only [weight, List.map_cons, List.sum_cons] at hinside ⊢
  omega

/-- The loop over the stack, with the values visited and the bytes of the pointers built so far. -/
def classifyLoop (policy : PrivacyPolicy) (stack : List Unclassified) (visited built : Nat) :
    Except PrivacyError Unit × Nat × Nat :=
  match stack with
  | [] => (.ok (), visited, built)
  | top :: stack =>
    let rule := findRule policy.rules top.pointer
    if top.objectMember = true ∧ rule = none then (.error .unclassifiedValue, visited + 1, built)
    else if rule.any (fun rule => rule.action ≠ .keep) = true then
      classifyLoop policy stack (visited + 1) built
    else if top.inside ≠ [] then
      classifyLoop policy (top.inside.reverse ++ stack) (visited + 1)
        (built + (top.inside.map fun child => child.pointer.utf8ByteSize).sum)
    else if rule = none then (.error .unclassifiedValue, visited + 1, built)
    else classifyLoop policy stack (visited + 1) built
termination_by weight stack
decreasing_by
  · exact weight_pop top stack
  · exact weight_push top stack
  · exact weight_pop top stack

def ensureFullyClassified (root : Json) (policy : PrivacyPolicy) : Except PrivacyError Unit :=
  (classifyLoop policy [⟨root, "", false⟩] 0 0).1

/-! ## Lengths of tokens -/

theorem decimalLen_eq (n : Nat) : decimalLen n = n.repr.utf8ByteSize := by
  rw [utf8ByteSize_repr]
  induction n using Nat.strong_induction_on with
  | _ n ih =>
    rw [decimalLen]
    split
    next h =>
      rw [ih (n / 10) (by omega), Nat.toDigits_of_base_le (by decide) h, List.length_append,
        List.length_singleton]
    next h => rw [Nat.toDigits_of_lt_base (by omega), List.length_singleton]

theorem escapedKeyLen_eq (key : String) :
    escapedKeyLen key = (encodePointerToken key).utf8ByteSize := by
  have hwidth : ∀ chars : List Char, width (JsonPointer.encodeToken chars) =
      width chars + chars.countP fun c => c = '~' || c = '/' := by
    intro chars
    induction chars with
    | nil => rfl
    | cons c chars ih =>
      have hstep : width (if c = '~' then ['~', '0'] else if c = '/' then ['~', '1'] else [c]) =
          width [c] + if (c = '~' || c = '/') = true then 1 else 0 := by
        by_cases htilde : c = '~'
        · subst htilde
          decide
        · by_cases hslash : c = '/'
          · subst hslash
            decide
          · simp [htilde, hslash]
      rw [JsonPointer.encodeToken_cons, width_append, ih, width_cons c chars, List.countP_cons, hstep]
      omega
  rw [escapedKeyLen, encodePointerToken, ← width_toList key]
  exact (hwidth key.toList).symm

theorem tokenLengths_eq (v : Json) :
    tokenLengths v = (children v).map fun child => (child.1.utf8ByteSize, child.2.2) := by
  cases v with
  | arr items => simp [tokenLengths, children, decimalLen_eq]
  | obj fields => simp [tokenLengths, children, escapedKeyLen_eq]
  | _ => rfl

/-! ## What is below the values on a stack -/

/-- The pointers below a value to classify. -/
def Unclassified.below (u : Unclassified) : List String := pointersBelow u.pointer u.value

/-- All values that a stack leads to. -/
def stackNodes (stack : List Unclassified) : Nat := (stack.map fun u => 1 + u.below.length).sum

/-- The bytes of the pointers of the values on a stack. -/
def stackBytes (stack : List Unclassified) : Nat :=
  (stack.map fun u => u.pointer.utf8ByteSize).sum

/-- The bytes of the pointers below the values on a stack. -/
def belowBytes (stack : List Unclassified) : Nat :=
  (stack.map fun u => (u.below.map String.utf8ByteSize).sum).sum

/-- Below a value are the values inside and what is below them. -/
theorem below_eq (u : Unclassified) :
    u.below = u.inside.flatMap fun child => child.pointer :: child.below := by
  obtain ⟨v, pointer, member⟩ := u
  have hitems : ∀ (items : List Json) (index : Nat), itemPointers pointer index items =
      (items.zipIdx index).flatMap fun item => (pointer ++ "/" ++ item.2.repr) ::
        pointersBelow (pointer ++ "/" ++ item.2.repr) item.1 := by
    intro items
    induction items with
    | nil => exact fun index => rfl
    | cons item rest ih =>
      intro index
      rw [itemPointers, ih, List.zipIdx_cons, List.flatMap_cons]
  have hfields : ∀ fields : List (String × Json), fieldPointers pointer fields =
      fields.flatMap fun field => (pointer ++ "/" ++ encodePointerToken field.1) ::
        pointersBelow (pointer ++ "/" ++ encodePointerToken field.1) field.2 := by
    intro fields
    induction fields with
    | nil => rfl
    | cons field rest ih => rw [fieldPointers, ih, List.flatMap_cons]
  cases v with
  | arr items =>
    rw [Unclassified.below, pointersBelow, hitems, Unclassified.inside, children, List.map_map,
      List.flatMap_map]
    rfl
  | obj fields =>
    rw [Unclassified.below, pointersBelow, hfields, Unclassified.inside, children, List.map_map,
      List.flatMap_map]
    rfl
  | _ => rfl

theorem stackNodes_cons (top : Unclassified) (stack : List Unclassified) :
    stackNodes (top :: stack) = 1 + stackNodes top.inside + stackNodes stack := by
  rw [stackNodes, List.map_cons, List.sum_cons, below_eq, List.length_flatMap]
  simp only [List.length_cons, Nat.add_comm _ 1]
  rfl

theorem belowBytes_cons (top : Unclassified) (stack : List Unclassified) :
    belowBytes (top :: stack) = stackBytes top.inside + belowBytes top.inside + belowBytes stack := by
  have hsum : (top.below.map String.utf8ByteSize).sum =
      stackBytes top.inside + belowBytes top.inside := by
    rw [below_eq]
    induction top.inside with
    | nil => rfl
    | cons child rest ih =>
      simp only [stackBytes, belowBytes, List.flatMap_cons, List.map_append, List.map_cons,
        List.sum_append, List.sum_cons] at ih ⊢
      omega
  rw [← hsum]
  rfl

theorem stackNodes_push (inside stack : List Unclassified) :
    stackNodes (inside.reverse ++ stack) = stackNodes inside + stackNodes stack := by
  simp [stackNodes]

theorem belowBytes_push (inside stack : List Unclassified) :
    belowBytes (inside.reverse ++ stack) = belowBytes inside + belowBytes stack := by
  simp [belowBytes]

/-! ## The first walk -/

/-- A value at a depth, as the walk that counts has it on its stack. -/
def Unclassified.pending (depth : Nat) (u : Unclassified) : Pending :=
  ⟨u.value, depth, u.pointer.utf8ByteSize⟩

theorem Unclassified.child_size (top : Unclassified) (child : String × Bool × Json) :
    (top.child child).pointer.utf8ByteSize =
      top.pointer.utf8ByteSize + 1 + child.1.utf8ByteSize := by
  rw [Unclassified.child, String.utf8ByteSize_append, String.utf8ByteSize_append]
  rfl

/-- The values inside are pushed unless their pointers, with those counted before, are over the
limit. -/
theorem pushChildren_eq_ok {limit depth : Nat} (hlimit : limit < 2 ^ 64) {top : Unclassified}
    {inside : List (String × Bool × Json)} {work : Nat} {stack : List Pending}
    {result : Nat × List Pending} (hwork : work ≤ limit) :
    pushChildren limit depth top.pointer.utf8ByteSize
        (inside.map fun child => (child.1.utf8ByteSize, child.2.2)) work stack = .ok result ↔
      work + stackBytes (inside.map top.child) ≤ limit ∧
        result = (work + stackBytes (inside.map top.child),
          ((inside.map top.child).map (Unclassified.pending (depth + 1))).reverse ++ stack) := by
  induction inside generalizing work stack with
  | nil => simp [pushChildren, stackBytes, hwork, eq_comm]
  | cons child rest ih =>
    have hbytes : stackBytes ((child :: rest).map top.child) =
        top.pointer.utf8ByteSize + 1 + child.1.utf8ByteSize + stackBytes (rest.map top.child) := by
      rw [← top.child_size child]
      rfl
    have hstack :
        (((child :: rest).map top.child).map (Unclassified.pending (depth + 1))).reverse ++ stack =
          ((rest.map top.child).map (Unclassified.pending (depth + 1))).reverse ++
            ⟨child.2.2, depth + 1, top.pointer.utf8ByteSize + 1 + child.1.utf8ByteSize⟩ ::
              stack := by
      rw [← top.child_size child]
      simp [Unclassified.pending, Unclassified.child]
    rw [hbytes, hstack, ← Nat.add_assoc]
    simp only [List.map_cons, pushChildren, bind_eq_ok, require_eq_ok, exists_const]
    constructor
    · rintro ⟨-, -, hfits, h⟩
      exact (ih hfits).mp h
    · rintro ⟨hfits, hresult⟩
      exact ⟨by omega, by omega, by omega, (ih (by omega)).mpr ⟨hfits, hresult⟩⟩

theorem height_child {v c : Json} (h : c ∈ v.children) : height c + 1 ≤ height v := by
  cases v with
  | arr items => exact height_item h
  | obj fields =>
    obtain ⟨field, hfield, rfl⟩ := List.mem_map.mp h
    exact height_field hfield
  | _ => cases h

theorem height_le {v : Json} {n : Nat} (h : ∀ c ∈ v.children, height c + 1 ≤ n) : height v ≤ n := by
  cases v with
  | arr items => exact height_arr_le h
  | obj fields => exact height_obj_le fun field hfield => h field.2 (List.mem_map_of_mem hfield)
  | _ => exact Nat.zero_le n

/-- The depth of a tree is bounded as the depths of the values inside are. -/
theorem depth_le_iff {depth : Nat} (u : Unclassified) :
    depth + height u.value ≤ maxDepth ↔
      depth ≤ maxDepth ∧ ∀ child ∈ u.inside, depth + 1 + height child.value ≤ maxDepth := by
  have hvalues : u.inside.map Unclassified.value = u.value.children := by
    rw [← map_children, Unclassified.inside, List.map_map]
    rfl
  have hinside : (∀ child ∈ u.inside, depth + 1 + height child.value ≤ maxDepth) ↔
      ∀ c ∈ u.value.children, depth + 1 + height c ≤ maxDepth := by
    rw [← hvalues, List.forall_mem_map]
  rw [hinside]
  constructor
  · intro h
    refine ⟨by omega, fun c hc => ?_⟩
    have hheight := height_child hc
    omega
  · rintro ⟨hdepth, hchildren⟩
    have hheight : height u.value ≤ maxDepth - depth :=
      height_le fun c hc => by
        have hchild := hchildren c hc
        omega
    omega

/-- One turn of the loop. -/
theorem boundsLoop_succ {limit : Nat} (hlimit : limit < 2 ^ 64) {remaining depth : Nat}
    {u : Unclassified} {stack : List Pending} {records work : Nat} {result : Nat × Nat}
    (hwork : work ≤ limit) :
    boundsLoop limit (remaining + 1) (u.pending depth :: stack) records work = .ok result ↔
      depth ≤ maxDepth ∧ work + stackBytes u.inside ≤ limit ∧
        boundsLoop limit remaining ((u.inside.map (Unclassified.pending (depth + 1))).reverse ++ stack)
          (records + 1) (work + stackBytes u.inside) = .ok result := by
  simp only [boundsLoop, bind_eq_ok, require_eq_ok, exists_const]
  rw [Unclassified.pending]
  simp only [tokenLengths_eq, pushChildren_eq_ok hlimit hwork, and_assoc, exists_and_left,
    exists_eq_left]
  rfl

/-- The loop succeeds exactly if everything its stack leads to is within the bounds, and adds it
up. -/
theorem boundsLoop_eq_ok {limit : Nat} (hlimit : limit < 2 ^ 64) {remaining : Nat}
    (stack : List (Nat × Unclassified)) (records : Nat) {work : Nat} {result : Nat × Nat}
    (hwork : work ≤ limit) :
    boundsLoop limit remaining (stack.map fun u => u.2.pending u.1) records work = .ok result ↔
      stackNodes (stack.map Prod.snd) ≤ remaining ∧
      (∀ u ∈ stack, u.1 + height u.2.value ≤ maxDepth) ∧
      work + belowBytes (stack.map Prod.snd) ≤ limit ∧
      result = (records + stackNodes (stack.map Prod.snd), work + belowBytes (stack.map Prod.snd)) := by
  have hnil : ∀ remaining records work,
      boundsLoop limit remaining [] records work = .ok (records, work) := by
    intro remaining records work
    cases remaining <;> rfl
  induction remaining generalizing stack records work with
  | zero =>
    cases stack with
    | nil => simp [hnil, stackNodes, belowBytes, hwork, eq_comm]
    | cons top stack =>
      have hpos : ¬ stackNodes ((top :: stack).map Prod.snd) ≤ 0 := by
        rw [List.map_cons, stackNodes_cons]
        omega
      exact iff_of_false (fun h => by cases h) fun h => hpos h.1
  | succ remaining ih =>
    cases stack with
    | nil => simp [hnil, stackNodes, belowBytes, hwork, eq_comm]
    | cons top stack =>
      obtain ⟨depth, u⟩ := top
      obtain ⟨next, hnext, hsnd, hdepths⟩ : ∃ next : List (Nat × Unclassified),
          next.map (fun w => w.2.pending w.1) =
              (u.inside.map (Unclassified.pending (depth + 1))).reverse ++
                stack.map (fun w => w.2.pending w.1) ∧
            next.map Prod.snd = u.inside.reverse ++ stack.map Prod.snd ∧
            ((∀ w ∈ next, w.1 + height w.2.value ≤ maxDepth) ↔
              (∀ child ∈ u.inside, depth + 1 + height child.value ≤ maxDepth) ∧
                ∀ w ∈ stack, w.1 + height w.2.value ≤ maxDepth) := by
        refine ⟨(u.inside.map fun child => (depth + 1, child)).reverse ++ stack, ?_, ?_, ?_⟩
        · simp [Function.comp_def]
        · simp [Function.comp_def]
        · rw [List.forall_mem_append]
          simp only [List.mem_reverse, List.forall_mem_map]
      have hrest := fun hfits : work + stackBytes u.inside ≤ limit => ih next (records + 1) hfits
      rw [hnext, hsnd, hdepths, stackNodes_push, belowBytes_push] at hrest
      rw [List.map_cons, boundsLoop_succ hlimit hwork, List.map_cons, stackNodes_cons,
        belowBytes_cons, List.forall_mem_cons, depth_le_iff]
      dsimp only
      constructor
      · rintro ⟨hdepth, hfits, h⟩
        obtain ⟨hnodes, ⟨hinside, hstack⟩, hbytes, rfl⟩ := (hrest hfits).mp h
        refine ⟨by omega, ⟨⟨hdepth, hinside⟩, hstack⟩, by omega, ?_⟩
        rw [Prod.mk.injEq]
        omega
      · rintro ⟨hnodes, ⟨⟨hdepth, hinside⟩, hstack⟩, hbytes, rfl⟩
        have hfits : work + stackBytes u.inside ≤ limit := by omega
        refine ⟨hdepth, hfits, (hrest hfits).mpr ⟨by omega, ⟨hinside, hstack⟩, by omega, ?_⟩⟩
        rw [Prod.mk.injEq]
        omega

/-! ## The second walk -/

/-- The classification visits at most what its stack leads to, and all of it if it succeeds under
rules that all keep their values. -/
theorem classifyLoop_le (policy : PrivacyPolicy) (stack : List Unclassified) (visited built : Nat) :
    let result := classifyLoop policy stack visited built
    (result.2.1 ≤ visited + stackNodes stack ∧ result.2.2 ≤ built + belowBytes stack) ∧
      ((∀ rule ∈ policy.rules, rule.action = .keep) → result.1 = .ok () →
        result.2.1 = visited + stackNodes stack ∧ result.2.2 = built + belowBytes stack) := by
  fun_induction classifyLoop policy stack visited built with
  | case1 visited built => exact ⟨⟨Nat.le_refl _, Nat.le_refl _⟩, fun _ _ => ⟨rfl, rfl⟩⟩
  | case2 visited built top stack rule h =>
    rw [stackNodes_cons, belowBytes_cons]
    exact ⟨⟨by dsimp only; omega, by dsimp only; omega⟩, fun _ herror => by cases herror⟩
  | case3 visited built top stack rule hmember hkeep ih =>
    obtain ⟨⟨hvisited, hbuilt⟩, -⟩ := ih
    rw [stackNodes_cons, belowBytes_cons]
    refine ⟨⟨by omega, by omega⟩, fun hall => ?_⟩
    obtain ⟨found, hfound, haction⟩ := (Option.any_eq_true _ _).mp hkeep
    have hkept := hall found (Keyed.mem_of_get? hfound)
    simp [hkept] at haction
  | case4 visited built top stack rule hmember hkeep hinside ih =>
    have hbytes : stackBytes top.inside =
        (top.inside.map fun child => child.pointer.utf8ByteSize).sum := rfl
    simp only [stackNodes_push, belowBytes_push] at ih
    obtain ⟨⟨hvisited, hbuilt⟩, hexact⟩ := ih
    rw [stackNodes_cons, belowBytes_cons]
    refine ⟨⟨by omega, by omega⟩, fun hall hok => ?_⟩
    obtain ⟨hvisited', hbuilt'⟩ := hexact hall hok
    omega
  | case5 visited built top stack rule hmember hkeep hinside hrule =>
    rw [stackNodes_cons, belowBytes_cons]
    exact ⟨⟨by dsimp only; omega, by dsimp only; omega⟩, fun _ herror => by cases herror⟩
  | case6 visited built top stack rule hmember hkeep hinside hrule ih =>
    obtain ⟨⟨hvisited, hbuilt⟩, hexact⟩ := ih
    have hnodes : stackNodes top.inside = 0 := by rw [of_not_not hinside]; rfl
    have hbytes : stackBytes top.inside + belowBytes top.inside = 0 := by
      rw [of_not_not hinside]
      rfl
    rw [stackNodes_cons, belowBytes_cons]
    refine ⟨⟨by omega, by omega⟩, fun hall hok => ?_⟩
    obtain ⟨hvisited', hbuilt'⟩ := hexact hall hok
    exact ⟨by omega, by omega⟩

/-! ## The bounds are exact -/

theorem nodeCount_eq (v : Json) (member : Bool) : nodeCount v = stackNodes [⟨v, "", member⟩] := rfl

theorem pointerBytes_eq (v : Json) (member : Bool) : pointerBytes v = belowBytes [⟨v, "", member⟩] :=
  rfl

/-- The first walk succeeds exactly on the trees within the bounds, with their number of values and
the bytes of their pointers. The second walk stays below both, and reaches them when it succeeds
and no rule removes or replaces a value. -/
theorem tree_precheck_exact (v : Json) (limit : UInt64) :
    (∀ result, validateTreeBounds v limit.toNat = .ok result ↔
      (nodeCount v ≤ maxRecords ∧ treeDepth v ≤ maxDepth ∧ pointerBytes v ≤ limit.toNat) ∧
        result = (nodeCount v, pointerBytes v)) ∧
    ∀ policy : PrivacyPolicy,
      let walk := classifyLoop policy [⟨v, "", false⟩] 0 0
      (walk.2.1 ≤ nodeCount v ∧ walk.2.2 ≤ pointerBytes v) ∧
        ((∀ rule ∈ policy.rules, rule.action = .keep) → ensureFullyClassified v policy = .ok () →
          walk.2.1 = nodeCount v ∧ walk.2.2 = pointerBytes v) := by
  constructor
  · intro result
    have hloop := @boundsLoop_eq_ok _ (UInt64.toNat_lt limit) maxRecords [(1, ⟨v, "", false⟩)] 0 _
      result (Nat.zero_le limit.toNat)
    rw [List.forall_mem_singleton, List.map_singleton, List.map_singleton, ← nodeCount_eq,
      ← pointerBytes_eq, Nat.zero_add, Nat.zero_add] at hloop
    rw [and_assoc, and_assoc]
    exact hloop
  · intro policy
    have hwalk := classifyLoop_le policy [⟨v, "", false⟩] 0 0
    rw [← nodeCount_eq, ← pointerBytes_eq, Nat.zero_add, Nat.zero_add] at hwalk
    exact hwalk

/-- Rules that keep a list under an escaped key and its item. -/
def keptRules : List RedactionRule :=
  [⟨"/a~1b", .public, .keep, false, some "fiction"⟩, ⟨"/a~1b/0", .public, .keep, false, some "fiction"⟩]

theorem kept_item_counted :
    let v : Json := .obj [("a/b", .arr [.null])]
    let policy : PrivacyPolicy := ⟨"policy", 1, "generation", keptRules⟩
    (∀ rule ∈ keptRules, validatePair rule = .ok ()) ∧ validateTreeBounds v 12 = .ok (3, 12) ∧
      (classifyLoop policy [⟨v, "", false⟩] 0 0).2 = (3, 12) := by
  intro v policy
  obtain ⟨hbounds, hwalk⟩ := tree_precheck_exact v 12
  have hclassified : ensureFullyClassified v policy = .ok () := by
    have hroot : findRule policy.rules "" = none := by decide +kernel
    have hmember : findRule policy.rules ("/" ++ encodePointerToken "a/b") = keptRules[0]? := by
      decide +kernel
    have hitem : findRule policy.rules ("/" ++ encodePointerToken "a/b" ++ "/" ++ Nat.repr 0) =
        keptRules[1]? := by
      decide +kernel
    rw [ensureFullyClassified, classifyLoop]
    simp [v, hroot, hmember, hitem, Unclassified.inside, Unclassified.child, children, classifyLoop,
      keptRules]
  obtain ⟨hvisited, hbuilt⟩ := (hwalk policy).2 (by decide) hclassified
  exact ⟨by decide +kernel, (hbounds (3, 12)).mpr (by decide +kernel),
    Prod.ext hvisited (hbuilt.trans (by decide +kernel))⟩

end SmeshDurable.Privacy
