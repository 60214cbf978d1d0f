import SmeshDurable.Library.Kahn
import SmeshDurable.Library.Ranked
import SmeshDurable.Replay.Lines
import SmeshDurable.Replay.State

/-!
# The order of a merge

An event comes after its predecessor in the sequence of its producer and after its parent, when
that is held. The sort leaves over exactly the events behind a cycle of this graph. The clocks of
a merger that can be sealed go up along every edge, and so the events come in the order of their
merge keys.
-/

namespace SmeshDurable.Replay

open CanonicalJson Ranked Relation Transaction

variable {m : CausalMerger}

/-! ## The graph -/

/-- The events have different ids, and the slots lead to them. -/
structure CausalMerger.Indexed (m : CausalMerger) : Prop where
  ids : (m.events.map CausalSourceEvent.id).Nodup
  slots : ∀ slot id, m.slots.lookup slot = some id ↔
    ∃ s ∈ m.events, producerSlot s = slot ∧ s.id = id

/-- No place in the sequence of a producer is left out. -/
def CausalMerger.Contiguous (m : CausalMerger) : Prop :=
  ∀ s ∈ m.events, ∀ n < s.sequence, ∃ p ∈ m.events, producerKey p = producerKey s ∧ p.sequence = n

/-- An event is the parent of another, or comes just before it in their producer's sequence. -/
def CausalMerger.Edge (m : CausalMerger) (a b : String) : Prop :=
  ∃ p ∈ m.events, ∃ s ∈ m.events, p.id = a ∧ s.id = b ∧
    (s.parentId? = some a ∨ producerKey p = producerKey s ∧ p.sequence + 1 = s.sequence)

theorem mem_sortDistinct {texts : List String} {text : String} :
    text ∈ sortDistinct texts ↔ text ∈ texts := by
  rw [sortDistinct, (List.perm_insertionSort _ _).mem_iff, List.mem_dedup]

theorem sortDistinct_sorted (texts : List String) : (sortDistinct texts).Pairwise (· < ·) := by
  have hle : (sortDistinct texts).Pairwise (· ≤ ·) := List.pairwise_insertionSort _ _
  have hnodup : (sortDistinct texts).Nodup :=
    (List.perm_insertionSort _ _).nodup_iff.mpr (List.nodup_dedup texts)
  exact (hle.and hnodup).imp fun hab => lt_of_le_of_ne hab.1 hab.2

theorem keyOf_id (events : List CausalSourceEvent) (id : String) : (keyOf events id).id = id := by
  unfold keyOf
  split
  next s hlookup =>
    have hid : s.id = id := by simpa using List.find?_some hlookup
    exact hid
  next => rfl

namespace CausalMerger.Indexed

theorem lookup (hm : m.Indexed) {s : CausalSourceEvent} (hs : s ∈ m.events) :
    lookupEvent m.events s.id = some s :=
  (lookupEvent_eq_some hm.ids).mpr ⟨hs, rfl⟩

theorem keyOf_eq (hm : m.Indexed) {s : CausalSourceEvent} (hs : s ∈ m.events) :
    keyOf m.events s.id = mergeKey s := by
  rw [keyOf, hm.lookup hs]

/-- What an id waits for are its edges. -/
theorem mem_before (hm : m.Indexed) {a b : String} : a ∈ m.before b ↔ m.Edge a b := by
  have hpredecessors {s : CausalSourceEvent} (hs : s ∈ m.events) :
      a ∈ predecessors m s ↔ ∃ p ∈ m.events, p.id = a ∧
        (s.parentId? = some a ∨ producerKey p = producerKey s ∧ p.sequence + 1 = s.sequence) := by
    have hslot : (0 < s.sequence ∧ m.slots.lookup (producerKey s, s.sequence - 1) = some a) ↔
        ∃ p ∈ m.events, p.id = a ∧ producerKey p = producerKey s ∧ p.sequence + 1 = s.sequence := by
      rw [hm.slots]
      constructor
      · rintro ⟨hpos, p, hp, hslot, rfl⟩
        injection hslot with hkey hsequence
        exact ⟨p, hp, rfl, hkey, by omega⟩
      · rintro ⟨p, hp, rfl, hkey, hsequence⟩
        refine ⟨by omega, p, hp, ?_, rfl⟩
        rw [producerSlot, hkey, ← hsequence, Nat.add_sub_cancel]
    have hparent : (s.parentId? = some a ∧ (lookupEvent m.events a).isSome = true) ↔
        ∃ p ∈ m.events, p.id = a ∧ s.parentId? = some a := by
      simp only [Option.isSome_iff_exists, lookupEvent_eq_some hm.ids]
      constructor
      · rintro ⟨hparent, p, hp, hid⟩
        exact ⟨p, hp, hid, hparent⟩
      · rintro ⟨p, hp, hid, hparent⟩
        exact ⟨hparent, p, hp, hid⟩
    simp only [predecessors, List.mem_dedup, List.mem_append, Option.mem_toList,
      Option.ite_none_right_eq_some, Option.filter_eq_some_iff, hslot, hparent]
    constructor
    · rintro (⟨p, hp, hid, hplace⟩ | ⟨p, hp, hid, hparent⟩)
      · exact ⟨p, hp, hid, .inr hplace⟩
      · exact ⟨p, hp, hid, .inl hparent⟩
    · rintro ⟨p, hp, hid, hparent | hplace⟩
      · exact .inr ⟨p, hp, hid, hparent⟩
      · exact .inl ⟨p, hp, hid, hplace⟩
  unfold CausalMerger.before
  split
  next s hlookup =>
    obtain ⟨hs, rfl⟩ := (lookupEvent_eq_some hm.ids).mp hlookup
    rw [hpredecessors hs]
    constructor
    · rintro ⟨p, hp, hid, hedge⟩
      exact ⟨p, hp, s, hs, hid, rfl, hedge⟩
    · rintro ⟨p, hp, t, ht, hid, heq, hedge⟩
      obtain rfl := List.inj_on_of_nodup_map hm.ids ht hs heq
      exact ⟨p, hp, hid, hedge⟩
  next hlookup =>
    constructor
    · intro hnone
      cases hnone
    · rintro ⟨p, hp, t, ht, -, rfl, -⟩
      rw [hm.lookup ht] at hlookup
      cases hlookup

theorem before_nodup (m : CausalMerger) (id : String) : (m.before id).Nodup := by
  unfold CausalMerger.before
  split
  · exact List.nodup_dedup _
  · exact List.nodup_nil

theorem mem_children (m : CausalMerger) {id child : String} :
    child ∈ m.children id ↔ child ∈ m.ids ∧ id ∈ m.before child := by
  rw [CausalMerger.children, mem_sortDistinct, List.mem_filter, decide_eq_true_eq]

end CausalMerger.Indexed

/-- The graph that is sorted. -/
def CausalMerger.graph (m : CausalMerger) (hm : m.Indexed) : Kahn.Graph String MergeKey where
  nodes := m.ids
  nodes_nodup := hm.ids
  before := m.before
  before_nodup := CausalMerger.Indexed.before_nodup m
  before_subset a b hb := by
    obtain ⟨p, hp, -, -, rfl, -⟩ := hm.mem_before.mp hb
    exact List.mem_map_of_mem hp
  children := m.children
  children_nodup id := (sortDistinct_sorted _).imp ne_of_lt
  mem_children _ _ := CausalMerger.Indexed.mem_children m
  key := keyOf m.events
  label := MergeKey.id
  label_key := keyOf_id m.events

namespace CausalMerger.Indexed

theorem graph_edge (hm : m.Indexed) : (m.graph hm).Edge = m.Edge := by
  funext a b
  have hbefore : (m.graph hm).Edge a b ↔ b ∈ m.ids ∧ a ∈ m.before b := Iff.rfl
  rw [hbefore, hm.mem_before, eq_iff_iff, and_iff_right_iff_imp]
  rintro ⟨-, -, s, hs, -, rfl, -⟩
  exact List.mem_map_of_mem hs

/-! ## The loop -/

theorem insertKey_eq (key : MergeKey) (ready : List MergeKey) :
    insertKey key ready = Kahn.insert key ready := by
  unfold insertKey Kahn.insert
  congr

theorem foldl_release_eq {key : String → MergeKey} {children : List String}
    {state state' : (String → Nat) × List MergeKey}
    (h : children.foldlM (Kahn.release key) state = some state') :
    children.foldl (release key) state = state' := by
  induction children generalizing state with
  | nil => exact Option.some.inj h
  | cons child rest ih =>
    rw [List.foldlM_cons, Option.bind_eq_bind, Option.bind_eq_some_iff] at h
    obtain ⟨next, hnext, hrest⟩ := h
    rw [List.foldl_cons, ← ih hrest]
    congr 1
    unfold Kahn.release at hnext
    split at hnext
    next => cases hnext
    next degree hdegree =>
      cases hnext
      rw [release, hdegree, insertKey_eq]
      rfl

/-- The loop places what the loop with checked counts places. -/
theorem placeReady_eq {children : String → List String} {key : String → MergeKey} {fuel : Nat}
    {degrees degrees' : String → Nat} {ready : List MergeKey} {ordered ordered' : List String}
    (h : Kahn.run children key MergeKey.id fuel degrees ready ordered = some (degrees', ordered')) :
    (placeReady children key fuel degrees ready ordered).1 = ordered' := by
  induction fuel generalizing degrees ready ordered with
  | zero =>
    rw [Kahn.run] at h
    cases h
    rw [placeReady]
  | succ fuel ih =>
    cases ready with
    | nil =>
      cases h
      rfl
    | cons least ready =>
      rw [Kahn.run, Option.bind_eq_bind, Option.bind_eq_some_iff] at h
      obtain ⟨next, hnext, hrest⟩ := h
      rw [placeReady, foldl_release_eq hnext]
      exact ih hrest

/-- The sort of a merger never counts below zero, and what it places is what it leads to. -/
theorem placed_eq (hm : m.Indexed) :
    ∃ degrees, (m.graph hm).order = some (degrees, m.placed.1) ∧
      (m.graph hm).Countdown degrees [] m.placed.1 := by
  obtain ⟨degrees, ordered, horder, h⟩ := (m.graph hm).order_eq_some
  have hlength : (m.graph hm).nodes.length = m.events.length := List.length_map _
  have hplaced : m.placed.1 = ordered := by
    unfold Kahn.Graph.order at horder
    rw [hlength] at horder
    exact placeReady_eq horder
  rw [hplaced]
  exact ⟨degrees, horder, h⟩

end CausalMerger.Indexed

/-! ## Stored events -/

/-- A merger that envelopes were offered to is indexed. -/
theorem CausalMerger.Sound.indexed (h : m.Sound) : m.Indexed :=
  ⟨h.ids, h.slots⟩

def sampleLimits : MergeLimits := ⟨8, 8, 8, 16384, 16384, 4096⟩

/-- A merger that holds some events. -/
def CausalMerger.holding (events : List CausalSourceEvent) : CausalMerger :=
  { runId := "run", limits := sampleLimits, missingPolicy := .record, events
    slots := events.map fun s => (producerSlot s, s.id)
    missingClaims := [], edges := [], sources := 0, inputBytes := 0, sourceFingerprints := [] }

theorem CausalMerger.holding_indexed {events : List CausalSourceEvent}
    (hids : (events.map CausalSourceEvent.id).Nodup) (hslots : (events.map producerSlot).Nodup) :
    (CausalMerger.holding events).Indexed := by
  refine ⟨hids, fun slot id => ?_⟩
  change (events.map fun s => (producerSlot s, s.id)).lookup slot = some id ↔
    ∃ s ∈ events, producerSlot s = slot ∧ s.id = id
  clear hids
  induction events with
  | nil => simp
  | cons s rest ih =>
    rw [List.map_cons, List.nodup_cons] at hslots
    rw [List.map_cons, List.lookup_cons]
    by_cases hslot : slot = producerSlot s
    · subst hslot
      simp only [beq_self_eq_true, Option.some.injEq, List.mem_cons, exists_eq_or_imp, true_and]
      constructor
      · exact .inl
      · rintro (hid | ⟨t, ht, hslot, -⟩)
        · exact hid
        · exact absurd (hslot ▸ List.mem_map_of_mem ht) hslots.1
    · rw [beq_false_of_ne hslot, ih hslots.2]
      simp [Ne.symm hslot]

def sampleDigest : String :=
  "sha256:0000000000000000000000000000000000000000000000000000000000000000"

/-- The first event of a producer, at a time and after another event. -/
def sampleEvent (producer id : String) (parent : CaptureParent) (time : Nat) : CausalSourceEvent :=
  { event :=
      { eventId := id, sequence := 0, producer := ⟨⟨.tool, producer, "i"⟩, 0⟩, kind := .toolCall
        interactionId := "x", peerId := "p", taskId := none, contextId := none, subjectId := none
        parent, content := ⟨sampleDigest, 0⟩ }
    hlc := ⟨time, 0⟩, lamport := time, recordedDecision := none, producerPrevious := none
    producerHash := sampleDigest }

/-! ## Cycles -/

theorem CausalMerger.Contiguous.slots (hcontiguous : m.Contiguous) (hm : m.Indexed) :
    ∀ s ∈ m.events, 0 < s.sequence →
      (m.slots.lookup (producerKey s, s.sequence - 1)).isSome = true := by
  intro s hs hpos
  obtain ⟨p, hp, hkey, hsequence⟩ := hcontiguous s hs (s.sequence - 1) (by omega)
  rw [Option.isSome_iff_exists]
  refine ⟨p.id, (hm.slots _ _).mpr ⟨p, hp, ?_, rfl⟩⟩
  rw [producerSlot, hkey, hsequence]

theorem topologicalOrder_eq_cycle (hcontiguous : m.Contiguous) (hm : m.Indexed)
    {ids : List String} :
    m.topologicalOrder = .error (.cycle ids) ↔ m.placed.1.length ≠ m.events.length ∧
      sortDistinct (m.ids.filter (· ∉ m.placed.1)) = ids := by
  rw [CausalMerger.topologicalOrder, require_of (hcontiguous.slots hm), ok_bind]
  dsimp only
  by_cases hlength : m.placed.1.length = m.events.length
  · rw [require_of hlength, ok_bind]
    constructor
    · intro h
      unfold require at h
      split at h <;> cases h
    · intro h
      exact absurd hlength h.1
  · rw [show require (m.placed.1.length = m.events.length)
      (ReplayError.cycle (sortDistinct (m.ids.filter (· ∉ m.placed.1)))) = .error _ from
        if_neg hlength]
    constructor
    · intro h
      cases h
      exact ⟨hlength, rfl⟩
    · rintro ⟨-, rfl⟩
      rfl

/-- The sort reports a cycle exactly if there is one, and lists the events on a cycle or behind
one. Its counts never go below zero, and they are positive for the listed events only. -/
theorem cycle_detection_exact (m : CausalMerger) (hm : m.Indexed) (hcontiguous : m.Contiguous) :
    ((∃ ids, m.topologicalOrder = .error (.cycle ids)) ↔ ∃ id, TransGen m.Edge id id) ∧
    (∀ ids, m.topologicalOrder = .error (.cycle ids) → ids.Pairwise (· < ·) ∧
      ∀ id, id ∈ ids ↔ ∃ c, TransGen m.Edge c c ∧ ReflTransGen m.Edge c id) ∧
    ∃ degrees, Kahn.run m.children (keyOf m.events) MergeKey.id m.events.length
        (fun id => (m.before id).length) m.initialReady [] = some (degrees, m.placed.1) ∧
      ∀ id ∈ m.ids, id ∉ m.placed.1 ↔ 0 < degrees id := by
  obtain ⟨degrees, horder, h⟩ := hm.placed_eq
  have hleft : ∀ id ∈ m.ids, id ∉ m.placed.1 ↔
      ∃ c, TransGen m.Edge c c ∧ ReflTransGen m.Edge c id := by
    intro id hid
    rw [← hm.graph_edge]
    exact h.unplaced_iff_cycle hid
  -- whatever an edge leads to is held
  have hknown {c id : String} (hcycle : TransGen m.Edge c c) (hreach : ReflTransGen m.Edge c id) :
      id ∈ m.ids := by
    obtain ⟨_, -, -, -, s, hs, -, rfl, -⟩ := TransGen.tail'_iff.mp (hcycle.trans_left hreach)
    exact List.mem_map_of_mem hs
  have hcomplete : m.placed.1.length = m.events.length ↔ ∀ id ∈ m.ids, id ∈ m.placed.1 := by
    rw [← List.length_map (f := CausalSourceEvent.id)]
    exact h.length_eq_iff
  refine ⟨?_, ?_, degrees, ?_, fun id hid => h.unplaced_iff hid⟩
  · simp only [topologicalOrder_eq_cycle hcontiguous hm, ne_eq, hcomplete]
    constructor
    · rintro ⟨-, hmissing, -⟩
      push Not at hmissing
      obtain ⟨id, hid, hnot⟩ := hmissing
      obtain ⟨c, hcycle, -⟩ := (hleft id hid).mp hnot
      exact ⟨c, hcycle⟩
    · rintro ⟨c, hcycle⟩
      refine ⟨_, fun hall => ?_, rfl⟩
      have hc := hknown hcycle .refl
      exact (hleft c hc).mpr ⟨c, hcycle, .refl⟩ (hall c hc)
  · intro ids hids
    obtain ⟨-, rfl⟩ := (topologicalOrder_eq_cycle hcontiguous hm).mp hids
    refine ⟨sortDistinct_sorted _, fun id => ?_⟩
    rw [mem_sortDistinct, List.mem_filter, decide_eq_true_eq]
    constructor
    · rintro ⟨hid, hnot⟩
      exact (hleft id hid).mp hnot
    · rintro ⟨c, hcycle, hreach⟩
      have hid := hknown hcycle hreach
      exact ⟨hid, (hleft id hid).mpr ⟨c, hcycle, hreach⟩⟩
  · have hlength : (m.graph hm).nodes.length = m.events.length := List.length_map _
    rw [Kahn.Graph.order, hlength] at horder
    exact horder

/-- Two events that are each other's parents are reported together with one behind them. -/
theorem cycle_of_parents_detected :
    let m := CausalMerger.holding [sampleEvent "p" "a" (.event "b") 1,
      sampleEvent "q" "b" (.event "a") 2, sampleEvent "r" "c" (.event "b") 3]
    m.topologicalOrder = .error (.cycle ["a", "b", "c"]) ∧ ∃ id, TransGen m.Edge id id := by
  intro m
  have hcycle : m.topologicalOrder = .error (.cycle ["a", "b", "c"]) := by decide +kernel
  have hm : m.Indexed := CausalMerger.holding_indexed (by decide) (by decide)
  have hcontiguous : m.Contiguous := by
    intro s hs n hn
    have hfirst : ∀ s ∈ m.events, s.sequence = 0 := by decide
    rw [hfirst s hs] at hn
    omega
  exact ⟨hcycle, (cycle_detection_exact m hm hcontiguous).1.mp ⟨_, hcycle⟩⟩

/-! ## Clocks -/

theorem mergeKey_lt_of_clockLt {a b : CausalSourceEvent} (h : clockLt a b = true) :
    mergeKey a < mergeKey b := by
  simp only [clockLt, Bool.and_eq_true, Bool.or_eq_true, decide_eq_true_eq, beq_iff_eq] at h
  rw [mergeKey, mergeKey, Prod.Lex.toLex_lt_toLex]
  rcases h.1 with hlt | ⟨heq, hlt⟩
  · exact .inl hlt
  · refine .inr ⟨heq, ?_⟩
    rw [Prod.Lex.toLex_lt_toLex]
    exact .inl hlt

section Clocks

variable [ContentDigest]

/-- Along a chain that was walked, places go up from the expected one and clocks with them. -/
theorem validateChain_clock {previous : Option CausalSourceEvent} {expected : Nat}
    {events : List CausalSourceEvent} (h : validateChain previous expected events = .ok ())
    (hprevious : ∀ p ∈ previous, p.sequence + 1 = expected) :
    (∀ s ∈ events, expected ≤ s.sequence) ∧
      ∀ s ∈ events, ∀ p ∈ previous.toList ++ events, p.sequence + 1 = s.sequence →
        clockLt p s = true := by
  induction events generalizing previous expected with
  | nil => simp
  | cons head rest ih =>
    simp only [validateChain, bind_eq_ok, require_eq_ok] at h
    obtain ⟨_, hplace, -, -, -, -, -, -, _, hclock, hrest⟩ := h
    obtain ⟨hlater, hrest⟩ := ih hrest (by simpa using hplace)
    simp only [List.forall_mem_cons]
    refine ⟨⟨hplace.ge, fun s hs => Nat.le_of_succ_le (hlater s hs)⟩, ?_, ?_⟩
    · intro p hp hnext
      rcases List.mem_append.mp hp with hp | hp
      · exact hclock p (Option.mem_toList.mp hp)
      · rcases List.mem_cons.mp hp with rfl | hp
        · omega
        · have hlater := hlater p hp
          omega
    · intro s hs p hp hnext
      have hs' := hlater s hs
      rcases List.mem_append.mp hp with hp | hp
      · have hp' := hprevious p (Option.mem_toList.mp hp)
        omega
      · exact hrest s hs p hp hnext

theorem validateProducers_clock {events : List CausalSourceEvent}
    (h : validateProducers events = .ok ()) {p s : CausalSourceEvent} (hp : p ∈ events)
    (hs : s ∈ events) (hkey : producerKey p = producerKey s)
    (hnext : p.sequence + 1 = s.sequence) : clockLt p s = true := by
  have hgroup : (producerKey s, (events.filter (producerKey · = producerKey s)).insertionSort
      fun a b => a.sequence ≤ b.sequence) ∈ producerGroups events := by
    apply List.mem_map.mpr ⟨producerKey s, ?_, rfl⟩
    rw [(List.perm_insertionSort _ _).mem_iff, List.mem_dedup]
    exact List.mem_map_of_mem hs
  have hmem {t : CausalSourceEvent} (ht : t ∈ events) (hkey : producerKey t = producerKey s) :
      t ∈ (events.filter (producerKey · = producerKey s)).insertionSort
        fun a b => a.sequence ≤ b.sequence := by
    rw [(List.perm_insertionSort _ _).mem_iff, List.mem_filter, decide_eq_true_eq]
    exact ⟨ht, hkey⟩
  have hchain := (validateChain_clock (forM_eq_ok.mp h _ hgroup) (by simp)).2
  exact hchain s (hmem hs rfl) p (hmem hp hkey) hnext

/-- The clocks go up along every edge of a merger that passes its checks. -/
theorem CausalMerger.Indexed.edge_up (hm : m.Indexed) (hproducers : validateProducers m.events = .ok ())
    (hparents : ∀ s ∈ m.events, ∀ parent ∈ s.parentId?.bind (lookupEvent m.events),
      clockLt parent s = true) {a b : String} (h : m.Edge a b) :
    keyOf m.events a < keyOf m.events b := by
  obtain ⟨p, hp, s, hs, rfl, rfl, hparent | ⟨hkey, hnext⟩⟩ := h
  · rw [hm.keyOf_eq hp, hm.keyOf_eq hs]
    apply mergeKey_lt_of_clockLt
    apply hparents s hs p
    rw [hparent, Option.bind_some]
    exact hm.lookup hp
  · rw [hm.keyOf_eq hp, hm.keyOf_eq hs]
    exact mergeKey_lt_of_clockLt (validateProducers_clock hproducers hp hs hkey hnext)

end Clocks

/-- The events in the order of their merge keys. -/
def CausalMerger.mergeOrder (m : CausalMerger) : List CausalSourceEvent := sortOn mergeKey m.events

/-- If the clocks go up, all events are placed, by rising merge key. -/
theorem CausalMerger.Indexed.placed_sorted (hm : m.Indexed)
    (hup : ∀ a b, m.Edge a b → keyOf m.events a < keyOf m.events b) :
    m.placed.1 = m.mergeOrder.map CausalSourceEvent.id := by
  obtain ⟨_, horder, -⟩ := hm.placed_eq
  obtain ⟨_, ordered, horder', hperm, hsorted⟩ := (m.graph hm).order_sorted (by
    rw [hm.graph_edge]
    exact hup)
  obtain rfl : m.placed.1 = ordered := congrArg Prod.snd (Option.some.inj (horder.symm.trans horder'))
  have hmerge : (m.mergeOrder.map CausalSourceEvent.id).Pairwise
      fun a b => keyOf m.events a ≤ keyOf m.events b := by
    rw [List.pairwise_map]
    apply (sortOn_pairwise mergeKey m.events).imp_of_mem
    intro a b ha hb hle
    rw [mem_sortOn] at ha hb
    rwa [hm.keyOf_eq ha, hm.keyOf_eq hb]
  have hplaced : m.placed.1.Pairwise fun a b => keyOf m.events a ≤ keyOf m.events b :=
    (List.pairwise_map.mp hsorted).imp le_of_lt
  apply List.Perm.eq_of_pairwise _ hplaced hmerge
  · exact hperm.trans ((sortOn_perm mergeKey m.events).map _).symm
  · intro a b _ _ hab hba
    rw [← keyOf_id m.events a, le_antisymm hab hba, keyOf_id]

/-! ## The sealed bundle -/

theorem appendBoundedLine_eq_ok {limits : MergeLimits} {output output' : Output} {line : String}
    (h : appendBoundedLine limits output line = .ok output') :
    output'.merged = output.merged ++ line ++ "\n" := by
  simp only [appendBoundedLine, bind_eq_ok, Except.ok.injEq] at h
  obtain ⟨_, -, rfl⟩ := h
  rfl

section Sealed

variable [ContentDigest]

/-- The lines of the events are appended in the order given, numbered in this order. -/
theorem appendEvents_eq_ok {lookup : String → Option CausalSourceEvent} {limits : MergeLimits}
    {events : List CausalSourceEvent} (hlookup : ∀ s ∈ events, lookup s.id = some s) {n : Nat}
    {output output' : Output} {refs refs' : List Json}
    (h : appendEvents lookup limits (events.map CausalSourceEvent.id) n (output, refs) =
      .ok (output', refs')) :
    ∃ lines, (events.zipIdx n).mapM (fun e => canonical (mergedRecord e.1 e.2)) = .ok lines ∧
      output'.merged = output.merged ++ String.join (lines.map (· ++ "\n")) := by
  induction events generalizing n output refs with
  | nil =>
    cases h
    exact ⟨[], rfl, by simp [String.join]⟩
  | cons s rest ih =>
    rw [List.forall_mem_cons] at hlookup
    simp only [List.map_cons, appendEvents, bind_eq_ok, expect_eq_ok] at h
    obtain ⟨t, ht, ref, -, line, hline, next, hnext, hrest⟩ := h
    obtain rfl : s = t := Option.some.inj (hlookup.1.symm.trans ht)
    obtain ⟨lines, hlines, hmerged⟩ := ih hlookup.2 hrest
    refine ⟨line :: lines, ?_, ?_⟩
    · rw [List.zipIdx_cons, mapM_eq_ok, List.forall₂_cons, ← mapM_eq_ok]
      exact ⟨hline, hlines⟩
    · rw [hmerged, appendBoundedLine_eq_ok hnext]
      simp [String.append_assoc]

/-- Whenever a merger can be sealed, its bundle lists all its events in the order of their merge
keys, each once, and every event after its predecessor and its parent. -/
theorem merge_order_characterised (m : CausalMerger) (hm : m.Indexed) (input : ReplaySealInput)
    (result : SealedReplay) (h : m.finalize input = .ok result) :
    m.topologicalOrder = .ok (m.mergeOrder.map CausalSourceEvent.id) ∧
    m.mergeOrder.Perm m.events ∧ (m.mergeOrder.map mergeKey).Pairwise (· < ·) ∧
    (∀ a b, m.Edge a b → (m.mergeOrder.map CausalSourceEvent.id).idxOf a <
      (m.mergeOrder.map CausalSourceEvent.id).idxOf b) ∧
    ∃ missing lines terminal,
      appendMissing m.runId m.limits (unresolvedMap m.events) = .ok missing ∧
      m.mergeOrder.zipIdx.mapM (fun e => canonical (mergedRecord e.1 e.2)) = .ok lines ∧
      result.bundleJsonl =
        missing.merged ++ String.join (lines.map (· ++ "\n")) ++ terminal ++ "\n" := by
  simp only [CausalMerger.finalize, bind_eq_ok, Except.ok.injEq] at h
  obtain ⟨_, -, _, -, _, -, _, hproducers, _, -, ordered, horder, missing, hmissing, ⟨output, refs⟩,
    hevents, _, -, _, -, _, -, _, -, _, -, terminal, -, _, -, _, -, _, -, rfl⟩ := h
  obtain ⟨hparents, hplaced⟩ : (∀ s ∈ m.events,
      ∀ parent ∈ s.parentId?.bind (lookupEvent m.events), clockLt parent s = true) ∧
        m.placed.1 = ordered := by
    simp only [CausalMerger.topologicalOrder, bind_eq_ok, require_eq_ok, Except.ok.injEq] at horder
    obtain ⟨_, -, _, -, _, hparents, hplaced⟩ := horder
    exact ⟨hparents, hplaced⟩
  have hsorted := hm.placed_sorted fun a b => hm.edge_up hproducers hparents
  obtain ⟨degrees, -, hcountdown⟩ := hm.placed_eq
  have hperm : m.mergeOrder.Perm m.events := sortOn_perm mergeKey m.events
  rw [← hplaced, hsorted] at horder hevents
  rw [hsorted] at hcountdown
  obtain ⟨lines, hlines, hmerged⟩ := appendEvents_eq_ok
    (fun s hs => hm.lookup (hperm.mem_iff.mp hs)) hevents
  refine ⟨horder, hperm, ?_, ?_, missing, lines, terminal, hmissing, hlines, ?_⟩
  · have hkeys : (m.mergeOrder.map mergeKey).Nodup := by
      apply List.Nodup.map_on _ ((hperm.map _).nodup_iff.mpr hm.ids).of_map
      intro a ha b hb hkey
      apply List.inj_on_of_nodup_map hm.ids (hperm.mem_iff.mp ha) (hperm.mem_iff.mp hb)
      exact congrArg MergeKey.id hkey
    have hle : (m.mergeOrder.map mergeKey).Pairwise (· ≤ ·) :=
      List.pairwise_map.mpr (sortOn_pairwise mergeKey m.events)
    exact (hle.and hkeys).imp fun hab => lt_of_le_of_ne hab.1 hab.2
  · intro a b hedge
    have hb : b ∈ m.mergeOrder.map CausalSourceEvent.id := by
      obtain ⟨-, -, s, hs, -, rfl, -⟩ := hedge
      exact List.mem_map_of_mem (hperm.mem_iff.mpr hs)
    rw [← hm.graph_edge] at hedge
    exact (hcountdown.earlier hedge hb).2
  · dsimp only
    rw [hmerged]

end Sealed

section Sample

/-- A digest that tells nothing apart. -/
local instance sampleContentDigest : ContentDigest where
  contentDigest _ := sampleDigest
  contentDigest_size _ := by decide

theorem numberFree_mergedRecord (producer id : String) (parent : CaptureParent) (time n : Nat) :
    NumberFree (mergedRecord (sampleEvent producer id parent time) n) := by
  have hparent : NumberFree (parentValue parent) := by
    cases parent <;> simp [parentValue]
  simp [mergedRecord, sourceEventValue, sampleEvent, eventValue, hlcValue, decimal, decisionValue,
    optionString, hparent]

def sampleHead (producer : String) : Json :=
  .obj [("eventCount", decimal 1), ("headHash", .str sampleDigest), ("producerId", .str producer),
    ("producerInstanceId", .str "i"), ("producerKind", .str "tool")]

/-- What the seal of two events claims. -/
def sampleClaims : Json :=
  sealClaims "run" ⟨sampleDigest, []⟩ [] [] ["a", "b"] ["", ""] sampleDigest sampleDigest
    sampleDigest [sampleHead "p", sampleHead "q"]

theorem numberFree_sampleClaims : NumberFree sampleClaims := by
  simp [sampleClaims, sealClaims, missingClaimsValue, decimal, sampleHead]

def sampleReceipt : ReplayReceipt :=
  { schemaVersion := replayReceiptSchemaVersion, runId := "run", runSeal := sampleDigest
    inputJsonlDigest := sampleDigest, merkleRoot := sampleDigest, replayedEventCount := 2
    decisionMode := "recordedOnly", recordedDecisionSetDigest := sampleDigest, projections := []
    normalizedOutputDigest := sampleDigest, receiptDigest := "" }

theorem merkleRoot_pair (first second : String) :
    merkleRoot [first, second] = .ok sampleDigest := by
  have hdecoded : decodeDigest sampleDigest = .ok (List.replicate 32 0) := by decide +kernel
  have hraw : ∀ label parts, hashRaw label parts = List.replicate 32 0 := by
    intro label parts
    have hhash : hash label parts = sampleDigest := rfl
    rw [hashRaw, hhash, hdecoded]
  simp only [merkleRoot, List.map_cons, List.map_nil, merkleTop, merkleLevel, hraw]
  decide +kernel

/-- An event that was stored before its parent comes after it. -/
theorem parent_placed_first :
    let m := CausalMerger.holding [sampleEvent "p" "b" (.event "a") 2, sampleEvent "q" "a" .root 1]
    ∃ result, m.finalize ⟨sampleDigest, []⟩ = .ok result ∧
      m.topologicalOrder = .ok (m.mergeOrder.map CausalSourceEvent.id) := by
  intro m
  have hfeed : ("\n" : String).utf8ByteSize = 1 := by decide
  have hempty : ("" : String).utf8ByteSize = 0 := rfl
  have hlimit : m.limits.maxOutputBytes = 16384 := rfl
  -- The texts are only bounded, not computed: their bytes are known from the sizes of the values.
  obtain ⟨first, hfirst, hfirstSize⟩ := exists_canonical_le (n := 1000)
    (numberFree_mergedRecord "q" "a" .root 1 0) (by decide +kernel) (by decide) (by decide)
  obtain ⟨second, hsecond, hsecondSize⟩ := exists_canonical_le (n := 1000)
    (numberFree_mergedRecord "p" "b" (.event "a") 2 1) (by decide +kernel) (by decide) (by decide)
  obtain ⟨decisions, hdecisions⟩ := exists_canonical (v := .arr []) (by simp) (by decide) (by decide)
  obtain ⟨claimed, hclaimed⟩ := exists_canonical numberFree_sampleClaims (by decide +kernel)
    (by decide)
  obtain ⟨terminal, hterminal, hterminalSize⟩ := exists_canonical_le (n := 2000)
    (v := .obj [("claims", sampleClaims), ("recordType", .str "seal"),
      ("sealDigest", .str sampleDigest)])
    (by simp [numberFree_sampleClaims]) (by decide +kernel) (by decide) (by decide)
  obtain ⟨receipt, hreceipt⟩ := exists_canonical (v := .obj (receiptFields sampleReceipt))
    (by simp [receiptFields, sampleReceipt, decimal]) (by decide +kernel) (by decide)
  obtain ⟨receiptJson, hreceiptJson⟩ := exists_canonical
    (v := .obj (receiptFields sampleReceipt ++ [("receiptDigest", .str sampleDigest)]))
    (by simp [receiptFields, sampleReceipt, decimal]) (by decide +kernel) (by decide)
  have hproducers : validateProducers m.events = .ok () := by decide +kernel
  have hunresolved : unresolvedMap m.events = [] := by decide +kernel
  have horder : m.topologicalOrder = .ok ["a", "b"] := by decide +kernel
  have hmissing : appendMissing m.runId m.limits [] = .ok ⟨[], ""⟩ := rfl
  have hheads : producerHeads m.events = .ok [sampleHead "p", sampleHead "q"] := by decide +kernel
  have hlines : appendEvents (lookupEvent m.events) m.limits ["a", "b"] 0 (⟨[], ""⟩, []) =
      .ok (⟨[first, second], "" ++ first ++ "\n" ++ second ++ "\n"⟩, []) := by
    simp only [appendEvents, bind_eq_ok, expect_eq_ok, appendBoundedLine, require_eq_ok]
    refine ⟨sampleEvent "q" "a" .root 1, by decide +kernel, none, rfl, first, hfirst, _,
      ⟨(), ⟨hfirstSize.trans (by decide), ?_⟩, rfl⟩, sampleEvent "p" "b" (.event "a") 2,
      by decide +kernel, none, rfl, second, hsecond, _,
      ⟨(), ⟨hsecondSize.trans (by decide), ?_⟩, rfl⟩, rfl⟩
    · rw [hempty, hlimit]
      omega
    · simp only [String.utf8ByteSize_append, hempty, hfeed, hlimit]
      omega
  obtain ⟨result, hresult⟩ : ∃ result, m.finalize ⟨sampleDigest, []⟩ = .ok result := by
    simp only [CausalMerger.finalize, bind_eq_ok, require_eq_ok, hunresolved, horder, hmissing,
      hproducers, hheads]
    refine ⟨_, (), by decide, (), by decide +kernel, [], rfl, (), trivial, (), .inl trivial, _, rfl,
      _, rfl, _, hlines, (), by simp, _, merkleRoot_pair first second, _, hdecisions, _, rfl, _,
      hclaimed, _, hterminal, (), ⟨hterminalSize.trans (by decide), ?_⟩, _, ?_, _, hreceiptJson, rfl⟩
    · simp only [String.utf8ByteSize_append, hempty, hfeed, hlimit]
      omega
    · simp only [receiptDigestOf, bind_eq_ok]
      exact ⟨receipt, hreceipt, rfl⟩
  have hm : m.Indexed := CausalMerger.holding_indexed (by decide) (by decide)
  exact ⟨result, hresult, (merge_order_characterised m hm _ result hresult).1⟩

end Sample

end SmeshDurable.Replay
