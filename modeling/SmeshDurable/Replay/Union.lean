import SmeshDurable.Replay.Codec
import Mathlib.Algebra.Order.BigOperators.Group.List
import Mathlib.Data.List.Flatten
import Mathlib.Data.List.Pairwise

/-!
# Merging depends on the set of envelopes

Whether a merger takes a list of envelopes is a question about the events in all of them
together: no event is told in two ways, no place in a producer's sequence is taken twice,
no parent declared missing is there, and the totals are within the limits. A merger that
took them holds each event once, whatever the order.
-/

namespace SmeshDurable.Replay

open Transaction

/-! ## Occurrences of events -/

/-- Two occurrences of an event have one canonical text. -/
def SameEvent (a b : CausalSourceEvent) : Prop :=
  ∃ c, canonicalSourceEvent a = .ok c ∧ canonicalSourceEvent b = .ok c

theorem SameEvent.symm {a b : CausalSourceEvent} (h : SameEvent a b) : SameEvent b a := by
  obtain ⟨c, ha, hb⟩ := h
  exact ⟨c, hb, ha⟩

theorem SameEvent.eq {a b : CausalSourceEvent} (h : SameEvent a b) (ha : Parsed a)
    (hb : Parsed b) : a = b := by
  obtain ⟨c, hca, hcb⟩ := h
  exact canonicalSourceEvent_injective ha hb hca hcb

instance : Std.Symm fun a b : CausalSourceEvent => a.id = b.id → SameEvent a b :=
  ⟨fun _ _ hab hid => (hab hid.symm).symm⟩

/-- What the occurrences of events must satisfy together. -/
structure Consistent (occurrences : List CausalSourceEvent) : Prop where
  same : occurrences.Pairwise fun a b => a.id = b.id → SameEvent a b
  slots : ∀ a ∈ occurrences, ∀ b ∈ occurrences, producerSlot a = producerSlot b → a.id = b.id
  missing : ∀ a ∈ occurrences, ∀ b ∈ occurrences, a.missingId? ≠ some b.id

/-- What is held stands for the occurrences seen. -/
structure Holds (events : List CausalSourceEvent) (slot? : Slot → Option String)
    (missing : List String) (occurrences : List CausalSourceEvent) : Prop where
  mem : ∀ s, s ∈ events ↔ s ∈ occurrences
  nodup : (events.map CausalSourceEvent.id).Nodup
  slots : ∀ slot id, slot? slot = some id ↔
    ∃ s ∈ occurrences, producerSlot s = slot ∧ s.id = id
  missing : ∀ id, id ∈ missing ↔ ∃ s ∈ occurrences, s.missingId? = some id

theorem lookupEvent_eq_some {events : List CausalSourceEvent} {id : String} {s : CausalSourceEvent}
    (hnodup : (events.map CausalSourceEvent.id).Nodup) :
    lookupEvent events id = some s ↔ s ∈ events ∧ s.id = id := by
  constructor
  · intro h
    exact ⟨List.mem_of_find?_eq_some h, by simpa using List.find?_some h⟩
  · rintro ⟨hmem, rfl⟩
    cases hlookup : lookupEvent events s.id with
    | none =>
      have hne := List.find?_eq_none.mp hlookup s hmem
      simp at hne
    | some t =>
      have ht : t.id = s.id := by simpa using List.find?_some hlookup
      rw [List.inj_on_of_nodup_map hnodup (List.mem_of_find?_eq_some hlookup) hmem ht]

theorem lookupEvent_isNone {events : List CausalSourceEvent} {id : String} :
    (lookupEvent events id).isNone = true ↔ ∀ s ∈ events, s.id ≠ id := by
  simp [lookupEvent]

section Stage

variable {m : CausalMerger} {batchIds : List String} {pending pending' : Pending}
  {occurrences : List CausalSourceEvent} {s : CausalSourceEvent}

/-- The merger with what is staged stands for the occurrences seen. -/
def Staged (m : CausalMerger) (pending : Pending) (occurrences : List CausalSourceEvent) : Prop :=
  Holds (m.events ++ pending.events) (fun slot => (pending.slots ++ m.slots).lookup slot)
    (m.missingClaims ++ pending.missing) occurrences

/-- What staging an event asks of the occurrences before it. -/
structure Fits (m : CausalMerger) (batchIds : List String)
    (occurrences : List CausalSourceEvent) (s : CausalSourceEvent) : Prop where
  unclaimed : ∀ a ∈ occurrences, a.missingId? ≠ some s.id
  absent : ∀ expected ∈ s.missingId?, (∀ a ∈ m.events, a.id ≠ expected) ∧ expected ∉ batchIds
  same : ∀ a ∈ occurrences, a.id = s.id → SameEvent a s
  slot : ∀ a ∈ occurrences, producerSlot a = producerSlot s → a.id = s.id

theorem Consistent.eq_of_id (h : Consistent occurrences)
    (hparsed : ∀ a ∈ occurrences, Parsed a) {a b : CausalSourceEvent} (ha : a ∈ occurrences)
    (hb : b ∈ occurrences) (hid : a.id = b.id) : a = b := by
  by_contra hne
  exact hne ((h.same.forall ha hb hne hid).eq (hparsed a ha) (hparsed b hb))

theorem staged_lookup (hstaged : Staged m pending occurrences) {t : CausalSourceEvent} :
    (lookupEvent m.events s.id).or (lookupEvent pending.events s.id) = some t ↔
      t ∈ occurrences ∧ t.id = s.id := by
  have happend : lookupEvent (m.events ++ pending.events) s.id =
      (lookupEvent m.events s.id).or (lookupEvent pending.events s.id) := List.find?_append
  rw [← happend, lookupEvent_eq_some hstaged.nodup, hstaged.mem]

/-- An event that is known already only adds what it declares missing. -/
theorem Staged.again (hstaged : Staged m pending occurrences) (hs : s ∈ occurrences) :
    Staged m { pending with missing := pending.missing ++ s.missingId?.toList }
      (occurrences ++ [s]) := by
  have hmem : ∀ t, t ∈ occurrences ++ [s] ↔ t ∈ occurrences := by
    intro t
    rw [List.mem_append, List.mem_singleton]
    constructor
    · rintro (ht | rfl)
      · exact ht
      · exact hs
    · exact .inl
  refine ⟨fun t => (hstaged.mem t).trans (hmem t).symm, hstaged.nodup, ?_, ?_⟩
  · intro slot id
    rw [hstaged.slots]
    simp only [hmem]
  · intro id
    rw [← List.append_assoc, List.mem_append, hstaged.missing, Option.mem_toList]
    simp only [hmem]
    constructor
    · rintro (hold | hnew)
      · exact hold
      · exact ⟨s, hs, hnew⟩
    · exact .inl

/-- A new event is added to what is staged. -/
theorem Staged.add (hstaged : Staged m pending occurrences)
    (hnew : ∀ t ∈ occurrences, t.id ≠ s.id)
    (hslot : ∀ t ∈ occurrences, producerSlot t = producerSlot s → t.id = s.id) :
    Staged m { events := pending.events ++ [s], slots := (producerSlot s, s.id) :: pending.slots,
               missing := pending.missing ++ s.missingId?.toList } (occurrences ++ [s]) := by
  refine ⟨?_, ?_, ?_, ?_⟩
  · intro t
    rw [← List.append_assoc, List.mem_append, hstaged.mem, List.mem_append]
  · rw [← List.append_assoc, List.map_append, List.map_singleton]
    apply List.Nodup.append hstaged.nodup (List.nodup_singleton _)
    rw [List.disjoint_singleton, List.mem_map]
    rintro ⟨t, ht, hid⟩
    exact hnew t ((hstaged.mem t).mp ht) hid
  · intro slot id
    rw [List.cons_append, List.lookup_cons]
    by_cases hkey : slot = producerSlot s
    · subst hkey
      simp only [beq_self_eq_true, Option.some.injEq]
      constructor
      · rintro rfl
        exact ⟨s, by simp, rfl, rfl⟩
      · rintro ⟨t, ht, hslotEq, rfl⟩
        rw [List.mem_append, List.mem_singleton] at ht
        rcases ht with ht | rfl
        · exact (hslot t ht hslotEq).symm
        · rfl
    · rw [beq_false_of_ne hkey, hstaged.slots]
      constructor
      · rintro ⟨t, ht, hslotEq, rfl⟩
        exact ⟨t, List.mem_append_left _ ht, hslotEq, rfl⟩
      · rintro ⟨t, ht, rfl, rfl⟩
        rw [List.mem_append, List.mem_singleton] at ht
        rcases ht with ht | rfl
        · exact ⟨t, ht, rfl, rfl⟩
        · exact absurd rfl hkey
  · intro id
    rw [← List.append_assoc, List.mem_append, hstaged.missing, Option.mem_toList]
    constructor
    · rintro (⟨t, ht, hclaim⟩ | hclaim)
      · exact ⟨t, List.mem_append_left _ ht, hclaim⟩
      · exact ⟨s, by simp, hclaim⟩
    · rintro ⟨t, ht, hclaim⟩
      rw [List.mem_append, List.mem_singleton] at ht
      rcases ht with ht | rfl
      · exact .inl ⟨t, ht, hclaim⟩
      · exact .inr hclaim

theorem stageEvent_fits (hstaged : Staged m pending occurrences) (hparsed : Parsed s)
    (hparsedAll : ∀ a ∈ occurrences, Parsed a) (hconsistent : Consistent occurrences)
    (h : stageEvent m batchIds pending s = .ok pending') :
    Fits m batchIds occurrences s ∧ Staged m pending' (occurrences ++ [s]) := by
  simp only [stageEvent, bind_eq_ok, require_eq_ok] at h
  obtain ⟨_, ⟨hclaims, hpending⟩, _, habsent, h⟩ := h
  have hunclaimed : ∀ a ∈ occurrences, a.missingId? ≠ some s.id := by
    intro a ha hclaim
    have hmem := (hstaged.missing s.id).mpr ⟨a, ha, hclaim⟩
    exact (List.mem_append.mp hmem).elim hclaims hpending
  have habsent' : ∀ expected ∈ s.missingId?,
      (∀ a ∈ m.events, a.id ≠ expected) ∧ expected ∉ batchIds := fun expected hexpected =>
    ⟨lookupEvent_isNone.mp (habsent expected hexpected).1, (habsent expected hexpected).2⟩
  cases hlookup : (lookupEvent m.events s.id).or (lookupEvent pending.events s.id) with
  | some existing =>
    rw [hlookup] at h
    simp only [bind_eq_ok, require_eq_ok, Except.ok.injEq] at h
    obtain ⟨known, hknown, given, hgiven, _, rfl, rfl⟩ := h
    obtain ⟨hexisting, hid⟩ := (staged_lookup hstaged).mp hlookup
    have hsame : SameEvent existing s := ⟨known, hknown, hgiven⟩
    obtain rfl : existing = s := hsame.eq (hparsedAll existing hexisting) hparsed
    refine ⟨⟨hunclaimed, habsent', ?_, ?_⟩, hstaged.again hexisting⟩
    · intro a ha haid
      rw [hconsistent.eq_of_id hparsedAll ha hexisting haid]
      exact hsame
    · intro a ha hslot
      exact hconsistent.slots a ha existing hexisting hslot
  | none =>
    rw [hlookup] at h
    simp only [bind_eq_ok, require_eq_ok, Except.ok.injEq] at h
    obtain ⟨_, hslots, rfl⟩ := h
    have hnew : ∀ t ∈ occurrences, t.id ≠ s.id := by
      intro t ht hid
      rw [(staged_lookup hstaged).mpr ⟨ht, hid⟩] at hlookup
      cases hlookup
    have hslot : ∀ t ∈ occurrences, producerSlot t = producerSlot s → t.id = s.id := by
      intro t ht hslotEq
      apply hslots
      rw [← List.lookup_append]
      exact (hstaged.slots _ _).mpr ⟨t, ht, hslotEq, rfl⟩
    refine ⟨⟨hunclaimed, habsent', ?_, hslot⟩, hstaged.add hnew hslot⟩
    intro a ha hid
    exact absurd hid (hnew a ha)

/-- Events one after another fit when the occurrences are consistent with them. -/
theorem Consistent.concat (hconsistent : Consistent occurrences)
    (hknown : ∀ a ∈ occurrences, a ∈ m.events ∨ a.id ∈ batchIds) (hself : s.id ∈ batchIds)
    (hfits : Fits m batchIds occurrences s) : Consistent (occurrences ++ [s]) := by
  have hdeclared : ∀ a, (a ∈ m.events ∨ a.id ∈ batchIds) → s.missingId? ≠ some a.id := by
    intro a ha hclaim
    obtain ⟨hheld, hbatch⟩ := hfits.absent a.id hclaim
    exact ha.elim (fun hmem => hheld a hmem rfl) hbatch
  refine ⟨?_, ?_, ?_⟩
  · rw [List.pairwise_append]
    refine ⟨hconsistent.same, List.pairwise_singleton _ _, fun a ha b hb => ?_⟩
    rw [List.mem_singleton.mp hb]
    exact hfits.same a ha
  · intro a ha b hb hslot
    rw [List.mem_append, List.mem_singleton] at ha hb
    rcases ha with ha | rfl <;> rcases hb with hb | rfl
    · exact hconsistent.slots a ha b hb hslot
    · exact hfits.slot a ha hslot
    · exact (hfits.slot b hb hslot.symm).symm
    · rfl
  · intro a ha b hb
    rw [List.mem_append, List.mem_singleton] at ha hb
    rcases ha with ha | rfl <;> rcases hb with hb | rfl
    · exact hconsistent.missing a ha b hb
    · exact hfits.unclaimed a ha
    · exact hdeclared b (hknown b hb)
    · exact hdeclared _ (.inr hself)

/-- The loop over a batch succeeds only for occurrences that are consistent. -/
theorem stage_consistent {done rest : List CausalSourceEvent}
    (hstaged : Staged m pending (occurrences ++ done))
    (hconsistent : Consistent (occurrences ++ done))
    (hparsed : ∀ a ∈ occurrences ++ done ++ rest, Parsed a)
    (hheld : ∀ a ∈ occurrences, a ∈ m.events) (hids : ∀ a ∈ done ++ rest, a.id ∈ batchIds)
    (h : rest.foldlM (stageEvent m batchIds) pending = .ok pending') :
    Staged m pending' (occurrences ++ done ++ rest) ∧ Consistent (occurrences ++ done ++ rest) := by
  induction rest generalizing done pending with
  | nil =>
    obtain rfl : pending = pending' := by simpa using h
    rw [List.append_nil]
    exact ⟨hstaged, hconsistent⟩
  | cons s rest ih =>
    rw [List.foldlM_cons, bind_eq_ok] at h
    obtain ⟨next, hstep, hrest⟩ := h
    have hparsedDone : ∀ a ∈ occurrences ++ done, Parsed a := fun a ha =>
      hparsed a (List.mem_append_left _ ha)
    obtain ⟨hfits, hnext⟩ := stageEvent_fits hstaged (hparsed s (by simp)) hparsedDone
      hconsistent hstep
    have hconsistent' := hconsistent.concat (fun a ha => by
      rcases List.mem_append.mp ha with ha | ha
      · exact .inl (hheld a ha)
      · exact .inr (hids a (List.mem_append_left _ ha))) (hids s (by simp)) hfits
    rw [List.append_assoc] at hnext hconsistent'
    have hshift : occurrences ++ (done ++ [s]) ++ rest = occurrences ++ done ++ s :: rest := by
      simp
    rw [← hshift] at hparsed ⊢
    refine ih hnext hconsistent' hparsed (fun a ha => hids a ?_) hrest
    simpa using ha

/-- A batch is staged only if its events are consistent with what was there. -/
theorem stageBatch_consistent {batch : List CausalSourceEvent}
    (hstaged : Staged m ⟨[], [], []⟩ occurrences) (hconsistent : Consistent occurrences)
    (hparsed : ∀ a ∈ occurrences ++ batch, Parsed a)
    (hheld : ∀ a, a ∈ m.events ↔ a ∈ occurrences) (h : stageBatch m batch = .ok pending) :
    Staged m pending (occurrences ++ batch) ∧ Consistent (occurrences ++ batch) := by
  rw [← List.append_nil occurrences] at hstaged hconsistent hparsed
  have hstage := stage_consistent hstaged hconsistent hparsed (fun a ha => (hheld a).mpr ha)
    (fun a ha => List.mem_dedup.mpr (List.mem_map_of_mem ha)) h
  rwa [List.append_nil] at hstage

end Stage

/-! ## Edges and counts -/

/-- The second event follows the first in the sequence of one producer. -/
def Follows (a b : CausalSourceEvent) : Prop :=
  producerKey a = producerKey b ∧ a.sequence + 1 = b.sequence

instance (a b : CausalSourceEvent) : Decidable (Follows a b) :=
  inferInstanceAs (Decidable (_ ∧ _))

/-- The causal edges of events: between neighbours of one producer, and from a parent. -/
def edgesOf (occurrences : List CausalSourceEvent) : List (String × String) :=
  occurrences.flatMap fun b =>
    (occurrences.filter fun a => Follows a b).map (fun a => (a.id, b.id)) ++
      b.parentId?.toList.map (·, b.id)

theorem mem_edgesOf {occurrences : List CausalSourceEvent} {edge : String × String} :
    edge ∈ edgesOf occurrences ↔
      (∃ a ∈ occurrences, ∃ b ∈ occurrences, Follows a b ∧ edge = (a.id, b.id)) ∨
        ∃ b ∈ occurrences, ∃ parent, b.parentId? = some parent ∧ edge = (parent, b.id) := by
  simp only [edgesOf, List.mem_flatMap, List.mem_append, List.mem_map, List.mem_filter,
    decide_eq_true_eq, Option.mem_toList]
  constructor
  · rintro ⟨b, hb, ⟨a, ⟨ha, hfollows⟩, rfl⟩ | ⟨parent, hparent, rfl⟩⟩
    · exact .inl ⟨a, ha, b, hb, hfollows, rfl⟩
    · exact .inr ⟨b, hb, parent, hparent, rfl⟩
  · rintro (⟨a, ha, b, hb, hfollows, rfl⟩ | ⟨b, hb, parent, hparent, rfl⟩)
    · exact ⟨b, hb, .inl ⟨a, ⟨ha, hfollows⟩, rfl⟩⟩
    · exact ⟨b, hb, .inr ⟨parent, hparent, rfl⟩⟩

/-- How many different entries a list has. -/
def distinct {α : Type} [DecidableEq α] (xs : List α) : Nat := xs.dedup.length

theorem length_eq_distinct {α : Type} [DecidableEq α] {xs ys : List α} (hnodup : xs.Nodup)
    (hmem : ∀ x, x ∈ xs ↔ x ∈ ys) : xs.length = distinct ys := by
  apply List.Perm.length_eq
  rw [List.perm_ext_iff_of_nodup hnodup (List.nodup_dedup ys)]
  intro x
  rw [hmem, List.mem_dedup]

section Edges

variable {slot? : Slot → Option String} {events occurrences : List CausalSourceEvent}
  {missing : List String}

/-- The edges of one event, when the slots stand for the occurrences. -/
theorem mem_eventEdges (hholds : Holds events slot? missing occurrences)
    (hparsed : ∀ a ∈ occurrences, Parsed a) {s : CausalSourceEvent} {edge : String × String} :
    edge ∈ eventEdges slot? s ↔
      (∃ a ∈ occurrences, Follows a s ∧ edge = (a.id, s.id)) ∨
        (∃ b ∈ occurrences, Follows s b ∧ edge = (s.id, b.id)) ∨
          ∃ parent, s.parentId? = some parent ∧ edge = (parent, s.id) := by
  have hprevious : edge ∈ (if 0 < s.sequence then
      (slot? (producerKey s, s.sequence - 1)).toList.map (·, s.id) else []) ↔
      ∃ a ∈ occurrences, Follows a s ∧ edge = (a.id, s.id) := by
    constructor
    · intro h
      split at h
      · simp only [List.mem_map, Option.mem_toList] at h
        obtain ⟨id, hid, rfl⟩ := h
        obtain ⟨a, ha, hslot, rfl⟩ := (hholds.slots _ _).mp hid
        obtain ⟨hkey, hsequence⟩ := Prod.mk.inj hslot
        exact ⟨a, ha, ⟨hkey, by omega⟩, rfl⟩
      · cases h
    · rintro ⟨a, ha, ⟨hkey, hsequence⟩, rfl⟩
      rw [if_pos (by omega)]
      apply List.mem_map_of_mem
      rw [Option.mem_toList]
      refine (hholds.slots _ _).mpr ⟨a, ha, ?_, rfl⟩
      rw [producerSlot, hkey, ← hsequence, Nat.add_sub_cancel]
  have hnext : edge ∈ (if s.sequence + 1 < 2 ^ 64 then
      (slot? (producerKey s, s.sequence + 1)).toList.map (s.id, ·) else []) ↔
      ∃ b ∈ occurrences, Follows s b ∧ edge = (s.id, b.id) := by
    constructor
    · intro h
      split at h
      · simp only [List.mem_map, Option.mem_toList] at h
        obtain ⟨id, hid, rfl⟩ := h
        obtain ⟨b, hb, hslot, rfl⟩ := (hholds.slots _ _).mp hid
        obtain ⟨hkey, hsequence⟩ := Prod.mk.inj hslot
        exact ⟨b, hb, ⟨hkey.symm, hsequence.symm⟩, rfl⟩
      · cases h
    · rintro ⟨b, hb, ⟨hkey, hsequence⟩, rfl⟩
      have hbound := (hparsed b hb).sequence
      rw [if_pos (by omega)]
      apply List.mem_map_of_mem
      rw [Option.mem_toList]
      refine (hholds.slots _ _).mpr ⟨b, hb, ?_, rfl⟩
      rw [producerSlot, ← hkey, hsequence]
  simp only [eventEdges, List.mem_append, hprevious, hnext, List.mem_map, Option.mem_toList,
    or_assoc, eq_comm (a := edge)]

/-- The edges of all events of a set are those of the events not held before, and those there
were. -/
theorem edges_extend {m : CausalMerger} {pending : Pending} {batch : List CausalSourceEvent}
    (hparsed : ∀ a ∈ occurrences ++ batch, Parsed a)
    (hheld : ∀ a, a ∈ m.events ↔ a ∈ occurrences)
    (hstaged : Staged m pending (occurrences ++ batch)) (hnodup : m.edges.Nodup)
    (hedges : ∀ edge, edge ∈ m.edges ↔ edge ∈ edgesOf occurrences) :
    (m.edges ++ incrementalEdges m pending).Nodup ∧
      ∀ edge, edge ∈ m.edges ++ incrementalEdges m pending ↔
        edge ∈ edgesOf (occurrences ++ batch) := by
  have hpending : ∀ edge, edge ∈ incrementalEdges m pending ↔
      (∃ s ∈ pending.events, edge ∈ eventEdges
        (fun slot => (pending.slots ++ m.slots).lookup slot) s) ∧ edge ∉ m.edges := by
    intro edge
    simp only [incrementalEdges, List.mem_filter, List.mem_dedup, List.mem_flatMap,
      decide_eq_true_eq, List.lookup_append]
  constructor
  · apply List.Nodup.append hnodup
    · exact (List.nodup_dedup _).filter _
    · intro edge hold hnew
      exact ((hpending edge).mp hnew).2 hold
  · intro edge
    rw [List.mem_append, hpending]
    have hsplit : ∀ a ∈ occurrences ++ batch, a ∈ occurrences ∨ a ∈ pending.events := by
      intro a ha
      rw [← hheld, ← List.mem_append, hstaged.mem]
      exact ha
    constructor
    · rintro (hold | ⟨⟨s, hs, hedge⟩, -⟩)
      · rw [hedges, mem_edgesOf] at hold
        rw [mem_edgesOf]
        rcases hold with ⟨a, ha, b, hb, h⟩ | ⟨b, hb, h⟩
        · exact .inl ⟨a, List.mem_append_left _ ha, b, List.mem_append_left _ hb, h⟩
        · exact .inr ⟨b, List.mem_append_left _ hb, h⟩
      · have hs : s ∈ occurrences ++ batch := (hstaged.mem s).mp (List.mem_append_right _ hs)
        rw [mem_eventEdges hstaged hparsed] at hedge
        rw [mem_edgesOf]
        rcases hedge with ⟨a, ha, h⟩ | ⟨b, hb, h⟩ | h
        · exact .inl ⟨a, ha, s, hs, h⟩
        · exact .inl ⟨s, hs, b, hb, h⟩
        · exact .inr ⟨s, hs, h⟩
    · intro hedge
      by_cases hold : edge ∈ m.edges
      · exact .inl hold
      · refine .inr ⟨?_, hold⟩
        rw [hedges, mem_edgesOf] at hold
        rw [mem_edgesOf] at hedge
        -- an edge that is new touches an event that is new
        rcases hedge with ⟨a, ha, b, hb, h⟩ | ⟨b, hb, h⟩
        · rcases hsplit a ha with haOld | haNew
          · rcases hsplit b hb with hbOld | hbNew
            · exact absurd (.inl ⟨a, haOld, b, hbOld, h⟩) hold
            · exact ⟨b, hbNew, (mem_eventEdges hstaged hparsed).mpr (.inl ⟨a, ha, h⟩)⟩
          · exact ⟨a, haNew, (mem_eventEdges hstaged hparsed).mpr (.inr (.inl ⟨b, hb, h⟩))⟩
        · rcases hsplit b hb with hbOld | hbNew
          · exact absurd (.inr ⟨b, hbOld, h⟩) hold
          · exact ⟨b, hbNew, (mem_eventEdges hstaged hparsed).mpr (.inr (.inr h))⟩

end Edges

/-! ## Envelopes -/

section Envelopes

variable [ContentDigest] [JsonReader] {runId : String} {limits : MergeLimits}
  {policy : MissingParentPolicy} {m : CausalMerger} {held : List Bytes} {bytes : Bytes}

/-- The events of an envelope, none when it is not read. -/
def batchOf (runId : String) (limits : MergeLimits) (bytes : Bytes) : List CausalSourceEvent :=
  match readEnvelope runId limits bytes with
  | .ok batch => batch
  | .error _ => []

/-- All occurrences of events in envelopes. -/
def occurrencesOf (runId : String) (limits : MergeLimits) (held : List Bytes) :
    List CausalSourceEvent :=
  held.flatMap (batchOf runId limits)

theorem occurrencesOf_concat : occurrencesOf runId limits (held ++ [bytes]) =
    occurrencesOf runId limits held ++ batchOf runId limits bytes := by
  rw [occurrencesOf, List.flatMap_append, List.flatMap_singleton, occurrencesOf]

theorem occurrencesOf_parsed : ∀ s ∈ occurrencesOf runId limits held, Parsed s := by
  intro s hs
  obtain ⟨bytes, -, hs⟩ := List.mem_flatMap.mp hs
  unfold batchOf at hs
  split at hs
  · rename_i batch hread
    exact readEnvelope_parsed hread s hs
  · cases hs

/-- What a set of different envelopes must satisfy to be merged. -/
structure Acceptable (runId : String) (limits : MergeLimits) (held : List Bytes) : Prop where
  readable : ∀ bytes ∈ held, ∃ batch, readEnvelope runId limits bytes = .ok batch
  sources : held.length ≤ limits.maxSources
  inputBytes : (held.map List.length).sum ≤ limits.maxInputBytes
  events : distinct ((occurrencesOf runId limits held).map CausalSourceEvent.id) ≤
    limits.maxEvents
  edges : distinct (edgesOf (occurrencesOf runId limits held)) ≤ limits.maxEdges
  consistent : Consistent (occurrencesOf runId limits held)

/-- A merger holds the given envelopes. -/
structure Merged (runId : String) (limits : MergeLimits) (policy : MissingParentPolicy)
    (m : CausalMerger) (held : List Bytes) : Prop where
  runId_eq : m.runId = runId
  limits_eq : m.limits = limits
  policy_eq : m.missingPolicy = policy
  holds : Holds m.events (fun slot => m.slots.lookup slot) m.missingClaims
    (occurrencesOf runId limits held)
  edges_nodup : m.edges.Nodup
  edges : ∀ edge, edge ∈ m.edges ↔ edge ∈ edgesOf (occurrencesOf runId limits held)
  sources : m.sources = held.length
  inputBytes : m.inputBytes = (held.map List.length).sum
  fingerprints : ∀ print, (m.sourceFingerprints.lookup print).isSome = true ↔
    ∃ bytes ∈ held, fingerprint bytes = print

theorem Merged.staged_nil (h : Merged runId limits policy m held) :
    Staged m ⟨[], [], []⟩ (occurrencesOf runId limits held) := by
  unfold Staged
  simpa using h.holds

/-- Events counted with a batch. -/
theorem Merged.count (h : Merged runId limits policy m held) (batch : List CausalSourceEvent) :
    m.events.length + (((batch.map CausalSourceEvent.id).dedup).filter fun id =>
        (lookupEvent m.events id).isNone).length =
      distinct ((occurrencesOf runId limits held ++ batch).map CausalSourceEvent.id) := by
  rw [← List.length_map (f := CausalSourceEvent.id), ← List.length_append]
  apply length_eq_distinct
  · apply List.Nodup.append h.holds.nodup ((List.nodup_dedup _).filter _)
    intro id hold hnew
    obtain ⟨s, hs, rfl⟩ := List.mem_map.mp hold
    rw [List.mem_filter, lookupEvent_isNone] at hnew
    exact hnew.2 s hs rfl
  · intro id
    rw [List.mem_append, List.mem_filter, List.mem_dedup, lookupEvent_isNone, List.map_append,
      List.mem_append]
    have hheld : id ∈ m.events.map CausalSourceEvent.id ↔
        id ∈ (occurrencesOf runId limits held).map CausalSourceEvent.id := by
      simp only [List.mem_map, h.holds.mem]
    rw [hheld]
    constructor
    · rintro (hold | ⟨hnew, -⟩)
      · exact .inl hold
      · exact .inr hnew
    · rintro (hold | hnew)
      · exact .inl hold
      · by_cases hold : id ∈ m.events.map CausalSourceEvent.id
        · exact .inl (hheld.mp hold)
        · refine .inr ⟨hnew, fun s hs hid => hold ?_⟩
          exact hid ▸ List.mem_map_of_mem hs

theorem batchOf_eq {batch : List CausalSourceEvent} (h : readEnvelope runId limits bytes = .ok batch) :
    batchOf runId limits bytes = batch := by
  rw [batchOf, h]

theorem Merged.lookup_fingerprint (h : Merged runId limits policy m held)
    (hnew : ∀ b ∈ held, fingerprint b ≠ fingerprint bytes) :
    m.sourceFingerprints.lookup (fingerprint bytes) = none := by
  rw [← Option.not_isSome_iff_eq_none, h.fingerprints]
  rintro ⟨b, hb, heq⟩
  exact hnew b hb heq

/-- An envelope that was not there and is taken. -/
theorem Merged.ingest (hm : Merged runId limits policy m held)
    (hacceptable : Acceptable runId limits held)
    (hnew : ∀ b ∈ held, fingerprint b ≠ fingerprint bytes) {count : Nat} {m' : CausalMerger}
    (h : m.ingestSourceJsonl bytes = .ok (count, m')) :
    Merged runId limits policy m' (held ++ [bytes]) ∧
      Acceptable runId limits (held ++ [bytes]) := by
  simp only [CausalMerger.ingestSourceJsonl, hm.lookup_fingerprint hnew, bind_eq_ok,
    require_eq_ok, hm.runId_eq, hm.limits_eq, Except.ok.injEq, Prod.mk.injEq] at h
  obtain ⟨_, hsize, _, ⟨hsources, hbytes⟩, batch, hread, _, hevents, pending, hstage, _, hedges,
    -, rfl⟩ := h
  have hbatch := batchOf_eq hread
  have hparsed : ∀ a ∈ occurrencesOf runId limits held ++ batch, Parsed a := by
    rw [← hbatch, ← occurrencesOf_concat]
    exact occurrencesOf_parsed
  obtain ⟨hstaged, hconsistent⟩ := stageBatch_consistent hm.staged_nil hacceptable.consistent
    hparsed hm.holds.mem hstage
  obtain ⟨hnodup, hedgesMem⟩ := edges_extend hparsed hm.holds.mem hstaged hm.edges_nodup hm.edges
  rw [hm.count] at hevents
  rw [← List.length_append, length_eq_distinct hnodup hedgesMem] at hedges
  have hconcat : occurrencesOf runId limits (held ++ [bytes]) =
      occurrencesOf runId limits held ++ batch := by
    rw [occurrencesOf_concat, hbatch]
  rw [hm.sources] at hsources
  rw [hm.inputBytes] at hbytes
  have hbound := hacceptable.inputBytes
  constructor
  · refine ⟨rfl, rfl, hm.policy_eq, ?_, hnodup, ?_, ?_, ?_, ?_⟩
    · rw [hconcat]
      exact hstaged
    · rw [hconcat]
      exact hedgesMem
    · simp [hm.sources]
    · simp [hm.inputBytes]
    · intro print
      rw [List.lookup_cons]
      by_cases hprint : print = fingerprint bytes
      · simp [hprint]
      · rw [beq_false_of_ne hprint, hm.fingerprints]
        simp [Ne.symm hprint]
  · refine ⟨?_, ?_, ?_, ?_, ?_, ?_⟩
    · intro b hb
      rw [List.mem_append, List.mem_singleton] at hb
      rcases hb with hb | rfl
      · exact hacceptable.readable b hb
      · exact ⟨batch, hread⟩
    · have hlimit := hacceptable.sources
      rw [List.length_append, List.length_singleton]
      omega
    · rw [List.map_append, List.sum_append, List.map_singleton, List.sum_singleton]
      omega
    · rw [hconcat]
      exact hevents
    · rw [hconcat]
      exact hedges
    · rw [hconcat]
      exact hconsistent

theorem new_merged (h : CausalMerger.new runId limits policy = .ok m) :
    Merged runId limits policy m [] ∧ Acceptable runId limits [] := by
  simp only [CausalMerger.new, MergeLimits.validate, bind_eq_ok, require_eq_ok,
    Except.ok.injEq] at h
  obtain ⟨_, -, _, ⟨_, -, rfl⟩, rfl⟩ := h
  constructor
  · refine ⟨rfl, rfl, rfl, ⟨?_, ?_, ?_, ?_⟩, ?_, ?_, rfl, rfl, ?_⟩ <;>
      simp [occurrencesOf, edgesOf]
  · refine ⟨?_, ?_, ?_, ?_, ?_, ?_, ?_, ?_⟩ <;> simp [occurrencesOf, edgesOf, distinct]

end Envelopes

end SmeshDurable.Replay
