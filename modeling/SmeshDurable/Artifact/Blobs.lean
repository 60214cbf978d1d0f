import SmeshDurable.Artifact.Effect

/-!
# Entries and their blobs

The blob of an entry that is no tombstone stays where it is. A collection deletes a blob after
it has looked for other users, and no entry comes to share it in between, unless an identifier
is published again, with the same blob, while an older collection of it has not yet looked.
-/

namespace SmeshDurable.Catalog

/-! ## Steps -/

/-- The random values of a step are new: nothing refers to the path of a new object, and no
entry has a lease with the token. -/
def CatalogCall.Fresh (s : ArtifactCatalog) : CatalogCall → Prop
  | .publish _ _ (.stored object) =>
    (∀ (key : ArtifactKey) (e : CatalogEntry), s.entries[key]? = some e →
      e.path ≠ object.relativePath) ∧
    ∀ thread c, s.running thread = some c → c.path ≠ object.relativePath
  | .acquireReadLease _ _ _ _ _ token =>
    ∀ (key : ArtifactKey) (e : CatalogEntry), s.entries[key]? = some e →
      e.leases[token]? = none
  | _ => True

/-- An artifact does not take over a blob for which a collection of the same identifier has not
yet looked for other users. -/
def CatalogCall.Settled (s : ArtifactCatalog) : CatalogCall → Prop
  | .publish m _ _ =>
    ∀ thread c, s.running thread = some c → c.phase = .checking → c.key = m.key →
      ∀ (key : ArtifactKey) (e : CatalogEntry), s.entries[key]? = some e →
        e.sharable m = true → e.path ≠ c.path
  | _ => True

/-! ## The invariant -/

/-- What a collection has found out about the users of its blob stays true, and the blobs of
entries that are no tombstones are there. -/
structure ArtifactCatalog.Keeps (s : ArtifactCatalog) : Prop where
  checking : ∀ thread c, s.running thread = some c → c.phase = .checking →
    ∀ e : CatalogEntry, s.entries[c.key]? = some e → e.path = c.path → e.tombstoned = true
  deleting : ∀ thread c, s.running thread = some c → c.phase = .deleting →
    ∀ (key : ArtifactKey) (e : CatalogEntry), s.entries[key]? = some e → e.path = c.path →
      e.tombstoned = true
  present : ∀ (key : ArtifactKey) (e : CatalogEntry), s.entries[key]? = some e →
    e.tombstoned = false → e.path ∈ s.blobs

section Keeps

variable {s s' : ArtifactCatalog} {now : Int} {call : CatalogCall} {key : ArtifactKey}
  {e e' : CatalogEntry}

theorem CatalogEntry.tombstoned_of_sharable {m : ArtifactManifestV1}
    (h : e.sharable m = true) : e.tombstoned = false := by
  simp only [sharable, Bool.and_eq_true, Bool.not_eq_true'] at h
  exact h.1.1.1.1.1.1

theorem keeps_new : ArtifactCatalog.new.Keeps where
  checking := fun thread c hc => by simp [ArtifactCatalog.new] at hc
  deleting := fun thread c hc => by simp [ArtifactCatalog.new] at hc
  present := fun key e he => by simp [ArtifactCatalog.new] at he

namespace ArtifactCatalog.Keeps

/-- A new entry, whose blob is there and which no collection is about to delete. -/
theorem published {m : ArtifactManifestV1} {object : StoredArtifact} {blobs : Finset String}
    (h : s.Keeps) (hblobs : s.blobs ⊆ blobs) (hobject : object.relativePath ∈ blobs)
    (hchecking : ∀ thread c, s.running thread = some c → c.phase = .checking → c.key = m.key →
      object.relativePath ≠ c.path)
    (hdeleting : ∀ thread c, s.running thread = some c → c.phase = .deleting →
      object.relativePath ≠ c.path) :
    ArtifactCatalog.Keeps { s.put m.key (.published m object) with blobs := blobs } := by
  constructor
  · intro thread c hc hphase e he hpath
    rcases put_eq_some.mp he with ⟨hkey, rfl⟩ | ⟨-, he⟩
    · exact absurd hpath (hchecking thread c hc hphase hkey.symm)
    · exact h.checking thread c hc hphase e he hpath
  · intro thread c hc hphase key e he hpath
    rcases put_eq_some.mp he with ⟨-, rfl⟩ | ⟨-, he⟩
    · exact absurd hpath (hdeleting thread c hc hphase)
    · exact h.deleting thread c hc hphase key e he hpath
  · intro key e he htombstoned
    rcases put_eq_some.mp he with ⟨-, rfl⟩ | ⟨-, he⟩
    · exact hobject
    · exact hblobs (h.present key e he htombstoned)

/-- An entry put back with its blob; it may have become a tombstone. -/
theorem put (h : s.Keeps) (he : s.entries[key]? = some e) (hobject : e'.object = e.object)
    (htombstone : e.tombstoned = true → e'.tombstoned = true) : (s.put key e').Keeps := by
  have hpath : e'.path = e.path := congrArg StoredArtifact.relativePath hobject
  constructor
  · intro thread c hc hphase x hx hsame
    rcases put_eq_some.mp hx with ⟨rfl, rfl⟩ | ⟨-, hx⟩
    · exact htombstone (h.checking thread c hc hphase e he (hpath ▸ hsame))
    · exact h.checking thread c hc hphase x hx hsame
  · intro thread c hc hphase k x hx hsame
    rcases put_eq_some.mp hx with ⟨rfl, rfl⟩ | ⟨-, hx⟩
    · exact htombstone (h.deleting thread c hc hphase key e he (hpath ▸ hsame))
    · exact h.deleting thread c hc hphase k x hx hsame
  · intro k x hx hlive
    rcases put_eq_some.mp hx with ⟨-, rfl⟩ | ⟨-, hx⟩
    · rw [hpath]
      apply h.present key e he
      cases hbefore : e.tombstoned with
      | false => rfl
      | true => rw [htombstone hbefore] at hlive; cases hlive
    · exact h.present k x hx hlive

/-- The other users that a collection did not find are not there. -/
theorem of_not_shares {c : Collection} (hshares : s.shares c = false)
    (he : s.entries[key]? = some e) (hother : key ≠ c.key) (hpath : e.path = c.path) :
    e.tombstoned = true := by
  have hmem := Std.ExtTreeMap.mem_toList_iff_getElem?_eq_some.mpr he
  have hnot := List.any_eq_false.mp hshares (key, e) hmem
  simpa [hother, hpath] using hnot

/-- The collections of all threads, one of which went on. -/
theorem run {thread : Nat} {next : Option Collection} (h : s.Keeps)
    (hchecking : ∀ c, next = some c → c.phase ≠ .checking)
    (hdeleting : ∀ c, next = some c → c.phase = .deleting →
      ∀ (key : ArtifactKey) (e : CatalogEntry), s.entries[key]? = some e → e.path = c.path →
        e.tombstoned = true) : (s.run thread next).Keeps := by
  have hcases : ∀ other c, (s.run thread next).running other = some c →
      s.running other = some c ∨ next = some c := by
    intro other c hc
    by_cases hsame : other = thread
    · subst hsame
      exact .inr (by simpa [ArtifactCatalog.run] using hc)
    · exact .inl (by simpa [ArtifactCatalog.run, Function.update_of_ne hsame] using hc)
  refine ⟨?_, ?_, h.present⟩
  · intro other c hc hphase
    rcases hcases other c hc with hold | hnext
    · exact h.checking other c hold hphase
    · exact absurd hphase (hchecking c hnext)
  · intro other c hc hphase
    rcases hcases other c hc with hold | hnext
    · exact h.deleting other c hold hphase
    · exact hdeleting c hnext hphase

/-- The tombstone of an entry; the collection that starts finds it. -/
theorem buried {running : Nat → Option Collection} (h : s.Keeps)
    (he : s.entries[key]? = some e) (hburied : e.Buried e')
    (hrunning : ∀ thread c, running thread = some c → s.running thread = some c ∨
      c.key = key ∧ c.object = e.object ∧ c.phase = .checking) :
    ArtifactCatalog.Keeps { s.put key e' with running := running } := by
  have hput : (s.put key e').Keeps := h.put he hburied.object fun _ => hburied.tombstoned
  refine ⟨?_, ?_, hput.present⟩
  · intro thread c hc hphase x hx hpath
    rcases hrunning thread c hc with hold | ⟨rfl, -, -⟩
    · exact hput.checking thread c hold hphase x hx hpath
    · rcases put_eq_some.mp hx with ⟨-, rfl⟩ | ⟨hne, -⟩
      · exact hburied.tombstoned
      · exact absurd rfl hne
  · intro thread c hc hphase
    rcases hrunning thread c hc with hold | ⟨-, -, hchecking⟩
    · exact hput.deleting thread c hold hphase
    · rw [hchecking] at hphase
      cases hphase

/-- A collection that found no other user of its blob goes on to delete it. -/
theorem checked {thread : Nat} {c : Collection} {phase : CollectionPhase} (h : s.Keeps)
    (hc : s.running thread = some c) (hphase : c.phase = .checking)
    (hchecked : phase = .deleting ∧ s.shares c = false ∨ phase = .removing) :
    (s.run thread (some { c with phase := phase })).Keeps := by
  apply h.run
  · rintro _ ⟨⟩
    rcases hchecked with ⟨rfl, -⟩ | rfl <;> simp
  · rintro _ ⟨⟩ hdeleting k x hx hpath
    rcases hchecked with ⟨-, hshares⟩ | rfl
    · by_cases hown : k = c.key
      · exact h.checking thread c hc hphase x (hown ▸ hx) hpath
      · exact of_not_shares hshares hx hown hpath
    · cases hdeleting

/-- The blob goes; only tombstones referred to it. -/
theorem deleted {thread : Nat} {c : Collection} {next : Option Collection} (h : s.Keeps)
    (hc : s.running thread = some c) (hphase : c.phase = .deleting)
    (hnext : next = none ∨ next = some { c with phase := .removing }) :
    ArtifactCatalog.Keeps { s.run thread next with blobs := s.blobs.erase c.path } := by
  have hremoving : ∀ c', next = some c' → c'.phase = .removing := by
    rintro c' rfl
    rcases hnext with hnone | hsome
    · cases hnone
    · rw [Option.some.inj hsome]
  have hrun : (s.run thread next).Keeps := by
    apply h.run
    · intro c' hc' hchecking
      rw [hremoving c' hc'] at hchecking
      cases hchecking
    · intro c' hc' hdeleting
      rw [hremoving c' hc'] at hdeleting
      cases hdeleting
  refine ⟨hrun.checking, hrun.deleting, ?_⟩
  intro k x hx hlive
  refine Finset.mem_erase.mpr ⟨?_, h.present k x hx hlive⟩
  intro hpath
  rw [h.deleting thread c hc hphase k x hx hpath] at hlive
  cases hlive

theorem erased {entries : Std.ExtTreeMap ArtifactKey CatalogEntry ArtifactKey.compare}
    (h : s.Keeps) (hold : ∀ (k : ArtifactKey) (x : CatalogEntry),
      entries[k]? = some x → s.entries[k]? = some x) :
    ArtifactCatalog.Keeps { s with entries := entries } where
  checking := fun thread c hc hphase x hx => h.checking thread c hc hphase x (hold _ x hx)
  deleting := fun thread c hc hphase k x hx => h.deleting thread c hc hphase k x (hold k x hx)
  present := fun k x hx => h.present k x (hold k x hx)

/-- One step. Which collections are in progress matters where a publication shares a blob. -/
theorem effect (h : s.Keeps) (hfresh : call.Fresh s) (hsettled : call.Settled s)
    (heffect : CatalogEffect s now call s') : s'.Keeps := by
  cases heffect with
  | unchanged => exact h
  | shared hnew hparents hother hsharable =>
    have hlive := CatalogEntry.tombstoned_of_sharable hsharable
    apply h.published (Finset.Subset.refl _) (h.present _ _ hother hlive)
    · intro thread c hc hphase hkey
      exact hsettled thread c hc hphase hkey _ _ hother hsharable
    · intro thread c hc hphase hpath
      have htombstoned := h.deleting thread c hc hphase _ _ hother hpath
      rw [hlive] at htombstoned
      cases htombstoned
  | stored hnew hparents =>
    apply h.published (Finset.subset_insert _ _) (Finset.mem_insert_self _ _)
    · exact fun thread c hc _ _ hpath => hfresh.2 thread c hc hpath.symm
    · exact fun thread c hc _ hpath => hfresh.2 thread c hc hpath.symm
  | linked =>
    refine ⟨h.checking, h.deleting, ?_⟩
    exact fun k e he hlive => Finset.mem_insert_of_mem (h.present k e he hlive)
  | touched he htouched =>
    exact h.put he htouched.object fun hbefore => htouched.tombstoned.trans hbefore
  | buried he hdue hburied hrunning => exact h.buried he hburied hrunning
  | checked hc hphase hchecked => exact h.checked hc hphase hchecked
  | deleted hc hphase hnext => exact h.deleted hc hphase hnext
  | @removed _ thread c x he htombstoned =>
    have hended : (s.run thread none).Keeps := h.run (by simp) (by simp)
    apply hended.erased
    intro k x hx
    rw [Std.ExtTreeMap.getElem?_erase] at hx
    split at hx
    · cases hx
    · exact hx
  | ended => exact h.run (by simp) (by simp)

end ArtifactCatalog.Keeps

end Keeps

end SmeshDurable.Catalog
