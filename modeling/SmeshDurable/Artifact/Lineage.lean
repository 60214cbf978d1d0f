import SmeshDurable.Artifact.Effect
import SmeshDurable.Library.Acyclic

/-!
# Lineage

An artifact is at least as sensitive as those it was derived from, and lies in the same
encryption domain; nothing is derived from itself, not even through others. Publication checks
a new artifact against its parents only. An identifier whose entry was collected may be
published again while artifacts derived from the old entry are still there, and these are not
looked at.
-/

namespace SmeshDurable.Catalog

open Relation

/-- The artifact `child` was derived from the one that `parent` identifies. -/
def ArtifactCatalog.Derives (s : ArtifactCatalog) (child parent : ArtifactKey) : Prop :=
  ∃ (e : CatalogEntry) (edge : DerivedFrom), s.entries[child]? = some e ∧
    edge ∈ e.manifest.derivedFrom ∧ parent = ⟨child.tenant, edge.artifactId⟩

/-- A parent is at most as sensitive as a child, and in the same encryption domain. -/
def ArtifactManifestV1.MayDerive (parent child : ArtifactManifestV1) : Prop :=
  parent.classification ≤ child.classification ∧ parent.encryptionDomain = child.encryptionDomain

structure ArtifactCatalog.Lineage (s : ArtifactCatalog) : Prop where
  monotone : ∀ (child : ArtifactKey) (e : CatalogEntry) (edge : DerivedFrom)
    (parent : CatalogEntry), s.entries[child]? = some e → edge ∈ e.manifest.derivedFrom →
      s.entries[(⟨child.tenant, edge.artifactId⟩ : ArtifactKey)]? = some parent →
        parent.manifest.MayDerive e.manifest
  acyclic : Acyclic s.Derives

/-- A new artifact fits those that are already derived from its identifier. -/
structure ArtifactCatalog.Fits (s : ArtifactCatalog) (m : ArtifactManifestV1) : Prop where
  children : ∀ (child : ArtifactKey) (e : CatalogEntry) (edge : DerivedFrom),
    s.entries[child]? = some e → edge ∈ e.manifest.derivedFrom →
      m.key = ⟨child.tenant, edge.artifactId⟩ → m.MayDerive e.manifest
  ancestors : ∀ edge ∈ m.derivedFrom, ¬ ReflTransGen s.Derives (m.parentKey edge) m.key

section Lineage

variable {s s' : ArtifactCatalog} {m : ArtifactManifestV1} {object : StoredArtifact}

/-- Every entry has the manifest of an entry that was there. -/
theorem ArtifactCatalog.Lineage.of_entries (h : s.Lineage)
    (hold : ∀ (key : ArtifactKey) (e' : CatalogEntry), s'.entries[key]? = some e' →
      ∃ e : CatalogEntry, s.entries[key]? = some e ∧ e.manifest = e'.manifest) :
    s'.Lineage := by
  constructor
  · intro child e' edge parent' hchild hedge hparent
    obtain ⟨e, he, hmanifest⟩ := hold child e' hchild
    obtain ⟨parent, hparent, hmanifest'⟩ := hold _ parent' hparent
    rw [← hmanifest, ← hmanifest']
    exact h.monotone child e edge parent he (hmanifest ▸ hedge) hparent
  · apply h.acyclic.mono
    rintro child parent ⟨e', edge, hchild, hedge, rfl⟩
    obtain ⟨e, he, hmanifest⟩ := hold child e' hchild
    exact ⟨e, edge, he, hmanifest ▸ hedge, rfl⟩

/-- A call that is not a publication brings no manifest into the catalog. -/
theorem CatalogEffect.entries {now : Int} {call : CatalogCall} (h : CatalogEffect s now call s')
    (hcall : ∀ m bytes promotion, call ≠ .publish m bytes promotion) (key : ArtifactKey)
    (e' : CatalogEntry) (he' : s'.entries[key]? = some e') :
    ∃ e : CatalogEntry, s.entries[key]? = some e ∧ e.manifest = e'.manifest := by
  cases h with
  | shared => exact absurd rfl (hcall _ _ _)
  | stored => exact absurd rfl (hcall _ _ _)
  | linked => exact absurd rfl (hcall _ _ _)
  | unchanged => exact ⟨e', he', rfl⟩
  | checked => exact ⟨e', he', rfl⟩
  | deleted => exact ⟨e', he', rfl⟩
  | ended => exact ⟨e', he', rfl⟩
  | touched he htouched =>
    rcases ArtifactCatalog.put_eq_some.mp he' with ⟨rfl, rfl⟩ | ⟨-, he'⟩
    · exact ⟨_, he, htouched.manifest.symm⟩
    · exact ⟨e', he', rfl⟩
  | buried he _ hburied =>
    rcases ArtifactCatalog.put_eq_some.mp he' with ⟨rfl, rfl⟩ | ⟨-, he'⟩
    · exact ⟨_, he, hburied.manifest.symm⟩
    · exact ⟨e', he', rfl⟩
  | removed =>
    rw [Std.ExtTreeMap.getElem?_erase] at he'
    split at he'
    · cases he'
    · exact ⟨e', he', rfl⟩

/-! ## A publication -/

/-- A publication that adds an artifact: the bytes are those described, the identifier is free,
the parents are there, and the blob is shared or was stored. -/
structure ArtifactCatalog.Adds [ContentDigest] (s : ArtifactCatalog) (m : ArtifactManifestV1)
    (bytes : List UInt8) (promotion : Promotion) : Prop where
  verified : verifyPlaintext m bytes = .ok ()
  free : s.entries[m.key]? = none
  parents : s.Parents m
  blob : (∃ pair ∈ s.entries.toList, pair.2.sharable m = true) ∨ ∃ object, promotion = .stored object

/-- A publication adds an entry for an identifier that has none, or no entry at all. -/
theorem publish_cases [ContentDigest] (s : ArtifactCatalog) (m : ArtifactManifestV1)
    (bytes : List UInt8) (promotion : Promotion) :
    s.Adds m bytes promotion ∧ (∃ object, (s.publish m bytes promotion).2.entries =
      (s.put m.key (.published m object)).entries) ∨
    ¬ s.Adds m bytes promotion ∧ (s.publish m bytes promotion).2.entries = s.entries := by
  unfold ArtifactCatalog.publish
  cases hverify : verifyPlaintext m bytes with
  | error error => exact .inr ⟨fun h => by simp [h.verified] at hverify, rfl⟩
  | ok _ =>
    cases hentry : s.entries[m.key]? with
    | some existing => exact .inr ⟨fun h => by simp [h.free] at hentry, rfl⟩
    | none =>
      dsimp only
      split
      case isFalse hall => exact .inr ⟨fun h => hall (parents_iff_all.mp h.parents), rfl⟩
      case isTrue hall =>
        have hparents := parents_iff_all.mpr hall
        cases hfind : s.entries.toList.find? fun pair => pair.2.sharable m with
        | some pair =>
          have hshared : pair.2.sharable m = true := by simpa using List.find?_some hfind
          exact .inl ⟨⟨hverify, hentry, hparents, .inl ⟨pair, List.mem_of_find?_eq_some hfind,
            hshared⟩⟩, pair.2.object, rfl⟩
        | none =>
          cases promotion with
          | stored object =>
            exact .inl ⟨⟨hverify, hentry, hparents, .inr ⟨object, rfl⟩⟩, object, rfl⟩
          | linked object error =>
            refine .inr ⟨fun h => ?_, rfl⟩
            obtain ⟨pair, hpair, hshared⟩ := h.blob.resolve_right (by simp)
            exact List.find?_eq_none.mp hfind pair hpair hshared
          | failed error =>
            refine .inr ⟨fun h => ?_, rfl⟩
            obtain ⟨pair, hpair, hshared⟩ := h.blob.resolve_right (by simp)
            exact List.find?_eq_none.mp hfind pair hpair hshared

theorem derives_put (hnew : s.entries[m.key]? = none) :
    (s.put m.key (.published m object)).Derives = fun child parent =>
      s.Derives child parent ∨ child = m.key ∧ ∃ edge ∈ m.derivedFrom, parent = m.parentKey edge := by
  ext child parent
  constructor
  · rintro ⟨e, edge, hchild, hedge, rfl⟩
    rcases ArtifactCatalog.put_eq_some.mp hchild with ⟨rfl, rfl⟩ | ⟨-, hchild⟩
    · exact .inr ⟨rfl, edge, hedge, rfl⟩
    · exact .inl ⟨e, edge, hchild, hedge, rfl⟩
  · rintro (⟨e, edge, hchild, hedge, rfl⟩ | ⟨rfl, edge, hedge, rfl⟩)
    · refine ⟨e, edge, ?_, hedge, rfl⟩
      rw [ArtifactCatalog.put_eq_some]
      refine .inr ⟨?_, hchild⟩
      rintro rfl
      rw [hnew] at hchild
      cases hchild
    · exact ⟨_, edge, ArtifactCatalog.put_eq_some.mpr (.inl ⟨rfl, rfl⟩), hedge, rfl⟩

/-- The added entry keeps the lineage exactly when it fits. -/
theorem lineage_put_iff (h : s.Lineage) (hnew : s.entries[m.key]? = none)
    (hparents : s.Parents m) : (s.put m.key (.published m object)).Lineage ↔ s.Fits m := by
  have hacyclic : Acyclic (s.put m.key (.published m object)).Derives ↔
      ∀ edge ∈ m.derivedFrom, ¬ ReflTransGen s.Derives (m.parentKey edge) m.key := by
    rw [derives_put hnew, Acyclic.insert_iff]
    constructor
    · rintro ⟨-, hends⟩ edge hedge
      exact hends _ ⟨edge, hedge, rfl⟩
    · refine fun hedges => ⟨h.acyclic, ?_⟩
      rintro parent ⟨edge, hedge, rfl⟩
      exact hedges edge hedge
  constructor
  · intro h'
    refine ⟨?_, hacyclic.mp h'.acyclic⟩
    intro child e edge hchild hedge hkey
    have hother : m.key ≠ child := by
      rintro rfl
      rw [hnew] at hchild
      cases hchild
    apply h'.monotone child e edge (.published m object) _ hedge
    · rw [← hkey]
      exact ArtifactCatalog.put_eq_some.mpr (.inl ⟨rfl, rfl⟩)
    · exact ArtifactCatalog.put_eq_some.mpr (.inr ⟨hother, hchild⟩)
  · intro hfits
    refine ⟨?_, hacyclic.mpr hfits.ancestors⟩
    intro child e edge parent hchild hedge hparent
    rcases ArtifactCatalog.put_eq_some.mp hchild with ⟨rfl, rfl⟩ | ⟨-, hchild⟩
    · -- the new entry was checked against its parents
      obtain ⟨parent', hparent', hmay⟩ := hparents edge hedge
      simp only [CatalogEntry.mayBeParent, Bool.and_eq_true, decide_eq_true_eq] at hmay
      rcases ArtifactCatalog.put_eq_some.mp hparent with ⟨hself, -⟩ | ⟨-, hparent⟩
      · rw [← show m.key = m.parentKey edge from hself, hnew] at hparent'
        cases hparent'
      · obtain rfl : parent' = parent := Option.some.inj (hparent'.symm.trans hparent)
        exact ⟨hmay.1.2, hmay.2⟩
    · rcases ArtifactCatalog.put_eq_some.mp hparent with ⟨hkey, rfl⟩ | ⟨-, hparent⟩
      · exact hfits.children child e edge hchild hedge hkey
      · exact h.monotone child e edge parent hchild hedge hparent

/-! ## Runs -/

variable [ContentDigest]

/-- A publication that adds an artifact fits the artifacts derived from its identifier. -/
def CatalogCall.Fits (s : ArtifactCatalog) : CatalogCall → Prop
  | .publish m bytes promotion =>
    s.Adds m bytes promotion → s.Fits m
  | _ => True

theorem lineage_perform_iff {now : Int} {call : CatalogCall} (h : s.Lineage) :
    (call.perform s now).Lineage ↔ call.Fits s := by
  by_cases hcall : ∀ m bytes promotion, call ≠ .publish m bytes promotion
  · have hfits : call.Fits s := by
      cases call with
      | publish m bytes promotion => exact absurd rfl (hcall m bytes promotion)
      | _ => trivial
    have heffect : CatalogEffect s now call (call.perform s now) := perform_effect call
    exact ⟨fun _ => hfits, fun _ => h.of_entries (heffect.entries hcall)⟩
  · simp only [not_forall, not_not] at hcall
    obtain ⟨m, bytes, promotion, rfl⟩ := hcall
    have hsame : ∀ {a b : ArtifactCatalog}, a.entries = b.entries → a.Lineage → b.Lineage := by
      intro a b hentries ha
      apply ha.of_entries
      intro key e' he'
      exact ⟨e', hentries ▸ he', rfl⟩
    rcases publish_cases s m bytes promotion with ⟨hadds, object, hentries⟩ | ⟨hno, hentries⟩
    · have hiff : (s.put m.key (.published m object)).Lineage ↔ s.Fits m :=
        lineage_put_iff h hadds.free hadds.parents
      constructor
      · intro h' _
        exact hiff.mp (hsame hentries h')
      · intro hfits
        exact hsame hentries.symm (hiff.mpr (hfits hadds))
    · constructor
      · intro _ hadds
        exact absurd hadds hno
      · intro _
        exact hsame hentries.symm h

/-- The lineage is monotone and acyclic at every point of a run exactly when every artifact that
is published on the way fits the artifacts derived from its identifier. -/
theorem lineage_throughout_iff (actions : List CatalogAction) :
    (∀ n, ((actions.take n).foldl catalogSystem.next ArtifactCatalog.new).Lineage) ↔
      catalogSystem.Permits (fun s a => a.call.Fits s) ArtifactCatalog.new actions := by
  apply Clocked.forall_take_iff_permits
  · intro s a h
    exact lineage_perform_iff h
  · constructor
    · intro child e edge parent hchild
      simp [ArtifactCatalog.new] at hchild
    · intro key hcycle
      obtain ⟨_, ⟨e, edge, hchild, -⟩, -⟩ := TransGen.head'_iff.mp hcycle
      simp [ArtifactCatalog.new] at hchild

end Lineage

/-! ## A cycle -/

/-- `first` is published, `second` is derived from it; `first` is released and collected, and
then published again, derived from `second`. -/
def republication [ContentDigest] : List CatalogAction :=
  [.publish (sampleManifest "first" [] first_underived) [] (.stored ⟨"objects/00/a"⟩),
    .publish (sampleManifest "second" [sampleParent "first" (by decide)]
      (by decide)) [] (.failed .unavailable),
    .releaseReference "tenant" "task" "first",
    .gc 0 "tenant" "first" 1, .gcResume 0 .done, .gcResume 0 .done,
    .publish (sampleManifest "first" [sampleParent "second" (by decide)]
      (by decide)) [] (.failed .unavailable)].map (⟨0, ·⟩)

/-- The entry of `child` names `parent`. -/
theorem derives_of_edges {s : ArtifactCatalog} {child parent : ArtifactKey}
    (h : ((s.entries[child]?).any fun e =>
      e.manifest.derivedFrom.any fun edge => parent = ⟨child.tenant, edge.artifactId⟩) = true) :
    s.Derives child parent := by
  obtain ⟨e, he, hany⟩ := (Option.any_eq_true _ _).mp h
  obtain ⟨edge, hedge, hparent⟩ := List.any_eq_true.mp hany
  exact ⟨e, edge, he, hedge, of_decide_eq_true hparent⟩

attribute [local instance] checksumDigest

theorem republication_closes_cycle :
    ¬ (republication.foldl catalogSystem.next ArtifactCatalog.new).Lineage := by
  intro h
  have hfirst : (republication.foldl catalogSystem.next ArtifactCatalog.new).Derives
      ⟨"tenant", "first"⟩ ⟨"tenant", "second"⟩ := derives_of_edges (by decide)
  have hsecond : (republication.foldl catalogSystem.next ArtifactCatalog.new).Derives
      ⟨"tenant", "second"⟩ ⟨"tenant", "first"⟩ := derives_of_edges (by decide)
  exact h.acyclic _ (.tail (.single hfirst) hsecond)

end SmeshDurable.Catalog
