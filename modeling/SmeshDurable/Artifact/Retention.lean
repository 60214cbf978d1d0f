import SmeshDurable.Artifact.Blobs

/-!
# Retention

A collection may delete a blob only while nothing that is in the catalog needs it. A tombstone
cannot be leased or referenced again, so what was checked when the entry became a tombstone
still holds when its blob is deleted, whatever happens in between, with two exceptions: a legal
hold can be placed on a tombstone, and an identifier can be published again, with the same blob,
while an older collection of it has not yet looked for other users of the blob.
-/

namespace SmeshDurable.Catalog

/-! ## Steps -/

/-- A hold is placed on an entry that is no tombstone; an artifact does not take over a blob for
which a collection of the same identifier has not yet looked for other users. -/
def CatalogCall.Orderly (s : ArtifactCatalog) : CatalogCall → Prop
  | .publish m _ _ =>
    ∀ thread c, s.running thread = some c → c.phase = .checking → c.key = m.key →
      ∀ (key : ArtifactKey) (e : CatalogEntry), s.entries[key]? = some e →
        e.sharable m = true → e.path ≠ c.path
  | .placeLegalHold tenant artifactId _ =>
    ∀ e : CatalogEntry, s.entries[(⟨tenant, artifactId⟩ : ArtifactKey)]? = some e →
      e.tombstoned = false
  | _ => True

/-! ## The invariant -/

/-- Tombstones are collectable, and what a collection has found out about the users of its blob
stays true. -/
structure ArtifactCatalog.Retains (s : ArtifactCatalog) (now : Int) : Prop where
  tombstoned : ∀ (key : ArtifactKey) (e : CatalogEntry), s.entries[key]? = some e →
    e.tombstoned = true → e.Collectable now ∧ e.leases = ∅
  checking : ∀ thread c, s.running thread = some c → c.phase = .checking →
    ∀ e : CatalogEntry, s.entries[c.key]? = some e → e.path = c.path → e.tombstoned = true
  deleting : ∀ thread c, s.running thread = some c → c.phase = .deleting →
    ∀ (key : ArtifactKey) (e : CatalogEntry), s.entries[key]? = some e → e.path = c.path →
      e.tombstoned = true
  present : ∀ (key : ArtifactKey) (e : CatalogEntry), s.entries[key]? = some e →
    e.tombstoned = false → e.path ∈ s.blobs

section Retention

variable {s s' : ArtifactCatalog} {now later : Int} {call : CatalogCall} {key : ArtifactKey}
  {e e' : CatalogEntry}

theorem CatalogEntry.Collectable.mono (h : e.Collectable now) (hle : now ≤ later) :
    e.Collectable later where
  referenceLive := h.referenceLive
  retainUntil := h.retainUntil.trans hle
  leases := fun token expiry hlease => (h.leases token expiry hlease).trans hle
  holds := h.holds

theorem ArtifactCatalog.Retains.mono (h : s.Retains now) (hle : now ≤ later) :
    s.Retains later where
  tombstoned := fun key e he htombstoned =>
    ⟨(h.tombstoned key e he htombstoned).1.mono hle, (h.tombstoned key e he htombstoned).2⟩
  checking := h.checking
  deleting := h.deleting
  present := h.present

theorem retains_new : ArtifactCatalog.new.Retains now where
  tombstoned := fun key e he => by simp [ArtifactCatalog.new] at he
  checking := fun thread c hc => by simp [ArtifactCatalog.new] at hc
  deleting := fun thread c hc => by simp [ArtifactCatalog.new] at hc
  present := fun key e he => by simp [ArtifactCatalog.new] at he

theorem CatalogCall.Orderly.settled (h : call.Orderly s) : call.Settled s := by
  cases call with
  | publish m bytes promotion => exact h
  | _ => trivial

namespace ArtifactCatalog.Retains

theorem keeps (h : s.Retains now) : s.Keeps := ⟨h.checking, h.deleting, h.present⟩

/-- A call that touches a tombstone leaves it collectable, unless it places a hold. -/
theorem touched (h : s.Retains now) (horderly : call.Orderly s) (he : s.entries[key]? = some e)
    (htouched : e.Touched call now key e') (htombstoned : e'.tombstoned = true) :
    e'.Collectable now ∧ e'.leases = ∅ := by
  have hbefore : e.tombstoned = true := htouched.tombstoned.symm.trans htombstoned
  obtain ⟨hdue, hleases⟩ := h.tombstoned key e he hbefore
  have hempty : e'.leases = ∅ := by
    apply Std.ExtTreeMap.ext_getElem?
    intro token
    cases hlease : e'.leases[token]? with
    | none => simp
    | some expiry =>
      rcases htouched.leases token expiry hlease with hold | hlive
      · simp [hleases] at hold
      · simp [hbefore] at hlive
  refine ⟨⟨?_, ?_, ?_, ?_⟩, hempty⟩
  · cases hlive : e'.referenceLive with
    | false => rfl
    | true => rw [← htouched.referenceLive hlive, hdue.referenceLive]
  · rw [htouched.manifest]
    exact hdue.retainUntil
  · intro token expiry hlease
    simp [hempty] at hlease
  · apply Finset.eq_empty_of_forall_notMem
    intro hold hmem
    rcases htouched.holds hold hmem with hbefore' | rfl
    · simp [hdue.holds] at hbefore'
    · -- a hold is not placed on a tombstone
      have hlive := horderly e he
      rw [hbefore] at hlive
      cases hlive

theorem buried (hdue : e.Collectable now) (hburied : e.Buried e') :
    e'.Collectable now ∧ e'.leases = ∅ := by
  refine ⟨⟨?_, ?_, ?_, ?_⟩, hburied.leases⟩
  · exact hburied.referenceLive.trans hdue.referenceLive
  · rw [hburied.manifest]
    exact hdue.retainUntil
  · intro token expiry hlease
    simp [hburied.leases] at hlease
  · exact hburied.holds.trans hdue.holds

/-- The tombstones after a step are collectable. -/
theorem tombstoned_effect (h : s.Retains now) (horderly : call.Orderly s)
    (heffect : CatalogEffect s now call s') (he : s'.entries[key]? = some e)
    (htombstoned : e.tombstoned = true) : e.Collectable now ∧ e.leases = ∅ := by
  cases heffect with
  | unchanged => exact h.tombstoned key e he htombstoned
  | shared =>
    rcases put_eq_some.mp he with ⟨-, rfl⟩ | ⟨-, he⟩
    · cases htombstoned
    · exact h.tombstoned key e he htombstoned
  | stored =>
    rcases put_eq_some.mp he with ⟨-, rfl⟩ | ⟨-, he⟩
    · cases htombstoned
    · exact h.tombstoned key e he htombstoned
  | linked => exact h.tombstoned key e he htombstoned
  | touched hx htouched =>
    rcases put_eq_some.mp he with ⟨-, rfl⟩ | ⟨-, he⟩
    · exact h.touched horderly hx htouched htombstoned
    · exact h.tombstoned key e he htombstoned
  | buried hx hdue hburied =>
    rcases put_eq_some.mp he with ⟨-, rfl⟩ | ⟨-, he⟩
    · exact buried hdue hburied
    · exact h.tombstoned key e he htombstoned
  | checked => exact h.tombstoned key e he htombstoned
  | deleted => exact h.tombstoned key e he htombstoned
  | removed =>
    rw [Std.ExtTreeMap.getElem?_erase] at he
    split at he
    · cases he
    · exact h.tombstoned key e he htombstoned
  | ended => exact h.tombstoned key e he htombstoned

/-- One step. The order of the calls is needed where a publication shares a blob and where a
hold is placed. -/
theorem effect (h : s.Retains now) (hfresh : call.Fresh s) (horderly : call.Orderly s)
    (heffect : CatalogEffect s now call s') : s'.Retains now := by
  have hkeeps := h.keeps.effect hfresh horderly.settled heffect
  refine ⟨?_, hkeeps.checking, hkeeps.deleting, hkeeps.present⟩
  exact fun key e he htombstoned => h.tombstoned_effect horderly heffect he htombstoned

end ArtifactCatalog.Retains

/-! ## Holds and leases -/

/-- What a caller got to keep an artifact: a hold, or a lease until an instant. -/
inductive Protection where
  | hold (name : String)
  | lease (token : String) (expiry : Int)

namespace Protection

/-- The entry still has it. -/
def On (p : Protection) (e : CatalogEntry) : Prop :=
  match p with
  | hold name => name ∈ e.holds
  | lease token expiry => e.leases[token]? = some expiry

/-- It has not expired. -/
def InForce (p : Protection) (now : Int) : Prop :=
  match p with
  | hold _ => True
  | lease _ expiry => now < expiry

/-- The call gives it up. -/
def Released (p : Protection) (key : ArtifactKey) (call : CatalogCall) : Prop :=
  match p with
  | hold name => call = .releaseLegalHold key.tenant key.artifactId name
  | lease token _ => call = .releaseReadLease token

variable {p : Protection}

theorem InForce.mono (h : p.InForce later) (hle : now ≤ later) : p.InForce now := by
  cases p with
  | hold name => trivial
  | lease token expiry => exact lt_of_le_of_lt hle h

/-- A protected entry is not collectable. -/
theorem not_collectable (hon : p.On e) (hforce : p.InForce now) : ¬ e.Collectable now := by
  intro hdue
  cases p with
  | hold name => simp [On, hdue.holds] at hon
  | lease token expiry => exact absurd hforce (not_lt.mpr (hdue.leases token expiry hon))

theorem on_touched (hon : p.On e) (hforce : p.InForce now) (hkept : ¬ p.Released key call)
    (hfresh : call.Fresh s) (he : s.entries[key]? = some e)
    (htouched : e.Touched call now key e') : p.On e' := by
  cases p with
  | hold name => exact (htouched.holds_kept name hon).resolve_right hkept
  | lease token expiry =>
    rcases htouched.leases_kept token expiry hon hforce with hlease | hreleased | hagain
    · exact hlease
    · exact absurd hreleased hkept
    · -- a token is not drawn twice
      obtain ⟨owner, task, ttl, rfl⟩ := hagain
      have hnone := hfresh key e he
      rw [show e.leases[token]? = some expiry from hon] at hnone
      cases hnone

end Protection

/-- A protected entry survives a step that does not give the protection up. -/
theorem protected_effect {p : Protection} (h : s.Retains now) (hfresh : call.Fresh s)
    (heffect : CatalogEffect s now call s') (he : s.entries[key]? = some e) (hon : p.On e)
    (hforce : p.InForce now) (hkept : ¬ p.Released key call) :
    ∃ e' : CatalogEntry, s'.entries[key]? = some e' ∧ e'.object = e.object ∧ p.On e' := by
  have hnew : ∀ {m : ArtifactManifestV1} {x : CatalogEntry}, s.entries[m.key]? = none →
      (s.put m.key x).entries[key]? = some e := by
    intro m x hnone
    rw [ArtifactCatalog.put_eq_some]
    refine .inr ⟨?_, he⟩
    rintro rfl
    rw [hnone] at he
    cases he
  cases heffect with
  | unchanged => exact ⟨e, he, rfl, hon⟩
  | shared hnone => exact ⟨e, hnew hnone, rfl, hon⟩
  | stored hnone => exact ⟨e, hnew hnone, rfl, hon⟩
  | linked => exact ⟨e, he, rfl, hon⟩
  | @touched _ k x x' hx htouched =>
    by_cases hsame : k = key
    · subst hsame
      obtain rfl : x = e := Option.some.inj (hx.symm.trans he)
      exact ⟨x', ArtifactCatalog.put_eq_some.mpr (.inl ⟨rfl, rfl⟩), htouched.object,
        Protection.on_touched hon hforce hkept hfresh he htouched⟩
    · exact ⟨e, ArtifactCatalog.put_eq_some.mpr (.inr ⟨hsame, he⟩), rfl, hon⟩
  | @buried _ k x x' _ hx hdue hburied =>
    refine ⟨e, ArtifactCatalog.put_eq_some.mpr (.inr ⟨?_, he⟩), rfl, hon⟩
    rintro rfl
    obtain rfl : x = e := Option.some.inj (hx.symm.trans he)
    exact Protection.not_collectable hon hforce hdue
  | checked => exact ⟨e, he, rfl, hon⟩
  | deleted => exact ⟨e, he, rfl, hon⟩
  | @removed _ _ c x hx htombstoned =>
    refine ⟨e, ?_, rfl, hon⟩
    rw [Std.ExtTreeMap.getElem?_erase, if_neg, he]
    intro hsame
    obtain rfl := Std.LawfulEqCmp.eq_of_compare hsame
    obtain rfl : x = e := Option.some.inj (hx.symm.trans he)
    exact Protection.not_collectable hon hforce (h.tombstoned _ _ hx htombstoned).1
  | ended => exact ⟨e, he, rfl, hon⟩

/-! ## Runs -/

variable [ContentDigest] {start t t' : Int}

/-- The steps of a run: random values are new, and the calls come in an order that the two
exceptions do not disturb. -/
def CatalogAction.Conforms (s : ArtifactCatalog) (a : CatalogAction) : Prop :=
  a.call.Fresh s ∧ a.call.Orderly s

theorem retains_of_run
    (hrun : catalogSystem.Run CatalogAction.Conforms s t s' t') (h : s.Retains t) :
    s'.Retains t' := by
  apply hrun.invariant _ h
  intro s t a h htime hconforms
  exact (h.mono htime).effect hconforms.1 hconforms.2 (perform_effect a.call)

/-- A protection that is neither given up nor expires keeps its entry and its blob. -/
theorem protected_of_run {p : Protection} (h : s.Retains t)
    (hrun : catalogSystem.Run (fun s a => a.Conforms s ∧ ¬ p.Released key a.call) s t s' t')
    (he : s.entries[key]? = some e) (hon : p.On e) (hforce : p.InForce t') :
    ∃ e' : CatalogEntry, s'.entries[key]? = some e' ∧ e'.object = e.object ∧ p.On e' := by
  induction hrun with
  | refl => exact ⟨e, he, rfl, hon⟩
  | @step s₁ t₁ a hbefore htime hallowed ih =>
    obtain ⟨e₁, he₁, hobject, hon₁⟩ := ih (hforce.mono htime)
    have hretains : s₁.Retains t₁ := by
      apply retains_of_run _ h
      apply hbefore.mono
      exact fun _ _ hallowed => hallowed.1
    obtain ⟨e₂, he₂, hobject₂, hon₂⟩ := protected_effect (hretains.mono htime) hallowed.1.1
      (perform_effect a.call) he₁ hon₁ hforce hallowed.2
    exact ⟨e₂, he₂, hobject₂.trans hobject, hon₂⟩

/-- In every run in which no hold is placed on a tombstone and no artifact takes over a blob that
an older collection of its identifier is about to check: a blob that is about to be deleted is
needed by no entry; the blob of an entry that is no tombstone is there; and a hold or lease that
is neither given up nor expired keeps its entry, and no collection is about to delete its blob. -/
theorem blobs_retained (hrun : catalogSystem.Run CatalogAction.Conforms .new start s t) :
    (∀ thread c later, s.running thread = some c → c.phase = .deleting → t ≤ later →
      ∀ (key : ArtifactKey) (e : CatalogEntry), s.entries[key]? = some e → e.path = c.path →
        e.Collectable later) ∧
    (∀ (key : ArtifactKey) (e : CatalogEntry), s.entries[key]? = some e →
      e.tombstoned = false → e.path ∈ s.blobs) ∧
    ∀ (p : Protection) (key : ArtifactKey) (e : CatalogEntry), s.entries[key]? = some e → p.On e →
      ∀ s' t', catalogSystem.Run (fun s a => a.Conforms s ∧ ¬ p.Released key a.call) s t s' t' →
        p.InForce t' →
          (∃ e' : CatalogEntry, s'.entries[key]? = some e' ∧ e'.object = e.object ∧ p.On e') ∧
          ∀ thread c, s'.running thread = some c → c.phase = .deleting → c.path ≠ e.path := by
  have h : s.Retains t := retains_of_run hrun retains_new
  refine ⟨?_, h.present, ?_⟩
  · intro thread c later hc hphase hlater key e he hpath
    have htombstoned := h.deleting thread c hc hphase key e he hpath
    exact (h.tombstoned key e he htombstoned).1.mono hlater
  · intro p key e he hon s' t' hrun' hforce
    obtain ⟨e', he', hobject, hon'⟩ := protected_of_run h hrun' he hon hforce
    refine ⟨⟨e', he', hobject, hon'⟩, ?_⟩
    intro thread c hc hphase hpath
    have h' : s'.Retains t' := by
      apply retains_of_run _ h
      apply hrun'.mono
      exact fun _ _ hallowed => hallowed.1
    have hsame : e'.path = c.path := by
      rw [hpath]
      exact congrArg StoredArtifact.relativePath hobject
    have htombstoned := h'.deleting thread c hc hphase key e' he' hsame
    exact Protection.not_collectable hon' hforce (h'.tombstoned key e' he' htombstoned).1

end Retention

/-! ## Samples -/

section Samples

variable [ContentDigest]

/-- The catalog after calls that all happen at instant 0. -/
def afterCalls (calls : List CatalogCall) : ArtifactCatalog :=
  (calls.map fun call => (⟨0, call⟩ : CatalogAction)).foldl catalogSystem.next .new

theorem run_afterCalls {allowed : ArtifactCatalog → CatalogAction → Prop}
    {calls : List CatalogCall} (hcalls : calls ≠ [])
    (h : catalogSystem.Permits allowed .new (calls.map (⟨0, ·⟩))) :
    catalogSystem.Run allowed .new 0 (afterCalls calls) 0 := by
  have htimes : ∀ a ∈ calls.map fun call => (⟨0, call⟩ : CatalogAction),
      catalogSystem.time a = 0 := by
    intro a ha
    obtain ⟨_, -, rfl⟩ := List.mem_map.mp ha
    rfl
  have hlast : (calls.map fun call => (⟨0, call⟩ : CatalogAction)).foldl
      (fun _ a => catalogSystem.time a) 0 = 0 := by
    induction calls using List.reverseRecOn with
    | nil => exact absurd rfl hcalls
    | append_singleton => simp [catalogSystem]
  have hrun := Clocked.Run.foldl (t := 0) (calls.map fun call => (⟨0, call⟩ : CatalogAction))
    (List.pairwise_map.mpr (List.pairwise_of_forall_mem_list fun a ha b hb => by
      rw [htimes a ha, htimes b hb])) (fun a ha => (htimes a ha).ge) h
  rwa [hlast] at hrun

def publishFirst (promotion : Promotion) : CatalogCall :=
  .publish (sampleManifest "first" [] first_underived) [] promotion

/-- An artifact is published and released, and a collection of it begins. -/
def collectionBegins : List CatalogCall :=
  [publishFirst (.stored ⟨"objects/00/a"⟩), .releaseReference "tenant" "task" "first",
    .gc 0 "tenant" "first" 1]

/-- A hold is placed on the tombstone, and the collection finds no other user of the blob. -/
def heldTombstone : List CatalogCall :=
  collectionBegins ++ [.placeLegalHold "tenant" "first" "hold", .gcResume 0 .done]

/-- Another artifact shares the blob, so a second collection of the first removes its entry only;
the first is published again with the same blob, the other one is released and becomes a
tombstone, and the collection that began first finds no other user of the blob. -/
def overtakenCollection : List CatalogCall :=
  [publishFirst (.stored ⟨"objects/00/a"⟩),
    .publish (sampleManifest "second" [] (List.forall_mem_nil _)) [] (.failed .unavailable),
    .releaseReference "tenant" "task" "first",
    .gc 0 "tenant" "first" 1,
    .gc 1 "tenant" "first" 1, .gcResume 1 .done, .gcResume 1 .done,
    publishFirst (.failed .unavailable),
    .releaseReference "tenant" "task" "second", .gc 2 "tenant" "second" 1,
    .gcResume 0 .done]

end Samples

attribute [local instance] checksumDigest

/-- The blob is about to be deleted. -/
def aboutToDelete (s : ArtifactCatalog) (thread : Nat) (path : String) : Bool :=
  (s.running thread).any fun c => c.phase = .deleting ∧ c.path = path

/-- Without the hold, the only entry with the blob is collectable. -/
theorem collectionBegins_retained :
    ∃ s, catalogSystem.Run CatalogAction.Conforms .new 0 s 0 ∧
      aboutToDelete s 0 "objects/00/a" = true ∧
      ∀ (key : ArtifactKey) (e : CatalogEntry), s.entries[key]? = some e →
        e.path = "objects/00/a" → e.Collectable 0 := by
  have hrun : catalogSystem.Run CatalogAction.Conforms .new 0
      (afterCalls (collectionBegins ++ [.gcResume 0 .done])) 0 := by
    apply run_afterCalls (by simp)
    simp [Clocked.Permits, CatalogAction.Conforms, CatalogCall.Fresh, CatalogCall.Orderly,
      collectionBegins, publishFirst, ArtifactCatalog.new]
  have hdelete : aboutToDelete (afterCalls (collectionBegins ++ [.gcResume 0 .done])) 0
      "objects/00/a" = true := by decide
  refine ⟨_, hrun, hdelete, ?_⟩
  obtain ⟨c, hc, hphase⟩ := (Option.any_eq_true _ _).mp hdelete
  obtain ⟨hphase, hpath⟩ := of_decide_eq_true hphase
  intro key e he hsame
  exact (blobs_retained hrun).1 0 c 0 hc hphase le_rfl key e he (hsame.trans hpath.symm)

/-- A blob is about to be deleted although a hold was placed on its entry, and although its
entry is referenced. -/
theorem needed_blob_deleted :
    (∃ s, catalogSystem.Run (fun s a => a.call.Fresh s) .new 0 s 0 ∧
      aboutToDelete s 0 "objects/00/a" = true ∧
      ((s.entries[(⟨"tenant", "first"⟩ : ArtifactKey)]?).any fun e =>
        e.path = "objects/00/a" ∧ "hold" ∈ e.holds) = true) ∧
    ∃ s, catalogSystem.Run (fun s a => a.call.Fresh s) .new 0 s 0 ∧
      aboutToDelete s 0 "objects/00/a" = true ∧
      ((s.entries[(⟨"tenant", "first"⟩ : ArtifactKey)]?).any fun e =>
        e.path = "objects/00/a" ∧ e.referenceLive = true) = true := by
  have hheld : catalogSystem.Run (fun s a => a.call.Fresh s) .new 0 (afterCalls heldTombstone) 0 := by
    apply run_afterCalls (by simp [heldTombstone])
    simp [Clocked.Permits, CatalogCall.Fresh, heldTombstone, collectionBegins, publishFirst,
      ArtifactCatalog.new]
  have hovertaken : catalogSystem.Run (fun s a => a.call.Fresh s) .new 0
      (afterCalls overtakenCollection) 0 := by
    apply run_afterCalls (by simp [overtakenCollection])
    simp [Clocked.Permits, CatalogCall.Fresh, overtakenCollection, publishFirst,
      ArtifactCatalog.new]
  exact ⟨⟨_, hheld, by decide, by decide⟩,
    ⟨_, hovertaken, by decide, by decide⟩⟩

end SmeshDurable.Catalog
