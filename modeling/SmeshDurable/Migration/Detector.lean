import SmeshDurable.Migration.Inline

/-!
# The two detectors of inline artifacts

The executor looks for inline artifacts with a walk over the parsed document, the database with a
path query at startup. The walk takes objects with a string for their id and an array of parts,
stays out of projections, and also stops at parts it cannot read. The path query asks for keys
only, everywhere, and in lax mode an array answers for its elements. They agree on a document
that holds an ordinary inline artifact, and otherwise exactly when it holds something only the
query takes and something only the walk takes, or neither.
-/

namespace SmeshDurable.Migration

open Json Transaction Catalog LaxPath

/-! ## The query at startup -/

/-- One of the parts holds a `text`, `raw` or `data`. -/
def holdsBytes (parts : List Json) : Bool :=
  (parts.flatMap elements).any fun part => has "text" part || has "raw" part || has "data" part

/-- There is a value at `metadata.smeshArtifact.schema`. -/
def namesSchema (v : Json) : Bool :=
  !(((key "metadata" v).flatMap (key "smeshArtifact")).flatMap (key "schema")).isEmpty

/-- What the path query asks of one value. -/
def inlineFilter (v : Json) : Bool :=
  has "artifactId" v && holdsBytes ((key "parts" v).flatMap elements) && !namesSchema v

def artifactJsonHasInline (document : Json) : Bool := anywhere inlineFilter document

/-- A row of the journal of migrations. -/
structure PlanRecord where
  planId : String
  completed : Bool
  hasSeals : Bool

def artifactInlineMigrationRequired (documents : List Json) (plans : List PlanRecord)
    (planId : String) : Bool :=
  if planId ≠ "" then
    !plans.any fun plan => plan.planId == planId && plan.completed && plan.hasSeals
  else documents.any artifactJsonHasInline || plans.any fun plan => !plan.completed

/-! ## Where the walk stops -/

/-- A part that holds an address as text and no bytes. -/
def UrlPart (part : Json) : Prop :=
  ∃ object, part = .obj object ∧ PartKey.present object = [.url] ∧
    (stringField object "url").isSome

/-- An artifact that is the projection of a manifest; the walk goes no deeper. -/
def Projected (v : Json) : Prop :=
  ∃ object, v = .obj object ∧ (artifactShape object).isSome ∧ isProjection object = true

/-- An artifact that is no projection and does not only hold addresses. -/
def Taken (v : Json) : Prop :=
  ∃ object artifactId parts, v = .obj object ∧ artifactShape object = some (artifactId, parts) ∧
    isProjection object = false ∧ ∃ part ∈ parts, ¬ UrlPart part

theorem readPart_eq_url {part : Json} : (∃ address, readPart part = .ok (.url address)) ↔
    UrlPart part := by
  constructor
  · rintro ⟨address, h⟩
    cases part with
    | obj object =>
      simp only [readPart] at h
      split at h
      case h_4 hpresent =>
        simp only [bind_eq_ok, expect_eq_ok] at h
        obtain ⟨text, htext, -⟩ := h
        exact ⟨object, rfl, hpresent, Option.isSome_of_eq_some htext⟩
      all_goals simp at h
    | _ => simp [readPart] at h
  · rintro ⟨object, rfl, hpresent, hurl⟩
    obtain ⟨address, haddress⟩ := Option.isSome_iff_exists.mp hurl
    exact ⟨address, by simp [readPart, hpresent, haddress]⟩

/-- Nothing inline is read of the parts exactly when all of them are addresses. -/
theorem readParts_eq_nil {parts : List Json} :
    (∃ urls, readParts parts = .ok ([], urls)) ↔ ∀ part ∈ parts, UrlPart part := by
  induction parts with
  | nil => simp [readParts]
  | cons part rest ih =>
    rw [List.forall_mem_cons, ← ih, ← readPart_eq_url]
    constructor
    · rintro ⟨urls, h⟩
      simp only [readParts, bind_eq_ok] at h
      obtain ⟨content, hcontent, ⟨inline, more⟩, hrest, h⟩ := h
      cases content with
      | inline part => simp at h
      | url address =>
        simp only [Except.ok.injEq, Prod.mk.injEq] at h
        exact ⟨⟨address, hcontent⟩, more, by rw [hrest, h.1]⟩
    · rintro ⟨⟨address, hcontent⟩, urls, hrest⟩
      exact ⟨address :: urls, by simp [readParts, hcontent, hrest]⟩

theorem extractItems_eq_nil {items : List Json} :
    extractItems items = .ok [] ↔ ∀ item ∈ items, extractInlineArtifacts item = .ok [] := by
  induction items with
  | nil => simp [extractItems]
  | cons item rest ih =>
    rw [List.forall_mem_cons, ← ih]
    simp only [extractItems, bind_eq_ok, Except.ok.injEq, List.append_eq_nil_iff]
    constructor
    · rintro ⟨found, hfound, more, hmore, rfl, rfl⟩
      exact ⟨hfound, hmore⟩
    · rintro ⟨hfound, hmore⟩
      exact ⟨[], hfound, [], hmore, rfl, rfl⟩

theorem extractFields_eq (object : List (String × Json)) :
    extractFields object = extractItems (object.map Prod.snd) := by
  induction object with
  | nil => rfl
  | cons field rest ih => rw [extractFields, ih, List.map_cons, extractItems]

/-- One step of the walk: it finds nothing in a projection, and nothing in another value exactly
when the value is not taken and nothing is found directly inside. -/
theorem extract_eq_nil_step (v : Json) : extractInlineArtifacts v = .ok [] ↔
    Projected v ∨ (¬ Taken v ∧ ∀ c ∈ v.children, extractInlineArtifacts c = .ok []) := by
  cases v with
  | obj object =>
    rw [children_obj, ← extractItems_eq_nil, ← extractFields_eq]
    simp only [extractInlineArtifacts, Projected, Taken, Json.obj.injEq, exists_and_left,
      exists_eq_left']
    cases hshape : artifactShape object with
    | none => simp
    | some shape =>
      obtain ⟨artifactId, parts⟩ := shape
      cases hprojection : isProjection object with
      | true => simp
      | false =>
        have hparts := @readParts_eq_nil parts
        simp only [Bool.false_eq_true, if_false, and_false, false_or, Option.isSome_some,
          Option.some.injEq, Prod.mk.injEq, true_and, not_exists, not_and, not_not]
        cases hread : readParts parts with
        | error e =>
          have hnot : ¬ ∀ part ∈ parts, UrlPart part := by
            rw [← hparts, hread]
            simp
          simpa using fun h => absurd h hnot
        | ok read =>
          obtain ⟨inline, urls⟩ := read
          rw [hread] at hparts
          cases inline with
          | nil =>
            have hall : ∀ part ∈ parts, UrlPart part := hparts.mp ⟨urls, rfl⟩
            simpa [ok_bind] using fun _ => hall
          | cons part inline =>
            have hnot : ¬ ∀ part ∈ parts, UrlPart part := by
              rw [← hparts]
              simp
            simpa [ok_bind] using fun h => absurd h hnot
  | arr items =>
    rw [extractInlineArtifacts, extractItems_eq_nil]
    simp [Projected, Taken]
  | _ => simp [extractInlineArtifacts, Projected, Taken, children]

theorem not_taken_of_projected {v : Json} (h : Projected v) : ¬ Taken v := by
  obtain ⟨object, rfl, -, hprojection⟩ := h
  rintro ⟨_, _, _, h, -, hnot, -⟩
  cases h
  rw [hprojection] at hnot
  cases hnot

/-- The walk finds something, or fails, exactly when it comes to an artifact it takes. -/
theorem extract_ne_nil_iff (document : Json) : extractInlineArtifacts document ≠ .ok [] ↔
    ∃ v, Within Projected document v ∧ Taken v := by
  induction document using children_induction with
  | step v ih =>
    rw [ne_eq, extract_eq_nil_step, not_or, not_and_or, not_not]
    constructor
    · rintro ⟨hgo, htaken | hinside⟩
      · exact ⟨v, .self v, htaken⟩
      · obtain ⟨c, hc, hfound⟩ := by simpa using hinside
        obtain ⟨w, hw, htaken⟩ := (ih c hc).mp hfound
        exact ⟨w, .inside hgo hc hw, htaken⟩
    · rintro ⟨w, hw, htaken⟩
      obtain rfl | ⟨hgo, c, hc, hw⟩ := within_iff.mp hw
      · exact ⟨fun h => not_taken_of_projected h htaken, .inl htaken⟩
      · exact ⟨hgo, .inr fun h => (ih c hc).mpr ⟨w, hw, htaken⟩ (h c hc)⟩

/-! ## Agreement -/

/-- An artifact as both detectors know it: an id that is a string, an array of parts one of which
holds a `text`, `raw` or `data`, and no schema among the metadata. -/
def Ordinary (v : Json) : Prop :=
  ∃ object artifactId parts, v = .obj object ∧ artifactShape object = some (artifactId, parts) ∧
    holdsBytes parts = true ∧ namesSchema v = false

/-- A value that only the query takes: its id is no string, its parts are no array or its keys
are spread over the elements of an array, or it lies inside a projection. -/
def QueryOnly (document v : Json) : Prop :=
  v ∈ (nodes document).flatMap elements ∧ inlineFilter v = true ∧
    ((∀ object, v = .obj object → artifactShape object = none) ∨
      ¬ Within Projected document v)

/-- An artifact that only the walk takes: none of its parts holds a `text`, `raw` or `data` and
not all are addresses, or its metadata name the schema of something else. -/
def WalkOnly (v : Json) : Prop :=
  ∃ object artifactId parts, v = .obj object ∧ artifactShape object = some (artifactId, parts) ∧
    isProjection object = false ∧ (∃ part ∈ parts, ¬ UrlPart part) ∧
    (holdsBytes parts = false ∨ namesSchema v = true)

/-- The document holds an ordinary inline artifact outside of projections, or it holds a value
that only the query takes just in case it holds one that only the walk takes. -/
def DetectorsConcur (document : Json) : Prop :=
  (∃ v, Within Projected document v ∧ Ordinary v) ∨
    ((∃ v, QueryOnly document v) ↔ ∃ v, Within Projected document v ∧ WalkOnly v)

theorem artifactShape_eq_some {object : List (String × Json)} {artifactId : String}
    {parts : List Json} : artifactShape object = some (artifactId, parts) ↔
      object.lookup "artifactId" = some (.str artifactId) ∧
        object.lookup "parts" = some (.arr parts) := by
  unfold artifactShape stringField
  cases hid : object.lookup "artifactId" with
  | none => simp
  | some id =>
    cases hparts : object.lookup "parts" with
    | none => simp
    | some value => cases id <;> cases value <;> simp [asStr?]

/-- Of an object with the shape of an artifact the query asks for bytes and for no schema. -/
theorem inlineFilter_obj {object : List (String × Json)} {artifactId : String} {parts : List Json}
    (hshape : artifactShape object = some (artifactId, parts)) :
    inlineFilter (.obj object) = (holdsBytes parts && !namesSchema (.obj object)) := by
  obtain ⟨hid, hparts⟩ := artifactShape_eq_some.mp hshape
  rw [inlineFilter, has_obj, key_obj, hid, hparts]
  simp [elements]

/-- A projection names a schema. -/
theorem namesSchema_of_isProjection {object : List (String × Json)}
    (h : isProjection object = true) : namesSchema (.obj object) = true := by
  unfold isProjection at h
  cases hmetadata : object.lookup "metadata" with
  | none => simp [hmetadata] at h
  | some metadata =>
    cases hartifact : metadata.get? "smeshArtifact" with
    | none => simp [hmetadata, hartifact] at h
    | some artifact =>
      cases hschema : artifact.get? "schema" with
      | none => simp [hmetadata, hartifact, hschema] at h
      | some schema =>
        cases metadata <;> simp only [get?, reduceCtorEq] at hartifact
        cases artifact <;> simp only [get?, reduceCtorEq] at hschema
        simp [namesSchema, hmetadata, hartifact, hschema]

/-- A part that is an address holds no bytes. -/
theorem UrlPart.holdsBytes {part : Json} (h : UrlPart part) : holdsBytes [part] = false := by
  obtain ⟨object, rfl, hpresent, -⟩ := h
  have habsent : ∀ key ∈ [PartKey.text, .raw, .data], (object.lookup key.name).isSome = false := by
    intro key hkey
    by_contra hsome
    have hmem : key ∈ PartKey.present object := by
      refine List.mem_filter.mpr ⟨?_, by simpa using hsome⟩
      simp only [List.mem_cons, List.not_mem_nil, or_false] at hkey
      obtain rfl | rfl | rfl := hkey <;> simp [PartKey.all]
    rw [hpresent, List.mem_singleton] at hmem
    subst hmem
    simp at hkey
  have htext := habsent .text (by simp)
  have hraw := habsent .raw (by simp)
  have hdata := habsent .data (by simp)
  simp only [PartKey.name] at htext hraw hdata
  simp [Migration.holdsBytes, has_obj, htext, hraw, hdata]

theorem exists_not_urlPart {parts : List Json} (h : holdsBytes parts = true) :
    ∃ part ∈ parts, ¬ UrlPart part := by
  by_contra hnone
  push Not at hnone
  simp only [holdsBytes, List.any_eq_true, List.mem_flatMap] at h
  obtain ⟨value, ⟨part, hpart, hvalue⟩, hholds⟩ := h
  have hnot := (hnone part hpart).holdsBytes
  simp only [holdsBytes, List.flatMap_cons, List.flatMap_nil, List.append_nil,
    List.any_eq_false] at hnot
  exact hnot value hvalue hholds

/-- An artifact the walk takes is ordinary exactly when the query takes it. -/
theorem ordinary_iff_of_taken {v : Json} (h : Taken v) : Ordinary v ↔ inlineFilter v = true := by
  obtain ⟨object, artifactId, parts, rfl, hshape, -, -⟩ := h
  rw [inlineFilter_obj hshape]
  simp [Ordinary, hshape]

theorem Ordinary.taken {v : Json} (h : Ordinary v) : Taken v := by
  obtain ⟨object, artifactId, parts, rfl, hshape, hholds, hschema⟩ := h
  refine ⟨object, artifactId, parts, rfl, hshape, ?_, exists_not_urlPart hholds⟩
  by_contra hprojection
  rw [namesSchema_of_isProjection (by simpa using hprojection)] at hschema
  cases hschema

theorem walkOnly_iff {v : Json} : WalkOnly v ↔ Taken v ∧ inlineFilter v = false := by
  constructor
  · rintro ⟨object, artifactId, parts, rfl, hshape, hprojection, hpart, h⟩
    refine ⟨⟨object, artifactId, parts, rfl, hshape, hprojection, hpart⟩, ?_⟩
    rw [inlineFilter_obj hshape]
    obtain h | h := h <;> simp [h]
  · rintro ⟨⟨object, artifactId, parts, rfl, hshape, hprojection, hpart⟩, h⟩
    rw [inlineFilter_obj hshape, Bool.and_eq_false_iff, Bool.not_eq_false'] at h
    exact ⟨object, artifactId, parts, rfl, hshape, hprojection, hpart, h⟩

/-- An ordinary artifact outside of projections is found by both. -/
theorem both_of_ordinary {document v : Json} (hv : Within Projected document v)
    (h : Ordinary v) :
    artifactJsonHasInline document = true ∧ extractInlineArtifacts document ≠ .ok [] := by
  refine ⟨?_, (extract_ne_nil_iff document).mpr ⟨v, hv, h.taken⟩⟩
  have hfilter := (ordinary_iff_of_taken h.taken).mp h
  obtain ⟨object, _, _, rfl, -⟩ := h
  exact anywhere_eq_true.mpr ⟨_, obj_mem_asked hv.mem_nodes, hfilter⟩

/-- Without an ordinary artifact the query finds what only the query takes. -/
theorem hasInline_iff_queryOnly {document : Json}
    (hnone : ¬ ∃ v, Within Projected document v ∧ Ordinary v) :
    artifactJsonHasInline document = true ↔ ∃ v, QueryOnly document v := by
  rw [artifactJsonHasInline, anywhere_eq_true]
  constructor
  · rintro ⟨v, hv, hfilter⟩
    refine ⟨v, hv, hfilter, ?_⟩
    by_contra hboth
    push Not at hboth
    obtain ⟨⟨object, rfl, hsome⟩, hwithin⟩ := hboth
    obtain ⟨⟨artifactId, parts⟩, hshape⟩ := Option.ne_none_iff_exists'.mp hsome
    rw [inlineFilter_obj hshape, Bool.and_eq_true, Bool.not_eq_true'] at hfilter
    exact hnone ⟨_, hwithin, object, artifactId, parts, rfl, hshape, hfilter.1, hfilter.2⟩
  · rintro ⟨v, hv, hfilter, -⟩
    exact ⟨v, hv, hfilter⟩

/-- Without an ordinary artifact the walk finds what only the walk takes. -/
theorem extract_ne_nil_iff_walkOnly {document : Json}
    (hnone : ¬ ∃ v, Within Projected document v ∧ Ordinary v) :
    extractInlineArtifacts document ≠ .ok [] ↔ ∃ v, Within Projected document v ∧ WalkOnly v := by
  rw [extract_ne_nil_iff]
  constructor
  · rintro ⟨v, hv, htaken⟩
    refine ⟨v, hv, walkOnly_iff.mpr ⟨htaken, ?_⟩⟩
    by_contra hfilter
    exact hnone ⟨v, hv, (ordinary_iff_of_taken htaken).mpr (by simpa using hfilter)⟩
  · rintro ⟨v, hv, hwalk⟩
    exact ⟨v, hv, (walkOnly_iff.mp hwalk).1⟩

theorem agree_iff_concur (document : Json) :
    (artifactJsonHasInline document = true ↔ extractInlineArtifacts document ≠ .ok []) ↔
      DetectorsConcur document := by
  by_cases hordinary : ∃ v, Within Projected document v ∧ Ordinary v
  · obtain ⟨v, hv, h⟩ := hordinary
    obtain ⟨hquery, hwalk⟩ := both_of_ordinary hv h
    exact iff_of_true (iff_of_true hquery hwalk) (.inl ⟨v, hv, h⟩)
  · rw [hasInline_iff_queryOnly hordinary, extract_ne_nil_iff_walkOnly hordinary,
      DetectorsConcur, or_iff_right hordinary]

/-- The detectors agree on a document exactly when they concur on what it holds; on a store of
such documents without unfinished plans, startup asks for a migration just in case the walk finds
something. -/
theorem detectors_agree_iff (documents : List Json) (plans : List PlanRecord) :
    (∀ document, (artifactJsonHasInline document = true ↔
        extractInlineArtifacts document ≠ .ok []) ↔ DetectorsConcur document) ∧
      ((∀ document ∈ documents, DetectorsConcur document) → (∀ plan ∈ plans, plan.completed) →
        (artifactInlineMigrationRequired documents plans "" = true ↔
          ∃ document ∈ documents, extractInlineArtifacts document ≠ .ok [])) := by
  refine ⟨agree_iff_concur, fun hconcur hplans => ?_⟩
  have hfinished : (plans.any fun plan => !plan.completed) = false := by
    rw [List.any_eq_false]
    intro plan hplan
    simpa using hplans plan hplan
  rw [artifactInlineMigrationRequired, if_neg (by simp), hfinished, Bool.or_false,
    List.any_eq_true]
  constructor
  · rintro ⟨document, hdocument, h⟩
    exact ⟨document, hdocument, ((agree_iff_concur document).mpr (hconcur _ hdocument)).mp h⟩
  · rintro ⟨document, hdocument, h⟩
    exact ⟨document, hdocument, ((agree_iff_concur document).mpr (hconcur _ hdocument)).mpr h⟩

/-- A document with one text part in an artifact of the given id. -/
def sampleArtifact (artifactId : Json) (metadata : List (String × Json)) : Json :=
  .obj [("artifactId", artifactId), ("metadata", .obj metadata),
    ("parts", .arr [.obj [("text", .str "x")]])]

/-- An ordinary artifact: startup asks for its migration. -/
theorem ordinary_detected : (∀ document ∈ [sampleArtifact (.str "a") []], DetectorsConcur document) ∧
    (artifactInlineMigrationRequired [sampleArtifact (.str "a") []] [] "" = true ↔
      ∃ document ∈ [sampleArtifact (.str "a") []], extractInlineArtifacts document ≠ .ok []) := by
  have hconcur : ∀ document ∈ [sampleArtifact (.str "a") []], DetectorsConcur document := by
    rw [List.forall_mem_singleton]
    exact .inl ⟨_, .self _, _, "a", [.obj [("text", .str "x")]], rfl, by decide, by decide,
      by decide⟩
  exact ⟨hconcur, (detectors_agree_iff _ []).2 hconcur (by simp)⟩

/-- A number for an id: the executor finds nothing to migrate and startup asks for a migration.
A schema of something else: the executor finds an artifact that startup does not see. -/
theorem detectors_disagree :
    (extractInlineArtifacts (sampleArtifact (.num "1") []) = .ok [] ∧
      artifactInlineMigrationRequired [sampleArtifact (.num "1") []] [] "" = true) ∧
    (extractInlineArtifacts
        (sampleArtifact (.str "a") [("smeshArtifact", .obj [("schema", .str "v0")])]) ≠ .ok [] ∧
      artifactInlineMigrationRequired
        [sampleArtifact (.str "a") [("smeshArtifact", .obj [("schema", .str "v0")])]] [] ""
        = false) := by
  refine ⟨⟨rfl, by decide⟩, ?_, by decide⟩
  intro h
  cases h

end SmeshDurable.Migration
