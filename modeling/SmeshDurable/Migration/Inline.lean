import SmeshDurable.Library.JsonPath
import SmeshDurable.Library.TextLines
import SmeshDurable.Artifact.Manifest
import SmeshDurable.Driver.Outcome

/-!
# Inline artifacts in stored documents

Before artifacts had an authority of their own, stored documents held their bytes inline.
`extractInlineArtifacts` finds such artifacts in a document: objects with an `artifactId` and
`parts` that are not yet projections of a manifest. It does not look inside what it finds, nor
inside projections. `rewriteAll` puts a projection in the place of every object with the
artifact's id, whether or not the walk found it.
-/

namespace SmeshDurable.Migration

open Json Transaction TextLines Catalog

inductive InlineArtifactKind where
  | text
  | raw
  | data
deriving DecidableEq

structure InlineArtifactPart where
  kind : InlineArtifactKind
  bytes : List UInt8
  mediaType : Option String
  filename : Option String
deriving DecidableEq

structure InlineArtifact where
  artifactId : String
  name : Option String
  description : Option String
  parts : List InlineArtifactPart
  inertUrls : List String
deriving DecidableEq

/-- The bytes of a document with the entries of its objects in order. -/
def canonicalJsonBytes (value : Json) : List UInt8 := bytes (render (canonical value))

/-! ## Finding -/

/-- The keys of which a part holds exactly one. -/
inductive PartKey where
  | text
  | raw
  | data
  | url
deriving DecidableEq

namespace PartKey

def all : List PartKey := [.text, .raw, .data, .url]

def name : PartKey → String
  | .text => "text"
  | .raw => "raw"
  | .data => "data"
  | .url => "url"

/-- The keys an object holds. -/
def present (object : List (String × Json)) : List PartKey :=
  all.filter fun key => (object.lookup key.name).isSome

end PartKey

/-- What is read of a part: bytes, or the address of bytes kept elsewhere. -/
inductive PartContent where
  | inline (part : InlineArtifactPart)
  | url (address : String)
deriving DecidableEq

def stringField (object : List (String × Json)) (key : String) : Option String :=
  (object.lookup key).bind asStr?

def readPart : Json → Except ArtifactStoreError PartContent
  | .obj object =>
    let part := fun kind bytes => PartContent.inline
      ⟨kind, bytes, stringField object "mediaType", stringField object "filename"⟩
    match PartKey.present object with
    | [.text] => do
        let text ← expect (stringField object "text") .invalid
        .ok (part .text (bytes text))
    | [.raw] => do
        let text ← expect (stringField object "raw") .invalid
        let decoded ← expect (decodeBase64 text.toList) .invalid
        .ok (part .raw decoded)
    | [.data] => do
        let value ← expect (object.lookup "data") .invalid
        .ok (part .data (canonicalJsonBytes value))
    | [.url] => do
        let address ← expect (stringField object "url") .invalid
        .ok (.url address)
    | _ => .error .invalid
  | _ => .error .invalid

/-- The inline parts and the addresses among the parts of an artifact. -/
def readParts : List Json → Except ArtifactStoreError (List InlineArtifactPart × List String)
  | [] => .ok ([], [])
  | part :: rest => do
      let content ← readPart part
      let (inline, urls) ← readParts rest
      match content with
      | .inline part => .ok (part :: inline, urls)
      | .url address => .ok (inline, address :: urls)

def projectionSchema : String := "smesh-artifact-projection/v1"

/-- The object says of itself that it is the projection of a manifest. -/
def isProjection (object : List (String × Json)) : Bool :=
  ((((object.lookup "metadata").bind (get? "smeshArtifact")).bind (get? "schema")).bind asStr?)
    == some projectionSchema

/-- The id and the parts of an object that has the shape of an artifact. -/
def artifactShape (object : List (String × Json)) : Option (String × List Json) :=
  match stringField object "artifactId", object.lookup "parts" with
  | some artifactId, some (.arr parts) => some (artifactId, parts)
  | _, _ => none

mutual

/-- The inline artifacts of a value, in the order of the walk. -/
def extractInlineArtifacts : Json → Except ArtifactStoreError (List InlineArtifact)
  | .obj object =>
    match artifactShape object with
    | some (artifactId, parts) =>
      if isProjection object then .ok []
      else do
        let (inline, urls) ← readParts parts
        if inline.isEmpty then extractFields object
        else do
          validateArtifactId artifactId
          .ok [⟨artifactId, stringField object "name", stringField object "description",
            inline, urls⟩]
    | none => extractFields object
  | .arr items => extractItems items
  | _ => .ok []

def extractItems : List Json → Except ArtifactStoreError (List InlineArtifact)
  | [] => .ok []
  | item :: rest => do
      let found ← extractInlineArtifacts item
      let more ← extractItems rest
      .ok (found ++ more)

def extractFields : List (String × Json) → Except ArtifactStoreError (List InlineArtifact)
  | [] => .ok []
  | (_, value) :: rest => do
      let found ← extractInlineArtifacts value
      let more ← extractFields rest
      .ok (found ++ more)

end

/-! ## Rewriting -/

mutual

/-- Put the projection in the place of every object with the id and an array of parts, and count
the places. -/
def rewriteVisit (artifactId : String) (projection : Json) : Json → Json × Nat
  | .obj object =>
    if (artifactShape object).map Prod.fst = some artifactId then (projection, 1)
    else
      let (fields, changed) := rewriteFields artifactId projection object
      (.obj fields, changed)
  | .arr items =>
    let (items, changed) := rewriteItems artifactId projection items
    (.arr items, changed)
  | v => (v, 0)

def rewriteItems (artifactId : String) (projection : Json) : List Json → List Json × Nat
  | [] => ([], 0)
  | item :: rest =>
    let (item, changed) := rewriteVisit artifactId projection item
    let (rest, more) := rewriteItems artifactId projection rest
    (item :: rest, changed + more)

def rewriteFields (artifactId : String) (projection : Json) :
    List (String × Json) → List (String × Json) × Nat
  | [] => ([], 0)
  | (key, value) :: rest =>
    let (value, changed) := rewriteVisit artifactId projection value
    let (rest, more) := rewriteFields artifactId projection rest
    ((key, value) :: rest, changed + more)

end

def InlineArtifact.rewriteAll (artifact : InlineArtifact) (value projection : Json) :
    Except ArtifactStoreError (Json × Nat) :=
  let (value, changed) := rewriteVisit artifact.artifactId projection value
  if changed = 0 then .error .conflict else .ok (value, changed)

end SmeshDurable.Migration
