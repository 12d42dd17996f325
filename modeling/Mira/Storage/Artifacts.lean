import Mira.Core.Contracts
import Mira.Digest.Sha256
import Mira.Library.Extraction
import Mira.Library.KeyedTable
import Mira.Library.Lines

/-!
The artifact stores: the store in memory, and the store in files over it with its manifest, its
objects and its tombstones. File operations succeed and the capacity is ample, so neither is
checked here. The path of an object is its digest, and the name of a tombstone its id.
-/

namespace Mira.Storage
open Mira Bytes

def storeError (code : ErrorCode) (message : String) (retryable : Bool := false) : Error :=
  { code := code, domain := "mira.artifact_store", safeMessage := message, retryable := retryable }

inductive ArtifactEncoding
  | raw | utf8 | binary
  deriving DecidableEq

inductive Sensitivity
  | public_ | internal | sensitive | secret
  deriving DecidableEq

def ArtifactEncoding.value : ArtifactEncoding → Nat
  | .raw => 0
  | .utf8 => 1
  | .binary => 2

def ArtifactEncoding.ofValue : Nat → Option ArtifactEncoding
  | 0 => some .raw
  | 1 => some .utf8
  | 2 => some .binary
  | _ => none

def Sensitivity.value : Sensitivity → Nat
  | .public_ => 0
  | .internal => 1
  | .sensitive => 2
  | .secret => 3

def Sensitivity.ofValue : Nat → Option Sensitivity
  | 0 => some .public_
  | 1 => some .internal
  | 2 => some .sensitive
  | 3 => some .secret
  | _ => none

/-- The version of the schema of a content, two words of 16 bits. -/
structure ContentSchema where
  major : UInt16 := 1
  minor : UInt16 := 0
  deriving DecidableEq

/-- What a commit says of its bytes. -/
structure ArtifactMetadata where
  mediaType : Bytes := ascii "application/octet-stream"
  encoding : ArtifactEncoding := .binary
  sensitivity : Sensitivity := .internal
  contentSchema : ContentSchema := {}
  deriving DecidableEq

structure ArtifactDescriptor where
  id : ArtifactId
  digest : Sha256Digest
  byteSize : Nat
  metadata : ArtifactMetadata

structure ArtifactWriteSpec where
  metadata : ArtifactMetadata := {}
  maxBytes : UInt64 := 16 * 1024 * 1024

/-- A writer holds no more than it may. -/
structure ArtifactWriter where
  spec : ArtifactWriteSpec
  bytes : Bytes
  bounded : bytes.length ≤ spec.maxBytes.toNat

def ArtifactWriter.write (writer : ArtifactWriter) (data : Bytes) : Result ArtifactWriter :=
  if fits : data.length ≤ writer.spec.maxBytes.toNat - writer.bytes.length then
    .ok
      { writer with
        bytes := writer.bytes ++ data
        bounded := by
          have := writer.bounded
          rw [List.length_append]
          omega }
  else .error (storeError .resourceExhausted "artifact exceeds configured size limit")

def idFromDigest (digest : Sha256Digest) : ArtifactId :=
  ⟨⟨digest.bytes.take 16, by rw [List.length_take, digest.size]; rfl⟩⟩

def ArtifactWriter.planned (writer : ArtifactWriter) : ArtifactDescriptor :=
  { id := idFromDigest (digestString writer.bytes)
    digest := digestString writer.bytes
    byteSize := writer.bytes.length
    metadata := writer.spec.metadata }

structure ArtifactRef where
  id : ArtifactId
  digest : Sha256Digest
  byteSize : UInt64 := 0
  mediaType : Bytes := []
  sensitivity : Sensitivity := .internal
  deriving DecidableEq

/-- The bytes are gone when the record is erased. -/
structure ArtifactRecord where
  descriptor : ArtifactDescriptor
  bytes : Bytes
  erased : Bool := false

structure MemoryArtifactStore where
  records : KeyedTable ArtifactId ArtifactRecord := .empty

namespace MemoryArtifactStore

def begin (spec : ArtifactWriteSpec) : Result ArtifactWriter :=
  if spec.maxBytes = 0 then
    .error (storeError .invalidArgument "artifact max_bytes must be positive")
  else .ok ⟨spec, [], Nat.zero_le _⟩

def commit (store : MemoryArtifactStore) (writer : ArtifactWriter) :
    Result (ArtifactDescriptor × MemoryArtifactStore) :=
  let fresh : Result (ArtifactDescriptor × MemoryArtifactStore) :=
    .ok (writer.planned,
      ⟨store.records.assign writer.planned.id ⟨writer.planned, writer.bytes, false⟩⟩)
  match store.records.find? writer.planned.id with
  | none => fresh
  | some existing =>
      if existing.erased then fresh
      else if existing.descriptor.digest = writer.planned.digest ∧
          existing.bytes.length = writer.bytes.length then
        .ok (existing.descriptor, store)
      else .error (storeError .dataLoss "artifact ID collision with different content")

def erase (store : MemoryArtifactStore) (id : ArtifactId) : Result MemoryArtifactStore :=
  match store.records.find? id with
  | none => .error (storeError .notFound "artifact is not available")
  | some record =>
      .ok (if record.erased then store
        else ⟨store.records.assign id { record with bytes := [], erased := true }⟩)

end MemoryArtifactStore

structure ArtifactDirectory where
  manifest : Bytes := []
  objects : KeyedTable Sha256Digest Bytes := .empty
  tombstones : List Bytes := []

def manifestLine (descriptor : ArtifactDescriptor) : Bytes :=
  descriptor.id.toString ++ 32 :: (descriptor.digest.toString ++ 32 ::
    (decimal descriptor.byteSize ++ 32 :: (decimal descriptor.metadata.encoding.value ++ 32 ::
      (decimal descriptor.metadata.sensitivity.value ++ 32 ::
        (decimal descriptor.metadata.contentSchema.major.toNat ++ 32 ::
          (decimal descriptor.metadata.contentSchema.minor.toNat ++ 32 ::
            Extraction.quote descriptor.metadata.mediaType))))))

def parseLine (line : Bytes) : Option ArtifactDescriptor := do
  let (idText, line) ← Extraction.word line
  let (digestText, line) ← Extraction.word line
  let (byteSize, line) ← Extraction.unsigned (2 ^ 64) line
  let (encoding, line) ← Extraction.unsigned (2 ^ 32) line
  let (sensitivity, line) ← Extraction.unsigned (2 ^ 32) line
  let (major, line) ← Extraction.unsigned (2 ^ 16) line
  let (minor, line) ← Extraction.unsigned (2 ^ 16) line
  let (mediaType, _) ← Extraction.quoted line
  let id ← StrongId.parse idText
  let digest ← digestFromHex digestText
  let encoding ← ArtifactEncoding.ofValue encoding
  let sensitivity ← Sensitivity.ofValue sensitivity
  return ⟨id, digest, byteSize, ⟨mediaType, encoding, sensitivity, ⟨.ofNat major, .ofNat minor⟩⟩⟩

structure FileArtifactStore where
  directory : ArtifactDirectory := {}
  memory : MemoryArtifactStore := {}
  paths : KeyedTable ArtifactId Sha256Digest := .empty
  descriptors : KeyedTable ArtifactId ArtifactDescriptor := .empty
  tombstones : List ArtifactId := []
  readOnly : Bool := false

namespace FileArtifactStore

def spoil (store : FileArtifactStore) : FileArtifactStore := { store with readOnly := true }

def writerOf (descriptor : ArtifactDescriptor) (content : Bytes) : Result ArtifactWriter := do
  let writer ← MemoryArtifactStore.begin
    ⟨descriptor.metadata, .ofNat (max descriptor.byteSize 1)⟩
  writer.write content

/-- A line of the manifest that can be read. -/
def loadDescriptor (store : FileArtifactStore) (descriptor : ArtifactDescriptor) :
    FileArtifactStore :=
  if descriptor.id ∈ store.tombstones then store
  else
    match store.directory.objects.find? descriptor.digest with
    | none => store.spoil
    | some content =>
        if digestString content ≠ descriptor.digest ∨ content.length ≠ descriptor.byteSize then
          store.spoil
        else
          match writerOf descriptor content with
          | .error _ => store.spoil
          | .ok writer =>
              match store.memory.commit writer with
              | .error _ => store.spoil
              | .ok (_, memory) =>
                  { store with
                    memory := memory
                    descriptors := store.descriptors.assign descriptor.id descriptor
                    paths := store.paths.assign descriptor.id descriptor.digest }

def loadLine (store : FileArtifactStore) (line : Bytes) : FileArtifactStore :=
  if line = [] then store
  else
    match parseLine line with
    | none => store.spoil
    | some descriptor => store.loadDescriptor descriptor

def load (directory : ArtifactDirectory) : FileArtifactStore :=
  ((Lines.split 10 directory.manifest).map Lines.Line.text).foldl loadLine
    { directory := directory
      tombstones := directory.tombstones.filterMap StrongId.parse }

def begin (store : FileArtifactStore) (spec : ArtifactWriteSpec) : Result ArtifactWriter :=
  if store.readOnly then
    .error (storeError .dataLoss "artifact store is read-only after recovery")
  else MemoryArtifactStore.begin spec

/-- The object is published unless it is there. -/
def publish (directory : ArtifactDirectory) (digest : Sha256Digest) (content : Bytes) :
    ArtifactDirectory :=
  if directory.objects.contains digest then directory
  else { directory with objects := directory.objects.assign digest content }

def commit (store : FileArtifactStore) (writer : ArtifactWriter) :
    Result ArtifactDescriptor × FileArtifactStore :=
  if store.readOnly then
    (.error (storeError .dataLoss "artifact store is read-only after recovery"), store)
  else if writer.planned.id ∈ store.tombstones then
    (.error (storeError .alreadyExists "artifact digest has an erasure tombstone"), store)
  else
    let published := publish store.directory writer.planned.digest writer.bytes
    match store.memory.commit writer with
    | .error reason =>
        (.error reason,
          { store with
            directory :=
              { published with objects := published.objects.erase writer.planned.digest } })
    | .ok (descriptor, memory) =>
        (.ok descriptor,
          { store with
            directory :=
              { published with
                manifest := published.manifest ++ manifestLine writer.planned ++ [10] }
            memory := memory
            paths := store.paths.assign descriptor.id writer.planned.digest
            descriptors := store.descriptors.assign descriptor.id descriptor })

/-- The descriptor that is asked for is the one that is kept. -/
def agrees (own descriptor : ArtifactDescriptor) : Bool :=
  own.digest = descriptor.digest ∧ own.byteSize = descriptor.byteSize ∧
    own.metadata = descriptor.metadata

def openArtifact (store : FileArtifactStore) (descriptor : ArtifactDescriptor) : Result Bytes :=
  match store.paths.find? descriptor.id with
  | some path =>
      if (store.descriptors.find? descriptor.id).any (agrees · descriptor) = false then
        .error (storeError .dataLoss "artifact descriptor metadata mismatch")
      else
        match store.directory.objects.find? path with
        | none => .error (storeError .notFound "artifact payload is unavailable")
        | some content =>
            if digestString content ≠ descriptor.digest then
              .error (storeError .dataLoss "artifact payload integrity mismatch")
            else .ok content
  | none =>
      if descriptor.id ∈ store.tombstones then
        .error (storeError .notFound "artifact was erased")
      else
        .error (storeError .notFound "artifact is not present in the persistent manifest")

def erase (store : FileArtifactStore) (id : ArtifactId) : Result Unit × FileArtifactStore :=
  match store.memory.erase id with
  | .error reason => (.error reason, store)
  | .ok memory =>
      (.ok (),
        { store with
          directory :=
            { store.directory with
              objects :=
                match store.paths.find? id with
                | some path => store.directory.objects.erase path
                | none => store.directory.objects
              tombstones := id.toString :: store.directory.tombstones }
          memory := memory
          tombstones := id :: store.tombstones
          paths := store.paths.erase id
          descriptors := store.descriptors.erase id })

end FileArtifactStore

inductive ArtifactCall
  | begin (spec : ArtifactWriteSpec)
  | write (index : Nat) (data : Bytes)
  | commit (index : Nat)
  | erase (id : ArtifactId)

/-- A store with its writers. What its commits have returned, the contents they were for and the
ids that were erased are history. -/
structure ArtifactSystem where
  store : FileArtifactStore := {}
  writers : List ArtifactWriter := []
  returned : List (ArtifactDescriptor × Bytes) := []
  erased : List ArtifactId := []

namespace ArtifactSystem

def commit (system : ArtifactSystem) (writer : ArtifactWriter) : ArtifactSystem :=
  let answer := system.store.commit writer
  { system with
    store := answer.2
    returned :=
      match answer.1 with
      | .ok descriptor => (descriptor, writer.bytes) :: system.returned
      | .error _ => system.returned }

def erase (system : ArtifactSystem) (id : ArtifactId) : ArtifactSystem :=
  let answer := system.store.erase id
  { system with
    store := answer.2
    erased :=
      match answer.1 with
      | .ok () => id :: system.erased
      | .error _ => system.erased }

def step (system : ArtifactSystem) : ArtifactCall → ArtifactSystem × Unit
  | .begin spec =>
      match system.store.begin spec with
      | .ok writer => ({ system with writers := system.writers ++ [writer] }, ())
      | .error _ => (system, ())
  | .write index data =>
      match system.writers[index]? with
      | none => (system, ())
      | some writer =>
          match writer.write data with
          | .ok written => ({ system with writers := system.writers.set index written }, ())
          | .error _ => (system, ())
  | .commit index =>
      match system.writers[index]? with
      | none => (system, ())
      | some writer => (system.commit writer, ())
  | .erase id => (system.erase id, ())

end ArtifactSystem

end Mira.Storage
