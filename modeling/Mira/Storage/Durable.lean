import Mira.Storage.Reopened

/-!
The calls on an artifact store. A commit writes its line and keeps or adds its record, an erasure
leaves its tombstone; a run of calls keeps what a new store on the directory needs.
-/

namespace Mira.Storage
open Mira Bytes

section
variable {store after : FileArtifactStore} {lines : List ArtifactDescriptor}
variable {writer : ArtifactWriter} {system : ArtifactSystem} {id : ArtifactId}

/-- What is stored of the id of a writer is what the writer holds. -/
def Same (store : FileArtifactStore) (writer : ArtifactWriter) : Prop :=
  ∀ descriptor content, store.descriptors.find? writer.planned.id = some descriptor →
    store.directory.objects.find? descriptor.digest = some content →
      descriptor = writer.planned ∧ content = writer.bytes

/-- What a commit that goes through leaves. -/
structure Commits (store : FileArtifactStore) (writer : ArtifactWriter)
    (after : FileArtifactStore) : Prop where
  manifest : after.directory.manifest =
    store.directory.manifest ++ manifestLine writer.planned ++ [10]
  marks : after.directory.tombstones = store.directory.tombstones
  objects : ∀ digest, after.directory.objects.find? digest =
    if digest = writer.planned.digest then some writer.bytes
    else store.directory.objects.find? digest
  records : ∀ id, after.memory.records.find? id =
    if id = writer.planned.id then some ⟨writer.planned, writer.bytes, false⟩
    else store.memory.records.find? id
  paths : ∀ id, after.paths.find? id =
    if id = writer.planned.id then some writer.planned.digest else store.paths.find? id
  descriptors : ∀ id, after.descriptors.find? id =
    if id = writer.planned.id then some writer.planned else store.descriptors.find? id
  tombstones : after.tombstones = store.tombstones
  writable : after.readOnly = store.readOnly

theorem publish_objects {directory : ArtifactDirectory} {digest : Sha256Digest} {content : Bytes}
    (same : ∀ other, directory.objects.find? digest = some other → other = content)
    (name : Sha256Digest) :
    (FileArtifactStore.publish directory digest content).objects.find? name =
      if name = digest then some content else directory.objects.find? name := by
  rw [FileArtifactStore.publish, KeyedTable.contains]
  cases found : directory.objects.find? digest with
  | none =>
      rw [if_neg (by simp)]
      exact KeyedTable.find?_assign _ _ _ _
  | some other =>
      rw [if_pos (by simp)]
      by_cases here : name = digest
      · rw [if_pos here, here, found, same other found]
      · rw [if_neg here]

theorem publish_rest (directory : ArtifactDirectory) (digest : Sha256Digest) (content : Bytes) :
    (FileArtifactStore.publish directory digest content).manifest = directory.manifest ∧
      (FileArtifactStore.publish directory digest content).tombstones = directory.tombstones := by
  rw [FileArtifactStore.publish]
  split
  · exact ⟨rfl, rfl⟩
  · exact ⟨rfl, rfl⟩

theorem commits_of_same (stored : Stored store lines) (same : Same store writer)
    (free : writer.planned.id ∉ store.tombstones) :
    (store.commit writer).1 = .ok writer.planned ∧ Commits store writer (store.commit writer).2 := by
  have own : writer.planned.id = idFromDigest writer.planned.digest := rfl
  have object (other : Bytes)
      (found : store.directory.objects.find? writer.planned.digest = some other) :
      other = writer.bytes := by
    obtain ⟨descriptor, listed, digest⟩ := stored.published _ _ found
    exact (same descriptor other listed (digest ▸ found)).2
  have objects := publish_objects object
  obtain ⟨manifest, marks⟩ := publish_rest store.directory writer.planned.digest writer.bytes
  have committed : ∃ memory, store.memory.commit writer = .ok (writer.planned, memory) ∧
      ∀ id, memory.records.find? id =
        if id = writer.planned.id then some ⟨writer.planned, writer.bytes, false⟩
        else store.memory.records.find? id := by
    rw [MemoryArtifactStore.commit]
    cases present : store.memory.records.find? writer.planned.id with
    | none => exact ⟨_, rfl, fun id => KeyedTable.find?_assign _ _ _ _⟩
    | some record =>
        cases stored.records _ _ present with
        | inl gone => exact absurd gone.2 free
        | inr kept =>
            obtain ⟨content, found, hashed, sized, held⟩ := stored.objects _ _ kept.2
            obtain ⟨planned, bytes⟩ := same _ _ kept.2 found
            have whole : record = ⟨record.descriptor, content, false⟩ :=
              Option.some.inj (present.symm.trans held)
            have length : record.bytes = writer.bytes := by rw [whole, bytes]
            dsimp only
            rw [if_neg (by simp [kept.1]), if_pos ⟨by rw [planned], by rw [length]⟩]
            refine ⟨store.memory, by rw [planned], fun id => ?_⟩
            by_cases here : id = writer.planned.id
            · rw [if_pos here, here, present, whole, planned, bytes]
            · rw [if_neg here]
  obtain ⟨memory, committed, records⟩ := committed
  have answer : store.commit writer = (.ok writer.planned,
      { store with
        directory :=
          { FileArtifactStore.publish store.directory writer.planned.digest writer.bytes with
            manifest := (FileArtifactStore.publish store.directory writer.planned.digest
              writer.bytes).manifest ++ manifestLine writer.planned ++ [10] }
        memory := memory
        paths := store.paths.assign writer.planned.id writer.planned.digest
        descriptors := store.descriptors.assign writer.planned.id writer.planned }) := by
    rw [FileArtifactStore.commit, if_neg (by simp [stored.writable]), if_neg free, committed]
  rw [answer]
  exact ⟨rfl, by rw [manifest], marks, objects, records, fun _ => KeyedTable.find?_assign _ _ _ _,
    fun _ => KeyedTable.find?_assign _ _ _ _, rfl, rfl⟩

theorem Stored.commit (stored : Stored store lines) (commits : Commits store writer after)
    (same : Same store writer) (free : writer.planned.id ∉ store.tombstones)
    (unbroken : (10 : UInt8) ∉ writer.spec.metadata.mediaType) :
    Stored after (lines ++ [writer.planned]) := by
  have own : writer.planned.id = idFromDigest writer.planned.digest := rfl
  have plain : Plain writer.planned := by
    refine ⟨unbroken, ?_⟩
    have bounded := writer.bounded
    have limit := writer.spec.maxBytes.toNat_lt
    exact Nat.lt_of_le_of_lt bounded limit
  have apart {id : ArtifactId} {descriptor : ArtifactDescriptor} (differs : id ≠ writer.planned.id)
      (found : store.descriptors.find? id = some descriptor) :
      descriptor.digest ≠ writer.planned.digest := by
    intro digest
    obtain ⟨among, named, -⟩ := stored.listed id descriptor found
    rw [← named, stored.own descriptor among, digest] at differs
    exact differs rfl
  refine ⟨commits.writable.trans stored.writable, ?_, ?_, ?_, ?_, ?_, ?_, ?_, ?_, ?_, ?_⟩
  · rw [commits.manifest, stored.written, manifestOf_append]
  · intro line among
    cases List.mem_append.mp among with
    | inl before => exact stored.plain line before
    | inr last => exact List.mem_singleton.mp last ▸ plain
  · intro line among
    cases List.mem_append.mp among with
    | inl before => exact stored.own line before
    | inr last => exact List.mem_singleton.mp last ▸ own
  · intro line among untouched
    rw [commits.descriptors]
    cases List.mem_append.mp among with
    | inl before =>
        have kept := stored.live line before (commits.tombstones ▸ untouched)
        split
        · next here =>
            obtain ⟨content, found, -⟩ := stored.objects line.id line kept
            rw [here] at kept
            rw [(same line content kept found).1]
        · exact kept
    | inr last => rw [List.mem_singleton.mp last, if_pos rfl]
  · intro id descriptor found
    rw [commits.descriptors] at found
    rw [commits.tombstones]
    split at found
    · next here =>
        cases found
        exact ⟨List.mem_append_right _ (.head _), here.symm, here ▸ free⟩
    · obtain ⟨among, named, untouched⟩ := stored.listed id descriptor found
      exact ⟨List.mem_append_left _ among, named, untouched⟩
  · intro id
    rw [commits.paths, commits.descriptors, stored.paths]
    split
    · rfl
    · rfl
  · intro id descriptor found
    rw [commits.descriptors] at found
    rw [commits.objects, commits.records]
    by_cases here : id = writer.planned.id
    · rw [if_pos here] at found ⊢
      cases found
      exact ⟨writer.bytes, if_pos rfl, rfl, rfl, rfl⟩
    · rw [if_neg here] at found ⊢
      obtain ⟨content, object, hashed, sized, held⟩ := stored.objects id descriptor found
      refine ⟨content, ?_, hashed, sized, held⟩
      rw [if_neg (apart here found)]
      exact object
  · intro digest content found
    rw [commits.objects] at found
    rw [commits.descriptors]
    split at found
    · next here => exact ⟨writer.planned, by rw [if_pos (here ▸ own.symm)], here.symm⟩
    · next differs =>
        obtain ⟨descriptor, listed, named⟩ := stored.published digest content found
        rw [if_neg]
        · exact ⟨descriptor, listed, named⟩
        · intro here
          obtain ⟨content, object, -⟩ := stored.objects _ descriptor listed
          rw [here] at listed
          have planned := (same descriptor content listed object).1
          exact differs (named.symm.trans (congrArg ArtifactDescriptor.digest planned))
  · intro id record held
    rw [commits.records] at held
    rw [commits.tombstones, commits.descriptors]
    split at held
    · next here =>
        cases held
        exact .inr ⟨rfl, if_pos here⟩
    · next differs =>
        rw [if_neg differs]
        exact stored.records id record held
  · rw [commits.marks, commits.tombstones]
    exact stored.marks

/-- What an erasure that goes through leaves. -/
structure Erases (store : FileArtifactStore) (id : ArtifactId) (after : FileArtifactStore) :
    Prop where
  manifest : after.directory.manifest = store.directory.manifest
  marks : after.directory.tombstones = id.toString :: store.directory.tombstones
  objects : ∀ digest, after.directory.objects.find? digest =
    if store.paths.find? id = some digest then none else store.directory.objects.find? digest
  records : ∀ other record, after.memory.records.find? other = some record →
    (other = id ∧ record.erased = true) ∨
      (other ≠ id ∧ store.memory.records.find? other = some record)
  kept : ∀ other, other ≠ id →
    after.memory.records.find? other = store.memory.records.find? other
  paths : ∀ other, after.paths.find? other = if other = id then none else store.paths.find? other
  descriptors : ∀ other, after.descriptors.find? other =
    if other = id then none else store.descriptors.find? other
  tombstones : after.tombstones = id :: store.tombstones
  writable : after.readOnly = store.readOnly

theorem erases_of_ok (answered : (store.erase id).1 = .ok ()) :
    Erases store id (store.erase id).2 := by
  rw [FileArtifactStore.erase, MemoryArtifactStore.erase] at answered ⊢
  cases present : store.memory.records.find? id with
  | none =>
      rw [present] at answered
      cases answered
  | some record =>
      refine ⟨rfl, rfl, fun digest => ?_, ?_, ?_, fun _ => KeyedTable.find?_erase _ _ _,
        fun _ => KeyedTable.find?_erase _ _ _, rfl, rfl⟩
      · dsimp only
        cases store.paths.find? id with
        | none => simp
        | some path =>
            dsimp only
            rw [KeyedTable.find?_erase]
            by_cases here : digest = path
            · simp [here]
            · simp [here, Ne.symm here]
      · intro other held found
        dsimp only at found
        by_cases here : other = id
        · refine .inl ⟨here, ?_⟩
          split at found
          · next gone =>
              rw [here, present] at found
              cases found
              exact gone
          · rw [KeyedTable.find?_assign, if_pos here] at found
            cases found
            rfl
        · refine .inr ⟨here, ?_⟩
          split at found
          · exact found
          · rwa [KeyedTable.find?_assign, if_neg here] at found
      · intro other differs
        dsimp only
        split
        · rfl
        · rw [KeyedTable.find?_assign, if_neg differs]

theorem Stored.erase (stored : Stored store lines) (erases : Erases store id after) :
    Stored after lines := by
  have apart {other : ArtifactId} {descriptor : ArtifactDescriptor} (differs : other ≠ id)
      (found : store.descriptors.find? other = some descriptor) :
      store.paths.find? id ≠ some descriptor.digest := by
    rw [stored.paths]
    intro taken
    obtain ⟨erased, listed, digest⟩ := Option.map_eq_some_iff.mp taken
    obtain ⟨among, named, -⟩ := stored.listed other descriptor found
    obtain ⟨among', named', -⟩ := stored.listed id erased listed
    rw [← named, ← named', stored.own descriptor among, stored.own erased among', digest] at differs
    exact differs rfl
  refine ⟨erases.writable.trans stored.writable, erases.manifest.trans stored.written, stored.plain,
    stored.own, ?_, ?_, ?_, ?_, ?_, ?_, ?_⟩
  · intro line among untouched
    rw [erases.tombstones, List.mem_cons, not_or] at untouched
    rw [erases.descriptors, if_neg untouched.1]
    exact stored.live line among untouched.2
  · intro other descriptor found
    rw [erases.descriptors] at found
    split at found
    · cases found
    · next differs =>
        obtain ⟨among, named, untouched⟩ := stored.listed other descriptor found
        rw [erases.tombstones]
        exact ⟨among, named, fun mem => (List.mem_cons.mp mem).elim differs untouched⟩
  · intro other
    rw [erases.paths, erases.descriptors, stored.paths]
    split
    · rfl
    · rfl
  · intro other descriptor found
    rw [erases.descriptors] at found
    split at found
    · cases found
    · next differs =>
        obtain ⟨content, object, hashed, sized, held⟩ := stored.objects other descriptor found
        refine ⟨content, ?_, hashed, sized, (erases.kept other differs).trans held⟩
        rw [erases.objects, if_neg (apart differs found)]
        exact object
  · intro digest content found
    rw [erases.objects] at found
    split at found
    · cases found
    · next whole =>
        obtain ⟨descriptor, listed, named⟩ := stored.published digest content found
        refine ⟨descriptor, ?_, named⟩
        rw [erases.descriptors, if_neg]
        · exact listed
        · intro here
          rw [stored.paths, ← here, listed] at whole
          exact whole (congrArg some named)
  · intro other record held
    rw [erases.tombstones, erases.descriptors]
    cases erases.records other record held with
    | inl gone => exact .inl ⟨gone.2, gone.1 ▸ .head _⟩
    | inr before =>
        rw [if_neg before.1]
        cases stored.records other record before.2 with
        | inl gone => exact .inl ⟨gone.1, .tail _ gone.2⟩
        | inr kept => exact .inr kept
  · rw [erases.marks, erases.tombstones, stored.marks]
    rfl

end

def ArtifactSystem.reopened (system : ArtifactSystem) : FileArtifactStore :=
  FileArtifactStore.load system.store.directory

/-- No commit goes through for bytes of that id, and no descriptor of it opens. -/
def Unavailable (store : FileArtifactStore) (id : ArtifactId) : Prop :=
  (∀ descriptor : ArtifactDescriptor, descriptor.id = id →
      (store.openArtifact descriptor).isOk = false) ∧
    ∀ writer : ArtifactWriter, writer.planned.id = id → (store.commit writer).1.isOk = false

structure Survives (system : ArtifactSystem) : Prop where
  writable : system.reopened.readOnly = false
  returned : ∀ descriptor content, (descriptor, content) ∈ system.returned →
    descriptor.id ∉ system.erased →
      system.store.openArtifact descriptor = .ok content ∧
        system.reopened.openArtifact descriptor = .ok content
  erased : ∀ id ∈ system.erased, Unavailable system.store id ∧ Unavailable system.reopened id

/-- The bytes of a commit do not collide with those of another. -/
def CollisionFree (system : ArtifactSystem) : ArtifactCall → Prop
  | .commit index =>
      ∀ writer ∈ system.writers[index]?, ∀ entry ∈ system.returned,
        idFromDigest (digestString entry.2) = writer.planned.id → entry.2 = writer.bytes
  | _ => True

/-- The media type of a commit has no line break, and bytes that are stored are committed with the
metadata they are stored with. -/
def Consistent (system : ArtifactSystem) : ArtifactCall → Prop
  | .commit index =>
      ∀ writer ∈ system.writers[index]?, (10 : UInt8) ∉ writer.spec.metadata.mediaType ∧
        ∀ descriptor ∈ system.store.descriptors.find? writer.planned.id,
          descriptor.metadata = writer.spec.metadata
  | _ => True

instance decidableCollisionFree (system : ArtifactSystem) :
    ∀ call, Decidable (CollisionFree system call)
  | .commit _ => inferInstanceAs (Decidable (∀ writer ∈ _, _))
  | .begin _ | .write _ _ | .erase _ => .isTrue trivial

instance decidableConsistent (system : ArtifactSystem) :
    ∀ call, Decidable (Consistent system call)
  | .commit _ => inferInstanceAs (Decidable (∀ writer ∈ _, _))
  | .begin _ | .write _ _ | .erase _ => .isTrue trivial

structure Kept (system : ArtifactSystem) (lines : List ArtifactDescriptor) : Prop where
  stored : Stored system.store lines
  returned : ∀ descriptor content, (descriptor, content) ∈ system.returned →
    descriptor.id ∉ system.store.tombstones →
      system.store.descriptors.find? descriptor.id = some descriptor ∧
        system.store.directory.objects.find? descriptor.digest = some content
  held : ∀ id descriptor content, system.store.descriptors.find? id = some descriptor →
    system.store.directory.objects.find? descriptor.digest = some content →
      ∃ other, (other, content) ∈ system.returned
  erased : system.erased = system.store.tombstones

section
variable {system : ArtifactSystem} {lines : List ArtifactDescriptor} {writer : ArtifactWriter}
variable {id : ArtifactId}

theorem Kept.same (kept : Kept system lines)
    (apart : ∀ entry ∈ system.returned,
      idFromDigest (digestString entry.2) = writer.planned.id → entry.2 = writer.bytes)
    (equal : ∀ descriptor ∈ system.store.descriptors.find? writer.planned.id,
      descriptor.metadata = writer.spec.metadata) : Same system.store writer := by
  intro descriptor content listed found
  obtain ⟨other, object, hashed, sized, -⟩ := kept.stored.objects _ _ listed
  cases found.symm.trans object
  obtain ⟨among, named, -⟩ := kept.stored.listed _ _ listed
  obtain ⟨first, returned⟩ := kept.held _ descriptor content listed found
  have identified : idFromDigest (digestString content) = writer.planned.id := by
    rw [hashed, ← kept.stored.own descriptor among, named]
  have bytes : content = writer.bytes := apart _ returned identified
  have metadata := equal descriptor listed
  refine ⟨?_, bytes⟩
  rw [bytes] at hashed sized
  calc
    descriptor = ⟨descriptor.id, descriptor.digest, descriptor.byteSize, descriptor.metadata⟩ := rfl
    _ = writer.planned := by rw [named, ← hashed, ← sized, metadata]; rfl

theorem Kept.commit (kept : Kept system lines)
    (apart : ∀ entry ∈ system.returned,
      idFromDigest (digestString entry.2) = writer.planned.id → entry.2 = writer.bytes)
    (unbroken : (10 : UInt8) ∉ writer.spec.metadata.mediaType)
    (equal : ∀ descriptor ∈ system.store.descriptors.find? writer.planned.id,
      descriptor.metadata = writer.spec.metadata) :
    ∃ lines, Kept (system.commit writer) lines := by
  by_cases barred : writer.planned.id ∈ system.store.tombstones
  · have refused : system.store.commit writer = (.error (storeError .alreadyExists
        "artifact digest has an erasure tombstone"), system.store) := by
      rw [FileArtifactStore.commit, if_neg (by simp [kept.stored.writable]), if_pos barred]
    refine ⟨lines, ?_⟩
    rw [ArtifactSystem.commit, refused]
    exact kept
  · have same := kept.same apart equal
    obtain ⟨answer, commits⟩ := commits_of_same kept.stored same barred
    refine ⟨lines ++ [writer.planned], kept.stored.commit commits same barred unbroken, ?_, ?_,
      kept.erased.trans commits.tombstones.symm⟩
    · intro descriptor content among untouched
      rw [ArtifactSystem.commit] at among untouched ⊢
      dsimp only at among untouched ⊢
      rw [answer] at among
      rw [commits.tombstones] at untouched
      rw [commits.descriptors, commits.objects]
      cases List.mem_cons.mp among with
      | inl first =>
          cases first
          exact ⟨if_pos rfl, if_pos rfl⟩
      | inr before =>
          obtain ⟨listed, found⟩ := kept.returned descriptor content before untouched
          by_cases here : descriptor.id = writer.planned.id
          · obtain ⟨planned, bytes⟩ := same descriptor content (here ▸ listed) found
            rw [if_pos here, planned, if_pos rfl, bytes]
            exact ⟨rfl, rfl⟩
          · rw [if_neg here, if_neg]
            · exact ⟨listed, found⟩
            · intro digest
              obtain ⟨mem, -, -⟩ := kept.stored.listed _ _ listed
              rw [kept.stored.own descriptor mem, digest] at here
              exact here rfl
    · intro id descriptor content listed found
      rw [ArtifactSystem.commit] at listed found ⊢
      dsimp only at listed found ⊢
      rw [answer]
      rw [commits.descriptors] at listed
      rw [commits.objects] at found
      split at found
      · cases found
        exact ⟨writer.planned, .head _⟩
      · next differs =>
          split at listed
          · cases listed
            exact absurd rfl differs
          · obtain ⟨other, returned⟩ := kept.held id descriptor content listed found
            exact ⟨other, .tail _ returned⟩

theorem Kept.erase (kept : Kept system lines) (id : ArtifactId) : Kept (system.erase id) lines := by
  rw [ArtifactSystem.erase]
  cases answered : (system.store.erase id).1 with
  | error reason =>
      have unchanged : (system.store.erase id).2 = system.store := by
        rw [FileArtifactStore.erase] at answered ⊢
        split at answered
        · rfl
        · cases answered
      rw [unchanged]
      exact ⟨kept.stored, kept.returned, kept.held, kept.erased⟩
  | ok =>
      have erases := erases_of_ok answered
      refine ⟨kept.stored.erase erases, ?_, ?_, ?_⟩
      · intro descriptor content among untouched
        dsimp only at among untouched ⊢
        rw [erases.tombstones, List.mem_cons, not_or] at untouched
        obtain ⟨listed, found⟩ := kept.returned descriptor content among untouched.2
        rw [erases.descriptors, erases.objects, if_neg untouched.1, if_neg]
        · exact ⟨listed, found⟩
        · intro taken
          rw [kept.stored.paths] at taken
          obtain ⟨other, own, digest⟩ := Option.map_eq_some_iff.mp taken
          obtain ⟨mem, named, -⟩ := kept.stored.listed _ _ own
          obtain ⟨mem', -, -⟩ := kept.stored.listed _ _ listed
          refine untouched.1 ?_
          rw [kept.stored.own descriptor mem', ← digest, ← kept.stored.own other mem, named]
      · intro other descriptor content listed found
        dsimp only at listed found ⊢
        rw [erases.descriptors] at listed
        rw [erases.objects] at found
        split at listed
        · cases listed
        · split at found
          · cases found
          · exact kept.held other descriptor content listed found
      · dsimp only
        rw [erases.tombstones, kept.erased]

theorem Kept.unavailable (kept : Kept system lines) (mem : id ∈ system.erased) :
    Unavailable system.store id ∧ Unavailable system.reopened id := by
  have marked : id ∈ system.store.tombstones := kept.erased ▸ mem
  have reopens := kept.stored.reopens
  have opened (descriptor : ArtifactDescriptor) (own : descriptor.id = id) :
      (system.store.openArtifact descriptor).isOk = false := by
    have absent : system.store.descriptors.find? descriptor.id = none := by
      rw [Option.eq_none_iff_forall_ne_some]
      intro other found
      exact (kept.stored.listed _ other found).2.2 (own ▸ marked)
    rw [FileArtifactStore.openArtifact, kept.stored.paths, absent]
    dsimp only [Option.map_none]
    split
    · rfl
    · rfl
  have refused {store : FileArtifactStore} (writable : store.readOnly = false)
      (tombstones : store.tombstones = system.store.tombstones) (writer : ArtifactWriter)
      (own : writer.planned.id = id) : (store.commit writer).1.isOk = false := by
    rw [FileArtifactStore.commit, if_neg (by simp [writable]),
      if_pos (by rw [own, tombstones]; exact marked)]
    rfl
  refine ⟨⟨opened, refused kept.stored.writable rfl⟩, ⟨fun descriptor own => ?_,
    refused reopens.writable reopens.tombstones⟩⟩
  rw [ArtifactSystem.reopened, reopens.opens]
  exact opened descriptor own

theorem Kept.survives (kept : Kept system lines) : Survives system := by
  have reopens := kept.stored.reopens
  refine ⟨reopens.writable, ?_, fun id mem => kept.unavailable mem⟩
  intro descriptor content among untouched
  have opened : system.store.openArtifact descriptor = .ok content := by
    obtain ⟨listed, found⟩ := kept.returned descriptor content among (kept.erased ▸ untouched)
    obtain ⟨other, object, hashed, -⟩ := kept.stored.objects _ _ listed
    cases found.symm.trans object
    rw [FileArtifactStore.openArtifact, kept.stored.paths, listed]
    dsimp only [Option.map_some]
    rw [if_neg (by simp [FileArtifactStore.agrees]), found]
    dsimp only
    rw [if_neg (by simp [hashed])]
  exact ⟨opened, (reopens.opens descriptor).trans opened⟩

theorem Kept.step (kept : Kept system lines) (call : ArtifactCall)
    (apart : CollisionFree system call) (consistent : Consistent system call) :
    ∃ lines, Kept (system.step call).1 lines := by
  cases call with
  | begin spec =>
      rw [ArtifactSystem.step]
      split
      · exact ⟨lines, kept.stored, kept.returned, kept.held, kept.erased⟩
      · exact ⟨lines, kept⟩
  | write index data =>
      rw [ArtifactSystem.step]
      split
      · exact ⟨lines, kept⟩
      · split
        · exact ⟨lines, kept.stored, kept.returned, kept.held, kept.erased⟩
        · exact ⟨lines, kept⟩
  | commit index =>
      rw [ArtifactSystem.step]
      cases present : system.writers[index]? with
      | none => exact ⟨lines, kept⟩
      | some writer =>
          obtain ⟨unbroken, equal⟩ := consistent writer present
          exact kept.commit (apart writer present) unbroken equal
  | erase id => exact ⟨lines, kept.erase id⟩

end

/-- In a run of calls whose media types have no line break and that commits stored bytes with the
metadata they are stored with, no two contents colliding, a new store on the directory is not
read-only, every descriptor that a commit returned and that was not erased opens to its bytes
before and after, and what was erased is neither opened nor committed again. -/
theorem artifacts_survive (calls : List ArtifactCall)
    (apart : Execution.Guarded ArtifactSystem.step CollisionFree {} calls)
    (consistent : Execution.Guarded ArtifactSystem.step Consistent {} calls) :
    Survives (Execution.run ArtifactSystem.step {} calls) := by
  have start : Kept {} [] := by
    refine ⟨⟨rfl, rfl, ?_, ?_, ?_, ?_, fun _ => rfl, ?_, ?_, ?_, rfl⟩, ?_, ?_, rfl⟩
    all_goals simp
  obtain ⟨lines, kept⟩ := Execution.run_invariant ArtifactSystem.step
    (fun system call => CollisionFree system call ∧ Consistent system call)
    (fun system => ∃ lines, Kept system lines)
    (fun system call allowed held => by
      obtain ⟨lines, kept⟩ := held
      exact kept.step call allowed.1 allowed.2)
    {} calls ⟨[], start⟩ (Execution.guarded_and _ apart consistent)
  exact kept.survives

def plainText : ArtifactWriteSpec := { metadata := { mediaType := ascii "text/plain" } }

def brokenText : ArtifactWriteSpec :=
  { metadata := { mediaType := ascii "text/plain" ++ [10] } }

/-- Bytes are committed twice, and others are committed and erased. -/
def survivingCalls : List ArtifactCall :=
  [.begin plainText, .write 0 [7], .commit 0, .commit 0, .begin plainText, .commit 1,
    .erase (idFromDigest (digestString []))]

theorem surviving_calls_survive :
    (Execution.run ArtifactSystem.step {} survivingCalls).returned.length = 3 ∧
      (Execution.run ArtifactSystem.step {} survivingCalls).erased.length = 1 ∧
      Survives (Execution.run ArtifactSystem.step {} survivingCalls) :=
  ⟨by decide +kernel, by decide +kernel, artifacts_survive survivingCalls (by decide +kernel) (by decide +kernel)⟩

theorem broken_line_read_only :
    (Execution.run ArtifactSystem.step {} [.begin brokenText, .commit 0]).reopened.readOnly = true ∧
      ¬ Survives (Execution.run ArtifactSystem.step {} [.begin brokenText, .commit 0]) := by
  have spoiled : (Execution.run ArtifactSystem.step {}
      [.begin brokenText, .commit 0]).reopened.readOnly = true := by decide +kernel
  refine ⟨spoiled, fun survives => ?_⟩
  have writable := survives.writable
  rw [spoiled] at writable
  cases writable

end Mira.Storage
