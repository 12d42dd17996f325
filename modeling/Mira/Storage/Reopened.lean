import Mira.Storage.Artifacts
import Mira.Library.Execution

/-!
The manifest read back: the line of a descriptor gives that descriptor, and a manifest whose media
types do not break its lines is loaded descriptor by descriptor.
-/

namespace Mira.Storage
open Mira Bytes Extraction

theorem hexDigit_dark : ∀ nibble < 16, isSpace (hexDigit nibble) = false := by
  decide

theorem toHex_dark (bytes : Bytes) : ∀ c ∈ toHex bytes, isSpace c = false := by
  intro c among
  obtain ⟨b, -, inside⟩ := List.mem_flatMap.mp among
  have byte := b.toNat_lt
  rw [hexByte, List.mem_cons, List.mem_singleton] at inside
  cases inside with
  | inl high => exact high ▸ hexDigit_dark _ (by omega)
  | inr low => exact low ▸ hexDigit_dark _ (Nat.mod_lt _ (by decide))

theorem not_mem_of_dark {c : UInt8} {text : Bytes} (dark : ∀ c ∈ text, isSpace c = false)
    (space : isSpace c = true) : c ∉ text := by
  intro among
  have := dark c among
  rw [space] at this
  cases this

theorem decimal_dark (n : Nat) : ∀ c ∈ decimal n, isSpace c = false := fun c among =>
  not_isSpace_of_isDigit c (List.all_eq_true.mp (all_isDigit_decimal n) c among)

theorem id_dark {tag : IdTag} (id : StrongId tag) : ∀ c ∈ id.toString, isSpace c = false :=
  toHex_dark _

variable (digest : Sha256Digest)

theorem digest_dark : ∀ c ∈ digest.toString, isSpace c = false :=
  toHex_dark _

theorem id_ne_nil {tag : IdTag} (id : StrongId tag) : id.toString ≠ [] := by
  intro empty
  have size := id.length_toString
  rw [empty] at size
  cases size

theorem digest_ne_nil : digest.toString ≠ [] := by
  intro empty
  have size := digest.length_toString
  rw [empty] at size
  cases size

theorem ofValue_encoding (encoding : ArtifactEncoding) :
    ArtifactEncoding.ofValue encoding.value = some encoding := by
  cases encoding <;> rfl

theorem ofValue_sensitivity (sensitivity : Sensitivity) :
    Sensitivity.ofValue sensitivity.value = some sensitivity := by
  cases sensitivity <;> rfl

variable {descriptor : ArtifactDescriptor}

theorem parseLine_manifestLine (small : descriptor.byteSize < 2 ^ 64) :
    parseLine (manifestLine descriptor) = some descriptor := by
  have encoding : descriptor.metadata.encoding.value < 2 ^ 32 := by
    cases descriptor.metadata.encoding <;> decide
  have sensitivity : descriptor.metadata.sensitivity.value < 2 ^ 32 := by
    cases descriptor.metadata.sensitivity <;> decide
  have major := descriptor.metadata.contentSchema.major.toNat_lt
  have minor := descriptor.metadata.contentSchema.minor.toNat_lt
  have media := quoted_space descriptor.metadata.mediaType []
  rw [List.append_nil] at media
  have read {α : Type} {first : Option α} {value : α} {rest : α → Option ArtifactDescriptor}
      (found : first = some value) (later : rest value = some descriptor) :
      (first >>= rest) = some descriptor := Option.bind_eq_some_iff.mpr ⟨value, found, later⟩
  rw [parseLine, manifestLine]
  refine read (word_separated (id_dark _) (id_ne_nil _)) ?_
  refine read (word_separated (digest_dark _) (digest_ne_nil _)) ?_
  refine read (unsigned_separated small _) ?_
  refine read (unsigned_separated encoding _) ?_
  refine read (unsigned_separated sensitivity _) ?_
  refine read (unsigned_separated major _) ?_
  refine read (unsigned_separated minor _) ?_
  refine read media ?_
  refine read (StrongId.parse_toString _) ?_
  refine read (digestFromHex_toString _) ?_
  refine read (ofValue_encoding _) ?_
  refine read (ofValue_sensitivity _) ?_
  rw [UInt16.ofNat_toNat, UInt16.ofNat_toNat]
  rfl

theorem newline_not_mem (plain : (10 : UInt8) ∉ descriptor.metadata.mediaType) :
    (10 : UInt8) ∉ manifestLine descriptor := by
  have quotedText := not_mem_quote plain (by decide)
  have hex (bytes : Bytes) : (10 : UInt8) ∉ toHex bytes := not_mem_of_dark (toHex_dark bytes) rfl
  have number (n : Nat) : (10 : UInt8) ∉ decimal n := not_mem_of_dark (decimal_dark n) rfl
  simp only [manifestLine, List.mem_append, List.mem_cons, not_or]
  exact ⟨hex _, by decide, hex _, by decide, number _, by decide, number _, by decide, number _,
    by decide, number _, by decide, number _, by decide, quotedText⟩

theorem manifestLine_ne_nil (descriptor : ArtifactDescriptor) : manifestLine descriptor ≠ [] := by
  rw [manifestLine]
  exact List.append_ne_nil_of_left_ne_nil (id_ne_nil _) _

def manifestOf (lines : List ArtifactDescriptor) : Bytes :=
  Lines.terminate 10 (lines.map manifestLine)

theorem manifestOf_append (lines : List ArtifactDescriptor) (line : ArtifactDescriptor) :
    manifestOf (lines ++ [line]) = manifestOf lines ++ manifestLine line ++ [10] := by
  simp [manifestOf, Lines.terminate]

/-- A descriptor that its line gives back. -/
structure Plain (descriptor : ArtifactDescriptor) : Prop where
  unbroken : (10 : UInt8) ∉ descriptor.metadata.mediaType
  small : descriptor.byteSize < 2 ^ 64

theorem load_eq {directory : ArtifactDirectory} {lines : List ArtifactDescriptor}
    (written : directory.manifest = manifestOf lines) (plain : ∀ line ∈ lines, Plain line) :
    FileArtifactStore.load directory =
      lines.foldl FileArtifactStore.loadDescriptor
        { directory := directory
          tombstones := directory.tombstones.filterMap StrongId.parse } := by
  have absent : ∀ text ∈ lines.map manifestLine, (10 : UInt8) ∉ text := by
    intro text among
    obtain ⟨line, mem, rfl⟩ := List.mem_map.mp among
    exact newline_not_mem (plain line mem).unbroken
  have texts : (Lines.split 10 directory.manifest).map Lines.Line.text = lines.map manifestLine := by
    have cut := Lines.split_terminate_append 10 (lines.map manifestLine) [] absent
    rw [List.append_nil] at cut
    rw [written, manifestOf, cut]
    simp [Lines.split]
  rw [FileArtifactStore.load, texts, List.foldl_map]
  refine List.foldl_ext _ _ _ fun store line mem => ?_
  rw [FileArtifactStore.loadLine, if_neg (manifestLine_ne_nil line),
    parseLine_manifestLine (plain line mem).small]

end Mira.Storage

/-!
Artifacts over a reopening. Where no media type breaks its line of the manifest and bytes that are
stored are committed with the same metadata again, a new store on the directory has the index of
the old one: every descriptor that a commit returned opens to its bytes, and what was erased stays
erased.
-/

namespace Mira.Storage
open Mira Bytes

structure Stored (store : FileArtifactStore) (lines : List ArtifactDescriptor) : Prop where
  writable : store.readOnly = false
  written : store.directory.manifest = manifestOf lines
  plain : ∀ line ∈ lines, Plain line
  own : ∀ line ∈ lines, line.id = idFromDigest line.digest
  live : ∀ line ∈ lines, line.id ∉ store.tombstones →
    store.descriptors.find? line.id = some line
  listed : ∀ id descriptor, store.descriptors.find? id = some descriptor →
    descriptor ∈ lines ∧ descriptor.id = id ∧ id ∉ store.tombstones
  paths : ∀ id, store.paths.find? id =
    (store.descriptors.find? id).map ArtifactDescriptor.digest
  objects : ∀ id descriptor, store.descriptors.find? id = some descriptor →
    ∃ content, store.directory.objects.find? descriptor.digest = some content ∧
      digestString content = descriptor.digest ∧ content.length = descriptor.byteSize ∧
      store.memory.records.find? id = some ⟨descriptor, content, false⟩
  published : ∀ digest content, store.directory.objects.find? digest = some content →
    ∃ descriptor, store.descriptors.find? (idFromDigest digest) = some descriptor ∧
      descriptor.digest = digest
  records : ∀ id record, store.memory.records.find? id = some record →
    (record.erased = true ∧ id ∈ store.tombstones) ∨
      (record.erased = false ∧ store.descriptors.find? id = some record.descriptor)
  marks : store.directory.tombstones = store.tombstones.map StrongId.toString

section
variable {store loaded : FileArtifactStore} {lines seen : List ArtifactDescriptor}
variable {line descriptor : ArtifactDescriptor} {writer : ArtifactWriter}

/-- The new store has the index of the old one, as far as the lines have been read. -/
structure Loads (store : FileArtifactStore) (seen : List ArtifactDescriptor)
    (loaded : FileArtifactStore) : Prop where
  directory : loaded.directory = store.directory
  tombstones : loaded.tombstones = store.tombstones
  writable : loaded.readOnly = false
  descriptors : ∀ id, loaded.descriptors.find? id =
    if id ∈ seen.map ArtifactDescriptor.id then store.descriptors.find? id else none
  paths : ∀ id, loaded.paths.find? id =
    (loaded.descriptors.find? id).map ArtifactDescriptor.digest
  records : ∀ id record, loaded.memory.records.find? id = some record →
    record.erased = false ∧ loaded.descriptors.find? id = some record.descriptor ∧
      record.bytes.length = record.descriptor.byteSize

theorem writerOf_ok {content : Bytes} (small : descriptor.byteSize < 2 ^ 64)
    (own : descriptor.id = idFromDigest descriptor.digest)
    (hashed : digestString content = descriptor.digest)
    (sized : content.length = descriptor.byteSize) :
    ∃ writer, FileArtifactStore.writerOf descriptor content = .ok writer ∧
      writer.bytes = content ∧ writer.planned = descriptor := by
  have bounded : max descriptor.byteSize 1 < 2 ^ 64 := by omega
  have limit : (UInt64.ofNat (max descriptor.byteSize 1)).toNat = max descriptor.byteSize 1 :=
    UInt64.toNat_ofNat_of_lt' bounded
  have positive : UInt64.ofNat (max descriptor.byteSize 1) ≠ 0 := by
    intro zero
    rw [zero] at limit
    have : (0 : UInt64).toNat = 0 := rfl
    omega
  have fits : content.length ≤ (UInt64.ofNat (max descriptor.byteSize 1)).toNat - 0 := by omega
  refine ⟨⟨⟨descriptor.metadata, .ofNat (max descriptor.byteSize 1)⟩, content, by omega⟩, ?_, rfl,
    ?_⟩
  · simp only [FileArtifactStore.writerOf, MemoryArtifactStore.begin, if_neg positive, bind,
      Except.bind, ArtifactWriter.write, List.length_nil, dif_pos fits, List.nil_append]
  · rw [ArtifactWriter.planned]
    simp only [hashed, sized, ← own]

theorem Loads.step (stored : Stored store lines) (loads : Loads store seen loaded)
    (among : line ∈ lines) : Loads store (seen ++ [line]) (loaded.loadDescriptor line) := by
  rw [FileArtifactStore.loadDescriptor]
  by_cases erased : line.id ∈ loaded.tombstones
  · rw [if_pos erased]
    refine ⟨loads.directory, loads.tombstones, loads.writable, ?_, loads.paths, loads.records⟩
    intro id
    rw [loads.descriptors, List.map_append, List.map_singleton]
    by_cases same : id = line.id
    · have gone : store.descriptors.find? id = none := by
        rw [Option.eq_none_iff_forall_ne_some]
        intro descriptor found
        rw [loads.tombstones, ← same] at erased
        exact (stored.listed id descriptor found).2.2 erased
      rw [gone, ite_self, ite_self]
    · simp [same]
  · rw [if_neg erased]
    have kept : store.descriptors.find? line.id = some line :=
      stored.live line among (loads.tombstones ▸ erased)
    obtain ⟨content, found, hashed, sized, -⟩ := stored.objects line.id line kept
    obtain ⟨writer, written, bytes, planned⟩ := writerOf_ok (stored.plain line among).small
      (stored.own line among) hashed sized
    have committed : ∃ descriptor memory, loaded.memory.commit writer = .ok (descriptor, memory) ∧
        ∀ id, memory.records.find? id = loaded.memory.records.find? id ∨
          (id = line.id ∧ memory.records.find? id = some ⟨line, content, false⟩) := by
      rw [MemoryArtifactStore.commit, planned, bytes]
      cases present : loaded.memory.records.find? line.id with
      | none =>
          refine ⟨_, _, rfl, fun id => ?_⟩
          by_cases same : id = line.id
          · refine .inr ⟨same, ?_⟩
            rw [KeyedTable.find?_assign, if_pos same]
          · refine .inl ?_
            rw [KeyedTable.find?_assign, if_neg same]
      | some record =>
          obtain ⟨whole, listed, length⟩ := loads.records line.id record present
          have own : record.descriptor = line := by
            rw [loads.descriptors] at listed
            split at listed
            · exact Option.some.inj (listed.symm.trans kept)
            · cases listed
          dsimp only
          rw [if_neg (by simp [whole]), if_pos ⟨by rw [own], by rw [length, own, sized]⟩]
          exact ⟨_, _, rfl, fun id => .inl rfl⟩
    obtain ⟨descriptor, memory, committed, records⟩ := committed
    simp only [loads.directory, found, written, committed]
    rw [if_neg (by simp [hashed, sized])]
    have descriptors (id : ArtifactId) :
        (loaded.descriptors.assign line.id line).find? id =
          if id ∈ (seen ++ [line]).map ArtifactDescriptor.id then store.descriptors.find? id
          else none := by
      rw [KeyedTable.find?_assign, loads.descriptors, List.map_append, List.map_singleton]
      by_cases same : id = line.id
      · simp [same, kept]
      · simp [same]
    refine ⟨rfl, loads.tombstones, loads.writable, descriptors, ?_, ?_⟩
    · intro id
      rw [KeyedTable.find?_assign, KeyedTable.find?_assign, loads.paths]
      split
      · rfl
      · rfl
    · intro id record held
      dsimp only at held ⊢
      cases records id with
      | inl same =>
          rw [same] at held
          obtain ⟨whole, listed, length⟩ := loads.records id record held
          refine ⟨whole, ?_, length⟩
          rw [KeyedTable.find?_assign]
          split
          · next here =>
              rw [loads.descriptors, here] at listed
              split at listed
              · exact kept.symm.trans listed
              · cases listed
          · exact listed
      | inr fresh =>
          rw [fresh.2] at held
          cases held
          refine ⟨rfl, ?_, sized⟩
          rw [KeyedTable.find?_assign, if_pos fresh.1]

theorem Loads.run (stored : Stored store lines) {rest : List ArtifactDescriptor}
    (loads : Loads store seen loaded) (among : ∀ line ∈ rest, line ∈ lines) :
    Loads store (seen ++ rest) (rest.foldl FileArtifactStore.loadDescriptor loaded) := by
  induction rest generalizing seen loaded with
  | nil => rwa [List.append_nil]
  | cons line rest ih =>
      rw [List.append_cons]
      exact ih (loads.step stored (among line (.head _))) fun other later =>
        among other (.tail _ later)

structure Reopens (store reopened : FileArtifactStore) : Prop where
  directory : reopened.directory = store.directory
  tombstones : reopened.tombstones = store.tombstones
  writable : reopened.readOnly = false
  descriptors : ∀ id, reopened.descriptors.find? id = store.descriptors.find? id
  paths : ∀ id, reopened.paths.find? id = store.paths.find? id

theorem Stored.reopens (stored : Stored store lines) :
    Reopens store (FileArtifactStore.load store.directory) := by
  have marks : store.directory.tombstones.filterMap StrongId.parse = store.tombstones := by
    have parsed : (StrongId.parse ∘ StrongId.toString : ArtifactId → Option ArtifactId) = some :=
      funext StrongId.parse_toString
    rw [stored.marks, List.filterMap_map, parsed, List.filterMap_some]
  have start : Loads store []
      { directory := store.directory
        tombstones := store.directory.tombstones.filterMap StrongId.parse } :=
    ⟨rfl, marks, rfl, fun _ => rfl, fun _ => rfl, fun _ _ held => by cases held⟩
  have loads := Loads.run stored start fun line among => among
  rw [← load_eq stored.written stored.plain, List.nil_append] at loads
  have descriptors (id : ArtifactId) :
      (FileArtifactStore.load store.directory).descriptors.find? id =
        store.descriptors.find? id := by
    rw [loads.descriptors]
    split
    · rfl
    · next absent =>
        cases found : store.descriptors.find? id with
        | none => rfl
        | some descriptor =>
            obtain ⟨among, own, -⟩ := stored.listed id descriptor found
            exact absurd (List.mem_map.mpr ⟨descriptor, among, own⟩) absent
  exact ⟨loads.directory, loads.tombstones, loads.writable, descriptors, fun id => by
    rw [loads.paths, descriptors, stored.paths]⟩

theorem Reopens.opens {reopened : FileArtifactStore} (reopens : Reopens store reopened)
    (descriptor : ArtifactDescriptor) :
    reopened.openArtifact descriptor = store.openArtifact descriptor := by
  rw [FileArtifactStore.openArtifact, FileArtifactStore.openArtifact, reopens.paths,
    reopens.descriptors, reopens.directory, reopens.tombstones]

end

end Mira.Storage
