import Mira.Json.KeyOrder
import Mira.Json.RoundTrip

/-!
The limits of the parser seen from its results: no string it returns is as long as the
limit on strings, and no array holds more than the limit on items.
-/

namespace Mira
open Bytes

/-- The values within the limits on strings and arrays. -/
inductive JsonValue.Fits (limits : JsonLimits) : JsonValue → Prop
  | null : Fits limits .null
  | boolean (value : Bool) : Fits limits (.boolean value)
  | integer (value : Int) : Fits limits (.integer value)
  | number (value : Rat) : Fits limits (.number value)
  | string (text : Bytes) (room : text.length < limits.maxStringBytes) :
      Fits limits (.string text)
  | array (items : List JsonValue) (room : items.length ≤ limits.maxArrayItems)
      (each : ∀ item ∈ items, Fits limits item) : Fits limits (.array items)
  | object (members : List (Bytes × JsonValue))
      (each : ∀ member ∈ members, Fits limits member.2) : Fits limits (.object members)

section Parser
variable {limits : JsonLimits}

variable {input text rest : Bytes}

theorem parseStringRaw_length (read : parseStringRaw limits input = .ok (text, rest)) :
    text.length < limits.maxStringBytes := by
  refine (Scan.accepts_of_loop read).establishes (fun _ => True)
    (fun text => text.length < limits.maxStringBytes) (fun _ _ _ _ _ _ => trivial) ?_ trivial
  intro output input result rest finished _
  simp only [stringRound] at finished
  split at finished
  · cases finished
  · split at finished
    · cases finished
    · next short =>
        split at finished
        · cases finished
        · split at finished
          · cases finished
            exact Nat.not_le.mp short
          · split at finished
            · cases finished
            · cases finished

variable {value : JsonValue}

theorem parseStringValue_fits (read : parseStringValue limits input = .ok (value, rest)) :
    value.Fits limits := by
  simp only [parseStringValue] at read
  split at read
  · cases read
  · next text after raw =>
      cases read
      exact .string text (parseStringRaw_length raw)

theorem numberOfToken_fits {isFloat : Bool} {token : NumberToken}
    (read : numberOfToken isFloat token = .ok value) : value.Fits limits := by
  simp only [numberOfToken] at read
  split at read
  · cases read
    exact .integer _
  · split at read
    · cases read
      exact .number _
    · cases read

theorem parseNumber_fits (read : parseNumber input = .ok (value, rest)) : value.Fits limits := by
  simp only [parseNumber] at read
  split at read
  · cases read
  · split at read
    · cases read
    · split at read
      · cases read
      · split at read
        · cases read
        · next token =>
            cases read
            exact numberOfToken_fits token

theorem parseLiteral_fits {literal : Bytes} {known : JsonValue} (fits : known.Fits limits)
    (read : parseLiteral literal known input = .ok (value, rest)) : value.Fits limits := by
  simp only [parseLiteral] at read
  split at read
  · cases read
    exact fits
  · cases read

section Containers
variable {value : Bytes → Parsed JsonValue}
  (values : ∀ input item rest, value input = .ok (item, rest) → item.Fits limits)
include values

variable {input : Bytes}

theorem itemRound_fits {items : List JsonValue}
    {round : Scan.Round (List JsonValue) JsonValue UInt8}
    (went : itemRound limits value items input = .ok round) :
    ∃ item rest, items.length < limits.maxArrayItems ∧ item.Fits limits ∧
      (round = .again (items ++ [item]) rest ∨ round = .done (.array (items ++ [item])) rest) := by
  simp only [itemRound] at went
  split at went
  · cases went
  · next room =>
      split at went
      · cases went
      · next item after read =>
          have fits := values _ _ _ read
          split at went
          · cases went
            exact ⟨item, _, Nat.not_le.mp room, fits, .inl rfl⟩
          · cases went
            exact ⟨item, _, Nat.not_le.mp room, fits, .inr rfl⟩
          · cases went

theorem memberRound_fits {members : List (Bytes × JsonValue)}
    {round : Scan.Round (List (Bytes × JsonValue)) JsonValue UInt8}
    (went : memberRound limits value members input = .ok round) :
    ∃ key item rest, item.Fits limits ∧
      (round = .again (members ++ [(key, item)]) rest ∨
        round = .done (.object (members ++ [(key, item)])) rest) := by
  simp only [memberRound] at went
  split at went
  · cases went
  · next key colon named =>
      split at went
      · cases went
      · next item after read =>
          have fits := values _ _ _ read
          split at went
          · cases went
            exact ⟨key, item, _, fits, .inl rfl⟩
          · cases went
            exact ⟨key, item, _, fits, .inr rfl⟩
          · cases went

variable {rest : Bytes} {item : JsonValue}

theorem parseArray_fits (read : parseArray limits value input = .ok (item, rest)) :
    item.Fits limits := by
  have scanned {input : Bytes}
      (read : scanAll (itemRound limits value) [] input = .ok (item, rest)) :
      item.Fits limits := by
    refine (Scan.accepts_of_loop read).establishes
      (fun items => ∀ item ∈ items, item.Fits limits) (·.Fits limits) ?_ ?_ nofun
    · intro items input items' rest went each
      obtain ⟨item, after, _, fits, again | done⟩ := itemRound_fits values went
      · cases again
        exact List.forall_mem_append.mpr ⟨each, List.forall_mem_singleton.mpr fits⟩
      · cases done
    · intro items input result rest went each
      obtain ⟨item, after, room, fits, again | done⟩ := itemRound_fits values went
      · cases again
      · cases done
        refine .array _ ?_ (List.forall_mem_append.mpr ⟨each, List.forall_mem_singleton.mpr fits⟩)
        rw [List.length_append, List.length_singleton]
        exact room
  simp only [parseArray, parseContainer] at read
  split at read
  · exact scanned read
  · split at read
    · cases read
      exact .array [] (Nat.zero_le _) nofun
    · exact scanned read

theorem parseObject_fits (read : parseObject limits value input = .ok (item, rest)) :
    item.Fits limits := by
  have scanned {input : Bytes}
      (read : scanAll (memberRound limits value) [] input = .ok (item, rest)) :
      item.Fits limits := by
    refine (Scan.accepts_of_loop read).establishes
      (fun members => ∀ member ∈ members, member.2.Fits limits) (·.Fits limits) ?_ ?_ nofun
    · intro members input members' rest went each
      obtain ⟨key, item, after, fits, again | done⟩ := memberRound_fits values went
      · cases again
        exact List.forall_mem_append.mpr ⟨each, List.forall_mem_singleton.mpr fits⟩
      · cases done
    · intro members input result rest went each
      obtain ⟨key, item, after, fits, again | done⟩ := memberRound_fits values went
      · cases again
      · cases done
        exact .object _ (List.forall_mem_append.mpr ⟨each, List.forall_mem_singleton.mpr fits⟩)
  simp only [parseObject, parseContainer] at read
  split at read
  · exact scanned read
  · split at read
    · cases read
      exact .object [] nofun
    · exact scanned read

end Containers

theorem parseValue_fits {levels : Nat} (read : parseValue limits levels input = .ok (value, rest)) :
    value.Fits limits := by
  induction levels generalizing input rest value with
  | zero => cases read
  | succ levels ih =>
      cases input with
      | nil => cases read
      | cons c tail =>
          simp only [parseValue] at read
          split at read
          · exact parseObject_fits (fun _ _ _ => ih) read
          · split at read
            · exact parseArray_fits (fun _ _ _ => ih) read
            · split at read
              · exact parseStringValue_fits read
              · split at read
                · exact parseLiteral_fits (.boolean true) read
                · split at read
                  · exact parseLiteral_fits (.boolean false) read
                  · split at read
                    · exact parseLiteral_fits .null read
                    · exact parseNumber_fits read

theorem parseJson_fits (read : parseJson text limits = .ok value) :
    text.length ≤ limits.maxDocumentBytes ∧ value.Fits limits := by
  simp only [parseJson] at read
  split at read
  · cases read
  · next room =>
      obtain ⟨rest, read⟩ := parseDocument_value limits text value read
      exact ⟨Nat.not_lt.mp room, parseValue_fits read⟩

end Parser

variable {limits : JsonLimits} {value : JsonValue}

theorem JsonValue.Fits.find {document : JsonValue} (fits : document.Fits limits) {key : Bytes}
    (found : document.find key = some value) : value.Fits limits := by
  cases fits with
  | object members each =>
      obtain ⟨member, hit, rfl⟩ := Option.map_eq_some_iff.mp found
      exact each member (List.mem_of_find?_eq_some hit)
  | _ => cases found

variable {levels : Nat}

theorem JsonValue.arrange_false (portable : value.Portable limits levels) :
    value.arrange false = value := by
  induction levels generalizing value with
  | zero => cases portable
  | succ levels ih =>
      cases portable with
      | null => rfl
      | boolean => rfl
      | integer => rfl
      | string => rfl
      | array items room each =>
          have same : items.map (JsonValue.arrange false) = items.map id :=
            List.map_congr_left fun item present => ih (each item present)
          rw [JsonValue.arrange, arrangeItems_eq, same, List.map_id]
      | object members room distinct keys each =>
          have same : members.map (fun member => (member.1, member.2.arrange false)) =
              members.map id :=
            List.map_congr_left fun member present =>
              congrArg (Prod.mk member.1) (ih (each member present))
          rw [JsonValue.arrange, arrangeMembers_eq, same, List.map_id]
          rfl

/-!
Documents that are written and read back: which ones the parser can read, what is found
in them after the canonical writer has put their members in order, and how long their
texts are at most. Neither the lookups nor the sizes depend on the order.
-/

/-- Keys that are short, plain and all different. -/
def PlainKeys (keys : List Bytes) : Prop :=
  keys.Nodup ∧ ∀ key ∈ keys, (∀ b ∈ key, b.toNat < 128) ∧ key.length < 64

instance (keys : List Bytes) : Decidable (PlainKeys keys) :=
  inferInstanceAs (Decidable (_ ∧ _))

variable {members : List (Bytes × JsonValue)}

theorem object_portable {keys : List Bytes} (plain : PlainKeys keys)
    (part : (members.map Prod.fst).Sublist keys) (few : keys.length ≤ 100)
    (each : ∀ member ∈ members, member.2.Portable {} levels) :
    (JsonValue.object members).Portable {} (levels + 1) := by
  have length : members.length ≤ keys.length := by
    have shorter := part.length_le
    rwa [List.length_map] at shorter
  refine .object members ?_ (plain.1.sublist part) ?_ each
  · exact (length.trans few).trans (by decide)
  · intro member present
    obtain ⟨low, short⟩ := plain.2 member.1 (part.subset (List.mem_map_of_mem present))
    have room : 64 ≤ ({} : JsonLimits).maxStringBytes := by decide
    exact ⟨validUtf8_printable_ascii _ low, short.trans_le room⟩

variable {text : Bytes}

theorem text_portable (valid : ValidUtf8 text) (short : text.length < 1024 * 1024) :
    (JsonValue.string text).Portable {} (levels + 1) :=
  .string text valid short

theorem hex_portable {bytes : Bytes} (short : bytes.length ≤ 32) :
    (JsonValue.string (toHex bytes)).Portable {} (levels + 1) := by
  refine text_portable (validUtf8_printable_ascii _ (toHex_ascii bytes)) ?_
  rw [length_toHex]
  omega

theorem id_portable {tag : IdTag} (id : StrongId tag) :
    (JsonValue.string id.toString).Portable {} (levels + 1) := by
  apply hex_portable
  rw [id.value.size]
  omega

theorem counter_portable {counter : Nat} (readable : counter ≠ 2 ^ 63) (small : counter < 2 ^ 64) :
    (JsonValue.integer (toInt64 counter)).Portable {} (levels + 1) := by
  refine .integer _ ?_ ?_
  · simp only [toInt64, Nat.mod_eq_of_lt small]
    split <;> omega
  · simp only [toInt64, Nat.mod_eq_of_lt small]
    split <;> omega

theorem array_portable {α : Type} {encode : α → JsonValue} {items : List α}
    (few : items.length ≤ 100000) (each : ∀ item ∈ items, (encode item).Portable {} levels) :
    (JsonValue.array (items.map encode)).Portable {} (levels + 1) := by
  refine .array _ (by rwa [List.length_map]) ?_
  intro value present
  obtain ⟨item, held, rfl⟩ := List.mem_map.mp present
  exact each item held

/-- A text the parser reads. -/
def Readable (text : Bytes) : Prop := ValidUtf8 text ∧ text.length < 1024 * 1024

theorem Readable.portable (readable : Readable text) :
    (JsonValue.string text).Portable {} (levels + 1) :=
  text_portable readable.1 readable.2

variable (canonical : Bool)

theorem JsonValue.find_arrange (distinct : (members.map Prod.fst).Nodup) (key : Bytes) :
    ((JsonValue.object members).arrange canonical).find key =
      ((JsonValue.object members).find key).map (JsonValue.arrange canonical) := by
  have distinct' : ((arrangeMembers canonical members).map Prod.fst).Nodup := by
    rw [arrangeMembers_eq, List.map_map]
    exact distinct
  rw [JsonValue.arrange]
  rw [← JsonValue.find_perm (orderMembers_perm canonical _).symm distinct', arrangeMembers_eq]
  simp only [JsonValue.find]
  clear distinct distinct'
  induction members with
  | nil => rfl
  | cons member rest ih =>
      rw [List.map_cons, List.find?_cons, List.find?_cons]
      cases same : decide (member.1 = key) with
      | true => simp
      | false =>
          exact ih

theorem canonicalJsonString_of_perm {first second : List (Bytes × JsonValue)}
    (same : first.Perm second) (distinct : (first.map Prod.fst).Nodup) :
    canonicalJsonString (.object first) = canonicalJsonString (.object second) := by
  have distinct' : ((writeMembers true first).map Prod.fst).Nodup := by
    rw [writeMembers_eq, List.map_map]
    exact distinct
  have written : (writeMembers true first).Perm (writeMembers true second) := by
    rw [writeMembers_eq, writeMembers_eq]
    exact same.map _
  simp only [canonicalJsonString, writeValue, orderMembers_of_perm written distinct']

theorem length_joinWith_le (separator : UInt8) (texts : List Bytes) :
    (joinWith separator texts).length ≤ (texts.map fun text => text.length + 1).sum := by
  induction texts with
  | nil => exact le_rfl
  | cons text rest ih =>
      cases rest with
      | nil => simp [joinWith]
      | cons next rest =>
          simp only [joinWith, List.length_append, List.length_cons, List.map_cons,
            List.sum_cons] at ih ⊢
          omega

/-- A written object is at most as long as its keys and values with the marks between
them. -/
theorem length_object_le (members : List (Bytes × JsonValue)) :
    (writeValue canonical (.object members)).length ≤
      2 + ((members.map Prod.fst).map fun key => (writeString key).length + 2).sum +
        (members.map fun member => (writeValue canonical member.2).length).sum := by
  have joined := length_joinWith_le 44
    ((orderMembers canonical (writeMembers canonical members)).map writeMember)
  have perm := (orderMembers_perm canonical (writeMembers canonical members)).map
    fun member => (writeMember member).length + 1
  rw [List.map_map] at joined
  have total := perm.sum_eq
  have sizes : ((writeMembers canonical members).map fun member =>
      (writeMember member).length + 1) = members.map fun member =>
        (writeString member.1).length + 2 + (writeValue canonical member.2).length := by
    rw [writeMembers_eq, List.map_map]
    apply List.map_congr_left
    intro member _
    simp only [Function.comp_apply, writeMember, List.length_append, List.length_cons]
    omega
  have split : (members.map fun member =>
      (writeString member.1).length + 2 + (writeValue canonical member.2).length).sum =
        (members.map fun member => (writeString member.1).length + 2).sum +
          (members.map fun member => (writeValue canonical member.2).length).sum :=
    List.sum_map_add
  rw [sizes, split] at total
  rw [List.map_map]
  rw [writeValue]
  simp only [List.length_cons, List.length_append, List.length_nil, Function.comp_def] at joined ⊢
  omega

theorem length_writeString_le (plain : ∀ c ∈ text, 32 ≤ c.toNat) :
    (writeString text).length ≤ 2 * text.length + 2 := by
  have body (continuation : Nat) :
      (writeStringBody continuation text).length ≤ 2 * text.length := by
    induction text generalizing continuation with
    | nil => simp [writeStringBody]
    | cons c rest ih =>
        obtain ⟨own, later⟩ := List.forall_mem_cons.mp plain
        cases continuation with
        | zero =>
            have copied := ih later (continuationCount c)
            have short := (length_escapeByte c).2 own
            simp only [writeStringBody, List.length_append, List.length_cons]
            omega
        | succ continuation =>
            have copied := ih later continuation
            simp only [writeStringBody, List.length_cons]
            omega
  have whole := body 0
  simp only [writeString, List.length_cons, List.length_append, List.length_nil]
  omega

theorem toHex_plain (bytes : Bytes) : ∀ c ∈ toHex bytes, 32 ≤ c.toNat := by
  intro c present
  obtain ⟨byte, _, digit⟩ := List.mem_flatMap.mp present
  have bound : byte.toNat < 256 := byte.toNat_lt
  have large : ∀ n < 16, 32 ≤ (hexDigit n).toNat := by decide
  simp only [hexByte, List.mem_cons, List.not_mem_nil, or_false] at digit
  cases digit with
  | inl high =>
      rw [high]
      exact large _ (by omega)
  | inr low =>
      rw [low]
      exact large _ (by omega)

end Mira
