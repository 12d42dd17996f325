import Mira.Json.Canonical
import Mira.Json.Distinct
import Mira.Json.Escaping

/-!
The canonical text of a value stands for the value up to the order of members. Behind the text of a
value comes a separator, a closing bracket or nothing, so that two texts which agree with what comes
behind them are those of values with the same arrangement.
-/

namespace Mira
open Bytes

namespace JsonValue

/-- No number but integers, only valid strings, and no key twice in an object. -/
inductive Textual : JsonValue → Prop
  | null : Textual .null
  | boolean (value : Bool) : Textual (.boolean value)
  | integer (value : Int) : Textual (.integer value)
  | string {text : Bytes} (valid : ValidUtf8 text) : Textual (.string text)
  | array {items : List JsonValue} (each : ∀ item ∈ items, Textual item) : Textual (.array items)
  | object {members : List (Bytes × JsonValue)} (distinct : (members.map Prod.fst).Nodup)
      (keys : ∀ member ∈ members, ValidUtf8 member.1)
      (each : ∀ member ∈ members, Textual member.2) : Textual (.object members)

/-- The values are equal once the members of objects are permuted, at every depth. -/
inductive Rearranged : JsonValue → JsonValue → Prop
  | null : Rearranged .null .null
  | boolean (value : Bool) : Rearranged (.boolean value) (.boolean value)
  | integer (value : Int) : Rearranged (.integer value) (.integer value)
  | number (value : Rat) : Rearranged (.number value) (.number value)
  | string (text : Bytes) : Rearranged (.string text) (.string text)
  | array {items items' : List JsonValue} (length : items.length = items'.length)
      (each : ∀ pair ∈ items.zip items', Rearranged pair.1 pair.2) :
      Rearranged (.array items) (.array items')
  | object {members moved members' : List (Bytes × JsonValue)} (order : members.Perm moved)
      (keys : moved.map Prod.fst = members'.map Prod.fst)
      (each : ∀ pair ∈ moved.zip members', Rearranged pair.1.2 pair.2.2) :
      Rearranged (.object members) (.object members')

end JsonValue

open JsonValue

variable {value other : JsonValue} {rest rest' : Bytes}

theorem map_eq_of_zip {α β : Type} {image : α → β} {first second : List α}
    (length : first.length = second.length)
    (each : ∀ pair ∈ first.zip second, image pair.1 = image pair.2) :
    first.map image = second.map image := by
  induction first generalizing second with
  | nil =>
      cases second with
      | nil => rfl
      | cons _ _ => cases length
  | cons a more ih =>
      cases second with
      | nil => cases length
      | cons b more' =>
          rw [List.zip_cons_cons, List.forall_mem_cons] at each
          rw [List.map_cons, List.map_cons, each.1, ih (Nat.succ.inj length) each.2]

theorem zip_of_map_eq {α β : Type} {image : α → β} {first second : List α}
    (same : first.map image = second.map image) :
    ∀ pair ∈ first.zip second, image pair.1 = image pair.2 := by
  induction first generalizing second with
  | nil => exact fun pair never => (List.not_mem_nil never).elim
  | cons a more ih =>
      cases second with
      | nil => cases same
      | cons b more' =>
          rw [List.map_cons, List.map_cons, List.cons.injEq] at same
          rw [List.zip_cons_cons, List.forall_mem_cons]
          exact ⟨same.1, ih same.2⟩

theorem canonical_of_rearranged (same : Rearranged value other)
    (textual : value.Textual) : canonicalJsonString value = canonicalJsonString other := by
  rw [canonicalJsonString, canonicalJsonString]
  induction same with
  | null => rfl
  | boolean _ => rfl
  | integer _ => rfl
  | number _ => rfl
  | string _ => rfl
  | @array items items' length _ ih =>
      cases textual with
      | array textual =>
          have texts : items.map (writeValue true) = items'.map (writeValue true) :=
            map_eq_of_zip length fun pair held =>
              ih pair held (textual pair.1 (List.of_mem_zip held).1)
          rw [writeValue, writeValue, writeItems_eq, writeItems_eq, texts]
  | @object members moved members' order keys _ ih =>
      cases textual with
      | object distinct valid textual =>
          have length : moved.length = members'.length := by
            have both := congrArg List.length keys
            rwa [List.length_map, List.length_map] at both
          have texts : writeMembers true moved = writeMembers true members' := by
            rw [writeMembers_eq, writeMembers_eq]
            refine map_eq_of_zip length fun pair held => ?_
            have inside := order.symm.subset (List.of_mem_zip held).1
            rw [zip_of_map_eq keys pair held, ih pair held (textual pair.1 inside)]
          have moves : (writeMembers true members).Perm (writeMembers true moved) := by
            rw [writeMembers_eq, writeMembers_eq]
            exact order.map _
          have apart : ((writeMembers true members).map Prod.fst).Nodup := by
            rw [writeMembers_eq, List.map_map]
            exact distinct
          rw [writeValue, writeValue, orderMembers_of_perm moves apart, texts]

theorem rearranged_of_arrange (textual : value.Textual)
    (same : value.arrange true = other.arrange true) : Rearranged value other := by
  induction textual generalizing other with
  | null =>
      cases other <;> cases same
      exact .null
  | boolean value =>
      cases other <;> cases same
      exact .boolean value
  | integer value =>
      cases other <;> cases same
      exact .integer value
  | @string text _ =>
      cases other <;> cases same
      exact .string text
  | @array items _ ih =>
      cases other with
      | array items' =>
          rw [arrange, arrange, arrangeItems_eq, arrangeItems_eq, array.injEq] at same
          have length := congrArg List.length same
          rw [List.length_map, List.length_map] at length
          refine .array length fun pair held => ?_
          exact ih pair.1 (List.of_mem_zip held).1 (zip_of_map_eq same pair held)
      | null => cases same
      | boolean _ => cases same
      | integer _ => cases same
      | number _ => cases same
      | string _ => cases same
      | object _ => cases same
  | @object members _ _ _ ih =>
      cases other with
      | object members' =>
          rw [arrange, arrange, object.injEq] at same
          have order : (arrangeMembers true members').Perm (arrangeMembers true members) :=
            (orderMembers_perm true _).symm.trans (same ▸ orderMembers_perm true _)
          rw [arrangeMembers_eq, arrangeMembers_eq] at order
          have back := congrFun (congrFun (List.eq_map_comp_perm fun member : Bytes × JsonValue =>
            (member.1, member.2.arrange true)) (members'.map fun member =>
              (member.1, member.2.arrange true))) members
          obtain ⟨moved, images, moves⟩ := back.mpr order
          refine .object moves.symm ?_ fun pair held => ?_
          · have keys := congrArg (List.map Prod.fst) images
            rw [List.map_map, List.map_map] at keys
            exact keys.symm
          · have inside := moves.subset (List.of_mem_zip held).1
            have own := zip_of_map_eq images.symm pair held
            exact ih pair.1 inside (Prod.mk.inj own).2
      | null => cases same
      | boolean _ => cases same
      | integer _ => cases same
      | number _ => cases same
      | string _ => cases same
      | array _ => cases same

/-- What may come behind the text of a value. -/
def Delimited (rest : Bytes) : Prop := ∀ c ∈ rest.head?, c = 44 ∨ c = 93 ∨ c = 125

theorem joined_apart {α β : Type} {write : α → Bytes} {image : α → β} {close : UInt8}
    (closing : close = 93 ∨ close = 125) {first second : List α}
    (opens : ∀ a, a ∈ first ∨ a ∈ second → ∃ c text, write a = c :: text ∧ c ≠ close)
    (apart : ∀ a ∈ first, ∀ b ∈ second, ∀ rest rest', Delimited rest → Delimited rest' →
      write a ++ rest = write b ++ rest' → image a = image b ∧ rest = rest')
    (same : joinWith 44 (first.map write) ++ close :: rest =
      joinWith 44 (second.map write) ++ close :: rest') :
    first.map image = second.map image ∧ rest = rest' := by
  have closed (rest : Bytes) : Delimited (close :: rest) := by
    intro c own
    rw [← Option.some.inj own]
    exact .inr closing
  have comma (rest : Bytes) : Delimited (44 :: rest) := by
    intro c own
    exact .inl (Option.some.inj own).symm
  have apart_comma : close ≠ 44 := by
    rintro rfl
    cases closing with
    | inl never => cases never
    | inr never => cases never
  induction first generalizing second with
  | nil =>
      cases second with
      | nil => exact ⟨rfl, (List.cons.inj same).2⟩
      | cons b more =>
          obtain ⟨c, text, written, other⟩ := opens b (.inr List.mem_cons_self)
          cases more <;>
            · simp only [List.map_nil, List.map_cons, joinWith, written, List.nil_append,
                List.cons_append, List.cons.injEq] at same
              exact absurd same.1.symm other
  | cons a more ih =>
      have ends (a : α) (more : List α) (rest : Bytes) : ∃ tail, Delimited tail ∧
          joinWith 44 ((a :: more).map write) ++ close :: rest = write a ++ tail ∧
            ((more = [] ∧ tail = close :: rest) ∨
              tail = 44 :: (joinWith 44 (more.map write) ++ close :: rest)) := by
        cases more with
        | nil => exact ⟨_, closed rest, rfl, .inl ⟨rfl, rfl⟩⟩
        | cons b more =>
            refine ⟨_, comma _, ?_, .inr rfl⟩
            simp [joinWith]
      cases second with
      | nil =>
          obtain ⟨c, text, written, other⟩ := opens a (.inl List.mem_cons_self)
          cases more <;>
            · simp only [List.map_nil, List.map_cons, joinWith, written, List.nil_append,
                List.cons_append, List.cons.injEq] at same
              exact absurd same.1 other
      | cons b more' =>
          obtain ⟨tail, delimited, whole, how⟩ := ends a more rest
          obtain ⟨tail', delimited', whole', how'⟩ := ends b more' rest'
          rw [whole, whole'] at same
          obtain ⟨own, tails⟩ := apart a List.mem_cons_self b List.mem_cons_self tail tail'
            delimited delimited' same
          rcases how with ⟨rfl, rfl⟩ | rfl
          · rcases how' with ⟨rfl, rfl⟩ | rfl
            · rw [List.map_cons, List.map_cons, own]
              exact ⟨rfl, (List.cons.inj tails).2⟩
            · exact absurd (List.cons.inj tails).1 apart_comma
          · rcases how' with ⟨rfl, rfl⟩ | rfl
            · exact absurd (List.cons.inj tails).1.symm apart_comma
            · have later := ih (fun a held => opens a (held.imp (List.mem_cons_of_mem _)
                (List.mem_cons_of_mem _))) (fun a held b held' => apart a
                  (List.mem_cons_of_mem _ held) b (List.mem_cons_of_mem _ held'))
                    (List.cons.inj tails).2
              rw [List.map_cons, List.map_cons, own, later.1]
              exact ⟨rfl, later.2⟩

theorem decimalInt_apart {n m : Int} (ends : Delimited rest)
    (ends' : Delimited rest') (same : decimalInt n ++ rest = decimalInt m ++ rest') :
    n = m ∧ rest = rest' := by
  have own (n : Int) : ∀ c ∈ decimalInt n, (isDigit c || c = 45) = true := by
    intro c held
    by_contra other
    rw [Bool.not_eq_true, Bool.or_eq_false_iff, decide_eq_false_iff_not] at other
    exact decimalInt_safe other.1 other.2 n held
  have stop {rest : Bytes} (ends : Delimited rest) :
      rest.takeWhile (fun c => isDigit c || c = 45) = [] := by
    cases rest with
    | nil => rfl
    | cons c more =>
        rcases ends c rfl with rfl | rfl | rfl <;> rfl
  have digits := congrArg (List.takeWhile fun c => isDigit c || c = 45) same
  rw [List.takeWhile_append_of_pos (own n), List.takeWhile_append_of_pos (own m), stop ends,
    stop ends', List.append_nil, List.append_nil] at digits
  refine ⟨decimalInt_injective digits, ?_⟩
  rw [digits] at same
  exact List.append_cancel_left same

theorem writeString_apart {first second rest rest' : Bytes} (valid : ValidUtf8 first)
    (valid' : ValidUtf8 second) (same : writeString first ++ rest = writeString second ++ rest') :
    first = second ∧ rest = rest' := by
  have ends (text rest : Bytes) :
      writeString text ++ rest = 34 :: (writeStringBody 0 text ++ 34 :: rest) := by
    simp [writeString]
  rw [ends, ends, List.cons.injEq] at same
  have left := congrArg (afterQuote false) same.2
  rw [writeString_ends valid, writeString_ends valid', Option.some.injEq] at left
  rw [left] at same
  exact ⟨writeStringBody_injective 0 (List.append_cancel_right same.2), left⟩

def JsonValue.lead : JsonValue → Nat
  | .null => 0
  | .boolean _ => 1
  | .string _ => 2
  | .array _ => 3
  | .object _ => 4
  | .integer _ => 5
  | .number _ => 5

def leadOf (c : UInt8) : Nat :=
  if c = 110 then 0
  else if c = 116 ∨ c = 102 then 1
  else if c = 34 then 2
  else if c = 91 then 3
  else if c = 123 then 4
  else if c = 93 ∨ c = 125 then 6
  else 5

theorem writeValue_lead {value : JsonValue} (textual : value.Textual) :
    ∃ c text, writeValue true value = c :: text ∧ leadOf c = value.lead := by
  cases textual with
  | null => exact ⟨_, _, rfl, rfl⟩
  | boolean value => cases value <;> exact ⟨_, _, rfl, rfl⟩
  | integer value =>
      obtain ⟨c, digits, written, digit⟩ := decimal_head value.natAbs
      rw [writeValue, decimalInt, written]
      split
      · exact ⟨_, _, rfl, rfl⟩
      · obtain ⟨_, _, object, array, quote, true_, false_, null, close⟩ := isDigit_plain c digit
        refine ⟨_, _, rfl, ?_⟩
        have brace : c ≠ 125 := by
          rintro rfl
          cases digit
        simp [leadOf, JsonValue.lead, object, array, quote, true_, false_, null, close, brace]
  | string _ => exact ⟨_, _, rfl, rfl⟩
  | array _ => exact ⟨_, _, rfl, rfl⟩
  | object _ _ _ => exact ⟨_, _, rfl, rfl⟩

theorem lead_eq (textual : value.Textual) (textual' : other.Textual)
    (same : writeValue true value ++ rest = writeValue true other ++ rest') :
    value.lead = other.lead := by
  obtain ⟨c, text, written, lead⟩ := writeValue_lead textual
  obtain ⟨c', text', written', lead'⟩ := writeValue_lead textual'
  rw [written, written', List.cons_append, List.cons_append, List.cons.injEq] at same
  rw [← lead, ← lead', same.1]

def memberText (member : Bytes × JsonValue) : Bytes :=
  writeString member.1 ++ 58 :: writeValue true member.2

def arrangedMember (member : Bytes × JsonValue) : Bytes × JsonValue :=
  (member.1, member.2.arrange true)

theorem writeObject_eq (members : List (Bytes × JsonValue)) :
    writeValue true (.object members) =
      123 :: (joinWith 44 ((orderMembers true members).map memberText) ++ [125]) := by
  rw [writeValue, writeMembers_eq, orderMembers_map, List.map_map]
  rfl

theorem arrangeObject_eq (members : List (Bytes × JsonValue)) :
    (JsonValue.object members).arrange true =
      .object ((orderMembers true members).map arrangedMember) := by
  rw [JsonValue.arrange, arrangeMembers_eq, orderMembers_map]
  rfl

theorem writeValue_apart (textual : value.Textual)
    (textual' : other.Textual) (ends : Delimited rest)
    (ends' : Delimited rest')
    (same : writeValue true value ++ rest = writeValue true other ++ rest') :
    value.arrange true = other.arrange true ∧ rest = rest' := by
  have lead := lead_eq textual textual' same
  induction textual generalizing other rest rest' with
  | null =>
      cases textual' with
      | null => exact ⟨rfl, List.append_cancel_left same⟩
      | _ => cases lead
  | boolean value =>
      cases textual' with
      | boolean value' =>
          cases value <;> cases value'
          · exact ⟨rfl, List.append_cancel_left same⟩
          · cases (List.cons.inj same).1
          · cases (List.cons.inj same).1
          · exact ⟨rfl, List.append_cancel_left same⟩
      | _ => cases lead
  | integer value =>
      cases textual' with
      | integer value' =>
          rw [writeValue, writeValue] at same
          obtain ⟨rfl, rests⟩ := decimalInt_apart ends ends' same
          exact ⟨rfl, rests⟩
      | _ => cases lead
  | string valid =>
      cases textual' with
      | string valid' =>
          rw [writeValue, writeValue] at same
          obtain ⟨rfl, rests⟩ := writeString_apart valid valid' same
          exact ⟨rfl, rests⟩
      | _ => cases lead
  | @array items each ih =>
      cases textual' with
      | @array items' each' =>
          rw [writeValue, writeValue, writeItems_eq, writeItems_eq, List.cons_append,
            List.cons_append, List.append_assoc, List.append_assoc, List.cons.injEq] at same
          have whole := joined_apart (.inl rfl) (fun item held => ?_) (fun item held item' held'
            rest rest' ends ends' same => ih item held (each' item' held') ends ends' same
              (lead_eq (each item held) (each' item' held') same)) same.2
          · rw [JsonValue.arrange, JsonValue.arrange, arrangeItems_eq, arrangeItems_eq, whole.1]
            exact ⟨rfl, whole.2⟩
          · obtain ⟨c, text, written, lead⟩ := writeValue_lead (held.elim (each item) (each' item))
            refine ⟨c, text, written, ?_⟩
            rintro rfl
            cases item <;> cases lead
      | _ => cases lead
  | @object members distinct keys each ih =>
      cases textual' with
      | @object members' distinct' keys' each' =>
          have own {members : List (Bytes × JsonValue)} {member : Bytes × JsonValue}
              (held : member ∈ orderMembers true members) : member ∈ members :=
            (orderMembers_perm true members).subset held
          rw [writeObject_eq, writeObject_eq, List.cons_append, List.cons_append,
            List.append_assoc, List.append_assoc, List.cons.injEq] at same
          have whole : (orderMembers true members).map arrangedMember =
              (orderMembers true members').map arrangedMember ∧ rest = rest' := by
            refine joined_apart (.inr rfl) ?_ ?_ same.2
            · exact fun member _ => ⟨34, _, rfl, by decide⟩
            intro member held member' held' rest rest' ends ends' same
            rw [memberText, memberText, List.append_assoc, List.append_assoc] at same
            obtain ⟨key, later⟩ := writeString_apart (keys _ (own held)) (keys' _ (own held')) same
            have values := (List.cons.inj later).2
            have below := ih _ (own held) (each' _ (own held')) ends ends' values
              (lead_eq (each _ (own held)) (each' _ (own held')) values)
            exact ⟨Prod.ext key below.1, below.2⟩
          rw [arrangeObject_eq, arrangeObject_eq, whole.1]
          exact ⟨rfl, whole.2⟩
      | _ => cases lead

/-- The canonical texts of two values are equal exactly where the values differ in the order of
members only. -/
theorem canonicalJsonString_eq_iff (textual : value.Textual)
    (textual' : other.Textual) :
    canonicalJsonString value = canonicalJsonString other ↔ value.Rearranged other := by
  constructor
  · intro same
    have nothing : Delimited [] := fun c never => by cases never
    exact rearranged_of_arrange textual
      (writeValue_apart textual textual' nothing nothing (congrArg (· ++ []) same)).1
  · exact fun same => canonical_of_rearranged same textual

theorem two_keys_swapped :
    canonicalJsonString (.object [([98], .null), ([97], .integer 1)]) =
        canonicalJsonString (.object [([97], .integer 1), ([98], .null)]) ↔
      JsonValue.Rearranged (.object [([98], .null), ([97], .integer 1)])
        (.object [([97], .integer 1), ([98], .null)]) := by
  have a : ValidUtf8 [97] := validUtf8_ascii 97 (by decide)
  have b : ValidUtf8 [98] := validUtf8_ascii 98 (by decide)
  refine canonicalJsonString_eq_iff ?_ ?_
  · refine .object (by decide) ?_ ?_
    · exact List.forall_mem_cons.mpr ⟨b, List.forall_mem_singleton.mpr a⟩
    · exact List.forall_mem_cons.mpr ⟨.null, List.forall_mem_singleton.mpr (.integer 1)⟩
  · refine .object (by decide) ?_ ?_
    · exact List.forall_mem_cons.mpr ⟨a, List.forall_mem_singleton.mpr b⟩
    · exact List.forall_mem_cons.mpr ⟨.integer 1, List.forall_mem_singleton.mpr .null⟩

end Mira
