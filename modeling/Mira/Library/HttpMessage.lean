import Mathlib.Data.List.DropRight
import Mira.Library.Bytes

/-!
Request messages of HTTP/1.1: how a sender writes one, how a strict recipient reads one, and
exactly which messages are read back as they were meant. White space around a field value is not
part of the value; a message whose length is not that of one `Content-Length` is none.
-/

namespace HttpMessage
open Bytes

def isUpper (c : UInt8) : Bool := 65 ≤ c && c ≤ 90

def lowerByte (c : UInt8) : UInt8 := if isUpper c then c + 32 else c

def isAlphanumeric (c : UInt8) : Bool := isDigit c || isUpper c || 97 ≤ c && c ≤ 122

/-- A character of a token: a method or the name of a field. -/
def isTokenByte (c : UInt8) : Bool := isAlphanumeric c || c ∈ ascii "!#$%&'*+-.^_`|~"

/-- A visible character, the only kind in a request target. -/
def isVisible (c : UInt8) : Bool := 33 ≤ c && c ≤ 126

def isBlank (c : UInt8) : Bool := c = 32 || c = 9

/-- A character of a field value: no control character but the tab. -/
def isFieldByte (c : UInt8) : Bool := c = 9 || 32 ≤ c && c ≠ 127

def isToken (text : Bytes) : Bool := text ≠ [] && text.all isTokenByte

def isTarget (text : Bytes) : Bool := text ≠ [] && text.all isVisible

structure Message where
  method : Bytes
  target : Bytes
  fields : List (Bytes × Bytes)
  body : Bytes

def crlf : Bytes := [13, 10]

def protocol : Bytes := ascii "HTTP/1.1"

def renderField (field : Bytes × Bytes) : Bytes := field.1 ++ ascii ": " ++ field.2 ++ crlf

def requestLine (message : Message) : Bytes :=
  message.method ++ 32 :: (message.target ++ 32 :: protocol)

def Message.render (message : Message) : Bytes :=
  requestLine message ++ crlf ++ message.fields.flatMap renderField ++ crlf ++ message.body

/-- A value without the white space around it. -/
def trim (value : Bytes) : Bytes := (value.dropWhile isBlank).rdropWhile isBlank

def Message.trimmed (message : Message) : Message :=
  { message with fields := message.fields.map fun field => (field.1, trim field.2) }

def valuesOf (name : Bytes) (fields : List (Bytes × Bytes)) : List Bytes :=
  (fields.filter fun field => field.1.map lowerByte = name).map Prod.snd

/-- How long the body is; none where the fields do not say so in one way. -/
def bodyLength (fields : List (Bytes × Bytes)) : Option Nat :=
  if valuesOf (ascii "transfer-encoding") fields ≠ [] then none
  else
    match valuesOf (ascii "content-length") fields with
    | [] => some 0
    | [value] => if value ≠ [] ∧ value.all isDigit then some (decimalValue value) else none
    | _ => none

/-- The lines up to the empty one, and what comes after it. -/
def takeLines (current : Bytes) : Bytes → Option (List Bytes × Bytes)
  | c :: d :: rest =>
      if c = 13 ∧ d = 10 then
        if current = [] then some ([], rest)
        else (takeLines [] rest).map fun taken => (current :: taken.1, taken.2)
      else takeLines (current ++ [c]) (d :: rest)
  | _ => none

def parseField (line : Bytes) : Option (Bytes × Bytes) :=
  match splitAtByte 58 line with
  | (_, none) => none
  | (name, some value) =>
      if isToken name && (trim value).all isFieldByte then some (name, trim value) else none

def parseRequestLine (line : Bytes) : Option (Bytes × Bytes) :=
  match splitAtByte 32 line with
  | (_, none) => none
  | (method, some after) =>
      match splitAtByte 32 after with
      | (_, none) => none
      | (target, some version) =>
          if isToken method && isTarget target && version = protocol then some (method, target)
          else none

/-- Exactly one message: nothing is missing and nothing is left. -/
def parseRequest (text : Bytes) : Option Message :=
  match takeLines [] text with
  | none => none
  | some ([], _) => none
  | some (line :: lines, body) =>
      match parseRequestLine line, lines.mapM parseField with
      | some (method, target), some fields =>
          if bodyLength fields = some body.length then some ⟨method, target, fields, body⟩
          else none
      | _, _ => none

structure Message.Valid (message : Message) : Prop where
  method : isToken message.method = true
  target : isTarget message.target = true
  names : ∀ field ∈ message.fields, isToken field.1 = true
  values : ∀ field ∈ message.fields, field.2.all isFieldByte = true
  length : bodyLength message.trimmed.fields = some message.body.length

variable {c : UInt8}

theorem isVisible_of_digit (digit : isDigit c = true) : isVisible c = true := by
  simp only [isDigit, isVisible, Bool.and_eq_true, decide_eq_true_eq, UInt8.le_iff_toNat_le]
    at digit ⊢
  exact ⟨Nat.le_trans (by decide) digit.1, Nat.le_trans digit.2 (by decide)⟩

theorem isFieldByte_of_visible (visible : isVisible c = true) : isFieldByte c = true := by
  rw [isVisible, Bool.and_eq_true, decide_eq_true_eq, decide_eq_true_eq] at visible
  rw [isFieldByte, Bool.or_eq_true, Bool.and_eq_true, decide_eq_true_eq, decide_eq_true_eq,
    decide_eq_true_eq]
  refine .inr ⟨UInt8.le_trans (by decide) visible.1, ?_⟩
  rintro rfl
  exact absurd visible.2 (by decide)

variable {line : Bytes}

theorem takeLines_line (single : 13 ∉ line) (current rest : Bytes) :
    takeLines current (line ++ crlf ++ rest) =
      if current ++ line = [] then some ([], rest)
      else (takeLines [] rest).map fun taken => ((current ++ line) :: taken.1, taken.2) := by
  induction line generalizing current with
  | nil =>
      rw [List.nil_append, crlf, List.append_nil]
      rfl
  | cons c line ih =>
      rw [List.mem_cons, not_or] at single
      have step (d : UInt8) (after : Bytes) :
          takeLines current (c :: d :: after) = takeLines (current ++ [c]) (d :: after) := by
        rw [takeLines, if_neg fun both => single.1 both.1.symm]
      have next := ih single.2 (current ++ [c])
      rw [List.append_assoc current, List.singleton_append] at next
      rw [← next]
      cases line with
      | nil => exact step 13 (10 :: rest)
      | cons d line => exact step d _

variable {lines : List Bytes}

theorem takeLines_lines (single : ∀ line ∈ lines, 13 ∉ line) (full : ∀ line ∈ lines, line ≠ [])
    (body : Bytes) :
    takeLines [] (lines.flatMap (· ++ crlf) ++ crlf ++ body) = some (lines, body) := by
  induction lines with
  | nil => exact takeLines_line (by simp : 13 ∉ ([] : Bytes)) [] body
  | cons line lines ih =>
      have rest := ih (fun other present => single other (.tail _ present))
        (fun other present => full other (.tail _ present))
      rw [List.flatMap_cons, List.append_assoc, List.append_assoc, takeLines_line
        (single line (.head _)), List.nil_append, if_neg (full line (.head _)),
        ← List.append_assoc, rest]
      rfl

theorem isFieldByte_of_blank (blank : isBlank c = true) : isFieldByte c = true := by
  simp only [isBlank, Bool.or_eq_true, decide_eq_true_eq] at blank
  cases blank with
  | inl space => rw [space]; rfl
  | inr tab => rw [tab]; rfl

variable (value : Bytes)

theorem all_isFieldByte_trim : (trim value).all isFieldByte = value.all isFieldByte := by
  have front := List.takeWhile_append_dropWhile (p := isBlank) (l := value)
  have back := List.rdropWhile_append_rtakeWhile (p := isBlank) (l := value.dropWhile isBlank)
  have before : (value.takeWhile isBlank).all isFieldByte = true :=
    List.all_eq_true.mpr fun c present => isFieldByte_of_blank (List.mem_takeWhile_imp present)
  have after : ((value.dropWhile isBlank).rtakeWhile isBlank).all isFieldByte = true :=
    List.all_eq_true.mpr fun c present => isFieldByte_of_blank (List.mem_rtakeWhile_imp present)
  conv_rhs => rw [← front, List.all_append, before, Bool.true_and, ← back, List.all_append, after,
    Bool.and_true]
  rfl

theorem trim_space : trim (32 :: value) = trim value := rfl

theorem parseRequestLine_valid {method target : Bytes}
    (parsed : parseRequestLine line = some (method, target)) :
    isToken method = true ∧ isTarget target = true := by
  unfold parseRequestLine at parsed
  split at parsed
  · cases parsed
  · split at parsed
    · cases parsed
    · split at parsed
      · next valid =>
          cases parsed
          simp only [Bool.and_eq_true] at valid
          exact valid.1
      · cases parsed

variable {field : Bytes × Bytes}

theorem parseField_valid (parsed : parseField line = some field) :
    isToken field.1 = true ∧ field.2.all isFieldByte = true := by
  unfold parseField at parsed
  split at parsed
  · cases parsed
  · split at parsed
    · next valid =>
        cases parsed
        rw [Bool.and_eq_true] at valid
        exact valid
    · cases parsed

variable {fields : List (Bytes × Bytes)}

theorem parseFields_valid (parsed : lines.mapM parseField = some fields) :
    ∀ field ∈ fields, isToken field.1 = true ∧ field.2.all isFieldByte = true := by
  induction lines generalizing fields with
  | nil =>
      cases parsed
      exact fun field present => (by cases present)
  | cons line lines ih =>
      rw [List.mapM_cons] at parsed
      obtain ⟨first, own, rest⟩ := Option.bind_eq_some_iff.mp parsed
      obtain ⟨others, later, same⟩ := Option.bind_eq_some_iff.mp rest
      cases same
      intro field present
      cases present with
      | head => exact parseField_valid own
      | tail _ among => exact ih later field among

variable {text : Bytes} {message : Message}

theorem parseRequest_valid (parsed : parseRequest text = some message) :
    isToken message.method = true ∧ isTarget message.target = true ∧
      (∀ field ∈ message.fields, isToken field.1 = true ∧ field.2.all isFieldByte = true) ∧
      bodyLength message.fields = some message.body.length := by
  unfold parseRequest at parsed
  split at parsed
  · cases parsed
  · cases parsed
  · split at parsed
    · next line fields =>
        split at parsed
        · next length =>
            cases parsed
            obtain ⟨method, target⟩ := parseRequestLine_valid line
            exact ⟨method, target, parseFields_valid fields, length⟩
        · cases parsed
    · cases parsed

theorem not_mem_of_all {test : UInt8 → Bool} (foreign : test c = false) (all : text.all test = true) :
    c ∉ text := by
  intro present
  have passed := List.all_eq_true.mp all c present
  rw [foreign] at passed
  cases passed

theorem isToken_iff (text : Bytes) : isToken text = true ↔ text ≠ [] ∧ text.all isTokenByte = true := by
  rw [isToken, Bool.and_eq_true, decide_eq_true_eq]

theorem isTarget_iff (text : Bytes) : isTarget text = true ↔ text ≠ [] ∧ text.all isVisible = true := by
  rw [isTarget, Bool.and_eq_true, decide_eq_true_eq]

def fieldLine (field : Bytes × Bytes) : Bytes := field.1 ++ ascii ": " ++ field.2

theorem parseRequestLine_requestLine (valid : message.Valid) :
    parseRequestLine (requestLine message) = some (message.method, message.target) := by
  have method : 32 ∉ message.method := not_mem_of_all rfl ((isToken_iff _).mp valid.method).2
  have target : 32 ∉ message.target := not_mem_of_all rfl ((isTarget_iff _).mp valid.target).2
  rw [parseRequestLine, requestLine, splitAtByte_append _ _ _ method]
  dsimp only
  rw [splitAtByte_append _ _ _ target]
  dsimp only
  rw [valid.method, valid.target, decide_eq_true rfl]
  rfl

theorem parseField_fieldLine (name : isToken field.1 = true)
    (value : field.2.all isFieldByte = true) :
    parseField (fieldLine field) = some (field.1, trim field.2) := by
  have colon : 58 ∉ field.1 := not_mem_of_all rfl ((isToken_iff _).mp name).2
  have line : fieldLine field = field.1 ++ 58 :: 32 :: field.2 := by
    rw [fieldLine, List.append_assoc]
    rfl
  rw [parseField, line, splitAtByte_append _ _ _ colon]
  dsimp only
  rw [trim_space, name, all_isFieldByte_trim, value]
  rfl

theorem parseFields_fieldLines (names : ∀ field ∈ fields, isToken field.1 = true)
    (values : ∀ field ∈ fields, field.2.all isFieldByte = true) :
    (fields.map fieldLine).mapM parseField =
      some (fields.map fun field => (field.1, trim field.2)) := by
  induction fields with
  | nil => rfl
  | cons field fields ih =>
      have rest := ih (fun other present => names other (.tail _ present))
        (fun other present => values other (.tail _ present))
      rw [List.map_cons, List.mapM_cons,
        parseField_fieldLine (names field (.head _)) (values field (.head _)), rest]
      rfl

theorem Message.render_eq (message : Message) :
    message.render = (requestLine message :: message.fields.map fieldLine).flatMap (· ++ crlf) ++
      crlf ++ message.body := by
  rw [Message.render, List.flatMap_cons, List.flatMap_map]
  rfl

theorem Message.Valid.single (valid : message.Valid) :
    ∀ line ∈ requestLine message :: message.fields.map fieldLine, 13 ∉ line := by
  intro line present
  cases present with
  | head =>
      have method : 13 ∉ message.method := not_mem_of_all rfl ((isToken_iff _).mp valid.method).2
      have target : 13 ∉ message.target := not_mem_of_all rfl ((isTarget_iff _).mp valid.target).2
      have version : 13 ∉ protocol := by decide
      simp [requestLine, method, target, version]
  | tail _ among =>
      obtain ⟨field, here, rfl⟩ := List.mem_map.mp among
      have name : 13 ∉ field.1 := not_mem_of_all rfl ((isToken_iff _).mp (valid.names field here)).2
      have value : 13 ∉ field.2 := not_mem_of_all rfl (valid.values field here)
      have colon : 13 ∉ ascii ": " := by decide
      simp [fieldLine, name, value, colon]

theorem Message.Valid.full (valid : message.Valid) :
    ∀ line ∈ requestLine message :: message.fields.map fieldLine, line ≠ [] := by
  intro line present
  cases present with
  | head => simp [requestLine]
  | tail _ among =>
      obtain ⟨field, here, rfl⟩ := List.mem_map.mp among
      have name := ((isToken_iff _).mp (valid.names field here)).1
      simp [fieldLine, name]

theorem parse_render (valid : message.Valid) :
    parseRequest message.render = some message.trimmed := by
  rw [parseRequest, message.render_eq, takeLines_lines valid.single valid.full]
  dsimp only
  rw [parseRequestLine_requestLine valid, parseFields_fieldLines valid.names valid.values]
  dsimp only
  exact if_pos valid.length

theorem parse_render_iff (message : Message) :
    parseRequest message.render = some message.trimmed ↔ message.Valid := by
  constructor
  · intro parsed
    obtain ⟨method, target, fields, length⟩ := parseRequest_valid parsed
    have each (field : Bytes × Bytes) (present : field ∈ message.fields) :=
      fields (field.1, trim field.2) (List.mem_map.mpr ⟨field, present, rfl⟩)
    exact ⟨method, target, fun field present => (each field present).1,
      fun field present => (all_isFieldByte_trim field.2).symm.trans (each field present).2, length⟩
  · exact parse_render

variable (name : Bytes)

theorem valuesOf_append (first second : List (Bytes × Bytes)) :
    valuesOf name (first ++ second) = valuesOf name first ++ valuesOf name second := by
  rw [valuesOf, List.filter_append, List.map_append]
  rfl

theorem valuesOf_eq_nil {name : Bytes} :
    valuesOf name fields = [] ↔ ∀ field ∈ fields, field.1.map lowerByte ≠ name := by
  rw [valuesOf, List.map_eq_nil_iff, List.filter_eq_nil_iff]
  exact forall₂_congr fun field _ => decide_eq_true_iff.not

theorem valuesOf_trimmed (message : Message) :
    valuesOf name message.trimmed.fields = (valuesOf name message.fields).map trim := by
  rw [valuesOf, Message.trimmed, valuesOf, List.filter_map, List.map_map, List.map_map]
  rfl

theorem trim_decimal (n : Nat) : trim (decimal n) = decimal n := by
  have digits := List.all_eq_true.mp (all_isDigit_decimal n)
  have apart (c : UInt8) (digit : isDigit c = true) : isBlank c = false := by
    rw [isDigit, Bool.and_eq_true, decide_eq_true_eq] at digit
    rw [isBlank, Bool.or_eq_false_iff, decide_eq_false_iff_not, decide_eq_false_iff_not]
    constructor
    · rintro rfl
      exact absurd digit.1 (by decide)
    · rintro rfl
      exact absurd digit.1 (by decide)
  have front : (decimal n).dropWhile isBlank = decimal n := by
    refine List.dropWhile_eq_self_iff.mpr fun some_ blank => ?_
    rw [apart _ (digits _ (List.getElem_mem _))] at blank
    cases blank
  rw [trim, front]
  refine List.rdropWhile_eq_self_iff.mpr fun some_ blank => ?_
  rw [apart _ (digits _ (List.getLast_mem _))] at blank
  cases blank

theorem bodyLength_trimmed {n : Nat}
    (plain : valuesOf (ascii "transfer-encoding") message.fields = [])
    (length : valuesOf (ascii "content-length") message.fields = [decimal n]) :
    bodyLength message.trimmed.fields = some n := by
  rw [bodyLength, valuesOf_trimmed, plain, if_neg (fun some_ => some_ rfl), valuesOf_trimmed, length,
    List.map_singleton, trim_decimal]
  dsimp only
  rw [if_pos ⟨decimal_ne_nil n, all_isDigit_decimal n⟩, decimalValue_decimal]

theorem plain_of_bodyLength {n : Nat} (length : bodyLength message.trimmed.fields = some n) :
    valuesOf (ascii "transfer-encoding") message.fields = [] := by
  rw [bodyLength] at length
  split at length
  · cases length
  · next none =>
      rw [not_not, valuesOf_trimmed, List.map_eq_nil_iff] at none
      exact none

end HttpMessage
