import Mira.Json.Value
import Mira.Library.Scan

/-!
The strict parser. Its position is the list of bytes still to be read. The
nesting limit is the recursion: a value is parsed with the levels that remain
below it, and runs out of them exactly where the source refuses the depth. The
loops over string bytes, items and members are scans.
-/

namespace Mira
open Bytes

structure JsonLimits where
  maxDepth : Nat := 32
  maxDocumentBytes : Nat := 4 * 1024 * 1024
  maxStringBytes : Nat := 1024 * 1024
  maxArrayItems : Nat := 100000
  maxObjectMembers : Nat := 100000

def jsonError (message : String) : Error :=
  { code := .invalidArgument, domain := "mira.json", safeMessage := message }

abbrev Parsed (α : Type) := Result (α × Bytes)

def isWhitespace (c : UInt8) : Bool := c = 32 || c = 9 || c = 13 || c = 10

def skipWhitespace (input : Bytes) : Bytes := input.dropWhile isWhitespace

/-- The scan a loop performs, with a budget it cannot use up. -/
def scanAll {α β : Type} (body : Scan.Body α β Error UInt8) (acc : α) (input : Bytes) :
    Parsed β :=
  Scan.loop (jsonError "json loop exhausted") body (input.length + 1) acc input

def parseHexDigits : Nat → Nat → Bytes → Parsed Nat
  | 0, value, input => .ok (value, input)
  | _ + 1, _, [] => .error (jsonError "truncated unicode escape")
  | count + 1, value, c :: rest =>
      match hexValue c with
      | some digit => parseHexDigits count (value * 16 + digit) rest
      | none => .error (jsonError "invalid unicode escape digit")

def parseHex4 (input : Bytes) : Parsed Nat := parseHexDigits 4 0 input

def encodeUtf8 (codePoint : Nat) : Bytes :=
  if codePoint < 0x80 then [UInt8.ofNat codePoint]
  else if codePoint < 0x800 then
    [UInt8.ofNat (0xC0 + codePoint / 64), UInt8.ofNat (0x80 + codePoint % 64)]
  else if codePoint < 0x10000 then
    [UInt8.ofNat (0xE0 + codePoint / 4096), UInt8.ofNat (0x80 + codePoint / 64 % 64),
      UInt8.ofNat (0x80 + codePoint % 64)]
  else
    [UInt8.ofNat (0xF0 + codePoint / 262144), UInt8.ofNat (0x80 + codePoint / 4096 % 64),
      UInt8.ofNat (0x80 + codePoint / 64 % 64), UInt8.ofNat (0x80 + codePoint % 64)]

def parseUnicodeEscape (input : Bytes) : Parsed Bytes :=
  match parseHex4 input with
  | .error reason => .error reason
  | .ok (high, rest) =>
      if 0xD800 ≤ high ∧ high ≤ 0xDBFF then
        match rest with
        | 92 :: 117 :: rest' =>
            match parseHex4 rest' with
            | .error reason => .error reason
            | .ok (low, rest'') =>
                if low < 0xDC00 ∨ 0xDFFF < low then
                  .error (jsonError "invalid utf-16 surrogate pair")
                else
                  .ok (encodeUtf8 (0x10000 + (high - 0xD800) * 1024 + (low - 0xDC00)), rest'')
        | _ => .error (jsonError "unpaired utf-16 surrogate")
      else if 0xDC00 ≤ high ∧ high ≤ 0xDFFF then
        .error (jsonError "unpaired utf-16 surrogate")
      else .ok (encodeUtf8 high, rest)

def shortEscape (c : UInt8) : Option UInt8 :=
  if c = 34 then some 34
  else if c = 92 then some 92
  else if c = 47 then some 47
  else if c = 98 then some 8
  else if c = 102 then some 12
  else if c = 110 then some 10
  else if c = 114 then some 13
  else if c = 116 then some 9
  else none

def parseEscape : Bytes → Parsed Bytes
  | [] => .error (jsonError "unterminated json escape")
  | c :: rest =>
      match shortEscape c with
      | some b => .ok ([b], rest)
      | none =>
          if c = 117 then parseUnicodeEscape rest
          else .error (jsonError "invalid json escape")

/-- The payload bits of a lead byte that announces so many continuation bytes. -/
def leadBits (continuation : Nat) (c : UInt8) : Nat :=
  if continuation = 1 then (c &&& 0x1F).toNat
  else if continuation = 2 then (c &&& 0x0F).toNat
  else (c &&& 0x07).toNat

/-- Copies the announced continuation bytes onto the output and gathers the code
point. -/
def parseContinuation (limits : JsonLimits) : Nat → Nat → Bytes → Bytes → Parsed (Nat × Bytes)
  | 0, codePoint, output, input => .ok ((codePoint, output), input)
  | _ + 1, _, _, [] => .error (jsonError "truncated utf-8 sequence")
  | continuation + 1, codePoint, output, c :: rest =>
      if limits.maxStringBytes ≤ output.length then
        .error (jsonError "json string length exceeded")
      else if c &&& 0xC0 ≠ 0x80 then .error (jsonError "invalid utf-8 continuation byte")
      else
        parseContinuation limits continuation (codePoint * 64 + (c &&& 0x3F).toNat)
          (output ++ [c]) rest

def minimumCodePoint (continuation : Nat) : Nat :=
  if continuation = 1 then 0x80 else if continuation = 2 then 0x800 else 0x10000

/-- A multi-byte sequence after its lead byte: the bytes are copied while they are
validated. -/
def parseMultibyte (limits : JsonLimits) (output : Bytes) (lead : UInt8) (rest : Bytes) :
    Parsed Bytes :=
  if continuationCount lead = 0 then .error (jsonError "invalid utf-8 lead byte")
  else
    match parseContinuation limits (continuationCount lead)
        (leadBits (continuationCount lead) lead) (output ++ [lead]) rest with
    | .error reason => .error reason
    | .ok ((codePoint, output'), rest') =>
        if codePoint < minimumCodePoint (continuationCount lead) ∨ 0x10FFFF < codePoint ∨
            (0xD800 ≤ codePoint ∧ codePoint ≤ 0xDFFF) then
          .error (jsonError "invalid utf-8 code point")
        else .ok (output', rest')

/-- What a byte other than the closing quote appends to the output. -/
def parseCharacter (limits : JsonLimits) (output : Bytes) (c : UInt8) (rest : Bytes) :
    Parsed Bytes :=
  if c = 92 then
    match parseEscape rest with
    | .error reason => .error reason
    | .ok (text, rest') => .ok (output ++ text, rest')
  else if c < 0x80 then .ok (output ++ [c], rest)
  else parseMultibyte limits output c rest

/-- One round of `parse_string_raw` after the opening quote. -/
def stringRound (limits : JsonLimits) (output input : Bytes) :
    Result (Scan.Round Bytes Bytes UInt8) :=
  match input with
  | [] => .error (jsonError "unterminated json string")
  | c :: rest =>
      if limits.maxStringBytes ≤ output.length then
        .error (jsonError "json string length exceeded")
      else if c < 0x20 then .error (jsonError "unescaped control character in json string")
      else if c = 34 then .ok (.done output rest)
      else
        match parseCharacter limits output c rest with
        | .error reason => .error reason
        | .ok (output', rest') => .ok (.again output' rest')

def parseStringRaw (limits : JsonLimits) (input : Bytes) : Parsed Bytes :=
  scanAll (stringRound limits) [] (input.drop 1)

def parseStringValue (limits : JsonLimits) (input : Bytes) : Parsed JsonValue :=
  match parseStringRaw limits input with
  | .error reason => .error reason
  | .ok (text, rest) => .ok (.string text, rest)

/-- The accumulation of an integer token, which stops before it would leave the
signed 64-bit range. -/
def accumulateDigits : Nat → Bytes → Option Nat
  | value, [] => some value
  | value, c :: rest =>
      if (2 ^ 63 - 1 - digitValue c) / 10 < value then none
      else accumulateDigits (value * 10 + digitValue c) rest

/-- A fraction or an exponent: the marker is consumed when it is present, and then
at least one digit must follow. -/
def parseFraction (input : Bytes) : Parsed (Option Bytes) :=
  match input with
  | 46 :: rest =>
      if rest.takeWhile isDigit = [] then .error (jsonError "invalid json fraction")
      else .ok (some (rest.takeWhile isDigit), rest.dropWhile isDigit)
  | _ => .ok (none, input)

def exponentSign (input : Bytes) : Bool × Bytes :=
  match input with
  | 43 :: rest => (false, rest)
  | 45 :: rest => (true, rest)
  | _ => (false, input)

def parseExponent : Bytes → Parsed (Option (Bool × Bytes))
  | [] => .ok (none, [])
  | c :: rest =>
      if c = 101 ∨ c = 69 then
        let signed := exponentSign rest
        if signed.2.takeWhile isDigit = [] then .error (jsonError "invalid json exponent")
        else .ok (some (signed.1, signed.2.takeWhile isDigit), signed.2.dropWhile isDigit)
      else .ok (none, c :: rest)

/-- An integer token that fits is an integer; everything else goes through the
binary64 reader. -/
def numberOfToken (isFloat : Bool) (token : NumberToken) : Result JsonValue :=
  match if isFloat then none else accumulateDigits 0 token.digits with
  | some value => .ok (.integer (if token.negative then -value else value))
  | none =>
      match stod token with
      | some value => .ok (.number value)
      | none => .error (jsonError "json number out of range")

def numberSign (input : Bytes) : Bool × Bytes :=
  match input with
  | 45 :: rest => (true, rest)
  | _ => (false, input)

def parseNumber (input : Bytes) : Parsed JsonValue :=
  let signed := numberSign input
  let digits := signed.2.takeWhile isDigit
  if digits = [] then .error (jsonError "invalid json number")
  else
    match parseFraction (signed.2.dropWhile isDigit) with
    | .error reason => .error reason
    | .ok (fraction, afterFraction) =>
        match parseExponent afterFraction with
        | .error reason => .error reason
        | .ok (exponent, rest) =>
            match numberOfToken (fraction.isSome || exponent.isSome)
                { negative := signed.1, digits := digits, fraction := fraction.getD []
                  exponentNegative := (exponent.map Prod.fst).getD false
                  exponent := (exponent.map Prod.snd).getD [] } with
            | .error reason => .error reason
            | .ok value => .ok (value, rest)

def parseLiteral (literal : Bytes) (value : JsonValue) (input : Bytes) : Parsed JsonValue :=
  if literal.isPrefixOf input then .ok (value, input.drop literal.length)
  else .error (jsonError "invalid json literal")

/-- What follows an item: `true` for a comma, `false` for the closing byte. -/
def separator (close : UInt8) (input : Bytes) : Option (Bool × Bytes) :=
  match skipWhitespace input with
  | [] => none
  | c :: rest => if c = 44 then some (true, rest) else if c = close then some (false, rest) else none

def itemRound (limits : JsonLimits) (value : Bytes → Parsed JsonValue) (items : List JsonValue)
    (input : Bytes) : Result (Scan.Round (List JsonValue) JsonValue UInt8) :=
  if limits.maxArrayItems ≤ items.length then
    .error (jsonError "json array item limit exceeded")
  else
    match value (skipWhitespace input) with
    | .error reason => .error reason
    | .ok (item, rest) =>
        match separator 93 rest with
        | some (true, rest') => .ok (.again (items ++ [item]) rest')
        | some (false, rest') => .ok (.done (.array (items ++ [item])) rest')
        | none => .error (jsonError "expected ',' or ']' in array")

def parseContainer {α : Type} (close : UInt8) (empty : JsonValue)
    (body : Scan.Body (List α) JsonValue Error UInt8) (input : Bytes) : Parsed JsonValue :=
  match skipWhitespace (input.drop 1) with
  | [] => scanAll body [] []
  | c :: rest => if c = close then .ok (empty, rest) else scanAll body [] (c :: rest)

def parseArray (limits : JsonLimits) (value : Bytes → Parsed JsonValue) (input : Bytes) :
    Parsed JsonValue :=
  parseContainer 93 (.array []) (itemRound limits value) input

def parseKey (limits : JsonLimits) (members : List (Bytes × JsonValue)) (input : Bytes) :
    Parsed Bytes :=
  if (skipWhitespace input).head? ≠ some 34 then
    .error (jsonError "expected object key string")
  else
    match parseStringRaw limits (skipWhitespace input) with
    | .error reason => .error reason
    | .ok (key, afterKey) =>
        if members.any fun member => member.1 = key then
          .error (jsonError "duplicate object key")
        else if limits.maxObjectMembers ≤ members.length then
          .error (jsonError "json object member limit exceeded")
        else
          match skipWhitespace afterKey with
          | [] => .error (jsonError "expected ':' after object key")
          | c :: afterColon =>
              if c = 58 then .ok (key, afterColon)
              else .error (jsonError "expected ':' after object key")

def memberRound (limits : JsonLimits) (value : Bytes → Parsed JsonValue)
    (members : List (Bytes × JsonValue)) (input : Bytes) :
    Result (Scan.Round (List (Bytes × JsonValue)) JsonValue UInt8) :=
  match parseKey limits members input with
  | .error reason => .error reason
  | .ok (key, afterColon) =>
      match value (skipWhitespace afterColon) with
      | .error reason => .error reason
      | .ok (item, rest) =>
          match separator 125 rest with
          | some (true, rest') => .ok (.again (members ++ [(key, item)]) rest')
          | some (false, rest') => .ok (.done (.object (members ++ [(key, item)])) rest')
          | none => .error (jsonError "expected ',' or '\x7d' in object")

def parseObject (limits : JsonLimits) (value : Bytes → Parsed JsonValue) (input : Bytes) :
    Parsed JsonValue :=
  parseContainer 125 (.object []) (memberRound limits value) input

/-- `parse_value`, with the nesting levels that are left. -/
def parseValue (limits : JsonLimits) : Nat → Bytes → Parsed JsonValue
  | 0, _ => .error (jsonError "json nesting depth exceeded")
  | _ + 1, [] => .error (jsonError "unexpected end of json document")
  | levels + 1, c :: rest =>
      if c = 123 then parseObject limits (parseValue limits levels) (c :: rest)
      else if c = 91 then parseArray limits (parseValue limits levels) (c :: rest)
      else if c = 34 then parseStringValue limits (c :: rest)
      else if c = 116 then parseLiteral (ascii "true") (.boolean true) (c :: rest)
      else if c = 102 then parseLiteral (ascii "false") (.boolean false) (c :: rest)
      else if c = 110 then parseLiteral (ascii "null") .null (c :: rest)
      else parseNumber (c :: rest)

def parseDocument (limits : JsonLimits) (text : Bytes) : Result JsonValue :=
  match skipWhitespace text with
  | [] => .error (jsonError "json document is empty")
  | document =>
      match parseValue limits limits.maxDepth document with
      | .error reason => .error reason
      | .ok (value, rest) =>
          match skipWhitespace rest with
          | [] => .ok value
          | _ => .error (jsonError "trailing data after json document")

def parseJson (text : Bytes) (limits : JsonLimits := {}) : Result JsonValue :=
  if limits.maxDocumentBytes < text.length then
    .error (jsonError "json document exceeds size limit")
  else parseDocument limits text

end Mira
