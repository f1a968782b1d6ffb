import Rufux.Library.Json

/-!
The JSON reader. A position in the text is what the text still holds from there on, and a
number keeps its token in place of the double that `strtod` makes of it.
-/

namespace Rufux.Linux

open Library

/-- The bytes of a C string, without its terminator. -/
structure Document where
  bytes : List UInt8
  nulFree : (0 : UInt8) ∉ bytes

inductive JsonError where
  | tooLarge
  | tooDeep
  | unexpectedEnd
  | memberName
  | colon
  | commaOrClose (named : Bool)
  | controlCharacter
  | unicodeEscape
  | escape
  | unterminated
  | number
  | unexpectedCharacter
  | trailingData

def JsonError.text : JsonError → String
  | .tooLarge => "JSON: document too large"
  | .tooDeep => "JSON: nesting too deep"
  | .unexpectedEnd => "JSON: unexpected end"
  | .memberName => "JSON: expected a member name"
  | .colon => "JSON: expected ':'"
  | .commaOrClose true => "JSON: expected ',' or '\x7d'"
  | .commaOrClose false => "JSON: expected ',' or ']'"
  | .controlCharacter => "JSON: control character in string"
  | .unicodeEscape => "JSON: bad \\u escape"
  | .escape => "JSON: bad escape"
  | .unterminated => "JSON: unterminated string"
  | .number => "JSON: bad number"
  | .unexpectedCharacter => "JSON: unexpected character"
  | .trailingData => "JSON: trailing data after the document"

def mjMaxDepth : Nat := 64

def mjMaxText : Nat := 64 * 2 ^ 20

/-! ### `strtod` -/

def toLower (char : UInt8) : UInt8 := if 65 ≤ char ∧ char ≤ 90 then char + 32 else char

/-- The text starts with the word, in letters of either case. -/
def startsWith (word text : List UInt8) : Bool := (text.take word.length).map toLower = word

def isHex (char : UInt8) : Bool := (Json.hexDigit char).isSome

/-- What may stand between the brackets after `nan`. -/
def isNanChar (char : UInt8) : Bool :=
  Json.isDigit char || (97 ≤ toLower char && toLower char ≤ 122) || char = 95

/-- The brackets after `nan`, when they close. -/
def nanLen : List UInt8 → Nat
  | 40 :: rest =>
    let inner := rest.takeWhile isNanChar
    if (rest.drop inner.length).head? = some 41 then inner.length + 2 else 0
  | _ => 0

/-- Digits, and the decimal point of the locale with digits after it. -/
def mantissaLen (digit : UInt8 → Bool) (point text : List UInt8) : Nat :=
  let whole := (text.takeWhile digit).length
  let after := text.drop whole
  if point.isPrefixOf after then
    let fraction := ((after.drop point.length).takeWhile digit).length
    if whole + fraction = 0 then 0 else whole + point.length + fraction
  else whole

/-- An exponent, which is taken only with digits. -/
def exponentLen (mark : UInt8) : List UInt8 → Nat
  | char :: rest =>
    let sign := if rest.head? = some 43 ∨ rest.head? = some 45 then 1 else 0
    let digits := ((rest.drop sign).takeWhile Json.isDigit).length
    if toLower char = mark ∧ digits ≠ 0 then 1 + sign + digits else 0
  | [] => 0

/-- A mantissa with its exponent. -/
def floatLen (digit : UInt8 → Bool) (mark : UInt8) (point text : List UInt8) : Nat :=
  let mantissa := mantissaLen digit point text
  if mantissa = 0 then 0 else mantissa + exponentLen mark (text.drop mantissa)

def hexMark (text : List UInt8) : Bool :=
  text.head? = some 48 && (text.tail.head?.map toLower) = some 120

def unsignedLen (point text : List UInt8) : Nat :=
  if startsWith [105, 110, 102, 105, 110, 105, 116, 121] text then 8
  else if startsWith [105, 110, 102] text then 3
  else if startsWith [110, 97, 110] text then 3 + nanLen (text.drop 3)
  else if hexMark text then
    let digits := floatLen isHex 112 point (text.drop 2)
    if digits = 0 then 1 else 2 + digits
  else floatLen Json.isDigit 101 point text

/-- How many bytes `strtod` takes, none where there is no number. -/
def strtodLen (point : List UInt8) : List UInt8 → Nat
  | [] => 0
  | char :: rest =>
    if char = 43 ∨ char = 45 then
      let digits := unsignedLen point rest
      if digits = 0 then 0 else digits + 1
    else unsignedLen point (char :: rest)

/-! ### Strings -/

def skipWs (text : List UInt8) : List UInt8 := text.dropWhile Json.isWs

def hex4 : List UInt8 → Option Nat
  | a :: b :: c :: d :: _ =>
    [a, b, c, d].foldlM (fun value char => (Json.hexDigit char).map (value <<< 4 ||| ·)) 0
  | _ => none

def putUtf8 (cp : Nat) : List UInt8 :=
  if cp < 0x80 then [UInt8.ofNat cp]
  else if cp < 0x800 then [UInt8.ofNat (0xC0 ||| cp >>> 6), UInt8.ofNat (0x80 ||| cp &&& 0x3F)]
  else if cp < 0x10000 then
    [UInt8.ofNat (0xE0 ||| cp >>> 12), UInt8.ofNat (0x80 ||| (cp >>> 6) &&& 0x3F),
      UInt8.ofNat (0x80 ||| cp &&& 0x3F)]
  else
    [UInt8.ofNat (0xF0 ||| cp >>> 18), UInt8.ofNat (0x80 ||| (cp >>> 12) &&& 0x3F),
      UInt8.ofNat (0x80 ||| (cp >>> 6) &&& 0x3F), UInt8.ofNat (0x80 ||| cp &&& 0x3F)]

/-- The byte that a letter after a backslash stands for. -/
def plainEscape (letter : UInt8) : Option UInt8 :=
  if letter = 34 then some 34
  else if letter = 92 then some 92
  else if letter = 47 then some 47
  else if letter = 98 then some 8
  else if letter = 102 then some 12
  else if letter = 110 then some 10
  else if letter = 114 then some 13
  else if letter = 116 then some 9
  else none

/-- The code point of a surrogate pair, whose second half is an escape of its own. -/
def pairAfter (cp : Nat) (text : List UInt8) : Option Nat :=
  if 0xD800 ≤ cp ∧ cp < 0xDC00 ∧ text.take 2 = [92, 117] then
    match hex4 (text.drop 2) with
    | some lo =>
      if 0xDC00 ≤ lo ∧ lo < 0xE000 then some (0x10000 + ((cp - 0xD800) <<< 10) + (lo - 0xDC00))
      else none
    | none => none
  else none

/-- A string whose rest is read already, with `bytes` put before it. -/
def emit (bytes : List UInt8) (result : Except JsonError (List UInt8 × List UInt8)) :
    Except JsonError (List UInt8 × List UInt8) :=
  result.map fun (text, left) => (bytes ++ text, left)

/-- A string from behind its opening quotation mark, and what follows the closing one. -/
def parseString : List UInt8 → Except JsonError (List UInt8 × List UInt8)
  | [] => .error .unterminated
  | char :: rest =>
    if char = 34 then .ok ([], rest)
    else if char < 0x20 then .error .controlCharacter
    else if char ≠ 92 then emit [char] (parseString rest)
    else
      match rest with
      | [] => .error .unterminated
      | letter :: more =>
        match plainEscape letter with
        | some byte => emit [byte] (parseString more)
        | none =>
          if letter ≠ 117 then .error .escape
          else
            match hex4 more with
            | none => .error .unicodeEscape
            | some cp =>
              match pairAfter cp (more.drop 4) with
              | some point => emit (putUtf8 point) (parseString (more.drop 10))
              -- an embedded NUL would end the string early
              | none => emit (putUtf8 (if cp = 0 then 0xFFFD else cp)) (parseString (more.drop 4))
termination_by text => text.length
decreasing_by all_goals simp_wf; all_goals omega

/-! ### Values -/

/-- The name of a member and its colon. An element of an array has none. -/
def memberName (named : Bool) (text : List UInt8) :
    Except JsonError (List UInt8 × List UInt8) :=
  if !named then .ok ([], text)
  else
    match text with
    | 34 :: rest =>
      match parseString rest with
      | .error error => .error error
      | .ok (key, after) =>
        match skipWs after with
        | 58 :: left => .ok (key, left)
        | _ => .error .colon
    | _ => .error .memberName

/-- The members of a container, whose first comes next. Every round takes a byte, so that
the rounds that the length allows are enough. -/
def parseMembers (below : List UInt8 → Except JsonError (Json × List UInt8)) (named : Bool) :
    Nat → List UInt8 → Except JsonError (List (List UInt8 × Json) × List UInt8)
  | 0, _ => .error (.commaOrClose named)
  | rounds + 1, text =>
    match memberName named (skipWs text) with
    | .error error => .error error
    | .ok (key, value) =>
      match below value with
      | .error error => .error error
      | .ok (kid, after) =>
        match skipWs after with
        | [] => .error (.commaOrClose named)
        | char :: left =>
          if char = 44 then
            (parseMembers below named rounds left).map fun (members, rest) =>
              ((key, kid) :: members, rest)
          else if char = Json.closing named then .ok ([(key, kid)], left)
          else .error (.commaOrClose named)

/-- A container from behind its opening bracket. -/
def parseContainer (below : List UInt8 → Except JsonError (Json × List UInt8)) (named : Bool)
    (text : List UInt8) : Except JsonError (Json × List UInt8) :=
  if (skipWs text).head? = some (Json.closing named) then .ok (.node named [], (skipWs text).tail)
  else
    (parseMembers below named (text.length + 1) (skipWs text)).map fun (members, rest) =>
      (.node named members, rest)

/-- A value that begins at this byte, other than a container. -/
def parseScalar (point text : List UInt8) (char : UInt8) : Except JsonError (Json × List UInt8) :=
  if char = 34 then (parseString text.tail).map fun (string, rest) => (.str string, rest)
  else if [116, 114, 117, 101].isPrefixOf text then .ok (.bool true, text.drop 4)
  else if [102, 97, 108, 115, 101].isPrefixOf text then .ok (.bool false, text.drop 5)
  else if [110, 117, 108, 108].isPrefixOf text then .ok (.null, text.drop 4)
  else if char = 45 ∨ Json.isDigit char then
    if strtodLen point text = 0 then .error .number
    else .ok (.num (text.take (strtodLen point text)), text.drop (strtodLen point text))
  else .error .unexpectedCharacter

/-- A value under which `levels - 1` more levels may stand. -/
def parseValue (point : List UInt8) : Nat → List UInt8 → Except JsonError (Json × List UInt8)
  | 0, _ => .error .tooDeep
  | levels + 1, text =>
    match skipWs text with
    | [] => .error .unexpectedEnd
    | char :: rest =>
      if char = 123 ∨ char = 91 then parseContainer (parseValue point levels) (char = 123) rest
      else parseScalar point (char :: rest) char

/-- The tree of a document. `point` is the decimal point of the locale that is in force. -/
def mjParse (point : List UInt8) (text : Document) : Except JsonError Json :=
  if mjMaxText < text.bytes.length then .error .tooLarge
  else
    let start :=
      if Json.byteOrderMark.isPrefixOf text.bytes then text.bytes.drop 3 else text.bytes
    match parseValue point (mjMaxDepth + 1) start with
    | .error error => .error error
    | .ok (tree, rest) => if skipWs rest = [] then .ok tree else .error .trailingData

end Rufux.Linux
