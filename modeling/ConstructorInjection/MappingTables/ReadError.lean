import ConstructorInjection.Text

/-!
What is wrong with a JSON text that is no mapping, and where it showed.
-/

namespace ConstructorInjection

/-- What a JSON text can be rejected for: it ends too early, it is no JSON, or its values have the
wrong shape. -/
inductive ReadCategory where
  | ended
  | ungrammatical
  | misshapen
  deriving DecidableEq

inductive ReadFault where
  | endInValue
  | endInObject
  | endInList
  | endInString
  | expectedColon
  | expectedCommaOrBrace
  | expectedCommaOrBracket
  | expectedValue
  | expectedWord
  | keyNotString
  | trailingComma
  | trailingCharacters
  | controlCharacter
  | invalidEscape
  | loneSurrogate
  | unfinishedSurrogate
  | invalidNumber
  | numberOutOfRange
  | wrongType (found expected : Text)
  | unknownField (name : Text) (known : List Text)
  | duplicateField (name : Text)
  deriving DecidableEq

namespace ReadFault

def category : ReadFault → ReadCategory
  | endInValue | endInObject | endInList | endInString => .ended
  | wrongType _ _ | unknownField _ _ | duplicateField _ => .misshapen
  | _ => .ungrammatical

def quotedName (name : Text) : Text :=
  "`" ++ name ++ "`"

def expectation : List Text → Text
  | [one] => quotedName one
  | [one, other] => quotedName one ++ " or " ++ quotedName other
  | names => "one of " ++ Text.joinWith ", " (names.map quotedName)

def message : ReadFault → Text
  | endInValue => "EOF while parsing a value"
  | endInObject => "EOF while parsing an object"
  | endInList => "EOF while parsing a list"
  | endInString => "EOF while parsing a string"
  | expectedColon => "expected `:`"
  | expectedCommaOrBrace => "expected `,` or `" ++ ['\x7d'] ++ "`"
  | expectedCommaOrBracket => "expected `,` or `]`"
  | expectedValue => "expected value"
  | expectedWord => "expected ident"
  | keyNotString => "key must be a string"
  | trailingComma => "trailing comma"
  | trailingCharacters => "trailing characters"
  | controlCharacter => "control character (\\u0000-\\u001F) found while parsing a string"
  | invalidEscape => "invalid escape"
  | loneSurrogate => "lone leading surrogate in hex escape"
  | unfinishedSurrogate => "unexpected end of hex escape"
  | invalidNumber => "invalid number"
  | numberOutOfRange => "number out of range"
  | wrongType found expected => "invalid type: " ++ found ++ ", expected " ++ expected
  | unknownField name known =>
    "unknown field " ++ quotedName name ++ ", expected " ++ expectation known
  | duplicateField name => "duplicate field " ++ quotedName name

end ReadFault

/-- A fault, the text that was left when it showed, and how far into that text the blame lies. -/
structure ReadStop where
  fault : ReadFault
  rest : Text
  bytesAhead : Nat

/-- Reading gives a value, mostly with the text that is left, or a fault. -/
abbrev Reading := Except ReadStop

namespace Reading

def here {α : Type} (fault : ReadFault) (rest : Text) : Reading α :=
  .error ⟨fault, rest, 0⟩

/-- Blames the next byte of the text, if it has one. -/
def atNext {α : Type} (fault : ReadFault) (rest : Text) : Reading α :=
  .error ⟨fault, rest, 1⟩

end Reading

/-- Lines are counted from one; the column is the number of bytes behind the last line feed. -/
structure ColumnPlace where
  line : Nat
  column : Nat
  deriving DecidableEq

/-- The place that many bytes further on in a text, which may be in the midst of a character, or
the end of the text if it has fewer. -/
def ColumnPlace.after (place : ColumnPlace) : Nat → Text → ColumnPlace
  | 0, _ | _, [] => place
  | bytes, first :: rest =>
    if bytes < first.utf8Size then ⟨place.line, place.column + bytes⟩
    else if first = '\n' then ColumnPlace.after ⟨place.line + 1, 0⟩ (bytes - 1) rest
    else ColumnPlace.after ⟨place.line, place.column + first.utf8Size⟩ (bytes - first.utf8Size) rest

structure ReadError where
  fault : ReadFault
  place : ColumnPlace
  deriving DecidableEq

def ReadError.message (error : ReadError) : Text :=
  error.fault.message ++ " at line " ++ Text.decimal error.place.line ++ " column " ++
    Text.decimal error.place.column

def ReadStop.toError (stop : ReadStop) (text : Text) : ReadError :=
  ⟨stop.fault,
    ColumnPlace.after ⟨1, 0⟩ (text.byteLength - stop.rest.byteLength + stop.bytesAhead) text⟩

end ConstructorInjection
