import ConstructorInjection.MappingTables
import ConstructorInjection.MappingTables.Number
import ConstructorInjection.Quoted

/-!
Mapping tables are read from JSON text, from left to right; the first problem ends the reading. A
structure is an object with known fields, each at most once, or a list of its fields in order.
-/

namespace ConstructorInjection

open Reading

def skipJsonSpace (text : Text) : Text :=
  text.dropWhile fun c => c == ' ' || c == '\n' || c == '\t' || c == '\r'

def hexadecimalValue? (character : Char) : Option Nat :=
  if character.isDigit then some (character.toNat - '0'.toNat)
  else if 'a' ≤ character ∧ character ≤ 'f' then some (character.toNat - 'a'.toNat + 10)
  else if 'A' ≤ character ∧ character ≤ 'F' then some (character.toNat - 'A'.toNat + 10)
  else none

/-- Four hexadecimal digits. -/
def readCodeUnit (text : Text) : Reading (Nat × Text) :=
  if text.byteLength < 4 then here .endInString []
  else
    let digits := text.take 4
    match digits.mapM hexadecimalValue? with
    | some values => .ok (values.foldl (fun total value => 16 * total + value) 0, text.drop 4)
    | none => .error ⟨.invalidEscape, text, 4⟩

/-- The code point after `\u`. A leading surrogate needs its trailing one. -/
def readCodePoint (text : Text) : Reading (Char × Text) := do
  let (unit, rest) ← readCodeUnit text
  if 0xDC00 ≤ unit ∧ unit ≤ 0xDFFF then here .loneSurrogate rest
  else if unit < 0xD800 ∨ 0xDBFF < unit then return (Char.ofNat unit, rest)
  else
    match rest with
    | [] => here .endInString []
    | ['\\'] => here .endInString []
    | '\\' :: 'u' :: rest =>
      let (trailing, rest) ← readCodeUnit rest
      if trailing < 0xDC00 ∨ 0xDFFF < trailing then here .loneSurrogate rest
      else
        return (Char.ofNat (0x10000 + (unit - 0xD800) * 0x400 + (trailing - 0xDC00)), rest)
    | '\\' :: rest => atNext .unfinishedSurrogate rest
    | rest => atNext .unfinishedSurrogate rest

/-- The character that a backslash before the text stands for. -/
def readEscape : Text → Reading (Char × Text)
  | [] => here .endInString []
  | '"' :: rest => .ok ('"', rest)
  | '\\' :: rest => .ok ('\\', rest)
  | '/' :: rest => .ok ('/', rest)
  | 'b' :: rest => .ok ('\x08', rest)
  | 'f' :: rest => .ok ('\x0c', rest)
  | 'n' :: rest => .ok ('\n', rest)
  | 'r' :: rest => .ok ('\r', rest)
  | 't' :: rest => .ok ('\t', rest)
  | 'u' :: rest => readCodePoint rest
  | rest => atNext .invalidEscape rest

/-- A string from behind its opening quote, of at most `fuel` characters. -/
def readStringWithin : Nat → Text → Reading (Text × Text)
  | 0, text => here .endInString text
  | _ + 1, [] => here .endInString []
  | _ + 1, '"' :: rest => .ok ([], rest)
  | fuel + 1, '\\' :: rest => do
    let (character, rest) ← readEscape rest
    let (characters, rest) ← readStringWithin fuel rest
    return (character :: characters, rest)
  | fuel + 1, first :: rest =>
    if first.toNat < 0x20 then atNext .controlCharacter (first :: rest)
    else do
      let (characters, rest) ← readStringWithin fuel rest
      return (first :: characters, rest)

/-- A string from behind its opening quote. -/
def readString (text : Text) : Reading (Text × Text) :=
  readStringWithin (text.length + 1) text

/-- The end of a word whose first letter has been read. -/
def readWord (letters : Text) (rest : Text) : Reading (Unit × Text) :=
  match letters, rest with
  | [], rest => .ok ((), rest)
  | _ :: _, [] => here .endInValue []
  | letter :: letters, first :: rest =>
    if first = letter then readWord letters rest else atNext .expectedWord (first :: rest)

/-- The error for a value, at the start of the text, that should be of another type. -/
def refuseValue {α : Type} (expected : Text) (text : Text) : Reading (α × Text) := do
  match text with
  | [] => atNext .endInValue []
  | 'n' :: rest =>
    let (_, rest) ← readWord "ull" rest
    here (.wrongType "null" expected) rest
  | 't' :: rest =>
    let (_, rest) ← readWord "rue" rest
    here (.wrongType "boolean `true`" expected) rest
  | 'f' :: rest =>
    let (_, rest) ← readWord "alse" rest
    here (.wrongType "boolean `false`" expected) rest
  | '"' :: rest =>
    let (characters, rest) ← readString rest
    here (.wrongType ("string " ++ shown characters) expected) rest
  | '[' :: _ => here (.wrongType "sequence" expected) text
  | '\x7b' :: _ => here (.wrongType "map" expected) text
  | first :: _ =>
    if first = '-' ∨ first.isDigit then
      let (number, rest) ← readNumber text
      here (.wrongType number.description expected) rest
    else atNext .expectedValue text

/-- The key of the next member of an object; none at the closing brace, which is not read. -/
def readKey (first : Bool) (text : Text) : Reading (Option Text × Text) := do
  match skipJsonSpace text with
  | [] => atNext .endInObject []
  | '\x7d' :: rest => return (none, '\x7d' :: rest)
  | next :: others =>
    let member ←
      if first then .ok (next :: others)
      else if next = ',' then .ok (skipJsonSpace others)
      else atNext .expectedCommaOrBrace (next :: others)
    match member with
    | [] => atNext .endInValue []
    | '"' :: rest =>
      let (key, rest) ← readString rest
      return (some key, rest)
    | '\x7d' :: rest => atNext .trailingComma ('\x7d' :: rest)
    | rest => atNext .keyNotString rest

/-- The colon between a key and its value, and the blanks around it. -/
def readColon (text : Text) : Reading (Unit × Text) :=
  match skipJsonSpace text with
  | [] => atNext .endInObject []
  | ':' :: rest => .ok ((), skipJsonSpace rest)
  | rest => atNext .expectedColon rest

/-- The members of an object and its closing brace, each read by `readMember` from behind its key.
There are fewer than `fuel` of them. -/
def readMembersWithin {σ : Type} (readMember : Text → σ → Text → Reading (σ × Text)) :
    Nat → Bool → σ → Text → Reading (σ × Text)
  | 0, _, _, text => here .endInObject text
  | fuel + 1, first, state, text => do
    let (key, rest) ← readKey first text
    match key with
    | none => return (state, rest.drop 1)
    | some key =>
      let (state, rest) ← readMember key state rest
      readMembersWithin readMember fuel false state rest

def readMembers {σ : Type} (readMember : Text → σ → Text → Reading (σ × Text)) (state : σ)
    (text : Text) : Reading (σ × Text) :=
  readMembersWithin readMember (text.length + 1) true state text

/-- A map from texts to texts. -/
def readTable (text : Text) : Reading (Table × Text) := do
  match skipJsonSpace text with
  | '\x7b' :: rest =>
    readMembers (fun key table rest => do
      let (_, rest) ← readColon rest
      match rest with
      | '"' :: rest =>
        let (value, rest) ← readString rest
        return (table.insert key value, rest)
      | rest => refuseValue "a string" rest) Table.empty rest
  | rest => refuseValue "a map" rest

/-- A field of a structure: its name, and how its value is read into the structure. -/
structure Field (σ : Type) where
  name : Text
  read : σ → Text → Reading (σ × Text)

/-- Faults found in a key are reported behind the key, and behind a brace that follows it. -/
def refuseKey {α : Type} (fault : ReadFault) (text : Text) : Reading (α × Text) :=
  match skipJsonSpace text with
  | '\x7d' :: rest => here fault rest
  | rest => here fault rest

/-- The fields of a structure that is written as a list, in order. What is missing at the end stays
as it is. -/
def readInOrder {σ : Type} (first : Bool) (state : σ) (text : Text) :
    List (Field σ) → Reading (σ × Text)
  | [] =>
    match skipJsonSpace text with
    | [] => atNext .endInList []
    | ']' :: rest => .ok (state, rest)
    | ',' :: rest =>
      match skipJsonSpace rest with
      | ']' :: rest => atNext .trailingComma (']' :: rest)
      | rest => atNext .trailingCharacters rest
    | rest => atNext .trailingCharacters rest
  | field :: fields => do
    match skipJsonSpace text with
    | [] => atNext .endInList []
    | ']' :: rest => return (state, rest)
    | next :: others =>
      let element ←
        if first then .ok (next :: others)
        else if next = ',' then .ok (skipJsonSpace others)
        else atNext .expectedCommaOrBracket (next :: others)
      match element with
      | [] => atNext .endInValue []
      | ']' :: rest => atNext .trailingComma (']' :: rest)
      | element =>
        let (state, rest) ← field.read state element
        readInOrder false state rest fields

/-- A structure, from a state in which no field is set. -/
def readStructure {σ : Type} (typeName : Text) (fields : List (Field σ)) (initial : σ)
    (text : Text) : Reading (σ × Text) := do
  match skipJsonSpace text with
  | '\x7b' :: rest =>
    let ((_, state), rest) ← readMembers (fun key (seen, state) rest => do
      match fields.find? (·.name == key) with
      | none => refuseKey (.unknownField key (fields.map Field.name)) rest
      | some field =>
        if seen.contains key then refuseKey (.duplicateField key) rest
        else
          let (_, rest) ← readColon rest
          let (state, rest) ← field.read state rest
          return ((key :: seen, state), rest)) (([] : List Text), initial) rest
    return (state, rest)
  | '[' :: rest => readInOrder true initial rest fields
  | rest => refuseValue ("struct " ++ typeName) rest

def aliasFields : List (Field AliasTables) :=
  [⟨"helper", fun tables text => do
      let (table, rest) ← readTable text
      return ({ tables with helper := table }, rest)⟩,
   ⟨"model", fun tables text => do
      let (table, rest) ← readTable text
      return ({ tables with model := table }, rest)⟩,
   ⟨"resource_model", fun tables text => do
      let (table, rest) ← readTable text
      return ({ tables with resourceModel := table }, rest)⟩]

def mappingFields : List (Field MappingTables) :=
  [⟨"classes", fun tables text => do
      let (table, rest) ← readTable text
      return ({ tables with classes := table }, rest)⟩,
   ⟨"aliases", fun tables text => do
      let (aliases, rest) ← readStructure "AliasTables" aliasFields AliasTables.empty text
      return ({ tables with aliases := aliases }, rest)⟩]

/-- The tables that a JSON text holds, with nothing but blanks after them. -/
def MappingTables.read (text : Text) : Except ReadError MappingTables :=
  match readStructure "MappingTables" mappingFields MappingTables.empty text with
  | .error stop => .error (stop.toError text)
  | .ok (tables, rest) =>
    match skipJsonSpace rest with
    | [] => .ok tables
    | rest => .error (ReadStop.toError ⟨.trailingCharacters, rest, 1⟩ text)

end ConstructorInjection
