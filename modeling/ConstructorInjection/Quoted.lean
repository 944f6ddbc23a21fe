import ConstructorInjection.Unicode

/-!
Texts between double quotes: for a reader of the token listing, and as JSON strings.
-/

namespace ConstructorInjection

def hexadecimal (number : Nat) : Text :=
  Nat.toDigits 16 number

/-- A character as it shows in a listing. Characters that would not show as themselves are given by
their code point. -/
def shownCharacter (character : Char) : Text :=
  match character with
  | '\x00' => ['\\', '0']
  | '\t' => ['\\', 't']
  | '\r' => ['\\', 'r']
  | '\n' => ['\\', 'n']
  | '\\' => ['\\', '\\']
  | '"' => ['\\', '"']
  | character =>
    if Unicode.isVisible character && !Unicode.isAttaching character then [character]
    else ['\\', 'u', '\x7b'] ++ hexadecimal character.toNat ++ ['\x7d']

def shown (text : Text) : Text :=
  ['"'] ++ text.flatMap shownCharacter ++ ['"']

def jsonCharacter (character : Char) : Text :=
  match character with
  | '"' => ['\\', '"']
  | '\\' => ['\\', '\\']
  | '\x08' => ['\\', 'b']
  | '\t' => ['\\', 't']
  | '\n' => ['\\', 'n']
  | '\x0c' => ['\\', 'f']
  | '\r' => ['\\', 'r']
  | character =>
    if character.toNat < 0x20 then
      let digits := hexadecimal character.toNat
      ['\\', 'u'] ++ List.replicate (4 - digits.length) '0' ++ digits
    else [character]

def jsonString (text : Text) : Text :=
  ['"'] ++ text.flatMap jsonCharacter ++ ['"']

end ConstructorInjection
