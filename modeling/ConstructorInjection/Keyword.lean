import ConstructorInjection.Text

/-!
The reserved words of PHP. `self`, `parent` and the names of types are not reserved.
-/

namespace ConstructorInjection

def keywords : List Text :=
  List.map String.toList
    ["as", "do", "fn", "if", "or",
     "and", "die", "for", "new", "try", "use", "var", "xor",
     "case", "echo", "else", "eval", "exit", "goto", "list",
     "array", "break", "catch", "class", "clone", "const", "empty", "endif", "final", "isset",
     "match", "print", "throw", "trait", "unset", "while", "yield",
     "elseif", "endfor", "global", "public", "return", "static", "switch",
     "declare", "default", "extends", "finally", "foreach", "include", "private", "require",
     "abstract", "callable", "continue", "endwhile", "function", "readonly",
     "endswitch", "insteadof", "interface", "namespace", "protected",
     "enddeclare", "endforeach", "implements", "instanceof",
     "include_once", "require_once"]

/-- Whether a word is reserved, in any case. -/
def isReservedWord (word : Text) : Bool :=
  keywords.contains (word.map Char.toLower)

end ConstructorInjection
