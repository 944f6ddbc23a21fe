import ConstructorInjection.Text

/-!
Why a file has no tokens. The error of a file is the first one, and it names its line.
-/

namespace ConstructorInjection

/-- Bytes of the source, from `start` to before `stop`. -/
structure Span where
  start : Nat
  stop : Nat
  deriving DecidableEq

inductive LexFault where
  /-- A character that starts no token. -/
  | unexpectedCharacter (found : Char)
  | unterminatedString
  | unterminatedComment
  /-- A heredoc whose closing label does not come. -/
  | unterminatedHeredoc (label : Text)
  /-- `<<<` without a label and a line break. -/
  | malformedHeredoc
  | unclosedDelimiter (opener : Char)
  /-- A closing delimiter with nothing open. -/
  | unexpectedCloser (closer : Char)
  /-- A closing delimiter that the innermost open one does not ask for. -/
  | mismatchedDelimiter (opener closer : Char) (openerLine : Nat)
  deriving DecidableEq

structure LexError where
  fault : LexFault
  line : Nat
  span : Span
  deriving DecidableEq

def LexFault.message : LexFault → Text
  | unexpectedCharacter found => "unexpected character `" ++ [found] ++ "`"
  | unterminatedString => "unterminated string literal"
  | unterminatedComment => "unterminated comment"
  | unterminatedHeredoc label => "unterminated heredoc `" ++ label ++ "`"
  | malformedHeredoc => "malformed heredoc opener"
  | unclosedDelimiter opener => "unclosed `" ++ [opener] ++ "`"
  | unexpectedCloser closer => "unexpected `" ++ [closer] ++ "`"
  | mismatchedDelimiter opener closer openerLine =>
    "mismatched `" ++ [closer] ++ "`: `" ++ [opener] ++ "` opened on line " ++
      Text.decimal openerLine ++ " is still open"

def LexError.message (error : LexError) : Text :=
  "line " ++ Text.decimal error.line ++ ": " ++ error.fault.message

end ConstructorInjection
