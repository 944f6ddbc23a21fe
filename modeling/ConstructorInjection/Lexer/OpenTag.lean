import ConstructorInjection.Token

/-!
The tags that switch from HTML to PHP code.
-/

namespace ConstructorInjection

structure OpenTag where
  kind : TokenKind
  length : Nat
  length_pos : 0 < length

/-- The open tag at the start of a text: `<?=`, or `<?php` in any case before one blank, line break
or the end. A carriage return takes its line feed with it. -/
def openTagAt? : Text → Option OpenTag
  | '<' :: '?' :: '=' :: _ => some ⟨.openTagWithEcho, 3, by decide⟩
  | '<' :: '?' :: p :: h :: q :: rest =>
    if Text.equalIgnoringCase [p, h, q] "php" then
      match rest with
      | [] => some ⟨.openTag, 5, by decide⟩
      | '\r' :: '\n' :: _ => some ⟨.openTag, 7, by decide⟩
      | ' ' :: _ | '\t' :: _ | '\n' :: _ | '\r' :: _ => some ⟨.openTag, 6, by decide⟩
      | _ => none
    else none
  | _ => none

def htmlExtent : Text → Nat
  | [] => 0
  | first :: rest => if (openTagAt? (first :: rest)).isSome then 0 else htmlExtent rest + 1

end ConstructorInjection
