import ConstructorInjection.Proofs.AwaitedClosers
import ConstructorInjection.Proofs.Lexing

/-!
Code behind an open tag is lexed as it is by itself. A file needs its delimiters to match on top of
that, and its faults lie as many bytes further on as the tag has.
-/

namespace ConstructorInjection

/-- The same fault, some bytes further on in its line. -/
def LexError.movedBy (error : LexError) (bytes : Nat) : LexError :=
  { error with span := ⟨error.span.start + bytes, error.span.stop + bytes⟩ }

theorem Place.after_movedBy (place : Place) (text : Text) (bytes : Nat) :
    Place.after ⟨place.offset + bytes, place.line⟩ text =
      ⟨(place.after text).offset + bytes, (place.after text).line⟩ := by
  simp only [Place.after, Nat.add_right_comm]

theorem Refusal.toError_movedBy (refusal : Refusal) (place : Place) (input : Text) (bytes : Nat) :
    refusal.toError ⟨place.offset + bytes, place.line⟩ input =
      (refusal.toError place input).movedBy bytes := by
  simp only [Refusal.toError, LexError.movedBy, Nat.add_right_comm]

/-- What is in front of a text moves its faults and nothing else. -/
theorem lexFrom_movedBy (mode : LexMode) (memberName : Bool) (place : Place) (input : Text)
    (bytes : Nat) :
    lexFrom mode memberName ⟨place.offset + bytes, place.line⟩ input =
      (lexFrom mode memberName place input).mapError (·.movedBy bytes) := by
  induction mode, memberName, place, input using lexFrom.induct with
  | case1 mode memberName place =>
      rw [lexFrom, lexFrom, if_pos rfl, if_pos rfl]
      rfl
  | case2 mode memberName place input nonempty refusal next =>
      rw [lexFrom, lexFrom, if_neg nonempty, if_neg nonempty, next]
      simp only [refusal.toError_movedBy, Except.mapError]
  | case3 mode memberName place input nonempty piece next text ih =>
      rw [lexFrom, lexFrom, if_neg nonempty, if_neg nonempty, next]
      simp only [place.after_movedBy]
      rw [ih]
      cases lexFrom (mode.after piece.kind) (memberNameAfter memberName piece.kind text)
        (place.after text) (input.drop piece.length) <;> rfl

def phpTag : Text :=
  "<?php "

theorem piece_phpTag (memberName : Bool) (source : Text) :
    Piece.next .html memberName (phpTag ++ source) = .ok ⟨.openTag, phpTag.length, by decide⟩ := by
  rfl

/-- The scanner's memory of the tokens in front of a name is empty behind the tag, as it is at the
start of a fragment. -/
theorem lexFile_phpTag (source : Text) :
    lexFile (phpTag ++ source) =
      ((lexFragment source).mapError (·.movedBy phpTag.byteLength)).map
        (⟨.openTag, phpTag, 1⟩ :: ·) := by
  have nonempty : phpTag ++ source ≠ [] := by simp [phpTag]
  have behind := lexFrom_movedBy .code false Place.start source phpTag.byteLength
  rw [lexFile, lexFrom, if_neg nonempty, piece_phpTag]
  simp only [List.take_left, List.drop_left]
  rw [lexFragment, ← behind]
  rfl

/-- A fragment behind an open tag is a file just if it has tokens and these are nested; then the
file has the tag and the tokens of the fragment. If the fragment has none, its fault is the file's,
on the same line and six bytes further on. -/
theorem tokenize_phpTag (source : Text) :
    (∀ tokens, tokenize (phpTag ++ source) = .ok tokens ↔
      ∃ fragment, lexFragment source = .ok fragment ∧ Nested fragment ∧
        tokens = ⟨.openTag, phpTag, 1⟩ :: fragment) ∧
      ∀ error, lexFragment source = .error error →
        tokenize (phpTag ++ source) = .error
          ⟨error.fault, error.line, ⟨error.span.start + 6, error.span.stop + 6⟩⟩ := by
  have file := lexFile_phpTag source
  cases lexed : lexFragment source with
  | error error =>
      rw [lexed] at file
      refine ⟨fun tokens => ?_, fun other same => ?_⟩
      · rw [tokenize_eq_ok_iff, file]
        simp [Except.mapError, Except.map]
      · cases same
        rw [tokenize, file]
        rfl
  | ok fragment =>
      rw [lexed] at file
      refine ⟨fun tokens => ?_, fun other same => by cases same⟩
      have nested : nestingError? [] 0 (⟨.openTag, phpTag, 1⟩ :: fragment) = none ↔
          Nested fragment := by
        rw [nestingError?]
        exact nestingError?_eq_none_iff
      rw [tokenize_eq_ok_iff, file]
      simp only [Except.mapError, Except.map, Except.ok.injEq]
      constructor
      · rintro ⟨rfl, faultless⟩
        exact ⟨fragment, rfl, nested.mp faultless, rfl⟩
      · rintro ⟨_, rfl, isNested, rfl⟩
        exact ⟨rfl, nested.mpr isNested⟩

end ConstructorInjection
