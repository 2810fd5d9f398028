import TypeCatalog.Diagnosis
import TypeCatalog.Text.Position

/-! Why a JSON text is refused, and where. A reader names the place by the text it has not read
yet and a number of bytes of it: faults are seen byte by byte, so a place may lie inside a
character. -/
namespace TypeCatalog.Json

open Text (byteCount Position)

inductive Cause where
  | endInValue
  | endInString
  | endInList
  | endInObject
  | wrongLetter
  | noValue
  | invalidNumber
  | outOfRange
  | controlCharacter
  | invalidEscape
  | loneSurrogate
  | unfinishedPair
  | noListComma
  | noObjectComma
  | noColon
  | keyNotString
  | trailingComma
  | trailingCharacters
  | data (mismatch : Mismatch)

inductive Category where
  | ended
  | form
  | data
deriving DecidableEq, Repr

def Cause.category : Cause → Category
  | .endInValue | .endInString | .endInList | .endInObject => .ended
  | .data _ => .data
  | _ => .form

def Cause.message : Cause → String
  | .endInValue => "EOF while parsing a value"
  | .endInString => "EOF while parsing a string"
  | .endInList => "EOF while parsing a list"
  | .endInObject => "EOF while parsing an object"
  | .wrongLetter => "expected ident"
  | .noValue => "expected value"
  | .invalidNumber => "invalid number"
  | .outOfRange => "number out of range"
  | .controlCharacter =>
    "control character (\\u0000-\\u001F) found while parsing a string"
  | .invalidEscape => "invalid escape"
  | .loneSurrogate => "lone leading surrogate in hex escape"
  | .unfinishedPair => "unexpected end of hex escape"
  | .noListComma => "expected `,` or `]`"
  | .noObjectComma => "expected `,` or `\x7d`"
  | .noColon => "expected `:`"
  | .keyNotString => "key must be a string"
  | .trailingComma => "trailing comma"
  | .trailingCharacters => "trailing characters"
  | .data mismatch => mismatch.message .compact

/-- The place is `ahead` bytes into `rest`, or the end of the text if that is shorter. -/
structure Fault where
  cause : Cause
  rest : List Char
  ahead : Nat

namespace Fault

def before (cause : Cause) (rest : List Char) : Fault := ⟨cause, rest, 0⟩

def next (cause : Cause) (rest : List Char) : Fault := ⟨cause, rest, 1⟩

/-- How many bytes of the text come before the place. -/
def offset (text : List Char) (f : Fault) : Nat :=
  min (byteCount text - byteCount f.rest + f.ahead) (byteCount text)

end Fault

/-- A refusal as it is reported. What is not read from a text has no position. -/
structure Error where
  cause : Cause
  position? : Option Position

namespace Error

def ofFault (text : List Char) (f : Fault) : Error :=
  ⟨f.cause, some (Position.after text (f.offset text))⟩

def message (e : Error) : String :=
  match e.position? with
  | none => e.cause.message
  | some p => s!"{e.cause.message} at line {p.line} column {p.column}"

end Error

end TypeCatalog.Json
