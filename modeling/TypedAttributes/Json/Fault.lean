/-
# Faults of JSON texts

A text that is no document is refused at the first place where that is settled.  Places are told by
line and column; columns count the bytes of the text's encoding that have been read on the line.
-/
namespace TypedAttributes.Json

/-- A place in a text. -/
structure Position where
  /-- The line, counted from one. -/
  line : Nat := 1
  /-- The bytes read on the line. -/
  column : Nat := 0
deriving DecidableEq

namespace Position

/-- The place after some bytes of a character, of which there is one if it ends a line. -/
def afterBytes (p : Position) (c : Char) (bytes : Nat) : Position :=
  if c = '\n' then ⟨p.line + 1, 0⟩ else ⟨p.line, p.column + bytes⟩

/-- The place after a character. -/
def after (p : Position) (c : Char) : Position := p.afterBytes c c.utf8Size

end Position

/-- What is wrong with a text. -/
inductive Fault where
  | endInArray
  | endInObject
  | endInString
  | endInsteadOfValue
  | colonExpected
  | arrayContinuationExpected
  | objectContinuationExpected
  | wordExpected
  | valueExpected
  | escapeInvalid
  | numberInvalid
  | numberOutOfRange
  | controlCharacter
  | keyExpected
  | surrogateUnpaired
  | commaTrailing
  | charactersTrailing
  | escapeUnfinished
  | nestingTooDeep
deriving DecidableEq

/-- The text of a fault. -/
def Fault.message : Fault → String
  | .endInArray => "EOF while parsing a list"
  | .endInObject => "EOF while parsing an object"
  | .endInString => "EOF while parsing a string"
  | .endInsteadOfValue => "EOF while parsing a value"
  | .colonExpected => "expected \x60:\x60"
  | .arrayContinuationExpected => "expected \x60,\x60 or \x60]\x60"
  | .objectContinuationExpected => "expected \x60,\x60 or \x60\x7d\x60"
  | .wordExpected => "expected ident"
  | .valueExpected => "expected value"
  | .escapeInvalid => "invalid escape"
  | .numberInvalid => "invalid number"
  | .numberOutOfRange => "number out of range"
  | .controlCharacter => "control character (\\u0000-\\u001F) found while parsing a string"
  | .keyExpected => "key must be a string"
  | .surrogateUnpaired => "lone leading surrogate in hex escape"
  | .commaTrailing => "trailing comma"
  | .charactersTrailing => "trailing characters"
  | .escapeUnfinished => "unexpected end of hex escape"
  | .nestingTooDeep => "recursion limit exceeded"

/-- A fault and the place where it was found. -/
structure SyntaxError where
  fault : Fault
  position : Position
deriving DecidableEq

/-- The text of an error, such as `EOF while parsing a list at line 1 column 1`. -/
def SyntaxError.message (e : SyntaxError) : String :=
  e.fault.message ++ " at line " ++ toString e.position.line ++ " column " ++
    toString e.position.column

end TypedAttributes.Json
