/-
# Reading a JSON text character by character

The reader is a machine with a stack of the containers that are open.  Each character either moves
it on or is refused, and then the fault is told with the place just after the first byte of that
character.  Faults that only a completed numeral, string escape or text shows are told at the place
reached.

A caller may have no interest in parts of a document.  What is read while `skipped` holds of the
stack has only to be well written: numbers of any size, unpaired surrogates and any nesting are let
pass there, and what is built in their place means nothing.
-/
import TypedAttributes.Json.Written
import TypedAttributes.Json.Fault

namespace TypedAttributes.Json

/-- A container that is open, with what it holds so far, latest first. -/
inductive Frame where
  | array (items : List Written)
  /-- An object in which a key is wanted. -/
  | object (entries : List (String × Written))
  /-- An object in which the value of a key is wanted or has just been read. -/
  | entry (entries : List (String × Written)) (key : String)

/-- Where the reader is in the grammar.  The characters of a string are held latest first. -/
inductive Place where
  /-- A value is wanted. -/
  | value
  /-- After the opening of an array: a value or its end. -/
  | firstItem
  /-- After a comma in an array: a value. -/
  | nextItem
  /-- After the opening of an object: a key or its end. -/
  | firstKey
  /-- After a comma in an object: a key. -/
  | nextKey
  /-- After a key. -/
  | colon
  /-- After a complete value. -/
  | after (value : Written)
  /-- In a word that stands for a value, with the letters that are missing. -/
  | word (missing : List Char) (value : Written)
  | number (read : Numeral.Partial)
  | string (chars : List Char)
  /-- After a backslash. -/
  | escape (chars : List Char)
  /-- In the four hexadecimal digits of a 16-bit unit: the high surrogate before it, if one waits
  for its partner; the value so far, if all have been digits; and how many bytes have been read. -/
  | unit (chars : List Char) (high : Option Nat) (code : Option Nat) (bytes : Nat)
  /-- After a high surrogate: a backslash is wanted. -/
  | surrogate (chars : List Char) (high : Nat)
  /-- After a high surrogate and a backslash: the letter of a unit is wanted. -/
  | surrogateEscape (chars : List Char) (high : Nat)

/-- A state of the reader. -/
structure Reading where
  /-- The place in the text, after the characters read so far. -/
  position : Position := {}
  place : Place := .value
  /-- The open containers, innermost first. -/
  frames : List Frame := []

/-- The number of containers that may be nested in one another. -/
def maxNesting : Nat := 127

/-- Whether a character may stand between the parts of a document. -/
def isBlank (c : Char) : Bool := c = ' ' || c = '\t' || c = '\n' || c = '\r'

/-- The character written by a backslash and a letter. -/
def unescape? (c : Char) : Option Char :=
  match c with
  | '"' => some '"'
  | '\\' => some '\\'
  | '/' => some '/'
  | 'b' => some '\x08'
  | 'f' => some '\x0c'
  | 'n' => some '\n'
  | 'r' => some '\r'
  | 't' => some '\t'
  | _ => none

/-- The value of a hexadecimal digit. -/
def hexDigit? (c : Char) : Option Nat :=
  if c.isDigit then some (c.toNat - '0'.toNat)
  else if 'a' ≤ c ∧ c ≤ 'f' then some (c.toNat - 'a'.toNat + 10)
  else if 'A' ≤ c ∧ c ≤ 'F' then some (c.toNat - 'A'.toNat + 10)
  else none

/-- Whether a 16-bit unit is the first half of a pair. -/
def isHighSurrogate (code : Nat) : Bool := 0xD800 ≤ code && code < 0xDC00

/-- Whether a 16-bit unit is the second half of a pair. -/
def isLowSurrogate (code : Nat) : Bool := 0xDC00 ≤ code && code < 0xE000

/-- The character that a pair of 16-bit units stands for. -/
def ofSurrogates (high low : Nat) : Char :=
  Char.ofNat (0x10000 + (high - 0xD800) * 0x400 + (low - 0xDC00))

namespace Reading

variable (skipped : List Frame → Bool)

/-- Takes a character and is then at a place of the grammar, with these containers open. -/
def move (r : Reading) (c : Char) (place : Place) (frames : List Frame) :
    Except SyntaxError Reading :=
  .ok ⟨r.position.after c, place, frames⟩

/-- Refuses a character. -/
def refuse (r : Reading) (c : Char) (fault : Fault) : Except SyntaxError Reading :=
  .error ⟨fault, r.position.afterBytes c 1⟩

/-- Opens a container. -/
def openWith (r : Reading) (c : Char) (place : Place) (frame : Frame) :
    Except SyntaxError Reading :=
  if maxNesting ≤ r.frames.length && !skipped r.frames then r.refuse c .nestingTooDeep
  else r.move c place (frame :: r.frames)

/-- Starts a value. -/
def startValue (r : Reading) (c : Char) : Except SyntaxError Reading :=
  match c with
  | '[' => r.openWith skipped c .firstItem (.array [])
  | '\x7b' => r.openWith skipped c .firstKey (.object [])
  | '"' => r.move c (.string []) r.frames
  | 'n' => r.move c (.word ['u', 'l', 'l'] .null) r.frames
  | 't' => r.move c (.word ['r', 'u', 'e'] (.bool true)) r.frames
  | 'f' => r.move c (.word ['a', 'l', 's', 'e'] (.bool false)) r.frames
  | _ =>
    match Numeral.Partial.next {} c with
    | .extended read => r.move c (.number read) r.frames
    | _ => r.refuse c .valueExpected

/-- Starts a key. -/
def startKey (r : Reading) (c : Char) : Except SyntaxError Reading :=
  if c = '"' then r.move c (.string []) r.frames else r.refuse c .keyExpected

/-- Reads what follows a complete value. -/
def continueAfter (r : Reading) (value : Written) (c : Char) : Except SyntaxError Reading :=
  if isBlank c then r.move c (.after value) r.frames
  else match r.frames with
    | [] => r.refuse c .charactersTrailing
    | .array items :: frames =>
      if c = ',' then r.move c .nextItem (.array (value :: items) :: frames)
      else if c = ']' then r.move c (.after (.array (value :: items).reverse)) frames
      else r.refuse c .arrayContinuationExpected
    | .entry entries key :: frames =>
      if c = ',' then r.move c .nextKey (.object ((key, value) :: entries) :: frames)
      else if c = '\x7d' then r.move c (.after (.object ((key, value) :: entries).reverse)) frames
      else r.refuse c .objectContinuationExpected
    | .object _ :: _ => r.refuse c .keyExpected

/-- The value of a complete numeral. -/
def numberValue (r : Reading) (read : Numeral.Partial) : Except SyntaxError Written :=
  match read.finish?.bind Number.ofNumeral? with
  | some value => .ok (.number value)
  | none => if skipped r.frames then .ok .null else .error ⟨.numberOutOfRange, r.position⟩

/-- Reads a character of a numeral or after it. -/
def continueNumber (r : Reading) (read : Numeral.Partial) (c : Char) : Except SyntaxError Reading :=
  match read.next c with
  | .extended read =>
    if read.isBoundless && !skipped r.frames then .error ⟨.numberOutOfRange, r.position.after c⟩
    else r.move c (.number read) r.frames
  | .refused => r.refuse c .numberInvalid
  | .over => do r.continueAfter (← r.numberValue skipped read) c

/-- Ends a string, which is a key if the innermost open container wants one. -/
def endString (r : Reading) (chars : List Char) (c : Char) : Except SyntaxError Reading :=
  let text := String.ofList chars.reverse
  match r.frames with
  | .object entries :: frames => r.move c .colon (.entry entries text :: frames)
  | frames => r.move c (.after (.string text)) frames

/-- Reads a character of a string. -/
def continueString (r : Reading) (chars : List Char) (c : Char) : Except SyntaxError Reading :=
  if c = '"' then r.endString chars c
  else if c = '\\' then r.move c (.escape chars) r.frames
  else if c.toNat < 0x20 then r.refuse c .controlCharacter
  else r.move c (.string (c :: chars)) r.frames

/-- Reads the letter of an escape. -/
def continueEscape (r : Reading) (chars : List Char) (c : Char) : Except SyntaxError Reading :=
  if c = 'u' then r.move c (.unit chars none (some 0) 0) r.frames
  else match unescape? c with
    | some escaped => r.move c (.string (escaped :: chars)) r.frames
    | none => r.refuse c .escapeInvalid

/-- Ends a 16-bit unit.  A low surrogate has to complete a pair and a high one to begin one. -/
def endUnit (r : Reading) (chars : List Char) (high : Option Nat) (code : Nat) (c : Char) :
    Except SyntaxError Reading :=
  match high with
  | some high =>
    if isLowSurrogate code then r.move c (.string (ofSurrogates high code :: chars)) r.frames
    else .error ⟨.surrogateUnpaired, r.position.after c⟩
  | none =>
    if skipped r.frames then r.move c (.string (Char.ofNat code :: chars)) r.frames
    else if isLowSurrogate code then .error ⟨.surrogateUnpaired, r.position.after c⟩
    else if isHighSurrogate code then r.move c (.surrogate chars code) r.frames
    else r.move c (.string (Char.ofNat code :: chars)) r.frames

/-- Reads a character of a 16-bit unit.  Four bytes are taken before a bad digit is told. -/
def continueUnit (r : Reading) (chars : List Char) (high code : Option Nat) (bytes : Nat)
    (c : Char) : Except SyntaxError Reading :=
  let code := do return 16 * (← code) + (← hexDigit? c)
  if bytes + c.utf8Size < 4 then r.move c (.unit chars high code (bytes + c.utf8Size)) r.frames
  else match code with
    | some code => r.endUnit skipped chars high code c
    | none => .error ⟨.escapeInvalid, r.position.afterBytes c (4 - bytes)⟩

/-- Reads a character. -/
def step (r : Reading) (c : Char) : Except SyntaxError Reading :=
  match r.place with
  | .value => if isBlank c then r.move c .value r.frames else r.startValue skipped c
  | .firstItem =>
    if isBlank c then r.move c .firstItem r.frames
    else if c = ']' then r.move c (.after (.array [])) r.frames.tail
    else r.startValue skipped c
  | .nextItem =>
    if isBlank c then r.move c .nextItem r.frames
    else if c = ']' then r.refuse c .commaTrailing
    else r.startValue skipped c
  | .firstKey =>
    if isBlank c then r.move c .firstKey r.frames
    else if c = '\x7d' then r.move c (.after (.object [])) r.frames.tail
    else r.startKey c
  | .nextKey =>
    if isBlank c then r.move c .nextKey r.frames
    else if c = '\x7d' then r.refuse c .commaTrailing
    else r.startKey c
  | .colon =>
    if isBlank c then r.move c .colon r.frames
    else if c = ':' then r.move c .value r.frames
    else r.refuse c .colonExpected
  | .after value => r.continueAfter value c
  | .word missing value =>
    match missing with
    | [] => r.continueAfter value c
    | [last] => if c = last then r.move c (.after value) r.frames else r.refuse c .wordExpected
    | expected :: missing =>
      if c = expected then r.move c (.word missing value) r.frames else r.refuse c .wordExpected
  | .number read => r.continueNumber skipped read c
  | .string chars => r.continueString chars c
  | .escape chars => r.continueEscape chars c
  | .unit chars high code bytes => r.continueUnit skipped chars high code bytes c
  | .surrogate chars high =>
    if c = '\\' then r.move c (.surrogateEscape chars high) r.frames
    else r.refuse c .escapeUnfinished
  | .surrogateEscape chars high =>
    if c = 'u' then r.move c (.unit chars (some high) (some 0) 0) r.frames
    else r.refuse c .escapeUnfinished

/-- What the end of a text means after a complete value. -/
def endAfter (r : Reading) (value : Written) : Except SyntaxError Written :=
  match r.frames with
  | [] => .ok value
  | .array _ :: _ => .error ⟨.endInArray, r.position⟩
  | _ => .error ⟨.endInObject, r.position⟩

/-- What the end of a text means. -/
def finish (r : Reading) : Except SyntaxError Written :=
  let fail (fault : Fault) : Except SyntaxError Written := .error ⟨fault, r.position⟩
  match r.place with
  | .value | .nextItem | .nextKey | .word _ _ => fail .endInsteadOfValue
  | .firstItem => fail .endInArray
  | .firstKey | .colon => fail .endInObject
  | .after value => r.endAfter value
  | .number read =>
    if read.finish?.isNone then fail .endInsteadOfValue
    else do r.endAfter (← r.numberValue skipped read)
  | _ => fail .endInString

end Reading

/-- Reads the document that a text writes, in which what is inside of the skipped containers has
only to be well written. -/
def Written.parse (skipped : List Frame → Bool) (text : String) : Except SyntaxError Written := do
  (← text.toList.foldlM (Reading.step skipped) {}).finish skipped

/-- Reads the document that a text writes. -/
def parse (text : String) : Except SyntaxError Json := do
  return (← Written.parse (fun _ => false) text).toJson

end TypedAttributes.Json
