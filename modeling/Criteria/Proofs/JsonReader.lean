import Criteria.Json.Basic
import Criteria.NatPower

/-! # What a JSON text denotes

Literals are only written as JSON, never read. This reader serves the theory alone: it gives the
value that a text denotes, and what is printed is shown to be read back by it.

A text is read character by character. What is open around the place that is read, the arrays
and objects begun and not closed, is kept on a stack, so a reading is a fold of single steps.
The members of an object keep their order, and nothing bounds how deep arrays and objects nest. A
whole number is read in its exact form where 64 bits hold it; any other number is a float.
-/

namespace Criteria.Json

open NatPower

def isBlank (c : Char) : Bool :=
  c == ' ' || c == '\t' || c == '\n' || c == '\r'

/-- A character that ends a number or a name. -/
def isDelimiter (c : Char) : Bool :=
  isBlank c || c == '[' || c == ']' || c == '\x7b' || c == '\x7d' || c == ',' || c == ':' ||
    c == '"'

def hexDigit? (c : Char) : Option Nat :=
  if c.isDigit then some (c.toNat - '0'.toNat)
  else if 'a' ≤ c ∧ c ≤ 'f' then some (c.toNat - 'a'.toNat + 10)
  else if 'A' ≤ c ∧ c ≤ 'F' then some (c.toNat - 'A'.toNat + 10)
  else none

def hexValue? (digits : List Char) : Option Nat :=
  digits.foldlM (fun n c => (hexDigit? c).map (16 * n + ·)) 0

/-- The character for which a letter stands behind a backslash. -/
def escaped? (c : Char) : Option Char :=
  if c = '"' ∨ c = '\\' ∨ c = '/' then some c
  else if c = 'b' then some '\x08'
  else if c = 'f' then some '\x0c'
  else if c = 'n' then some '\n'
  else if c = 'r' then some '\r'
  else if c = 't' then some '\t'
  else none

/-- The code points and halves of code points of a string as it is written. -/
def units? : List Char → Option (List Nat)
  | [] => some []
  | '\\' :: 'u' :: a :: b :: c :: d :: rest => do
    let unit ← hexValue? [a, b, c, d]
    let units ← units? rest
    return unit :: units
  | '\\' :: c :: rest => do
    let c ← escaped? c
    let units ← units? rest
    return c.toNat :: units
  | c :: rest =>
    if c = '\\' ∨ c < ' ' then none
    else (units? rest).map (c.toNat :: ·)

def isHighHalf (n : Nat) : Bool :=
  0xd800 ≤ n && n < 0xdc00

def isLowHalf (n : Nat) : Bool :=
  0xdc00 ≤ n && n < 0xe000

/-- Two halves are put together to one character. A half alone is no character. -/
def characters? : List Nat → Option (List Char)
  | [] => some []
  | [n] => if n.isValidChar then some [Char.ofNat n] else none
  | n :: m :: rest =>
    if isHighHalf n && isLowHalf m then
      (characters? rest).map (Char.ofNat (0x10000 + (n - 0xd800) * 0x400 + (m - 0xdc00)) :: ·)
    else if n.isValidChar then (characters? (m :: rest)).map (Char.ofNat n :: ·)
    else none

/-- The contents of a string, from what is written between its quotes. -/
def unescape? (raw : List Char) : Option String :=
  ((units? raw).bind characters?).map String.ofList

/-- A number that is no whole number of 64 bits, unless it is too large for a float. -/
def float? (negative : Bool) (digits : Nat) (exponent : Int) : Option Json :=
  let magnitude := Float.ofScientific digits (exponent < 0) exponent.natAbs
  if magnitude.isInf then none
  else some (.float (if negative then -magnitude else magnitude))

/-- A whole number. Zero with a minus sign is no integer. -/
def whole? (negative : Bool) (n : Nat) : Option Json :=
  if negative then
    if 0 < n ∧ n ≤ 2 ^ (63 : Nat) then some (.integer (Int64.ofInt (-n))) else float? true n 0
  else if n < 2 ^ (63 : Nat) then some (.integer (Int64.ofNat n))
  else if n < 2 ^ (64 : Nat) then some (.natural (UInt64.ofNat n))
  else float? false n 0

/-- Digits without a needless zero before them. -/
def isWholePart (digits : List Char) : Bool :=
  digits == ['0'] || (!digits.isEmpty && digits.head? != some '0')

/-- The places behind a point, if there is a point, and what follows. -/
def places? : List Char → Option (List Char × List Char)
  | '.' :: rest =>
    let (places, rest) := rest.span Char.isDigit
    if places.isEmpty then none else some (places, rest)
  | rest => some ([], rest)

def exponentDigits? (digits : List Char) : Option Int :=
  if !digits.isEmpty && digits.all Char.isDigit then some (Nat.ofDigitChars 10 digits 0) else none

def exponent? : List Char → Option Int
  | [] => some 0
  | e :: rest =>
    if e = 'e' ∨ e = 'E' then
      match rest with
      | '+' :: digits => exponentDigits? digits
      | '-' :: digits => (exponentDigits? digits).map (- ·)
      | digits => exponentDigits? digits
    else none

def magnitude? (negative : Bool) (letters : List Char) : Option Json :=
  let (digits, rest) := letters.span Char.isDigit
  if !isWholePart digits then none
  else if rest.isEmpty then whole? negative (Nat.ofDigitChars 10 digits 0)
  else do
    let (places, rest) ← places? rest
    let exponent ← exponent? rest
    float? negative (Nat.ofDigitChars 10 (digits ++ places) 0) (exponent - places.length)

def number? : List Char → Option Json
  | '-' :: letters => magnitude? true letters
  | letters => magnitude? false letters

def word? (letters : List Char) : Option Json :=
  if letters = ['n', 'u', 'l', 'l'] then some .null
  else if letters = ['t', 'r', 'u', 'e'] then some (.boolean true)
  else if letters = ['f', 'a', 'l', 's', 'e'] then some (.boolean false)
  else number? letters

/-- What is open around the place that is read. -/
inductive Frame where
  | array (values : List Json)
  | object (members : List (String × Json))
  /-- An object whose next member has this name. -/
  | member (members : List (String × Json)) (name : String)

inductive Place where
  /-- Before a value. Right behind a bracket there may be none. -/
  | value (optional : Bool)
  /-- Before the name of a member. Right behind a brace there may be none. -/
  | name (optional : Bool)
  | colon
  /-- In a number or a name. -/
  | word (letters : List Char)
  /-- In a string, which is the name of a member or a value. -/
  | string (naming : Bool) (raw : List Char)
  /-- In a string, right behind a backslash. -/
  | escape (naming : Bool) (raw : List Char)
  /-- Behind a value. -/
  | behind (value : Json)

structure Reading where
  frames : List Frame
  place : Place

/-- The step from behind a value. -/
def stepBehind (frames : List Frame) (value : Json) (c : Char) : Option Reading :=
  if isBlank c then some ⟨frames, .behind value⟩
  else match frames, c with
    | .array values :: frames, ',' => some ⟨.array (values ++ [value]) :: frames, .value false⟩
    | .array values :: frames, ']' => some ⟨frames, .behind (.array (values ++ [value]))⟩
    | .member members name :: frames, ',' =>
      some ⟨.object (members ++ [(name, value)]) :: frames, .name false⟩
    | .member members name :: frames, '\x7d' =>
      some ⟨frames, .behind (.object (members ++ [(name, value)]))⟩
    | _, _ => none

def stepValue (frames : List Frame) (optional : Bool) (c : Char) : Option Reading :=
  if isBlank c then some ⟨frames, .value optional⟩
  else if c = '[' then some ⟨.array [] :: frames, .value true⟩
  else if c = '\x7b' then some ⟨.object [] :: frames, .name true⟩
  else if c = '"' then some ⟨frames, .string false []⟩
  else match frames, c, optional with
    | .array [] :: frames, ']', true => some ⟨frames, .behind (.array [])⟩
    | _, _, _ => if isDelimiter c then none else some ⟨frames, .word [c]⟩

def stepName (frames : List Frame) (optional : Bool) (c : Char) : Option Reading :=
  if isBlank c then some ⟨frames, .name optional⟩
  else if c = '"' then some ⟨frames, .string true []⟩
  else match frames, c, optional with
    | .object [] :: frames, '\x7d', true => some ⟨frames, .behind (.object [])⟩
    | _, _, _ => none

def closeString (frames : List Frame) (naming : Bool) (text : String) : Option Reading :=
  match frames, naming with
  | .object members :: frames, true => some ⟨.member members text :: frames, .colon⟩
  | frames, false => some ⟨frames, .behind (.string text)⟩
  | _, true => none

def step (reading : Reading) (c : Char) : Option Reading :=
  let frames := reading.frames
  match reading.place with
  | .value optional => stepValue frames optional c
  | .name optional => stepName frames optional c
  | .colon =>
    if isBlank c then some reading
    else if c = ':' then some ⟨frames, .value false⟩
    else none
  | .word letters =>
    if isDelimiter c then (word? letters).bind (stepBehind frames · c)
    else some ⟨frames, .word (letters ++ [c])⟩
  | .string naming raw =>
    if c = '"' then (unescape? raw).bind (closeString frames naming)
    else if c = '\\' then some ⟨frames, .escape naming raw⟩
    else some ⟨frames, .string naming (raw ++ [c])⟩
  | .escape naming raw => some ⟨frames, .string naming (raw ++ ['\\', c])⟩
  | .behind value => stepBehind frames value c

/-- The value that has been read when nothing is open any more. -/
def Reading.finish? : Reading → Option Json
  | ⟨[], .behind value⟩ => some value
  | ⟨[], .word letters⟩ => word? letters
  | _ => none

def run (reading : Reading) (text : List Char) : Option Reading :=
  text.foldlM step reading

def parse? (text : String) : Option Json :=
  (run ⟨[], .value false⟩ text.toList).bind Reading.finish?

end Criteria.Json
