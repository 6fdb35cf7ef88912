import Accelerator.Json.Value

/-!
# JSON tokens

The words and signs that a JSON text is made of. Scanning goes over the text once, one character
at a time, and keeps what it is in the middle of: a word, a number, a string, or nothing.

## Main definitions

* `Json.Token`: a word or sign.
* `Json.Scan`: what has been scanned, with `Json.Scan.step` for one more character.
* `Json.Token.ofText?`: the tokens of a text.
* `Json.Token.text`: the characters of a token.
-/

namespace Accelerator

namespace Json

/-- A word or sign of a JSON text. -/
inductive Token where
  | openArray
  | closeArray
  | openObject
  | closeObject
  | comma
  | colon
  | null
  | bool (value : Bool)
  | number (value : Number)
  | string (value : Literal)
  deriving DecidableEq, Repr, Inhabited

/-! ### Numbers -/

/-- Splits off the digits at the front. -/
def spanDigits (cs : List Char) : List Char × List Char :=
  cs.span Char.isDigit

/-- The exponent behind the letter that marks it: an optional sign and at least one digit. -/
def exponentOfChars? (cs : List Char) : Option (Bool × List Char) :=
  let (negative, digits) := match cs with
    | '-' :: rest => (true, rest)
    | '+' :: rest => (false, rest)
    | rest => (false, rest)
  if !digits.isEmpty && digits.all Char.isDigit then some (negative, digits) else none

/-- The number literal that characters spell. The whole part has no needless zero in front, and a
point is followed by a digit. -/
def Number.ofChars? (cs : List Char) : Option Number := do
  let (negative, cs) := match cs with
    | '-' :: rest => (true, rest)
    | rest => (false, rest)
  let (whole, rest) := spanDigits cs
  guard (!whole.isEmpty && (whole.length == 1 || whole.head? != some '0'))
  let (fraction, rest) ← match rest with
    | '.' :: more =>
      let (fraction, rest) := spanDigits more
      if fraction.isEmpty then none else some (fraction, rest)
    | rest => some ([], rest)
  match rest with
  | [] => some ⟨negative, whole, fraction, none⟩
  | c :: digits =>
    guard (c = 'e' || c = 'E')
    let exponent ← exponentOfChars? digits
    some ⟨negative, whole, fraction, some exponent⟩

/-! ### Strings -/

/-- A part of a string literal: a character, or a 16-bit unit given by its number. -/
inductive Piece where
  | char (c : Char)
  | unit (code : Nat)
  deriving DecidableEq, Repr, Inhabited

/-- A unit that begins a surrogate pair. -/
def isHighSurrogate (code : Nat) : Bool :=
  0xd800 ≤ code && code < 0xdc00

/-- A unit that ends a surrogate pair. -/
def isLowSurrogate (code : Nat) : Bool :=
  0xdc00 ≤ code && code < 0xe000

/-- The characters that pieces spell, two units that make a surrogate pair taken together. -/
def charsOfPieces? : List Piece → Option (List Char)
  | [] => some []
  | .char c :: rest => (charsOfPieces? rest).map (c :: ·)
  | .unit high :: .unit low :: rest =>
    if isHighSurrogate high then
      if isLowSurrogate low then
        (charsOfPieces? rest).map
          (.ofNat (0x10000 + (high - 0xd800) * 0x400 + (low - 0xdc00)) :: ·)
      else none
    else if isLowSurrogate high then none
    else (charsOfPieces? (.unit low :: rest)).map (.ofNat high :: ·)
  | .unit code :: rest =>
    if isHighSurrogate code || isLowSurrogate code then none
    else (charsOfPieces? rest).map (.ofNat code :: ·)

/-- The character that a letter stands for behind a backslash. -/
def unescape? : Char → Option Char
  | '"' => some '"'
  | '\\' => some '\\'
  | '/' => some '/'
  | 'b' => some '\x08'
  | 'f' => some '\x0c'
  | 'n' => some '\n'
  | 'r' => some '\x0d'
  | 't' => some '\t'
  | _ => none

/-! ### Scanning -/

/-- What scanning is in the middle of; pieces and characters stand last first. -/
inductive Mode where
  | between
  | word (letters : List Char)
  | number (chars : List Char)
  | string (pieces : List Piece)
  | escape (pieces : List Piece)
  | unit (pieces : List Piece) (digits value : Nat)
  deriving DecidableEq, Repr, Inhabited

/-- What has been scanned: the tokens, last first, and what scanning is in the middle of. -/
structure Scan where
  tokens : List Token
  mode : Mode
  deriving DecidableEq, Repr, Inhabited

namespace Scan

/-- Nothing has been scanned. -/
def start : Scan := ⟨[], .between⟩

/-- The scan with one more token, and in the middle of nothing. -/
def push (s : Scan) (token : Token) : Scan :=
  ⟨token :: s.tokens, .between⟩

/-- A blank between tokens. -/
def isBlank (c : Char) : Bool :=
  c = ' ' || c = '\n' || c = '\t' || c = '\x0d'

/-- A character that can stand in a number. -/
def isNumeric (c : Char) : Bool :=
  c.isDigit || c = '-' || c = '+' || c = '.' || c = 'e' || c = 'E'

/-- The token that a word stands for. -/
def ofWord? (letters : List Char) : Option Token :=
  if letters = ['n', 'u', 'l', 'l'] then some .null
  else if letters = ['t', 'r', 'u', 'e'] then some (.bool true)
  else if letters = ['f', 'a', 'l', 's', 'e'] then some (.bool false)
  else none

/-- The character begins a token or stands between two. -/
def begin (s : Scan) (c : Char) : Option Scan :=
  if isBlank c then some { s with mode := .between }
  else match c with
    | '[' => some (s.push .openArray)
    | ']' => some (s.push .closeArray)
    | '\x7b' => some (s.push .openObject)
    | '\x7d' => some (s.push .closeObject)
    | ',' => some (s.push .comma)
    | ':' => some (s.push .colon)
    | '"' => some { s with mode := .string [] }
    | c =>
      if c.isDigit || c = '-' then some { s with mode := .number [c] }
      else if c.isAlpha then some { s with mode := .word [c] }
      else none

/-- The word or number that scanning is in the middle of is complete. -/
def settle (s : Scan) : Option Scan :=
  match s.mode with
  | .between => some s
  | .word letters => (ofWord? letters.reverse).map s.push
  | .number chars => (Number.ofChars? chars.reverse).map fun n => s.push (.number n)
  | .string _ | .escape _ | .unit .. => none

/-- One more character. -/
def step (s : Scan) (c : Char) : Option Scan :=
  match s.mode with
  | .between => s.begin c
  | .word letters =>
    if c.isAlpha then some { s with mode := .word (c :: letters) }
    else s.settle.bind (·.begin c)
  | .number chars =>
    if isNumeric c then some { s with mode := .number (c :: chars) }
    else s.settle.bind (·.begin c)
  | .string pieces =>
    if c = '"' then some (s.push (.string ((charsOfPieces? pieces.reverse).map String.ofList)))
    else if c = '\\' then some { s with mode := .escape pieces }
    else if c.toNat < 0x20 then none
    else some { s with mode := .string (.char c :: pieces) }
  | .escape pieces =>
    if c = 'u' then some { s with mode := .unit pieces 0 0 }
    else (unescape? c).map fun d => { s with mode := .string (.char d :: pieces) }
  | .unit pieces digits value =>
    (Numeral.digit? 16 c).map fun d =>
      if digits = 3 then { s with mode := .string (.unit (value * 16 + d) :: pieces) }
      else { s with mode := .unit pieces (digits + 1) (value * 16 + d) }

end Scan

/-- The tokens of a text. -/
def Token.ofText? (cs : List Char) : Option (List Token) := do
  let scan ← cs.foldlM Scan.step Scan.start
  let scan ← scan.settle
  some scan.tokens.reverse

/-! ### Writing -/

/-- The exponent, digits and sign of a number as characters. -/
def Number.chars (n : Number) : List Char :=
  (if n.negative then ['-'] else []) ++ n.whole ++
    (if n.fraction.isEmpty then [] else '.' :: n.fraction) ++
    n.exponent.elim [] fun (negative, digits) =>
      'e' :: (if negative then '-' :: digits else digits)

/-- A hexadecimal digit in lower case. -/
def hexDigit (n : Nat) : Char :=
  Nat.digitChar (n % 16)

/-- A character as it stands in a string literal: only quotes, backslashes and control characters
are escaped, these by a letter where there is one. -/
def escapeChar (c : Char) : List Char :=
  match c with
  | '"' => ['\\', '"']
  | '\\' => ['\\', '\\']
  | '\x08' => ['\\', 'b']
  | '\x0c' => ['\\', 'f']
  | '\n' => ['\\', 'n']
  | '\x0d' => ['\\', 'r']
  | '\t' => ['\\', 't']
  | c =>
    if c.toNat < 0x20 then
      ['\\', 'u', '0', '0', hexDigit (c.toNat / 16), hexDigit c.toNat]
    else [c]

/-- The characters of a token; a string that spells no text is written as half of a surrogate
pair, which spells none. -/
def Token.chars : Token → List Char
  | openArray => ['[']
  | closeArray => [']']
  | openObject => ['\x7b']
  | closeObject => ['\x7d']
  | comma => [',']
  | colon => [':']
  | null => ['n', 'u', 'l', 'l']
  | bool true => ['t', 'r', 'u', 'e']
  | bool false => ['f', 'a', 'l', 's', 'e']
  | number n => n.chars
  | string (some s) => '"' :: (s.toList.flatMap escapeChar ++ ['"'])
  | string none => ['"', '\\', 'u', 'd', '8', '0', '0', '"']

end Json

end Accelerator
