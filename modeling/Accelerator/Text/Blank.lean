/-!
# Blanks around text

Names and numbers given by a user may be surrounded by blanks. A blank is any character with the
property `White_Space`, not only the ASCII ones.

## Main definitions

* `Text.isBlank`: the character has the property `White_Space`.
* `Text.trimmed`: a text without the blanks at its two ends.
* `Text.lowerAscii`: a text with its ASCII letters in lower case.
-/

namespace Accelerator

namespace Text

/-- A character with the property `White_Space`. -/
def isBlank (c : Char) : Bool :=
  let code := c.toNat
  (0x09 ≤ code && code ≤ 0x0d) || code == 0x20 || code == 0x85 || code == 0xa0 || code == 0x1680 ||
    (0x2000 ≤ code && code ≤ 0x200a) || code == 0x2028 || code == 0x2029 || code == 0x202f ||
    code == 0x205f || code == 0x3000

/-- Characters without the blanks at their two ends. -/
def trim (cs : List Char) : List Char :=
  ((cs.dropWhile isBlank).reverse.dropWhile isBlank).reverse

/-- A text without the blanks at its two ends. -/
def trimmed (s : String) : String :=
  .ofList (trim s.toList)

/-- A text with its ASCII letters in lower case; all other characters stay. -/
def lowerAscii (s : String) : String :=
  .ofList (s.toList.map Char.toLower)

/-- The pieces between the separators of a list of characters; one piece more than separators. -/
def split (separator : Char) : List Char → List (List Char)
  | [] => [[]]
  | c :: rest =>
    if c = separator then [] :: split separator rest
    else match split separator rest with
      | [] => [[c]]
      | piece :: pieces => (c :: piece) :: pieces

end Text

end Accelerator
