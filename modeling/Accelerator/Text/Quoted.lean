import Accelerator.Text.Printable
import Accelerator.Word

/-!
# Quoted text and records in messages

How values are shown to a person: a text stands between double quotes with everything unprintable
spelled out, and an object is shown as its name and its fields in braces.

## Main definitions

* `Text.quoted`: a text between double quotes.
* `Text.record`: the name of an object with its fields.
* `Text.listed`: values between square brackets.
-/

namespace Accelerator

namespace Text

/-- A character as it stands between double quotes. -/
def escape (c : Char) : String :=
  match c with
  | '\x00' => "\\0"
  | '\t' => "\\t"
  | '\r' => "\\r"
  | '\n' => "\\n"
  | '\\' => "\\\\"
  | '"' => "\\\""
  | c =>
    if isExtender c || !isPrintable c then "\\u\x7b" ++ Word.hexDigits c.toNat ++ "\x7d"
    else c.toString

/-- A text between double quotes. -/
def quoted (s : String) : String :=
  "\"" ++ String.join (s.toList.map escape) ++ "\""

/-- An object's name with its fields in braces; `rest` tells that it has fields not shown. -/
def record (name : String) (fields : List (String × String)) (rest : Bool) : String :=
  let shown := fields.map fun field => field.1 ++ ": " ++ field.2
  name ++ " \x7b " ++ ", ".intercalate (shown ++ if rest then [".."] else []) ++ " \x7d"

/-- Values between square brackets. -/
def listed (values : List String) : String :=
  "[" ++ ", ".intercalate values ++ "]"

end Text

end Accelerator
