import Accelerator.Json.Token

/-!
# Reading and writing JSON

A text is read in two passes: its tokens first, then the tree they stand for. The second pass
keeps the containers that are open around it on a stack, so that a text may be nested to any
depth.

## Main definitions

* `Json.tokens`: the tokens of a tree, and `Json.render`: its text, without blanks.
* `Json.Parse`: an unfinished tree, with `Json.Parse.step` for one more token.
* `Json.ofText?`: the tree of a text.
-/

namespace Accelerator

namespace Json

/-! ### Writing -/

mutual

/-- The tokens of a tree. -/
def tokens : Json → List Token
  | null => [.null]
  | bool b => [.bool b]
  | number n => [.number n]
  | string s => [.string s]
  | array items => .openArray :: itemTokens items
  | object members => .openObject :: memberTokens members

/-- The tokens of the items of an array and of its end. -/
def itemTokens : List Json → List Token
  | [] => [.closeArray]
  | [item] => tokens item ++ [.closeArray]
  | item :: next :: rest => tokens item ++ .comma :: itemTokens (next :: rest)

/-- The tokens of the members of an object and of its end. -/
def memberTokens : List (Literal × Json) → List Token
  | [] => [.closeObject]
  | [(name, value)] => .string name :: .colon :: (tokens value ++ [.closeObject])
  | (name, value) :: next :: rest =>
    .string name :: .colon :: (tokens value ++ .comma :: memberTokens (next :: rest))

end

/-- The text of a tree, without blanks. -/
def render (j : Json) : String :=
  .ofList (j.tokens.flatMap Token.chars)

/-! ### Reading -/

/-- A container that is open: what it holds so far, last first. An object has the name of the
member whose value is being read. -/
inductive Frame where
  | array (items : List Json)
  | object (members : List (Literal × Json)) (name : Literal)
  deriving Repr, Inhabited

/-- What may come next. -/
inductive Expect where
  /-- A value. -/
  | value
  /-- A value or the end of an array that has just begun. -/
  | firstItem
  /-- A comma or the end of the innermost container. -/
  | separator
  /-- The name of a member, or the end of an object that has just begun. -/
  | firstName
  /-- The name of a member. -/
  | name
  /-- The colon between a member's name and its value. -/
  | colon
  /-- Nothing: the tree is complete. -/
  | nothing (tree : Json)
  deriving Repr, Inhabited

/-- An unfinished tree: the open containers, innermost first, and what may come next. -/
structure Parse where
  stack : List Frame
  expect : Expect
  deriving Repr, Inhabited

namespace Parse

/-- Nothing has been read. -/
def start : Parse := ⟨[], .value⟩

/-- A value is complete: it belongs to the innermost container, or it is the whole tree. -/
def complete (value : Json) : List Frame → Parse
  | [] => ⟨[], .nothing value⟩
  | .array items :: stack => ⟨.array (value :: items) :: stack, .separator⟩
  | .object members name :: stack => ⟨.object ((name, value) :: members) none :: stack, .separator⟩

/-- A token that begins a value. -/
def begin (stack : List Frame) : Token → Option Parse
  | .openArray => some ⟨.array [] :: stack, .firstItem⟩
  | .openObject => some ⟨.object [] none :: stack, .firstName⟩
  | .null => some (complete .null stack)
  | .bool b => some (complete (.bool b) stack)
  | .number n => some (complete (.number n) stack)
  | .string s => some (complete (.string s) stack)
  | .closeArray | .closeObject | .comma | .colon => none

/-- One more token. -/
def step (p : Parse) (token : Token) : Option Parse :=
  match p.expect, p.stack, token with
  | .firstItem, .array items :: stack, .closeArray => some (complete (.array items.reverse) stack)
  | .value, stack, token | .firstItem, stack, token => begin stack token
  | .separator, .array items :: stack, .closeArray => some (complete (.array items.reverse) stack)
  | .separator, .array items :: stack, .comma => some ⟨.array items :: stack, .value⟩
  | .separator, .object members _ :: stack, .closeObject =>
    some (complete (.object members.reverse) stack)
  | .separator, .object members name :: stack, .comma =>
    some ⟨.object members name :: stack, .name⟩
  | .firstName, .object members _ :: stack, .closeObject =>
    some (complete (.object members.reverse) stack)
  | .firstName, .object members _ :: stack, .string name
  | .name, .object members _ :: stack, .string name =>
    some ⟨.object members name :: stack, .colon⟩
  | .colon, stack, .colon => some ⟨stack, .value⟩
  | _, _, _ => none

end Parse

/-- The tree that tokens stand for. -/
def ofTokens? (ts : List Token) : Option Json := do
  let p ← ts.foldlM Parse.step Parse.start
  match p.expect with
  | .nothing tree => some tree
  | _ => none

/-- The tree of a text. -/
def ofText? (s : String) : Option Json :=
  (Token.ofText? s.toList).bind ofTokens?

end Json

end Accelerator
