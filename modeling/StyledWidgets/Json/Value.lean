/-
Module: StyledWidgets.Json.Value
Purpose: JSON documents, what can be looked up in them, and their layout over several lines or on
  one.
Main exports: JsonValue, JsonValue.member, JsonValue.pretty, JsonValue.compact
-/

namespace StyledWidgets

/-- A string of a document. It is `none` if an escape names half of a surrogate pair: such a string
is well formed and may be skipped, but it denotes no text. -/
abbrev JsonString := Option String

/-- A JSON document. Objects keep the order of their members and may repeat a key. A number is
`none` unless it is written as a whole number. -/
inductive JsonValue where
  | null
  | bool (value : Bool)
  | number (value : Option Int)
  | string (value : JsonString)
  | array (items : List JsonValue)
  | object (members : List (JsonString × JsonValue))
  deriving Repr, Inhabited

namespace JsonValue

/-- A whole number. -/
def int (value : Int) : JsonValue := .number (some value)

/-- A text. -/
def text (value : String) : JsonValue := .string (some value)

/-- A whole number that is not negative. -/
def nat (value : Nat) : JsonValue := int value

/-- The document of a value, or null where there is none. -/
def orNull {α : Type} (encode : α → JsonValue) : Option α → JsonValue
  | some value => encode value
  | none => .null

/-- The documents of the items of a list. -/
def list {α : Type} (encode : α → JsonValue) (items : List α) : JsonValue :=
  .array (items.map encode)

/-- An object with distinct keys. -/
def record (members : List (String × JsonValue)) : JsonValue :=
  .object (members.map fun member => (some member.1, member.2))

/-- An object with more members behind its own. -/
def extended (members : List (String × JsonValue)) : JsonValue → JsonValue
  | .object own => .object (own ++ members.map fun member => (some member.1, member.2))
  | value => value

/-! ### Looking into documents -/

/-- The value of the first member with a key, or null where there is none. -/
def member (key : String) : JsonValue → JsonValue
  | .object members => (members.lookup (some key)).getD .null
  | _ => .null

/-- The items of an array; no other document has any. -/
def items : JsonValue → List JsonValue
  | .array items => items
  | _ => []

/-- A whole number. -/
def int? : JsonValue → Option Int
  | .number value => value
  | _ => none

/-- A truth value. -/
def bool? : JsonValue → Option Bool
  | .bool value => some value
  | _ => none

/-- A text. -/
def text? : JsonValue → Option String
  | .string value => value
  | _ => none

/-! ### Layout -/

/-- A character inside quotes. Quotes, backslashes and control characters are escaped, the common
ones by a letter and the others by four digits; everything else stands for itself. -/
def escapeChar (c : Char) : List Char :=
  if c = '"' then ['\\', '"']
  else if c = '\\' then ['\\', '\\']
  else if c = '\x08' then ['\\', 'b']
  else if c = '\t' then ['\\', 't']
  else if c = '\n' then ['\\', 'n']
  else if c = '\x0c' then ['\\', 'f']
  else if c = '\r' then ['\\', 'r']
  else if c.toNat < 0x20 then
    ['\\', 'u', '0', '0', Nat.digitChar (c.toNat / 16), Nat.digitChar (c.toNat % 16)]
  else [c]

/-- A text in quotes. -/
def quote (text : List Char) : List Char := '"' :: (text.flatMap escapeChar ++ ['"'])

/-- The white space in the text of a document: what stands before an item or a closing bracket at a
level of nesting, and what follows a key. -/
structure Spacing where
  line : Nat → List Char
  colon : List Char

/-- One item or member on each line, indented by two spaces a level. -/
def Spacing.indented : Spacing := ⟨fun level => '\n' :: List.replicate (2 * level) ' ', [':', ' ']⟩

/-- No white space at all. -/
def Spacing.dense : Spacing := ⟨fun _ => [], [':']⟩

mutual

/-- The layout of a document whose first line is indented already. -/
def layout (spacing : Spacing) (level : Nat) : JsonValue → List Char
  | .null => "null".toList
  | .bool true => "true".toList
  | .bool false => "false".toList
  | .number value => (Int.repr (value.getD 0)).toList
  | .string value => quote (value.getD "").toList
  | .array [] => ['[', ']']
  | .array (first :: rest) =>
      '[' :: (spacing.line (level + 1) ++ layout spacing (level + 1) first ++
        layoutItems spacing (level + 1) rest ++ spacing.line level ++ [']'])
  | .object [] => ['\x7b', '\x7d']
  | .object ((key, value) :: rest) =>
      '\x7b' :: (spacing.line (level + 1) ++ quote (key.getD "").toList ++ spacing.colon ++
        layout spacing (level + 1) value ++ layoutMembers spacing (level + 1) rest ++
        spacing.line level ++ ['\x7d'])

/-- The layout of the items after the first one. -/
def layoutItems (spacing : Spacing) (level : Nat) : List JsonValue → List Char
  | [] => []
  | item :: rest =>
      ',' :: (spacing.line level ++ layout spacing level item ++ layoutItems spacing level rest)

/-- The layout of the members after the first one. -/
def layoutMembers (spacing : Spacing) (level : Nat) : List (JsonString × JsonValue) → List Char
  | [] => []
  | (key, value) :: rest =>
      ',' :: (spacing.line level ++ quote (key.getD "").toList ++ spacing.colon ++
        layout spacing level value ++ layoutMembers spacing level rest)

end

/-- The document with one member or item on each line, indented by two spaces a level. -/
def pretty (value : JsonValue) : String := String.ofList (layout .indented 0 value)

/-- The document on one line. -/
def compact (value : JsonValue) : String := String.ofList (layout .dense 0 value)

end JsonValue

end StyledWidgets
