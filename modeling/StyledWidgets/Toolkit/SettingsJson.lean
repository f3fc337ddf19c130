/-
Module: StyledWidgets.Toolkit.SettingsJson
Purpose: Settings as JSON documents. What a document leaves out has its default; what it says in
  addition is ignored.
Main exports: Settings.ofJsonText, Settings.ofFile, Settings.toJsonText
-/
import StyledWidgets.Json.Reader
import StyledWidgets.Toolkit.Error
import StyledWidgets.Toolkit.File
import StyledWidgets.Toolkit.Settings

namespace StyledWidgets

/-! ### Reading single values -/

/-- A whole number from `low` to `high`. -/
def JsonValue.intWithin? (low high : Int) (value : JsonValue) : Option Int :=
  value.int?.filter fun number => decide (low ≤ number ∧ number ≤ high)

/-- A whole number that is not negative and has at most the given number of bits. -/
def JsonValue.natOfBits? (bits : Nat) (value : JsonValue) : Option Nat :=
  (value.intWithin? 0 (Int.ofNat (Nat.pow 2 bits) - 1)).map Int.toNat

/-- A text, or null for none. -/
def JsonValue.textOrNull? : JsonValue → Option (Option String)
  | .null => some none
  | .string value => value.map some
  | _ => none

/-! ### Reading records -/

/-- The value of a key that must not be repeated. -/
def memberOf? (members : List (String × JsonValue)) (name : String) :
    Option (Option JsonValue) :=
  match members.filter fun member => member.1 == name with
  | [] => some none
  | [member] => some (some member.2)
  | _ => none

/-- The values of the named fields of a record. A record is an object, or an array with the values
of its fields in order, of which the last ones may be left out. -/
def fieldsOf? (names : List String) : JsonValue → Option (List (Option JsonValue))
  | .object members => do
      let members ← members.mapM fun member => member.1.map fun key => (key, member.2)
      names.mapM (memberOf? members)
  | .array items =>
      if items.length ≤ names.length then
        some (items.map some ++ List.replicate (names.length - items.length) none)
      else none
  | _ => none

/-- The value of a field, or its default where the field is left out. -/
def fieldOr {α : Type} (standard : α) (read : JsonValue → Option α) :
    Option JsonValue → Option α
  | none => some standard
  | some value => read value

namespace StyleSettings

/-- The names of the fields in a document. -/
def fieldNames : List String :=
  ["alias_pseudo_states", "default_font_family", "default_font_size"]

/-- Read the settings of style resolution. -/
def ofJson? (value : JsonValue) : Option StyleSettings := do
  match ← fieldsOf? fieldNames value with
  | [aliases, family, size] =>
      let standard : StyleSettings := {}
      return {
        aliasPseudoStates := ← fieldOr standard.aliasPseudoStates JsonValue.bool? aliases
        defaultFontFamily := ← fieldOr standard.defaultFontFamily JsonValue.text? family
        defaultFontSize := ← fieldOr standard.defaultFontSize
          (JsonValue.intWithin? (-2147483648) 2147483647) size }
  | _ => none

/-- The document of the settings. -/
def toJson (settings : StyleSettings) : JsonValue :=
  .record
    [ ("alias_pseudo_states", .bool settings.aliasPseudoStates),
      ("default_font_family", .text settings.defaultFontFamily),
      ("default_font_size", .int settings.defaultFontSize) ]

end StyleSettings

namespace RepaintSettings

/-- The names of the fields in a document. -/
def fieldNames : List String := ["max_region_rects", "honor_non_overlap"]

/-- Read the settings of repainting. -/
def ofJson? (value : JsonValue) : Option RepaintSettings := do
  match ← fieldsOf? fieldNames value with
  | [maxRects, honor] =>
      let standard : RepaintSettings := {}
      return {
        maxRegionRects := ← fieldOr standard.maxRegionRects (JsonValue.natOfBits? 64) maxRects
        honorNonOverlap := ← fieldOr standard.honorNonOverlap JsonValue.bool? honor }
  | _ => none

/-- The document of the settings. -/
def toJson (settings : RepaintSettings) : JsonValue :=
  .record
    [ ("max_region_rects", .int settings.maxRegionRects),
      ("honor_non_overlap", .bool settings.honorNonOverlap) ]

end RepaintSettings

namespace RetrySettings

/-- The names of the fields in a document. -/
def fieldNames : List String := ["max_attempts"]

/-- Read the settings of retrying. -/
def ofJson? (value : JsonValue) : Option RetrySettings := do
  match ← fieldsOf? fieldNames value with
  | [attempts] =>
      let standard : RetrySettings := {}
      return {
        maxAttempts := ← fieldOr standard.maxAttempts (JsonValue.natOfBits? 32) attempts }
  | _ => none

/-- The document of the settings. -/
def toJson (settings : RetrySettings) : JsonValue :=
  .record [("max_attempts", .int settings.maxAttempts)]

end RetrySettings

namespace Settings

/-- The names of the fields in a document. -/
def fieldNames : List String := ["style", "compositor", "retry", "log_filter"]

/-- Read all settings. -/
def ofJson? (value : JsonValue) : Option Settings := do
  match ← fieldsOf? fieldNames value with
  | [style, repaint, retry, filter] =>
      let standard : Settings := {}
      return {
        style := ← fieldOr standard.style StyleSettings.ofJson? style
        repaint := ← fieldOr standard.repaint RepaintSettings.ofJson? repaint
        retry := ← fieldOr standard.retry RetrySettings.ofJson? retry
        logFilter := ← fieldOr standard.logFilter JsonValue.textOrNull? filter }
  | _ => none

/-- The document of all settings. -/
def toJson (settings : Settings) : JsonValue :=
  .record
    [ ("style", settings.style.toJson),
      ("compositor", settings.repaint.toJson),
      ("retry", settings.retry.toJson),
      ("log_filter", .orNull .text settings.logFilter) ]

/-- Read all settings from the text of a document. -/
def ofJsonText (text : String) : Except ToolkitError Settings :=
  match (readJson? text.toList).bind ofJson? with
  | some settings => .ok settings
  | none => .error (.config "invalid configuration" (some "unexpected document"))

/-- Read all settings from a file with the given bytes, or from one that is missing. -/
def ofFile (bytes : Option ByteArray) : Except ToolkitError Settings :=
  match bytes with
  | none => .error (.file FileError.missing.message)
  | some bytes =>
      match decodeText bytes with
      | .ok text => ofJsonText text
      | .error failure => .error (.file failure.message)

/-- The text of the document of all settings. -/
def toJsonText (settings : Settings) : String := settings.toJson.pretty

end Settings

end StyledWidgets
