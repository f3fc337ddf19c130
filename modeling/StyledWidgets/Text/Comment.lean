/-
Module: StyledWidgets.Text.Comment
Purpose: The removal of comments from the text of a style sheet.
Main exports: stripComments
-/
import StyledWidgets.Text.Exposed

namespace StyledWidgets.Text

/-- Where the removal of comments stands. -/
inductive CommentScan where
  /-- In the text; the next `shielded` characters are copied without being looked at. -/
  | copying (shielded : Nat)
  /-- In a comment; the next `skipped` characters cannot end it. -/
  | dropping (skipped : Nat)
  /-- At the slash that ends a comment. -/
  | closing
  deriving Repr, DecidableEq, Inhabited

/-- Copy a text without its comments. `before` is the preceding character of the text as it was
written, so a quote right after a comment follows a slash. An unclosed comment reaches to the end
of the text, and the two characters that open a comment do not help to close it. -/
def stripFrom (before : Option Char) (scan : CommentScan) : List Char → List Char
  | [] => []
  | c :: rest =>
      match scan with
      | .copying (left + 1) => c :: stripFrom (some c) (.copying left) rest
      | .copying 0 =>
          if c = '\\' then c :: stripFrom (some c) (.copying 1) rest
          else if c = '/' ∧ rest.head? = some '*' then stripFrom (some c) (.dropping 1) rest
          else
            match if opensString before c then stringLength c rest else none with
            | some length => c :: stripFrom (some c) (.copying length) rest
            | none => c :: stripFrom (some c) (.copying 0) rest
      | .dropping (left + 1) => stripFrom (some c) (.dropping left) rest
      | .dropping 0 =>
          if c = '*' ∧ rest.head? = some '/' then stripFrom (some c) .closing rest
          else stripFrom (some c) (.dropping 0) rest
      | .closing => stripFrom (some c) (.copying 0) rest

/-- Remove the comments that stand outside quoted strings. Nothing is left in the place of a
comment, so the words around it join. -/
def stripComments (text : List Char) : List Char := stripFrom none (.copying 0) text

end StyledWidgets.Text
