/-
Module: StyledWidgets.Sheet.SelectorReader
Purpose: The reading of selectors.
Main exports: SelectorToken, selectorTokens, SelectorDraft, readSelector?
-/
import StyledWidgets.Sheet.Selector

namespace StyledWidgets.Sheet

open StyledWidgets.Text

/-! ### Tokens -/

/-- What a name in a selector requires. -/
inductive NameRole where
  | element
  | id
  | pseudo
  deriving Repr, DecidableEq, Inhabited

/-- A piece of the text of a selector. -/
inductive SelectorToken where
  /-- One character of white space. -/
  | space
  /-- The sign for the parent relation. -/
  | child
  /-- The star. -/
  | star
  /-- A name, possibly empty, with its role. -/
  | name (role : NameRole) (text : List Char)
  /-- A character that no selector contains. -/
  | foreign
  deriving Repr, DecidableEq, Inhabited

/-- Where the reading of tokens stands. -/
inductive SelectorScan where
  | between
  | inName (role : NameRole) (sofar : List Char)
  /-- After a backslash inside a name. -/
  | escaped (role : NameRole) (sofar : List Char)
  deriving Repr, DecidableEq, Inhabited

/-- The character belongs to names: an ASCII letter or digit, a hyphen, an underscore, or any
character beyond ASCII. -/
def isNameChar (c : Char) : Bool := c.isAlphanum || c == '-' || c == '_' || 0x80 ≤ c.toNat

/-- The tokens that a character gives between names, and where it leads. -/
def startToken (c : Char) : List SelectorToken × SelectorScan :=
  if isSpace c then ([.space], .between)
  else if c = '>' then ([.child], .between)
  else if c = '*' then ([.star], .between)
  else if c = '#' then ([], .inName .id [])
  else if c = ':' then ([], .inName .pseudo [])
  else if c = '.' then ([], .inName .element [])
  else if isNameChar c then ([], .inName .element [c])
  else if c = '\\' then ([], .escaped .element [])
  else ([.foreign], .between)

/-- Read tokens one character at a time. A backslash puts any following character into a name;
at the end of the text it belongs to nothing. -/
def scanSelector : SelectorScan → List Char → List SelectorToken
  | .between, [] => []
  | .inName role sofar, [] => [.name role sofar]
  | .escaped role sofar, [] => [.name role sofar, .foreign]
  | .between, c :: rest =>
      let (tokens, scan) := startToken c
      tokens ++ scanSelector scan rest
  | .inName role sofar, c :: rest =>
      if c = '\\' then scanSelector (.escaped role sofar) rest
      else if isNameChar c then scanSelector (.inName role (sofar ++ [c])) rest
      else
        let (tokens, scan) := startToken c
        .name role sofar :: (tokens ++ scanSelector scan rest)
  | .escaped role sofar, c :: rest => scanSelector (.inName role (sofar ++ [c])) rest

/-- The tokens of a text. -/
def selectorTokens (text : List Char) : List SelectorToken := scanSelector .between text

/-! ### Selectors -/

/-- A selector while it is read: the components that are finished, the compound that has been
started, and the relation that the next component will have. -/
structure SelectorDraft where
  finished : List (Relation × Compound) := []
  current : Option Compound := none
  pending : Relation := .unstated
  deriving Repr, DecidableEq, Inhabited

namespace SelectorDraft

/-- Move the compound that has been started to the finished components. -/
def finish (draft : SelectorDraft) : SelectorDraft :=
  match draft.current with
  | none => draft
  | some compound => ⟨draft.finished ++ [(draft.pending, compound)], none, .unstated⟩

/-- The compound to which the next requirement is added. -/
def compound (draft : SelectorDraft) : Compound := draft.current.getD Compound.anything

/-- Require a type name. Two different ones can never both be met, so the second is refused. -/
def addElement? (draft : SelectorDraft) (name : List Char) : Option SelectorDraft :=
  let name := String.ofList name
  match draft.compound.element with
  | none => some { draft with current := some { draft.compound with element := some name } }
  | some known => if known = name then some draft else none

/-- Add what one token says. White space asks for an ancestor after a compound and says nothing
elsewhere; a sign for the parent relation replaces a relation that is still pending. -/
def add? (draft : SelectorDraft) : SelectorToken → Option SelectorDraft
  | .space =>
      some (if draft.current.isSome then { draft.finish with pending := .ancestor } else draft)
  | .child => some { draft.finish with pending := .parent }
  | .star => some { draft with current := some draft.compound }
  | .name .element text => if text = [] then none else draft.addElement? text
  | .name .id text =>
      if text = [] then none
      else some { draft with current := some { draft.compound with id := String.ofList text } }
  | .name .pseudo text =>
      (PseudoClass.ofName? text).map fun pseudo =>
        let compound := draft.compound
        { draft with current := some { compound with pseudo := compound.pseudo.insert pseudo } }
  | .foreign => none

end SelectorDraft

/-- Read one selector. The text of nothing is the universal selector; a text with a pseudo-class
that is not known or a character outside the notation is refused as a whole. -/
def readSelector? (text : List Char) : Option Selector :=
  ((selectorTokens text).foldlM SelectorDraft.add? {}).map fun draft =>
    Selector.ofComponents draft.finish.finished

end StyledWidgets.Sheet
