/-
Module: StyledWidgets.Sheet.PseudoClass
Purpose: The interaction states that a selector can require, and sets of them.
Main exports: PseudoClass, PseudoClass.ofName?, PseudoMask, PseudoMask.contains, PseudoMask.text
-/
import StyledWidgets.Text.Blank

namespace StyledWidgets.Sheet

open StyledWidgets.Text

/-- A state of a widget that a selector can require. -/
inductive PseudoClass where
  | active
  | checked
  | byDefault
  | disabled
  | editFocus
  | editable
  | enabled
  | first
  | focus
  | hasChildren
  | hover
  | indeterminate
  | last
  | middle
  | off
  | on
  | onlyOne
  | pressed
  | readOnly
  | selected
  | unchecked
  deriving Repr, DecidableEq, Inhabited

namespace PseudoClass

/-- All pseudo-classes in the order of their names. -/
def all : List PseudoClass :=
  [.active, .checked, .byDefault, .disabled, .editFocus, .editable, .enabled, .first,
    .focus, .hasChildren, .hover, .indeterminate, .last, .middle, .off, .on, .onlyOne,
    .pressed, .readOnly, .selected, .unchecked]

/-- The name of a pseudo-class, as written after a colon. -/
def name : PseudoClass → String
  | .active => "active"
  | .checked => "checked"
  | .byDefault => "default"
  | .disabled => "disabled"
  | .editFocus => "edit-focus"
  | .editable => "editable"
  | .enabled => "enabled"
  | .first => "first"
  | .focus => "focus"
  | .hasChildren => "has-children"
  | .hover => "hover"
  | .indeterminate => "indeterminate"
  | .last => "last"
  | .middle => "middle"
  | .off => "off"
  | .on => "on"
  | .onlyOne => "only-one"
  | .pressed => "pressed"
  | .readOnly => "read-only"
  | .selected => "selected"
  | .unchecked => "unchecked"

/-- The pseudo-class with a name; ASCII letters of either case are equal. -/
def ofName? (text : List Char) : Option PseudoClass :=
  let wanted := String.ofList (lower text)
  all.find? fun pseudo => pseudo.name == wanted

/-- The place of a pseudo-class in the order of names, which is its bit in a mask. -/
def index : PseudoClass → Nat
  | .active => 0
  | .checked => 1
  | .byDefault => 2
  | .disabled => 3
  | .editFocus => 4
  | .editable => 5
  | .enabled => 6
  | .first => 7
  | .focus => 8
  | .hasChildren => 9
  | .hover => 10
  | .indeterminate => 11
  | .last => 12
  | .middle => 13
  | .off => 14
  | .on => 15
  | .onlyOne => 16
  | .pressed => 17
  | .readOnly => 18
  | .selected => 19
  | .unchecked => 20

end PseudoClass

/-- A set of pseudo-classes as a word, one bit each. Bits beyond the known pseudo-classes are
kept and counted, but have no name. -/
structure PseudoMask where
  bits : BitVec 32
  deriving Repr, DecidableEq, Inhabited

namespace PseudoMask

/-- The empty set. -/
def empty : PseudoMask := ⟨0⟩

/-- The set with one element. -/
def single (pseudo : PseudoClass) : PseudoMask := ⟨BitVec.twoPow 32 pseudo.index⟩

/-- No bit is set. -/
def isEmpty (mask : PseudoMask) : Bool := mask.bits == 0

/-- The union of two sets. -/
def union (a b : PseudoMask) : PseudoMask := ⟨a.bits ||| b.bits⟩

/-- The intersection of two sets. -/
def inter (a b : PseudoMask) : PseudoMask := ⟨a.bits &&& b.bits⟩

/-- Every bit of `required` is set in `mask`. -/
def contains (mask required : PseudoMask) : Bool := mask.bits &&& required.bits == required.bits

/-- The set has the pseudo-class. -/
def has (mask : PseudoMask) (pseudo : PseudoClass) : Bool := mask.contains (single pseudo)

/-- The set with one more element. -/
def insert (mask : PseudoMask) (pseudo : PseudoClass) : PseudoMask := mask.union (single pseudo)

/-- The set without one element. -/
def erase (mask : PseudoMask) (pseudo : PseudoClass) : PseudoMask :=
  ⟨mask.bits &&& ~~~(single pseudo).bits⟩

/-- The set of the elements of a list. -/
def ofList (pseudos : List PseudoClass) : PseudoMask := pseudos.foldl insert empty

/-- The number of bits set. -/
def count (mask : PseudoMask) : Nat := (List.range 32).countP fun i => mask.bits.getLsbD i

/-- The elements in the order of names. -/
def toList (mask : PseudoMask) : List PseudoClass := PseudoClass.all.filter mask.has

/-- The elements as they are written behind a selector, each after a colon. -/
def text (mask : PseudoMask) : String :=
  String.join (mask.toList.map fun pseudo => ":" ++ pseudo.name)

end PseudoMask

end StyledWidgets.Sheet
