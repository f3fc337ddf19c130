/-
Module: StyledWidgets.Style.Cascade
Purpose: The order of matched rules, their identity as a set, and the choice of the rules that
  apply in a pseudo state.
Main exports: CascadeWeight, RuleRef, MatchedRule, RuleSetKey, applicable
-/
import StyledWidgets.Style.StyleSheet

namespace StyledWidgets.Style

open StyledWidgets.Sheet

/-- The strength of a matched selector. The level of its sheet decides first, then what the
selector requires, then the place of the rule in its sheet; the greater weight wins. -/
structure CascadeWeight where
  /-- Zero for the outermost sheet, growing toward the sheet of the node itself. -/
  level : Nat
  specificity : Nat
  order : Nat
  deriving Repr, DecidableEq, Inhabited

/-- The fields of a weight in the order in which they decide. -/
def CascadeWeight.rank (weight : CascadeWeight) : List Nat :=
  [weight.level, weight.specificity, weight.order]

/-- One weight is at most the other. -/
def CascadeWeight.le (a b : CascadeWeight) : Bool := !decide (b.rank < a.rank)

/-- One selector of one rule of one sheet. -/
structure RuleRef where
  sheet : SheetId
  rule : Nat
  selector : Nat
  deriving Repr, DecidableEq, Inhabited

/-- The fields of a reference in the order in which they decide. -/
def RuleRef.rank (ref : RuleRef) : List Nat := [ref.sheet.raw, ref.rule, ref.selector]

/-- Two references name the same rule, perhaps through different selectors. -/
def RuleRef.sameRule (a b : RuleRef) : Bool := a.sheet == b.sheet && a.rule == b.rule

/-- A rule that matched a node through one of its selectors. -/
structure MatchedRule where
  rule : StyleRule
  selector : Selector
  ref : RuleRef
  weight : CascadeWeight
  deriving Repr, DecidableEq, Inhabited

namespace MatchedRule

/-- The order of matched rules: by weight, then by the place of the selector in its rule. -/
def rank (matched : MatchedRule) : List Nat := matched.weight.rank ++ [matched.ref.selector]

/-- One matched rule comes no later than the other. -/
def le (a b : MatchedRule) : Bool := !decide (b.rank < a.rank)

end MatchedRule

/-- The identity of a sequence of matched rules. Nodes that matched the same selectors in the same
order share it, and with it their resolved rules. -/
structure RuleSetKey where
  refs : List RuleRef
  deriving Repr, DecidableEq, Inhabited

namespace RuleSetKey

/-- The identity of a sequence of matched rules. -/
def ofMatched (matched : List MatchedRule) : RuleSetKey := ⟨matched.map MatchedRule.ref⟩

/-- The number of matched selectors. -/
def size (key : RuleSetKey) : Nat := key.refs.length

/-- Some matched selector belongs to the sheet. -/
def references (key : RuleSetKey) (sheet : SheetId) : Bool :=
  key.refs.any fun ref => ref.sheet == sheet

/-- The length and then the references one by one, in the order in which they decide. -/
def rank (key : RuleSetKey) : List Nat := key.refs.length :: key.refs.flatMap RuleRef.rank

/-- The order of keys: shorter ones first, then reference by reference. -/
def order (a b : RuleSetKey) : Ordering := compare a.rank b.rank

end RuleSetKey

/-- For every rule, the strongest matched selector that is accepted, with its place. The matched
rules are expected in ascending order, and so are the chosen ones. -/
def applicableFrom (accepts : Selector → Bool) :
    List (MatchedRule × Nat) → List (MatchedRule × Nat)
  | [] => []
  | entry :: stronger =>
      let chosen := applicableFrom accepts stronger
      if accepts entry.1.selector && !stronger.any (fun other =>
          other.1.ref.sameRule entry.1.ref && accepts other.1.selector)
      then entry :: chosen
      else chosen

/-- The matched selectors through which rules apply, one for each rule. -/
def applicable (accepts : Selector → Bool) (matched : List MatchedRule) : List MatchedRule :=
  (applicableFrom accepts matched.zipIdx).map (·.1)

/-- The places of the matched selectors through which rules apply. -/
def applicableIndices (accepts : Selector → Bool) (matched : List MatchedRule) : List Nat :=
  (applicableFrom accepts matched.zipIdx).map (·.2)

end StyledWidgets.Style
