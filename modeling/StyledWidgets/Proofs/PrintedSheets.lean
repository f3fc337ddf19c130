/-
Module: StyledWidgets.Proofs.PrintedSheets
Purpose: Sheets are read back from the texts of their rules. The text of a rule is scanned the same
  way wherever it stands, so its braces, semicolons, colons and commas are those that were printed.
Main exports: Declaration.Written, StyleRule.Written, readDeclarations_text, readRule?_text,
  parseSheet_texts, parseSheet_printed
-/
import StyledWidgets.Proofs.PrintedValues
import StyledWidgets.Proofs.SheetBlocks

namespace StyledWidgets.Sheet

open StyledWidgets.Text

/-! ### Single declarations -/

theorem Property.mem_all (property : Property) : property ∈ all := by
  cases property <;> decide

/-- Small letters and hyphens belong to names, are not blank and are not lowered. -/
theorem letter_of_isLower {c : Char} (small : c.isLower = true ∨ c = '-') :
    isNameChar c = true ∧ isBlank c = false ∧ c.toLower = c := by
  rcases small with isLower | rfl
  · have range : 97 ≤ c.toNat ∧ c.toNat ≤ 122 := by
      obtain ⟨low, high⟩ := Bool.and_eq_true_iff.mp isLower
      exact ⟨of_decide_eq_true low, of_decide_eq_true high⟩
    refine ⟨?_, isBlank_of_visible (by omega), toLower_of_small (by omega)⟩
    have letter : c.isAlpha = true := Bool.or_eq_true_iff.mpr (.inr isLower)
    simp only [isNameChar, Char.isAlphanum, letter, Bool.true_or]
  · decide

/-- The names of properties are not empty and written with small letters and hyphens. -/
theorem Property.chars_name (property : Property) :
    property.name.toList ≠ [] ∧ ∀ c ∈ property.name.toList,
      isNameChar c = true ∧ isBlank c = false ∧ c.toLower = c := by
  have known : ∀ one ∈ all, one.name.toList ≠ [] ∧
      ∀ c ∈ one.name.toList, c.isLower = true ∨ c = '-' := by decide +kernel
  obtain ⟨filled, letters⟩ := known property property.mem_all
  exact ⟨filled, fun c member => letter_of_isLower (letters c member)⟩

/-- A property is found by its name, also behind a blank. -/
theorem Property.ofName?_name (property : Property) :
    ofName? (' ' :: property.name.toList) = some property := by
  obtain ⟨filled, chars⟩ := property.chars_name
  have flush : Flush property.name.toList := fun c isEnd =>
    (chars c (isEnd.elim List.mem_of_head? List.mem_of_getLast?)).2.1
  have trimmed : trim (' ' :: property.name.toList) = property.name.toList := by
    have padded := trim_padded [' '] [] filled flush (by decide) fun c member =>
      absurd member List.not_mem_nil
    rwa [List.append_nil, List.singleton_append] at padded
  have lowered : lower property.name.toList = property.name.toList := by
    rw [lower, List.map_congr_left fun c member => (chars c member).2.2, List.map_id']
  have known : ∀ one ∈ all, all.find? (fun other => other.name == one.name) = some one := by
    decide +kernel
  rw [ofName?, trimmed, lowered, String.ofList_toList]
  exact known property property.mem_all

/-- A declaration is read from a name without exposed colons and the values behind a colon. -/
theorem readDeclaration?_cons {property : Property} {name : List Char}
    (steady : Steady (· ≠ ':') name) (known : Property.ofName? name = some property)
    {text : List Char} (filled : readValues property text ≠ []) :
    readDeclaration? (name ++ ':' :: text) = some ⟨property, readValues property text⟩ := by
  have isColon : IsPlain ':' := by decide
  have cut : cutExposed ':' (name ++ ':' :: text) = some (name, text) := by
    rw [cutExposed, marks, cutMarked_steady_append isColon steady]
    simp only [Option.map_some, unmarked_mark]
  simp only [readDeclaration?, cut, known]

namespace Declaration

/-- The declaration can be written down: it has values, and they can be read for its property. -/
structure Written (declaration : Declaration) : Prop where
  filled : declaration.values ≠ []
  readable : Readable declaration.property declaration.values

/-- No value of the declaration needs an escape. -/
def Plain (declaration : Declaration) : Prop := ∀ value ∈ declaration.values, value.Plain

instance : DecidablePred Plain := fun declaration =>
  inferInstanceAs (Decidable (∀ value ∈ declaration.values, value.Plain))

/-- The text of the values of a declaration. -/
def valueText (declaration : Declaration) : List Char :=
  declaration.values.flatMap fun value => ' ' :: value.text.toList

/-- The text of a declaration behind a blank and up to its semicolon. -/
def body (declaration : Declaration) : List Char :=
  ' ' :: declaration.property.name.toList ++ ':' :: declaration.valueText

variable {declaration : Declaration}

theorem toList_text (declaration : Declaration) :
    ' ' :: declaration.text.toList = declaration.body ++ [';'] := by
  have values : (String.join (declaration.values.map fun value => " " ++ value.text)).toList =
      declaration.valueText := by
    rw [String.toList_join, List.flatMap_map]
    simp only [String.toList_append]
    rfl
  simp only [text, String.toList_append, values, body, List.append_assoc]
  rfl

/-- Whatever declaration is read can be written down. -/
theorem written_of_read {text : List Char} (read : readDeclaration? text = some declaration) :
    declaration.Written := by
  simp only [readDeclaration?] at read
  split at read
  · cases read
  · split at read
    · cases read
    case h_2 property known =>
      split at read
      · cases read
      case h_2 filled =>
        cases read
        exact ⟨filled, readable_readValues filled⟩

theorem steady_name (property : Property) {kind : Char → Prop} (blank : kind ' ')
    (isKind : ∀ c, isNameChar c = true → kind c) :
    Steady kind (' ' :: property.name.toList) := by
  apply steady_slashless
  intro c member
  rcases List.mem_cons.mp member with rfl | inName
  · exact ⟨by decide, by decide, blank⟩
  · have isName := (property.chars_name.2 c inName).1
    have foreign := fun {d : Char} => ne_of_isNameChar isName (d := d)
    exact ⟨⟨foreign (by decide), foreign (by decide), foreign (by decide)⟩,
      foreign (by decide), isKind c isName⟩

/-- The text of a declaration is scanned the same way wherever it stands. -/
theorem steady_body (plain : declaration.Plain) : Steady IsInner declaration.body := by
  have name : Steady IsInner (' ' :: declaration.property.name.toList) :=
    steady_name _ (by decide) fun c isName =>
      ⟨ne_of_isNameChar isName (by decide), ne_of_isNameChar isName (by decide)⟩
  have colon : Steady IsInner [':'] := steady_slashless (by decide)
  have values : Steady IsInner declaration.valueText :=
    Steady.flatMap fun value member => Value.steady_text (plain value member)
  exact name.append (colon.append values)

/-- A declaration is read back from its text. -/
theorem readDeclaration?_body (written : declaration.Written) (plain : declaration.Plain) :
    readDeclaration? declaration.body = some declaration := by
  have name : Steady (· ≠ ':') (' ' :: declaration.property.name.toList) :=
    steady_name _ (by decide) fun c isName => ne_of_isNameChar isName (by decide)
  have values : readValues declaration.property declaration.valueText = declaration.values :=
    readValues_text written.readable plain
  have filled : readValues declaration.property declaration.valueText ≠ [] :=
    values ▸ written.filled
  rw [body, readDeclaration?_cons name (Property.ofName?_name _) filled, values]

end Declaration

/-! ### Blocks of declarations -/

/-- The text of declarations, each behind a blank. -/
def declarationText (declarations : List Declaration) : List Char :=
  declarations.flatMap fun declaration => ' ' :: declaration.text.toList

section Declarations

variable {declarations : List Declaration}
  (plain : ∀ declaration ∈ declarations, declaration.Plain)

include plain

theorem steady_declarationText : Steady (· ≠ '\x7d') (declarationText declarations) := by
  apply Steady.flatMap
  intro declaration member
  rw [declaration.toList_text]
  have body := (Declaration.steady_body (plain declaration member)).mono fun c isInner =>
    (isInner.2 : c ≠ '\x7d')
  exact body.append (steady_slashless (by decide))

/-- Printed declarations are cut at their own semicolons. -/
theorem splitMarked_declarationText :
    ∀ before : Option Char,
      splitMarked ';' (mark before 0 (declarationText declarations ++ [' '])) =
        declarations.map Declaration.body ++ [[' ']] := by
  have isEnd : IsPlain ';' := by decide
  have isSpace : IsPlain ' ' := by decide
  induction declarations with
  | nil =>
      intro before
      rw [declarationText, List.flatMap_nil, List.nil_append, mark_of_isPlain isSpace]
      rfl
  | cons declaration later inductionHypothesis =>
      intro before
      have further := inductionHypothesis fun other member =>
        plain other (List.mem_cons_of_mem _ member)
      have body := (Declaration.steady_body (plain declaration (List.mem_cons_self ..))).mono
        fun c isInner => (isInner.1 : c ≠ ';')
      have shape : declarationText (declaration :: later) ++ [' '] =
          declaration.body ++ ';' :: (declarationText later ++ [' ']) := by
        rw [declarationText, List.flatMap_cons, declaration.toList_text, List.append_assoc,
          List.append_assoc, List.singleton_append]
        rfl
      rw [shape, splitMarked_steady_append isEnd body, further, List.map_cons, List.cons_append]

/-- Declarations are read back from their text. -/
theorem readDeclarations_text (written : ∀ declaration ∈ declarations, declaration.Written) :
    readDeclarations (declarationText declarations ++ [' ']) = declarations := by
  have nothing : readDeclaration? [' '] = none := rfl
  rw [readDeclarations, splitExposed, marks, splitMarked_declarationText plain,
    List.filterMap_append, filterMap_map_eq_self fun declaration member =>
      Declaration.readDeclaration?_body (written declaration member) (plain declaration member),
    List.filterMap_cons_none nothing, List.filterMap_nil, List.append_nil]

end Declarations

/-! ### Single rules -/

namespace StyleRule

/-- The rule can be written down: it has selectors and declarations that can. -/
structure Written (rule : StyleRule) : Prop where
  selective : rule.selectors ≠ []
  selectors : ∀ selector ∈ rule.selectors, selector.Written
  filled : rule.declarations ≠ []
  declarations : ∀ declaration ∈ rule.declarations, declaration.Written

/-- No name and no value of the rule needs an escape. -/
def Plain (rule : StyleRule) : Prop :=
  (∀ selector ∈ rule.selectors, selector.PlainNames) ∧
    ∀ declaration ∈ rule.declarations, declaration.Plain

instance : DecidablePred Plain := fun rule =>
  inferInstanceAs (Decidable
    ((∀ selector ∈ rule.selectors, selector.PlainNames) ∧
      ∀ declaration ∈ rule.declarations, declaration.Plain))

/-- The text of a rule up to its opening brace. -/
def front (rule : StyleRule) : List Char :=
  (String.intercalate ", " (rule.selectors.map Selector.text)).toList ++ [' ']

/-- The text of a rule between its braces. -/
def inside (rule : StyleRule) : List Char := declarationText rule.declarations ++ [' ']

variable {rule : StyleRule}

theorem toList_text (rule : StyleRule) :
    rule.text.toList = rule.front ++ '\x7b' :: (rule.inside ++ ['\x7d']) := by
  have declarations :
      (String.join (rule.declarations.map fun declaration => " " ++ declaration.text)).toList =
        declarationText rule.declarations := by
    rw [String.toList_join, List.flatMap_map]
    simp only [String.toList_append]
    rfl
  simp only [text, String.toList_append, declarations, front, inside, List.append_assoc]
  rfl

/-- Whatever rule is read can be written down. -/
theorem written_of_read {order : Nat} {block : Block} (read : readRule? order block = some rule) :
    rule.Written := by
  obtain ⟨selectors, declarations, filled, -⟩ := readRule?_eq_some read
  constructor
  case selective =>
    intro none
    rw [selectors] at none
    simp [readRule?, none] at read
  case selectors =>
    intro selector member
    rw [selectors, readSelectors] at member
    obtain ⟨part, -, isRead⟩ := List.mem_filterMap.mp member
    exact readSelector?_written isRead
  case filled => exact filled
  case declarations =>
    intro declaration member
    rw [declarations, readDeclarations] at member
    obtain ⟨part, -, isRead⟩ := List.mem_filterMap.mp member
    exact Declaration.written_of_read isRead

theorem steady_inside (plain : rule.Plain) : Steady (· ≠ '\x7d') rule.inside :=
  (steady_declarationText plain.2).append (steady_slashless (by decide))

section Reading

variable (written : rule.Written) (plain : rule.Plain)

include written plain

theorem steady_front : Steady (· ≠ '\x7b') rule.front := by
  have space : Steady (· ≠ '\x7b') [' '] := steady_slashless (by decide)
  have comma : Steady (· ≠ '\x7b') [',', ' '] := steady_slashless (by decide)
  rw [front, String.toList_intercalate]
  refine (Steady.intercalate comma fun part member => ?_).append space
  simp only [List.map_map, List.mem_map] at member
  obtain ⟨selector, isOne, rfl⟩ := member
  exact (Selector.steady_text (written.selectors selector isOne) (plain.1 selector isOne)
    fun c isChar => isChar.ne (by decide)).2.2

/-- A rule is read back from its block. -/
theorem readRule?_text {margin : List Char} (isMargin : IsMargin margin) :
    readRule? rule.order ⟨margin ++ rule.front, rule.inside⟩ = some rule := by
  have selectors : readSelectors (margin ++ rule.front) = rule.selectors :=
    readSelectors_text written.selective written.selectors plain.1 isMargin
  have declarations : readDeclarations rule.inside = rule.declarations :=
    readDeclarations_text plain.2 written.declarations
  simp only [readRule?, selectors, declarations]
  split
  case h_1 none => exact absurd none written.selective
  case h_2 none _ => exact absurd none written.filled
  case h_3 => rfl

end Reading

end StyleRule

/-! ### Sheets -/

/-- Rules with what stands in front of each: nothing before the first, a line break before all
others. -/
def spaced : List StyleRule → List (List Char × StyleRule)
  | [] => []
  | first :: rest => ([], first) :: rest.map fun rule => (['\n'], rule)

/-- The text of a rule behind what stands in front of it. -/
def spacedText (piece : List Char × StyleRule) : List Char := piece.1 ++ piece.2.text.toList

theorem toList_intercalate_text (rules : List StyleRule) :
    (String.intercalate "\n" (rules.map StyleRule.text)).toList =
      (spaced rules).flatMap spacedText := by
  rw [String.toList_intercalate, List.map_map]
  cases rules with
  | nil => rfl
  | cons first rest =>
      rw [List.map_cons, intercalate_cons, spaced, List.flatMap_cons, List.flatMap_map,
        List.flatMap_map]
      rfl

theorem spaced_map (rules : List StyleRule) :
    (spaced rules).map Prod.snd = rules ∧ ∀ piece ∈ spaced rules, IsMargin piece.1 := by
  cases rules with
  | nil => exact ⟨rfl, fun _ member => absurd member List.not_mem_nil⟩
  | cons first rest =>
      constructor
      · rw [spaced, List.map_cons, List.map_map]
        exact congrArg (first :: ·) (List.map_id rest)
      · intro piece member
        rcases List.mem_cons.mp member with rfl | further
        · exact fun _ inMargin => absurd inMargin List.not_mem_nil
        · obtain ⟨rule, -, rfl⟩ := List.mem_map.mp further
          simp [IsMargin]

theorem getLast?_spacedText {pieces : List (List Char × StyleRule)} (filled : pieces ≠ []) :
    (pieces.flatMap spacedText).getLast? = some '\x7d' := by
  obtain ⟨front, last, rfl⟩ := (List.eq_nil_or_concat' pieces).resolve_left filled
  have ending : spacedText last =
      (last.1 ++ last.2.front ++ '\x7b' :: last.2.inside) ++ ['\x7d'] := by
    simp only [spacedText, StyleRule.toList_text, List.append_assoc, List.cons_append]
  rw [List.flatMap_append, List.flatMap_singleton, ending, ← List.append_assoc,
    List.getLast?_concat]

section Pieces

variable {pieces : List (List Char × StyleRule)}
  (margins : ∀ piece ∈ pieces, IsMargin piece.1)
  (written : ∀ piece ∈ pieces, piece.2.Written) (plain : ∀ piece ∈ pieces, piece.2.Plain)

include margins written plain

/-- No comment is taken out of printed rules. -/
theorem stripComments_spacedText :
    stripComments (pieces.flatMap spacedText) = pieces.flatMap spacedText := by
  have opening : Steady (fun _ => True) ['\x7b'] := steady_slashless (by decide)
  have closing : Steady (fun _ => True) ['\x7d'] := steady_slashless (by decide)
  have steady : Steady (fun _ => True) (pieces.flatMap spacedText) := by
    apply Steady.flatMap
    intro piece member
    have margin : Steady (fun _ => True) piece.1 := (margins piece member).steady trivial trivial
    have front := (StyleRule.steady_front (written piece member) (plain piece member)).mono
      fun _ _ => trivial
    have inside := (StyleRule.steady_inside (plain piece member)).mono fun _ _ => trivial
    rw [spacedText, StyleRule.toList_text]
    exact margin.append (front.append (opening.append (inside.append closing)))
  exact steady.stripComments_eq

/-- Each printed rule is a block. -/
theorem blocksMarked_spacedText :
    ∀ before : Option Char, blocksMarked (mark before 0 (pieces.flatMap spacedText)) =
      pieces.map fun piece => ⟨piece.1 ++ piece.2.front, piece.2.inside⟩ := by
  induction pieces with
  | nil => exact fun _ => rfl
  | cons piece later inductionHypothesis =>
      intro before
      have further := inductionHypothesis
        (fun other member => margins other (List.mem_cons_of_mem _ member))
        (fun other member => written other (List.mem_cons_of_mem _ member))
        (fun other member => plain other (List.mem_cons_of_mem _ member)) (some '\x7d')
      have isPlain := plain piece (List.mem_cons_self ..)
      have front : Steady (· ≠ '\x7b') (piece.1 ++ piece.2.front) :=
        ((margins piece (List.mem_cons_self ..)).steady (by decide) (by decide)).append
          (StyleRule.steady_front (written piece (List.mem_cons_self ..)) isPlain)
      have inside := StyleRule.steady_inside isPlain
      have shape : (piece :: later).flatMap spacedText =
          (piece.1 ++ piece.2.front) ++ '\x7b' ::
            (piece.2.inside ++ '\x7d' :: later.flatMap spacedText) := by
        simp only [List.flatMap_cons, spacedText, StyleRule.toList_text, List.append_assoc,
          List.cons_append, List.nil_append]
      rw [shape, blocksMarked_steady_append front inside, further, List.map_cons]

end Pieces

/-- Rules that can be written down are read back from their texts, with new places. -/
theorem parseSheet_texts {rules : List StyleRule} (unplaced : ∀ rule ∈ rules, rule.order = 0)
    (written : ∀ rule ∈ rules, rule.Written) (plain : ∀ rule ∈ rules, rule.Plain) :
    parseSheet (String.intercalate "\n" (rules.map StyleRule.text)) = renumbered rules := by
  obtain ⟨whole, margins⟩ := spaced_map rules
  have isRule : ∀ piece ∈ spaced rules, piece.2 ∈ rules := by
    intro piece member
    rw [← whole]
    exact List.mem_map_of_mem member
  have writtenPieces : ∀ piece ∈ spaced rules, piece.2.Written := fun piece member =>
    written piece.2 (isRule piece member)
  have plainPieces : ∀ piece ∈ spaced rules, piece.2.Plain := fun piece member =>
    plain piece.2 (isRule piece member)
  have isRead : ∀ piece ∈ spaced rules,
      readRule? 0 ⟨piece.1 ++ piece.2.front, piece.2.inside⟩ = some piece.2 := by
    intro piece member
    rw [← unplaced piece.2 (isRule piece member)]
    exact StyleRule.readRule?_text (writtenPieces piece member) (plainPieces piece member)
      (margins piece member)
  by_cases empty : rules = []
  · -- No rule is printed as the empty text, which is read as one block without declarations.
    rw [empty]
    rfl
  · have filled : spaced rules ≠ [] := by
      intro none
      rw [none] at whole
      exact empty whole.symm
    have kept := stripComments_spacedText margins writtenPieces plainPieces
    have blocks : blocksOf ((spaced rules).flatMap spacedText) =
        (spaced rules).map fun piece => ⟨piece.1 ++ piece.2.front, piece.2.inside⟩ :=
      blocksMarked_spacedText margins writtenPieces plainPieces none
    calc parseSheet (String.intercalate "\n" (rules.map StyleRule.text))
        = renumbered (((spaced rules).map fun piece =>
            ⟨piece.1 ++ piece.2.front, piece.2.inside⟩).filterMap (readRule? 0)) := by
          rw [parseSheet, toList_intercalate_text, readSheet_of_blocks kept
            (getLast?_spacedText filled), blocks]
      _ = renumbered ((spaced rules).filterMap fun piece => some piece.2) := by
          rw [List.filterMap_map]
          exact congrArg renumbered (List.filterMap_congr isRead)
      _ = renumbered rules := by
          rw [List.filterMap_eq_map', whole]

/-! ### Places -/

/-- What does not depend on the places of rules is the same under new places. -/
theorem map_renumbered {α : Type} {read : StyleRule → α}
    (same : ∀ rule place, read { rule with order := place } = read rule)
    (rules : List StyleRule) : (renumbered rules).map read = rules.map read := by
  have places : renumbered rules =
      rules.zipIdx.map fun placed => { placed.1 with order := placed.2 } := rfl
  have kept : (read ∘ fun placed : StyleRule × Nat => { placed.1 with order := placed.2 }) =
      read ∘ Prod.fst := funext fun placed => same placed.1 placed.2
  rw [places, List.map_map, kept, ← List.map_map, List.zipIdx_map_fst]

/-- Printing the rules of a sheet and reading them again changes nothing, whatever sheet they were
read from: selectors, relations, pseudo-classes, declarations, values and places stay the same, if
no name, location or free text needs an escape. -/
theorem parseSheet_printed {text : String} (plain : ∀ rule ∈ parseSheet text, rule.Plain) :
    parseSheet (String.intercalate "\n" ((parseSheet text).map StyleRule.text)) =
      parseSheet text := by
  obtain ⟨blocks, isRead⟩ : ∃ blocks : List Block,
      parseSheet text = renumbered (blocks.filterMap (readRule? 0)) := ⟨_, readRules_eq _ 0⟩
  rw [isRead] at plain ⊢
  have read : ∀ rule ∈ blocks.filterMap (readRule? 0), rule.order = 0 ∧ rule.Written := by
    intro rule member
    obtain ⟨block, -, isRule⟩ := List.mem_filterMap.mp member
    exact ⟨(readRule?_eq_some isRule).2.2.2, StyleRule.written_of_read isRule⟩
  -- Only the places of the rules that are given differ from those of the rules that were read.
  have stillPlain : ∀ rule ∈ blocks.filterMap (readRule? 0), rule.Plain := by
    intro rule member
    have isPlain : rule.Plain ∈
        (renumbered (blocks.filterMap (readRule? 0))).map StyleRule.Plain := by
      rw [map_renumbered fun _ _ => rfl]
      exact List.mem_map_of_mem member
    obtain ⟨placed, isPlaced, same⟩ := List.mem_map.mp isPlain
    exact same ▸ plain placed isPlaced
  rw [map_renumbered (fun _ _ => rfl), parseSheet_texts (fun rule member => (read rule member).1)
    (fun rule member => (read rule member).2) stillPlain]

/-- A sheet with both relations, pseudo-classes, a value of every kind, and a rule in the middle
that cannot be read. -/
def dialogSheet : String :=
  "/* frames */ .Dialog>Button:hover:focus, #ok Label \x7b margin: -1px 2 \x7d" ++
    "Label \x7b weight: 7px \x7d" ++
    "* \x7b border-image: url(\"img/a.png\") stretch #abc; font: 12px Fira Sans \x7d"

theorem parseSheet_printed_dialogSheet :
    (∀ rule ∈ parseSheet dialogSheet, rule.Plain) ∧
      (parseSheet dialogSheet).map StyleRule.text =
        ["Dialog > Button:focus:hover, #ok Label \x7b margin: -1px 2; \x7d",
          "* \x7b border-image: url(img/a.png) stretch #aabbccff; font: 12px \"Fira Sans\"; \x7d"] ∧
        parseSheet (String.intercalate "\n" ((parseSheet dialogSheet).map StyleRule.text)) =
          parseSheet dialogSheet := by
  have read : (∀ rule ∈ parseSheet dialogSheet, rule.Plain) ∧
      (parseSheet dialogSheet).map StyleRule.text =
        ["Dialog > Button:focus:hover, #ok Label \x7b margin: -1px 2; \x7d",
          "* \x7b border-image: url(img/a.png) stretch #aabbccff; font: 12px \"Fira Sans\"; \x7d"] := by
    decide +kernel
  exact ⟨read.1, read.2, parseSheet_printed read.1⟩

end StyledWidgets.Sheet
