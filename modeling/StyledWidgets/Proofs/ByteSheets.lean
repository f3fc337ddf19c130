/-
Module: StyledWidgets.Proofs.ByteSheets
Purpose: The reading of style sheets from the bytes of their texts. Every piece that is cut out on
  the way lies between places where characters start, whatever the text is, so reading never fails
  and always ends.
Main exports: readDeclarations, readSheet, reading_on_boundaries
-/
import Mathlib.Data.List.ReduceOption
import Mathlib.Data.List.TakeWhile
import StyledWidgets.Proofs.ByteScans
import StyledWidgets.Proofs.ByteSelectors
import StyledWidgets.Proofs.ByteValues
import StyledWidgets.Proofs.SheetBlocks

namespace StyledWidgets.Bytes

open StyledWidgets.Text StyledWidgets.Sheet

/-! ### Reading byte by byte -/

/-- Read one declaration. -/
def readDeclaration (item : List Char) : Option (Option Declaration) :=
  if trim item = [] then some none
  else do
    match ← findExposed item 0 ':' with
    | none => some none
    | some colon => do
        let name ← slice? item 0 colon
        match Property.ofName? name with
        | none => some none
        | some property => do
            let text ← slice? item (colon + 1) (size item)
            let values ← readValues property text
            some (if values = [] then none else some ⟨property, values⟩)

/-- Read the declarations of a block. -/
def readDeclarations (block : List Char) : Option (List Declaration) := do
  let items ← splitExposed ';' block
  let declarations ← items.mapM readDeclaration
  some declarations.reduceOption

/-- Read the selectors of a rule. -/
def readSelectors (text : List Char) : Option (List Selector) := do
  let parts ← splitExposed ',' text
  let selectors ← parts.mapM fun part => readSelector (trim part)
  some selectors.reduceOption

/-- Read a block as a rule with the given order. -/
def readRule (order : Nat) (block : Block) : Option (Option StyleRule) := do
  let selectors ← readSelectors block.selectors
  if selectors = [] then some none
  else do
    let declarations ← readDeclarations block.body
    some (if declarations = [] then none else some ⟨selectors, declarations, order⟩)

/-- Read the blocks of a sheet from a place on, with the rules that have been read up to it. A block
that is not closed reaches to the end. -/
def readRulesFrom (source : List Char) (rules : List StyleRule) (i : Nat) :
    Option (List StyleRule) :=
  if i < size source then do
    match ← findExposed source i '\x7b' with
    | none => some rules
    | some opening => do
        let closing := (← findExposed source (opening + 1) '\x7d').getD (size source)
        let selectors ← slice? source i opening
        let body ← slice? source (opening + 1) closing
        let rule ← readRule rules.length ⟨selectors, body⟩
        let next := min (closing + 1) (size source)
        if i < next then readRulesFrom source (rules ++ rule.toList) next else none
  else some rules
termination_by size source - i

/-- Read the rules of a style sheet. -/
def readSheet (text : List Char) : Option (List StyleRule) := do
  let cleaned ← stripComments text
  readRulesFrom (withUniversalBlock cleaned) [] 0

/-! ### Declarations -/

section Declarations

/-- Nothing but blanks is left of a text without characters at its ends. -/
theorem isBlank_of_trim {text : List Char} (empty : trim text = []) :
    ∀ c ∈ text, isBlank c = true := by
  have start : trimStart text = [] := by
    cases shape : trimStart text with
    | nil => rfl
    | cons c rest =>
        have shown : isBlank c = false := by
          have first := List.head?_dropWhile_not isBlank text
          rw [trimStart] at shape
          rw [shape] at first
          simpa using first
        rw [trim, trimEnd, List.reverse_eq_nil_iff, List.dropWhile_eq_nil_iff] at empty
        have blank := empty c (by rw [List.mem_reverse, shape]; exact List.mem_cons_self ..)
        rw [shown] at blank
        cases blank
  rw [trimStart, List.dropWhile_eq_nil_iff] at start
  exact start

/-- A declaration is read from bytes as from characters. -/
theorem readDeclaration_eq (item : List Char) :
    readDeclaration item = some (readDeclaration? item) := by
  have ascii : ':'.toNat < 0x80 := by decide
  have whole : item = [] ++ item := rfl
  rw [readDeclaration, readDeclaration?, cutExposed]
  rcases findExposed_cases ascii whole with ⟨noColon, absent⟩ | ⟨name, text, isItem, isCut, found⟩
  · have noCut : cutMarked ':' (marks item) = none := noColon
    rw [size_nil] at absent
    rw [noCut, absent]
    split <;> rfl
  · have isCut : cutMarked ':' (marks item) = some (name, mark (some ':') 0 text) := isCut
    have notBlank : trim item ≠ [] := by
      intro empty
      have blank := isBlank_of_trim empty ':' (by simp [isItem])
      revert blank
      decide
    have isName : slice? item 0 (size name) = some name := by
      have piece := slice?_piece [] name (':' :: text)
      rwa [List.nil_append, ← isItem] at piece
    have isText : slice? item (size name + 1) (size item) = some text := by
      rw [← size_concat ascii]
      exact slice?_rest (by simp [isItem])
    rw [size_nil, List.nil_append] at found
    rw [isCut, found, if_neg notBlank, Option.map_some]
    simp only [Option.bind_eq_bind, Option.bind_some, isName, isText, readValues_eq,
      unmarked_mark]
    cases Property.ofName? name with
    | none => rfl
    | some property =>
        cases read : Sheet.readValues property text with
        | nil => simp [read]
        | cons first later => simp [read]

theorem mapM_some {α β : Type} (f : α → β) (items : List α) :
    (items.mapM fun item => some (f item)) = some (items.map f) := by
  induction items with
  | nil => rfl
  | cons first rest inductionHypothesis =>
      rw [List.mapM_cons, inductionHypothesis]
      rfl

theorem readDeclarations_eq (block : List Char) :
    readDeclarations block = some (Sheet.readDeclarations block) := by
  have ascii : ';'.toNat < 0x80 := by decide
  rw [readDeclarations, splitExposed_eq ascii, Sheet.readDeclarations]
  simp only [Option.bind_eq_bind, Option.bind_some, funext readDeclaration_eq, mapM_some,
    List.reduceOption, List.filterMap_map, Function.id_comp]

end Declarations

/-! ### Rules -/

section Rules

theorem readSelectors_eq (text : List Char) :
    readSelectors text = some (Sheet.readSelectors text) := by
  have ascii : ','.toNat < 0x80 := by decide
  rw [readSelectors, splitExposed_eq ascii, Sheet.readSelectors]
  simp only [Option.bind_eq_bind, Option.bind_some, readSelector_eq, mapM_some,
    List.reduceOption, List.filterMap_map]
  rfl

theorem readRule_eq (order : Nat) (block : Block) :
    readRule order block = some (readRule? order block) := by
  rw [readRule, readRule?, readSelectors_eq, readDeclarations_eq]
  simp only [Option.bind_eq_bind, Option.bind_some]
  cases Sheet.readSelectors block.selectors with
  | nil => rfl
  | cons first rest => cases Sheet.readDeclarations block.body <;> rfl

variable {source : List Char}

theorem readRulesFrom_past {rules : List StyleRule} {i : Nat} (past : size source ≤ i) :
    readRulesFrom source rules i = some rules := by
  rw [readRulesFrom, if_neg (Nat.not_lt.mpr past)]

theorem readRulesFrom_none {rules : List StyleRule} {i : Nat} (inside : i < size source)
    (absent : findExposed source i '\x7b' = some none) :
    readRulesFrom source rules i = some rules := by
  rw [readRulesFrom, if_pos inside, absent]
  rfl

theorem readRulesFrom_block {rules : List StyleRule} {i opening : Nat} {closing : Option Nat}
    {selectors body : List Char} (inside : i < size source)
    (opens : findExposed source i '\x7b' = some (some opening))
    (closes : findExposed source (opening + 1) '\x7d' = some closing)
    (isSelectors : slice? source i opening = some selectors)
    (isBody : slice? source (opening + 1) (closing.getD (size source)) = some body)
    (further : i < min (closing.getD (size source) + 1) (size source)) :
    readRulesFrom source rules i =
      readRulesFrom source (rules ++ (readRule? rules.length ⟨selectors, body⟩).toList)
        (min (closing.getD (size source) + 1) (size source)) := by
  rw [readRulesFrom, if_pos inside, opens]
  simp only [Option.bind_eq_bind, Option.bind_some, closes, isSelectors, isBody, readRule_eq,
    further, if_true]

/-- A block is read with the next number, if it can be read. -/
theorem readRules_cons (order : Nat) (block : Block) (later : List Block) :
    readRules order (block :: later) =
      (readRule? order block).toList ++
        readRules (order + (readRule? order block).toList.length) later := by
  rw [readRules]
  cases readRule? order block <;> rfl

/-- What stands in front of an opening brace is cut out of the text. -/
theorem slice?_selectors {front selectors behind : List Char}
    (opened : source = (front ++ selectors ++ ['\x7b']) ++ behind) :
    size front < size source ∧
      slice? source (size front) (size (front ++ selectors)) = some selectors := by
  rw [opened, List.append_assoc, List.append_assoc]
  exact ⟨size_lt_append (by simp), slice?_piece front selectors _⟩

/-- A block that is not closed is the last one, and the loop ends behind it. -/
theorem readRulesFrom_unclosed {front selectors behind : List Char}
    (whole : source = (front ++ selectors ++ ['\x7b']) ++ behind) (rules : List StyleRule)
    (opens : findExposed source (size front) '\x7b' = some (some (size (front ++ selectors))))
    (unclosed : findExposed source (size (front ++ selectors) + 1) '\x7d' = some none) :
    readRulesFrom source rules (size front) =
      some (rules ++ (readRule? rules.length ⟨selectors, behind⟩).toList) := by
  have opening : '\x7b'.toNat < 0x80 := by decide
  obtain ⟨inside, isSelectors⟩ := slice?_selectors whole
  have isBody : slice? source (size (front ++ selectors) + 1) (size source) = some behind := by
    rw [← size_concat opening]
    exact slice?_rest whole
  have past : size source ≤ min (size source + 1) (size source) :=
    Nat.le_min.mpr ⟨Nat.le_succ _, Nat.le_refl _⟩
  rw [readRulesFrom_block inside opens unclosed isSelectors isBody
    (Nat.lt_of_lt_of_le inside past), Option.getD_none, readRulesFrom_past past]

/-- A closed block is read, and the loop goes on behind it. -/
theorem readRulesFrom_closed {front selectors body later : List Char}
    (whole : source = (front ++ selectors ++ ['\x7b'] ++ body ++ ['\x7d']) ++ later)
    (rules : List StyleRule)
    (opens : findExposed source (size front) '\x7b' = some (some (size (front ++ selectors))))
    (closes : findExposed source (size (front ++ selectors) + 1) '\x7d' =
      some (some (size (front ++ selectors ++ ['\x7b'] ++ body)))) :
    readRulesFrom source rules (size front) =
      readRulesFrom source (rules ++ (readRule? rules.length ⟨selectors, body⟩).toList)
        (size (front ++ selectors ++ ['\x7b'] ++ body ++ ['\x7d'])) := by
  have ascii : '\x7b'.toNat < 0x80 ∧ '\x7d'.toNat < 0x80 := by decide
  have opened : source = (front ++ selectors ++ ['\x7b']) ++ (body ++ '\x7d' :: later) := by
    simp [whole]
  obtain ⟨inside, isSelectors⟩ := slice?_selectors opened
  have isBody : slice? source (size (front ++ selectors) + 1)
      (size (front ++ selectors ++ ['\x7b'] ++ body)) = some body := by
    rw [← size_concat ascii.1, opened]
    exact slice?_piece _ body _
  have next : min (size (front ++ selectors ++ ['\x7b'] ++ body) + 1) (size source) =
      size (front ++ selectors ++ ['\x7b'] ++ body ++ ['\x7d']) := by
    rw [← size_concat ascii.2, whole]
    exact Nat.min_eq_left (Nat.le_of_add_right_le (Nat.le_of_eq size_append.symm))
  have further : size front <
      min (size (front ++ selectors ++ ['\x7b'] ++ body) + 1) (size source) := by
    rw [next]
    simp only [List.append_assoc]
    exact size_lt_append (by simp)
  rw [readRulesFrom_block inside opens closes isSelectors isBody further, Option.getD_some, next]

/-- The blocks of a sheet are those of the characters of its text. -/
theorem readRulesFrom_eq (rest : List Char) :
    ∀ {front : List Char} (rules : List StyleRule), source = front ++ rest →
      readRulesFrom source rules (size front) =
        some (rules ++
          readRules rules.length (blocksMarked (mark (lastOf none front) 0 rest))) := by
  induction long : rest.length using Nat.strongRecOn generalizing rest with
  | ind n inductionHypothesis =>
      intro front rules whole
      have opening : '\x7b'.toNat < 0x80 := by decide
      have closing : '\x7d'.toNat < 0x80 := by decide
      by_cases inside : size front < size source
      · rw [blocksMarked_cut]
        rcases findExposed_cases opening whole with
          ⟨noOpening, absent⟩ | ⟨selectors, behind, rfl, isCut, opens⟩
        · rw [readRulesFrom_none inside absent, noOpening]
          simp [readRules]
        · have opened : source = (front ++ selectors ++ ['\x7b']) ++ behind := by simp [whole]
          have closes := findExposed_cases closing opened
          rw [size_concat opening, lastOf_concat] at closes
          rw [isCut]
          rcases closes with ⟨noClosing, absent⟩ | ⟨body, later, rfl, isBodyCut, closes⟩
          · rw [readRulesFrom_unclosed opened rules opens absent]
            simp only [noClosing, unmarked_mark, readRules_cons, readRules, List.append_nil]
          · have closed : source =
                (front ++ selectors ++ ['\x7b'] ++ body ++ ['\x7d']) ++ later := by simp [whole]
            have shorter : later.length < n := by
              rw [← long]
              simp only [List.length_append, List.length_cons]
              omega
            have further := inductionHypothesis _ shorter later rfl
              (rules ++ (readRule? rules.length ⟨selectors, body⟩).toList) closed
            rw [lastOf_concat, List.length_append] at further
            rw [readRulesFrom_closed closed rules opens closes, further]
            simp only [isBodyCut, readRules_cons, List.append_assoc]
      · have atEnd : rest = [] := by
          rw [whole, size_append] at inside
          exact size_eq_zero.mp (by omega)
        rw [readRulesFrom_past (Nat.not_lt.mp inside), atEnd]
        simp [mark, blocksMarked, blockAhead?, readRules]

theorem readSheet_eq (text : List Char) : readSheet text = some (Sheet.readSheet text) := by
  have whole : withUniversalBlock (Text.stripComments text) =
      [] ++ withUniversalBlock (Text.stripComments text) := rfl
  have read := readRulesFrom_eq _ [] whole
  rw [size_nil] at read
  rw [readSheet, stripComments_eq]
  exact read

end Rules

/-! ### Reading never fails -/

/-- A piece is cut out exactly between two places that are in order, in range and not inside a
character; and all readers of the program, which cut out pieces between the places of bytes that
they come upon, read every text to its end. -/
theorem reading_on_boundaries (text : String) :
    (∀ start stop, (slice? text.toList start stop).isSome = true ↔
      start ≤ stop ∧ stop ≤ text.utf8ByteSize ∧
        (String.Pos.Raw.mk start).IsValid text ∧ (String.Pos.Raw.mk stop).IsValid text) ∧
    readSheet text.toList = some (parseSheet text) ∧
    readDeclarations text.toList = some (parseDeclarations text) ∧
    stripComments text.toList = some (Text.stripComments text.toList) ∧
    (∀ separator, separator.toNat < 0x80 →
      splitExposed separator text.toList = some (Text.splitExposed separator text.toList)) ∧
    readSelector text.toList = some (parseSelector? text) ∧
    (∀ start, (String.Pos.Raw.mk start).IsValid text → ∃ name stop,
      readName text.toList start = some (name, stop) ∧ (String.Pos.Raw.mk stop).IsValid text) ∧
    (∀ property, readValues property text.toList = some (Sheet.readValues property text.toList)) ∧
    readHex text.toList = some (Color.ofHex? text.toList) := by
  have isText : String.ofList text.toList = text := String.ofList_toList
  have boundary : ∀ i, IsBoundary text.toList i ↔ (String.Pos.Raw.mk i).IsValid text := by
    intro i
    rw [IsBoundary, isText]
  refine ⟨?_, readSheet_eq _, readDeclarations_eq _, stripComments_eq _, ?_, readSelector_eq _, ?_,
    fun property => readValues_eq property _, readHex_eq _⟩
  · intro start stop
    rw [slice?_isSome_iff, boundary, boundary, ← utf8ByteSize_ofList, isText]
  · exact fun separator ascii => splitExposed_eq ascii _
  · intro start valid
    obtain ⟨front, rest, whole, rfl⟩ := isBoundary_iff.mp ((boundary start).mpr valid)
    obtain ⟨name, looked, behind, names, read⟩ := readName_eq whole
    refine ⟨name, _, read, (boundary _).mp (isBoundary_iff.mpr ⟨front ++ looked, behind, ?_, rfl⟩)⟩
    rw [whole, names.whole, List.append_assoc]

/-- A sheet with an escaped wide character, and with a quote that nothing closes. -/
def unclosedText : String := "B\\é\x7bfont:'é\x7d"

/-- The backslash at place 1 leads a scan on to place 3, inside the character behind it. -/
theorem reading_on_boundaries_unclosed :
    ¬(String.Pos.Raw.mk 3).IsValid unclosedText ∧
    (slice? unclosedText.toList 0 3).isSome = false ∧
    readSheet unclosedText.toList =
      some [⟨[⟨{ element := some "Bé" }, []⟩], [⟨.font, [.string "é"]⟩], 0⟩] ∧
    ';'.toNat < 0x80 ∧
    splitExposed ';' unclosedText.toList = some [unclosedText.toList] ∧
    (String.Pos.Raw.mk 1).IsValid unclosedText ∧
    ∃ name stop, readName unclosedText.toList 1 = some (name, stop) ∧
      (String.Pos.Raw.mk stop).IsValid unclosedText := by
  have inside : ¬(String.Pos.Raw.mk 3).IsValid unclosedText := by decide
  have start : (String.Pos.Raw.mk 1).IsValid unclosedText := by decide
  have rules : parseSheet unclosedText =
      [⟨[⟨{ element := some "Bé" }, []⟩], [⟨.font, [.string "é"]⟩], 0⟩] := by decide
  have parts : Text.splitExposed ';' unclosedText.toList = [unclosedText.toList] := by decide
  have ascii : ';'.toNat < 0x80 := by decide
  obtain ⟨cut, sheet, -, -, split, -, name, -⟩ := reading_on_boundaries unclosedText
  have refused : (slice? unclosedText.toList 0 3).isSome = false := by
    rw [Bool.eq_false_iff, Ne, cut]
    exact fun isCut => inside isCut.2.2.2
  rw [rules] at sheet
  have splits := split ';' ascii
  rw [parts] at splits
  exact ⟨inside, refused, sheet, ascii, splits, start, name 1 start⟩

end StyledWidgets.Bytes
