/-
Module: StyledWidgets.Proofs.QuotedLocations
Purpose: An address between the quotes of `url("…")`. For the scans for comments, braces, semicolons
  and colons it is one string, whatever stands in it. The reader of values knows no strings between
  parentheses and stops at the first one that closes, so an address keeps its text exactly if it
  holds none.
Main exports: locationSheet, valueTokens_kept, valueTokens_cut, steady_backgroundText,
  parseSheet_locationSheet
-/
import StyledWidgets.Proofs.PrintedSheets

namespace StyledWidgets.Sheet

open StyledWidgets.Text

/-! ### The text -/

/-- A quoted address between parentheses, with a text in front of it and one behind it. -/
def quotedCall (front location behind : List Char) : List Char :=
  front ++ '(' :: '"' :: (location ++ '"' :: ')' :: behind)

/-- The inside of a block with a quoted address in its first declaration. -/
def locationBlock (location : String) : String :=
  " background: url(\"" ++ location ++ "\") no-repeat; width: 1px; "

/-- A sheet with one block and a quoted address in it. -/
def locationSheet (location : String) : String := blockText ("A ", locationBlock location)

/-- The values of the first declaration. -/
def locationValues (location : List Char) : List Char :=
  quotedCall " url".toList location " no-repeat".toList

/-- The first declaration. -/
def locationItem (location : List Char) : List Char :=
  " background".toList ++ ':' :: locationValues location

theorem toList_locationBlock (location : String) :
    (locationBlock location).toList =
      locationItem location.toList ++ ';' :: " width: 1px; ".toList := by
  have parts : (locationBlock location).toList = " background: url(\"".toList ++ location.toList ++
      "\") no-repeat; width: 1px; ".toList :=
    String.toList_append.trans (congrArg (· ++ _) String.toList_append)
  have before : " background: url(\"".toList =
      " background".toList ++ [':'] ++ " url".toList ++ ['(', '"'] := by decide
  have behind : "\") no-repeat; width: 1px; ".toList =
      '"' :: ')' :: (" no-repeat".toList ++ ';' :: " width: 1px; ".toList) := by decide
  have joined : ∀ name call behind later : List Char,
      name ++ [':'] ++ call ++ ['(', '"'] ++ location.toList ++
          '"' :: ')' :: (behind ++ ';' :: later) =
        name ++ ':' :: quotedCall call location.toList behind ++ ';' :: later := by
    intro name call behind later
    simp only [quotedCall, List.append_assoc, List.cons_append, List.nil_append]
  exact parts.trans ((congrArg₂ (· ++ location.toList ++ ·) before behind).trans (joined ..))

/-! ### Reading the values -/

/-- The quotes at both ends are taken off. -/
theorem unquoted_quoted (text : List Char) : unquoted ('"' :: (text ++ ['"'])) = text := by
  have closed : between? '"' ('"' :: (text ++ ['"'])) = some text := by
    simp only [between?, if_true, List.reverse_append, List.reverse_singleton,
      List.singleton_append, List.reverse_reverse]
  rw [unquoted, closed]
  rfl

/-- A quote at the beginning alone stays. -/
theorem unquoted_open {text : List Char} (noQuote : '"' ∉ text) :
    unquoted ('"' :: text) = '"' :: text := by
  have isOpen : between? '"' ('"' :: text) = none := by
    rw [between?, if_pos rfl]
    split
    case h_1 last inner shape =>
      rw [if_neg]
      rintro rfl
      exact noQuote (List.mem_reverse.mp (shape ▸ List.mem_cons_self ..))
    case h_2 => rfl
  rw [unquoted, isOpen]
  rfl

theorem trim_quoted (text : List Char) :
    trim ('"' :: (text ++ ['"'])) = '"' :: (text ++ ['"']) := by
  apply trim_flush
  rintro c (first | last)
  · cases first
    decide
  · rw [← List.cons_append, List.getLast?_concat] at last
    cases last
    decide

theorem trim_open (text : List Char) : trim ('"' :: text) = '"' :: trimEnd text := by
  have start : trimStart ('"' :: text) = '"' :: text :=
    List.dropWhile_cons_of_neg (by decide)
  rw [trim, start, trimEnd, trimEnd, List.reverse_cons, List.dropWhile_append]
  split
  case isTrue empty =>
    rw [List.isEmpty_iff.mp empty, List.dropWhile_cons_of_neg (by decide)]
    rfl
  case isFalse => rw [List.reverse_append, List.reverse_singleton, List.singleton_append]

section Values

variable {location : List Char}

/-- An address in which no parenthesis closes is read up to its quote. -/
theorem valueTokens_kept (noEnd : ')' ∉ location) (behind : List Char) :
    valueTokens (quotedCall " url".toList location behind) =
      .call "url".toList ('"' :: (location ++ ['"'])) :: valueTokens behind := by
  have opened : valueTokens (quotedCall " url".toList location behind) =
      scanValues (.inCall "url".toList []) ('"' :: (location ++ '"' :: ')' :: behind)) := rfl
  have noEndToo : ')' ∉ '"' :: (location ++ ['"']) := by
    simp only [List.mem_cons, List.mem_append, List.not_mem_nil, or_false, noEnd]
    decide
  have shape : '"' :: (location ++ '"' :: ')' :: behind) =
      '"' :: (location ++ ['"']) ++ ')' :: behind := by
    rw [List.cons_append, List.append_assoc]
    rfl
  rw [opened, shape, scanValues_inCall noEndToo, scanValues_endCall]
  rfl

/-- An address is cut at the first parenthesis that closes in it. -/
theorem valueTokens_cut {front : List Char} (first : ')' ∉ front) (rest behind : List Char) :
    valueTokens (quotedCall " url".toList (front ++ ')' :: rest) behind) =
      .call "url".toList ('"' :: front) :: valueTokens (rest ++ '"' :: ')' :: behind) := by
  have opened : valueTokens (quotedCall " url".toList (front ++ ')' :: rest) behind) =
      scanValues (.inCall "url".toList [])
        ('"' :: (front ++ ')' :: rest ++ '"' :: ')' :: behind)) :=
    rfl
  have noEnd : ')' ∉ '"' :: front := by
    simp only [List.mem_cons, first]
    decide
  have shape : '"' :: (front ++ ')' :: rest ++ '"' :: ')' :: behind) =
      '"' :: front ++ ')' :: (rest ++ '"' :: ')' :: behind) := by
    rw [List.append_assoc]
    rfl
  rw [opened, shape, scanValues_inCall noEnd, scanValues_endCall]
  rfl

/-- The values of a background are those of its tokens. -/
theorem readValues_background (text : List Char) :
    readValues .background text = (valueTokens text).filterMap Value.ofToken? :=
  rfl

theorem readValues_kept (noEnd : ')' ∉ location) (behind : List Char) :
    readValues .background (quotedCall " url".toList location behind) =
      .uri (String.ofList location) :: readValues .background behind := by
  have value : Value.ofToken? (.call "url".toList ('"' :: (location ++ ['"']))) =
      some (.uri (String.ofList location)) := by
    rw [Value.ofToken?, Value.ofCall?_url, trim_quoted, unquoted_quoted]
  rw [readValues_background, valueTokens_kept noEnd, List.filterMap_cons_some value]
  rfl

/-- What is left of an address in which a parenthesis closes has the first quote in it and not the
last one; what is behind the parenthesis is read as values of their own. -/
theorem readValues_cut {front : List Char} (first : ')' ∉ front) (noQuote : '"' ∉ front)
    (rest behind : List Char) :
    readValues .background (quotedCall " url".toList (front ++ ')' :: rest) behind) =
      .uri (String.ofList ('"' :: trimEnd front)) ::
        readValues .background (rest ++ '"' :: ')' :: behind) := by
  have noQuoteLeft : '"' ∉ trimEnd front := fun member =>
    noQuote (List.mem_reverse.mp ((List.dropWhile_suffix _).subset (List.mem_reverse.mp member)))
  have value : Value.ofToken? (.call "url".toList ('"' :: front)) =
      some (.uri (String.ofList ('"' :: trimEnd front))) := by
    rw [Value.ofToken?, Value.ofCall?_url, trim_open, unquoted_open noQuoteLeft]
  rw [readValues_background, valueTokens_cut first, List.filterMap_cons_some value]
  rfl

end Values

/-! ### Scanning the text -/

section Scans

variable {location : List Char} (quotable : ∀ c ∈ location, IsQuotable c)

include quotable

/-- Between steady parts a quoted address is steady, and nothing of it is exposed. -/
theorem steady_quotedCall {kind : Char → Prop} {front behind : List Char}
    (first : Steady kind front) (last : Steady kind behind) (opening : kind '(')
    (closing : kind ')') : Steady kind (quotedCall front location behind) := by
  have string : Steady kind ('(' :: '"' :: (location ++ ['"'])) :=
    steady_quoted quotable (by decide) (by decide) rfl opening
  have parenthesis : Steady kind [')'] := by
    apply steady_slashless
    intro c member
    rw [List.mem_singleton.mp member]
    exact ⟨by decide, by decide, closing⟩
  have shape : quotedCall front location behind =
      front ++ ('(' :: '"' :: (location ++ ['"']) ++ ([')'] ++ behind)) := by
    simp only [quotedCall, List.append_assoc, List.cons_append, List.nil_append]
  rw [shape]
  exact first.append (string.append (parenthesis.append last))

/-- All that is exposed in the inside of the block is what stands around the address. -/
theorem steady_locationItem {kind : Char → Prop}
    (isKind : ∀ c ∈ " background: url() no-repeat".toList, kind c) :
    Steady kind (locationItem location) := by
  have plainly : ∀ text : List Char,
      (∀ c ∈ text, IsPlain c ∧ c ≠ '/' ∧ c ∈ " background: url() no-repeat".toList) →
        Steady kind text := fun text plain =>
    steady_slashless fun c member =>
      ⟨(plain c member).1, (plain c member).2.1, isKind c (plain c member).2.2⟩
  have values : Steady kind (locationValues location) :=
    steady_quotedCall quotable (plainly _ (by decide)) (plainly _ (by decide))
      (isKind '(' (by decide)) (isKind ')' (by decide))
  exact (plainly " background".toList (by decide)).append
    ((plainly [':'] (by decide)).append values)

/-- The first value of the declaration is always an address. -/
theorem readValues_locationValues :
    readValues .background (locationValues location) ≠ [] := by
  by_cases ends : ')' ∈ location
  · obtain ⟨front, rest, rfl, first⟩ := List.eq_append_cons_of_mem ends
    have noQuote : '"' ∉ front := fun member =>
      (quotable '"' (List.mem_append_left _ member)).1 rfl
    rw [locationValues, readValues_cut first noQuote]
    exact List.cons_ne_nil _ _
  · rw [locationValues, readValues_kept ends]
    exact List.cons_ne_nil _ _

theorem readDeclarations_location :
    readDeclarations (locationItem location ++ ';' :: " width: 1px; ".toList) =
      [⟨.background, readValues .background (locationValues location)⟩,
        ⟨.width, [.length 1]⟩] := by
  have isEnd : IsPlain ';' := by decide
  have item : Steady (· ≠ ';') (locationItem location) :=
    steady_locationItem quotable (by decide)
  have name : Steady (· ≠ ':') " background".toList := steady_slashless (by decide)
  have known : Property.ofName? " background".toList = some .background := by decide
  have first : readDeclaration? (locationItem location) =
      some ⟨.background, readValues .background (locationValues location)⟩ :=
    readDeclaration?_cons name known (readValues_locationValues quotable)
  have rest : (splitMarked ';' (mark (some ';') 0 " width: 1px; ".toList)).filterMap
      readDeclaration? = [⟨.width, [.length 1]⟩] := by decide
  rw [readDeclarations, splitExposed, marks, splitMarked_steady_append isEnd item,
    List.filterMap_cons_some first, rest]

end Scans

section Sheets

variable {location : String} (quotable : ∀ c ∈ location.toList, IsQuotable c)

include quotable

theorem steady_locationBlock {kind : Char → Prop}
    (isKind : ∀ c ∈ " background: url() no-repeat; width: 1px; ".toList, kind c) :
    Steady kind (locationBlock location).toList := by
  have item : Steady kind (locationItem location.toList) := by
    apply steady_locationItem quotable
    exact fun c member => isKind c ((by decide : ∀ c ∈ " background: url() no-repeat".toList,
      c ∈ " background: url() no-repeat; width: 1px; ".toList) c member)
  have rest : Steady kind (';' :: " width: 1px; ".toList) := by
    have plain : ∀ c ∈ ';' :: " width: 1px; ".toList, IsPlain c ∧ c ≠ '/' ∧
        c ∈ " background: url() no-repeat; width: 1px; ".toList := by decide
    exact steady_slashless fun c member =>
      ⟨(plain c member).1, (plain c member).2.1, isKind c (plain c member).2.2⟩
  rw [toList_locationBlock]
  exact item.append rest

/-- Nothing is taken out of the sheet. -/
theorem stripComments_locationSheet :
    stripComments (locationSheet location).toList = (locationSheet location).toList := by
  have front : Steady (fun _ => True) "A ".toList := steady_slashless (by decide)
  have opening : Steady (fun _ => True) ['\x7b'] := steady_slashless (by decide)
  have closing : Steady (fun _ => True) ['\x7d'] := steady_slashless (by decide)
  have inside : Steady (fun _ => True) (locationBlock location).toList :=
    steady_locationBlock quotable (by decide)
  rw [locationSheet, toList_blockText]
  exact (front.append (opening.append (inside.append closing))).stripComments_eq

/-- The scans for comments, braces, semicolons and colons leave the address as it is: all that is
open is what values are read from the text behind the colon. -/
theorem parseSheet_locationSheet :
    parseSheet (locationSheet location) =
      [⟨[⟨{ element := some "A" }, []⟩],
        [⟨.background, readValues .background (locationValues location.toList)⟩,
          ⟨.width, [.length 1]⟩], 0⟩] := by
  have opening : Steady (· ≠ '\x7b') "A ".toList := steady_slashless (by decide)
  have closing : Steady (· ≠ '\x7d') (locationBlock location).toList :=
    steady_locationBlock quotable (by decide)
  have text : (locationSheet location).toList =
      "A ".toList ++ '\x7b' :: ((locationBlock location).toList ++ ['\x7d']) := toList_blockText _
  have closed : (locationSheet location).toList.getLast? = some '\x7d' := by
    rw [text, ← List.cons_append, ← List.append_assoc, List.getLast?_concat]
  have noBlocks : blocksMarked (mark (some '\x7d') 0 []) = [] := rfl
  have selectors : readSelectors "A ".toList = [⟨{ element := some "A" }, []⟩] := by decide
  have rule : readRule? 0 ⟨"A ".toList, (locationBlock location).toList⟩ =
      some ⟨[⟨{ element := some "A" }, []⟩],
        [⟨.background, readValues .background (locationValues location.toList)⟩,
          ⟨.width, [.length 1]⟩], 0⟩ := by
    rw [readRule?, toList_locationBlock]
    simp only [selectors, readDeclarations_location quotable]
  rw [parseSheet, readSheet_of_blocks (stripComments_locationSheet quotable) closed, text, blocksOf,
    marks, blocksMarked_steady_append opening closing, noBlocks, List.filterMap_cons_some rule]
  rfl

end Sheets

/-- A quoted address in front of a keyword is read in a declaration of its own, whatever stands in
it, and the declaration behind it is read as well. The address keeps its text, and the keyword its
place, exactly if no parenthesis closes in it: otherwise the first value is the address up to that
parenthesis, with the quote in front and without the blanks at its end, and what is behind the
parenthesis is read as further values. -/
theorem parseSheet_quotedLocation (location : String)
    (quotable : ∀ c ∈ location.toList, IsQuotable c) :
    ∃ values,
      parseSheet (locationSheet location) =
          [⟨[⟨{ element := some "A" }, []⟩], [⟨.background, values⟩, ⟨.width, [.length 1]⟩], 0⟩] ∧
      (values = [.uri location, .keyword .noRepeat] ↔ ')' ∉ location.toList) ∧
      ∀ front rest, location.toList = front ++ ')' :: rest → ')' ∉ front →
        values = .uri (String.ofList ('"' :: trimEnd front)) ::
          readValues .background (rest ++ '"' :: ')' :: " no-repeat".toList) := by
  have cut : ∀ front rest, location.toList = front ++ ')' :: rest → ')' ∉ front →
      readValues .background (locationValues location.toList) =
        .uri (String.ofList ('"' :: trimEnd front)) ::
          readValues .background (rest ++ '"' :: ')' :: " no-repeat".toList) := by
    intro front rest whole first
    have noQuote : '"' ∉ front := fun member =>
      (quotable '"' (whole ▸ List.mem_append_left _ member)).1 rfl
    rw [whole]
    exact readValues_cut first noQuote rest _
  refine ⟨_, parseSheet_locationSheet quotable, ⟨?_, ?_⟩, cut⟩
  · intro same ends
    obtain ⟨front, rest, whole, first⟩ := List.eq_append_cons_of_mem ends
    rw [cut front rest whole first, List.cons.injEq, Value.uri.injEq] at same
    have quoted : '"' ∈ location.toList := by
      rw [← same.1, String.toList_ofList]
      exact List.mem_cons_self ..
    exact (quotable '"' quoted).1 rfl
  · intro noEnd
    have keyword : readValues .background " no-repeat".toList = [.keyword .noRepeat] := by decide
    rw [locationValues, readValues_kept noEnd, keyword, String.ofList_toList]

/-- An address with what elsewhere separates or ends things, among them the opening and the closing
of a comment, and another one with a parenthesis that closes. -/
theorem parseSheet_quotedLocation_icons :
    (∀ c ∈ "/*a*/: b, (c; d".toList, IsQuotable c) ∧
    (∃ values,
      parseSheet (locationSheet "/*a*/: b, (c; d") =
          [⟨[⟨{ element := some "A" }, []⟩], [⟨.background, values⟩, ⟨.width, [.length 1]⟩], 0⟩] ∧
      values = [.uri "/*a*/: b, (c; d", .keyword .noRepeat]) ∧
    (∀ c ∈ "icon (1) .png".toList, IsQuotable c) ∧
    ∃ values,
      parseSheet (locationSheet "icon (1) .png") =
          [⟨[⟨{ element := some "A" }, []⟩], [⟨.background, values⟩, ⟨.width, [.length 1]⟩], 0⟩] ∧
      "icon (1) .png".toList = "icon (1".toList ++ ')' :: " .png".toList ∧
      ')' ∉ "icon (1".toList ∧
      values = [.uri "\"icon (1", .keyword .noRepeat] := by
  have kept : ∀ c ∈ "/*a*/: b, (c; d".toList, IsQuotable c := by decide
  have closed : ∀ c ∈ "icon (1) .png".toList, IsQuotable c := by decide
  have whole : "icon (1) .png".toList = "icon (1".toList ++ ')' :: " .png".toList := by decide
  have first : ')' ∉ "icon (1".toList := by decide
  obtain ⟨values, read, same, -⟩ := parseSheet_quotedLocation _ kept
  obtain ⟨others, readToo, -, cut⟩ := parseSheet_quotedLocation _ closed
  have rest : readValues .background (" .png".toList ++ '"' :: ')' :: " no-repeat".toList) =
      [.keyword .noRepeat] := by decide
  have left : String.ofList ('"' :: trimEnd "icon (1".toList) = "\"icon (1" := by decide
  have values := cut _ _ whole first
  rw [rest, left] at values
  exact ⟨kept, ⟨_, read, same.mpr (by decide)⟩, closed, others, readToo, whole, first, values⟩

/-- Not every quoted address keeps its text: a parenthesis that closes in it ends it. -/
theorem parseSheet_cutLocation :
    ¬∀ location : String, (∀ c ∈ location.toList, IsQuotable c) →
      parseSheet (locationSheet location) =
        [⟨[⟨{ element := some "A" }, []⟩],
          [⟨.background, [.uri location, .keyword .noRepeat]⟩, ⟨.width, [.length 1]⟩], 0⟩] := by
  intro kept
  have quotable : ∀ c ∈ "a)b".toList, IsQuotable c := by decide
  have read : parseSheet (locationSheet "a)b") =
      [⟨[⟨{ element := some "A" }, []⟩],
        [⟨.background, [.uri "\"a", .keyword .noRepeat]⟩, ⟨.width, [.length 1]⟩], 0⟩] := by
    decide
  have same := kept "a)b" quotable
  rw [read] at same
  revert same
  decide

end StyledWidgets.Sheet
