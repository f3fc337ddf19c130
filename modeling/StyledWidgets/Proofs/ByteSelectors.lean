/-
Module: StyledWidgets.Proofs.ByteSelectors
Purpose: The reading of a selector from the bytes of its text. A name is put together from pieces
  between its backslashes, and all of these pieces can be cut out.
Main exports: readName, readSelector, readName_eq, readSelector_eq
-/
import StyledWidgets.Proofs.ByteText
import StyledWidgets.Sheet.SelectorReader

namespace StyledWidgets.Bytes

open StyledWidgets.Text StyledWidgets.Sheet

/-! ### Reading byte by byte -/

/-- Read a name from place `i` on: `out` has been read, and the piece from `start` on belongs to it
as it stands. A backslash takes the character behind it along; the last byte of a text is no such
backslash. -/
def readNameFrom (text out : List Char) (start i : Nat) : Option (List Char × Nat) :=
  if i < size text then do
    let b ← byteAt? text i
    if b = '\\' ∧ i + 1 < size text then do
      let piece ← slice? text start i
      let behind ← slice? text (i + 1) (size text)
      let escaped := behind.head?.getD '\\'
      let next := i + 1 + escaped.utf8Size
      readNameFrom text (out ++ piece ++ [escaped]) next next
    else if isNameChar b then readNameFrom text out start (i + 1)
    else do
      let piece ← slice? text start i
      some (out ++ piece, i)
  else do
    let piece ← slice? text start i
    some (out ++ piece, i)
termination_by size text - i

/-- The name that is written from a place on, and the place behind it. -/
def readName (text : List Char) (start : Nat) : Option (List Char × Nat) :=
  readNameFrom text [] start start

/-- The name that is written from a place on as a token, and the place behind it. -/
def nameAt (text : List Char) (role : NameRole) (start : Nat) : Option (SelectorToken × Nat) := do
  let (name, next) ← readName text start
  some (.name role name, next)

/-- The token that starts with the byte `b` at place `i`, and the place behind it. No selector has
two colons side by side. -/
def tokenAt (text : List Char) (i : Nat) (b : Char) : Option (SelectorToken × Nat) :=
  if isSpace b then some (.space, i + 1)
  else if b = '>' then some (.child, i + 1)
  else if b = '*' then some (.star, i + 1)
  else if b = '#' then nameAt text .id (i + 1)
  else if b = ':' then
    if byteAt? text (i + 1) = some ':' then some (.foreign, i + 1)
    else nameAt text .pseudo (i + 1)
  else if b = '.' then nameAt text .element (i + 1)
  else if isNameChar b ∨ b = '\\' then nameAt text .element i
  else some (.foreign, i + 1)

/-- Read a selector from a place on, with the draft that has been read up to it. -/
def readDraft (text : List Char) (draft : SelectorDraft) (i : Nat) :
    Option (Option SelectorDraft) :=
  if i < size text then do
    let b ← byteAt? text i
    let (token, next) ← tokenAt text i b
    match draft.add? token with
    | none => some none
    | some after => if i < next then readDraft text after next else none
  else some (some draft)
termination_by size text - i

/-- Read a selector. -/
def readSelector (text : List Char) : Option (Option Selector) := do
  let draft ← readDraft text {} 0
  some (draft.map fun draft => Selector.ofComponents draft.finish.finished)

/-! ### Names -/

section Names

variable {text out : List Char} {start i : Nat}

theorem isNameChar_wide {c : Char} (wide : 0x80 ≤ c.toNat) : isNameChar c = true := by
  simp [isNameChar, wide]

theorem readNameFrom_past (past : size text ≤ i) :
    readNameFrom text out start i = (slice? text start i).map fun piece => (out ++ piece, i) := by
  rw [readNameFrom, if_neg (Nat.not_lt.mpr past), Option.map_eq_bind]
  rfl

theorem readNameFrom_escape {piece : List Char} {d : Char} {behind : List Char}
    (here : byteAt? text i = some '\\') (isPiece : slice? text start i = some piece)
    (isBehind : slice? text (i + 1) (size text) = some (d :: behind)) (inside : i + 1 < size text) :
    readNameFrom text out start i =
      readNameFrom text (out ++ piece ++ [d]) (i + 1 + d.utf8Size) (i + 1 + d.utf8Size) := by
  rw [readNameFrom, if_pos (lt_size_of_byteAt? here), here]
  simp only [Option.bind_eq_bind, Option.bind_some, isPiece, isBehind, inside, and_self, if_true,
    List.head?_cons, Option.getD_some]

theorem readNameFrom_plain {b : Char} (here : byteAt? text i = some b)
    (noEscape : ¬(b = '\\' ∧ i + 1 < size text)) :
    readNameFrom text out start i =
      if isNameChar b then readNameFrom text out start (i + 1)
      else (slice? text start i).map fun piece => (out ++ piece, i) := by
  rw [readNameFrom, if_pos (lt_size_of_byteAt? here), here, Option.map_eq_bind]
  simp only [Option.bind_eq_bind, Option.bind_some, noEscape, if_false]
  rfl

/-- A name goes on over the bytes of wide characters. -/
theorem readNameFrom_wide (i : Nat) (b : Char) (here : byteAt? text i = some b)
    (wide : 0x80 ≤ b.toNat) :
    readNameFrom text out start i = readNameFrom text out start (i + 1) := by
  have noEscape : ¬(b = '\\' ∧ i + 1 < size text) := fun both =>
    ne_of_wide wide (by decide) both.1
  rw [readNameFrom_plain here noEscape, if_pos (isNameChar_wide wide)]

/-- Add all tokens of a text from a draft on. -/
def addAll (draft : SelectorDraft) (scan : SelectorScan) (text : List Char) :
    Option SelectorDraft :=
  (scanSelector scan text).foldlM SelectorDraft.add? draft

/-- The text `looked` is what the name takes of the text `rest`. -/
structure Names (rest name looked behind : List Char) : Prop where
  whole : rest = looked ++ behind
  /-- A name takes at least what it consists of. -/
  long : name.length ≤ looked.length
  /-- The tokens of the text are the name and those of what is behind it. -/
  adds : ∀ role sofar draft, addAll draft (.inName role sofar) rest =
    (draft.add? (.name role (sofar ++ name))).bind fun after => addAll after .between behind

theorem add?_name_append (draft : SelectorDraft) (role : NameRole) (tokens : List SelectorToken)
    (name : List Char) :
    (SelectorToken.name role name :: tokens).foldlM SelectorDraft.add? draft =
      (draft.add? (.name role name)).bind fun after =>
        tokens.foldlM SelectorDraft.add? after :=
  rfl

theorem names_end : Names [] [] [] [] where
  whole := rfl
  long := Nat.le_refl _
  adds role sofar draft := by
    rw [List.append_nil]
    rfl

/-- No name can be read where a character stands that belongs to no name. -/
theorem names_nil {c : Char} {rest : List Char} (noEscape : c ≠ '\\')
    (noName : isNameChar c = false) : Names (c :: rest) [] [] (c :: rest) where
  whole := rfl
  long := Nat.le_refl _
  adds role sofar draft := by
    rw [addAll, scanSelector]
    simp only [noEscape, noName, Bool.false_eq_true, if_false, List.append_nil]
    rfl

/-- A backslash at the end of a text belongs to no name, and no name begins there. -/
theorem names_backslash : Names ['\\'] [] [] ['\\'] where
  whole := rfl
  long := Nat.le_refl _
  adds role sofar draft := by
    have refused : ∀ draft, addAll draft .between ['\\'] = none := fun _ => rfl
    have tokens : scanSelector (.inName role sofar) ['\\'] = [.name role sofar, .foreign] := rfl
    have foreign : ∀ draft : SelectorDraft,
        [SelectorToken.foreign].foldlM SelectorDraft.add? draft = none := fun _ => rfl
    rw [addAll, tokens, add?_name_append]
    simp only [refused, foreign, List.append_nil]

theorem Names.cons {c : Char} {rest name looked behind : List Char}
    (names : Names rest name looked behind) (noEscape : c ≠ '\\') (isName : isNameChar c = true) :
    Names (c :: rest) (c :: name) (c :: looked) behind where
  whole := congrArg _ names.whole
  long := Nat.succ_le_succ names.long
  adds role sofar draft := by
    have further := names.adds role (sofar ++ [c]) draft
    rw [List.append_assoc] at further
    rw [addAll, scanSelector]
    simp only [noEscape, isName, if_true, if_false]
    exact further

theorem Names.escape {d : Char} {rest name looked behind : List Char}
    (names : Names rest name looked behind) :
    Names ('\\' :: d :: rest) (d :: name) ('\\' :: d :: looked) behind where
  whole := congrArg (fun further => '\\' :: d :: further) names.whole
  long := Nat.le_succ_of_le (Nat.succ_le_succ names.long)
  adds role sofar draft := by
    have further := names.adds role (sofar ++ [d]) draft
    rw [List.append_assoc] at further
    exact further

/-- Behind a backslash and the character that it takes along a new piece begins. -/
theorem readNameFrom_escaped {old kept rest : List Char} {d : Char} (out : List Char)
    (cut : text = old ++ (kept ++ '\\' :: d :: rest)) :
    readNameFrom text out (size old) (size (old ++ kept)) =
      readNameFrom text (out ++ kept ++ [d]) (size (old ++ kept ++ ['\\', d]))
        (size (old ++ kept ++ ['\\', d])) := by
  have ascii : '\\'.toNat < 0x80 := by decide
  have whole : text = (old ++ kept) ++ '\\' :: d :: rest := by rw [cut, List.append_assoc]
  have split : text = (old ++ kept ++ ['\\']) ++ d :: rest := by simp [cut]
  have isPiece : slice? text (size old) (size (old ++ kept)) = some kept :=
    cut ▸ slice?_piece old kept _
  have inside : size (old ++ kept) + 1 < size text := by
    rw [split, ← size_concat ascii]
    exact size_lt _ d rest
  have isBehind : slice? text (size (old ++ kept) + 1) (size text) = some (d :: rest) := by
    rw [← size_concat ascii]
    exact slice?_rest split
  have place : size (old ++ kept) + 1 + d.utf8Size = size (old ++ kept ++ ['\\', d]) := by
    rw [← size_concat ascii, ← size_singleton, ← size_append, List.append_assoc]
    rfl
  rw [readNameFrom_escape (byteAt?_ascii whole ascii) isPiece isBehind inside, place]

/-- Where the loop stops, the last piece is all that is left to be cut out. -/
theorem readNameFrom_stopped {old kept rest : List Char} (cut : text = old ++ (kept ++ rest))
    (stops : readNameFrom text out (size old) (size (old ++ kept)) =
      (slice? text (size old) (size (old ++ kept))).map
        fun piece => (out ++ piece, size (old ++ kept))) :
    readNameFrom text out (size old) (size (old ++ kept)) =
      some (out ++ kept, size (old ++ kept)) := by
  have isPiece : slice? text (size old) (size (old ++ kept)) = some kept :=
    cut ▸ slice?_piece old kept rest
  rw [stops, isPiece]
  rfl

theorem readNameFrom_end {old kept : List Char} (cut : text = old ++ (kept ++ [])) :
    readNameFrom text out (size old) (size (old ++ kept)) =
      some (out ++ kept, size (old ++ kept)) := by
  have whole : text = old ++ kept := by rw [cut, List.append_nil]
  exact readNameFrom_stopped cut (readNameFrom_past (Nat.le_of_eq (congrArg size whole)))

/-- Nothing stands behind a backslash at the end of a text, so it escapes nothing. -/
theorem readNameFrom_backslash {old kept : List Char} (cut : text = old ++ (kept ++ ['\\'])) :
    readNameFrom text out (size old) (size (old ++ kept)) =
      some (out ++ kept, size (old ++ kept)) := by
  have ascii : '\\'.toNat < 0x80 := by decide
  have whole : text = (old ++ kept) ++ ['\\'] := by rw [cut, List.append_assoc]
  have noEscape : ¬('\\' = '\\' ∧ size (old ++ kept) + 1 < size text) := by
    rw [whole, size_concat ascii]
    exact fun both => Nat.lt_irrefl _ both.2
  apply readNameFrom_stopped cut
  rw [readNameFrom_plain (byteAt?_ascii whole ascii) noEscape]
  rfl

/-- A name ends in front of a character that belongs to no name. -/
theorem readNameFrom_foreign {old kept rest : List Char} {c : Char}
    (cut : text = old ++ (kept ++ c :: rest)) (noEscape : c ≠ '\\')
    (noName : isNameChar c = false) :
    readNameFrom text out (size old) (size (old ++ kept)) =
      some (out ++ kept, size (old ++ kept)) := by
  have whole : text = (old ++ kept) ++ c :: rest := by rw [cut, List.append_assoc]
  have small : c.toNat < 0x80 := by
    refine Nat.lt_of_not_le fun wide => ?_
    rw [isNameChar_wide wide] at noName
    cases noName
  apply readNameFrom_stopped cut
  rw [readNameFrom_plain (byteAt?_ascii whole small) fun both => noEscape both.1, noName]
  rfl

/-- A name goes on over a character that belongs to names. -/
theorem readNameFrom_named {old kept rest : List Char} {c : Char}
    (cut : text = old ++ (kept ++ c :: rest)) (noEscape : c ≠ '\\')
    (isName : isNameChar c = true) :
    readNameFrom text out (size old) (size (old ++ kept)) =
      readNameFrom text out (size old) (size (old ++ (kept ++ [c]))) := by
  have whole : text = (old ++ kept) ++ c :: rest := by rw [cut, List.append_assoc]
  rw [← List.append_assoc]
  apply through_char (@readNameFrom_wide text out (size old)) whole
  intro _ here
  rw [readNameFrom_plain here fun both => noEscape both.1, isName, if_pos rfl]

/-- A name is read as far as the characters of the text go on with it. -/
theorem readNameFrom_eq (rest : List Char) :
    ∀ {old kept : List Char} (out : List Char), text = old ++ (kept ++ rest) →
      ∃ name looked behind, Names rest name looked behind ∧
        readNameFrom text out (size old) (size (old ++ kept)) =
          some (out ++ (kept ++ name), size (old ++ kept ++ looked)) := by
  induction long : rest.length using Nat.strongRecOn generalizing rest with
  | ind n inductionHypothesis =>
      intro old kept out cut
      -- A name that takes nothing more is what has been read so far.
      have ended : ∀ (names : Names rest [] [] rest),
          readNameFrom text out (size old) (size (old ++ kept)) =
            some (out ++ kept, size (old ++ kept)) →
          ∃ name looked behind, Names rest name looked behind ∧
            readNameFrom text out (size old) (size (old ++ kept)) =
              some (out ++ (kept ++ name), size (old ++ kept ++ looked)) := by
        intro names read
        refine ⟨[], [], rest, names, ?_⟩
        rw [read, List.append_nil, List.append_nil]
      cases rest with
      | nil => exact ended names_end (readNameFrom_end cut)
      | cons c rest =>
          rw [List.length_cons] at long
          by_cases escape : c = '\\'
          · subst escape
            cases rest with
            | nil => exact ended names_backslash (readNameFrom_backslash cut)
            | cons d rest =>
                have behind : text = (old ++ kept ++ ['\\', d]) ++ ([] ++ rest) := by simp [cut]
                obtain ⟨name, looked, last, names, read⟩ :=
                  inductionHypothesis rest.length (by rw [List.length_cons] at long; omega) rest rfl
                    (out ++ kept ++ [d]) behind
                refine ⟨d :: name, '\\' :: d :: looked, last, names.escape, ?_⟩
                rw [List.append_nil] at read
                rw [readNameFrom_escaped out cut, read]
                simp
          · cases isName : isNameChar c with
            | false =>
                exact ended (names_nil escape isName) (readNameFrom_foreign cut escape isName)
            | true =>
                have behind : text = old ++ ((kept ++ [c]) ++ rest) := by simp [cut]
                obtain ⟨name, looked, last, names, read⟩ :=
                  inductionHypothesis rest.length (by omega) rest rfl out behind
                refine ⟨c :: name, c :: looked, last, names.cons escape isName, ?_⟩
                rw [readNameFrom_named cut escape isName, read]
                simp

theorem readName_eq {front rest : List Char} (whole : text = front ++ rest) :
    ∃ name looked behind, Names rest name looked behind ∧
      readName text (size front) = some (name, size (front ++ looked)) := by
  have cut : text = front ++ ([] ++ rest) := whole
  have read := readNameFrom_eq rest [] cut
  rwa [List.append_nil] at read

end Names

/-! ### Tokens -/

/-- The token is the first thing that the text `rest` says, and it takes the text `looked` of it. -/
structure Starts (rest : List Char) (token : SelectorToken) (looked behind : List Char) : Prop where
  whole : rest = looked ++ behind
  /-- A token that no selector refuses takes something. -/
  filled : ∀ {draft after : SelectorDraft}, draft.add? token = some after → looked ≠ []
  /-- The tokens of the text are this one and those of what is behind it. -/
  adds : ∀ draft, addAll draft .between rest =
    (draft.add? token).bind fun after => addAll after .between behind

section Tokens

variable {text front : List Char} {c : Char} {rest : List Char}

/-- A byte of a wide character starts the name of a type. -/
theorem tokenAt_wide {i : Nat} (wide : 0x80 ≤ c.toNat) :
    tokenAt text i c = nameAt text .element i := by
  have foreign := fun {d : Char} => ne_of_wide wide (d := d)
  simp [tokenAt, isSpace_wide wide, isNameChar_wide wide, foreign (d := '>') (by decide),
    foreign (d := '*') (by decide), foreign (d := '#') (by decide), foreign (d := ':') (by decide),
    foreign (d := '.') (by decide)]

theorem startToken_wide (wide : 0x80 ≤ c.toNat) : startToken c = ([], .inName .element [c]) := by
  have foreign := fun {d : Char} => ne_of_wide wide (d := d)
  simp [startToken, isSpace_wide wide, isNameChar_wide wide, foreign (d := '>') (by decide),
    foreign (d := '*') (by decide), foreign (d := '#') (by decide), foreign (d := ':') (by decide),
    foreign (d := '.') (by decide)]

/-- A token of one character. -/
theorem starts_single {token : SelectorToken} (isToken : startToken c = ([token], .between)) :
    Starts (c :: rest) token [c] rest where
  whole := rfl
  filled _ := List.cons_ne_nil _ _
  adds draft := by
    rw [addAll, scanSelector, isToken]
    rfl

/-- A sign in front of a name tells the role of the name. -/
theorem Names.starts {role : NameRole} {name looked behind : List Char}
    (names : Names rest name looked behind) (isSign : startToken c = ([], .inName role [])) :
    Starts (c :: rest) (.name role name) (c :: looked) behind where
  whole := congrArg _ names.whole
  filled _ := List.cons_ne_nil _ _
  adds draft := by
    rw [← List.nil_append name, ← names.adds role [] draft, addAll, scanSelector, isSign]
    rfl

/-- A name without a sign is the name of a type. -/
theorem Names.starts_element {name looked behind : List Char}
    (names : Names (c :: rest) name looked behind)
    (first : c = '\\' ∨ isNameChar c = true ∧ startToken c = ([], .inName .element [c])) :
    Starts (c :: rest) (.name .element name) looked behind where
  whole := names.whole
  filled := by
    rintro draft after added rfl
    have empty : name = [] := List.eq_nil_of_length_eq_zero (Nat.le_zero.mp names.long)
    rw [empty] at added
    cases added
  adds draft := by
    rw [← List.nil_append name, ← names.adds .element [] draft]
    rcases first with rfl | ⟨isName, isFirst⟩
    · rfl
    · by_cases escape : c = '\\'
      · subst escape
        rfl
      · rw [addAll, addAll, scanSelector, isFirst, scanSelector]
        simp only [escape, isName, if_true, if_false]
        rfl

/-- Two colons side by side are refused. -/
theorem starts_colons : Starts (':' :: ':' :: rest) .foreign [':'] (':' :: rest) where
  whole := rfl
  filled _ := List.cons_ne_nil _ _
  adds draft := by
    have nameless : Names (':' :: rest) [] [] (':' :: rest) := names_nil (by decide) (by decide)
    exact nameless.adds .pseudo [] draft

theorem nameAt_eq (role : NameRole) (whole : text = front ++ rest) :
    ∃ name looked behind, Names rest name looked behind ∧
      nameAt text role (size front) = some (.name role name, size (front ++ looked)) := by
  obtain ⟨name, looked, behind, names, read⟩ := readName_eq whole
  refine ⟨name, looked, behind, names, ?_⟩
  rw [nameAt, read]
  rfl

/-- The token that is read where the byte `c` stands is that of the characters of the text. -/
def TokenRead (text front : List Char) (c : Char) (rest : List Char) : Prop :=
  ∃ token looked behind, Starts (c :: rest) token looked behind ∧
    tokenAt text (size front) c = some (token, size (front ++ looked))

theorem tokenRead_signed {role : NameRole} (whole : text = front ++ c :: rest)
    (isSign : startToken c = ([], .inName role []))
    (isName : tokenAt text (size front) c = nameAt text role (size (front ++ [c]))) :
    TokenRead text front c rest := by
  have split : text = (front ++ [c]) ++ rest := by simp [whole]
  obtain ⟨name, looked, behind, names, read⟩ := nameAt_eq role split
  refine ⟨_, _, _, names.starts isSign, ?_⟩
  rw [isName, read, List.append_assoc]
  rfl

theorem tokenRead_single {token : SelectorToken} (small : c.toNat < 0x80)
    (isToken : startToken c = ([token], .between))
    (isRead : tokenAt text (size front) c = some (token, size front + 1)) :
    TokenRead text front c rest := by
  refine ⟨_, _, _, starts_single isToken, ?_⟩
  rw [isRead, size_concat small]

/-- A colon is the sign of a pseudo-class, unless another one stands behind it. -/
theorem tokenRead_colon (whole : text = front ++ ':' :: rest) :
    TokenRead text front ':' rest := by
  have small : ':'.toNat < 0x80 := by decide
  have split : text = (front ++ [':']) ++ rest := by simp [whole]
  by_cases twice : byteAt? text (size front + 1) = some ':'
  · have next := twice
    rw [← size_concat small, byteAt?_eq_ascii split small] at next
    obtain ⟨behind, rfl⟩ := List.head?_eq_some_iff.mp next
    refine ⟨_, _, _, starts_colons, ?_⟩
    rw [size_concat small]
    exact if_pos twice
  · refine tokenRead_signed whole rfl ?_
    rw [size_concat small]
    exact if_neg twice

/-- The token that starts with an ASCII character is that of the characters of the text. -/
theorem tokenAt_ascii (small : c.toNat < 0x80) (whole : text = front ++ c :: rest) :
    TokenRead text front c rest := by
  by_cases space : isSpace c = true
  · exact tokenRead_single small (by rw [startToken, if_pos space]) (by rw [tokenAt, if_pos space])
  by_cases child : c = '>'
  · subst child
    exact tokenRead_single small rfl rfl
  by_cases star : c = '*'
  · subst star
    exact tokenRead_single small rfl rfl
  by_cases hash : c = '#'
  · subst hash
    exact tokenRead_signed whole rfl (by rw [size_concat small]; rfl)
  by_cases colon : c = ':'
  · subst colon
    exact tokenRead_colon whole
  by_cases dot : c = '.'
  · subst dot
    exact tokenRead_signed whole rfl (by rw [size_concat small]; rfl)
  by_cases first : isNameChar c = true ∨ c = '\\'
  · obtain ⟨name, looked, behind, names, read⟩ := nameAt_eq .element whole
    refine ⟨_, _, _, names.starts_element ?_, ?_⟩
    · rcases first with isName | escape
      · refine Or.inr ⟨isName, ?_⟩
        simp only [startToken, space, child, star, hash, colon, dot, isName,
          Bool.false_eq_true, if_true, if_false]
      · exact Or.inl escape
    · rw [← read]
      simp only [tokenAt, space, child, star, hash, colon, dot, first, Bool.false_eq_true, if_true,
        if_false]
  · rw [not_or] at first
    apply @tokenRead_single _ _ _ _ .foreign small
    · simp only [startToken, space, child, star, hash, colon, dot, first, Bool.false_eq_true,
        if_false]
    · simp only [tokenAt, space, child, star, hash, colon, dot, first, Bool.false_eq_true, or_self,
        if_false]

/-- A token is read from the bytes of a text as from its characters. -/
theorem tokenAt_eq (whole : text = front ++ c :: rest) :
    ∃ b, byteAt? text (size front) = some b ∧
      ∃ token looked behind, Starts (c :: rest) token looked behind ∧
        tokenAt text (size front) b = some (token, size (front ++ looked)) := by
  obtain ⟨b, here, ⟨rfl, small⟩ | ⟨isWide, wide⟩⟩ := byteAt?_first whole
  · exact ⟨b, here, tokenAt_ascii small whole⟩
  · obtain ⟨name, looked, behind, names, read⟩ := nameAt_eq .element whole
    have starts := names.starts_element (Or.inr ⟨isNameChar_wide wide, startToken_wide wide⟩)
    exact ⟨b, here, _, looked, behind, starts, (tokenAt_wide isWide).trans read⟩

end Tokens

/-! ### Selectors -/

section Selectors

variable {text : List Char}

theorem readDraft_past {draft : SelectorDraft} {i : Nat} (past : size text ≤ i) :
    readDraft text draft i = some (some draft) := by
  rw [readDraft, if_neg (Nat.not_lt.mpr past)]

theorem readDraft_token {draft : SelectorDraft} {i next : Nat} {b : Char} {token : SelectorToken}
    (here : byteAt? text i = some b) (isToken : tokenAt text i b = some (token, next)) :
    readDraft text draft i =
      match draft.add? token with
      | none => some none
      | some after => if i < next then readDraft text after next else none := by
  rw [readDraft, if_pos (lt_size_of_byteAt? here), here]
  simp only [Option.bind_eq_bind, Option.bind_some, isToken]

/-- A draft takes up the tokens of the characters of the text. -/
theorem readDraft_eq (rest : List Char) :
    ∀ {front : List Char} (draft : SelectorDraft), text = front ++ rest →
      readDraft text draft (size front) = some (addAll draft .between rest) := by
  induction long : rest.length using Nat.strongRecOn generalizing rest with
  | ind n inductionHypothesis =>
      intro front draft whole
      cases rest with
      | nil =>
          rw [List.append_nil] at whole
          exact readDraft_past (Nat.le_of_eq (congrArg size whole))
      | cons c rest =>
          obtain ⟨b, here, token, looked, behind, starts, read⟩ := tokenAt_eq whole
          rw [readDraft_token here read, starts.adds]
          cases added : draft.add? token with
          | none => rfl
          | some after =>
              have split : text = (front ++ looked) ++ behind := by
                rw [whole, starts.whole, List.append_assoc]
              have filled : looked ≠ [] := starts.filled added
              have shorter : behind.length < n := by
                rw [← long, starts.whole, List.length_append]
                exact Nat.lt_add_of_pos_left (List.length_pos_iff.mpr filled)
              exact (if_pos (size_lt_append filled)).trans
                (inductionHypothesis _ shorter behind rfl after split)

/-- The selector is that of the characters of the text. -/
theorem readSelector_eq (text : List Char) : readSelector text = some (readSelector? text) := by
  have whole : text = [] ++ text := rfl
  have read := readDraft_eq text {} whole
  rw [size_nil] at read
  rw [readSelector, read]
  rfl

end Selectors

end StyledWidgets.Bytes
