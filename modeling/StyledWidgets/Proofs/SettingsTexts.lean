/-
Module: StyledWidgets.Proofs.SettingsTexts
Purpose: Settings survive being written as a document and read again, whatever their texts hold and
  as far as their numbers fit their types. Any of the fields may be left out of the document, of the
  whole as of its records: those have their defaults afterwards, and all others what was written.
Main exports: JsonValue.leaveOut, fieldsOf?_leaveOut, Settings.Fits, Settings.without,
  Settings.ofJson?_leaveOut, Settings.ofJsonText_written
-/
import Mathlib.Algebra.Group.Nat.Defs
import Mathlib.Data.Prod.Basic
import StyledWidgets.Proofs.WrittenDocuments
import StyledWidgets.Toolkit.SettingsJson

namespace StyledWidgets

open JsonReader Sheet

/-! ### Documents with fields left out -/

namespace JsonValue

/-- The document without the members whose keys are left out. -/
def leaveOut (left : String → Bool) : JsonValue → JsonValue
  | .object members => .object (members.filter fun member => !member.1.any left)
  | value => value

/-- The document whose members lose members of their own, those under each key for themselves. -/
def leaveOutBelow (left : String → String → Bool) : JsonValue → JsonValue
  | .object members =>
      .object (members.map fun member => (member.1, member.2.leaveOut (left (member.1.getD ""))))
  | value => value

variable {members : List (String × JsonValue)}

/-- Nothing is changed where nothing is left out. -/
theorem leaveOut_nothing (value : JsonValue) : value.leaveOut (fun _ => false) = value := by
  cases value with
  | object members =>
      have all : members.filter (fun member => !member.1.any fun _ => false) = members :=
        List.filter_eq_self.mpr fun member _ => by cases member.1 <;> rfl
      rw [leaveOut, all]
  | _ => rfl

theorem leaveOutBelow_nothing (value : JsonValue) :
    value.leaveOutBelow (fun _ _ => false) = value := by
  cases value with
  | object members => simp only [leaveOutBelow, leaveOut_nothing, Prod.mk.eta, List.map_id']
  | _ => rfl

theorem leaveOut_record (left : String → Bool) :
    (record members).leaveOut left = record (members.filter fun member => !left member.1) := by
  simp only [record, leaveOut, List.filter_map]
  rfl

/-- Any part of a record is laid out as a way of writing it, if each member is. -/
theorem laid_leaveOut (left : String → Bool) (each : ∀ member ∈ members, Laid member.2) :
    Laid ((record members).leaveOut left) := by
  rw [leaveOut_record]
  exact laid_record fun member isMember => each member (List.mem_filter.mp isMember).1

end JsonValue

/-! ### Fields of records -/

section Fields

variable {members : List (String × JsonValue)}

theorem mapM_map_some {α β γ : Type} {list : List α} {key : α → β} {read : β → Option γ}
    {value : α → γ} (each : ∀ a ∈ list, read (key a) = some (value a)) :
    (list.map key).mapM read = some (list.map value) := by
  induction list with
  | nil => rfl
  | cons a later inductionHypothesis =>
      obtain ⟨first, others⟩ := List.forall_mem_cons.mp each
      simp only [List.map_cons, List.mapM_cons, first, inductionHypothesis others,
        Option.bind_eq_bind, Option.bind_some, Option.pure_def]

/-- Among distinct keys, each is found once. -/
theorem filter_key (distinct : (members.map (·.1)).Nodup) {member : String × JsonValue}
    (isMember : member ∈ members) :
    members.filter (fun other => other.1 == member.1) = [member] := by
  induction members with
  | nil => cases isMember
  | cons first later inductionHypothesis =>
      obtain ⟨isNew, distinctLater⟩ := List.nodup_cons.mp distinct
      rcases List.mem_cons.mp isMember with rfl | further
      · have others : later.filter (fun other => other.1 == member.1) = [] := by
          rw [List.filter_eq_nil_iff]
          intro other isOther same
          exact isNew (List.mem_map.mpr ⟨other, isOther, beq_iff_eq.mp same⟩)
        simp only [List.filter_cons, beq_self_eq_true, if_true, others]
      · have apart : (first.1 == member.1) = false := beq_eq_false_iff_ne.mpr fun same =>
          isNew (List.mem_map.mpr ⟨member, further, same.symm⟩)
        simp only [List.filter_cons, apart, Bool.false_eq_true, if_false,
          inductionHypothesis distinctLater further]

/-- A field that is left out is missing, and every other one is found. -/
theorem memberOf?_leaveOut (distinct : (members.map (·.1)).Nodup) (left : String → Bool)
    {member : String × JsonValue} (isMember : member ∈ members) :
    memberOf? (members.filter fun other => !left other.1) member.1 =
      some (if left member.1 then none else some member.2) := by
  rw [memberOf?, List.filter_comm, filter_key distinct isMember]
  cases gone : left member.1 <;> simp [gone]

/-- The fields of a record are read back, apart from those that are left out. -/
theorem fieldsOf?_leaveOut {names : List String} (distinct : names.Nodup)
    (named : members.map (·.1) = names) (left : String → Bool) :
    fieldsOf? names ((JsonValue.record members).leaveOut left) =
      some (members.map fun member => if left member.1 then none else some member.2) := by
  subst named
  have keys : ((members.filter fun member => !left member.1).map fun member =>
      ((some member.1 : JsonString), member.2)).mapM (fun member =>
        member.1.map fun key => (key, member.2)) =
      some ((members.filter fun member => !left member.1).map fun member => member) :=
    mapM_map_some fun _ _ => rfl
  rw [JsonValue.leaveOut_record, JsonValue.record, fieldsOf?, keys, Option.bind_eq_bind,
    Option.bind_some, List.map_id']
  exact mapM_map_some fun member isMember => memberOf?_leaveOut distinct left isMember

/-- What is read of a field is its value, or the default if it is left out. -/
theorem fieldOr_leaveOut {α : Type} {standard value : α} {read : JsonValue → Option α}
    {document : JsonValue} (isRead : read document = some value) (gone : Bool) :
    fieldOr standard read (if gone then none else some document) =
      some (if gone then standard else value) := by
  cases gone with
  | true => rfl
  | false => exact isRead

end Fields

namespace JsonValue

theorem intWithin?_int {low high value : Int} (within : low ≤ value ∧ value ≤ high) :
    intWithin? low high (.int value) = some value := by
  simp only [intWithin?, int, int?, Option.filter, within, and_self, decide_true, if_true]

theorem natOfBits?_int {bits value : Nat} (small : value < 2 ^ bits) :
    natOfBits? bits (.int value) = some value := by
  have top : Int.ofNat (Nat.pow 2 bits) = ((2 ^ bits : Nat) : Int) := rfl
  rw [natOfBits?, intWithin?_int (by omega), Option.map_some, Int.toNat_natCast]

theorem textOrNull?_leaveOut (value : Option String) (left : String → Bool) :
    textOrNull? ((orNull .text value).leaveOut left) = some value := by
  cases value <;> rfl

end JsonValue

/-! ### Settings of styling, repainting and retrying -/

namespace StyleSettings

/-- The settings with the defaults of the fields that are left out. -/
def without (left : String → Bool) (settings : StyleSettings) : StyleSettings :=
  let standard : StyleSettings := {}
  { aliasPseudoStates :=
      if left "alias_pseudo_states" then standard.aliasPseudoStates else settings.aliasPseudoStates
    defaultFontFamily :=
      if left "default_font_family" then standard.defaultFontFamily else settings.defaultFontFamily
    defaultFontSize :=
      if left "default_font_size" then standard.defaultFontSize else settings.defaultFontSize }

variable {settings : StyleSettings}

theorem ofJson?_leaveOut (fits : IsInt32 settings.defaultFontSize) (left : String → Bool) :
    ofJson? (settings.toJson.leaveOut left) = some (settings.without left) := by
  have size : JsonValue.intWithin? (-2147483648) 2147483647 (.int settings.defaultFontSize) =
      some settings.defaultFontSize := by
    have cap : (Text.intCap : Int) = 2147483648 := by decide
    obtain ⟨low, high⟩ := fits
    exact JsonValue.intWithin?_int (by omega)
  have fields : fieldsOf? fieldNames (settings.toJson.leaveOut left) =
      some [if left "alias_pseudo_states" then none else some (.bool settings.aliasPseudoStates),
        if left "default_font_family" then none else some (.text settings.defaultFontFamily),
        if left "default_font_size" then none else some (.int settings.defaultFontSize)] :=
    fieldsOf?_leaveOut (by decide : fieldNames.Nodup) rfl left
  rw [ofJson?, fields]
  simp only [Option.bind_eq_bind, Option.bind_some, fieldOr_leaveOut size,
    fieldOr_leaveOut (rfl : JsonValue.bool? (.bool settings.aliasPseudoStates) = _),
    fieldOr_leaveOut (rfl : JsonValue.text? (.text settings.defaultFontFamily) = _)]
  rfl

theorem laid_leaveOut (left : String → Bool) : Laid (settings.toJson.leaveOut left) := by
  refine JsonValue.laid_leaveOut left ?_
  simp only [List.forall_mem_cons]
  exact ⟨laid_bool _, laid_text _, laid_int _, nofun⟩

end StyleSettings

namespace RepaintSettings

/-- The settings with the defaults of the fields that are left out. -/
def without (left : String → Bool) (settings : RepaintSettings) : RepaintSettings :=
  let standard : RepaintSettings := {}
  { maxRegionRects :=
      if left "max_region_rects" then standard.maxRegionRects else settings.maxRegionRects
    honorNonOverlap :=
      if left "honor_non_overlap" then standard.honorNonOverlap else settings.honorNonOverlap }

variable {settings : RepaintSettings}

theorem ofJson?_leaveOut (fits : settings.maxRegionRects < 2 ^ 64) (left : String → Bool) :
    ofJson? (settings.toJson.leaveOut left) = some (settings.without left) := by
  have fields : fieldsOf? fieldNames (settings.toJson.leaveOut left) =
      some [if left "max_region_rects" then none else some (.int settings.maxRegionRects),
        if left "honor_non_overlap" then none else some (.bool settings.honorNonOverlap)] :=
    fieldsOf?_leaveOut (by decide : fieldNames.Nodup) rfl left
  rw [ofJson?, fields]
  simp only [Option.bind_eq_bind, Option.bind_some,
    fieldOr_leaveOut (JsonValue.natOfBits?_int fits),
    fieldOr_leaveOut (rfl : JsonValue.bool? (.bool settings.honorNonOverlap) = _)]
  rfl

theorem laid_leaveOut (left : String → Bool) : Laid (settings.toJson.leaveOut left) := by
  refine JsonValue.laid_leaveOut left ?_
  simp only [List.forall_mem_cons]
  exact ⟨laid_int _, laid_bool _, nofun⟩

end RepaintSettings

namespace RetrySettings

/-- The settings with the defaults of the fields that are left out. -/
def without (left : String → Bool) (settings : RetrySettings) : RetrySettings :=
  let standard : RetrySettings := {}
  { maxAttempts := if left "max_attempts" then standard.maxAttempts else settings.maxAttempts }

variable {settings : RetrySettings}

theorem ofJson?_leaveOut (fits : settings.maxAttempts < 2 ^ 32) (left : String → Bool) :
    ofJson? (settings.toJson.leaveOut left) = some (settings.without left) := by
  have fields : fieldsOf? fieldNames (settings.toJson.leaveOut left) =
      some [if left "max_attempts" then none else some (.int settings.maxAttempts)] :=
    fieldsOf?_leaveOut (by decide : fieldNames.Nodup) rfl left
  rw [ofJson?, fields]
  simp only [Option.bind_eq_bind, Option.bind_some,
    fieldOr_leaveOut (JsonValue.natOfBits?_int fits)]
  rfl

theorem laid_leaveOut (left : String → Bool) : Laid (settings.toJson.leaveOut left) := by
  refine JsonValue.laid_leaveOut left ?_
  simp only [List.forall_mem_cons]
  exact ⟨laid_int _, nofun⟩

end RetrySettings

/-! ### All settings -/

namespace Settings

/-- Every number is in the range of its type: a signed word of 32 bits, a word of 64 bits and one of
32 bits. -/
structure Fits (settings : Settings) : Prop where
  fontSize : IsInt32 settings.style.defaultFontSize
  regionRects : settings.repaint.maxRegionRects < 2 ^ 64
  attempts : settings.retry.maxAttempts < 2 ^ 32

/-- The settings with the defaults of what is left out: whole records, and fields of the others. -/
def without (outer : String → Bool) (inner : String → String → Bool) (settings : Settings) :
    Settings :=
  let standard : Settings := {}
  { style := if outer "style" then standard.style else settings.style.without (inner "style")
    repaint :=
      if outer "compositor" then standard.repaint
      else settings.repaint.without (inner "compositor")
    retry := if outer "retry" then standard.retry else settings.retry.without (inner "retry")
    logFilter := if outer "log_filter" then standard.logFilter else settings.logFilter }

/-- The document of all settings without some of its fields, and without some of the fields of its
records. -/
def partialJson (outer : String → Bool) (inner : String → String → Bool) (settings : Settings) :
    JsonValue := (settings.toJson.leaveOutBelow inner).leaveOut outer

variable {settings : Settings}

theorem partialJson_eq (outer : String → Bool) (inner : String → String → Bool) :
    settings.partialJson outer inner =
      (JsonValue.record
        [ ("style", settings.style.toJson.leaveOut (inner "style")),
          ("compositor", settings.repaint.toJson.leaveOut (inner "compositor")),
          ("retry", settings.retry.toJson.leaveOut (inner "retry")),
          ("log_filter",
            (JsonValue.orNull .text settings.logFilter).leaveOut
              (inner "log_filter")) ]).leaveOut outer := rfl

theorem ofJson?_partialJson (fits : settings.Fits) (outer : String → Bool)
    (inner : String → String → Bool) :
    ofJson? (settings.partialJson outer inner) = some (settings.without outer inner) := by
  have fields : fieldsOf? fieldNames (settings.partialJson outer inner) =
      some [if outer "style" then none
          else some (settings.style.toJson.leaveOut (inner "style")),
        if outer "compositor" then none
          else some (settings.repaint.toJson.leaveOut (inner "compositor")),
        if outer "retry" then none else some (settings.retry.toJson.leaveOut (inner "retry")),
        if outer "log_filter" then none
          else some ((JsonValue.orNull .text settings.logFilter).leaveOut
            (inner "log_filter"))] := by
    rw [partialJson_eq]
    exact fieldsOf?_leaveOut (by decide : fieldNames.Nodup) rfl outer
  rw [ofJson?, fields]
  simp only [Option.bind_eq_bind, Option.bind_some,
    fieldOr_leaveOut (StyleSettings.ofJson?_leaveOut fits.fontSize _),
    fieldOr_leaveOut (RepaintSettings.ofJson?_leaveOut fits.regionRects _),
    fieldOr_leaveOut (RetrySettings.ofJson?_leaveOut fits.attempts _),
    fieldOr_leaveOut (JsonValue.textOrNull?_leaveOut settings.logFilter _)]
  rfl

/-- The layout over several lines writes the document, whatever is left out. -/
theorem laid_partialJson (outer : String → Bool) (inner : String → String → Bool) :
    Laid (settings.partialJson outer inner) := by
  rw [partialJson_eq]
  refine JsonValue.laid_leaveOut outer ?_
  have filter : Laid ((JsonValue.orNull .text settings.logFilter).leaveOut
      (inner "log_filter")) := by
    cases settings.logFilter with
    | none => exact laid_null
    | some text => exact laid_text text
  simp only [List.forall_mem_cons]
  exact ⟨settings.style.laid_leaveOut _, settings.repaint.laid_leaveOut _,
    settings.retry.laid_leaveOut _, filter, nofun⟩

/-- Where the numbers fit, settings that are written as a document are read back unchanged. From any
text of the document without some of its fields, at either level, the same settings are read, with
the defaults of exactly these fields; the layout over several lines is such a text. -/
theorem ofJsonText_written (fits : settings.Fits) :
    ofJsonText settings.toJsonText = .ok settings ∧
      ∀ (outer : String → Bool) (inner : String → String → Bool),
        Written (settings.partialJson outer inner)
            (settings.partialJson outer inner).pretty.toList ∧
          ∀ text : String, Written (settings.partialJson outer inner) text.toList →
            ofJsonText text = .ok (settings.without outer inner) := by
  have pretty : ∀ outer inner, Written (settings.partialJson outer inner)
      (settings.partialJson outer inner).pretty.toList := by
    intro outer inner
    rw [JsonValue.pretty, String.toList_ofList]
    exact laid_partialJson outer inner 0
  have read : ∀ outer inner text, Written (settings.partialJson outer inner) text.toList →
      ofJsonText text = .ok (settings.without outer inner) := by
    intro outer inner text written
    rw [ofJsonText, readJson?_written written, Option.bind_some, ofJson?_partialJson fits]
  have whole : settings.partialJson (fun _ => false) (fun _ _ => false) = settings.toJson := by
    rw [partialJson, JsonValue.leaveOutBelow_nothing, JsonValue.leaveOut_nothing]
  refine ⟨?_, fun outer inner => ⟨pretty outer inner, read outer inner⟩⟩
  have same := read _ _ _ (pretty (fun _ => false) fun _ _ => false)
  rw [whole] at same
  exact same

/-- Settings with the extreme numbers, and with texts of quotes, backslashes, control characters and
characters beyond ASCII. -/
def extremeSettings : Settings where
  style := ⟨false, "\"A\\B\" \u0007\n\u00e9\u2028😀", -2147483648⟩
  repaint := ⟨2 ^ 64 - 1, false⟩
  retry := ⟨2 ^ 32 - 1⟩
  logFilter := some "\u0000/\t\u007f"

/-- Without the record of styling and the number of rectangles, these are the defaults. -/
theorem ofJsonText_written_extremeSettings :
    let document := extremeSettings.partialJson (· == "style") fun _ name =>
      name == "max_region_rects"
    extremeSettings.Fits ∧ ofJsonText extremeSettings.toJsonText = .ok extremeSettings ∧
      Written document document.pretty.toList ∧
      ofJsonText document.pretty =
        .ok { extremeSettings with style := {}, repaint := ⟨16, false⟩ } := by
  have fits : extremeSettings.Fits := ⟨⟨by decide, by decide⟩, by decide, by decide⟩
  obtain ⟨whole, parts⟩ := ofJsonText_written fits
  obtain ⟨written, read⟩ := parts (· == "style") fun _ name => name == "max_region_rects"
  exact ⟨fits, whole, written, read _ written⟩

end Settings

end StyledWidgets
