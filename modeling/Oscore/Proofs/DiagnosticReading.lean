/-
This file says that diagnostic texts can be read in one way only. Names and
numbers are made of plain characters, what is quoted, listed or grouped ends with
a mark of its own, and behind a value stands a separator or the end of what holds
it. So a value can be cut off the front of a longer text, and values with one text
are the same: a text tells everything that was put into it.
-/

import Mathlib.Logic.Basic
import Oscore.Diagnostic

namespace Oscore.Diagnostic

/-! ### Texts as characters -/

/-- Whether a character can stand in a name or in a number. -/
def isPlain (char : Char) : Bool := char.isAlphanum || char = '_' || char = '-'

/-- Whether a text has the characters of a name or a number only. -/
def isName (text : String) : Bool := text.toList.all isPlain

/-- What stands between two separators among fields: a field, or the dots for fields that are not
shown. -/
def partText : Option (String × Diagnostic) → List Char
  | none => ['.', '.']
  | some (name, value) => name.toList ++ ':' :: ' ' :: value.render.toList

/-- What stands between separators in fields. -/
def parts (shown : List (String × Diagnostic)) (complete : Bool) :
    List (Option (String × Diagnostic)) :=
  shown.map some ++ if complete then [] else [none]

/-- The plain characters that the text of a value begins with. -/
def front : Diagnostic → List Char
  | word text => text.toList
  | quoted _ | list _ => []
  | present _ => ['S', 'o', 'm', 'e']
  | fields name _ _ => name.toList

/-- The text of a value behind the plain characters that it begins with. -/
def body : Diagnostic → List Char
  | word _ => []
  | quoted text => '"' :: (text.toList ++ ['"'])
  | list elements => '[' :: ([',', ' '].intercalate (elements.map (·.render.toList)) ++ [']'])
  | present value => '(' :: (value.render.toList ++ [')'])
  | fields _ shown complete =>
    ' ' :: '{' :: ' ' :: ([',', ' '].intercalate ((parts shown complete).map partText) ++
      [' ', '}'])

theorem renderList_eq (elements : List Diagnostic) :
    renderList elements = elements.map render := by
  induction elements with
  | nil => rfl
  | cons element rest inductionHypothesis => rw [renderList, inductionHypothesis, List.map_cons]

theorem renderFields_eq (shown : List (String × Diagnostic)) :
    renderFields shown = shown.map fun field => field.1 ++ ": " ++ field.2.render := by
  induction shown with
  | nil => rfl
  | cons field rest inductionHypothesis =>
    obtain ⟨name, value⟩ := field
    rw [renderFields, inductionHypothesis, List.map_cons]

theorem toList_render (value : Diagnostic) : value.render.toList = value.front ++ value.body := by
  cases value with
  | word text => rw [render, front, body, List.append_nil]
  | quoted text =>
    rw [render, String.toList_append, String.toList_append]
    rfl
  | list elements =>
    rw [render, String.toList_append, String.toList_append, String.toList_intercalate,
      renderList_eq, List.map_map]
    rfl
  | present value =>
    rw [render, String.toList_append, String.toList_append]
    rfl
  | fields name shown complete =>
    have shownParts : (renderFields shown ++ if complete then [] else [".."]).map String.toList =
        (parts shown complete).map partText := by
      rw [renderFields_eq, parts, List.map_append, List.map_append, List.map_map, List.map_map]
      congr 1
      · refine List.map_congr_left fun field _ => ?_
        show (field.1 ++ ": " ++ field.2.render).toList = _
        rw [String.toList_append, String.toList_append, List.append_assoc]
        rfl
      · cases complete <;> rfl
    simp only [render, String.toList_append, String.toList_intercalate, shownParts,
      List.append_assoc]
    rfl

/-! ### Values whose parts can be told apart -/

/-- A value whose text says where each of its parts ends. -/
inductive Legible : Diagnostic → Prop
  | word {text : String} (nonempty : text ≠ "") (plain : isName text) : Legible (word text)
  | quoted {text : String} (unquoted : text.toList.all (· ≠ '"')) : Legible (quoted text)
  | list {elements : List Diagnostic} (each : ∀ element ∈ elements, Legible element) :
      Legible (list elements)
  | present {value : Diagnostic} (legible : Legible value) : Legible (present value)
  | fields {name : String} {shown : List (String × Diagnostic)} {complete : Bool}
      (plain : isName name) (names : shown.all fun field => isName field.1)
      (values : ∀ field ∈ shown, Legible field.2) : Legible (fields name shown complete)

/-- What can stand behind a value: nothing, a separator, or the end of what holds the value. -/
inductive Follows : List Char → Prop
  | nothing : Follows []
  | separator (rest : List Char) : Follows (',' :: ' ' :: rest)
  | bracket (rest : List Char) : Follows (']' :: rest)
  | parenthesis (rest : List Char) : Follows (')' :: rest)
  | brace (rest : List Char) : Follows (' ' :: '}' :: rest)

/-- Characters of one kind end where others begin. -/
theorem append_inj_of_takeWhile {kind : Char → Bool} {first second rest others : List Char}
    (firstKind : first.all kind) (secondKind : second.all kind)
    (restEnds : rest.takeWhile kind = []) (othersEnd : others.takeWhile kind = [])
    (same : first ++ rest = second ++ others) : first = second ∧ rest = others := by
  have fronts := congrArg (List.takeWhile kind) same
  rw [List.takeWhile_append_of_pos (List.all_eq_true.mp firstKind),
    List.takeWhile_append_of_pos (List.all_eq_true.mp secondKind), restEnds, othersEnd,
    List.append_nil, List.append_nil] at fronts
  subst fronts
  exact ⟨rfl, List.append_cancel_left same⟩

theorem takeWhile_body {value : Diagnostic} {rest : List Char} (follows : Follows rest) :
    (value.body ++ rest).takeWhile isPlain = [] := by
  cases value with
  | word text => cases follows <;> rfl
  | _ => rfl

theorem Legible.plain_front {value : Diagnostic} (legible : value.Legible) :
    value.front.all isPlain := by
  cases legible with
  | word _ plain => exact plain
  | fields plain _ _ => exact plain
  | _ => rfl

/-! ### Sequences -/

section Sequences

variable {Part : Type} {text : Part → List Char} {mark : Char} {rest others : List Char}
  {first second : List Part}

/-- The text of further parts of a sequence, each behind a separator, and of what follows. -/
def further (text : Part → List Char) (ending : List Char) : List Part → List Char
  | [] => ending
  | part :: parts => ',' :: ' ' :: (text part ++ further text ending parts)

theorem intercalate_append (text : Part → List Char) (ending : List Char) (part : Part)
    (parts : List Part) :
    [',', ' '].intercalate ((part :: parts).map text) ++ ending =
      text part ++ further text ending parts := by
  induction parts generalizing part with
  | nil =>
    rw [List.map_cons, List.map_nil, List.intercalate_singleton]
    rfl
  | cons next parts inductionHypothesis =>
    rw [List.map_cons, List.map_cons, List.intercalate_cons_cons, ← List.map_cons,
      List.append_assoc, inductionHypothesis, List.append_assoc]
    rfl

theorem Follows.further {ending : List Char} (follows : Follows ending) (parts : List Part) :
    Follows (further text ending parts) := by
  cases parts with
  | nil => exact follows
  | cons part parts => exact .separator _

/-- Whether the text of each part can be cut off the front of a longer one in one way only. -/
def Separable (text : Part → List Char) (first second : List Part) : Prop :=
  ∀ part ∈ first, ∀ other ∈ second, ∀ {rest others : List Char}, Follows rest → Follows others →
    text part ++ rest = text other ++ others → part = other ∧ rest = others

theorem further_inj (separable : Separable text first second) (unseparated : mark ≠ ',')
    (follows : Follows (mark :: rest)) (otherFollows : Follows (mark :: others))
    (same : further text (mark :: rest) first = further text (mark :: others) second) :
    first = second ∧ rest = others := by
  induction first generalizing second with
  | nil =>
    cases second with
    | nil => exact ⟨rfl, (List.cons.inj same).2⟩
    | cons other parts => exact absurd (List.cons.inj same).1 unseparated
  | cons part parts inductionHypothesis =>
    cases second with
    | nil => exact absurd (List.cons.inj same).1.symm unseparated
    | cons other otherParts =>
      obtain ⟨-, same⟩ := List.cons.inj same
      obtain ⟨-, same⟩ := List.cons.inj same
      obtain ⟨rfl, behind⟩ := separable part List.mem_cons_self other List.mem_cons_self
        (follows.further parts) (otherFollows.further otherParts) same
      obtain ⟨rfl, equal⟩ := inductionHypothesis
        (fun part member other otherMember => separable part (List.mem_cons_of_mem _ member) other
          (List.mem_cons_of_mem _ otherMember)) behind
      exact ⟨rfl, equal⟩

/-- Sequences are the same when their texts are, if their parts can be cut off and none begins as
the end does. -/
theorem intercalate_append_inj (separable : Separable text first second) (unseparated : mark ≠ ',')
    (begins : ∀ part, part ∈ first ∨ part ∈ second → ∃ char chars,
      text part = char :: chars ∧ char ≠ mark)
    (follows : Follows (mark :: rest)) (otherFollows : Follows (mark :: others))
    (same : [',', ' '].intercalate (first.map text) ++ mark :: rest =
      [',', ' '].intercalate (second.map text) ++ mark :: others) :
    first = second ∧ rest = others := by
  cases first with
  | nil =>
    cases second with
    | nil => exact ⟨rfl, (List.cons.inj same).2⟩
    | cons other parts =>
      obtain ⟨char, chars, begun, different⟩ := begins other (Or.inr List.mem_cons_self)
      rw [intercalate_append, begun] at same
      exact absurd (List.cons.inj same).1.symm different
  | cons part parts =>
    cases second with
    | nil =>
      obtain ⟨char, chars, begun, different⟩ := begins part (Or.inl List.mem_cons_self)
      rw [intercalate_append, begun] at same
      exact absurd (List.cons.inj same).1 different
    | cons other otherParts =>
      rw [intercalate_append, intercalate_append] at same
      exact further_inj separable unseparated follows otherFollows
        (congrArg (fun chars => ',' :: ' ' :: chars) same)

end Sequences

/-! ### Reading -/

theorem ne_of_isPlain {char mark : Char} (plain : isPlain char) (other : isPlain mark = false) :
    char ≠ mark := by
  rintro rfl
  exact Bool.false_ne_true (other.symm.trans plain)

/-- Values with one text in front of something begin alike and go on alike. -/
theorem Legible.cut {value other : Diagnostic} (legible : value.Legible)
    (otherLegible : other.Legible) {rest others : List Char} (follows : Follows rest)
    (otherFollows : Follows others)
    (same : value.render.toList ++ rest = other.render.toList ++ others) :
    value.front = other.front ∧ value.body ++ rest = other.body ++ others := by
  rw [toList_render, toList_render, List.append_assoc, List.append_assoc] at same
  exact append_inj_of_takeWhile legible.plain_front otherLegible.plain_front
    (takeWhile_body follows) (takeWhile_body otherFollows) same

/-- No value begins as a list ends. -/
theorem Legible.begins {value : Diagnostic} (legible : value.Legible) :
    ∃ char chars, value.render.toList = char :: chars ∧ char ≠ ']' := by
  have plain := legible.plain_front
  rw [toList_render]
  cases fronts : value.front with
  | cons char chars =>
    rw [fronts, List.all_cons, Bool.and_eq_true] at plain
    exact ⟨char, chars ++ value.body, rfl, ne_of_isPlain plain.1 (by decide)⟩
  | nil =>
    cases legible with
    | word nonempty _ => exact absurd (String.toList_eq_nil_iff.mp fronts) nonempty
    | _ => exact ⟨_, _, rfl, by decide⟩

/-! ### Fields -/

section Fields

variable {shown otherShown : List (String × Diagnostic)} {complete otherComplete : Bool}

theorem mem_parts {part : Option (String × Diagnostic)} :
    part ∈ parts shown complete ↔ (∃ field ∈ shown, some field = part) ∨
      complete = false ∧ part = none := by
  rw [parts, List.mem_append, List.mem_map]
  cases complete <;> simp

theorem parts_inj (same : parts shown complete = parts otherShown otherComplete) :
    shown = otherShown ∧ complete = otherComplete := by
  have fields (shown : List (String × Diagnostic)) (complete : Bool) :
      (parts shown complete).filterMap id = shown := by
    rw [parts, List.filterMap_append, List.filterMap_map]
    cases complete <;> simp
  have dots (shown : List (String × Diagnostic)) (complete : Bool) :
      none ∈ parts shown complete ↔ ¬complete := by
    rw [mem_parts]
    simp
  refine ⟨?_, Bool.eq_iff_iff.mpr (not_iff_not.mp ?_)⟩
  · rw [← fields shown complete, same, fields]
  · rw [← dots shown, same, dots]

/-- No field begins as fields end. -/
theorem begins_partText (names : shown.all fun field => isName field.1)
    {part : Option (String × Diagnostic)} (member : part ∈ parts shown complete) :
    ∃ char chars, partText part = char :: chars ∧ char ≠ ' ' := by
  obtain ⟨⟨name, value⟩, there, rfl⟩ | ⟨-, rfl⟩ := mem_parts.mp member
  · have plain : name.toList.all isPlain := List.all_eq_true.mp names _ there
    rw [partText]
    cases fronts : name.toList with
    | nil => exact ⟨_, _, rfl, by decide⟩
    | cons char chars =>
      rw [fronts, List.all_cons, Bool.and_eq_true] at plain
      exact ⟨char, _, rfl, ne_of_isPlain plain.1 (by decide)⟩
  · exact ⟨_, _, rfl, by decide⟩

/-- Fields can be cut off when their values can. -/
theorem separable_partText (names : shown.all fun field => isName field.1)
    (otherNames : otherShown.all fun field => isName field.1)
    (values : ∀ field ∈ shown, ∀ other ∈ otherShown, ∀ {rest others : List Char}, Follows rest →
      Follows others → field.2.render.toList ++ rest = other.2.render.toList ++ others →
        field.2 = other.2 ∧ rest = others) :
    Separable partText (parts shown complete) (parts otherShown otherComplete) := by
  have named {name : String} (plain : isName name) (value : Diagnostic) (rest others : List Char) :
      partText (some (name, value)) ++ rest ≠ partText none ++ others := by
    intro same
    have nameless : name.toList ++ ':' :: ' ' :: value.render.toList ++ rest =
        [] ++ ('.' :: '.' :: others) := same
    rw [List.append_assoc] at nameless
    obtain ⟨-, dots⟩ := append_inj_of_takeWhile plain rfl rfl rfl nameless
    exact absurd (List.cons.inj dots).1 (by decide)
  rw [List.all_eq_true] at names otherNames
  intro part member other otherMember rest others follows otherFollows same
  obtain ⟨⟨name, value⟩, there, rfl⟩ | ⟨-, rfl⟩ := mem_parts.mp member
  · obtain ⟨⟨otherName, otherValue⟩, otherThere, rfl⟩ | ⟨-, rfl⟩ := mem_parts.mp otherMember
    · rw [partText, partText, List.append_assoc, List.append_assoc] at same
      obtain ⟨sameNames, behind⟩ :=
        append_inj_of_takeWhile (names _ there) (otherNames _ otherThere) rfl rfl same
      obtain ⟨sameValues, ends⟩ := values _ there _ otherThere follows otherFollows
        (List.cons.inj (List.cons.inj behind).2).2
      exact ⟨congrArg some (Prod.ext (String.toList_inj.mp sameNames) sameValues), ends⟩
    · exact absurd same (named (names _ there) value rest others)
  · obtain ⟨⟨otherName, otherValue⟩, otherThere, rfl⟩ | ⟨-, rfl⟩ := mem_parts.mp otherMember
    · exact absurd same.symm (named (otherNames _ otherThere) otherValue others rest)
    · exact ⟨rfl, List.append_cancel_left same⟩

end Fields

/-! ### Whole values -/

/-- A value can be cut off the front of a text in one way only. -/
theorem Legible.append_inj {value other : Diagnostic} (legible : value.Legible)
    (otherLegible : other.Legible) {rest others : List Char} (follows : Follows rest)
    (otherFollows : Follows others)
    (same : value.render.toList ++ rest = other.render.toList ++ others) :
    value = other ∧ rest = others := by
  induction legible generalizing other rest others with
  | word nonempty plain =>
    obtain ⟨fronts, bodies⟩ := (word nonempty plain).cut otherLegible follows otherFollows same
    cases otherLegible with
    | word => exact ⟨congrArg Diagnostic.word (String.toList_inj.mp fronts), bodies⟩
    | _ => cases follows <;> simp [body] at bodies
  | quoted unquoted =>
    obtain ⟨-, bodies⟩ := (quoted unquoted).cut otherLegible follows otherFollows same
    cases otherLegible with
    | quoted otherUnquoted =>
      simp only [body, List.cons_append, List.append_assoc, List.cons.injEq, true_and,
        List.nil_append] at bodies
      obtain ⟨texts, ends⟩ := append_inj_of_takeWhile unquoted otherUnquoted rfl rfl bodies
      exact ⟨congrArg Diagnostic.quoted (String.toList_inj.mp texts), (List.cons.inj ends).2⟩
    | word => cases otherFollows <;> simp [body] at bodies
    | _ => simp [body] at bodies
  | list each inductionHypothesis =>
    obtain ⟨-, bodies⟩ := (list each).cut otherLegible follows otherFollows same
    cases otherLegible with
    | list otherEach =>
      simp only [body, List.cons_append, List.append_assoc, List.cons.injEq, true_and,
        List.nil_append] at bodies
      obtain ⟨rfl, rfl⟩ := intercalate_append_inj
        (fun part member other otherMember =>
          inductionHypothesis part member (otherEach other otherMember))
        (by decide)
        (fun part member => member.elim (fun there => (each part there).begins)
          fun there => (otherEach part there).begins)
        (.bracket rest) (.bracket others) bodies
      exact ⟨rfl, rfl⟩
    | word => cases otherFollows <;> simp [body] at bodies
    | _ => simp [body] at bodies
  | present legible inductionHypothesis =>
    obtain ⟨-, bodies⟩ := (present legible).cut otherLegible follows otherFollows same
    cases otherLegible with
    | present otherLegible =>
      simp only [body, List.cons_append, List.append_assoc, List.cons.injEq, true_and,
        List.nil_append] at bodies
      obtain ⟨rfl, ends⟩ := inductionHypothesis otherLegible (.parenthesis rest)
        (.parenthesis others) bodies
      exact ⟨rfl, (List.cons.inj ends).2⟩
    | word => cases otherFollows <;> simp [body] at bodies
    | _ => simp [body] at bodies
  | fields plain names values inductionHypothesis =>
    obtain ⟨fronts, bodies⟩ :=
      (fields plain names values).cut otherLegible follows otherFollows same
    cases otherLegible with
    | fields _ otherNames otherValues =>
      simp only [body, List.cons_append, List.append_assoc, List.cons.injEq, true_and,
        List.nil_append] at bodies
      obtain ⟨sameParts, ends⟩ := intercalate_append_inj
        (separable_partText names otherNames fun field member other otherMember =>
          inductionHypothesis field member (otherValues other otherMember))
        (by decide)
        (fun part member => member.elim (begins_partText names) (begins_partText otherNames))
        (.brace rest) (.brace others) bodies
      obtain ⟨rfl, rfl⟩ := parts_inj sameParts
      cases String.toList_inj.mp fronts
      exact ⟨rfl, (List.cons.inj ends).2⟩
    | word => cases otherFollows <;> simp [body] at bodies
    | _ => simp [body] at bodies

/-- Values with one text are the same. -/
theorem Legible.render_inj {value other : Diagnostic} (legible : value.Legible)
    (otherLegible : other.Legible) : value.render = other.render ↔ value = other := by
  refine ⟨fun same => ?_, congrArg render⟩
  exact (legible.append_inj otherLegible .nothing .nothing
    (congrArg (fun text => text.toList ++ []) same)).1

end Oscore.Diagnostic
