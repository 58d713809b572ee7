/-
This file says that a parameter map is read by its labels only.

Of all entries, the first of each label counts, so a map is read as the list that
keeps these and is sorted by label. Entries with other keys, entries that repeat
an earlier label and the order of different labels have no influence. Reading
succeeds exactly when the kept entries have the right form, and otherwise it is
refused for the lowest label that has not.
-/

import Mathlib.Data.List.Sort
import Mathlib.Tactic.IntervalCases
import Oscore.Proofs.ParameterCodec
import Oscore.Proofs.Requirements

namespace Oscore.InputParameters

/-! ### Labels of entries -/

/-- The label of a key. Keys that are no integers count as the label 0, which no parameter has. -/
def labelOf : Cbor.Item → Int
  | .integer label => label
  | _ => 0

/-- An entry whose label may be one of a parameter. -/
def Known (entry : Cbor.Item × Cbor.Item) : Prop :=
  1 ≤ labelOf entry.1 ∧ labelOf entry.1 ≤ 7

instance (entry : Cbor.Item × Cbor.Item) : Decidable (Known entry) :=
  inferInstanceAs (Decidable (_ ∧ _))

/-- The entries with a label, in their order. -/
def under (label : Int) (entries : List (Cbor.Item × Cbor.Item)) : List (Cbor.Item × Cbor.Item) :=
  entries.filter fun entry => labelOf entry.1 = label

/-- Only the first entry of each label. -/
def firsts : List (Cbor.Item × Cbor.Item) → List (Cbor.Item × Cbor.Item)
  | [] => []
  | entry :: entries =>
    entry :: (firsts entries).filter fun other => labelOf other.1 ≠ labelOf entry.1

/-- The first entry of each label from 1 to 7, sorted by label. -/
def kept (entries : List (Cbor.Item × Cbor.Item)) : List (Cbor.Item × Cbor.Item) :=
  (firsts (entries.filter fun entry => Known entry)).insertionSort
    fun first second => labelOf first.1 ≤ labelOf second.1

section Entries

variable {label : Int} {entries others : List (Cbor.Item × Cbor.Item)} {parameter : Parameter}
  {item : Cbor.Item}

theorem mem_under {entry : Cbor.Item × Cbor.Item} :
    entry ∈ under label entries ↔ entry ∈ entries ∧ labelOf entry.1 = label := by
  rw [under, List.mem_filter, decide_eq_true_iff]

theorem under_cons_of_eq {entry : Cbor.Item × Cbor.Item} (same : labelOf entry.1 = label) :
    under label (entry :: entries) = entry :: under label entries :=
  List.filter_cons_of_pos (decide_eq_true same)

theorem under_cons_of_ne {entry : Cbor.Item × Cbor.Item} (differs : labelOf entry.1 ≠ label) :
    under label (entry :: entries) = under label entries :=
  List.filter_cons_of_neg fun equal => differs (of_decide_eq_true equal)

theorem under_append (label : Int) (front back : List (Cbor.Item × Cbor.Item)) :
    under label (front ++ back) = under label front ++ under label back :=
  List.filter_append ..

theorem Parameter.one_le_label (parameter : Parameter) : 1 ≤ parameter.label := by
  cases parameter <;> decide

theorem Parameter.label_le_seven (parameter : Parameter) : parameter.label ≤ 7 := by
  cases parameter <;> decide

/-- A key with the label of a parameter is that integer. -/
theorem labelOf_eq_label {key : Cbor.Item} :
    labelOf key = parameter.label ↔ key = .integer parameter.label := by
  constructor
  · intro same
    have positive := parameter.one_le_label
    cases key with
    | integer label => exact congrArg Cbor.Item.integer same
    | _ =>
      change 0 = parameter.label at same
      omega
  · rintro rfl
    rfl

/-- A lookup takes the first entry with the label. -/
theorem lookup_eq_head? (parameter : Parameter) (entries : List (Cbor.Item × Cbor.Item)) :
    lookup parameter.label entries = (under parameter.label entries).head?.map Prod.snd := by
  induction entries with
  | nil => rfl
  | cons entry entries inductionHypothesis =>
    obtain ⟨key, value⟩ := entry
    by_cases same : key = .integer parameter.label
    · subst same
      rw [lookup, if_pos rfl, under_cons_of_eq (labelOf_eq_label.mpr rfl)]
      rfl
    · have step : lookup parameter.label ((key, value) :: entries) =
          lookup parameter.label entries := by
        cases key with
        | integer label => rw [lookup, if_neg fun equal => same (congrArg Cbor.Item.integer equal)]
        | _ => rfl
      rw [step, inductionHypothesis, under_cons_of_ne fun equal => same (labelOf_eq_label.mp equal)]

/-! ### What is kept -/

theorem under_known (low : 1 ≤ label) (high : label ≤ 7) (entries : List (Cbor.Item × Cbor.Item)) :
    under label (entries.filter fun entry => Known entry) = under label entries := by
  rw [under, under, List.filter_filter]
  refine List.filter_congr fun entry _ => ?_
  rw [Bool.and_eq_left_iff_imp]
  intro same
  have same := of_decide_eq_true same
  exact decide_eq_true ⟨same ▸ low, same ▸ high⟩

/-- Under each label, the first entry is kept. -/
theorem under_firsts (label : Int) (entries : List (Cbor.Item × Cbor.Item)) :
    under label (firsts entries) = (under label entries).take 1 := by
  induction entries with
  | nil => rfl
  | cons entry entries inductionHypothesis =>
    by_cases same : labelOf entry.1 = label
    · have others : under label ((firsts entries).filter fun other =>
          labelOf other.1 ≠ labelOf entry.1) = [] := by
        rw [under, List.filter_filter, List.filter_eq_nil_iff]
        intro other _ both
        rw [Bool.and_eq_true, decide_eq_true_iff, decide_eq_true_iff] at both
        exact both.2 (both.1.trans same.symm)
      rw [firsts, under_cons_of_eq same, under_cons_of_eq same, others]
      rfl
    · rw [firsts, under_cons_of_ne same, under_cons_of_ne same, ← inductionHypothesis, under, under,
        List.filter_filter]
      refine List.filter_congr fun other _ => ?_
      rw [Bool.and_eq_left_iff_imp]
      intro equal
      exact decide_eq_true fun shared => same (shared ▸ of_decide_eq_true equal)

/-- Of the entries under a label, the first is kept. -/
theorem under_kept (low : 1 ≤ label) (high : label ≤ 7) :
    under label (kept entries) = (under label entries).take 1 := by
  have sorted : (under label (kept entries)).Perm ((under label entries).take 1) := by
    rw [← under_known low high entries, ← under_firsts, kept]
    exact List.Perm.filter _ (List.perm_insertionSort _ _)
  -- a list of at most one entry has no other order
  cases rest : under label entries with
  | nil =>
    rw [rest] at sorted
    exact sorted.eq_nil
  | cons entry rest =>
    rw [rest] at sorted
    exact sorted.eq_singleton

theorem lookup_eq_some_iff_mem_kept :
    lookup parameter.label entries = some item ↔
      (.integer parameter.label, item) ∈ kept entries := by
  have labels : under parameter.label (kept entries) = (under parameter.label entries).take 1 :=
    under_kept parameter.one_le_label parameter.label_le_seven
  have member : (.integer parameter.label, item) ∈ kept entries ↔
      (.integer parameter.label, item) ∈ (under parameter.label entries).take 1 := by
    rw [← labels, mem_under]
    exact (and_iff_left rfl).symm
  rw [member, lookup_eq_head?]
  cases found : under parameter.label entries with
  | nil => simp
  | cons entry rest =>
    have key : entry.1 = .integer parameter.label :=
      labelOf_eq_label.mp (mem_under.mp (found ▸ List.mem_cons_self)).2
    simp [Prod.ext_iff, key, eq_comm]

/-! ### What has no influence -/

/-- Maps are read alike when the first entries of each label are the same. -/
theorem ofItem_congr (same : ∀ parameter : Parameter,
      (under parameter.label others).head? = (under parameter.label entries).head?) :
    ofItem (.map others) = ofItem (.map entries) := by
  have found (parameter : Parameter) :
      lookup parameter.label others = lookup parameter.label entries := by
    rw [lookup_eq_head?, lookup_eq_head?, same]
  have must (parameter : Parameter) : required others parameter = required entries parameter := by
    rw [required, required, found]
  have may {Value : Type} (read : Parameter → Cbor.Item → Except Refusal Value)
      (parameter : Parameter) :
      optional read others parameter = optional read entries parameter := by
    rw [optional, optional, found]
  simp only [ofItem, ofEntries, must, may]

theorem ofItem_kept (entries : List (Cbor.Item × Cbor.Item)) :
    ofItem (.map (kept entries)) = ofItem (.map entries) := by
  refine ofItem_congr fun parameter => ?_
  rw [under_kept parameter.one_le_label parameter.label_le_seven, List.head?_take,
    if_neg Nat.one_ne_zero]

/-- An entry may be left out if its label is unknown or stands before it. -/
theorem ofItem_left_out {front back : List (Cbor.Item × Cbor.Item)} {entry : Cbor.Item × Cbor.Item}
    (ignored : Known entry → ∃ earlier ∈ front, labelOf earlier.1 = labelOf entry.1) :
    ofItem (.map (front ++ back)) = ofItem (.map (front ++ entry :: back)) := by
  refine ofItem_congr fun parameter => ?_
  by_cases same : labelOf entry.1 = parameter.label
  · obtain ⟨earlier, member, equal⟩ :=
      ignored ⟨same ▸ parameter.one_le_label, same ▸ parameter.label_le_seven⟩
    have inside : earlier ∈ under parameter.label front :=
      mem_under.mpr ⟨member, equal.trans same⟩
    rw [under_append, under_append, List.head?_append_of_ne_nil _ (List.ne_nil_of_mem inside),
      List.head?_append_of_ne_nil _ (List.ne_nil_of_mem inside)]
  · rw [under_append, under_append, under_cons_of_ne same]

end Entries

/-! ### Forms -/

/-- The parameters that must be there. -/
def Parameter.Mandatory (parameter : Parameter) : Prop := parameter.label ≤ 3

instance (parameter : Parameter) : Decidable parameter.Mandatory :=
  inferInstanceAs (Decidable (parameter.label ≤ 3))

/-- The items that a parameter takes: integers of 64 bits with a sign for the algorithms, and byte
strings otherwise. -/
def Parameter.Takes : Parameter → Cbor.Item → Prop
  | .kdf, item | .aead, item =>
    ∃ number, item = .integer number ∧ -2 ^ 63 ≤ number ∧ number < 2 ^ 63
  | _, item => ∃ bytes, item = .bytes bytes

/-- What is said about a parameter whose item has the wrong type. -/
def Parameter.mistyped : Parameter → ParameterFault
  | .kdf => .notInteger Parameter.kdf.name
  | .aead => .notInteger Parameter.aead.name
  | parameter => .notBytes parameter.name

/-- The entries give a parameter what it takes, and are not without it if it must be there. -/
structure Served (entries : List (Cbor.Item × Cbor.Item)) (parameter : Parameter) : Prop where
  present : parameter.Mandatory → ∃ item, (.integer parameter.label, item) ∈ entries
  typed : ∀ item, (.integer parameter.label, item) ∈ entries → parameter.Takes item

/-- What is wrong with the entries of a parameter. -/
inductive Faulty (entries : List (Cbor.Item × Cbor.Item)) (parameter : Parameter) : Refusal → Prop
  | missing (mandatory : parameter.Mandatory)
      (absent : ∀ item, (.integer parameter.label, item) ∉ entries) :
      Faulty entries parameter (.parameters (.missing parameter.name))
  | mistyped (item : Cbor.Item) (member : (.integer parameter.label, item) ∈ entries)
      (refused : ¬parameter.Takes item) : Faulty entries parameter (.parameters parameter.mistyped)

section Forms

variable {entries : List (Cbor.Item × Cbor.Item)} {parameter : Parameter} {refusal : Refusal}
  {item : Cbor.Item}

/-! ### Reading parameter by parameter -/

theorem checks_readBytes (parameter : Parameter) (item : Cbor.Item) :
    Checks (readBytes parameter item)
      [⟨∃ bytes, item = .bytes bytes, .parameters (.notBytes parameter.name)⟩] := by
  refine checks_single ?_ fun refused => ?_
  · rintro ⟨bytes, rfl⟩
    exact ⟨bytes, rfl⟩
  · cases item with
    | bytes bytes => exact absurd ⟨bytes, rfl⟩ refused
    | _ => rfl

theorem checks_readInteger (parameter : Parameter) (item : Cbor.Item) :
    Checks (readInteger parameter item)
      [⟨∃ number, item = .integer number ∧ -2 ^ 63 ≤ number ∧ number < 2 ^ 63,
        .parameters (.notInteger parameter.name)⟩] := by
  refine checks_single ?_ fun refused => ?_
  · rintro ⟨number, rfl, range⟩
    exact ⟨number, readInteger_integer range⟩
  · cases item with
    | integer number => exact if_neg fun range => refused ⟨number, rfl, range⟩
    | _ => rfl

/-- What a parameter asks of the entries that are kept. -/
def requirement (entries : List (Cbor.Item × Cbor.Item)) (parameter : Parameter) : Requirement where
  met := Served (kept entries) parameter
  refusal := .parameters <| match lookup parameter.label entries with
    | none => .missing parameter.name
    | some _ => parameter.mistyped

/-- A parameter with an entry asks only for its type. -/
theorem served_iff_of_lookup (found : lookup parameter.label entries = some item) :
    Served (kept entries) parameter ↔ parameter.Takes item := by
  constructor
  · intro served
    exact served.typed item (lookup_eq_some_iff_mem_kept.mp found)
  · intro takes
    refine ⟨fun _ => ⟨item, lookup_eq_some_iff_mem_kept.mp found⟩, fun other member => ?_⟩
    rw [← lookup_eq_some_iff_mem_kept, found] at member
    cases member
    exact takes

/-- A parameter without an entry asks only that it may be missing. -/
theorem served_iff_of_absent (absent : lookup parameter.label entries = none) :
    Served (kept entries) parameter ↔ ¬parameter.Mandatory := by
  have unkept (item : Cbor.Item) : (.integer parameter.label, item) ∉ kept entries := by
    rw [← lookup_eq_some_iff_mem_kept, absent]
    exact (Option.some_ne_none item).symm
  constructor
  · intro served mandatory
    obtain ⟨item, member⟩ := served.present mandatory
    exact unkept item member
  · intro free
    exact ⟨fun mandatory => absurd mandatory free,
      fun item member => absurd member (unkept item)⟩

theorem faulty_kept_iff :
    Faulty (kept entries) parameter refusal ↔
      ¬(requirement entries parameter).met ∧ (requirement entries parameter).refusal = refusal := by
  dsimp only [requirement]
  cases found : lookup parameter.label entries with
  | none =>
    rw [served_iff_of_absent found, not_not]
    constructor
    · intro faulty
      cases faulty with
      | missing mandatory => exact ⟨mandatory, rfl⟩
      | mistyped item member =>
        rw [← lookup_eq_some_iff_mem_kept, found] at member
        cases member
    · rintro ⟨mandatory, rfl⟩
      refine .missing mandatory fun item member => ?_
      rw [← lookup_eq_some_iff_mem_kept, found] at member
      cases member
  | some item =>
    rw [served_iff_of_lookup found]
    rw [lookup_eq_some_iff_mem_kept] at found
    constructor
    · intro faulty
      cases faulty with
      | missing mandatory absent => exact absurd found (absent item)
      | mistyped other member refused =>
        rw [← lookup_eq_some_iff_mem_kept] at found member
        cases found.symm.trans member
        exact ⟨refused, rfl⟩
    · rintro ⟨refused, rfl⟩
      exact .mistyped item found refused

theorem checks_required (mandatory : parameter.Mandatory)
    (typed : ∀ item, Checks (readBytes parameter item)
      [⟨parameter.Takes item, .parameters parameter.mistyped⟩]) :
    Checks (required entries parameter) [requirement entries parameter] := by
  rw [required, requirement]
  cases found : lookup parameter.label entries with
  | none =>
    rw [served_iff_of_absent found]
    exact checks_single (fun free => absurd mandatory free) fun _ => rfl
  | some item =>
    rw [served_iff_of_lookup found]
    exact typed item

theorem checks_optional {Value : Type} {read : Parameter → Cbor.Item → Except Refusal Value}
    (free : ¬parameter.Mandatory)
    (typed : ∀ item, Checks (read parameter item)
      [⟨parameter.Takes item, .parameters parameter.mistyped⟩]) :
    Checks (optional read entries parameter) [requirement entries parameter] := by
  rw [optional, requirement]
  cases found : lookup parameter.label entries with
  | none =>
    rw [served_iff_of_absent found]
    exact checks_single (fun _ => ⟨none, rfl⟩) fun mandatory => absurd free mandatory
  | some item =>
    rw [served_iff_of_lookup found]
    exact (typed item).map_ok

/-- Reading entries checks the parameters in the order of their labels. -/
theorem checks_ofEntries (entries : List (Cbor.Item × Cbor.Item)) :
    Checks (ofEntries entries) (Parameter.all.map (requirement entries)) := by
  refine checks_bind (checks_required (by decide) fun _ => checks_readBytes _ _) fun _ _ => ?_
  refine checks_bind (checks_required (by decide) fun _ => checks_readBytes _ _) fun _ _ => ?_
  refine checks_bind (checks_required (by decide) fun _ => checks_readBytes _ _) fun _ _ => ?_
  refine checks_bind (checks_optional (by decide) fun _ => checks_readInteger _ _) fun _ _ => ?_
  refine checks_bind (checks_optional (by decide) fun _ => checks_readInteger _ _) fun _ _ => ?_
  refine checks_bind (checks_optional (by decide) fun _ => checks_readBytes _ _) fun _ _ => ?_
  exact (checks_optional (by decide) fun _ => checks_readBytes _ _).map_ok

/-- Requirements that are listed in an order: the first that is not met comes after those that are
less. -/
theorem firstUnmet_map {Element : Type} {require : Element → Requirement} {rank : Element → Int}
    {elements : List Element}
    (sorted : elements.Pairwise fun first second => rank first < rank second) :
    FirstUnmet (elements.map require) refusal ↔
      ∃ element ∈ elements,
        (∀ earlier ∈ elements, rank earlier < rank element → (require earlier).met) ∧
        ¬(require element).met ∧ (require element).refusal = refusal := by
  induction elements with
  | nil => simp [not_firstUnmet_nil]
  | cons first rest inductionHypothesis =>
    obtain ⟨least, sorted⟩ := List.pairwise_cons.mp sorted
    rw [List.map_cons, firstUnmet_cons, inductionHypothesis sorted]
    constructor
    · rintro (⟨fails, named⟩ | ⟨holds, element, member, earlier, fails⟩)
      · refine ⟨first, List.mem_cons_self, fun other member less => ?_, fails, named⟩
        rcases List.mem_cons.mp member with rfl | member
        · exact absurd less (lt_irrefl _)
        · exact absurd less (least other member).asymm
      · refine ⟨element, List.mem_cons_of_mem _ member, fun other inside less => ?_, fails⟩
        rcases List.mem_cons.mp inside with rfl | inside
        · exact holds
        · exact earlier other inside less
    · rintro ⟨element, member, earlier, fails⟩
      rcases List.mem_cons.mp member with rfl | member
      · exact Or.inl fails
      · exact Or.inr ⟨earlier first List.mem_cons_self (least element member), element, member,
          fun other inside => earlier other (List.mem_cons_of_mem _ inside), fails⟩

theorem Parameter.all_sorted : all.Pairwise fun first second => first.label < second.label := by
  decide

/-! ### What was read -/

theorem lookup_of_required {bytes : Bytes} (read : required entries parameter = .ok bytes) :
    lookup parameter.label entries = some (.bytes bytes) := by
  rw [required] at read
  split at read
  · cases read
  · rename_i item found
    rw [found, readBytes_eq_ok read]

theorem integer_of_readInteger {number : Int} (read : readInteger parameter item = .ok number) :
    item = .integer number := by
  rw [readInteger.eq_def] at read
  split at read
  · split at read
    · cases read
      rfl
    · cases read
  · cases read

theorem lookup_eq_map_of_optional {Value : Type}
    {read : Parameter → Cbor.Item → Except Refusal Value} {write : Value → Cbor.Item}
    {value : Option Value}
    (made : optional read entries parameter = .ok value)
    (unread : ∀ item inner, read parameter item = .ok inner → item = write inner) :
    lookup parameter.label entries = value.map write := by
  rw [optional] at made
  split at made
  · cases made
    assumption
  · rename_i item found
    obtain ⟨inner, taken, rfl⟩ := map_eq_ok.mp made
    rw [found, unread item inner taken]
    rfl

/-- The parameters that were read would be written as the entries they were read from. -/
theorem written_of_ofEntries {parameters : InputParameters}
    (made : ofEntries entries = .ok parameters) (parameter : Parameter) :
    parameters.written parameter = lookup parameter.label entries := by
  obtain ⟨secretRead, clientRead, serverRead, kdfRead, aeadRead, saltRead, contextRead⟩ :=
    ofEntries_eq_ok.mp made
  cases parameter with
  | masterSecret => exact (lookup_of_required secretRead).symm
  | clientId => exact (lookup_of_required clientRead).symm
  | serverId => exact (lookup_of_required serverRead).symm
  | kdf => exact (lookup_eq_map_of_optional kdfRead fun _ _ => integer_of_readInteger).symm
  | aead => exact (lookup_eq_map_of_optional aeadRead fun _ _ => integer_of_readInteger).symm
  | masterSalt => exact (lookup_eq_map_of_optional saltRead fun _ _ => readBytes_eq_ok).symm
  | idContext => exact (lookup_eq_map_of_optional contextRead fun _ _ => readBytes_eq_ok).symm

end Forms

/-! ### Reading by label -/

/-- A map is read as the entries that are kept of it. An entry may be left out if its key is no
integer from 1 to 7 or repeats the label of one before, and entries may change places as long as
those of each label keep their order. Reading succeeds exactly when every parameter is served by
what is kept, and takes it from there; otherwise it is refused for what is wrong with the parameter
of the lowest label that is not served. -/
theorem ofItem_by_label (entries : List (Cbor.Item × Cbor.Item)) :
    ofItem (.map (kept entries)) = ofItem (.map entries) ∧
    (∀ front entry back, entries = front ++ entry :: back →
      (Known entry → ∃ earlier ∈ front, labelOf earlier.1 = labelOf entry.1) →
        ofItem (.map (front ++ back)) = ofItem (.map entries)) ∧
    (∀ others, (∀ label, 1 ≤ label → label ≤ 7 → under label others = under label entries) →
      ofItem (.map others) = ofItem (.map entries)) ∧
    ((∃ parameters, ofItem (.map entries) = .ok parameters) ↔
      ∀ parameter, Served (kept entries) parameter) ∧
    (∀ parameters, ofItem (.map entries) = .ok parameters → ∀ parameter item,
      item ∈ parameters.written parameter ↔ (.integer parameter.label, item) ∈ kept entries) ∧
    ∀ refusal, ofItem (.map entries) = .error refusal ↔
      ∃ parameter, Faulty (kept entries) parameter refusal ∧
        ∀ earlier : Parameter, earlier.label < parameter.label → Served (kept entries) earlier := by
  have checks : Checks (ofItem (.map entries)) _ := checks_ofEntries entries
  refine ⟨ofItem_kept entries, ?_, ?_, ?_, ?_, ?_⟩
  · rintro front entry back rfl ignored
    exact ofItem_left_out ignored
  · intro others same
    refine ofItem_congr fun parameter => ?_
    rw [same _ parameter.one_le_label parameter.label_le_seven]
  · rw [checks.isOk_iff, List.forall_mem_map]
    exact ⟨fun served parameter => served parameter parameter.mem_all,
      fun served parameter _ => served parameter⟩
  · intro parameters made parameter item
    rw [written_of_ofEntries made]
    exact lookup_eq_some_iff_mem_kept
  · intro refusal
    rw [checks refusal, firstUnmet_map Parameter.all_sorted]
    constructor
    · rintro ⟨parameter, -, earlier, unmet⟩
      exact ⟨parameter, faulty_kept_iff.mpr unmet, fun other => earlier other other.mem_all⟩
    · rintro ⟨parameter, faulty, earlier⟩
      exact ⟨parameter, parameter.mem_all, fun other _ => earlier other, faulty_kept_iff.mp faulty⟩

/-- A text that looks like a label, an integer beyond 64 bits, and two identifiers of the client:
the first is no byte string, so the second is not asked. Without the text, or with the other
parameters in another place, the client's identifier is still what is wrong; with its two entries
exchanged, the map is accepted. -/
theorem ofItem_by_label_shadowed :
    let entries : List (Cbor.Item × Cbor.Item) :=
      [(.text "1", .null), (.integer 3, .bytes [3]), (.integer 2, .integer 5),
        (.integer (2 ^ 64), .null), (.integer 1, .bytes [1]), (.integer 2, .bytes [2])]
    let others : List (Cbor.Item × Cbor.Item) :=
      [(.integer 1, .bytes [1]), (.integer 2, .integer 5), (.integer 2, .bytes [2]),
        (.integer 3, .bytes [3])]
    kept entries = [(.integer 1, .bytes [1]), (.integer 2, .integer 5), (.integer 3, .bytes [3])] ∧
      ofItem (.map entries) = .error (.parameters (.notBytes "client id")) ∧
      ofItem (.map entries.tail) = ofItem (.map entries) ∧
      ofItem (.map others) = ofItem (.map entries) ∧
      ofItem (.map entries.reverse) =
        .ok { masterSecret := [1], clientId := [2], serverId := [3] } := by
  intro entries others
  obtain ⟨-, leftOut, reordered, -, -, refused⟩ := ofItem_by_label entries
  have unknown : ¬Known (.text "1", .null) := by decide
  have clientId : Faulty (kept entries) .clientId (.parameters (.notBytes "client id")) := by
    refine .mistyped (.integer 5) (lookup_eq_some_iff_mem_kept.mp rfl) ?_
    rintro ⟨bytes, same⟩
    cases same
  refine ⟨rfl, (refused _).mpr ⟨.clientId, clientId, fun earlier less => ?_⟩,
    leftOut [] _ _ rfl fun known => absurd known unknown,
    reordered others fun label low high => ?_, rfl⟩
  · cases earlier with
    | masterSecret =>
      have found : lookup Parameter.masterSecret.label entries = some (.bytes [1]) := rfl
      exact (served_iff_of_lookup found).mpr ⟨[1], rfl⟩
    | _ => exact absurd less (by decide)
  · interval_cases label <;> rfl

end Oscore.InputParameters
