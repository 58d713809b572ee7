/-
This file says that reading undoes writing: an item that was written, with
whatever bytes after it, is read again, and those bytes are left. The item must
fit, that is, its numbers must fit the heads and its containers may not nest too
deep. So no encoding is the beginning of another, and items with one encoding are
the same.

Reading accepts more than writing gives. What it gives is no larger than what it
reads, though: the byte strings of an item together are no longer than the bytes
that were taken for it.
-/

import Mathlib.Algebra.Group.Int.Defs
import Oscore.Cbor.Decode
import Oscore.Proofs.ByteNumbers

namespace Oscore

/-! ### Byte strings -/

theorem Bytes.split?_append (front rest : Bytes) :
    (front ++ rest).split? front.length = some (front, rest) := by
  rw [split?, List.take_left, List.drop_left]
  exact if_pos rfl

theorem Bytes.split?_eq_some {bytes front rest : Bytes} {count : Nat}
    (cut : bytes.split? count = some (front, rest)) :
    front.length = count ∧ bytes = front ++ rest := by
  rw [split?] at cut
  split at cut
  · rename_i enough
    cases cut
    exact ⟨enough, (List.take_append_drop count bytes).symm⟩
  · cases cut

/-- A text is read back from its bytes. -/
theorem Bytes.toString?_ofString (text : String) : toString? (ofString text) = some text := by
  have bytes : (⟨(ofString text).toArray⟩ : ByteArray) = text.toUTF8 := by
    rw [ofString, Array.toArray_toList]
  rw [toString?, bytes, String.fromUTF8?]
  exact dif_pos text.isValidUTF8

namespace Cbor

/-! ### Reading heads -/

theorem readNumber_bigEndian {width number : Nat} (small : number < 256 ^ width) (rest : Bytes) :
    readNumber width (Bytes.bigEndian width number ++ rest) = some (number, rest) := by
  have cut := Bytes.split?_append (Bytes.bigEndian width number) rest
  rw [Bytes.length_bigEndian] at cut
  rw [readNumber, cut, Option.map_some]
  dsimp only
  rw [Bytes.toNat_bigEndian, Nat.mod_eq_of_lt small]

/-- The first byte of a head tells its major type and its low five bits. -/
theorem readHead_first (major : Major) {low : Nat} (short : low < 32) (rest : Bytes) :
    readHead (UInt8.ofNat (major.number * 32 + low) :: rest) =
      match readArgument low rest with
      | none => none
      | some (argument, rest) => (headOf major low argument).map fun found => (found, rest) := by
  have number : major.number < 8 := by cases major <;> decide
  have byte : (UInt8.ofNat (major.number * 32 + low)).toNat = major.number * 32 + low := by
    rw [UInt8.toNat_ofNat']
    omega
  have high : (major.number * 32 + low) / 32 = major.number := by omega
  have bits : (major.number * 32 + low) % 32 = low := by omega
  have same : Major.ofNumber major.number = major := by cases major <;> rfl
  cases found : readArgument low rest with
  | none => simp only [readHead, byte, bits, found]
  | some argument => simp only [readHead, byte, high, bits, same, found]

/-- An argument of `1 <<< index` bytes is read behind the low bits that announce it. -/
theorem readArgument_wide {index argument : Nat} (wide : index < 4)
    (small : argument < 256 ^ (1 <<< index)) (rest : Bytes) :
    readArgument (24 + index) (Bytes.bigEndian (1 <<< index) argument ++ rest) =
      some (some argument, rest) := by
  rw [readArgument, if_neg (by omega), if_neg (by omega), if_pos (by omega),
    Nat.add_sub_cancel_left, readNumber_bigEndian small]
  rfl

/-- A head is read again. Only simple values depend on the form of the argument. -/
theorem readHead_head {major : Major} (plain : major ≠ .simple) {argument : Nat}
    (small : argument < 2 ^ 64) (rest : Bytes) :
    readHead (head major argument ++ rest) =
      (headOf major 0 (some argument)).map fun found => (found, rest) := by
  have form (low : Nat) : headOf major low (some argument) = headOf major 0 (some argument) := by
    cases major <;> first | rfl | exact absurd rfl plain
  have wide (index : Nat) (inside : index < 4) (fits : argument < 256 ^ (1 <<< index)) :
      readHead (UInt8.ofNat (major.number * 32 + (24 + index)) ::
          (Bytes.bigEndian (1 <<< index) argument ++ rest)) =
        (headOf major 0 (some argument)).map fun found => (found, rest) := by
    rw [readHead_first major (by omega), readArgument_wide inside fits, ← form (24 + index)]
  have eight : (2 : Nat) ^ 64 = 256 ^ (1 <<< 3) := by decide
  rw [eight] at small
  rw [head]
  dsimp only
  split
  · rename_i tiny
    have direct : readArgument argument rest = some (some argument, rest) := if_pos tiny
    rw [List.singleton_append, readHead_first major (by omega), direct, ← form argument]
  split
  · exact wide 0 (by decide) (by assumption)
  split
  · exact wide 1 (by decide) (by assumption)
  split
  · exact wide 2 (by decide) (by assumption)
  · exact wide 3 (by decide) small

/-- A floating-point number stands behind its head in two, four or eight bytes. -/
theorem readHead_float {index number : Nat} (wide : index < 4)
    (small : number < 256 ^ (1 <<< index)) (rest : Bytes) :
    readHead (UInt8.ofNat (Major.simple.number * 32 + (24 + index)) ::
        (Bytes.bigEndian (1 <<< index) number ++ rest)) =
      some (simpleHead (24 + index) (some number), rest) := by
  rw [readHead_first .simple (by omega), readArgument_wide wide small]
  rfl

/-! ### Written items -/

/-- An item that can be written and read: its numbers fit their heads, and containers and tags
nest in it at most `depth` deep. Tags 2 and 3 are left out, since they stand for numbers, which
the reader may return as integers. -/
inductive Item.Fits : Nat → Item → Prop
  | integer {depth : Nat} {value : Int} (low : -2 ^ 64 ≤ value) (high : value < 2 ^ 64) :
      Fits depth (.integer value)
  | bytes {depth : Nat} {value : Bytes} (short : value.length < 2 ^ 64) :
      Fits depth (.bytes value)
  | text {depth : Nat} {value : String} (short : (Bytes.ofString value).length < 2 ^ 64) :
      Fits depth (.text value)
  | float {depth bits : Nat} (small : bits < 2 ^ 64) : Fits depth (.float bits)
  | bool {depth : Nat} (value : Bool) : Fits depth (.bool value)
  | null {depth : Nat} : Fits depth .null
  | array {depth : Nat} {items : List Item} (few : items.length < 2 ^ 64)
      (inside : ∀ item ∈ items, Fits depth item) : Fits (depth + 1) (.array items)
  | map {depth : Nat} {entries : List (Item × Item)} (few : entries.length < 2 ^ 64)
      (keys : ∀ entry ∈ entries, Fits depth entry.1)
      (values : ∀ entry ∈ entries, Fits depth entry.2) : Fits (depth + 1) (.map entries)
  | tagged {depth tag : Nat} {item : Item} (small : tag < 2 ^ 64) (plain : tag ≠ 2 ∧ tag ≠ 3)
      (inside : Fits depth item) : Fits (depth + 1) (.tagged tag item)

theorem encodeItems_eq (items : List Item) : encodeItems items = items.flatMap Item.encode := by
  induction items with
  | nil => rfl
  | cons item items inductionHypothesis =>
    rw [encodeItems, inductionHypothesis, List.flatMap_cons]

theorem encodeEntries_eq (entries : List (Item × Item)) :
    encodeEntries entries = entries.flatMap fun entry => entry.1.encode ++ entry.2.encode := by
  induction entries with
  | nil => rfl
  | cons entry entries inductionHypothesis =>
    rw [encodeEntries, inductionHypothesis, List.flatMap_cons, List.append_assoc]

/-! ### Reading items without members -/

/-- What is read without a reader for the items inside an item is read at every depth. -/
theorem readNested_eq_some {input rest : Bytes} {item : Item}
    (reads : ∀ inner, readItem inner input = some (item, rest)) (depth : Nat) :
    readNested depth input = some (item, rest) := by
  cases depth with
  | zero => exact reads none
  | succ depth => exact reads (some (readNested depth))

theorem readItem_integer (inner : Option (Bytes → Option (Item × Bytes))) {value : Int}
    (low : -2 ^ 64 ≤ value) (high : value < 2 ^ 64) (rest : Bytes) :
    readItem inner (encodeInteger value ++ rest) = some (.integer value, rest) := by
  cases value with
  | ofNat value =>
    have small : value < 2 ^ 64 := by
      rw [Int.ofNat_eq_natCast] at high
      omega
    rw [encodeInteger, readItem, readHead_head (by decide) small]
    rfl
  | negSucc value =>
    have small : value < 2 ^ 64 := by
      rw [Int.negSucc_eq] at low
      omega
    rw [encodeInteger, readItem, readHead_head (by decide) small]
    rfl

theorem readItem_bytes (inner : Option (Bytes → Option (Item × Bytes))) {value : Bytes}
    (short : value.length < 2 ^ 64) (rest : Bytes) :
    readItem inner (head .bytes value.length ++ value ++ rest) = some (.bytes value, rest) := by
  have cut : readString Head.bytesLength (some value.length) (value ++ rest) =
      some ([value], rest) := by
    rw [readString, Bytes.split?_append]
    rfl
  rw [List.append_assoc, readItem, readHead_head (by decide) short]
  dsimp only [headOf, Option.map_some]
  rw [cut, Option.map_some, List.flatten_singleton]

theorem readItem_text (inner : Option (Bytes → Option (Item × Bytes))) {value : String}
    (short : (Bytes.ofString value).length < 2 ^ 64) (rest : Bytes) :
    readItem inner (head .text (Bytes.ofString value).length ++ Bytes.ofString value ++ rest) =
      some (.text value, rest) := by
  have cut : readString Head.textLength (some (Bytes.ofString value).length)
      (Bytes.ofString value ++ rest) = some ([Bytes.ofString value], rest) := by
    rw [readString, Bytes.split?_append]
    rfl
  have text : [Bytes.ofString value].mapM Bytes.toString? = some [value] := by
    rw [List.mapM_cons, Bytes.toString?_ofString]
    rfl
  rw [List.append_assoc, readItem, readHead_head (by decide) short]
  dsimp only [headOf, Option.map_some]
  rw [cut]
  dsimp only
  rw [text, Option.map_some]
  exact congrArg (fun joined => some (Item.text joined, rest)) String.empty_append

/-- A narrower number has the same bits once it is widened. -/
theorem Float.Format.narrow?_eq_some {format : Float.Format} {bits short : Nat}
    (narrowed : format.narrow? bits = some short) :
    short < 1 <<< (1 + format.exponent + format.fraction) ∧ format.widen short = bits := by
  rw [narrow?] at narrowed
  split at narrowed
  · rename_i lossless
    cases narrowed
    exact lossless.2
  · cases narrowed

theorem readItem_float (inner : Option (Bytes → Option (Item × Bytes))) {bits : Nat}
    (small : bits < 2 ^ 64) (rest : Bytes) :
    readItem inner (encodeFloat bits ++ rest) = some (.float bits, rest) := by
  have reads (index number : Nat) (wide : index < 4) (fits : number < 256 ^ (1 <<< index))
      (same : simpleHead (24 + index) (some number) = .float bits) :
      readItem inner (UInt8.ofNat (Major.simple.number * 32 + (24 + index)) ::
        (Bytes.bigEndian (1 <<< index) number ++ rest)) = some (.float bits, rest) := by
    rw [readItem, readHead_float wide fits, same]
  rw [encodeFloat]
  split
  · rename_i short narrowed
    obtain ⟨fits, same⟩ := Float.Format.narrow?_eq_some narrowed
    exact reads 1 short (by decide) fits (congrArg Head.float same)
  split
  · rename_i short narrowed
    obtain ⟨fits, same⟩ := Float.Format.narrow?_eq_some narrowed
    exact reads 2 short (by decide) fits (congrArg Head.float same)
  · exact reads 3 bits (by decide) small rfl

/-! ### Reading containers -/

/-- A reader that reads each of some written elements reads them one after the other. -/
theorem readMany_flatMap {Element : Type} {read : Bytes → Option (Element × Bytes)}
    {write : Element → Bytes} {elements : List Element}
    (each : ∀ element ∈ elements, ∀ rest, read (write element ++ rest) = some (element, rest))
    (rest : Bytes) :
    readMany read elements.length (elements.flatMap write ++ rest) = some (elements, rest) := by
  induction elements with
  | nil => rfl
  | cons element elements inductionHypothesis =>
    have tail := inductionHypothesis fun other member =>
      each other (List.mem_cons_of_mem element member)
    rw [List.length_cons, List.flatMap_cons, List.append_assoc, readMany,
      each element (List.mem_cons_self ..)]
    dsimp only
    rw [tail, Option.map_some]

theorem readEntry_encode {read : Bytes → Option (Item × Bytes)} {entry : Item × Item}
    (key : ∀ rest, read (entry.1.encode ++ rest) = some (entry.1, rest))
    (value : ∀ rest, read (entry.2.encode ++ rest) = some (entry.2, rest)) (rest : Bytes) :
    readEntry read (entry.1.encode ++ entry.2.encode ++ rest) = some (entry, rest) := by
  rw [List.append_assoc, readEntry, key]
  dsimp only
  rw [value, Option.map_some]

/-- A written item is read again, and whatever follows it is left. -/
theorem readNested_encode {depth : Nat} {item : Item} (fits : item.Fits depth) (rest : Bytes) :
    readNested depth (item.encode ++ rest) = some (item, rest) := by
  induction fits generalizing rest with
  | integer low high =>
    exact readNested_eq_some (fun inner => readItem_integer inner low high rest) _
  | bytes short => exact readNested_eq_some (fun inner => readItem_bytes inner short rest) _
  | text short => exact readNested_eq_some (fun inner => readItem_text inner short rest) _
  | float small => exact readNested_eq_some (fun inner => readItem_float inner small rest) _
  | bool value =>
    refine readNested_eq_some (fun inner => ?_) _
    cases value <;> rfl
  | null => exact readNested_eq_some (fun inner => rfl) _
  | @array depth items few inside inductionHypothesis =>
    have members := readMany_flatMap inductionHypothesis rest
    rw [Item.encode, encodeItems_eq, List.append_assoc, readNested, readItem,
      readHead_head (by decide) few]
    dsimp only [headOf, Option.map_some, readElements]
    rw [members, Option.map_some]
  | @map depth entries few keys values keysRead valuesRead =>
    have members := readMany_flatMap (fun entry member =>
      readEntry_encode (keysRead entry member) (valuesRead entry member)) rest
    rw [Item.encode, encodeEntries_eq, List.append_assoc, readNested, readItem,
      readHead_head (by decide) few]
    dsimp only [headOf, Option.map_some, readElements]
    rw [members, Option.map_some]
  | @tagged depth tag item small plain inside inductionHypothesis =>
    have ordinary (input : Bytes) : bigIntegerLength? tag input = none := by
      rw [bigIntegerLength?]
      split
      · rw [if_neg fun number => number.1.elim plain.1 plain.2]
      · rfl
    rw [Item.encode, List.append_assoc, readNested, readItem, readHead_head (by decide) small]
    dsimp only [headOf, Option.map_some]
    rw [ordinary]
    dsimp only
    rw [inductionHypothesis, Option.map_some]

/-- No written item is the beginning of another one, and no two items are written alike. -/
theorem Item.encode_append_inj {first second : Item} {depth : Nat} (firstFits : first.Fits depth)
    (secondFits : second.Fits depth) {firstRest secondRest : Bytes}
    (same : first.encode ++ firstRest = second.encode ++ secondRest) :
    first = second ∧ firstRest = secondRest := by
  have read := readNested_encode firstFits firstRest
  rw [same, readNested_encode secondFits secondRest] at read
  cases read
  exact ⟨rfl, rfl⟩

/-! ### What is read is no larger -/

mutual

/-- The bytes that the byte strings of an item hold together. -/
def Item.held : Item → Nat
  | .bytes value => value.length
  | .array items => heldByItems items
  | .map entries => heldByEntries entries
  | .tagged _ item => item.held
  | .integer _ | .text _ | .float _ | .bool _ | .null => 0

/-- The bytes that the byte strings of some items hold. -/
def heldByItems : List Item → Nat
  | [] => 0
  | item :: items => item.held + heldByItems items

/-- The bytes that the byte strings of some keys and values hold. -/
def heldByEntries : List (Item × Item) → Nat
  | [] => 0
  | (key, value) :: entries => key.held + value.held + heldByEntries entries

end

/-- The sizes of some elements together. -/
def total {Element : Type} (size : Element → Nat) : List Element → Nat
  | [] => 0
  | element :: elements => size element + total size elements

theorem heldByItems_eq (items : List Item) : heldByItems items = total Item.held items := by
  induction items with
  | nil => rfl
  | cons item items inductionHypothesis => rw [heldByItems, inductionHypothesis, total]

/-- The bytes that the byte strings of a key and its value hold. -/
def heldByEntry (entry : Item × Item) : Nat := entry.1.held + entry.2.held

theorem heldByEntries_eq (entries : List (Item × Item)) :
    heldByEntries entries = total heldByEntry entries := by
  induction entries with
  | nil => rfl
  | cons entry entries inductionHypothesis =>
    rw [heldByEntries, inductionHypothesis, total, heldByEntry]

theorem total_length (pieces : List Bytes) : total List.length pieces = pieces.flatten.length := by
  induction pieces with
  | nil => rfl
  | cons piece pieces inductionHypothesis =>
    rw [total, inductionHypothesis, List.flatten_cons, List.length_append]

/-- A reader takes at least as many bytes as `size` finds in what it returns. -/
def Covers {Element : Type} (size : Element → Nat) (read : Bytes → Option (Element × Bytes)) :
    Prop :=
  ∀ {input rest : Bytes} {element : Element},
    read input = some (element, rest) → size element + rest.length ≤ input.length

/-- An item that is made of what a reader returns is covered if it holds the same. -/
theorem Covers.wrap {Element : Type} {size : Element → Nat}
    {read : Bytes → Option (Element × Bytes)} (covers : Covers size read) {make : Element → Item}
    (same : ∀ element, (make element).held = size element) :
    Covers Item.held fun input => (read input).map fun (element, rest) => (make element, rest) := by
  intro input rest item made
  obtain ⟨⟨element, back⟩, found, pair⟩ := Option.map_eq_some_iff.mp made
  cases pair
  rw [same]
  exact covers found

theorem split?_covers (count : Nat) : Covers List.length (Bytes.split? count) := by
  intro input rest front cut
  obtain ⟨-, rfl⟩ := Bytes.split?_eq_some cut
  exact Nat.le_of_eq List.length_append.symm

theorem readNumber_eq_some {width value : Nat} {input rest : Bytes}
    (read : readNumber width input = some (value, rest)) :
    value < 256 ^ width ∧ width + rest.length = input.length := by
  obtain ⟨⟨front, back⟩, cut, same⟩ := Option.map_eq_some_iff.mp read
  cases same
  obtain ⟨rfl, rfl⟩ := Bytes.split?_eq_some cut
  exact ⟨Bytes.toNat_lt front, List.length_append.symm⟩

theorem length_of_readArgument {low : Nat} {input rest : Bytes} {argument : Option Nat}
    (read : readArgument low input = some (argument, rest)) : rest.length ≤ input.length := by
  rw [readArgument] at read
  split at read
  · cases read
    exact Nat.le_refl _
  split at read
  · cases read
    exact Nat.le_refl _
  split at read
  · obtain ⟨⟨value, back⟩, number, same⟩ := Option.map_eq_some_iff.mp read
    cases same
    exact (readNumber_eq_some number).2 ▸ Nat.le_add_left _ _
  · cases read

/-- A head takes a byte at least. -/
theorem length_of_readHead {found : Head} {input rest : Bytes}
    (read : readHead input = some (found, rest)) : rest.length < input.length := by
  cases input with
  | nil => cases read
  | cons first input =>
    rw [readHead] at read
    split at read
    · cases read
    · rename_i argument back taken
      obtain ⟨head, -, same⟩ := Option.map_eq_some_iff.mp read
      cases same
      exact Nat.lt_succ_of_le (length_of_readArgument taken)

theorem readPieces_covers (lengthOf : Head → Option (Option Nat)) (fuel depth : Nat) :
    Covers (total List.length) (readPieces lengthOf fuel depth) := by
  induction fuel generalizing depth with
  | zero =>
    intro input rest pieces read
    cases read
  | succ fuel inductionHypothesis =>
    intro input rest pieces read
    rw [readPieces] at read
    split at read
    · cases read
    · rename_i back found
      have opened := length_of_readHead found
      split at read
      · cases read
        rw [total]
        omega
      · have bound := inductionHypothesis _ read
        omega
    · rename_i head back _ found
      have opened := length_of_readHead found
      split at read
      · cases read
      · have bound := inductionHypothesis _ read
        omega
      · split at read
        · cases read
        · rename_i piece after cut
          obtain ⟨⟨others, last⟩, more, same⟩ := Option.map_eq_some_iff.mp read
          cases same
          have bound := inductionHypothesis _ more
          have taken := split?_covers _ cut
          rw [total]
          omega

theorem readString_covers (lengthOf : Head → Option (Option Nat)) (length : Option Nat) :
    Covers (total List.length) (readString lengthOf length) := by
  intro input rest pieces read
  cases length with
  | some length =>
    obtain ⟨⟨piece, back⟩, cut, same⟩ := Option.map_eq_some_iff.mp read
    cases same
    exact split?_covers _ cut
  | none => exact readPieces_covers lengthOf _ 1 read

section Containers

variable {Element : Type} {size : Element → Nat} {read : Bytes → Option (Element × Bytes)}

theorem readMany_covers (covers : Covers size read) (count : Nat) :
    Covers (total size) (readMany read count) := by
  induction count with
  | zero =>
    intro input rest elements many
    cases many
    exact Nat.le_of_eq (Nat.zero_add _)
  | succ count inductionHypothesis =>
    intro input rest elements many
    rw [readMany] at many
    split at many
    · cases many
    · rename_i element back first
      obtain ⟨⟨others, last⟩, more, same⟩ := Option.map_eq_some_iff.mp many
      cases same
      have taken := covers first
      have bound := inductionHypothesis more
      rw [total]
      omega

theorem readUntilStop_covers (covers : Covers size read) (fuel : Nat) :
    Covers (total size) (readUntilStop read fuel) := by
  induction fuel with
  | zero =>
    intro input rest elements many
    cases many
  | succ fuel inductionHypothesis =>
    intro input rest elements many
    rw [readUntilStop] at many
    split at many
    · rename_i back stop
      cases many
      have opened := length_of_readHead stop
      rw [total]
      omega
    · split at many
      · cases many
      · rename_i element back first
        obtain ⟨⟨others, last⟩, more, same⟩ := Option.map_eq_some_iff.mp many
        cases same
        have taken := covers first
        have bound := inductionHypothesis more
        rw [total]
        omega

theorem readElements_covers (covers : Covers size read) (count : Option Nat) :
    Covers (total size) (readElements read count) := by
  intro input rest elements many
  cases count with
  | some count => exact readMany_covers covers count many
  | none => exact readUntilStop_covers covers _ many

end Containers

theorem readEntry_covers {read : Bytes → Option (Item × Bytes)} (covers : Covers Item.held read) :
    Covers heldByEntry (readEntry read) := by
  intro input rest entry both
  rw [readEntry] at both
  split at both
  · cases both
  · rename_i key back first
    obtain ⟨⟨value, last⟩, second, same⟩ := Option.map_eq_some_iff.mp both
    cases same
    have taken := covers first
    have bound := covers second
    show key.held + value.held + rest.length ≤ input.length
    omega

theorem length_of_bigIntegerLength? {tag length : Nat} {input rest : Bytes}
    (announced : bigIntegerLength? tag input = some (length, rest)) :
    rest.length < input.length := by
  rw [bigIntegerLength?] at announced
  split at announced
  · rename_i found
    split at announced
    · cases announced
      exact length_of_readHead found
    · cases announced
  · cases announced

/-- The byte string that is left of a big integer is the shortest one, so it is no longer than
the one that was read. -/
theorem held_of_bigInteger? {tag length value : Nat} {item : Item} (small : value < 256 ^ length)
    (made : bigInteger? tag value = some item) : item.held ≤ length := by
  rw [bigInteger?] at made
  split at made
  · cases made
    exact Nat.zero_le _
  · rename_i large
    split at made
    · cases made
    · cases made
      have positive : 0 < length := by
        refine Nat.pos_of_ne_zero fun empty => large ?_
        rw [empty, Nat.pow_zero] at small
        exact Nat.lt_of_lt_of_le small (by decide)
      rw [Item.held, Item.held, Bytes.length_shortest]
      exact Bytes.width_le positive small

theorem held_of_simpleItem {number : Nat} {item : Item} (made : simpleItem number = some item) :
    item.held = 0 := by
  rw [simpleItem.eq_def] at made
  split at made <;> cases made <;> rfl

/-- Reading an item covers its byte strings if reading the items inside it does. -/
theorem readItem_covers {inner : Option (Bytes → Option (Item × Bytes))}
    (covers : ∀ read ∈ inner, Covers Item.held read) : Covers Item.held (readItem inner) := by
  intro input rest item made
  rw [readItem] at made
  cases found : readHead input with
  | none =>
    rw [found] at made
    cases made
  | some opened =>
    obtain ⟨head, back⟩ := opened
    have shorter := length_of_readHead found
    rw [found] at made
    have flat {size : Nat} (none : size = 0) : size + back.length ≤ input.length := by omega
    cases head with
    | unsigned value =>
      cases made
      exact flat rfl
    | negative value =>
      cases made
      exact flat rfl
    | float bits =>
      cases made
      exact flat rfl
    | stop => cases made
    | simple number =>
      obtain ⟨simple, known, same⟩ := Option.map_eq_some_iff.mp made
      cases same
      exact flat (held_of_simpleItem known)
    | bytes length =>
      have same (pieces : List Bytes) :
          (Item.bytes pieces.flatten).held = total List.length pieces := by
        rw [Item.held, total_length]
      have bound := Covers.wrap (readString_covers _ _) same made
      omega
    | text length =>
      dsimp only at made
      split at made
      · cases made
      · rename_i pieces last read
        obtain ⟨texts, -, same⟩ := Option.map_eq_some_iff.mp made
        cases same
        have bound := readString_covers _ _ read
        rw [Item.held]
        omega
    | array count =>
      cases inner with
      | none => cases made
      | some read =>
        have same (items : List Item) : (Item.array items).held = total Item.held items := by
          rw [Item.held, heldByItems_eq]
        have bound := Covers.wrap (readElements_covers (covers read rfl) count) same made
        omega
    | map count =>
      cases inner with
      | none => cases made
      | some read =>
        have same (entries : List (Item × Item)) :
            (Item.map entries).held = total heldByEntry entries := by
          rw [Item.held, heldByEntries_eq]
        have bound := Covers.wrap (readElements_covers (readEntry_covers (covers read rfl)) count)
          same made
        omega
    | tag tag =>
      dsimp only at made
      split at made
      · rename_i length string announced
        have opened := length_of_bigIntegerLength? announced
        split at made
        · cases made
        · rename_i value last number
          obtain ⟨big, built, same⟩ := Option.map_eq_some_iff.mp made
          cases same
          obtain ⟨small, taken⟩ := readNumber_eq_some number
          have bound := held_of_bigInteger? small built
          omega
      · cases inner with
        | none => cases made
        | some read =>
          have same (item : Item) : (Item.tagged tag item).held = item.held := by
            rw [Item.held]
          have bound := Covers.wrap (covers read rfl) same made
          omega

/-- The byte strings of an item are together no longer than the bytes it was read from. -/
theorem readNested_covers (depth : Nat) : Covers Item.held (readNested depth) := by
  induction depth with
  | zero => exact readItem_covers fun read absent => absurd absent (Option.not_mem_none read)
  | succ depth inductionHypothesis =>
    refine readItem_covers fun read member => ?_
    cases member
    exact inductionHypothesis

end Cbor

end Oscore
