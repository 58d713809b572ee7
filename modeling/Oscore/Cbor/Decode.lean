/-
This file reads CBOR data items.

The reader takes one item from the front of a byte string and leaves the rest.
It accepts more than the writer produces: heads that are longer than needed,
containers and strings of indefinite length, and big integers that fit 64
bits. A big integer of sixteen bytes that is too negative for a signed number
of that width is refused. Containers and tags may be nested 256 deep.
-/

import Oscore.Cbor.Item

namespace Oscore.Cbor

/-! ### Heads -/

/-- What stands at the front of an item. A missing length or count is indefinite. -/
inductive Head
  | unsigned (value : Nat)
  | negative (value : Nat)
  | bytes (length : Option Nat)
  | text (length : Option Nat)
  | array (count : Option Nat)
  | map (count : Option Nat)
  | tag (number : Nat)
  | simple (number : Nat)
  | float (bits : Nat)
  | stop
  deriving DecidableEq, Repr

/-- A big-endian number of `width` bytes from the front of a byte string. -/
def readNumber (width : Nat) (input : Bytes) : Option (Nat × Bytes) :=
  (input.split? width).map fun (front, rest) => (front.toNat, rest)

/-- The argument that the low five bits of a head announce: `some none` is an indefinite one,
and the values 28 to 30 announce nothing. -/
def readArgument (low : Nat) (input : Bytes) : Option (Option Nat × Bytes) :=
  if low < 24 then some (some low, input)
  else if low = 31 then some (none, input)
  else if low < 28 then
    (readNumber (1 <<< (low - 24)) input).map fun (value, rest) => (some value, rest)
  else none

/-- The head of simple values and floating-point numbers, told apart by the low five bits. -/
def simpleHead (low : Nat) : Option Nat → Head
  | none => .stop
  | some value =>
    if low = 25 then .float (Float.half.widen value)
    else if low = 26 then .float (Float.single.widen value)
    else if low = 27 then .float value
    else .simple value

/-- The head of an item with this major type and argument. Integers and tags need an argument. -/
def headOf (major : Major) (low : Nat) (argument : Option Nat) : Option Head :=
  match major with
  | .unsigned => argument.map .unsigned
  | .negative => argument.map .negative
  | .bytes => some (.bytes argument)
  | .text => some (.text argument)
  | .array => some (.array argument)
  | .map => some (.map argument)
  | .tag => argument.map .tag
  | .simple => some (simpleHead low argument)

/-- Reads a head. -/
def readHead : Bytes → Option (Head × Bytes)
  | [] => none
  | first :: input =>
    let low := first.toNat % 32
    match readArgument low input with
    | none => none
    | some (argument, rest) =>
      (headOf (Major.ofNumber (first.toNat / 32)) low argument).map fun head => (head, rest)

/-! ### Strings -/

/-- The pieces of a string of indefinite length, up to the stop that ends the outermost of
`depth` open strings. The function `lengthOf` says which heads continue the string, and at most
`fuel` heads are read. -/
def readPieces (lengthOf : Head → Option (Option Nat)) :
    (fuel depth : Nat) → Bytes → Option (List Bytes × Bytes)
  | 0, _, _ => none
  | fuel + 1, depth, input =>
    match readHead input with
    | none => none
    | some (.stop, rest) =>
      if depth ≤ 1 then some ([], rest) else readPieces lengthOf fuel (depth - 1) rest
    | some (head, rest) =>
      match lengthOf head with
      | none => none
      | some none => readPieces lengthOf fuel (depth + 1) rest
      | some (some length) =>
        match rest.split? length with
        | none => none
        | some (piece, rest) =>
          (readPieces lengthOf fuel depth rest).map fun (pieces, rest) => (piece :: pieces, rest)

/-- The length that a byte string head announces. -/
def Head.bytesLength : Head → Option (Option Nat)
  | .bytes length => some length
  | _ => none

/-- The length that a text head announces. -/
def Head.textLength : Head → Option (Option Nat)
  | .text length => some length
  | _ => none

/-- The pieces of a string whose head announced this length. -/
def readString (lengthOf : Head → Option (Option Nat)) (length : Option Nat) (input : Bytes) :
    Option (List Bytes × Bytes) :=
  match length with
  | some length => (input.split? length).map fun (piece, rest) => ([piece], rest)
  | none => readPieces lengthOf (input.length + 1) 1 input

/-! ### Containers -/

/-- Reads as often as the count says. -/
def readMany {Element : Type} (read : Bytes → Option (Element × Bytes)) :
    (count : Nat) → Bytes → Option (List Element × Bytes)
  | 0, input => some ([], input)
  | count + 1, input =>
    match read input with
    | none => none
    | some (element, rest) =>
      (readMany read count rest).map fun (elements, rest) => (element :: elements, rest)

/-- Reads until a stop, at most `fuel` times. -/
def readUntilStop {Element : Type} (read : Bytes → Option (Element × Bytes)) :
    (fuel : Nat) → Bytes → Option (List Element × Bytes)
  | 0, _ => none
  | fuel + 1, input =>
    match readHead input with
    | some (.stop, rest) => some ([], rest)
    | _ =>
      match read input with
      | none => none
      | some (element, rest) =>
        (readUntilStop read fuel rest).map fun (elements, rest) => (element :: elements, rest)

/-- Reads the elements of a container whose head announced this count. -/
def readElements {Element : Type} (read : Bytes → Option (Element × Bytes)) (count : Option Nat)
    (input : Bytes) : Option (List Element × Bytes) :=
  match count with
  | some count => readMany read count input
  | none => readUntilStop read (input.length + 1) input

/-- Reads a key and its value. -/
def readEntry (read : Bytes → Option (Item × Bytes)) (input : Bytes) :
    Option ((Item × Item) × Bytes) :=
  match read input with
  | none => none
  | some (key, rest) => (read rest).map fun (value, rest) => ((key, value), rest)

/-! ### Items -/

/-- The length of the byte string that tag 2 or 3 takes for a big integer, and the bytes after
its head: the string has a definite length of at most sixteen bytes. -/
def bigIntegerLength? (tag : Nat) (input : Bytes) : Option (Nat × Bytes) :=
  match readHead input with
  | some (.bytes (some length), rest) =>
    if (tag = 2 ∨ tag = 3) ∧ length ≤ 16 then some (length, rest) else none
  | _ => none

/-- The item that tag 2 or 3 makes of a number: an integer if it fits 64 bits, and otherwise the
tagged byte string of the number. A negative one must fit a signed number of sixteen bytes. -/
def bigInteger? (tag value : Nat) : Option Item :=
  if value < (1 <<< 64) then some (.integer (if tag = 2 then .ofNat value else .negSucc value))
  else if tag = 3 ∧ (1 <<< 127) ≤ value then none
  else some (.tagged tag (.bytes (Bytes.shortest value)))

/-- The item that a simple value stands for. -/
def simpleItem : Nat → Option Item
  | 20 => some (.bool false)
  | 21 => some (.bool true)
  | 22 => some .null
  | 23 => some .null
  | _ => none

/-- Reads an item, given the reader of the items inside it if it may have any. -/
def readItem (inner : Option (Bytes → Option (Item × Bytes))) (input : Bytes) :
    Option (Item × Bytes) :=
  match readHead input with
  | none => none
  | some (.unsigned value, rest) => some (.integer (.ofNat value), rest)
  | some (.negative value, rest) => some (.integer (.negSucc value), rest)
  | some (.bytes length, rest) =>
    (readString Head.bytesLength length rest).map fun (pieces, rest) =>
      (.bytes pieces.flatten, rest)
  | some (.text length, rest) =>
    match readString Head.textLength length rest with
    | none => none
    | some (pieces, rest) =>
      (pieces.mapM Bytes.toString?).map fun texts => (.text (String.join texts), rest)
  | some (.array count, rest) =>
    match inner with
    | none => none
    | some read => (readElements read count rest).map fun (items, rest) => (.array items, rest)
  | some (.map count, rest) =>
    match inner with
    | none => none
    | some read =>
      (readElements (readEntry read) count rest).map fun (entries, rest) => (.map entries, rest)
  | some (.tag tag, rest) =>
    match bigIntegerLength? tag rest with
    | some (length, rest) =>
      match readNumber length rest with
      | none => none
      | some (value, rest) => (bigInteger? tag value).map fun item => (item, rest)
    | none =>
      match inner with
      | none => none
      | some read => (read rest).map fun (item, rest) => (.tagged tag item, rest)
  | some (.simple number, rest) => (simpleItem number).map fun item => (item, rest)
  | some (.float bits, rest) => some (.float bits, rest)
  | some (.stop, _) => none

/-- Reads an item inside which containers and tags nest at most `depth` deep. -/
def readNested : (depth : Nat) → Bytes → Option (Item × Bytes)
  | 0 => readItem none
  | depth + 1 => readItem (some (readNested depth))

/-- How deep containers and tags may nest. -/
def nestingLimit : Nat := 256

/-- Reads one item and leaves the rest of the bytes. -/
def Item.read? (input : Bytes) : Option (Item × Bytes) := readNested nestingLimit input

/-- The item at the front of a byte string; whatever follows it is ignored. -/
def Item.decode? (input : Bytes) : Option Item := (Item.read? input).map Prod.fst

end Oscore.Cbor
