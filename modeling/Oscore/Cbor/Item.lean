/-
This file defines CBOR data items and writes them.

An item is written in one way only: definite lengths, the shortest head for
every argument, and the shortest floating-point width that keeps every bit.
Keys derived from an item therefore depend on the item alone.
-/

import Oscore.Bytes
import Oscore.Cbor.Float

namespace Oscore.Cbor

/-- A CBOR data item. Integers lie between `-2 ^ 64` and `2 ^ 64 - 1`. -/
inductive Item
  | integer (value : Int)
  | bytes (value : Bytes)
  | text (value : String)
  /-- A floating-point number, given by its 64 bits. -/
  | float (bits : Nat)
  | bool (value : Bool)
  | null
  | array (items : List Item)
  /-- A map with its entries in order; keys may repeat. -/
  | map (entries : List (Item × Item))
  | tagged (tag : Nat) (item : Item)
  deriving Inhabited, Repr

/-! ### Heads -/

/-- The major types, which fill the upper three bits of a head. -/
inductive Major
  | unsigned | negative | bytes | text | array | map | tag | simple
  deriving DecidableEq, Repr

namespace Major

/-- The number of a major type. -/
def number : Major → Nat
  | unsigned => 0
  | negative => 1
  | bytes => 2
  | text => 3
  | array => 4
  | map => 5
  | tag => 6
  | simple => 7

/-- The major type of a number; all numbers from seven on are simple values. -/
def ofNumber : Nat → Major
  | 0 => unsigned
  | 1 => negative
  | 2 => bytes
  | 3 => text
  | 4 => array
  | 5 => map
  | 6 => tag
  | _ => simple

end Major

/-- A head: the major type and an argument below `2 ^ 64` in the shortest of the five forms. -/
def head (major : Major) (argument : Nat) : Bytes :=
  let first (low : Nat) : UInt8 := UInt8.ofNat (major.number * 32 + low)
  if argument < 24 then [first argument]
  else if argument < 0x100 then first 24 :: Bytes.bigEndian 1 argument
  else if argument < 0x10000 then first 25 :: Bytes.bigEndian 2 argument
  else if argument < 0x100000000 then first 26 :: Bytes.bigEndian 4 argument
  else first 27 :: Bytes.bigEndian 8 argument

/-! ### Writing items -/

/-- An integer: its value, or minus one minus its value when it is negative. -/
def encodeInteger : Int → Bytes
  | .ofNat value => head .unsigned value
  | .negSucc value => head .negative value

/-- A floating-point number in the shortest width that keeps its bits. -/
def encodeFloat (bits : Nat) : Bytes :=
  match Float.half.narrow? bits with
  | some short => 0xf9 :: Bytes.bigEndian 2 short
  | none =>
    match Float.single.narrow? bits with
    | some short => 0xfa :: Bytes.bigEndian 4 short
    | none => 0xfb :: Bytes.bigEndian 8 bits

mutual

/-- The encoding of an item. -/
def Item.encode : Item → Bytes
  | .integer value => encodeInteger value
  | .bytes value => head .bytes value.length ++ value
  | .text value => head .text (Bytes.ofString value).length ++ Bytes.ofString value
  | .float bits => encodeFloat bits
  | .bool value => [if value then 0xf5 else 0xf4]
  | .null => [0xf6]
  | .array items => head .array items.length ++ encodeItems items
  | .map entries => head .map entries.length ++ encodeEntries entries
  | .tagged tag item => head .tag tag ++ item.encode

/-- The encodings of items, one after the other. -/
def encodeItems : List Item → Bytes
  | [] => []
  | item :: items => item.encode ++ encodeItems items

/-- The encodings of keys and values, in turn. -/
def encodeEntries : List (Item × Item) → Bytes
  | [] => []
  | (key, value) :: entries => key.encode ++ (value.encode ++ encodeEntries entries)

end

end Oscore.Cbor
