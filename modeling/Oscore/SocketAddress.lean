/-
This file reads the addresses of endpoints.

An address is a version 4 or version 6 address with a port. Two spellings of
one version 6 address give the same value, and a version 6 address is never
equal to a version 4 address, even when it stands for one. Two version 6
addresses are equal only if their flow informations and scopes are, too.
-/

import Oscore.Bytes

namespace Oscore

/-- An address and a port. -/
inductive SocketAddress
  /-- Four octets, first octet first. -/
  | version4 (octets : List Nat) (port : Nat)
  /-- Eight groups of 16 bits, the flow information, and the scope for which the address is
  valid. -/
  | version6 (groups : List Nat) (flow scope port : Nat)
  deriving DecidableEq, Repr

namespace SocketAddress

/-- A number in decimal digits, at most `limit`. -/
def decimal? (limit : Nat) (digits : List Char) : Option Nat :=
  if digits ≠ [] ∧ digits.all Char.isDigit then
    let value := digits.foldl (fun total digit => total * 10 + (digit.toNat - 48)) 0
    if value ≤ limit then some value else none
  else none

/-- An octet: at most three decimal digits without leading zeros. -/
def octet? (digits : List Char) : Option Nat :=
  if digits.length ≤ 3 ∧ (digits.length ≤ 1 ∨ digits.head? ≠ some '0') then decimal? 255 digits
  else none

/-- Four octets with dots between them. -/
def octets? (text : List Char) : Option (List Nat) :=
  let parts := text.splitOn '.'
  if parts.length = 4 then parts.mapM octet? else none

/-- A group: one to four hexadecimal digits. -/
def group? (digits : List Char) : Option Nat :=
  if digits ≠ [] ∧ digits.length ≤ 4 then
    (digits.mapM Bytes.digitValue?).map (List.foldl (fun total digit => total * 16 + digit) 0)
  else none

/-- Groups with colons between them; the last two may be written as four octets if `octets`
says so. -/
def groups? (octets : Bool) : List (List Char) → Option (List Nat)
  | [] => some []
  | [last] =>
    match group? last with
    | some group => some [group]
    | none =>
      match if octets then octets? last else none with
      | some [first, second, third, fourth] =>
        some [first * 256 + second, third * 256 + fourth]
      | _ => none
  | first :: rest =>
    match group? first, groups? octets rest with
    | some group, some groups => some (group :: groups)
    | _, _ => none

/-- Groups from a text, none from the empty text. -/
def groupsOf? (octets : Bool) (text : List Char) : Option (List Nat) :=
  if text = [] then some [] else groups? octets (text.splitOn ':')

/-- The text before the first double colon and the text after it, if there is one. -/
def splitAtGap : List Char → Option (List Char × List Char)
  | ':' :: ':' :: rest => some ([], rest)
  | char :: rest => (splitAtGap rest).map fun (before, after) => (char :: before, after)
  | [] => none

/-- A version 6 address: eight groups, of which a double colon may leave out some. -/
def version6? (text : List Char) : Option (List Nat) :=
  match splitAtGap text with
  | none =>
    match groupsOf? true text with
    | some groups => if groups.length = 8 then some groups else none
    | none => none
  | some (before, after) =>
    match groupsOf? false before, groupsOf? true after with
    | some front, some back =>
      if front.length + back.length < 8 then
        some (front ++ List.replicate (8 - front.length - back.length) 0 ++ back)
      else none
    | _, _ => none

/-- The part of a text before the last occurrence of a character, and the part after it. -/
def splitAtLast (char : Char) (text : List Char) : Option (List Char × List Char) :=
  if char ∈ text then
    let after := text.reverse.takeWhile (· ≠ char)
    some (text.take (text.length - after.length - 1), after.reverse)
  else none

/-- Reads `address:port`, or `[address]:port` and `[address%scope]:port` for version 6. A text
carries no flow information. -/
def parse? (text : String) : Option SocketAddress := do
  let (address, port) ← splitAtLast ':' text.toList
  let port ← decimal? 65535 port
  match address with
  | '[' :: inner =>
    let (inner, after) ← splitAtLast ']' inner
    if after ≠ [] then none
    match splitAtLast '%' inner with
    | some (address, scope) =>
      return .version6 (← version6? address) 0 (← decimal? 0xffffffff scope) port
    | none => return .version6 (← version6? inner) 0 0 port
  | _ => return .version4 (← octets? address) port

end SocketAddress

end Oscore
