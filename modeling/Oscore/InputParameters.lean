/-
This file reads and writes the parameters that a context between a client and a
server is derived from.

They travel as a CBOR map from small integer labels. The first entry of a label
counts; entries with other keys are ignored. What is missing or has the wrong
type is reported in the order of the labels.
-/

import Oscore.Cbor.Decode
import Oscore.SecurityContext

namespace Oscore

/-- The end of the exchange that derives a context. -/
inductive EndpointRole
  | client
  | server
  deriving DecidableEq, Repr

/-- The parameters of a context between a client and a server. -/
structure InputParameters where
  masterSecret : Bytes
  clientId : Bytes
  serverId : Bytes
  kdf : Option Int := none
  aead : Option Int := none
  masterSalt : Option Bytes := none
  idContext : Option Bytes := none
  deriving DecidableEq, Repr

namespace InputParameters

/-! ### Labels -/

/-- A parameter of the map. -/
inductive Parameter
  | masterSecret | clientId | serverId | kdf | aead | masterSalt | idContext
  deriving DecidableEq, Repr

namespace Parameter

/-- All parameters, in the order of their labels. -/
def all : List Parameter :=
  [masterSecret, clientId, serverId, kdf, aead, masterSalt, idContext]

/-- The label of a parameter. -/
def label : Parameter → Int
  | masterSecret => 1
  | clientId => 2
  | serverId => 3
  | kdf => 4
  | aead => 5
  | masterSalt => 6
  | idContext => 7

/-- What a parameter is called in messages about it. -/
def name : Parameter → String
  | masterSecret => "master secret"
  | clientId => "client id"
  | serverId => "server id"
  | kdf => "HKDF algorithm"
  | aead => "AEAD algorithm"
  | masterSalt => "master salt"
  | idContext => "ID context"

end Parameter

/-! ### Reading -/

/-- The value of the first entry with an integer label. -/
def lookup (label : Int) : List (Cbor.Item × Cbor.Item) → Option Cbor.Item
  | [] => none
  | (key, value) :: entries =>
    match key with
    | .integer found => if found = label then some value else lookup label entries
    | _ => lookup label entries

/-- The bytes of a byte string. -/
def readBytes (parameter : Parameter) : Cbor.Item → Except Refusal Bytes
  | .bytes value => .ok value
  | _ => .error (.parameters (.notBytes parameter.name))

/-- The value of an integer of 64 bits with a sign. -/
def readInteger (parameter : Parameter) : Cbor.Item → Except Refusal Int
  | .integer value =>
    if -0x8000000000000000 ≤ value ∧ value < 0x8000000000000000 then .ok value
    else .error (.parameters (.notInteger parameter.name))
  | _ => .error (.parameters (.notInteger parameter.name))

/-- Reads a parameter that may be missing. -/
def optional {Value : Type} (read : Parameter → Cbor.Item → Except Refusal Value)
    (entries : List (Cbor.Item × Cbor.Item)) (parameter : Parameter) :
    Except Refusal (Option Value) :=
  match lookup parameter.label entries with
  | none => .ok none
  | some item => (read parameter item).map some

/-- Reads a parameter that must be there. -/
def required (entries : List (Cbor.Item × Cbor.Item)) (parameter : Parameter) :
    Except Refusal Bytes :=
  match lookup parameter.label entries with
  | none => .error (.parameters (.missing parameter.name))
  | some item => readBytes parameter item

/-- Reads the entries of a parameter map. -/
def ofEntries (entries : List (Cbor.Item × Cbor.Item)) : Except Refusal InputParameters := do
  let masterSecret ← required entries .masterSecret
  let clientId ← required entries .clientId
  let serverId ← required entries .serverId
  let kdf ← optional readInteger entries .kdf
  let aead ← optional readInteger entries .aead
  let masterSalt ← optional readBytes entries .masterSalt
  let idContext ← optional readBytes entries .idContext
  return { masterSecret, clientId, serverId, kdf, aead, masterSalt, idContext }

/-- Reads a parameter map. -/
def ofItem : Cbor.Item → Except Refusal InputParameters
  | .map entries => ofEntries entries
  | _ => .error (.parameters .notMap)

/-- Reads an encoded parameter map; whatever follows it is ignored. -/
def decode (bytes : Bytes) : Except Refusal InputParameters :=
  match Cbor.Item.decode? bytes with
  | some item => ofItem item
  | none => .error (.parameters .undecodable)

/-! ### Writing -/

/-- The entry of a parameter, if it has a value. -/
def entry {Value : Type} (parameter : Parameter) (write : Value → Cbor.Item) :
    Option Value → List (Cbor.Item × Cbor.Item)
  | none => []
  | some value => [(.integer parameter.label, write value)]

/-- The parameter map, without the parameters that are missing. -/
def toItem (parameters : InputParameters) : Cbor.Item :=
  .map (entry .masterSecret .bytes (some parameters.masterSecret)
    ++ entry .clientId .bytes (some parameters.clientId)
    ++ entry .serverId .bytes (some parameters.serverId)
    ++ entry .kdf .integer parameters.kdf
    ++ entry .aead .integer parameters.aead
    ++ entry .masterSalt .bytes parameters.masterSalt
    ++ entry .idContext .bytes parameters.idContext)

/-- The encoded parameter map. -/
def encode (parameters : InputParameters) : Bytes := parameters.toItem.encode

/-! ### Deriving -/

/-- The keying of the parameters. A pair of nonces is appended to the salt. -/
def keying (parameters : InputParameters) (nonces : Option (Bytes × Bytes)) (limits : Limits) :
    Keying where
  secret := parameters.masterSecret
  salt := parameters.masterSalt.getD [] ++ match nonces with
    | some (first, second) => first ++ second
    | none => []
  idContext := parameters.idContext
  aead := parameters.aead.getD AeadAlgorithm.standard.identifier
  kdf := parameters.kdf
  limits

/-- The identifiers of the sender and of the recipient: a client sends as the client, a server as
the server. -/
def identifiers (parameters : InputParameters) : EndpointRole → Bytes × Bytes
  | .client => (parameters.clientId, parameters.serverId)
  | .server => (parameters.serverId, parameters.clientId)

/-- Derives the context of one end. -/
def derive (parameters : InputParameters) (role : EndpointRole) (nonces : Option (Bytes × Bytes))
    (limits : Limits) (number : Nat) : Except Refusal SecurityContext :=
  let (sender, recipient) := parameters.identifiers role
  SecurityContext.derive (parameters.keying nonces limits) sender recipient number

end InputParameters

end Oscore
