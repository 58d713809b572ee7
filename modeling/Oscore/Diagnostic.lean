/-
This file writes diagnostic texts.

A text shows the fields of an object by name. Master secrets and symmetric keys
are replaced by a fixed word, and of a signing key only its curve, the declared
algorithm and the presence of a private half are shown. The recipients of a context
are kept in no particular order, so the order in which they are read is given.
-/

import Oscore.Event

namespace Oscore

/-! ### Texts -/

/-- What a diagnostic text shows. -/
inductive Diagnostic
  /-- A number or a name. -/
  | word (text : String)
  /-- A text between quotation marks. -/
  | quoted (text : String)
  /-- Elements between brackets. -/
  | list (elements : List Diagnostic)
  /-- A value that might have been missing. -/
  | present (value : Diagnostic)
  /-- Fields by name between braces; two dots stand for fields that are not shown. -/
  | fields (name : String) (shown : List (String × Diagnostic)) (complete : Bool)
  deriving Repr

namespace Diagnostic

mutual

/-- The text itself. -/
def render : Diagnostic → String
  | word text => text
  | quoted text => "\"" ++ text ++ "\""
  | list elements => "[" ++ String.intercalate ", " (renderList elements) ++ "]"
  | present value => "Some(" ++ value.render ++ ")"
  | fields name shown complete =>
    let parts := renderFields shown ++ if complete then [] else [".."]
    name ++ " \x7b " ++ String.intercalate ", " parts ++ " \x7d"

/-- The texts of elements. -/
def renderList : List Diagnostic → List String
  | [] => []
  | element :: rest => element.render :: renderList rest

/-- The texts of fields with their names. -/
def renderFields : List (String × Diagnostic) → List String
  | [] => []
  | (name, value) :: rest => (name ++ ": " ++ value.render) :: renderFields rest

end

/-- A natural number. -/
def ofNat (number : Nat) : Diagnostic := word (toString number)

/-- An integer. -/
def ofInt (number : Int) : Diagnostic := word (toString number)

/-- A truth value. -/
def ofBool (value : Bool) : Diagnostic := word (if value then "true" else "false")

/-- A byte string, as a list of decimal numbers. -/
def ofBytes (bytes : Bytes) : Diagnostic := list (bytes.map fun byte => ofNat byte.toNat)

/-- A value that may be missing. -/
def ofOption {Value : Type} (display : Value → Diagnostic) : Option Value → Diagnostic
  | none => word "None"
  | some value => present (display value)

/-- What stands in place of a secret. -/
def redacted : Diagnostic := quoted "<redacted>"

end Diagnostic

/-! ### Objects -/

/-- The name of an AEAD algorithm. -/
def AeadAlgorithm.diagnostic : AeadAlgorithm → Diagnostic
  | aesCcm8 => .word "AesCcm16_64_128"
  | aesCcm16 => .word "AesCcm16_128_128"
  | aesGcm128 => .word "A128Gcm"
  | aesGcm256 => .word "A256Gcm"
  | chaCha20Poly1305 => .word "ChaCha20Poly1305"

/-- The name of a signature algorithm. -/
def SignatureAlgorithm.diagnostic : SignatureAlgorithm → Diagnostic
  | es256 => .word "Es256"
  | edDsa => .word "EdDsa"

/-- The limits of a context. -/
def Limits.diagnostic (limits : Limits) : Diagnostic :=
  .fields "ContextConfig"
    [("max_sequence_number", .ofNat limits.maximum),
      ("sequence_interval", .ofNat limits.interval),
      ("replay_window_size", .ofNat limits.window)] true

/-- Keying, without its secret. -/
def Keying.diagnostic (keying : Keying) : Diagnostic :=
  .fields "MasterKeying"
    [("secret", .redacted),
      ("salt", .ofBytes keying.salt),
      ("id_context", .ofOption .ofBytes keying.idContext),
      ("aead", .ofInt keying.aead),
      ("kdf", .ofOption .ofInt keying.kdf),
      ("config", keying.limits.diagnostic)] true

/-- A signing key, without its halves. -/
def SigningKey.diagnostic (key : SigningKey) : Diagnostic :=
  .fields "CounterSignKey"
    [("key_type", key.algorithm.diagnostic),
      ("algorithm", .ofOption SignatureAlgorithm.diagnostic key.declared),
      ("private", .ofBool key.isPrivate)] true

/-- An entity, without its key. -/
def Entity.diagnostic (entity : Entity) : Diagnostic :=
  .fields "EntityContext"
    [("id", .ofBytes entity.id),
      ("key", .redacted),
      ("base_iv", .ofBytes entity.baseIv),
      ("sequence_number", .ofNat entity.sequence),
      ("max_sequence_number", .ofNat entity.maximum),
      ("replay_window", .ofOption .ofNat (entity.window.map ReplayWindow.base)),
      ("signing_key", .ofOption SigningKey.diagnostic entity.signingKey)] true

/-- A channel. -/
def Channel.diagnostic {Handler : Type} (channel : Channel Handler) : Diagnostic :=
  .fields "EventChannel" [("handlers", .ofNat channel.handlers.length)] true

/-- What all contexts show. The recipients are `listed` in some order, which is not the context's
to choose. -/
def SecurityContext.sharedDiagnostic (context : SecurityContext) (listed : List Bytes) :
    Diagnostic :=
  .fields "SecurityContext"
    [("context_number", .ofNat context.number),
      ("group_id", .ofOption .ofBytes context.groupId),
      ("algorithm", context.algorithm.diagnostic),
      ("signature_algorithm",
        .ofOption SignatureAlgorithm.diagnostic context.signatureAlgorithm),
      ("sender", .ofBytes context.sender.id),
      ("recipients", .list (listed.map .ofBytes))] false

/-- A context; the context of a group also shows that it is one. -/
def SecurityContext.diagnostic (context : SecurityContext) (listed : List Bytes) : Diagnostic :=
  match context.countersigning with
  | none => context.sharedDiagnostic listed
  | some countersigning =>
    .fields "GroupSecurityContext"
      [("context", context.sharedDiagnostic listed),
        ("signature_algorithm", countersigning.algorithm.diagnostic)] false

end Oscore
