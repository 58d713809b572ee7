/-
This file says that the parameters of a context survive being written and read.

Writing leaves out what is missing, and reading takes the first entry of a
label, so a parameter is found again because no two labels are the same: the
entries of other parameters are stepped over. A missing salt is not an empty one.
Nothing that is read is too large to be written, so the bytes that parameters were
read from may be replaced by the ones that are written for them.
-/

import Oscore.InputParameters
import Oscore.Proofs.Derivation
import Oscore.Proofs.ItemReading

namespace Oscore.InputParameters

/-! ### What is written -/

/-- The numbers of algorithms are integers of 64 bits with a sign, and the byte strings are no
longer than a head can say. -/
structure Representable (parameters : InputParameters) : Prop where
  masterSecret : parameters.masterSecret.length < 2 ^ 64
  clientId : parameters.clientId.length < 2 ^ 64
  serverId : parameters.serverId.length < 2 ^ 64
  kdf : ∀ value ∈ parameters.kdf, -2 ^ 63 ≤ value ∧ value < 2 ^ 63
  aead : ∀ value ∈ parameters.aead, -2 ^ 63 ≤ value ∧ value < 2 ^ 63
  masterSalt : ∀ value ∈ parameters.masterSalt, value.length < 2 ^ 64
  idContext : ∀ value ∈ parameters.idContext, value.length < 2 ^ 64

/-- The item that is written for a parameter, if it has a value. -/
def written (parameters : InputParameters) : Parameter → Option Cbor.Item
  | .masterSecret => some (.bytes parameters.masterSecret)
  | .clientId => some (.bytes parameters.clientId)
  | .serverId => some (.bytes parameters.serverId)
  | .kdf => parameters.kdf.map .integer
  | .aead => parameters.aead.map .integer
  | .masterSalt => parameters.masterSalt.map .bytes
  | .idContext => parameters.idContext.map .bytes

theorem entry_map {Value : Type} (parameter : Parameter) (write : Value → Cbor.Item)
    (value : Option Value) :
    entry parameter write value = entry parameter id (value.map write) := by
  cases value <;> rfl

/-- The map has an entry for each parameter with a value, in the order of the labels. -/
theorem toItem_eq (parameters : InputParameters) :
    parameters.toItem =
      .map (Parameter.all.flatMap fun parameter =>
        entry parameter id (parameters.written parameter)) := by
  rw [toItem]
  simp only [Parameter.all, List.flatMap_cons, List.flatMap_nil, List.append_nil, List.append_assoc]
  simp only [entry_map _ Cbor.Item.bytes, entry_map _ Cbor.Item.integer]
  rfl

theorem fits_written {parameters : InputParameters} (representable : parameters.Representable)
    {parameter : Parameter} {item : Cbor.Item} (found : item ∈ parameters.written parameter)
    (depth : Nat) : item.Fits depth := by
  have bytes {value : Option Bytes} (short : ∀ text ∈ value, text.length < 2 ^ 64)
      (found : item ∈ value.map Cbor.Item.bytes) : item.Fits depth := by
    obtain ⟨text, present, rfl⟩ := Option.map_eq_some_iff.mp found
    exact .bytes (short text present)
  have integer {value : Option Int} (range : ∀ number ∈ value, -2 ^ 63 ≤ number ∧ number < 2 ^ 63)
      (found : item ∈ value.map Cbor.Item.integer) : item.Fits depth := by
    obtain ⟨number, present, rfl⟩ := Option.map_eq_some_iff.mp found
    obtain ⟨low, high⟩ := range number present
    exact .integer (by omega) (by omega)
  cases parameter with
  | masterSecret =>
    cases found
    exact .bytes representable.masterSecret
  | clientId =>
    cases found
    exact .bytes representable.clientId
  | serverId =>
    cases found
    exact .bytes representable.serverId
  | kdf => exact integer representable.kdf found
  | aead => exact integer representable.aead found
  | masterSalt => exact bytes representable.masterSalt found
  | idContext => exact bytes representable.idContext found

/-- The entry of a parameter, if it has one. -/
theorem mem_entry {parameter : Parameter} {value : Option Cbor.Item}
    {pair : Cbor.Item × Cbor.Item} :
    pair ∈ entry parameter id value ↔ pair.1 = .integer parameter.label ∧ pair.2 ∈ value := by
  cases value with
  | none => simp [entry]
  | some item => simp [entry, Prod.ext_iff, eq_comm]

theorem length_entries_le (write : Parameter → Option Cbor.Item) (parameters : List Parameter) :
    (parameters.flatMap fun parameter => entry parameter id (write parameter)).length ≤
      parameters.length := by
  induction parameters with
  | nil => exact Nat.le_refl 0
  | cons first parameters inductionHypothesis =>
    have single : (entry first id (write first)).length ≤ 1 := by
      cases write first with
      | none => exact Nat.zero_le 1
      | some item => exact Nat.le_refl 1
    rw [List.flatMap_cons, List.length_append, List.length_cons]
    omega

theorem toItem_fits {parameters : InputParameters} (representable : parameters.Representable) :
    parameters.toItem.Fits Cbor.nestingLimit := by
  rw [toItem_eq]
  refine .map ?_ (fun pair member => ?_) (fun pair member => ?_)
  · exact Nat.lt_of_le_of_lt (length_entries_le parameters.written Parameter.all) (by decide)
  · obtain ⟨parameter, -, inside⟩ := List.mem_flatMap.mp member
    rw [(mem_entry.mp inside).1]
    cases parameter <;> exact .integer (by decide) (by decide)
  · obtain ⟨parameter, -, inside⟩ := List.mem_flatMap.mp member
    exact fits_written representable (mem_entry.mp inside).2 _

/-! ### Looking entries up -/

theorem Parameter.mem_all (parameter : Parameter) : parameter ∈ all := by
  cases parameter <;> decide

theorem Parameter.label_inj {first second : Parameter} :
    first.label = second.label ↔ first = second := by
  constructor
  · cases first <;> cases second <;> first | (intro; rfl) | (intro same; cases same)
  · exact congrArg label

/-- A lookup finds the entry of its own parameter and passes the entries of the others. -/
theorem lookup_entry_append (wanted parameter : Parameter) (value : Option Cbor.Item)
    (entries : List (Cbor.Item × Cbor.Item)) :
    lookup wanted.label (entry parameter id value ++ entries) =
      if parameter = wanted then value.or (lookup wanted.label entries)
      else lookup wanted.label entries := by
  cases value with
  | none => rw [entry, List.nil_append, Option.none_or, ite_self]
  | some found =>
    rw [entry, List.singleton_append, lookup]
    simp only [Parameter.label_inj, Option.some_or, id]

theorem lookup_flatMap_entry (write : Parameter → Option Cbor.Item) (wanted : Parameter)
    (parameters : List Parameter) :
    lookup wanted.label (parameters.flatMap fun parameter => entry parameter id (write parameter)) =
      if wanted ∈ parameters then write wanted else none := by
  induction parameters with
  | nil => rfl
  | cons first parameters inductionHypothesis =>
    rw [List.flatMap_cons, lookup_entry_append, inductionHypothesis]
    by_cases same : first = wanted
    · subst same
      rw [if_pos rfl, if_pos (List.mem_cons_self ..)]
      split
      · exact Option.or_self
      · exact Option.or_none
    · rw [if_neg same]
      simp only [List.mem_cons, Ne.symm same, false_or]

/-- Every parameter is found in the map with what was written for it. -/
theorem lookup_written (parameters : InputParameters) (wanted : Parameter) :
    lookup wanted.label
      (Parameter.all.flatMap fun parameter => entry parameter id (parameters.written parameter)) =
      parameters.written wanted := by
  rw [lookup_flatMap_entry, if_pos wanted.mem_all]

/-! ### Reading what was written -/

section Entries

variable {entries : List (Cbor.Item × Cbor.Item)} {parameter : Parameter}

theorem required_of_lookup {value : Bytes}
    (found : lookup parameter.label entries = some (.bytes value)) :
    required entries parameter = .ok value := by
  rw [required, found]
  rfl

/-- A parameter that may be missing is read again if its reader undoes what was written. -/
theorem optional_of_lookup {Value : Type} {read : Parameter → Cbor.Item → Except Refusal Value}
    {write : Value → Cbor.Item} {value : Option Value}
    (found : lookup parameter.label entries = value.map write)
    (inverse : ∀ inner ∈ value, read parameter (write inner) = .ok inner) :
    optional read entries parameter = .ok value := by
  rw [optional, found]
  cases value with
  | none => rfl
  | some inner =>
    rw [Option.map_some]
    dsimp only
    rw [inverse inner rfl]
    rfl

theorem readInteger_integer {number : Int} (range : -2 ^ 63 ≤ number ∧ number < 2 ^ 63) :
    readInteger parameter (.integer number) = .ok number := if_pos range

/-- Reading entries means reading each parameter. -/
theorem ofEntries_eq_ok {parameters : InputParameters} :
    ofEntries entries = .ok parameters ↔
      required entries .masterSecret = .ok parameters.masterSecret ∧
      required entries .clientId = .ok parameters.clientId ∧
      required entries .serverId = .ok parameters.serverId ∧
      optional readInteger entries .kdf = .ok parameters.kdf ∧
      optional readInteger entries .aead = .ok parameters.aead ∧
      optional readBytes entries .masterSalt = .ok parameters.masterSalt ∧
      optional readBytes entries .idContext = .ok parameters.idContext := by
  constructor
  · intro made
    obtain ⟨masterSecret, secretRead, made⟩ := bind_eq_ok.mp made
    obtain ⟨clientId, clientRead, made⟩ := bind_eq_ok.mp made
    obtain ⟨serverId, serverRead, made⟩ := bind_eq_ok.mp made
    obtain ⟨kdf, kdfRead, made⟩ := bind_eq_ok.mp made
    obtain ⟨aead, aeadRead, made⟩ := bind_eq_ok.mp made
    obtain ⟨masterSalt, saltRead, made⟩ := bind_eq_ok.mp made
    obtain ⟨idContext, contextRead, made⟩ := bind_eq_ok.mp made
    cases pure_eq_ok.mp made
    exact ⟨secretRead, clientRead, serverRead, kdfRead, aeadRead, saltRead, contextRead⟩
  · rintro ⟨secretRead, clientRead, serverRead, kdfRead, aeadRead, saltRead, contextRead⟩
    rw [ofEntries, secretRead, clientRead, serverRead, kdfRead, aeadRead, saltRead, contextRead]
    rfl

end Entries

/-- Parameters are read from the item that is written for them. -/
theorem ofItem_toItem {parameters : InputParameters} (representable : parameters.Representable) :
    ofItem parameters.toItem = .ok parameters := by
  have found := lookup_written parameters
  rw [toItem_eq, ofItem, ofEntries_eq_ok]
  exact ⟨required_of_lookup (found .masterSecret), required_of_lookup (found .clientId),
    required_of_lookup (found .serverId),
    optional_of_lookup (found .kdf) fun number member =>
      readInteger_integer (representable.kdf number member),
    optional_of_lookup (found .aead) fun number member =>
      readInteger_integer (representable.aead number member),
    optional_of_lookup (found .masterSalt) fun _ _ => rfl,
    optional_of_lookup (found .idContext) fun _ _ => rfl⟩

/-- Parameters are read from the bytes that are written for them, whatever follows. -/
theorem decode_encode_append {parameters : InputParameters}
    (representable : parameters.Representable) (after : Bytes) :
    decode (parameters.encode ++ after) = .ok parameters := by
  have read : Cbor.Item.decode? (parameters.encode ++ after) = some parameters.toItem := by
    rw [Cbor.Item.decode?, Cbor.Item.read?, encode,
      Cbor.readNested_encode (toItem_fits representable), Option.map_some]
  rw [decode, read]
  exact ofItem_toItem representable

/-! ### What is read can be written -/

section Accepted

variable {entries : List (Cbor.Item × Cbor.Item)} {parameter : Parameter}

/-- The value of an entry holds no more than all entries do. -/
theorem held_of_lookup {label : Int} {item : Cbor.Item} (found : lookup label entries = some item) :
    item.held ≤ Cbor.heldByEntries entries := by
  induction entries with
  | nil => cases found
  | cons entry entries inductionHypothesis =>
    obtain ⟨key, value⟩ := entry
    have inRest (found : lookup label entries = some item) :
        item.held ≤ Cbor.heldByEntries ((key, value) :: entries) := by
      have bound := inductionHypothesis found
      rw [Cbor.heldByEntries]
      omega
    rw [lookup.eq_def] at found
    dsimp only at found
    split at found
    · split at found
      · cases found
        rw [Cbor.heldByEntries]
        omega
      · exact inRest found
    · exact inRest found

theorem readBytes_eq_ok {item : Cbor.Item} {value : Bytes}
    (read : readBytes parameter item = .ok value) : item = .bytes value := by
  rw [readBytes.eq_def] at read
  split at read
  · cases read
    rfl
  · cases read

theorem readInteger_eq_ok {item : Cbor.Item} {number : Int}
    (read : readInteger parameter item = .ok number) : -2 ^ 63 ≤ number ∧ number < 2 ^ 63 := by
  rw [readInteger.eq_def] at read
  split at read
  · split at read
    · rename_i range
      cases read
      exact range
    · cases read
  · cases read

theorem length_of_required {value : Bytes} (read : required entries parameter = .ok value) :
    value.length ≤ Cbor.heldByEntries entries := by
  rw [required] at read
  split at read
  · cases read
  · rename_i item found
    rw [readBytes_eq_ok read] at found
    exact held_of_lookup found

/-- A value of a parameter that may be missing was read from an entry. -/
theorem lookup_of_optional {Value : Type} {read : Parameter → Cbor.Item → Except Refusal Value}
    {value : Option Value} (made : optional read entries parameter = .ok value) {inner : Value}
    (present : inner ∈ value) :
    ∃ item, lookup parameter.label entries = some item ∧ read parameter item = .ok inner := by
  rw [optional] at made
  split at made
  · cases made
    cases present
  · rename_i item found
    obtain ⟨other, taken, rfl⟩ := map_eq_ok.mp made
    cases present
    exact ⟨item, found, taken⟩

theorem length_of_optional {value : Option Bytes}
    (made : optional readBytes entries parameter = .ok value) {inner : Bytes}
    (present : inner ∈ value) : inner.length ≤ Cbor.heldByEntries entries := by
  obtain ⟨item, found, taken⟩ := lookup_of_optional made present
  rw [readBytes_eq_ok taken] at found
  exact held_of_lookup found

/-- The parameters of a map whose byte strings fit heads can be written. -/
theorem representable_of_ofEntries {parameters : InputParameters}
    (made : ofEntries entries = .ok parameters) (small : Cbor.heldByEntries entries < 2 ^ 64) :
    parameters.Representable := by
  obtain ⟨secretRead, clientRead, serverRead, kdfRead, aeadRead, saltRead, contextRead⟩ :=
    ofEntries_eq_ok.mp made
  have range {parameter : Parameter} {value : Option Int}
      (made : optional readInteger entries parameter = .ok value) {number : Int}
      (present : number ∈ value) : -2 ^ 63 ≤ number ∧ number < 2 ^ 63 := by
    obtain ⟨item, -, taken⟩ := lookup_of_optional made present
    exact readInteger_eq_ok taken
  exact {
    masterSecret := Nat.lt_of_le_of_lt (length_of_required secretRead) small
    clientId := Nat.lt_of_le_of_lt (length_of_required clientRead) small
    serverId := Nat.lt_of_le_of_lt (length_of_required serverRead) small
    kdf := fun _ present => range kdfRead present
    aead := fun _ present => range aeadRead present
    masterSalt := fun _ present => Nat.lt_of_le_of_lt (length_of_optional saltRead present) small
    idContext := fun _ present =>
      Nat.lt_of_le_of_lt (length_of_optional contextRead present) small }

end Accepted

/-- Whatever is read from fewer than `2 ^ 64` bytes can be written. -/
theorem representable_of_decode {bytes : Bytes} {parameters : InputParameters}
    (short : bytes.length < 2 ^ 64) (read : decode bytes = .ok parameters) :
    parameters.Representable := by
  rw [decode] at read
  split at read
  · rename_i item found
    obtain ⟨⟨first, rest⟩, taken, same⟩ := Option.map_eq_some_iff.mp found
    cases same
    have bound := Cbor.readNested_covers Cbor.nestingLimit taken
    rw [ofItem.eq_def] at read
    split at read
    · rename_i entries same
      cases same
      rw [Cbor.Item.held] at bound
      exact representable_of_ofEntries read (by omega)
    · cases read
  · cases read

/-! ### Round trips -/

/-- Parameters are read back from what is written for them, whatever bytes follow; different
parameters are written differently; and what was read from any bytes is read back from what is
written for it. -/
theorem decode_inverts_encode :
    (∀ parameters : InputParameters, parameters.Representable → ∀ after : Bytes,
      decode (parameters.encode ++ after) = .ok parameters) ∧
    (∀ first second : InputParameters, first.Representable → second.Representable →
      first.encode = second.encode → first = second) ∧
    ∀ (bytes : Bytes) (parameters : InputParameters), bytes.length < 2 ^ 64 →
      decode bytes = .ok parameters →
        parameters.Representable ∧ decode parameters.encode = .ok parameters := by
  have again {parameters : InputParameters} (representable : parameters.Representable) :
      decode parameters.encode = .ok parameters := by
    rw [← List.append_nil parameters.encode]
    exact decode_encode_append representable []
  refine ⟨fun parameters => decode_encode_append, ?_, ?_⟩
  · intro first second firstRepresentable secondRepresentable same
    have read := again firstRepresentable
    rw [same, again secondRepresentable] at read
    exact (Except.ok.inj read).symm
  · intro bytes parameters short read
    have representable := representable_of_decode short read
    exact ⟨representable, again representable⟩

/-- The least and the greatest number, an empty identifier, an empty salt and no identifier of
the context, with a byte after them; and a map that is written in more bytes than needed: its
length is indefinite, so is the length of its master secret, and the label of the client takes
two bytes. -/
theorem decode_inverts_encode_extremes :
    let parameters : InputParameters :=
      { masterSecret := [1, 2], clientId := [], serverId := [3], kdf := some (-2 ^ 63),
        aead := some (2 ^ 63 - 1), masterSalt := some [] }
    let bytes : Bytes :=
      [0xbf, 0x01, 0x5f, 0x41, 0x01, 0x41, 0x02, 0xff, 0x18, 0x02, 0x40, 0x03, 0x41, 0x03, 0xff]
    decode (parameters.encode ++ [0xff]) = .ok parameters ∧
      ∃ read, decode bytes = .ok read ∧ decode read.encode = .ok read ∧
        read ≠ parameters ∧ read.encode ≠ parameters.encode := by
  have representable : Representable
      { masterSecret := [1, 2], clientId := [], serverId := [3], kdf := some (-2 ^ 63),
        aead := some (2 ^ 63 - 1), masterSalt := some [] } :=
    { masterSecret := by decide
      clientId := by decide
      serverId := by decide
      kdf := by
        rintro _ ⟨⟩
        decide
      aead := by
        rintro _ ⟨⟩
        decide
      masterSalt := by
        rintro _ ⟨⟩
        decide
      idContext := by
        rintro _ ⟨⟩ }
  obtain ⟨inverse, injective, again⟩ := decode_inverts_encode
  have read : decode [0xbf, 0x01, 0x5f, 0x41, 0x01, 0x41, 0x02, 0xff, 0x18, 0x02, 0x40, 0x03,
      0x41, 0x03, 0xff] = .ok { masterSecret := [1, 2], clientId := [], serverId := [3] } := rfl
  obtain ⟨readRepresentable, readAgain⟩ := again _ _ (by decide) read
  refine ⟨inverse _ representable _, _, read, readAgain, by decide, fun same => ?_⟩
  exact absurd (injective _ _ readRepresentable representable same) (by decide)

end Oscore.InputParameters
