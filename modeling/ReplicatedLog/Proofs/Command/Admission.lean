import ReplicatedLog.Proofs.Binary.Composing
import ReplicatedLog.Proofs.Command.TextForm
import ReplicatedLog.Proofs.Json.Layouts

/-!
# How ids come in

An id is made of three parts, read from its text form or decoded from JSON or from the compact
binary format.  All of these ways in are guarded by the one check of `CommandId.make`.

* `JsonForm.partsCodec` and `BinaryForm.partsCodec`: the three parts of an id, not checked;
* `Codec.Checks`: a codec of ids reads an id exactly where the three parts are read and can be those
  of an id;
* `Codec.Judges`: it judges given bytes as `CommandId.make` judges given parts;
* `Codec.FailsDecoding`: whatever the codec cannot read, it reports as a failure to decode;
* `CommandId.comes_in_checked`: all of this for both formats, in any form of the parts.
-/

namespace ReplicatedLog

section Codecs

variable {α β : Type}

/-- Whatever the codec cannot read, it reports as a failure to decode. -/
def Codec.FailsDecoding (c : Codec α) : Prop :=
  ∀ bytes e, c.decode bytes = .error e → e.direction = .decoding

theorem Codec.json_failsDecoding (write : α → Json.Value) (read : Json.Parser α) :
    (Codec.json write read).FailsDecoding := by
  intro bytes e h
  change (Json.decode read bytes).mapError CodecError.ofJson = .error e at h
  cases hdecode : Json.decode read bytes with
  | ok a =>
      rw [hdecode] at h
      cases h
  | error error =>
      rw [hdecode] at h
      cases h
      rfl

theorem Codec.binary_failsDecoding (write : α → Bytes) {read : Binary.Parser α}
    (hread : Binary.Composed read) : (Codec.binary write read).FailsDecoding := by
  intro bytes e h
  change ((read bytes).map Prod.fst).mapError CodecError.ofBinary = .error e at h
  cases hbytes : read bytes with
  | ok r =>
      rw [hbytes] at h
      cases h
  | error fault =>
      rw [hbytes] at h
      cases h
      change (if fault.inWriting = true then Direction.encoding else .decoding) = .decoding
      rw [hread.not_inWriting hbytes]
      rfl

/-- The reader makes a check of what it has read, and takes nothing more. -/
def checked {ε : Type} (read : StateT Bytes (Except ε) α) (check : α → Except ε β) :
    StateT Bytes (Except ε) β :=
  read >>= fun a rest => (check a).map (·, rest)

theorem checked_eq_ok_iff {ε : Type} {read : StateT Bytes (Except ε) α} {check : α → Except ε β}
    {bytes rest : Bytes} {b : β} :
    checked read check bytes = .ok (b, rest) ↔
      ∃ a, read bytes = .ok (a, rest) ∧ check a = .ok b := by
  have hbind : checked read check bytes =
      (read bytes).bind fun r => (check r.1).map (·, r.2) := rfl
  rw [hbind]
  cases read bytes with
  | error e => simp [Except.bind]
  | ok r =>
      obtain ⟨a, rest'⟩ := r
      cases hcheck : check a with
      | error e => simp [Except.bind, Except.map, hcheck]
      | ok b' => simp [Except.bind, Except.map, hcheck, and_comm]

theorem Binary.decode_eq_ok_iff {read : Binary.Parser α} {bytes : Bytes} {a : α} :
    Binary.decode read bytes = .ok a ↔ ∃ rest, read bytes = .ok (a, rest) := by
  rw [Binary.decode]
  cases read bytes with
  | error fault => simp [Except.map]
  | ok r => simp [Except.map, Prod.ext_iff]

/-- A document is read with a check if it is read without one and passes the check. -/
theorem Json.decode_checked_iff {read : Json.Parser α} {check : α → Except Json.Error β}
    {bytes : Bytes} {b : β} :
    Json.decode (checked read check) bytes = .ok b ↔
      ∃ a, Json.decode read bytes = .ok a ∧ check a = .ok b := by
  simp only [Json.decode_eq_ok_iff, checked_eq_ok_iff]
  constructor
  · rintro ⟨rest, ⟨a, hread, hcheck⟩, hend⟩
    exact ⟨a, ⟨rest, hread, hend⟩, hcheck⟩
  · rintro ⟨a, ⟨rest, hread, hend⟩, hcheck⟩
    exact ⟨rest, ⟨a, hread, hcheck⟩, hend⟩

/-- Bytes are read with a check if they are read without one and pass the check. -/
theorem Binary.decode_checked_iff {read : Binary.Parser α} {check : α → Except Binary.Fault β}
    {bytes : Bytes} {b : β} :
    Binary.decode (checked read check) bytes = .ok b ↔
      ∃ a, Binary.decode read bytes = .ok a ∧ check a = .ok b := by
  simp only [Binary.decode_eq_ok_iff, checked_eq_ok_iff]
  constructor
  · rintro ⟨rest, a, hread, hcheck⟩
    exact ⟨a, ⟨rest, hread⟩, hcheck⟩
  · rintro ⟨a, ⟨rest, hread⟩, hcheck⟩
    exact ⟨rest, a, hread, hcheck⟩

theorem mapError_eq_ok_iff {ε ε' : Type} {x : Except ε α} {f : ε → ε'} {a : α} :
    x.mapError f = .ok a ↔ x = .ok a := by
  cases x with
  | error e => simp [Except.mapError]
  | ok b => simp [Except.mapError]

end Codecs

section Parts

/-- The parts of an id, not checked. -/
abbrev Parts := Kind × String × Action

/-- The codec of ids reads an id exactly where the codec of parts reads the parts of that id, and
these can be parts of an id. -/
def Codec.Checks (c : Codec CommandId) (raw : Codec Parts) : Prop :=
  ∀ bytes id, c.decode bytes = .ok id ↔
    ∃ kind entity action, raw.decode bytes = .ok (kind, entity, action) ∧
      entity ≠ "" ∧ '/' ∉ entity.toList ∧
      id.kind = kind ∧ id.entity = entity ∧ id.action = action

/-- The codec reads from the bytes the id of the parts if there is one, and otherwise refuses them
as bytes that cannot be decoded. -/
def Codec.Judges (c : Codec CommandId) (reason : IdError → String) (bytes : Bytes) (parts : Parts) :
    Prop :=
  c.decode bytes = (CommandId.make parts.1 parts.2.1 parts.2.2).mapError fun e =>
    ⟨.decoding, reason e⟩

theorem exists_make_iff {P : Parts → Prop} {id : CommandId} :
    (∃ parts, P parts ∧ CommandId.make parts.1 parts.2.1 parts.2.2 = .ok id) ↔
      ∃ kind entity action, P (kind, entity, action) ∧ entity ≠ "" ∧ '/' ∉ entity.toList ∧
        id.kind = kind ∧ id.entity = entity ∧ id.action = action := by
  constructor
  · rintro ⟨⟨kind, entity, action⟩, hP, hid⟩
    obtain ⟨⟨hempty, hslash⟩, hparts⟩ := CommandId.make_eq_ok_iff.1 hid
    exact ⟨kind, entity, action, hP, hempty, hslash, hparts⟩
  · rintro ⟨kind, entity, action, hP, hempty, hslash, hparts⟩
    exact ⟨(kind, entity, action), hP, CommandId.make_eq_ok_iff.2 ⟨⟨hempty, hslash⟩, hparts⟩⟩

end Parts

namespace JsonForm

open Json

/-- The parts of an id in JSON, not checked. -/
def partsCodec : Codec Parts :=
  .json (fun parts => ofParts parts.1 parts.2.1 parts.2.2) idLayout.read

/-- The check of the parts. -/
def checkParts (parts : Parts) : Except Json.Error CommandId :=
  (CommandId.make parts.1 parts.2.1 parts.2.2).mapError fun e => .refused e.message

theorem readId_eq : readId = checked idLayout.read checkParts := by
  rw [readId, checked]
  congr 1
  funext parts rest
  obtain ⟨kind, entity, action⟩ := parts
  dsimp only
  rw [checkParts]
  cases CommandId.make kind entity action with
  | ok id => rfl
  | error e => rfl

theorem idCodec_checks : idCodec.Checks partsCodec := by
  intro bytes id
  change (Json.decode readId bytes).mapError CodecError.ofJson = .ok id ↔ _
  rw [mapError_eq_ok_iff, readId_eq, decode_checked_iff]
  simp only [checkParts, partsCodec, Codec.json, mapError_eq_ok_iff]
  exact exists_make_iff

theorem idCodec_judges {parts : Parts} {v : Value}
    (h : PartsForm parts.1 parts.2.1 parts.2.2 v) :
    idCodec.Judges IdError.message v.render parts := by
  have hread := parts_reads h []
  rw [List.append_nil] at hread
  change (Json.decode readId v.render).mapError CodecError.ofJson = _
  rw [readId_eq, Json.decode, checked, bind_ok hread, checkParts]
  cases CommandId.make parts.1 parts.2.1 parts.2.2 with
  | ok id => rfl
  | error e => rfl

end JsonForm

namespace BinaryForm

open Binary

/-- Reads the parts of an id. -/
def readParts : Parser Parts := do
  let kind ← readKind
  let entity ← readText
  let action ← readAction
  return (kind, entity, action)

/-- The parts of an id in the binary format, not checked. -/
def partsCodec : Codec Parts :=
  .binary (fun parts => ofParts parts.1 parts.2.1 parts.2.2) readParts

/-- The check of the parts. -/
def checkParts (parts : Parts) : Except Fault CommandId :=
  (CommandId.make parts.1 parts.2.1 parts.2.2).mapError fun _ => .refusedToRead

theorem readId_eq : readId = checked readParts checkParts := by
  rw [readId, checked, readParts]
  simp only [bind_assoc, pure_bind]
  congr 1
  funext kind
  congr 1
  funext entity
  congr 1
  funext action rest
  rw [checkParts]
  cases CommandId.make kind entity action with
  | ok id => rfl
  | error e => rfl

theorem readParts_delimits {entity : String} (kind : Kind) (h : Fits entity) (action : Action) :
    Delimits readParts (ofParts kind entity action) (kind, entity, action) := by
  rw [ofParts, List.append_assoc]
  exact (readKind_delimits kind).bind ((readText_delimits h).bind
    ((readAction_delimits action).map fun rest => rfl))

theorem idCodec_checks : idCodec.Checks partsCodec := by
  intro bytes id
  change (Binary.decode readId bytes).mapError CodecError.ofBinary = .ok id ↔ _
  rw [mapError_eq_ok_iff, readId_eq, decode_checked_iff]
  simp only [checkParts, partsCodec, Codec.binary, mapError_eq_ok_iff]
  exact exists_make_iff

theorem idCodec_judges {parts : Parts} (h : Fits parts.2.1) :
    idCodec.Judges (fun _ => Fault.refusedToRead.message)
      (ofParts parts.1 parts.2.1 parts.2.2) parts := by
  have hread := (readParts_delimits parts.1 h parts.2.2).whole
  change (Binary.decode readId _).mapError CodecError.ofBinary = _
  rw [readId_eq, Binary.decode, checked, bind_ok hread, checkParts]
  cases CommandId.make parts.1 parts.2.1 parts.2.2 with
  | ok id => rfl
  | error e => rfl

end BinaryForm

namespace CommandId

/-- Every id that comes in has an entity that is not empty and holds no `/`: read from its text
form, it has the middle part of the text as its entity, and decoded from JSON or from the binary
format, it is made of parts that stand there and are checked.  The written parts of an id are read
as the id that they make if there is one, in JSON as an object in any order or as a list.  Whatever
cannot be decoded is reported as such, by both formats and for every type. -/
theorem comes_in_checked :
    (∀ s id, parse s = .ok id → ∃ a b c, Splits s a b c ∧ id.entity = b ∧ b ≠ "" ∧
        '/' ∉ b.toList) ∧
      JsonForm.idCodec.Checks JsonForm.partsCodec ∧
      BinaryForm.idCodec.Checks BinaryForm.partsCodec ∧
      (∀ parts, ∃ bytes, JsonForm.partsCodec.encode parts = .ok bytes ∧
        JsonForm.idCodec.Judges IdError.message bytes parts) ∧
      (∀ parts v, JsonForm.PartsForm parts.1 parts.2.1 parts.2.2 v →
        JsonForm.idCodec.Judges IdError.message v.render parts) ∧
      (∀ parts : Parts, Binary.Fits parts.2.1 →
        ∃ bytes, BinaryForm.partsCodec.encode parts = .ok bytes ∧
          BinaryForm.idCodec.Judges (fun _ => Binary.Fault.refusedToRead.message) bytes parts) ∧
      (∀ {α : Type} (write : α → Json.Value) (read : Json.Parser α),
        (Codec.json write read).FailsDecoding) ∧
      (∀ {α : Type} (write : α → Bytes) (read : Binary.Parser α), Binary.Composed read →
        (Codec.binary write read).FailsDecoding) ∧
      BinaryForm.idCodec.FailsDecoding ∧ BinaryForm.commandCodec.FailsDecoding ∧
      BinaryForm.textCodec.FailsDecoding ∧ BinaryForm.wordCodec.FailsDecoding ∧
      BinaryForm.partitionCodec.FailsDecoding ∧ BinaryForm.positionCodec.FailsDecoding ∧
      BinaryForm.kindCodec.FailsDecoding ∧ BinaryForm.actionCodec.FailsDecoding := by
  refine ⟨?_, JsonForm.idCodec_checks, BinaryForm.idCodec_checks,
    fun parts => ⟨_, rfl, JsonForm.idCodec_judges (.object (.refl _))⟩,
    fun parts v h => JsonForm.idCodec_judges h,
    fun parts h => ⟨_, rfl, BinaryForm.idCodec_judges h⟩,
    Codec.json_failsDecoding, fun write read h => Codec.binary_failsDecoding write h, ?_⟩
  · intro s id h
    obtain ⟨a, b, c, hsplits, -, -, hempty, hentity⟩ := parse_eq_ok_iff.1 h
    exact ⟨a, b, c, hsplits, hentity, hempty, hsplits.not_mem⟩
  · exact ⟨Codec.binary_failsDecoding _ BinaryForm.readId_composed,
      Codec.binary_failsDecoding _ BinaryForm.readCommand_composed,
      Codec.binary_failsDecoding _ Binary.readText_composed,
      Codec.binary_failsDecoding _ (.number _ _),
      Codec.binary_failsDecoding _ BinaryForm.readPartition_composed,
      Codec.binary_failsDecoding _ BinaryForm.readPosition_composed,
      Codec.binary_failsDecoding _ BinaryForm.readKind_composed,
      Codec.binary_failsDecoding _ BinaryForm.readAction_composed⟩

/-- A topic that is dropped, as a list in JSON and in the binary format, under a name that is fine
and under one that is not. -/
theorem comes_in_checked_sample :
    (∃ a b c, Splits "topic/a/drop" a b c ∧
        (⟨.topic, "a", .drop, by decide⟩ : CommandId).entity = b ∧ b ≠ "" ∧ '/' ∉ b.toList) ∧
      JsonForm.idCodec.Judges IdError.message
        (Bytes.ofString "[\"topic\",\"a/b\",\"drop\"]") (.topic, "a/b", .drop) ∧
      (∃ bytes, BinaryForm.partsCodec.encode (.topic, "", .drop) = .ok bytes ∧
        BinaryForm.idCodec.Judges (fun _ => Binary.Fault.refusedToRead.message) bytes
          (.topic, "", .drop)) ∧
      BinaryForm.idCodec.decode [2, 0, 1] =
        .error ⟨.decoding, Binary.Fault.refusedToRead.message⟩ ∧
      (Codec.binary BinaryForm.ofId BinaryForm.readId).FailsDecoding := by
  obtain ⟨hparse, -, -, -, hjson, hbinary, -, hfails, -⟩ := comes_in_checked
  refine ⟨hparse _ _ (by decide +kernel), ?_, hbinary (.topic, "", .drop) (by decide),
    by decide +kernel, hfails _ _ BinaryForm.readId_composed⟩
  have hlist := hjson (.topic, "a/b", .drop) _ .list
  exact hlist

end CommandId

end ReplicatedLog
