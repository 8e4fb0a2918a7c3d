import ReplicatedLog.Codec.Json
import ReplicatedLog.Proofs.Text.Utf8

/-!
# JSON there and back

What is written for an id or a command is read back as it was.

* `Reads` says that a parser takes given bytes off the front, whatever follows them,
  and gives a value; `ReadsBefore` that it does so before bytes with which no number
  goes on, as a value of any kind does;
* `string_reads`: strings, with every escape that is written;
* `members_reads`: the members of an object, one after the other;
* `readId_reads` and `readCommand_reads`: ids and commands;
* `Codec.RoundTrips`: a codec that can write every value, and reads back what it has
  written.
-/

namespace ReplicatedLog
namespace Json

open Ascii

section Parsers

variable {α β : Type}

/-- The parser takes the bytes off the front, whatever follows, and gives the value. -/
def Reads (p : Parser α) (bytes : Bytes) (a : α) : Prop :=
  ∀ rest, p (bytes ++ rest) = .ok (a, rest)

theorem bind_ok {p : Parser α} {f : α → Parser β} {bytes rest : Bytes} {a : α}
    (h : p bytes = .ok (a, rest)) : (p >>= f) bytes = f a rest := by
  simp [bind, StateT.bind, h, Except.bind]

theorem Reads.bind {p : Parser α} {f : α → Parser β} {bytes bytes' : Bytes} {a : α} {b : β}
    (h : Reads p bytes a) (h' : Reads (f a) bytes' b) : Reads (p >>= f) (bytes ++ bytes') b := by
  intro rest
  rw [List.append_assoc, bind_ok (h _), h' rest]

theorem Reads.map {p : Parser α} {bytes : Bytes} {a : α} (h : Reads p bytes a) (f : α → β) :
    Reads (do return f (← p)) bytes (f a) := by
  intro rest
  rw [bind_ok (h rest)]
  rfl

/-- No number goes on with the bytes. -/
def Breaks (bytes : Bytes) : Prop :=
  ∀ b, bytes.head? = some b → isDigit b = false ∧ b ≠ dot ∧ b ≠ lowerE ∧ b ≠ upperE

theorem breaks_nil : Breaks [] :=
  fun _ hb => by cases hb

theorem breaks_comma (rest : Bytes) : Breaks (comma :: rest) := by
  rintro b ⟨⟩
  decide

theorem breaks_closeBrace (rest : Bytes) : Breaks (closeBrace :: rest) := by
  rintro b ⟨⟩
  decide

/-- The parser takes the bytes off the front, before bytes with which no number goes on, and gives
the value. -/
def ReadsBefore (p : Parser α) (bytes : Bytes) (a : α) : Prop :=
  ∀ rest, Breaks rest → p (bytes ++ rest) = .ok (a, rest)

theorem Reads.before {p : Parser α} {bytes : Bytes} {a : α} (h : Reads p bytes a) :
    ReadsBefore p bytes a :=
  fun rest _ => h rest

theorem Reads.bind_before {p : Parser α} {f : α → Parser β} {bytes bytes' : Bytes} {a : α} {b : β}
    (h : Reads p bytes a) (h' : ReadsBefore (f a) bytes' b) :
    ReadsBefore (p >>= f) (bytes ++ bytes') b := by
  intro rest hrest
  rw [List.append_assoc, bind_ok (h _), h' rest hrest]

theorem ReadsBefore.map {p : Parser α} {bytes : Bytes} {a : α} (h : ReadsBefore p bytes a)
    (f : α → β) : ReadsBefore (do return f (← p)) bytes (f a) := by
  intro rest hrest
  rw [bind_ok (h rest hrest)]
  rfl

theorem skip_cons (b : UInt8) (rest : Bytes) : skip (b :: rest) = .ok ((), rest) := rfl

theorem peek_cons {b : UInt8} (h : isSpace b = false) (rest : Bytes) :
    peek (b :: rest) = .ok (some b, b :: rest) := by
  simp [peek, h]

theorem peekOr_cons {b : UInt8} (h : isSpace b = false) (fault : Fault) (rest : Bytes) :
    peekOr fault (b :: rest) = .ok (b, b :: rest) := by
  rw [peekOr, bind_ok (peek_cons h rest)]
  rfl

/-- A document is read if there is nothing but white space behind the value. -/
theorem decode_eq_ok_iff {read : Parser α} {bytes : Bytes} {a : α} :
    decode read bytes = .ok a ↔
      ∃ rest, read bytes = .ok (a, rest) ∧ (rest.dropWhile isSpace).isEmpty := by
  rw [decode]
  cases read bytes with
  | error e => simp
  | ok r =>
      obtain ⟨a', rest⟩ := r
      dsimp only
      by_cases hend : (rest.dropWhile isSpace).isEmpty
      · rw [if_pos hend]
        constructor
        · rintro ⟨⟩
          exact ⟨rest, rfl, hend⟩
        · rintro ⟨_, ⟨⟩, -⟩
          rfl
      · rw [if_neg hend]
        constructor
        · rintro ⟨⟩
        · rintro ⟨_, ⟨⟩, hempty⟩
          exact absurd hempty hend

end Parsers

section Strings

/-- The mode after bytes of a string, and what they have added, unless the string ends with them. -/
def StringMode.after : StringMode → Bytes → Option (StringMode × Bytes)
  | mode, [] => some (mode, [])
  | mode, b :: bytes =>
      match mode.next b with
      | .more mode' out => (StringMode.after mode' bytes).map fun r => (r.1, out ++ r.2)
      | _ => none

theorem scanString_after {bytes : Bytes} :
    ∀ {mode mode' : StringMode} {out : Bytes}, mode.after bytes = some (mode', out) →
      ∀ acc rest, scanString StringMode.next mode acc (bytes ++ rest) =
        scanString StringMode.next mode' (out.reverse ++ acc) rest := by
  induction bytes with
  | nil =>
      intro mode mode' out h acc rest
      cases h
      rfl
  | cons b bytes ih =>
      intro mode mode' out h acc rest
      simp only [StringMode.after] at h
      rw [List.cons_append, scanString]
      split at h
      next mode'' out' heq =>
        rw [Option.map_eq_some_iff] at h
        obtain ⟨⟨last, more⟩, hafter, hpair⟩ := h
        cases hpair
        rw [heq]
        dsimp only
        rw [ih hafter, List.reverse_append, List.append_assoc]
      next => cases h

/-- What is written for a byte stands for the byte. -/
theorem after_escapeByte (b : UInt8) :
    StringMode.plain.after (escapeByte b) = some (.plain, [b]) :=
  forall_byte (P := fun b => StringMode.plain.after (escapeByte b) = some (.plain, [b]))
    (by decide +kernel) b

theorem scanString_escaped (bytes : Bytes) :
    ∀ acc rest, scanString StringMode.next .plain acc (bytes.flatMap escapeByte ++ quote :: rest) =
      .ok (acc.reverse ++ bytes, rest) := by
  induction bytes with
  | nil =>
      intro acc rest
      simp [scanString, StringMode.next]
  | cons b bytes ih =>
      intro acc rest
      rw [List.flatMap_cons, List.append_assoc, scanString_after (after_escapeByte b), ih]
      simp

/-- A string is read back after its opening quote. -/
theorem stringBody_reads (s : String) :
    Reads stringBody ((Bytes.ofString s).flatMap escapeByte ++ [quote]) s := by
  intro rest
  rw [stringBody, List.append_assoc, List.singleton_append, bind_ok (scanString_escaped _ [] rest)]
  simp only [List.reverse_nil, List.nil_append, Bytes.toString?_ofString]
  rfl

theorem renderString_eq (s : String) :
    renderString s = quote :: ((Bytes.ofString s).flatMap escapeByte ++ [quote]) := by
  simp [renderString]

/-- A string is read back. -/
theorem string_reads (s : String) : Reads string (renderString s) s := by
  intro rest
  rw [renderString_eq, List.cons_append, string, bind_ok (peekOr_cons rfl _ _), if_pos rfl,
    bind_ok (skip_cons _ _)]
  exact stringBody_reads s rest

/-- A name is read back as what it stands for. -/
theorem variant_reads {α : Type} {known : List (String × α)} {name : String} {a : α}
    (h : known.lookup name = some a) : Reads (variant known) (renderString name) a := by
  intro rest
  rw [renderString_eq, List.cons_append, variant, bind_ok (peekOr_cons rfl _ _), if_neg (by decide),
    if_pos rfl, bind_ok (skip_cons _ _), bind_ok (stringBody_reads name rest), lookUp, h]
  rfl

end Strings

section Objects

/-- The text of a member of an object. -/
def renderMember (m : String × Value) : Bytes :=
  renderString m.1 ++ colon :: m.2.render

theorem renderMembers_cons (m : String × Value) (ms : List (String × Value)) :
    renderMembers (m :: ms) = renderMember m ++ ms.flatMap fun m => comma :: renderMember m := by
  induction ms generalizing m with
  | nil => simp [renderMembers, renderMember]
  | cons m' ms ih =>
      rw [renderMembers, ih m', List.flatMap_cons]
      simp [renderMember]

/-- The members are read one after the other, each from its colon on, and lead from one state to
another. -/
inductive MembersRead {σ : Type} (read : String → σ → Parser σ) :
    List (String × Value) → σ → σ → Prop
  | nil (s : σ) : MembersRead read [] s s
  | cons {k : String} {v : Value} {ms : List (String × Value)} {s t u : σ}
      (h : ReadsBefore (read k s) (colon :: v.render) t) (hs : MembersRead read ms t u) :
      MembersRead read ((k, v) :: ms) s u

theorem objectGoesOn_end (first : Bool) (rest : Bytes) :
    objectGoesOn first (closeBrace :: rest) = .ok (false, closeBrace :: rest) := by
  rw [objectGoesOn, bind_ok (peekOr_cons rfl _ _), if_pos rfl]
  rfl

theorem objectGoesOn_first (rest : Bytes) :
    objectGoesOn true (quote :: rest) = .ok (true, quote :: rest) := by
  rw [objectGoesOn, bind_ok (peekOr_cons rfl _ _), if_neg (by decide), if_pos rfl, if_pos rfl]
  rfl

theorem objectGoesOn_comma (rest : Bytes) :
    objectGoesOn false (comma :: quote :: rest) = .ok (true, quote :: rest) := by
  rw [objectGoesOn, bind_ok (peekOr_cons rfl _ _), if_neg (by decide), if_neg (by decide),
    if_pos rfl, bind_ok (skip_cons _ _), bind_ok (peekOr_cons rfl _ _), if_pos rfl]
  rfl

theorem endObject_cons (rest : Bytes) : endObject (closeBrace :: rest) = .ok ((), rest) := by
  rw [endObject, bind_ok (peekOr_cons rfl _ _), if_pos rfl]
  rfl

theorem key_reads (k : String) : Reads key (renderString k) k := by
  intro rest
  rw [renderString_eq, List.cons_append, key, bind_ok (peek_cons rfl _), bind_ok (skip_cons _ _)]
  exact stringBody_reads k rest

theorem colonBefore_reads : Reads colonBefore [colon] () := by
  intro rest
  rw [List.singleton_append, colonBefore, bind_ok (peekOr_cons rfl _ _), if_pos rfl]
  rfl

variable {σ : Type} {read : String → σ → Parser σ} {ms : List (String × Value)} {s u : σ}

/-- No number goes on where the next member or the end of the object stands. -/
theorem breaks_members (ms : List (String × Value)) (rest : Bytes) :
    Breaks ((ms.flatMap fun m => comma :: renderMember m) ++ closeBrace :: rest) := by
  cases ms with
  | nil => exact breaks_closeBrace rest
  | cons m ms => exact breaks_comma _

/-- The key of a member is read, and what follows is read from the colon on. -/
theorem key_member {α : Type} (m : String × Value) (f : String → Parser α) (more : Bytes) :
    (key >>= f) (renderMember m ++ more) = f m.1 (colon :: m.2.render ++ more) := by
  rw [renderMember, List.append_assoc]
  exact bind_ok (key_reads m.1 _)

theorem renderMember_quote (m : String × Value) (more : Bytes) :
    ∃ tail, renderMember m ++ more = quote :: tail :=
  ⟨_, by rw [renderMember, renderString_eq, List.append_assoc, List.cons_append]⟩

/-- An object goes on with its first member. -/
theorem members_first (m : String × Value) (fuel : Nat) (s : σ) (more : Bytes) :
    members read (fuel + 1) true s (renderMember m ++ more) =
      (read m.1 s >>= members read fuel false) (colon :: m.2.render ++ more) := by
  obtain ⟨tail, htail⟩ := renderMember_quote m more
  have hgoes : objectGoesOn true (renderMember m ++ more) = .ok (true, renderMember m ++ more) := by
    rw [htail]
    exact objectGoesOn_first tail
  rw [members, bind_ok hgoes, if_pos rfl]
  exact key_member m _ more

/-- An object goes on with a further member. -/
theorem members_more (m : String × Value) (fuel : Nat) (s : σ) (more : Bytes) :
    members read (fuel + 1) false s (comma :: renderMember m ++ more) =
      (read m.1 s >>= members read fuel false) (colon :: m.2.render ++ more) := by
  obtain ⟨tail, htail⟩ := renderMember_quote m more
  have hgoes : objectGoesOn false (comma :: renderMember m ++ more) =
      .ok (true, renderMember m ++ more) := by
    rw [List.cons_append, htail]
    exact objectGoesOn_comma tail
  rw [members, bind_ok hgoes, if_pos rfl]
  exact key_member m _ more

/-- What is left of an object after its first members is read to its end. -/
theorem members_reads_more (h : MembersRead read ms s u) :
    ∀ {fuel : Nat}, ms.length < fuel → ∀ rest,
      members read fuel false s ((ms.flatMap fun m => comma :: renderMember m) ++
        closeBrace :: rest) = .ok (u, closeBrace :: rest) := by
  induction h with
  | nil s =>
      intro fuel hfuel rest
      obtain ⟨fuel, rfl⟩ := Nat.exists_eq_succ_of_ne_zero (Nat.ne_of_gt hfuel)
      rw [List.flatMap_nil, List.nil_append, members, bind_ok (objectGoesOn_end false rest),
        if_neg (by decide)]
      rfl
  | @cons k v ms s t u hread hs ih =>
      intro fuel hfuel rest
      obtain ⟨fuel, rfl⟩ := Nat.exists_eq_succ_of_ne_zero (Nat.ne_of_gt (Nat.zero_lt_of_lt hfuel))
      simp only [List.length_cons, Nat.succ_lt_succ_iff] at hfuel
      rw [List.flatMap_cons, List.append_assoc, members_more,
        bind_ok (hread _ (breaks_members ms rest))]
      exact ih hfuel rest

/-- The members of an object are read to its end. -/
theorem members_reads (h : MembersRead read ms s u) {fuel : Nat} (hfuel : ms.length < fuel)
    (rest : Bytes) :
    members read fuel true s (renderMembers ms ++ closeBrace :: rest) =
      .ok (u, closeBrace :: rest) := by
  obtain ⟨fuel, rfl⟩ := Nat.exists_eq_succ_of_ne_zero (Nat.ne_of_gt (Nat.zero_lt_of_lt hfuel))
  cases h with
  | nil s =>
      rw [renderMembers, List.nil_append, members, bind_ok (objectGoesOn_end true rest),
        if_neg (by decide)]
      rfl
  | @cons k v ms s t u hread hs =>
      simp only [List.length_cons, Nat.succ_lt_succ_iff] at hfuel
      rw [renderMembers_cons, List.append_assoc, members_first,
        bind_ok (hread _ (breaks_members ms rest))]
      exact members_reads_more hs hfuel rest

theorem length_le_length_renderMembers (ms : List (String × Value)) :
    ms.length ≤ (renderMembers ms).length := by
  cases ms with
  | nil => exact Nat.zero_le _
  | cons m ms =>
      have hmore : ms.length ≤ (ms.flatMap fun m => comma :: renderMember m).length :=
        length_le_length_flatMap fun _ _ => List.cons_ne_nil _ _
      have hfirst : 1 ≤ (renderMember m).length := by
        simp [renderMember, renderString]
      rw [renderMembers_cons, List.length_append, List.length_cons]
      omega

theorem get_ok (bytes : Bytes) : (get : Parser Bytes) bytes = .ok (bytes, bytes) := rfl

/-- There is enough fuel for the members of an object, and for more. -/
theorem members_fuel (ms : List (String × Value)) (rest : Bytes) :
    ms.length < (renderMembers ms ++ closeBrace :: rest).length + 1 := by
  have := length_le_length_renderMembers ms
  rw [List.length_append]
  omega

/-- A structure in its object form is read back, if its fields are. -/
theorem layout_reads {α : Type} {r : Layout σ α} {a : α}
    (h : MembersRead r.member ms r.start u) (hbuild : r.build u = .ok a) :
    Reads r.read (Value.object ms).render a := by
  intro rest
  rw [Value.render, List.cons_append, List.cons_append, List.append_assoc, List.singleton_append,
    Layout.read, bind_ok (peekOr_cons rfl _ _), if_neg (by decide), if_pos rfl,
    bind_ok (skip_cons _ _), bind_ok (get_ok _),
    bind_ok (members_reads h (members_fuel ms rest) rest)]
  have hlift :
      (liftM (r.build u) : Parser α) (closeBrace :: rest) = .ok (a, closeBrace :: rest) := by
    rw [hbuild]
    rfl
  rw [bind_ok hlift, bind_ok (endObject_cons rest)]
  rfl

/-- A map is read back, if its values are. -/
theorem mapOf_reads {α : Type} {p : Parser α} {insert : σ → String → α → σ} {start : σ}
    (h : MembersRead
      (fun k s => do
        colonBefore
        return insert s k (← p)) ms start u) :
    Reads (mapOf p insert start) (Value.object ms).render u := by
  intro rest
  rw [Value.render, List.cons_append, List.cons_append, List.append_assoc, List.singleton_append,
    mapOf, bind_ok (peekOr_cons rfl _ _), if_pos rfl, bind_ok (skip_cons _ _), bind_ok (get_ok _),
    bind_ok (members_reads h (members_fuel ms rest) rest), bind_ok (endObject_cons rest)]
  rfl

/-- A field that has not been read yet is read behind its colon. -/
theorem member_reads {α : Type} {r : Layout σ α} {k : String} {f : FieldParser σ} {s t : σ}
    {v : Value} (hf : r.fields.find? (fun f => f.name == k) = some f) (hs : f.isSet s = false)
    (h : ReadsBefore (f.read s) v.render t) :
    ReadsBefore (r.member k s) (colon :: v.render) t := by
  have hmember : r.member k s = (do
      colonBefore
      f.read s) := by
    rw [Layout.member, hf]
    simp [hs]
  rw [hmember]
  exact colonBefore_reads.bind_before h

end Objects

end Json

namespace JsonForm

open Json

section Forms

theorem kinds_lookup (k : Kind) : kinds.lookup k.name = some k := by
  cases k <;> rfl

theorem actions_lookup (a : Action) : actions.lookup a.name = some a := by
  cases a <;> rfl

/-- An id is read back. -/
theorem readId_reads (id : CommandId) : Reads readId (ofId id).render id := by
  have hfields : MembersRead idLayout.member
      [("kind", .string id.kind.name), ("entity", .string id.entity),
        ("action", .string id.action.name)] {}
      { kind := some id.kind, entity := some id.entity, action := some id.action } := by
    refine .cons (t := { kind := some id.kind }) (member_reads rfl rfl ?_)
      (.cons (t := { kind := some id.kind, entity := some id.entity }) (member_reads rfl rfl ?_)
        (.cons (member_reads rfl rfl ?_) (.nil _)))
    · exact (variant_reads (kinds_lookup id.kind)).before.map _
    · exact (string_reads id.entity).before.map _
    · exact (variant_reads (actions_lookup id.action)).before.map _
  have hread : Reads idLayout.read (ofId id).render (id.kind, id.entity, id.action) :=
    layout_reads hfields rfl
  intro rest
  rw [readId, bind_ok (hread rest)]
  simp only [CommandId.make, id.isEntity, dite_true]
  rfl

/-- Properties are read into a map one after the other. -/
theorem properties_read (entries : List (String × String)) (start : Properties) :
    MembersRead
      (fun k s => do
        colonBefore
        return SortedMap.insert s k (← string))
      (entries.map fun (k, v) => (k, .string v)) start
      (entries.foldl (fun m e => m.insert e.1 e.2) start) := by
  induction entries generalizing start with
  | nil => exact .nil start
  | cons e entries ih =>
      exact .cons (colonBefore_reads.bind ((string_reads e.2).map _)).before
        (ih (start.insert e.1 e.2))

/-- Properties are read back. -/
theorem readProperties_reads (properties : Properties) :
    Reads readProperties
      (Value.object (properties.entries.map fun (k, v) => (k, .string v))).render properties := by
  have h := mapOf_reads (properties_read properties.entries ∅)
  rw [show properties.entries.foldl (fun m e => m.insert e.1 e.2) ∅ = properties from
    SortedMap.ofList_entries properties] at h
  exact h

/-- A command is read back. -/
theorem readCommand_reads (c : Command) : Reads readCommand (ofCommand c).render c := by
  have hfields : MembersRead commandLayout.member
      [("statement", .string c.statement),
        ("overwrite_properties",
          .object (c.properties.entries.map fun (k, v) => (k, .string v)))] {}
      { statement := some c.statement, properties := some c.properties } := by
    refine .cons (t := { statement := some c.statement }) (member_reads rfl rfl ?_)
      (.cons (member_reads rfl rfl ?_) (.nil _))
    · exact (string_reads c.statement).before.map _
    · exact (readProperties_reads c.properties).before.map _
  exact layout_reads hfields rfl

end Forms

end JsonForm

section Codecs

/-- The codec can write every value, and reads back what it has written. -/
def Codec.RoundTrips {α : Type} (c : Codec α) : Prop :=
  ∀ a, ∃ bytes, c.encode a = .ok bytes ∧ c.decode bytes = .ok a

/-- The codec can write this value, and reads it back. -/
def Codec.ReadsBack {α : Type} (c : Codec α) (a : α) : Prop :=
  ∃ bytes, c.encode a = .ok bytes ∧ c.decode bytes = .ok a

/-- A codec in JSON reads back what its parser does at the end of the input. -/
theorem Codec.json_readsBack {α : Type} {write : α → Json.Value} {read : Json.Parser α} {a : α}
    (h : Json.ReadsBefore read (write a).render a) : (Codec.json write read).ReadsBack a := by
  refine ⟨(write a).render, rfl, ?_⟩
  have hread := h [] Json.breaks_nil
  rw [List.append_nil] at hread
  have hdecode : Json.decode read (write a).render = .ok a := by
    simp [Json.decode, hread]
  change (Json.decode read (write a).render).mapError CodecError.ofJson = .ok a
  rw [hdecode]
  rfl

/-- A codec in JSON reads back what its parser does. -/
theorem Codec.json_roundTrips {α : Type} {write : α → Json.Value} {read : Json.Parser α}
    (h : ∀ a, Json.Reads read (write a).render a) : (Codec.json write read).RoundTrips :=
  fun a => Codec.json_readsBack (h a).before

theorem idCodec_roundTrips : JsonForm.idCodec.RoundTrips :=
  Codec.json_roundTrips JsonForm.readId_reads

theorem commandCodec_roundTrips : JsonForm.commandCodec.RoundTrips :=
  Codec.json_roundTrips JsonForm.readCommand_reads

end Codecs

end ReplicatedLog
