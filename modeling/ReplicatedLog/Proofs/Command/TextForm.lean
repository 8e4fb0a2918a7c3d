import ReplicatedLog.Command.Id
import ReplicatedLog.Proofs.Text.Parts

/-!
# The text form of a command id

Which texts are read as an id, as which one, and what every other text is refused for.

* `Spells`: a text is a name up to the case of its ASCII letters;
* `Naming`: names that are told apart by their spellings, as those of the kinds and of the actions;
* `CommandId.Splits`: a text has exactly two `/`, and these are its three parts;
* `CommandId.Refusal`: the reasons to refuse a text, each with the text that it blames;
* `CommandId.parse_exact`: an id is read from a text if it splits into a kind, an entity that is not
  empty and an action; every other text has its reason; and the text form of an id is read as that
  id.
-/

namespace ReplicatedLog

/-- A text is a name, but for the case of its ASCII letters. -/
def Spells (text name : String) : Prop :=
  Text.SameUpToCase text.toList name.toList

/-- A text with its ASCII letters in lower case. -/
def lowered (text : String) : String :=
  String.ofList (Text.lowerCase text.toList)

section Names

variable {α : Type} {name : α → String} {all : List α}

/-- Everything that has a name is listed, and names in lower case tell all of it apart. -/
structure Naming (name : α → String) (all : List α) : Prop where
  complete : ∀ x, x ∈ all
  small : ∀ x, Text.lowerCase (name x).toList = (name x).toList
  injective : Function.Injective name

theorem Naming.spells_iff (h : Naming name all) {text : String} {x : α} :
    Spells text (name x) ↔ lowered text = name x := by
  rw [Spells, Text.sameUpToCase_iff, h.small, lowered]
  constructor
  · intro hlower
    rw [hlower, String.ofList_toList]
  · intro hlower
    rw [← hlower, String.toList_ofList]

/-- No text spells two names. -/
theorem Naming.eq_of_spells (h : Naming name all) {text : String} {x y : α}
    (hx : Spells text (name x)) (hy : Spells text (name y)) : x = y :=
  h.injective ((h.spells_iff.1 hx).symm.trans (h.spells_iff.1 hy))

theorem Naming.beq_iff (h : Naming name all) {text : String} {x : α} :
    ((name x).toList == Text.lowerCase text.toList) = true ↔ Spells text (name x) := by
  rw [beq_iff_eq, Spells, Text.sameUpToCase_iff, h.small, eq_comm]

/-- Looking a text up among the names finds the one that it spells. -/
theorem Naming.find?_eq_some_iff (h : Naming name all) {text : String} {x : α} :
    all.find? (fun y => (name y).toList == Text.lowerCase text.toList) = some x ↔
      Spells text (name x) := by
  have hfound : ∀ {y}, all.find? (fun y => (name y).toList == Text.lowerCase text.toList) = some y →
      Spells text (name y) := by
    intro y hfind
    have hbeq := List.find?_some hfind
    exact h.beq_iff.1 hbeq
  constructor
  · exact hfound
  · intro hspells
    cases hfind : all.find? (fun y => (name y).toList == Text.lowerCase text.toList) with
    | none => exact absurd (h.beq_iff.2 hspells) (List.find?_eq_none.1 hfind x (h.complete x))
    | some y => rw [h.eq_of_spells (hfound hfind) hspells]

/-- Nothing is found for a text that spells no name. -/
theorem Naming.find?_eq_none_iff (h : Naming name all) {text : String} :
    all.find? (fun y => (name y).toList == Text.lowerCase text.toList) = none ↔
      ∀ x, ¬ Spells text (name x) := by
  rw [List.find?_eq_none]
  constructor
  · exact fun hnone x hspells => hnone x (h.complete x) (h.beq_iff.2 hspells)
  · exact fun hnone x _ hbeq => hnone x (h.beq_iff.1 hbeq)

/-- The names of the kinds. -/
theorem Kind.naming : Naming Kind.name Kind.all where
  complete := by
    intro k
    cases k <;> decide
  small := by
    intro k
    cases k <;> decide
  injective := by
    intro k l h
    cases k <;> cases l <;> first | rfl | exact absurd h (by decide)

/-- The names of the actions. -/
theorem Action.naming : Naming Action.name Action.all where
  complete := by
    intro a
    cases a <;> decide
  small := by
    intro a
    cases a <;> decide
  injective := by
    intro a b h
    cases a <;> cases b <;> first | rfl | exact absurd h (by decide)

theorem Kind.parse_eq_ok_iff {text : String} {k : Kind} :
    Kind.parse text = .ok k ↔ Spells text k.name := by
  rw [← Kind.naming.find?_eq_some_iff, Kind.parse]
  split
  next h => rw [h, Except.ok.injEq, Option.some.injEq]
  next h => simp [h]

theorem Kind.parse_eq_error_iff {text : String} {e : IdError} :
    Kind.parse text = .error e ↔ (∀ k : Kind, ¬ Spells text k.name) ∧ e = .unknownKind text := by
  rw [← Kind.naming.find?_eq_none_iff, Kind.parse]
  split
  next h => simp [h]
  next h => rw [h, Except.error.injEq, eq_comm, and_iff_right rfl]

theorem Action.parse_eq_ok_iff {text : String} {a : Action} :
    Action.parse text = .ok a ↔ Spells text a.name := by
  rw [← Action.naming.find?_eq_some_iff, Action.parse]
  split
  next h => rw [h, Except.ok.injEq, Option.some.injEq]
  next h => simp [h]

theorem Action.parse_eq_error_iff {text : String} {e : IdError} :
    Action.parse text = .error e ↔
      (∀ a : Action, ¬ Spells text a.name) ∧ e = .unknownAction text := by
  rw [← Action.naming.find?_eq_none_iff, Action.parse]
  split
  next h => simp [h]
  next h => rw [h, Except.error.injEq, eq_comm, and_iff_right rfl]

end Names

namespace CommandId

section Splitting

variable {s a b c a' b' c' : String}

/-- A text has exactly two `/`, and these are the parts before, between and behind them. -/
structure Splits (s a b c : String) : Prop where
  count : s.toList.count '/' = 2
  joined : s = a ++ "/" ++ b ++ "/" ++ c

theorem toList_joined (a b c : String) :
    (a ++ "/" ++ b ++ "/" ++ c).toList =
      a.toList ++ '/' :: (b.toList ++ '/' :: c.toList) := by
  simp [String.toList_append]

theorem splits_iff :
    Splits s a b c ↔ Text.partsAt '/' s.toList = [a.toList, b.toList, c.toList] := by
  rw [Text.partsAt_eq_three_iff]
  constructor
  · rintro ⟨hcount, rfl⟩
    rw [toList_joined] at hcount ⊢
    simp only [List.count_append, List.count_cons_self] at hcount
    refine ⟨rfl, ?_, ?_, ?_⟩ <;> rw [← List.count_eq_zero] <;> omega
  · rintro ⟨hs, ha, hb, hc⟩
    refine ⟨?_, ?_⟩
    · rw [← List.count_eq_zero] at ha hb hc
      simp only [hs, List.count_append, List.count_cons_self]
      omega
    · rw [← String.toList_inj, hs, toList_joined]

/-- A text with two `/` splits. -/
theorem exists_splits (h : s.toList.count '/' = 2) : ∃ a b c, Splits s a b c := by
  have hlength := Text.length_partsAt '/' s.toList
  rw [h] at hlength
  obtain ⟨a, b, c, hparts⟩ := List.length_eq_three.1 hlength
  exact ⟨String.ofList a, String.ofList b, String.ofList c, splits_iff.2 (by
    simp only [String.toList_ofList, hparts])⟩

/-- A text splits in one way only. -/
theorem Splits.unique (h : Splits s a b c) (h' : Splits s a' b' c') :
    a = a' ∧ b = b' ∧ c = c' := by
  have hparts := (splits_iff.1 h).symm.trans (splits_iff.1 h')
  simp only [List.cons.injEq, String.toList_inj, and_true] at hparts
  exact hparts

theorem Splits.not_mem (h : Splits s a b c) : '/' ∉ b.toList :=
  (Text.partsAt_eq_three_iff.1 (splits_iff.1 h)).2.2.1

theorem Splits.isEntity_iff (h : Splits s a b c) : IsEntity b ↔ b ≠ "" :=
  and_iff_left h.not_mem

end Splitting

section Parsing

variable {s a b c : String} {k : Kind} {x : Action} {id : CommandId} {e : IdError}

theorem make_eq_ok_iff :
    make k b x = .ok id ↔ IsEntity b ∧ id.kind = k ∧ id.entity = b ∧ id.action = x := by
  rw [make]
  split
  next h =>
    rw [and_iff_right h, Except.ok.injEq]
    constructor
    · rintro rfl
      exact ⟨rfl, rfl, rfl⟩
    · rintro ⟨rfl, rfl, rfl⟩
      rfl
  next h => simp [h]

theorem make_eq_error_iff : make k b x = .error e ↔ ¬ IsEntity b ∧ e = .invalidEntity b := by
  rw [make]
  split
  next h => simp [h]
  next h => rw [and_iff_right h, Except.error.injEq, eq_comm]

/-- The parts of a text that splits are read in the order kind, action, entity. -/
theorem parse_of_splits (h : Splits s a b c) :
    parse s = (do
      let k ← Kind.parse a
      let x ← Action.parse c
      make k b x) := by
  simp only [parse, splits_iff.1 h, String.ofList_toList]

theorem parse_of_count (h : s.toList.count '/' ≠ 2) : parse s = .error (.malformed s) := by
  rw [parse]
  split
  next kind entity action hparts =>
    have hlength := Text.length_partsAt '/' s.toList
    rw [hparts, List.length_cons, List.length_cons, List.length_singleton] at hlength
    omega
  next => rfl

/-- Why a text is refused, with the text that is to blame. -/
inductive Refusal (s : String) : IdError → Prop
  | malformed (count : s.toList.count '/' ≠ 2) : Refusal s (.malformed s)
  | unknownKind {a b c : String} (parts : Splits s a b c)
      (kind : ∀ k : Kind, ¬ Spells a k.name) : Refusal s (.unknownKind a)
  | unknownAction {a b c : String} {k : Kind} (parts : Splits s a b c)
      (kind : Spells a k.name) (action : ∀ x : Action, ¬ Spells c x.name) :
      Refusal s (.unknownAction c)
  | invalidEntity {a c : String} {k : Kind} {x : Action} (parts : Splits s a "" c)
      (kind : Spells a k.name) (action : Spells c x.name) : Refusal s (.invalidEntity "")

/-- A text that splits into a kind, an entity and an action means the id of these. -/
def Means (s : String) (id : CommandId) : Prop :=
  ∃ a b c, Splits s a b c ∧ Spells a id.kind.name ∧ Spells c id.action.name ∧
    b ≠ "" ∧ id.entity = b

/-- Every text means an id, or there is a reason to refuse it. -/
theorem means_or_refusal (s : String) : (∃ id, Means s id) ∨ ∃ e, Refusal s e := by
  by_cases hcount : s.toList.count '/' = 2
  · obtain ⟨a, b, c, hsplits⟩ := exists_splits hcount
    by_cases hkind : ∃ k : Kind, Spells a k.name
    · obtain ⟨k, hkind⟩ := hkind
      by_cases haction : ∃ x : Action, Spells c x.name
      · obtain ⟨x, haction⟩ := haction
        by_cases hb : b = ""
        · subst hb
          exact Or.inr ⟨_, .invalidEntity hsplits hkind haction⟩
        · exact Or.inl ⟨⟨k, b, x, hsplits.isEntity_iff.2 hb⟩, a, b, c, hsplits, hkind, haction, hb,
            rfl⟩
      · exact Or.inr ⟨_, .unknownAction hsplits hkind (not_exists.1 haction)⟩
    · exact Or.inr ⟨_, .unknownKind hsplits (not_exists.1 hkind)⟩
  · exact Or.inr ⟨_, .malformed hcount⟩

theorem Means.parse (h : Means s id) : CommandId.parse s = .ok id := by
  obtain ⟨a, b, c, hsplits, hkind, haction, hb, hentity⟩ := h
  rw [parse_of_splits hsplits, Kind.parse_eq_ok_iff.2 hkind, Action.parse_eq_ok_iff.2 haction]
  exact make_eq_ok_iff.2 ⟨hsplits.isEntity_iff.2 hb, rfl, hentity, rfl⟩

theorem Refusal.parse (h : Refusal s e) : CommandId.parse s = .error e := by
  cases h with
  | malformed hcount => exact parse_of_count hcount
  | unknownKind hsplits hkind =>
      rw [parse_of_splits hsplits, Kind.parse_eq_error_iff.2 ⟨hkind, rfl⟩]
      rfl
  | unknownAction hsplits hkind haction =>
      rw [parse_of_splits hsplits, Kind.parse_eq_ok_iff.2 hkind,
        Action.parse_eq_error_iff.2 ⟨haction, rfl⟩]
      rfl
  | @invalidEntity a c k x hsplits hkind haction =>
      rw [parse_of_splits hsplits, Kind.parse_eq_ok_iff.2 hkind, Action.parse_eq_ok_iff.2 haction]
      exact (make_eq_error_iff (k := k) (x := x)).2 ⟨fun hentity => hentity.1 rfl, rfl⟩

/-- A text is read as the id that it means. -/
theorem parse_eq_ok_iff : parse s = .ok id ↔ Means s id := by
  constructor
  · intro h
    rcases means_or_refusal s with ⟨id', hmeans⟩ | ⟨e, hrefusal⟩
    · rw [hmeans.parse, Except.ok.injEq] at h
      rwa [← h]
    · rw [hrefusal.parse] at h
      cases h
  · exact Means.parse

/-- A text is refused for the first reason that there is. -/
theorem parse_eq_error_iff : parse s = .error e ↔ Refusal s e := by
  constructor
  · intro h
    rcases means_or_refusal s with ⟨id, hmeans⟩ | ⟨e', hrefusal⟩
    · rw [hmeans.parse] at h
      cases h
    · rw [hrefusal.parse, Except.error.injEq] at h
      rwa [← h]
  · exact Refusal.parse

end Parsing

section TextForm

variable {s a b c : String} {id : CommandId}

theorem kind_not_mem (k : Kind) : '/' ∉ k.name.toList := by
  cases k <;> decide

theorem action_not_mem (x : Action) : '/' ∉ x.name.toList := by
  cases x <;> decide

/-- The text form of an id splits into the three parts of the id. -/
theorem text_splits (id : CommandId) : Splits id.text id.kind.name id.entity id.action.name :=
  splits_iff.2 (Text.partsAt_eq_three_iff.2 ⟨toList_joined _ _ _, kind_not_mem _, id.isEntity.2,
    action_not_mem _⟩)

/-- The text form of an id is read as that id. -/
theorem parse_text (id : CommandId) : parse id.text = .ok id :=
  parse_eq_ok_iff.2 ⟨_, _, _, text_splits id, Text.sameUpToCase_iff.2 rfl,
    Text.sameUpToCase_iff.2 rfl, id.isEntity.1, rfl⟩

theorem text_injective : Function.Injective text := by
  intro id id' h
  have hparse := parse_text id
  rw [h, parse_text id'] at hparse
  exact (Except.ok.inj hparse).symm

/-- The text form of what was read from a text is that text with the kind and the action in lower
case. -/
theorem text_of_parse (h : parse s = .ok id) (hsplits : Splits s a b c) :
    id.text = lowered a ++ "/" ++ b ++ "/" ++ lowered c := by
  obtain ⟨a', b', c', hsplits', hkind, haction, -, hentity⟩ := parse_eq_ok_iff.1 h
  obtain ⟨rfl, rfl, rfl⟩ := hsplits'.unique hsplits
  rw [text, Kind.naming.spells_iff.1 hkind, Action.naming.spells_iff.1 haction, hentity]

/-- A text is read as an id exactly if it splits at two `/` into a kind, an entity and an action,
and as the id of these; every other text is refused for the first thing that is wrong with it.  The
text form of an id is read as that id, so no two ids share it, and it is what any text read as the
id says in lower case. -/
theorem parse_exact :
    (∀ s id, parse s = .ok id ↔
      ∃ a b c, Splits s a b c ∧ Spells a id.kind.name ∧ Spells c id.action.name ∧
        b ≠ "" ∧ id.entity = b) ∧
      (∀ s e, parse s = .error e ↔ Refusal s e) ∧
      (∀ id, parse id.text = .ok id) ∧
      Function.Injective text ∧
      ∀ s a b c id, parse s = .ok id → Splits s a b c →
        id.text = lowered a ++ "/" ++ b ++ "/" ++ lowered c :=
  ⟨fun _ _ => parse_eq_ok_iff, fun _ _ => parse_eq_error_iff, parse_text, text_injective,
    fun _ _ _ _ _ => text_of_parse⟩

/-- Capitals are fine in a kind and an action, and an entity stays as it is; a long s is no `s`. -/
theorem parse_exact_sample :
    parse "ſtream/a/create" = .error (.unknownKind "ſtream") ∧
      parse "TABLE/Straße/Drop" = .ok ⟨.table, "Straße", .drop, by decide⟩ ∧
      Splits "TABLE/Straße/Drop" "TABLE" "Straße" "Drop" ∧
      (⟨.table, "Straße", .drop, by decide⟩ : CommandId).text =
        lowered "TABLE" ++ "/" ++ "Straße" ++ "/" ++ lowered "Drop" := by
  have hparse : parse "TABLE/Straße/Drop" = .ok ⟨.table, "Straße", .drop, by decide⟩ := by
    decide +kernel
  have hsplits : Splits "TABLE/Straße/Drop" "TABLE" "Straße" "Drop" := ⟨by decide +kernel, rfl⟩
  exact ⟨by decide +kernel, hparse, hsplits, parse_exact.2.2.2.2 _ _ _ _ _ hparse hsplits⟩

end TextForm

end CommandId

end ReplicatedLog
