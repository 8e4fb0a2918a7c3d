import Mathlib.Data.List.Induction
import ReplicatedLog.Proofs.Cluster.Engine
import ReplicatedLog.Proofs.Command.TextForm
import ReplicatedLog.Proofs.Data.Updating

/-!
# What an engine remembers

The state of an engine is a digest of the commands that it has executed since it was new: the
history alone tells what is live, what was executed and how far the engine has come.

* `Engine.keyOf` is the key of an entity of a kind, and `keyOf_injective`: no two share one;
* `Engine.lastChange` is the last command of a history that creates or drops an entity, and
  `Engine.defined` the statement that defines the entity after the history;
* `Engine.Executes`: what one command does to an engine, case by case;
* `Engine.Remembers`: an engine is what a history defines, which `Remembers.execute` extends by
  one command and `run_remembers` says of every history;
* `run_tells_history`: with it, a command fails just if it drops what is not live.
-/

namespace ReplicatedLog
namespace Engine

section Keys

/-- The key of the entity with a name among those of a kind. -/
def keyOf (kind : Kind) (entity : String) : String :=
  kind.name ++ "/" ++ entity

theorem entityKey_eq (id : CommandId) : entityKey id = keyOf id.kind id.entity :=
  rfl

/-- No name of a kind holds a `/`, so that a key tells the kind and the name. -/
theorem keyOf_injective {kind kind' : Kind} {entity entity' : String}
    (h : keyOf kind entity = keyOf kind' entity') : kind = kind' ∧ entity = entity' := by
  have hparts : ∀ (k : Kind) (e : String), Text.partsAt '/' (keyOf k e).toList =
      k.name.toList :: Text.partsAt '/' e.toList := by
    intro k e
    rw [← Text.partsAt_append (CommandId.kind_not_mem k)]
    simp [keyOf, String.toList_append]
  have hsame := hparts kind entity
  rw [h, hparts kind' entity'] at hsame
  have hkind : kind = kind' :=
    Kind.naming.injective (String.toList_inj.1 (List.cons.inj hsame).1.symm)
  subst hkind
  exact ⟨rfl, (String.append_right_inj _).1 h⟩

end Keys

section Histories

/-- The command creates or drops the entity.  A termination does neither. -/
def Changes (kind : Kind) (entity : String) (q : QueuedCommand) : Prop :=
  q.id.kind = kind ∧ kind ≠ .terminate ∧ q.id.entity = entity ∧
    (q.id.action = .create ∨ q.id.action = .drop)

instance (kind : Kind) (entity : String) (q : QueuedCommand) :
    Decidable (Changes kind entity q) :=
  inferInstanceAs (Decidable (_ ∧ _))

/-- The last command of a history that creates or drops the entity. -/
def lastChange (kind : Kind) (entity : String) (history : List QueuedCommand) :
    Option QueuedCommand :=
  (history.filter fun q => Changes kind entity q).getLast?

/-- The statement that defines the entity after a history: that of the last command that creates
or drops it, if this creates it. -/
def defined (kind : Kind) (entity : String) (history : List QueuedCommand) : Option String :=
  (lastChange kind entity history).bind fun q =>
    if q.id.action = .create then some q.command.statement else none

/-- The command is one whose statement is noted. -/
def IsNoted (q : QueuedCommand) : Prop :=
  q.id.kind = .terminate ∨ q.id.action = .execute

instance (q : QueuedCommand) : Decidable (IsNoted q) :=
  inferInstanceAs (Decidable (_ ∨ _))

/-- The statements of a history that are noted, in order. -/
def noted (history : List QueuedCommand) : List String :=
  (history.filter fun q => IsNoted q).map fun q => q.command.statement

/-- The sequence number of the last command of a history that has one. -/
def lastSequence (history : List QueuedCommand) : Option Nat :=
  (history.filterMap QueuedCommand.sequence).getLast?

variable {kind : Kind} {entity : String} {q : QueuedCommand}

theorem defined_concat (kind : Kind) (entity : String) (history : List QueuedCommand)
    (q : QueuedCommand) :
    defined kind entity (history ++ [q]) =
      if Changes kind entity q then
        if q.id.action = .create then some q.command.statement else none
      else defined kind entity history := by
  by_cases h : Changes kind entity q <;> simp [defined, lastChange, h]

theorem noted_concat (history : List QueuedCommand) (q : QueuedCommand) :
    noted (history ++ [q]) =
      noted history ++ if IsNoted q then [q.command.statement] else [] := by
  by_cases h : IsNoted q <;> simp [noted, h]

theorem lastSequence_concat (history : List QueuedCommand) (q : QueuedCommand) :
    lastSequence (history ++ [q]) = q.sequence.or (lastSequence history) := by
  rw [lastSequence, lastSequence, List.filterMap_append]
  cases hq : q.sequence <;> simp [hq]

/-- A command that is noted leaves the entities alone. -/
theorem IsNoted.not_changes (h : IsNoted q) : ¬ Changes kind entity q := by
  rintro ⟨hkind, hlasting, -, haction⟩
  rcases h with h | h
  · exact hlasting (hkind.symm.trans h)
  · rw [h] at haction
    rcases haction with haction | haction <;> cases haction

/-- A command to create or drop changes the entity whose key it has. -/
theorem changes_iff (lasting : q.id.kind ≠ .terminate)
    (h : q.id.action = .create ∨ q.id.action = .drop) :
    Changes kind entity q ↔ keyOf kind entity = entityKey q.id := by
  constructor
  · rintro ⟨rfl, -, rfl, -⟩
    rfl
  · intro hkey
    obtain ⟨rfl, rfl⟩ := keyOf_injective hkey
    exact ⟨rfl, lasting, rfl, h⟩

theorem not_isNoted (lasting : q.id.kind ≠ .terminate)
    (h : q.id.action = .create ∨ q.id.action = .drop) : ¬ IsNoted q :=
  fun hnoted => hnoted.not_changes ⟨rfl, lasting, rfl, h⟩

end Histories

section Steps

variable {e : Engine} {q : QueuedCommand}

/-- What a command does to an engine. -/
inductive Executes (e : Engine) (q : QueuedCommand) : Verdict × Engine → Prop
  | notes (isNoted : IsNoted q) :
      Executes e q (.succeeded, { e with
        appliedThrough := q.sequence.or e.appliedThrough
        executed := e.executed ++ [q.command.statement] })
  | creates (lasting : q.id.kind ≠ .terminate) (create : q.id.action = .create) :
      Executes e q (.succeeded, { e with
        appliedThrough := q.sequence.or e.appliedThrough
        entities := e.entities.insert (entityKey q.id) q.command.statement })
  | drops (lasting : q.id.kind ≠ .terminate) (drop : q.id.action = .drop)
      (live : e.entities.contains (entityKey q.id) = true) :
      Executes e q (.succeeded, { e with
        appliedThrough := q.sequence.or e.appliedThrough
        entities := e.entities.erase (entityKey q.id) })
  | misses (lasting : q.id.kind ≠ .terminate) (drop : q.id.action = .drop)
      (gone : e.entities.contains (entityKey q.id) = false) :
      Executes e q (.failed (missing (entityKey q.id)), { e with
        appliedThrough := q.sequence.or e.appliedThrough })

theorem execute_executes (e : Engine) (q : QueuedCommand) : Executes e q (e.execute q) := by
  unfold execute
  dsimp only
  split
  next hkind => exact .notes (Or.inl hkind)
  next haction _ => exact .notes (Or.inr haction)
  next haction hlasting => exact .creates hlasting haction
  next haction hlasting =>
    split
    next hlive => exact .drops hlasting haction hlive
    next hgone => exact .misses hlasting haction (Bool.eq_false_iff.2 hgone)

/-- What a command does to an entity. -/
theorem get?_execute (e : Engine) (q : QueuedCommand) (kind : Kind) (entity : String) :
    (e.execute q).2.entities.get? (keyOf kind entity) =
      if Changes kind entity q then
        if q.id.action = .create then some q.command.statement else none
      else e.entities.get? (keyOf kind entity) := by
  have hexecutes := execute_executes e q
  generalize e.execute q = result at hexecutes
  cases hexecutes with
  | notes isNoted => rw [if_neg isNoted.not_changes]
  | creates lasting create =>
      simp only [changes_iff lasting (Or.inl create), create, if_true]
      by_cases hkey : keyOf kind entity = entityKey q.id
      · rw [if_pos hkey, hkey, SortedMap.get?_insert_self]
      · rw [if_neg hkey, SortedMap.get?_insert_of_ne _ _ hkey]
  | drops lasting drop live =>
      simp only [changes_iff lasting (Or.inr drop), drop, reduceCtorEq, if_false]
      by_cases hkey : keyOf kind entity = entityKey q.id
      · rw [if_pos hkey, hkey, SortedMap.get?_erase_self]
      · rw [if_neg hkey, SortedMap.get?_erase_of_ne _ hkey]
  | misses lasting drop gone =>
      simp only [changes_iff lasting (Or.inr drop), drop, reduceCtorEq, if_false]
      by_cases hkey : keyOf kind entity = entityKey q.id
      · -- what is dropped in vain was not there before either
        rw [if_pos hkey, hkey]
        simpa [SortedMap.contains] using gone
      · rw [if_neg hkey]

/-- A command adds no key but that of its own entity. -/
theorem key_of_execute {key statement : String}
    (h : (e.execute q).2.entities.get? key = some statement) :
    key = entityKey q.id ∨ e.entities.get? key = some statement := by
  refine or_iff_not_imp_left.2 fun hkey => ?_
  have hexecutes := execute_executes e q
  generalize e.execute q = result at h hexecutes
  cases hexecutes with
  | notes | misses => exact h
  | creates => rwa [SortedMap.get?_insert_of_ne _ _ hkey] at h
  | drops => rwa [SortedMap.get?_erase_of_ne _ hkey] at h

theorem executed_execute (e : Engine) (q : QueuedCommand) :
    (e.execute q).2.executed =
      e.executed ++ if IsNoted q then [q.command.statement] else [] := by
  have hexecutes := execute_executes e q
  generalize e.execute q = result at hexecutes
  cases hexecutes with
  | notes isNoted => rw [if_pos isNoted]
  | creates lasting create =>
      rw [if_neg (not_isNoted lasting (Or.inl create)), List.append_nil]
  | drops lasting drop live =>
      rw [if_neg (not_isNoted lasting (Or.inr drop)), List.append_nil]
  | misses lasting drop gone =>
      rw [if_neg (not_isNoted lasting (Or.inr drop)), List.append_nil]

end Steps

section Memory

/-- An engine is what a history defines. -/
structure Remembers (e : Engine) (history : List QueuedCommand) : Prop where
  /-- An entity is live with the statement that defines it. -/
  entities : ∀ kind entity,
    e.entities.get? (keyOf kind entity) = defined kind entity history
  /-- Nothing but entities is live. -/
  keys : ∀ key statement, e.entities.get? key = some statement →
    ∃ kind entity, key = keyOf kind entity
  executed : e.executed = noted history
  appliedThrough : e.appliedThrough = lastSequence history

variable {e : Engine} {history : List QueuedCommand} {q : QueuedCommand}

theorem remembers_new : Remembers {} [] := by
  constructor
  · intro kind entity
    rfl
  · intro key statement h
    cases h
  · rfl
  · rfl

/-- A command more for the engine is a command more of the history. -/
theorem Remembers.execute (h : e.Remembers history) (q : QueuedCommand) :
    (e.execute q).2.Remembers (history ++ [q]) := by
  constructor
  · intro kind entity
    rw [get?_execute, defined_concat, h.entities]
  · intro key statement hkey
    rcases key_of_execute hkey with hown | hold
    · exact ⟨q.id.kind, q.id.entity, hown.trans (entityKey_eq q.id)⟩
    · exact h.keys key statement hold
  · rw [executed_execute, noted_concat, h.executed]
  · rw [appliedThrough_execute, lastSequence_concat, h.appliedThrough]

/-- A new engine that has executed a history remembers it. -/
theorem run_remembers (history : List QueuedCommand) : (run {} history).Remembers history := by
  induction history using List.reverseRecOn with
  | nil => exact remembers_new
  | append_singleton history q ih =>
      rw [run_append]
      exact ih.execute q

/-- The command drops an entity that is not live after a history. -/
def DropsInVain (history : List QueuedCommand) (q : QueuedCommand) : Prop :=
  q.id.kind ≠ .terminate ∧ q.id.action = .drop ∧
    defined q.id.kind q.id.entity history = none

/-- A command fails just if it drops an entity that is not live. -/
theorem Remembers.succeeds_iff (h : e.Remembers history) :
    (e.execute q).1 = .succeeded ↔ ¬ DropsInVain history q := by
  have hlive : defined q.id.kind q.id.entity history = e.entities.get? (entityKey q.id) :=
    (h.entities _ _).symm
  rw [DropsInVain, hlive]
  have hexecutes := execute_executes e q
  generalize e.execute q = result at hexecutes
  cases hexecutes with
  | notes hnoted =>
      rcases hnoted with hkind | haction
      · simp [hkind]
      · simp [haction]
  | creates lasting create => simp [create]
  | drops lasting drop live =>
      rw [SortedMap.contains, Option.isSome_iff_ne_none] at live
      simp [live]
  | misses lasting drop gone => simpa [lasting, drop, SortedMap.contains] using gone

/-- A command that drops what is not live says what is missing, and the engine has seen it. -/
theorem Remembers.fails_iff (h : e.Remembers history) :
    e.execute q = (.failed (missing (entityKey q.id)),
      { e with appliedThrough := q.sequence.or e.appliedThrough }) ↔ DropsInVain history q := by
  constructor
  · intro hfails
    by_contra hvain
    have hsucceeds := h.succeeds_iff.2 hvain
    rw [hfails] at hsucceeds
    cases hsucceeds
  · intro hvain
    have hfails := mt h.succeeds_iff.1 (not_not_intro hvain)
    have hexecutes := execute_executes e q
    generalize e.execute q = result at hfails hexecutes ⊢
    cases hexecutes with
    | misses => rfl
    | notes | creates | drops => exact absurd rfl hfails

/-- A new engine that has executed a history is what the history defines: just those entities are
live whose last command is a create, with its statement and under keys that no two entities share;
it has executed the statements that are to be noted, and come to the last sequence number.  The next
command fails just if it drops what is not live, and then only how far it has come changes. -/
theorem run_tells_history (history : List QueuedCommand) :
    (run {} history).Remembers history ∧
      (Function.Injective fun entity : Kind × String => keyOf entity.1 entity.2) ∧
      ∀ q, (((run {} history).execute q).1 = .succeeded ↔ ¬ DropsInVain history q) ∧
        ((run {} history).execute q = (.failed (missing (entityKey q.id)),
          { run {} history with
            appliedThrough := q.sequence.or (run {} history).appliedThrough }) ↔
          DropsInVain history q) := by
  have hremembers := run_remembers history
  refine ⟨hremembers, ?_, fun q => ⟨hremembers.succeeds_iff, hremembers.fails_iff⟩⟩
  rintro ⟨kind, entity⟩ ⟨kind', entity'⟩ hkey
  obtain ⟨rfl, rfl⟩ := keyOf_injective hkey
  rfl

end Memory

end Engine
end ReplicatedLog
