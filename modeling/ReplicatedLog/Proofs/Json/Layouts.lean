import ReplicatedLog.Proofs.Json.RoundTrip
import Mathlib.Data.List.Permutation

/-!
# The forms of a structure in JSON

A structure may be given as an object, with its fields in any order, or as a list of their values.

* `ElementsRead`: the values of a list lead through the fields of a structure, one after the other;
* `layout_reads_list`: a structure in its list form is read back, if its fields are;
* `JsonForm.PartsForm`: the forms of the three parts of an id, and `JsonForm.parts_reads`: each of
  them is read as the three parts.
-/

namespace ReplicatedLog
namespace Json

open Ascii

section Lists

variable {σ α : Type} {r : Layout σ α} {fs : List (FieldParser σ)} {vs : List Value} {s u : σ}

/-- A value begins with the bytes, not a list's end. -/
def Begins (bytes : Bytes) : Prop :=
  ∃ b rest, bytes = b :: rest ∧ isSpace b = false ∧ b ≠ closeBracket

theorem Begins.append {bytes : Bytes} (h : Begins bytes) (more : Bytes) :
    Begins (bytes ++ more) := by
  obtain ⟨b, rest, rfl, hspace, hend⟩ := h
  exact ⟨b, rest ++ more, rfl, hspace, hend⟩

theorem begins_string (s : String) : Begins (Value.string s).render :=
  ⟨quote, _, renderString_eq s, rfl, by decide⟩

theorem listGoesOn_first {bytes : Bytes} (h : Begins bytes) :
    listGoesOn true bytes = .ok (true, bytes) := by
  obtain ⟨b, rest, rfl, hspace, hend⟩ := h
  rw [listGoesOn, bind_ok (peekOr_cons hspace _ _), if_neg hend, if_pos rfl]
  rfl

theorem listGoesOn_comma {bytes : Bytes} (h : Begins bytes) :
    listGoesOn false (comma :: bytes) = .ok (true, bytes) := by
  obtain ⟨b, rest, rfl, hspace, hend⟩ := h
  rw [listGoesOn, bind_ok (peekOr_cons rfl _ _), if_neg (by decide), if_neg (by decide), if_pos rfl,
    bind_ok (skip_cons _ _), bind_ok (peekOr_cons hspace _ _), if_neg hend]
  rfl

theorem endList_cons (rest : Bytes) : endList (closeBracket :: rest) = .ok ((), rest) := by
  rw [endList, bind_ok (peekOr_cons rfl _ _), if_pos rfl]
  rfl

theorem renderItems_cons (v : Value) (vs : List Value) :
    renderItems (v :: vs) = v.render ++ vs.flatMap fun v => comma :: v.render := by
  induction vs generalizing v with
  | nil => simp [renderItems]
  | cons w vs ih => rw [renderItems, ih w, List.flatMap_cons, List.cons_append]

/-- The values are read into the fields, one after the other, and lead from one state to another. -/
inductive ElementsRead : List (FieldParser σ) → List Value → σ → σ → Prop
  | nil (s : σ) : ElementsRead [] [] s s
  | cons {f : FieldParser σ} {fs : List (FieldParser σ)} {v : Value} {vs : List Value} {s t u : σ}
      (begins : Begins v.render) (h : Reads (f.read s) v.render t) (hs : ElementsRead fs vs t u) :
      ElementsRead (f :: fs) (v :: vs) s u

/-- What is left of a list after its first values is read to its end. -/
theorem elements_reads_more (h : ElementsRead fs vs s u) :
    ∀ {index : Nat}, index ≠ 0 → ∀ rest,
      r.elements fs index s ((vs.flatMap fun v => comma :: v.render) ++ rest) = .ok (u, rest) := by
  induction h with
  | nil s =>
      intro index _ rest
      rfl
  | cons begins hread _ ih =>
      intro index hindex rest
      rw [Layout.elements, List.flatMap_cons, List.cons_append, List.cons_append, List.append_assoc,
        decide_eq_false hindex, bind_ok (listGoesOn_comma (begins.append _)), if_pos rfl,
        bind_ok (hread _)]
      exact ih (Nat.succ_ne_zero index) rest

/-- The values of a list are read to its end. -/
theorem elements_reads (h : ElementsRead fs vs s u) (rest : Bytes) :
    r.elements fs 0 s (renderItems vs ++ rest) = .ok (u, rest) := by
  cases h with
  | nil s => rfl
  | cons begins hread hs =>
      rw [Layout.elements, renderItems_cons, List.append_assoc, decide_eq_true rfl,
        bind_ok (listGoesOn_first (begins.append _)), if_pos rfl, bind_ok (hread _)]
      exact elements_reads_more hs (Nat.succ_ne_zero 0) rest

/-- A structure in its list form is read back, if its fields are. -/
theorem layout_reads_list {a : α} (h : ElementsRead r.fields vs r.start u)
    (hbuild : r.build u = .ok a) : Reads r.read (Value.list vs).render a := by
  intro rest
  rw [Value.render, List.cons_append, List.cons_append, List.append_assoc, List.singleton_append,
    Layout.read, bind_ok (peekOr_cons rfl _ _), if_pos rfl, bind_ok (skip_cons _ _),
    bind_ok (elements_reads h _)]
  have hlift :
      (liftM (r.build u) : Parser α) (closeBracket :: rest) = .ok (a, closeBracket :: rest) := by
    rw [hbuild]
    rfl
  rw [bind_ok hlift, bind_ok (endList_cons rest)]
  rfl

end Lists

end Json

namespace JsonForm

open Json

section Ids

variable {kind : Kind} {entity : String} {action : Action} {v : Value}

/-- The fields of an id, with the three parts as their values. -/
def partsMembers (kind : Kind) (entity : String) (action : Action) : List (String × Value) :=
  [("kind", .string kind.name), ("entity", .string entity), ("action", .string action.name)]

/-- The JSON form of the three parts of an id. -/
def ofParts (kind : Kind) (entity : String) (action : Action) : Value :=
  .object (partsMembers kind entity action)

/-- The forms of the three parts of an id in JSON. -/
inductive PartsForm (kind : Kind) (entity : String) (action : Action) : Value → Prop
  | object {ms : List (String × Value)} (h : ms.Perm (partsMembers kind entity action)) :
      PartsForm kind entity action (.object ms)
  | list : PartsForm kind entity action (.list ((partsMembers kind entity action).map Prod.snd))

theorem kind_reads {s : IdFields} (h : s.kind = none) (kind : Kind) :
    ReadsBefore (idLayout.member "kind" s) (Ascii.colon :: (Value.string kind.name).render)
      { s with kind := some kind } :=
  member_reads rfl (congrArg Option.isSome h) ((variant_reads (kinds_lookup kind)).before.map _)

theorem entity_reads {s : IdFields} (h : s.entity = none) (entity : String) :
    ReadsBefore (idLayout.member "entity" s) (Ascii.colon :: (Value.string entity).render)
      { s with entity := some entity } :=
  member_reads rfl (congrArg Option.isSome h) ((string_reads entity).before.map _)

theorem action_reads {s : IdFields} (h : s.action = none) (action : Action) :
    ReadsBefore (idLayout.member "action" s) (Ascii.colon :: (Value.string action.name).render)
      { s with action := some action } :=
  member_reads rfl (congrArg Option.isSome h) ((variant_reads (actions_lookup action)).before.map _)

/-- Three things stand in one of six orders. -/
theorem perm_three {β : Type} {x y z : β} {l : List β} (h : l.Perm [x, y, z]) :
    l = [x, y, z] ∨ l = [y, x, z] ∨ l = [z, y, x] ∨ l = [y, z, x] ∨ l = [z, x, y] ∨
      l = [x, z, y] := by
  have horders := List.mem_permutations.2 h
  simpa [List.permutations, List.permutationsAux, List.permutationsAux.rec] using horders

/-- The fields lead to the three parts in any order. -/
theorem partsMembers_read {ms : List (String × Value)}
    (h : ms.Perm (partsMembers kind entity action)) :
    MembersRead idLayout.member ms {} ⟨some kind, some entity, some action⟩ := by
  rcases perm_three h with rfl | rfl | rfl | rfl | rfl | rfl
  · exact .cons (kind_reads rfl kind) (.cons (entity_reads rfl entity)
      (.cons (action_reads rfl action) (.nil _)))
  · exact .cons (entity_reads rfl entity) (.cons (kind_reads rfl kind)
      (.cons (action_reads rfl action) (.nil _)))
  · exact .cons (action_reads rfl action) (.cons (entity_reads rfl entity)
      (.cons (kind_reads rfl kind) (.nil _)))
  · exact .cons (entity_reads rfl entity) (.cons (action_reads rfl action)
      (.cons (kind_reads rfl kind) (.nil _)))
  · exact .cons (action_reads rfl action) (.cons (kind_reads rfl kind)
      (.cons (entity_reads rfl entity) (.nil _)))
  · exact .cons (kind_reads rfl kind) (.cons (action_reads rfl action)
      (.cons (entity_reads rfl entity) (.nil _)))

/-- The three parts are read, in whichever form they are given. -/
theorem parts_reads (h : PartsForm kind entity action v) :
    Reads idLayout.read v.render (kind, entity, action) := by
  cases h with
  | object hms => exact layout_reads (partsMembers_read hms) rfl
  | list =>
      refine layout_reads_list (u := ⟨some kind, some entity, some action⟩) ?_ rfl
      refine .cons (t := ⟨some kind, none, none⟩) (begins_string _) ?_
        (.cons (t := ⟨some kind, some entity, none⟩) (begins_string _) ?_
          (.cons (begins_string _) ?_ (.nil _)))
      · exact (variant_reads (kinds_lookup kind)).map _
      · exact (string_reads entity).map _
      · exact (variant_reads (actions_lookup action)).map _

end Ids

end JsonForm

end ReplicatedLog
