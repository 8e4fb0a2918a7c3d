import ReplicatedLog.Proofs.Json.Trailing
import Mathlib.Data.List.Perm.Subperm
import Mathlib.Logic.Function.Basic

/-!
# Structures by their members

A structure is read from an object that may lack some of its members and may have them in any order.

* `AnswersBefore`: what a parser makes of given bytes, be it a value or an error;
* `MembersFail`: some members of an object are read, and the next one is not;
* `Layout.Takes`: whatever fields of a structure have been read before, a member is read into the
  field of its name; `layout_answers` and `layout_fails`: what the structure is read as then;
* `Layout.read_keeps`: what every field keeps to, the structure is built from;
* `Value.members`, `Value.without` and `Value.paths`: the members of an object, at any depth.
-/

namespace ReplicatedLog
namespace Json

open Ascii

section Outcomes

variable {α β : Type} {p : Parser α} {bytes bytes' : Bytes} {a : α} {x : Except Error α}

/-- Before bytes with which no number goes on, the parser takes the bytes and gives the value, or
fails with the error. -/
def AnswersBefore (p : Parser α) (bytes : Bytes) (x : Except Error α) : Prop :=
  ∀ rest, Breaks rest → p (bytes ++ rest) = x.map (·, rest)

theorem ReadsBefore.answers (h : ReadsBefore p bytes a) : AnswersBefore p bytes (.ok a) :=
  h

theorem AnswersBefore.map (h : AnswersBefore p bytes x) (f : α → β) :
    AnswersBefore (do return f (← p)) bytes (x.map f) := by
  intro rest hrest
  have hp := h rest hrest
  cases x with
  | ok a => exact bind_ok hp
  | error e => simp [bind, StateT.bind, hp, Except.map, Except.bind]

theorem Reads.bind_answers {f : α → Parser β} {y : Except Error β} (h : Reads p bytes a)
    (h' : AnswersBefore (f a) bytes' y) : AnswersBefore (p >>= f) (bytes ++ bytes') y := by
  intro rest hrest
  rw [List.append_assoc, bind_ok (h _), h' rest hrest]

/-- A document is what the parser makes of it. -/
theorem decode_of_answers (h : AnswersBefore p bytes x) : decode p bytes = x := by
  have hread := h [] breaks_nil
  rw [List.append_nil] at hread
  rw [decode, hread]
  cases x with
  | ok a => rfl
  | error e => rfl

/-- The bytes begin with neither white space nor the first letter of `null`. -/
def Solid (bytes : Bytes) : Prop :=
  ∃ b tail, bytes = b :: tail ∧ isSpace b = false ∧ b ≠ lowerN

/-- What is not null is read as a value. -/
theorem nullable_answers (hsolid : Solid bytes) (h : AnswersBefore p bytes x) :
    AnswersBefore (nullable p) bytes (x.map some) := by
  obtain ⟨b, tail, rfl, hspace, hnull⟩ := hsolid
  intro rest hrest
  rw [nullable, List.cons_append, bind_ok (peek_cons hspace _),
    if_neg (mt Option.some.inj hnull)]
  exact h.map some rest hrest

theorem nullable_null : Reads (nullable p) Value.null.render none := by
  intro rest
  rfl

theorem solid_object (ms : List (String × Value)) : Solid (Value.object ms).render :=
  ⟨openBrace, _, rfl, rfl, by decide⟩

theorem solid_string (s : String) : Solid (Value.string s).render :=
  ⟨quote, _, renderString_eq s, rfl, by decide⟩

end Outcomes

section Members

variable {σ α : Type} {read : String → σ → Parser σ} {ms : List (String × Value)} {s u : σ}
  {e : Error}

/-- Some members are read one after the other, and the next one fails with the error. -/
inductive MembersFail (read : String → σ → Parser σ) (e : Error) : List (String × Value) → σ → Prop
  | here {k : String} {v : Value} {ms : List (String × Value)} {s : σ}
      (h : AnswersBefore (read k s) (colon :: v.render) (.error e)) :
      MembersFail read e ((k, v) :: ms) s
  | there {k : String} {v : Value} {ms : List (String × Value)} {s t : σ}
      (h : ReadsBefore (read k s) (colon :: v.render) t) (hs : MembersFail read e ms t) :
      MembersFail read e ((k, v) :: ms) s

theorem bind_error {β : Type} {p : Parser α} {f : α → Parser β} {bytes : Bytes}
    (h : p bytes = .error e) : (p >>= f) bytes = .error e := by
  simp [bind, StateT.bind, h, Except.bind]

/-- An object of which some members have been read fails at a later one. -/
theorem members_fail_more (h : MembersFail read e ms s) :
    ∀ {fuel : Nat}, ms.length < fuel → ∀ rest,
      members read fuel false s ((ms.flatMap fun m => comma :: renderMember m) ++
        closeBrace :: rest) = .error e := by
  induction h with
  | @here k v ms s hfail =>
      intro fuel hfuel rest
      obtain ⟨fuel, rfl⟩ := Nat.exists_eq_succ_of_ne_zero (Nat.ne_of_gt (Nat.zero_lt_of_lt hfuel))
      rw [List.flatMap_cons, List.append_assoc, members_more]
      exact bind_error (hfail _ (breaks_members ms rest))
  | @there k v ms s t hread _ ih =>
      intro fuel hfuel rest
      obtain ⟨fuel, rfl⟩ := Nat.exists_eq_succ_of_ne_zero (Nat.ne_of_gt (Nat.zero_lt_of_lt hfuel))
      simp only [List.length_cons, Nat.succ_lt_succ_iff] at hfuel
      rw [List.flatMap_cons, List.append_assoc, members_more,
        bind_ok (hread _ (breaks_members ms rest))]
      exact ih hfuel rest

/-- An object fails at the first member that does. -/
theorem members_fail (h : MembersFail read e ms s) {fuel : Nat} (hfuel : ms.length < fuel)
    (rest : Bytes) :
    members read fuel true s (renderMembers ms ++ closeBrace :: rest) = .error e := by
  obtain ⟨fuel, rfl⟩ := Nat.exists_eq_succ_of_ne_zero (Nat.ne_of_gt (Nat.zero_lt_of_lt hfuel))
  cases h with
  | @here k v ms s hfail =>
      rw [renderMembers_cons, List.append_assoc, members_first]
      exact bind_error (hfail _ (breaks_members ms rest))
  | @there k v ms s t hread hs =>
      simp only [List.length_cons, Nat.succ_lt_succ_iff] at hfuel
      rw [renderMembers_cons, List.append_assoc, members_first,
        bind_ok (hread _ (breaks_members ms rest))]
      exact members_fail_more hs hfuel rest

variable {r : Layout σ α}

/-- A structure whose members are read is what is built from them. -/
theorem layout_builds (h : MembersRead r.member ms r.start u) :
    AnswersBefore r.read (Value.object ms).render (r.build u) := by
  cases hbuild : r.build u with
  | ok a => exact (layout_reads h hbuild).before.answers
  | error e =>
      intro rest _
      rw [Value.render, List.cons_append, List.cons_append, List.append_assoc,
        List.singleton_append, Layout.read, bind_ok (peekOr_cons rfl _ _), if_neg (by decide),
        if_pos rfl, bind_ok (skip_cons _ _), bind_ok (get_ok _),
        bind_ok (members_reads h (members_fuel ms rest) rest), hbuild]
      rfl

/-- A structure fails at the first member that does. -/
theorem layout_fails (h : MembersFail r.member e ms r.start) :
    AnswersBefore r.read (Value.object ms).render (.error e) := by
  intro rest _
  rw [Value.render, List.cons_append, List.cons_append, List.append_assoc, List.singleton_append,
    Layout.read, bind_ok (peekOr_cons rfl _ _), if_neg (by decide), if_pos rfl,
    bind_ok (skip_cons _ _), bind_ok (get_ok _)]
  exact bind_error (members_fail h (members_fuel ms rest) rest)

/-- A field that has not been read yet answers behind its colon. -/
theorem member_answers {k : String} {f : FieldParser σ} {v : Value} {x : Except Error σ}
    (hf : r.fields.find? (fun f => f.name == k) = some f) (hs : f.isSet s = false)
    (h : AnswersBefore (f.read s) v.render x) :
    AnswersBefore (r.member k s) (colon :: v.render) x := by
  have hmember : r.member k s = (do
      colonBefore
      f.read s) := by
    rw [Layout.member, hf]
    simp [hs]
  rw [hmember]
  exact colonBefore_reads.bind_answers h

end Members

section AnyOrder

variable {σ α : Type} {r : Layout σ α} {state : (String → Bool) → σ} {seen : String → Bool}
  {m : String × Value} {ms : List (String × Value)}

/-- Where the fields of some names have been read, but not that of the member, the member is read
into it; `state` tells what has been read from the names. -/
def Layout.Takes (r : Layout σ α) (state : (String → Bool) → σ) (m : String × Value) : Prop :=
  ∀ seen, seen m.1 = false →
    ReadsBefore (r.member m.1 (state seen)) (colon :: m.2.render)
      (state (Function.update seen m.1 true))

theorem Layout.takes_of_field {β : Type} {f : FieldParser σ} {p : Parser β} {b : β}
    {set : σ → β → σ}
    (hf : r.fields.find? (fun f => f.name == m.1) = some f)
    (hset : ∀ seen, f.isSet (state seen) = seen m.1)
    (hread : f.read = fun s => do return set s (← p)) (hp : ReadsBefore p m.2.render b)
    (hstate : ∀ seen, set (state seen) b = state (Function.update seen m.1 true)) :
    r.Takes state m := by
  intro seen hnew
  refine member_reads hf ((hset seen).trans hnew) ?_
  rw [hread, ← hstate]
  exact hp.map (set (state seen))

/-- A value, if the field of that name has been read. -/
def given {β : Type} (seen : String → Bool) (k : String) (b : β) : Option β :=
  if seen k then some b else none

@[simp] theorem isSome_given {β : Type} (k : String) (b : β) :
    (given seen k b).isSome = seen k := by
  cases h : seen k <;> simp [given, h]

@[simp] theorem given_update_self {β : Type} (k : String) (b : β) :
    given (Function.update seen k true) k b = some b := by
  simp [given]

@[simp] theorem given_update_of_ne {β : Type} {k l : String} (h : k ≠ l) (b : β) :
    given (Function.update seen l true) k b = given seen k b := by
  simp [given, h]

/-- Whether one of the members has the name. -/
def named (ms : List (String × Value)) (k : String) : Bool :=
  ms.any (·.1 == k)

theorem ne_of_not_mem_names {m' : String × Value} (h : m.1 ∉ ms.map Prod.fst) (hm' : m' ∈ ms) :
    m'.1 ≠ m.1 := by
  intro heq
  exact h (heq ▸ List.mem_map_of_mem hm')

/-- Members of different names are read in any order. -/
theorem members_read_any (h : ∀ m ∈ ms, r.Takes state m) (hnodup : (ms.map Prod.fst).Nodup)
    (hnew : ∀ m ∈ ms, seen m.1 = false) :
    MembersRead r.member ms (state seen) (state fun k => seen k || named ms k) := by
  induction ms generalizing seen with
  | nil =>
      have hsame : (fun k => seen k || named [] k) = seen := by
        funext k
        exact Bool.or_false (seen k)
      rw [hsame]
      exact .nil _
  | cons m ms ih =>
      rw [List.map_cons, List.nodup_cons] at hnodup
      have hlater : ∀ m' ∈ ms, Function.update seen m.1 true m'.1 = false := by
        intro m' hm'
        rw [Function.update_of_ne (ne_of_not_mem_names hnodup.1 hm')]
        exact hnew m' (List.mem_cons_of_mem m hm')
      have hrest := ih (fun m' hm' => h m' (List.mem_cons_of_mem m hm')) hnodup.2 hlater
      have hsame : (fun k => Function.update seen m.1 true k || named ms k) =
          fun k => seen k || named (m :: ms) k := by
        funext k
        rw [named, named, List.any_cons]
        by_cases hk : m.1 = k
        · simp [hk]
        · rw [Function.update_of_ne (Ne.symm hk), beq_false_of_ne hk, Bool.false_or]
      rw [hsame] at hrest
      exact .cons (h m List.mem_cons_self seen (hnew m List.mem_cons_self)) hrest

/-- A structure is what is built from those of its members that are there, in any order. -/
theorem layout_answers {all : List (String × Value)} (h : ∀ m ∈ all, r.Takes state m)
    (hnodup : (all.map Prod.fst).Nodup) (hstart : state (fun _ => false) = r.start)
    (hsub : ms.Subperm all) :
    AnswersBefore r.read (Value.object ms).render (r.build (state (named ms))) := by
  have hnames : (ms.map Prod.fst).Nodup := by
    obtain ⟨l, hperm, hsublist⟩ := hsub
    exact (hperm.map Prod.fst).nodup_iff.1 ((hsublist.map Prod.fst).nodup hnodup)
  have hread : MembersRead r.member ms (state fun _ => false)
      (state fun k => false || named ms k) :=
    members_read_any (fun m hm => h m (hsub.subset hm)) hnames fun _ _ => rfl
  simp only [Bool.false_or] at hread
  rw [hstart] at hread
  exact layout_builds hread

/-- A structure fails at a member that does, if those before it are read. -/
theorem layout_fails_at {before after : List (String × Value)} {e : Error}
    (h : ∀ m ∈ before, r.Takes state m) (hnodup : ((before ++ m :: after).map Prod.fst).Nodup)
    (hstart : state (fun _ => false) = r.start)
    (hfail : ∀ seen, seen m.1 = false →
      AnswersBefore (r.member m.1 (state seen)) (colon :: m.2.render) (.error e)) :
    AnswersBefore r.read (Value.object (before ++ m :: after)).render (.error e) := by
  have hmembers : ∀ seen : String → Bool, (∀ m' ∈ before ++ m :: after, seen m'.1 = false) →
      MembersFail r.member e (before ++ m :: after) (state seen) := by
    induction before with
    | nil => exact fun seen hnew => .here (hfail seen (hnew m List.mem_cons_self))
    | cons m₀ before ih =>
        intro seen hnew
        rw [List.cons_append, List.map_cons, List.nodup_cons] at hnodup
        refine .there (h m₀ List.mem_cons_self seen (hnew m₀ List.mem_cons_self))
          (ih (fun m' hm' => h m' (List.mem_cons_of_mem m₀ hm')) hnodup.2 _ fun m' hm' => ?_)
        rw [Function.update_of_ne (ne_of_not_mem_names hnodup.1 hm')]
        exact hnew m' (List.mem_cons_of_mem m₀ hm')
  have hfails := hmembers (fun _ => false) fun _ _ => rfl
  rw [hstart] at hfails
  exact layout_fails hfails

end AnyOrder

section Invariants

variable {σ α : Type} {r : Layout σ α} {P : σ → Prop}

/-- What the step makes of states with the property has it too. -/
def Keeps (P : σ → Prop) (step : σ → Parser σ) : Prop :=
  ∀ ⦃s bytes t rest⦄, P s → step s bytes = .ok (t, rest) → P t

/-- A field is kept to by what is set from values that it may have. -/
theorem keeps_of_set {β : Type} {Q : β → Prop} {p : Parser β} {set : σ → β → σ}
    (hread : ∀ ⦃bytes b rest⦄, p bytes = .ok (b, rest) → Q b)
    (hset : ∀ s b, P s → Q b → P (set s b)) : Keeps P fun s => do return set s (← p) := by
  intro s bytes t rest hs h
  obtain ⟨b, rest', hb, h⟩ := bind_eq_ok.1 h
  cases h
  exact hset s b hs (hread hb)

theorem members_keep {read : String → σ → Parser σ} (h : ∀ k, Keeps P (read k)) (fuel : Nat)
    (first : Bool) : Keeps P (members read fuel first) := by
  induction fuel generalizing first with
  | zero =>
      rintro s bytes _ _ hs ⟨⟩
      exact hs
  | succ fuel ih =>
      intro s bytes u rest hs hread
      obtain ⟨more, bytes₁, -, hread⟩ := bind_eq_ok.1 hread
      split at hread
      · obtain ⟨k, bytes₂, -, hread⟩ := bind_eq_ok.1 hread
        obtain ⟨t, bytes₃, hstep, hread⟩ := bind_eq_ok.1 hread
        exact ih false (h k hs hstep) hread
      · cases hread
        exact hs

theorem Layout.member_keeps (h : ∀ f ∈ r.fields, Keeps P f.read) (k : String) :
    Keeps P (r.member k) := by
  intro s bytes t rest hs hread
  rw [Layout.member] at hread
  cases hf : r.fields.find? (fun f => f.name == k) with
  | none =>
      rw [hf] at hread
      obtain ⟨_, bytes₁, -, hread⟩ := bind_eq_ok.1 hread
      obtain ⟨_, bytes₂, -, hread⟩ := bind_eq_ok.1 hread
      cases hread
      exact hs
  | some f =>
      rw [hf] at hread
      dsimp only at hread
      split at hread
      · cases hread
      · obtain ⟨_, bytes₁, -, hread⟩ := bind_eq_ok.1 hread
        exact h f (List.mem_of_find?_eq_some hf) hs hread

theorem Layout.elements_keep {fs : List (FieldParser σ)} (h : ∀ f ∈ fs, Keeps P f.read)
    (index : Nat) : Keeps P (r.elements fs index) := by
  induction fs generalizing index with
  | nil =>
      rintro s bytes _ _ hs ⟨⟩
      exact hs
  | cons f fs ih =>
      intro s bytes u rest hs hread
      have hlater : ∀ f' ∈ fs, Keeps P f'.read := fun f' hf' => h f' (List.mem_cons_of_mem f hf')
      obtain ⟨more, bytes₁, -, hread⟩ := bind_eq_ok.1 hread
      split at hread
      · obtain ⟨t, bytes₂, hstep, hread⟩ := bind_eq_ok.1 hread
        exact ih hlater (index + 1) (h f List.mem_cons_self hs hstep) hread
      · split at hread
        · exact ih hlater (index + 1) hs hread
        · cases hread

theorem lift_eq_ok {x : Except Error α} {bytes rest : Bytes} {a : α}
    (h : (liftM x : Parser α) bytes = .ok (a, rest)) : x = .ok a := by
  cases x with
  | ok b =>
      cases h
      rfl
  | error e => cases h

/-- A structure is built from fields with a property that the reading of each of them keeps. -/
theorem Layout.read_keeps (hstart : P r.start) (h : ∀ f ∈ r.fields, Keeps P f.read)
    {bytes rest : Bytes}
    {a : α} (hread : r.read bytes = .ok (a, rest)) : ∃ s, P s ∧ r.build s = .ok a := by
  obtain ⟨b, bytes₁, -, hread⟩ := bind_eq_ok.1 hread
  split at hread
  · obtain ⟨_, bytes₂, -, hread⟩ := bind_eq_ok.1 hread
    obtain ⟨s, bytes₃, hfields, hread⟩ := bind_eq_ok.1 hread
    obtain ⟨a', bytes₄, hbuild, hread⟩ := bind_eq_ok.1 hread
    obtain ⟨_, bytes₅, -, hread⟩ := bind_eq_ok.1 hread
    cases hread
    exact ⟨s, elements_keep h 0 hstart hfields, lift_eq_ok hbuild⟩
  · split at hread
    · obtain ⟨_, bytes₂, -, hread⟩ := bind_eq_ok.1 hread
      obtain ⟨all, bytes₃, -, hread⟩ := bind_eq_ok.1 hread
      obtain ⟨s, bytes₄, hfields, hread⟩ := bind_eq_ok.1 hread
      obtain ⟨a', bytes₅, hbuild, hread⟩ := bind_eq_ok.1 hread
      obtain ⟨_, bytes₆, -, hread⟩ := bind_eq_ok.1 hread
      cases hread
      exact ⟨s, members_keep (member_keeps h) _ true hstart hfields, lift_eq_ok hbuild⟩
    · exact absurd hread (mismatch_refuses _ _ _)

/-- A number that has been read is within the bound. -/
theorem naturalUpTo_le {bound n : Nat} {wanted : String} {bytes rest : Bytes}
    (h : naturalUpTo bound wanted bytes = .ok (n, rest)) : n ≤ bound := by
  have haccept : ∀ {x : Number} {bytes}, acceptNatural bound wanted x bytes = .ok (n, rest) →
      n ≤ bound := by
    intro x bytes hx
    unfold acceptNatural at hx
    split at hx
    · split at hx
      next hle =>
        cases hx
        exact hle
      next => cases hx
    · cases hx
    · cases hx
  obtain ⟨b, bytes₁, -, h⟩ := bind_eq_ok.1 h
  split at h
  · obtain ⟨_, bytes₂, -, h⟩ := bind_eq_ok.1 h
    obtain ⟨x, bytes₃, -, h⟩ := bind_eq_ok.1 h
    exact haccept h
  · split at h
    · obtain ⟨x, bytes₂, -, h⟩ := bind_eq_ok.1 h
      exact haccept h
    · exact absurd h (mismatch_refuses _ _ _)

end Invariants

section Paths

/-- The members of an object. -/
def Value.members : Value → List (String × Value)
  | .object ms => ms
  | _ => []

/-- A value without the member to which a path of keys leads. -/
def Value.without : (path : List String) → Value → Value
  | [k], .object ms => .object (ms.filter (·.1 ≠ k))
  | k :: ks, .object ms =>
      .object (ms.map fun m => if m.1 = k then (m.1, m.2.without ks) else m)
  | _, v => v

mutual

/-- The paths of keys that lead to the members of a value, and to theirs. -/
def Value.paths : Value → List (List String)
  | .object ms => memberPaths ms
  | _ => []

/-- The paths that lead to members of an object, and to theirs. -/
def memberPaths : List (String × Value) → List (List String)
  | [] => []
  | (k, v) :: ms => [k] :: v.paths.map (k :: ·) ++ memberPaths ms

end

variable {σ α : Type} {r : Layout σ α} {state : (String → Bool) → σ} {v : Value}

/-- A structure without one of its members is what is built from the others. -/
theorem layout_answers_without (hobject : v = .object v.members)
    (h : ∀ m ∈ v.members, r.Takes state m) (hnodup : (v.members.map Prod.fst).Nodup)
    (hstart : state (fun _ => false) = r.start) (k : String) :
    AnswersBefore r.read (v.without [k]).render
      (r.build (state (named (v.members.filter (·.1 ≠ k))))) := by
  have hwithout : v.without [k] = .object (v.members.filter (·.1 ≠ k)) := by
    rw [hobject]
    rfl
  rw [hwithout]
  exact layout_answers h hnodup hstart List.filter_sublist.subperm

end Paths

end Json
end ReplicatedLog
