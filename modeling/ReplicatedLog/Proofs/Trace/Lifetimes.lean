import ReplicatedLog.Trace.Node
import Mathlib.Data.List.Induction
import Mathlib.Data.List.Infix
import Mathlib.Data.List.InsertIdx
import Mathlib.Data.List.Nodup

/-!
# How long contexts last

Guards may be dropped in any order.  Each brings back the context from before it, whether or not the
guard that had set that context is still alive.

* `Move` is what a program does with its guards, and `run` what comes of it;
* `Roll` holds what the contexts do not tell: which guards are alive, under whose context each of
  them was set, and whose context is the current one; `contexts_roll` says that the contexts are
  those;
* `Lingers`: the current context is that of a guard that has been dropped;
* `InOrder` are the programs that drop the youngest guard first;
* `contexts_last`: when a context lingers, that none does in order, and that every other program
  that drops all of its guards lets one linger.
-/

namespace ReplicatedLog
namespace Trace
namespace Lifetimes

section Programs

/-- What a program does with its guards. -/
inductive Move
  /-- Sets a guard. -/
  | create (node : NodeContext)
  /-- Drops the guard with an index, counted from the oldest that is alive. -/
  | drop (i : Nat)
  deriving DecidableEq, Repr

/-- The contexts after a move. -/
def step (c : Contexts) : Move → Contexts
  | .create node => c.push node
  | .drop i => c.dropAt i

/-- The contexts after moves that begin without any context. -/
def run (moves : List Move) : Contexts :=
  moves.foldl step {}

/-- A guard.  Its number says how many guards were set before it. -/
structure Guard where
  number : Nat
  node : NodeContext
  deriving DecidableEq, Repr

/-- The guards of a program. -/
structure Roll where
  /-- How many guards have been set. -/
  next : Nat := 0
  /-- The guard whose context is the current one. -/
  owner : Option Guard := none
  /-- The guards that are alive, the oldest first, each with the owner from just before it. -/
  alive : List (Guard × Option Guard) := []
  deriving DecidableEq, Repr

namespace Roll

/-- The guards that are alive, the oldest first. -/
def guards (r : Roll) : List Guard :=
  r.alive.map Prod.fst

/-- The guards after a move. -/
def step (r : Roll) : Move → Roll
  | .create node =>
      { next := r.next + 1
        owner := some ⟨r.next, node⟩
        alive := r.alive ++ [(⟨r.next, node⟩, r.owner)] }
  | .drop i =>
      match r.alive[i]? with
      | none => r
      | some (_, outer) => { r with owner := outer, alive := r.alive.eraseIdx i }

/-- The contexts of the guards. -/
def contexts (r : Roll) : Contexts where
  current := r.owner.map Guard.node
  guards := r.alive.map fun e => e.2.map Guard.node

end Roll

/-- The guards after moves. -/
def roll (moves : List Move) : Roll :=
  moves.foldl Roll.step {}

theorem roll_concat (moves : List Move) (m : Move) : roll (moves ++ [m]) = (roll moves).step m := by
  rw [roll, List.foldl_append]
  rfl

theorem Roll.contexts_step (r : Roll) (m : Move) :
    (r.step m).contexts = Lifetimes.step r.contexts m := by
  cases m with
  | create node => simp [step, contexts, Lifetimes.step, Contexts.push]
  | drop i =>
      simp only [step, Lifetimes.step, Contexts.dropAt, contexts, List.getElem?_map]
      cases r.alive[i]? with
      | none => rfl
      | some e => exact congrArg (Contexts.mk _) (List.eraseIdx_map _ _ _).symm

/-- The contexts of a program are those of its guards. -/
theorem contexts_roll (moves : List Move) : (roll moves).contexts = run moves := by
  induction moves using List.reverseRecOn with
  | nil => rfl
  | append_singleton moves m ih =>
      rw [roll_concat, Roll.contexts_step, ih, run, run, List.foldl_append]
      rfl

end Programs

namespace Roll

section Numbers

variable {r : Roll} {g h : Guard} {outer : Option Guard} {i : Nat} {m : Move}

/-- The guards are numbered in the order in which they were set. -/
structure Sound (r : Roll) : Prop where
  increasing : r.guards.Pairwise fun a b => a.number < b.number
  below : ∀ g ∈ r.guards, g.number < r.next
  owner : ∀ h, r.owner = some h → h.number < r.next
  outer : ∀ g h, (g, some h) ∈ r.alive → h.number < g.number

theorem guards_get (hi : r.alive[i]? = some (g, outer)) : r.guards[i]? = some g := by
  rw [guards, List.getElem?_map, hi]
  rfl

/-- A drop takes the guard with the index, and its context from before it comes back. -/
theorem step_drop (hi : r.alive[i]? = some (g, outer)) :
    r.step (.drop i) = { r with owner := outer, alive := r.alive.eraseIdx i } := by
  simp only [step, hi]

theorem step_idle (hi : r.alive[i]? = none) : r.step (.drop i) = r := by
  simp only [step, hi]

theorem guards_create (r : Roll) (node : NodeContext) :
    (r.step (.create node)).guards = r.guards ++ [⟨r.next, node⟩] := by
  simp [guards, step]

theorem guards_drop (hi : r.alive[i]? = some (g, outer)) :
    (r.step (.drop i)).guards = r.guards.eraseIdx i := by
  rw [step_drop hi]
  exact (List.eraseIdx_map _ _ _).symm

theorem Sound.step (hs : r.Sound) (m : Move) : (r.step m).Sound := by
  cases m with
  | create node =>
      refine ⟨?increasing, ?below, ?owner, ?outer⟩
      case increasing =>
        rw [guards_create, List.pairwise_append]
        refine ⟨hs.increasing, List.pairwise_singleton _ _, fun a ha b hb => ?_⟩
        rw [List.mem_singleton.1 hb]
        exact hs.below a ha
      case below =>
        rw [guards_create]
        intro g hg
        rcases List.mem_append.1 hg with hg | hg
        · exact Nat.lt_succ_of_lt (hs.below g hg)
        · rw [List.mem_singleton.1 hg]
          exact Nat.lt_succ_self _
      case owner =>
        rintro h ⟨⟩
        exact Nat.lt_succ_self _
      case outer =>
        intro g h hg
        rcases List.mem_append.1 hg with hg | hg
        · exact hs.outer g h hg
        · obtain ⟨rfl, howner⟩ := Prod.mk.inj (List.mem_singleton.1 hg)
          exact hs.owner h howner.symm
  | drop i =>
      cases hi : r.alive[i]? with
      | none =>
          rw [step_idle hi]
          exact hs
      | some e =>
          obtain ⟨g, outer⟩ := e
          have hg : (g, outer) ∈ r.alive := List.mem_of_getElem? hi
          refine ⟨?increasing, ?below, ?owner, ?outer⟩
          case increasing =>
            rw [guards_drop hi]
            exact hs.increasing.sublist (List.eraseIdx_sublist _ _)
          case below =>
            rw [guards_drop hi, step_drop hi]
            exact fun a ha => hs.below a (List.mem_of_mem_eraseIdx ha)
          case owner =>
            rw [step_drop hi]
            rintro h rfl
            exact (hs.outer g h hg).trans (hs.below g (List.mem_map.2 ⟨_, hg, rfl⟩))
          case outer =>
            rw [step_drop hi]
            exact fun a b hab => hs.outer a b (List.mem_of_mem_eraseIdx hab)

/-- A drop takes no other guard than its own. -/
theorem eq_of_dropped (hi : r.alive[i]? = some (g, outer)) (hh : h ∈ r.guards)
    (hgone : h ∉ (r.step (.drop i)).guards) : h = g := by
  rw [guards_drop hi, List.mem_eraseIdx_iff_getElem?] at hgone
  obtain ⟨j, hj⟩ := List.mem_iff_getElem?.1 hh
  by_contra hne
  refine hgone ⟨j, ?_, hj⟩
  rintro rfl
  exact hne (Option.some.inj (hj.symm.trans (guards_get hi)))

/-- A guard that has been dropped is not alive any more. -/
theorem Sound.not_mem_dropped (hs : r.Sound) (hi : r.alive[i]? = some (g, outer)) :
    g ∉ (r.step (.drop i)).guards := by
  obtain ⟨hlt, hgi⟩ := List.getElem?_eq_some_iff.1 (guards_get hi)
  have hnodup : r.guards.Nodup :=
    hs.increasing.imp fun hab heq => absurd (heq ▸ hab) (Nat.lt_irrefl _)
  rw [guards_drop hi, ← hnodup.erase_getElem i hlt, hgi]
  exact hnodup.not_mem_erase

end Numbers

section Lingering

variable {r : Roll} {g h a b : Guard} {outer : Option Guard} {i : Nat}

/-- The current context is that of a guard that has been dropped. -/
def Lingers (r : Roll) (h : Guard) : Prop :=
  r.owner = some h ∧ h ∉ r.guards

theorem not_lingers_create (r : Roll) (node : NodeContext) (h : Guard) :
    ¬ (r.step (.create node)).Lingers h := by
  rintro ⟨⟨⟩, hgone⟩
  rw [guards_create] at hgone
  exact hgone (List.mem_append_right _ (List.mem_singleton_self _))

/-- A drop lets the context linger under which its guard was set, if that one's guard is gone. -/
theorem Sound.lingers_drop (hs : r.Sound) (hi : r.alive[i]? = some (g, outer)) :
    (r.step (.drop i)).Lingers h ↔ outer = some h ∧ h ∉ r.guards := by
  have howner : (r.step (.drop i)).owner = outer := by rw [step_drop hi]
  rw [Lingers, howner]
  refine and_congr_right fun houter => not_congr ⟨fun hh => ?_, fun hh => ?_⟩
  · rw [guards_drop hi] at hh
    exact List.mem_of_mem_eraseIdx hh
  · -- the guard that is dropped is younger than the one whose context it keeps
    by_contra hgone
    subst houter
    obtain rfl := eq_of_dropped hi hh hgone
    exact Nat.lt_irrefl _ (hs.outer h h (List.mem_of_getElem? hi))

end Lingering

section Stacking

variable {r : Roll} {h a b : Guard} {i : Nat}

/-- Each guard was set under the context of the one before it, and the current context is that of
the youngest. -/
def Stacked (r : Roll) : Prop :=
  r.alive.map Prod.snd ++ [r.owner] = none :: r.guards.map some

theorem Stacked.not_lingers (hs : r.Stacked) (h : Guard) : ¬ r.Lingers h := by
  rintro ⟨howner, hgone⟩
  have hmem : r.owner ∈ none :: r.guards.map some := by
    rw [← hs]
    exact List.mem_append_right _ (List.mem_singleton_self _)
  rw [howner] at hmem
  exact hgone (by simpa using hmem)

theorem Stacked.create (hs : r.Stacked) (node : NodeContext) : (r.step (.create node)).Stacked := by
  rw [Stacked, guards_create]
  simp only [step, List.map_append, List.map_cons, List.map_nil]
  rw [hs, List.cons_append]

/-- What is left when the youngest guard is dropped is stacked as well. -/
theorem Stacked.drop (hs : r.Stacked) (hi : r.alive.length ≤ i + 1) :
    (r.step (.drop i)).Stacked := by
  cases hget : r.alive[i]? with
  | none =>
      rw [step_idle hget]
      exact hs
  | some e =>
      obtain ⟨g, outer⟩ := e
      obtain ⟨hlt, -⟩ := List.getElem?_eq_some_iff.1 hget
      obtain ⟨older, last, halive⟩ : ∃ older last, r.alive = older ++ [last] :=
        List.eq_nil_or_concat' r.alive |>.resolve_left (by rintro hnil; simp [hnil] at hlt)
      have hlength : older.length = i := by
        rw [halive, List.length_append, List.length_singleton] at hlt hi
        omega
      have hlast : last = (g, outer) := by
        rw [halive, ← hlength, List.getElem?_concat_length] at hget
        exact Option.some.inj hget
      subst hlast
      have herase : r.alive.eraseIdx i = older := by
        rw [halive, List.eraseIdx_append_of_length_le (by omega), hlength]
        simp
      have hsplit := hs
      rw [Stacked, guards, halive] at hsplit
      simp only [List.map_append, List.map_cons, List.map_nil] at hsplit
      rw [← List.cons_append] at hsplit
      have hfront := (List.append_inj' hsplit rfl).1
      rw [step_drop hget, Stacked, guards, herase]
      exact hfront

/-- A guard that is alive was set under the context of one that has been dropped. -/
def Orphan (r : Roll) (b a : Guard) : Prop :=
  (b, some a) ∈ r.alive ∧ a ∉ r.guards

/-- The drop of a guard with another one on top of it leaves an orphan. -/
theorem Stacked.orphan (hs : r.Stacked) (hr : r.Sound) (hi : i + 1 < r.alive.length) :
    ∃ b a, (r.step (.drop i)).Orphan b a := by
  have hi' : i < r.alive.length := Nat.lt_of_succ_lt hi
  obtain ⟨⟨a, outer⟩, ha⟩ : ∃ e, r.alive[i]? = some e := ⟨_, List.getElem?_eq_getElem hi'⟩
  obtain ⟨⟨b, o⟩, hb⟩ : ∃ e, r.alive[i + 1]? = some e := ⟨_, List.getElem?_eq_getElem hi⟩
  have ho : o = some a := by
    have hat := congrArg (·[i + 1]?) hs
    have hleft : (r.alive.map Prod.snd ++ [r.owner])[i + 1]? = some o := by
      rw [List.getElem?_append_left (by rwa [List.length_map]), List.getElem?_map, hb]
      rfl
    have hright : (none :: r.guards.map some)[i + 1]? = some (some a) := by
      rw [List.getElem?_cons_succ, guards, List.map_map, List.getElem?_map, ha]
      rfl
    exact Option.some.inj (hleft.symm.trans (hat.trans hright))
  refine ⟨b, a, ?_, hr.not_mem_dropped ha⟩
  rw [step_drop ha, ← ho]
  exact List.mem_eraseIdx_iff_getElem?.2 ⟨i + 1, by omega, hb⟩

/-- An orphan stays one, until it is dropped and lets the context linger. -/
theorem Orphan.step (ho : r.Orphan b a) (hr : r.Sound) (m : Move) :
    (r.step m).Orphan b a ∨ (r.step m).Lingers a := by
  obtain ⟨hb, ha⟩ := ho
  have hlt : a.number < r.next :=
    (hr.outer b a hb).trans (hr.below b (List.mem_map.2 ⟨_, hb, rfl⟩))
  cases m with
  | create node =>
      refine Or.inl ⟨List.mem_append_left _ hb, ?_⟩
      rw [guards_create, List.mem_append, List.mem_singleton]
      rintro (hmem | rfl)
      · exact ha hmem
      · exact Nat.lt_irrefl _ hlt
  | drop i =>
      cases hi : r.alive[i]? with
      | none =>
          rw [step_idle hi]
          exact Or.inl ⟨hb, ha⟩
      | some e =>
          obtain ⟨g, outer⟩ := e
          by_cases hsame : (g, outer) = (b, some a)
          · obtain ⟨rfl, rfl⟩ := Prod.mk.inj hsame
            exact Or.inr ((hr.lingers_drop hi).2 ⟨rfl, ha⟩)
          · left
            obtain ⟨j, hj⟩ := List.mem_iff_getElem?.1 hb
            have hne : j ≠ i := by
              rintro rfl
              exact hsame (Option.some.inj (hi.symm.trans hj))
            rw [Orphan, guards_drop hi, step_drop hi]
            exact ⟨List.mem_eraseIdx_iff_getElem?.2 ⟨j, hne, hj⟩,
              fun hmem => ha (List.mem_of_mem_eraseIdx hmem)⟩

end Stacking

end Roll

section Orders

variable {moves done later : List Move} {g h a b : Guard} {i : Nat}

theorem roll_sound (moves : List Move) : (roll moves).Sound := by
  induction moves using List.reverseRecOn with
  | nil => exact ⟨List.Pairwise.nil, nofun, nofun, nofun⟩
  | append_singleton moves m ih =>
      rw [roll_concat]
      exact ih.step m

/-- Every drop takes the youngest guard. -/
def InOrder (moves : List Move) : Prop :=
  ∀ done i, done ++ [.drop i] <+: moves → (roll done).alive.length ≤ i + 1

theorem InOrder.of_prefix (h : InOrder moves) (hd : done <+: moves) : InOrder done :=
  fun first i hfirst => h first i (hfirst.trans hd)

/-- In order, the guards are stacked. -/
theorem InOrder.stacked (h : InOrder moves) : (roll moves).Stacked := by
  induction moves using List.reverseRecOn with
  | nil => rfl
  | append_singleton moves m ih =>
      have hstacked := ih (h.of_prefix (List.prefix_append _ _))
      rw [roll_concat]
      cases m with
      | create node => exact hstacked.create node
      | drop i => exact hstacked.drop (h moves i List.prefix_rfl)

/-- Guards are dropped in order, or there is an orphan at some point. -/
theorem inOrder_or_orphan (moves : List Move) :
    InOrder moves ∨ ∃ done b a, done <+: moves ∧ (roll done).Orphan b a := by
  induction moves using List.reverseRecOn with
  | nil =>
      left
      intro done i hd
      simp at hd
  | append_singleton moves m ih =>
      rcases ih with horder | ⟨done, b, a, hd, horphan⟩
      · by_cases hm : ∃ i, m = .drop i ∧ i + 1 < (roll moves).alive.length
        · obtain ⟨i, rfl, hi⟩ := hm
          obtain ⟨b, a, horphan⟩ := horder.stacked.orphan (roll_sound moves) hi
          rw [← roll_concat] at horphan
          exact Or.inr ⟨_, b, a, List.prefix_rfl, horphan⟩
        · left
          intro done i hd
          rcases List.prefix_concat_iff.1 hd with heq | hd
          · obtain ⟨rfl, rfl⟩ := List.append_singleton_inj.1 heq
            exact Nat.le_of_not_lt fun hi => hm ⟨i, rfl, hi⟩
          · exact horder done i hd
      · exact Or.inr ⟨done, b, a, hd.trans (List.prefix_append _ _), horphan⟩

/-- If all guards are gone in the end, the context under which an orphan was set has lingered at
some point. -/
theorem lingers_of_orphan (hdone : (roll done).Orphan b a)
    (hend : (roll (done ++ later)).guards = []) :
    ∃ mid, mid <+: done ++ later ∧ (roll mid).Lingers a := by
  induction later generalizing done with
  | nil =>
      have hb : b ∈ (roll (done ++ [])).guards := by
        rw [List.append_nil]
        exact List.mem_map.2 ⟨_, hdone.1, rfl⟩
      rw [hend] at hb
      cases hb
  | cons m later ih =>
      rw [List.append_cons] at hend ⊢
      rcases hdone.step (roll_sound done) m with horphan | hlingers
      · rw [← roll_concat] at horphan
        exact ih horphan hend
      · rw [← roll_concat] at hlingers
        exact ⟨_, List.prefix_append _ _, hlingers⟩

end Orders

section Lasting

variable {moves : List Move} {h : Guard}

/-- A context lingers if the last guard that was dropped had been set under it, and its own guard
had been dropped by then. -/
theorem lingers_iff (moves : List Move) (h : Guard) :
    (roll moves).Lingers h ↔ ∃ done i g, done ++ [.drop i] <+: moves ∧
      roll moves = roll (done ++ [.drop i]) ∧
      (roll done).alive[i]? = some (g, some h) ∧ h ∉ (roll done).guards := by
  constructor
  · intro hl
    induction moves using List.reverseRecOn with
    | nil => cases hl.1
    | append_singleton moves m ih =>
        rw [roll_concat] at hl
        cases m with
        | create node => exact absurd hl ((roll moves).not_lingers_create node h)
        | drop i =>
            cases hi : (roll moves).alive[i]? with
            | none =>
                rw [Roll.step_idle hi] at hl
                obtain ⟨done, j, g, hd, hsame, rest⟩ := ih hl
                refine ⟨done, j, g, hd.trans (List.prefix_append _ _), ?_, rest⟩
                rw [roll_concat, Roll.step_idle hi, hsame]
            | some e =>
                obtain ⟨g, outer⟩ := e
                obtain ⟨rfl, hgone⟩ := ((roll_sound moves).lingers_drop hi).1 hl
                exact ⟨moves, i, g, List.prefix_rfl, rfl, hi, hgone⟩
  · rintro ⟨done, i, g, -, hsame, hi, hgone⟩
    rw [hsame, roll_concat]
    exact ((roll_sound done).lingers_drop hi).2 ⟨rfl, hgone⟩

/-- What is told of the contexts of a program. -/
structure Lasts (moves : List Move) : Prop where
  /-- The contexts are those of the guards. -/
  contexts : (roll moves).contexts = run moves
  /-- A context is that of a guard that is alive, or it lingers. -/
  current : (run moves).current = none ∨
    (∃ g ∈ (roll moves).guards, (run moves).current = some g.node) ∨
    ∃ h, (roll moves).Lingers h ∧ (run moves).current = some h.node
  /-- A context lingers exactly if the last guard that was dropped had been set under it, and its
  own guard had been dropped by then. -/
  lingers : ∀ h, (roll moves).Lingers h ↔ ∃ done i g, done ++ [.drop i] <+: moves ∧
    roll moves = roll (done ++ [.drop i]) ∧
    (roll done).alive[i]? = some (g, some h) ∧ h ∉ (roll done).guards
  /-- Once every guard has been dropped, a context is left only if it lingers. -/
  ended : (roll moves).guards = [] →
    ((run moves).current = none ↔ ∀ h, ¬ (roll moves).Lingers h)
  /-- In order, no context lingers at any point. -/
  inOrder : InOrder moves → ∀ done, done <+: moves → ∀ h, ¬ (roll done).Lingers h
  /-- Out of order, one does, provided that every guard is dropped in the end. -/
  outOfOrder : (roll moves).guards = [] → ¬ InOrder moves →
    ∃ done h, done <+: moves ∧ (roll done).Lingers h

theorem current_eq (moves : List Move) :
    (run moves).current = (roll moves).owner.map Guard.node := by
  rw [← contexts_roll]
  rfl

/-- A context outlives its guard only if the guard that was dropped last had been set under it and
dropped after that guard.  So none does if guards are dropped in order, and one does in every other
program that drops all of its guards. -/
theorem contexts_last (moves : List Move) : Lasts moves := by
  refine ⟨contexts_roll moves, ?current, lingers_iff moves, ?ended, ?inOrder, ?outOfOrder⟩
  case current =>
    rw [current_eq]
    cases howner : (roll moves).owner with
    | none => exact Or.inl rfl
    | some h =>
        by_cases hh : h ∈ (roll moves).guards
        · exact Or.inr (Or.inl ⟨h, hh, rfl⟩)
        · exact Or.inr (Or.inr ⟨h, ⟨howner, hh⟩, rfl⟩)
  case ended =>
    intro hend
    rw [current_eq, Option.map_eq_none_iff]
    constructor
    · rintro hnone h ⟨howner, -⟩
      rw [hnone] at howner
      cases howner
    · intro hnone
      by_contra howner
      obtain ⟨h, hh⟩ := Option.ne_none_iff_exists'.1 howner
      exact hnone h ⟨hh, hend ▸ List.not_mem_nil⟩
  case inOrder => exact fun horder done hd h => (horder.of_prefix hd).stacked.not_lingers h
  case outOfOrder =>
    intro hend horder
    obtain ⟨done, b, a, hd, horphan⟩ := (inOrder_or_orphan moves).resolve_left horder
    obtain ⟨later, rfl⟩ := hd
    obtain ⟨mid, hmid, hlingers⟩ := lingers_of_orphan horphan hend
    exact ⟨mid, a, hmid, hlingers⟩

/-- Of two guards the older one is dropped first: when both are gone, its context is back. -/
theorem dropped_context_returns :
    let moves : List Move := [.create ⟨"a", "1"⟩, .create ⟨"b", "2"⟩, .drop 0, .drop 0]
    (roll moves).guards = [] ∧ (run moves).current = some ⟨"a", "1"⟩ ∧
      ¬ ∀ moves : List Move, (run moves).current = none ∨
        ∃ g ∈ (roll moves).guards, (run moves).current = some g.node := by
  refine ⟨rfl, rfl, fun hall => ?_⟩
  rcases hall [.create ⟨"a", "1"⟩, .create ⟨"b", "2"⟩, .drop 0, .drop 0] with hnone | ⟨g, hg, -⟩
  · cases hnone
  · cases hg

end Lasting

end Lifetimes
end Trace
end ReplicatedLog
