import ReplicatedLog.Trace.Node
import Mathlib.Data.List.Infix

/-!
# Nested node contexts

A guard keeps no more than the one context from before it, and there is no stack of them.  If each
guard is dropped before those that are older, the contexts nest all the same.

* `Move` is what a program does to the contexts of its thread, by hand or in blocks, and `run` what
  comes of it;
* `WellNested` are the programs that end the youngest guard alive first, with the guards that are
  left;
* `under` is the thread that the guards alive make up, one on top of the other, and
  `WellNested.run_eq` the invariant: a program that nests has come to this thread;
* `contexts_nest`: what is told of the thread at every point of such a program, and what each end of
  a guard restores.
-/

namespace ReplicatedLog
namespace Trace

namespace Contexts

/-- The guard that has just been set is dropped as if it had never been there. -/
theorem push_dropAt (c : Contexts) (node : NodeContext) :
    (c.push node).dropAt c.guards.length = c := by
  simp [push, dropAt, List.eraseIdx_append_of_length_le]

end Contexts

namespace Nesting

section Programs

/-- What a program does to the contexts of its thread. -/
inductive Move
  /-- Sets a guard. -/
  | create (node : NodeContext)
  /-- Drops the guard with an index, counted from the oldest. -/
  | drop (i : Nat)
  /-- Begins a block under a context of its own. -/
  | enter (node : NodeContext)
  /-- Ends the innermost block, and drops its guard. -/
  | leave
  deriving DecidableEq, Repr

/-- The contexts of a thread, and the blocks that it is in. -/
structure Thread where
  contexts : Contexts
  /-- The index of the guard of each block, the innermost first. -/
  blocks : List Nat := []
  deriving DecidableEq, Repr

namespace Thread

/-- Drops a guard; the younger guards move up. -/
def dropAt (t : Thread) (i : Nat) : Thread where
  contexts := t.contexts.dropAt i
  blocks := t.blocks.map fun b => if i < b then b - 1 else b

/-- Makes a move.  The guard of a block has no name by which it could be dropped by hand. -/
def step (t : Thread) : Move → Thread
  | .create node => { t with contexts := t.contexts.push node }
  | .drop i => if i ∈ t.blocks then t else t.dropAt i
  | .enter node =>
      { contexts := t.contexts.push node, blocks := t.contexts.guards.length :: t.blocks }
  | .leave =>
      match t.blocks with
      | [] => t
      | i :: blocks => { t with blocks }.dropAt i

end Thread

/-- What comes of a program that begins under the given contexts. -/
def run (c : Contexts) (moves : List Move) : Thread :=
  moves.foldl Thread.step { contexts := c }

theorem run_concat (c : Contexts) (moves : List Move) (m : Move) :
    run c (moves ++ [m]) = (run c moves).step m := by
  rw [run, List.foldl_append]
  rfl

/-- A block that does no more than look is one that is entered and left. -/
theorem within_eq_run {α : Type} (c : Contexts) (moves : List Move) (node : NodeContext)
    (f : Contexts → α) :
    (run c moves).contexts.within node f =
      (f (run c (moves ++ [.enter node])).contexts,
        (run c (moves ++ [.enter node] ++ [.leave])).contexts) := by
  simp only [run_concat]
  rfl

end Programs

section Guards

/-- Whether a guard is set by hand or for a block. -/
inductive Kind
  | plain
  | block
  deriving DecidableEq, Repr

namespace Kind

/-- The move that sets a guard. -/
def begin : Kind → NodeContext → Move
  | plain => .create
  | block => .enter

/-- The move that ends the guard with an index. -/
def finish : Kind → Nat → Move
  | plain => .drop
  | block => fun _ => .leave

end Kind

/-- The end of a guard. -/
def Move.Ends : Move → Prop
  | .drop _ | .leave => True
  | .create _ | .enter _ => False

/-- A guard that is alive. -/
structure Guard where
  kind : Kind
  node : NodeContext
  /-- The moves before the guard was set. -/
  before : List Move

/-- The guards are ended the youngest first.  With `n` guards from before the program, it leaves
these guards alive, the youngest first. -/
inductive WellNested (n : Nat) : List Move → List Guard → Prop
  | nil : WellNested n [] []
  | begin {done : List Move} {live : List Guard} (kind : Kind) (node : NodeContext)
      (h : WellNested n done live) :
      WellNested n (done ++ [kind.begin node]) (⟨kind, node, done⟩ :: live)
  | finish {done : List Move} {g : Guard} {live : List Guard} (h : WellNested n done (g :: live)) :
      WellNested n (done ++ [g.kind.finish (n + live.length)]) live

variable {n : Nat} {moves done : List Move} {live live' outer : List Guard} {g : Guard}

/-- What a program that nests does last. -/
theorem WellNested.last {m : Move} (h : WellNested n (done ++ [m]) live) :
    (∃ kind node outer, m = Kind.begin kind node ∧ live = ⟨kind, node, done⟩ :: outer ∧
        WellNested n done outer) ∨
      ∃ g, m = g.kind.finish (n + live.length) ∧ WellNested n done (g :: live) := by
  generalize hmoves : done ++ [m] = moves at h
  cases h with
  | nil => simp at hmoves
  | begin kind node h =>
      obtain ⟨rfl, rfl⟩ := List.append_singleton_inj.1 hmoves
      exact Or.inl ⟨kind, node, _, rfl, rfl, h⟩
  | finish h =>
      obtain ⟨rfl, rfl⟩ := List.append_singleton_inj.1 hmoves
      exact Or.inr ⟨_, rfl, h⟩

theorem Kind.begin_inj {kind kind' : Kind} {node node' : NodeContext}
    (h : kind.begin node = kind'.begin node') : kind = kind' ∧ node = node' := by
  cases kind <;> cases kind' <;> cases h <;> exact ⟨rfl, rfl⟩

theorem Kind.begin_ne_finish (kind kind' : Kind) (node : NodeContext) (i : Nat) :
    kind.begin node ≠ kind'.finish i := by
  cases kind <;> cases kind' <;> exact nofun

/-- The moves say which guards are alive. -/
theorem WellNested.unique (h : WellNested n done live) (h' : WellNested n done live') :
    live = live' := by
  induction h generalizing live' with
  | nil =>
      generalize hnil : [] = moves at h'
      cases h' with
      | nil => rfl
      | begin kind node h' => simp at hnil
      | finish h' => simp at hnil
  | begin kind node h ih =>
      rcases h'.last with ⟨kind', node', outer, hm, rfl, houter⟩ | ⟨g, hm, -⟩
      · obtain ⟨rfl, rfl⟩ := Kind.begin_inj hm
        rw [ih houter]
      · exact absurd hm (Kind.begin_ne_finish _ _ _ _)
  | finish h ih =>
      rcases h'.last with ⟨kind, node, outer, hm, -, -⟩ | ⟨g, -, hlive⟩
      · exact absurd hm.symm (Kind.begin_ne_finish _ _ _ _)
      · exact (List.cons.inj (ih hlive)).2

/-- At every point, what has been done so far nests. -/
theorem WellNested.of_prefix (h : WellNested n moves live) (hd : done <+: moves) :
    ∃ live', WellNested n done live' := by
  induction h with
  | nil => exact ⟨[], by rw [List.prefix_nil.1 hd]; exact .nil⟩
  | begin kind node h ih =>
      rcases List.prefix_concat_iff.1 hd with rfl | hd
      · exact ⟨_, h.begin kind node⟩
      · exact ih hd
  | finish h ih =>
      rcases List.prefix_concat_iff.1 hd with rfl | hd
      · exact ⟨_, h.finish⟩
      · exact ih hd

/-- A guard alive was set where it says, and the older ones were alive then. -/
theorem WellNested.guard_before (h : WellNested n done live) (hg : g :: outer <:+ live) :
    WellNested n g.before outer ∧ g.before ++ [g.kind.begin g.node] <+: done := by
  induction h with
  | nil => cases List.suffix_nil.1 hg
  | begin kind node h ih =>
      -- the guard is the one that has just been set, or an older one
      rcases List.suffix_cons_iff.1 hg with heq | hg
      · cases heq
        exact ⟨h, List.prefix_rfl⟩
      · obtain ⟨hbefore, hset⟩ := ih hg
        exact ⟨hbefore, hset.trans (List.prefix_append _ _)⟩
  | finish h ih =>
      obtain ⟨hbefore, hset⟩ := ih (hg.trans (List.suffix_cons _ _))
      exact ⟨hbefore, hset.trans (List.prefix_append _ _)⟩

end Guards

section Invariant

/-- The guards of the blocks are among those that are alive. -/
def Thread.Sound (t : Thread) : Prop :=
  ∀ b ∈ t.blocks, b < t.contexts.guards.length

theorem Thread.Sound.begin {t : Thread} (h : t.Sound) (kind : Kind) (node : NodeContext) :
    (t.step (kind.begin node)).Sound := by
  have hgrows : (t.contexts.push node).guards.length = t.contexts.guards.length + 1 := by
    simp [Contexts.push]
  have hold : ∀ b ∈ t.blocks, b < (t.contexts.push node).guards.length := fun b hb =>
    hgrows ▸ Nat.lt_succ_of_lt (h b hb)
  cases kind with
  | plain => exact hold
  | block =>
      intro b hb
      rcases List.mem_cons.1 hb with rfl | hb
      · exact hgrows ▸ Nat.lt_succ_self _
      · exact hold b hb

/-- Ending the guard that has been set last leaves the thread as it was before it. -/
theorem Thread.Sound.begin_finish {t : Thread} (h : t.Sound) (kind : Kind) (node : NodeContext) :
    (t.step (kind.begin node)).step (kind.finish t.contexts.guards.length) = t := by
  -- the guards of all blocks are older than the one that goes, so none of them moves up
  have hblocks :
      t.blocks.map (fun b => if t.contexts.guards.length < b then b - 1 else b) = t.blocks := by
    refine (List.map_congr_left fun b hb => ?_).trans (List.map_id _)
    exact if_neg (Nat.not_lt_of_lt (h b hb))
  have hdropped :
      Thread.dropAt { t with contexts := t.contexts.push node } t.contexts.guards.length = t := by
    rw [Thread.dropAt, Contexts.push_dropAt, hblocks]
  cases kind with
  | plain =>
      have hplain : t.contexts.guards.length ∉ t.blocks := fun hb => Nat.lt_irrefl _ (h _ hb)
      exact (if_neg hplain).trans hdropped
  | block => exact hdropped

/-- The thread under guards, the youngest first, that have been set one on top of the other. -/
def under (c : Contexts) : List Guard → Thread
  | [] => { contexts := c }
  | g :: outer => (under c outer).step (g.kind.begin g.node)

/-- The context of the youngest guard, or the one from before if there is none. -/
def innermost (c : Contexts) : List Guard → Option NodeContext
  | [] => c.current
  | g :: _ => some g.node

variable {c : Contexts} {moves done : List Move} {live outer : List Guard} {g : Guard}

theorem contexts_under_cons (c : Contexts) (g : Guard) (outer : List Guard) :
    (under c (g :: outer)).contexts = (under c outer).contexts.push g.node := by
  rw [under]
  cases g.kind <;> rfl

theorem under_sound (c : Contexts) (live : List Guard) : (under c live).Sound := by
  induction live with
  | nil => exact nofun
  | cons g outer ih => exact ih.begin g.kind g.node

theorem length_guards_under (c : Contexts) (live : List Guard) :
    (under c live).contexts.guards.length = c.guards.length + live.length := by
  induction live with
  | nil => rfl
  | cons g outer ih =>
      rw [contexts_under_cons, Contexts.push, List.length_append, ih]
      rfl

theorem current_under (c : Contexts) (live : List Guard) :
    (under c live).contexts.current = innermost c live := by
  cases live with
  | nil => rfl
  | cons g outer => rw [contexts_under_cons]; rfl

/-- Ending the youngest guard leaves the thread that the others make up. -/
theorem under_finish (c : Contexts) (g : Guard) (outer : List Guard) :
    (under c (g :: outer)).step (g.kind.finish (c.guards.length + outer.length)) =
      under c outer := by
  rw [← length_guards_under]
  exact (under_sound c outer).begin_finish g.kind g.node

/-- A program that nests has come to the thread that the guards alive make up: what a guard keeps is
the context under those below it, so the stack that is nowhere kept can be told from them. -/
theorem WellNested.run_eq (h : WellNested c.guards.length done live) :
    run c done = under c live := by
  induction h with
  | nil => rfl
  | begin kind node h ih =>
      rw [run_concat, ih]
      rfl
  | finish h ih => rw [run_concat, ih, under_finish]

/-- Each guard keeps the context from just before it. -/
theorem guards_under (h : ∀ g outer, g :: outer <:+ live → run c g.before = under c outer) :
    (under c live).contexts.guards =
      c.guards ++ live.reverse.map fun g => (run c g.before).contexts.current := by
  induction live with
  | nil => exact (List.append_nil _).symm
  | cons g outer ih =>
      have hg := h g outer List.suffix_rfl
      have hkept := ih fun g' outer' hg' => h g' outer' (hg'.trans (List.suffix_cons _ _))
      rw [contexts_under_cons, Contexts.push, hkept, List.reverse_cons, List.map_append,
        ← List.append_assoc, ← hg]
      rfl

end Invariant

section Points

variable {c : Contexts} {moves done : List Move} {live : List Guard}

/-- What is told of a thread where a program has left guards alive. -/
structure Nests (c : Contexts) (done : List Move) (live : List Guard) : Prop where
  /-- The context is that of the innermost guard, or the one from before the program. -/
  current : (run c done).contexts.current = innermost c live
  /-- The name of the node is the one in the same context. -/
  node : (run c done).contexts.currentNode = (innermost c live).map NodeContext.node
  /-- The instance of the node is the one in the same context. -/
  instanceId : (run c done).contexts.currentInstance = (innermost c live).map NodeContext.instanceId
  /-- Each guard keeps the context from just before it. -/
  kept : (run c done).contexts.guards =
    c.guards ++ live.reverse.map fun g => (run c g.before).contexts.current
  /-- A block that only looks sees what it would see if it were entered here, and changes
  nothing. -/
  looked : ∀ {α : Type} (node : NodeContext) (f : Contexts → α),
    (run c done).contexts.within node f =
      (f (run c (done ++ [.enter node])).contexts, (run c done).contexts)
  /-- Without guards, all is as it was before the program. -/
  ended : live = [] → (run c done).contexts = c

theorem WellNested.nests (h : WellNested c.guards.length done live) : Nests c done live := by
  have hcurrent : (run c done).contexts.current = innermost c live := by
    rw [h.run_eq, current_under]
  refine ⟨hcurrent, congrArg _ hcurrent, congrArg _ hcurrent, ?kept, ?looked, ?ended⟩
  case kept =>
    rw [h.run_eq]
    exact guards_under fun g outer hg => (h.guard_before hg).1.run_eq
  case looked =>
    intro α node f
    have hleft : run c (done ++ [.enter node] ++ [.leave]) = run c done :=
      (h.begin .block node).finish.run_eq.trans h.run_eq.symm
    rw [within_eq_run, hleft]
  case ended =>
    rintro rfl
    rw [h.run_eq]
    rfl

/-- What ends a guard ends the innermost one, and all of the thread is as it was just before this
guard was set. -/
theorem WellNested.end_restores {m : Move} (h : WellNested c.guards.length done live)
    (hm : m.Ends) (hnext : WellNested c.guards.length (done ++ [m]) outer) :
    ∃ g, live = g :: outer ∧ m = g.kind.finish (c.guards.length + outer.length) ∧
      g.before ++ [g.kind.begin g.node] <+: done ∧ run c (done ++ [m]) = run c g.before := by
  rcases hnext.last with ⟨kind, node, older, rfl, -, -⟩ | ⟨g, hfinish, hlive⟩
  · cases kind <;> cases hm
  · obtain ⟨houter, hset⟩ := hlive.guard_before List.suffix_rfl
    exact ⟨g, h.unique hlive, hfinish, hset, hnext.run_eq.trans houter.run_eq.symm⟩

/-- At every point of a program that ends the youngest guard first, the guards alive are determined;
the context is that of the innermost one, or the one from before the program, whether one asks for
the context, the node or the instance; and the next end of a guard restores what was there just
before the guard was set. -/
theorem contexts_nest (c : Contexts) {moves : List Move} {live : List Guard}
    (h : WellNested c.guards.length moves live) {done : List Move} (hd : done <+: moves) :
    ∃ alive, (∀ alive', WellNested c.guards.length done alive' ↔ alive' = alive) ∧
      Nests c done alive ∧
      ∀ m, done ++ [m] <+: moves → m.Ends →
        ∃ g outer, alive = g :: outer ∧ m = g.kind.finish (c.guards.length + outer.length) ∧
          g.before ++ [g.kind.begin g.node] <+: done ∧ run c (done ++ [m]) = run c g.before := by
  obtain ⟨alive, halive⟩ := h.of_prefix hd
  refine ⟨alive, fun alive' => ⟨fun h' => h'.unique halive, fun heq => heq ▸ halive⟩,
    halive.nests, ?_⟩
  intro m hm hends
  obtain ⟨outer, houter⟩ := h.of_prefix hm
  obtain ⟨g, hg⟩ := halive.end_restores hends houter
  exact ⟨g, outer, hg⟩

/-- A thread with a context, and a guard from before. -/
def sampleContexts : Contexts where
  current := some ⟨"z", "0"⟩
  guards := [none]

/-- A guard, a block in it and a guard in the block, all of which are ended. -/
def sampleMoves : List Move :=
  [.create ⟨"a", "1"⟩, .enter ⟨"b", "2"⟩, .create ⟨"a", "3"⟩, .drop 3, .leave, .drop 1]

/-- In the block of the sample, the drop of the guard brings the context of the block back, and the
end of the block brings back that of the first guard; in the end nothing is left of them. -/
theorem contexts_nest_sample :
    (run sampleContexts (sampleMoves.take 3)).contexts.current = some ⟨"a", "3"⟩ ∧
      (run sampleContexts (sampleMoves.take 3)).contexts.currentNode = some "a" ∧
      (run sampleContexts (sampleMoves.take 3)).contexts.currentInstance = some "3" ∧
      run sampleContexts (sampleMoves.take 4) = run sampleContexts (sampleMoves.take 2) ∧
      run sampleContexts (sampleMoves.take 5) = run sampleContexts (sampleMoves.take 1) ∧
      (run sampleContexts sampleMoves).contexts = sampleContexts := by
  have hone : WellNested 1 (sampleMoves.take 1) _ := WellNested.nil.begin .plain ⟨"a", "1"⟩
  have htwo : WellNested 1 (sampleMoves.take 2) _ := hone.begin .block ⟨"b", "2"⟩
  have hthree : WellNested 1 (sampleMoves.take 3) _ := htwo.begin .plain ⟨"a", "3"⟩
  have hfour : WellNested 1 (sampleMoves.take 4) _ := hthree.finish
  have hsix : WellNested 1 sampleMoves [] := hfour.finish.finish
  obtain ⟨alive, halive, hthird, hends⟩ :=
    contexts_nest sampleContexts hsix (List.take_prefix 3 sampleMoves)
  cases (halive _).1 hthree
  obtain ⟨g, outer, heq, -, -, hdropped⟩ := hends _ (List.take_prefix 4 sampleMoves) trivial
  cases heq
  obtain ⟨alive, halive, -, hends⟩ :=
    contexts_nest sampleContexts hsix (List.take_prefix 4 sampleMoves)
  cases (halive _).1 hfour
  obtain ⟨g, outer, heq, -, -, hleft⟩ := hends _ (List.take_prefix 5 sampleMoves) trivial
  cases heq
  obtain ⟨alive, halive, hlast, -⟩ := contexts_nest sampleContexts hsix List.prefix_rfl
  exact ⟨hthird.current, hthird.node, hthird.instanceId, hdropped, hleft,
    hlast.ended ((halive _).1 hsix).symm⟩

end Points

end Nesting
end Trace
end ReplicatedLog
