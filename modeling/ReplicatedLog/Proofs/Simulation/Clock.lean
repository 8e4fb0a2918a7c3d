import ReplicatedLog.Proofs.Simulation.World
import ReplicatedLog.Simulation.Clock

/-!
# Runners under the clock

Whatever turns the clock gives to the tasks, the runners of a world stay at work.

* `Simulation.Sound`: the world is sound, and no task in the background polls a link;
* `settle_keeps` and `runWithin_keeps`: the clock keeps a simulation sound, in the
  background and in the foreground;
* `Sim.Keeps` says so of an action, whatever it brings, and `Keeps.bind` of two actions
  one after the other.
-/

namespace ReplicatedLog
namespace Simulation

/-- The world is sound, and no task in the background polls a link. -/
structure Sound (s : Simulation) : Prop where
  world : s.world.Sound
  queue : ∀ entry ∈ s.queue, entry.2.IsQuiet

/-- A sound simulation stays sound, and its world follows. -/
def Keeps (s s' : Simulation) : Prop :=
  s.Sound → s'.Sound ∧ s.world.Follows s'.world

variable {s s' s'' : Simulation} {me : TaskId} {t : Task}

theorem Keeps.refl (s : Simulation) : s.Keeps s :=
  fun h => ⟨h, .refl _⟩

theorem Keeps.trans (h : s.Keeps s') (h' : s'.Keeps s'') : s.Keeps s'' := by
  intro hs
  obtain ⟨hs', hf⟩ := h hs
  obtain ⟨hs'', hf'⟩ := h' hs'
  exact ⟨hs'', hf.trans hf'⟩

/-- The world may change so that it is kept. -/
theorem keeps_world {w : World} (h : s.world.Keeps w) : s.Keeps { s with world := w } := by
  intro hs
  obtain ⟨hw, hf⟩ := h hs.world
  exact ⟨⟨hw, hs.queue⟩, hf⟩

section Background

theorem keep_keeps (me : TaskId) (result : Except Problem Answer) (w : World) :
    w.Keeps (keep me result w) :=
  World.keeps_of_eq rfl rfl (fun _ _ _ _ => Iff.rfl) rfl

/-- A turn of a task keeps the world, and leaves such a task or none. -/
theorem turn_keeps (now : Nat) (me : TaskId) (patience : Nat) {t : Task} (h : t.IsQuiet)
    (w : World) : w.Keeps (turn now me patience t w).2 ∧
      ∀ t', (turn now me patience t w).1 = some t' → t'.IsQuiet := by
  induction patience generalizing t w with
  | zero =>
      refine ⟨.refl w, fun t' ht => ?_⟩
      cases ht
      exact h
  | succ patience ih =>
      unfold turn
      split
      · obtain ⟨hkeeps, hquiet⟩ := Task.step_keeps now me w h
        split
        next result w' hstep =>
          rw [hstep] at hkeeps
          exact ⟨hkeeps.trans (keep_keeps me result w'), fun t' ht => by cases ht⟩
        next t' w' hstep =>
          rw [hstep] at hkeeps hquiet
          obtain ⟨hlater, hleft⟩ := ih (hquiet t' rfl) w'
          exact ⟨hkeeps.trans hlater, hleft⟩
      · refine ⟨.refl w, fun t' ht => ?_⟩
        cases ht
        exact h

theorem giveTurn_keeps (s : Simulation) (me : TaskId) (h : t.IsQuiet) :
    s.Keeps (s.giveTurn me t) := by
  intro hs
  obtain ⟨hkeeps, hquiet⟩ := turn_keeps s.now me s.patience h s.world
  obtain ⟨hw, hf⟩ := hkeeps hs.world
  unfold giveTurn
  dsimp only
  split
  next t' w' hturn =>
    rw [hturn] at hw hf hquiet
    refine ⟨⟨hw, fun entry hentry => ?_⟩, hf⟩
    rcases List.mem_append.1 hentry with hold | hnew
    · exact hs.queue entry (List.mem_filter.1 hold).1
    · rw [List.mem_singleton] at hnew
      rw [hnew]
      exact hquiet t' rfl
  next w' hturn =>
    rw [hturn] at hw hf
    exact ⟨⟨hw, fun entry hentry => hs.queue entry (List.mem_filter.1 hentry).1⟩, hf⟩

theorem settleWithin_keeps (patience : Nat) (s : Simulation) :
    s.Keeps (settleWithin patience s) := by
  induction patience generalizing s with
  | zero => exact .refl s
  | succ patience ih =>
      unfold settleWithin
      split
      next me t hnext =>
        intro hs
        have hmem : (me, t) ∈ s.queue := List.mem_of_find?_eq_some hnext
        exact (giveTurn_keeps s me (hs.queue _ hmem)).trans (ih _) hs
      next => exact .refl s

theorem settle_keeps (s : Simulation) : s.Keeps s.settle :=
  settleWithin_keeps s.patience s

end Background

section Foreground

theorem giveUp_keeps (s : Simulation) (me : TaskId) (t : Task) :
    s.Keeps (s.giveUp me t).2 := by
  intro hs
  obtain ⟨hw, hf⟩ := Task.abandon_keeps me s.world t hs.world
  exact ⟨⟨hw, hs.queue⟩, hf⟩

/-- A task in the foreground that does not poll a link keeps the simulation sound. -/
theorem runWithin_keeps (me : TaskId) (patience : Nat) (h : t.IsQuiet) (s : Simulation) :
    s.Keeps (runWithin me patience t s).2 := by
  induction patience generalizing t s with
  | zero => exact giveUp_keeps s me t
  | succ patience ih =>
      unfold runWithin
      split
      · obtain ⟨hkeeps, hquiet⟩ := Task.step_keeps s.now me s.world h
        split
        next result w' hstep =>
          rw [hstep] at hkeeps
          exact keeps_world hkeeps
        next t' w' hstep =>
          rw [hstep] at hkeeps hquiet
          exact (keeps_world hkeeps).trans (ih (hquiet t' rfl) _)
      · dsimp only
        split
        · exact (settle_keeps s).trans (ih h _)
        · split
          next time _ =>
            have hpass : s.settle.Keeps { s.settle with now := max s.settle.now time } :=
              fun hs => ⟨⟨hs.world, hs.queue⟩, .refl _⟩
            exact ((settle_keeps s).trans hpass).trans (ih h _)
          next => exact (settle_keeps s).trans (giveUp_keeps _ me t)

end Foreground

end Simulation

namespace Sim

/-- An action keeps a simulation sound, whatever it brings. -/
def Keeps {α : Type} (a : Sim α) : Prop :=
  ∀ s : Simulation, s.Keeps (a.run.run s).2

section Actions

variable {α β : Type}

/-- What comes of two actions one after the other. -/
theorem run_bind (a : Sim α) (f : α → Sim β) (s : Simulation) :
    (a >>= f).run.run s =
      match a.run.run s with
      | (.ok x, s') => (f x).run.run s'
      | (.error e, s') => (.error e, s') := by
  change (ExceptT.bindCont f (a.run.run s).1).run (a.run.run s).2 = _
  rcases a.run.run s with ⟨result, s'⟩
  cases result with
  | ok x => rfl
  | error e => rfl

/-- After an action that succeeds comes the next one. -/
theorem run_bind_ok {a : Sim α} {s s' : Simulation} {x : α} (h : a.run.run s = (.ok x, s'))
    (f : α → Sim β) : (a >>= f).run.run s = (f x).run.run s' := by
  rw [run_bind, h]

/-- After an action that fails nothing comes. -/
theorem run_bind_error {a : Sim α} {s s' : Simulation} {e : Problem}
    (h : a.run.run s = (.error e, s')) (f : α → Sim β) :
    (a >>= f).run.run s = (.error e, s') := by
  rw [run_bind, h]

theorem run_pure (x : α) (s : Simulation) : (Pure.pure x : Sim α).run.run s = (.ok x, s) := rfl

theorem run_get (s : Simulation) : (get : Sim Simulation).run.run s = (.ok s, s) := rfl

theorem run_set (s s' : Simulation) : (set s' : Sim PUnit).run.run s = (.ok ⟨⟩, s') := rfl

theorem run_now (s : Simulation) : now.run.run s = (.ok s.now, s) := rfl

theorem run_world (s : Simulation) : world.run.run s = (.ok s.world, s) := rfl

/-- What comes of an action with a handler. -/
theorem run_tryCatch (a : Sim α) (f : Problem → Sim α) (s : Simulation) :
    (tryCatch a f).run.run s =
      match a.run.run s with
      | (.ok x, s') => (.ok x, s')
      | (.error e, s') => (f e).run.run s' := by
  simp only [tryCatch, tryCatchThe, MonadExceptOf.tryCatch, ExceptT.tryCatch, ExceptT.run,
    ExceptT.mk, bind, StateT.bind, StateT.run]
  rcases a s with ⟨result, s'⟩
  cases result with
  | ok x => rfl
  | error e => rfl

/-- An action that succeeds needs no handler. -/
theorem run_tryCatch_ok {a : Sim α} {s s' : Simulation} {x : α} (h : a.run.run s = (.ok x, s'))
    (f : Problem → Sim α) : (tryCatch a f).run.run s = (.ok x, s') := by
  rw [run_tryCatch, h]

/-- Who observes an action that fails learns why. -/
theorem run_observing_error {a : Sim α} {s s' : Simulation} {e : Problem}
    (h : a.run.run s = (.error e, s')) : (observing a).run.run s = (.ok (.error e), s') := by
  unfold observing
  rw [run_tryCatch, run_bind_error h]
  rfl

theorem run_change (f : World → α × World) (s : Simulation) :
    (change f).run.run s = (.ok (f s.world).1, { s with world := (f s.world).2 }) := rfl

/-- A task that is awaited runs in the foreground. -/
theorem run_await (t : Task) (s : Simulation) :
    (await t).run.run s = Simulation.runWithin s.nextTask s.patience t s.newTask.2 := by
  unfold await
  rw [run_bind_ok (run_get s)]
  dsimp only [Simulation.newTask]
  rw [run_bind_ok (run_set s _)]
  generalize Simulation.runWithin s.nextTask s.patience t _ = ran
  obtain ⟨result, s'⟩ := ran
  cases result with
  | ok x => rfl
  | error e => rfl

theorem Keeps.pure (x : α) : (Pure.pure x : Sim α).Keeps :=
  fun s => .refl s

theorem Keeps.throw (e : Problem) : (throw e : Sim α).Keeps :=
  fun s => .refl s

theorem Keeps.bind {a : Sim α} {f : α → Sim β} (ha : a.Keeps) (hf : ∀ x, (f x).Keeps) :
    (a >>= f).Keeps := by
  intro s
  have hfirst := ha s
  rw [run_bind]
  rcases hrun : a.run.run s with ⟨result, s'⟩
  rw [hrun] at hfirst
  cases result with
  | ok x => exact hfirst.trans (hf x s')
  | error e => exact hfirst

theorem Keeps.tryCatch {a : Sim α} {f : Problem → Sim α} (ha : a.Keeps)
    (hf : ∀ e, (f e).Keeps) : (tryCatch a f).Keeps := by
  intro s
  have hfirst := ha s
  rw [run_tryCatch]
  rcases hrun : a.run.run s with ⟨result, s'⟩
  rw [hrun] at hfirst
  cases result with
  | ok x => exact hfirst
  | error e => exact hfirst.trans (hf e s')

theorem now_keeps : now.Keeps :=
  fun s => .refl s

theorem world_keeps : world.Keeps :=
  fun s => .refl s

/-- A change of the world that keeps it. -/
theorem change_keeps {f : World → α × World} (h : ∀ w : World, w.Keeps (f w).2) :
    (change f).Keeps :=
  fun s => Simulation.keeps_world (h s.world)

/-- A task that does not poll a link may be put into the background. -/
theorem spawn_keeps {t : Task} (h : t.IsQuiet) : (spawn t).Keeps := by
  intro s hs
  refine ⟨⟨hs.world, fun entry hentry => ?_⟩, .refl _⟩
  rcases List.mem_append.1 hentry with hold | hnew
  · exact hs.queue entry hold
  · rw [List.mem_singleton] at hnew
    rw [hnew]
    exact h

/-- A task that does not poll a link may be run. -/
theorem await_keeps {t : Task} (h : t.IsQuiet) : (await t).Keeps := by
  intro s
  have hrun := Simulation.runWithin_keeps s.nextTask s.patience h s.newTask.2
  have hnew : s.Keeps s.newTask.2 := fun hs => ⟨⟨hs.world, hs.queue⟩, .refl _⟩
  rw [run_await]
  exact hnew.trans hrun

theorem sleep_keeps (ticks : Nat) : (sleep ticks).Keeps :=
  .bind now_keeps fun _ => .bind (await_keeps trivial) fun _ => .pure _

end Actions

end Sim
end ReplicatedLog
