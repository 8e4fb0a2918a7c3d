import ReplicatedLog.Proofs.Cluster.Engine
import ReplicatedLog.Proofs.Runner.Delivery
import ReplicatedLog.Simulation.Task

/-!
# Runners in a world

Any number of runners bring the commands of logs to engines.  None of them is
disturbed by what the others do, since each has a link of its own.

* `World.AtWork` says how far the engine of a post is: it has executed what its runner
  has handed over, and `Phase.Delivers` what that is;
* `World.Sound`: all posts are so at work, no two of them on one link;
* `World.Follows`: logs have only grown, and links, posts and clusters are still there;
* `World.Keeps`: a sound world stays sound, and follows;
* `Task.step_keeps`: every step of a task that does not poll a link keeps the world.
-/

namespace ReplicatedLog
namespace World

section Access

theorem getD_set {α : Type} (as : List α) (i j : Nat) (a d : α) :
    (as.set i a).getD j d = if i = j ∧ i < as.length then a else as.getD j d := by
  rw [List.getD_eq_getElem?_getD, List.getD_eq_getElem?_getD, List.getElem?_set]
  by_cases hij : i = j
  · subst hij
    by_cases hi : i < as.length
    · simp [hi]
    · simp [hi]
  · simp [hij]

variable (w : World) (i j : Nat)

theorem log_setLog (log : Log) :
    (w.setLog i log).log j = if i = j ∧ i < w.logs.length then log else w.log j :=
  getD_set w.logs i j log {}

variable {w i j} {e : Endpoint SharedLog}

/-- Every log has grown when one has been replaced by one that has. -/
theorem setLog_grows {log : Log} (h : (w.log i).Grows log) (k : Nat) :
    (w.log k).Grows ((w.setLog i log).log k) := by
  rw [log_setLog]
  split
  next hk =>
    rw [← hk.1]
    exact h
  next => exact .refl _

/-- A link as it is after a channel has been set. -/
theorem links_set (w : World) (i j : Nat) (e : Endpoint SharedLog) :
    ((link i).set w e).links.getD j default =
      if i = j ∧ i < w.links.length then
        { w.links.getD i default with
          reader := e.client.reader, writer := e.client.writer, channel := e.channel }
      else w.links.getD j default :=
  getD_set w.links i j _ default

/-- What has been set is got. -/
theorem get_set_self (hi : i < w.links.length)
    (hlog : (w.links.getD i default).log < w.logs.length)
    (hschema : e.client.schema = ((link i).get w).client.schema) :
    (link i).get ((link i).set w e) = e := by
  have hlink := links_set w i i e
  rw [if_pos ⟨rfl, hi⟩] at hlink
  have hl : ((link i).set w e).log (w.links.getD i default).log = e.client.log := by
    change (w.setLog (w.links.getD i default).log e.client.log).log _ = _
    rw [log_setLog, if_pos ⟨rfl, hlog⟩]
  change (⟨⟨((link i).set w e).log (((link i).set w e).links.getD i default).log, _, _, _⟩, _⟩ :
    Endpoint SharedLog) = e
  rw [hlink, hl, ← show e.client.schema = (w.links.getD i default).schema from hschema]

/-- Every channel follows when one has been set that does. -/
theorem get_set_follows (h : ((link i).get w).Follows e) (j : Nat) :
    ((link j).get w).Follows ((link j).get ((link i).set w e)) := by
  have hlink := links_set w i j e
  have hgrows := setLog_grows h.log (w.links.getD j default).log
  have hsame : (((link i).set w e).links.getD j default).log = (w.links.getD j default).log ∧
      (((link i).set w e).links.getD j default).schema = (w.links.getD j default).schema ∧
      (((link i).set w e).links.getD j default).channel.partition =
        (w.links.getD j default).channel.partition := by
    rw [hlink]
    split
    next hij =>
      rw [← hij.1]
      exact ⟨rfl, rfl, h.partition⟩
    next => exact ⟨rfl, rfl, rfl⟩
  refine ⟨?_, hsame.2.1, hsame.2.2⟩
  change (w.log _).Grows (((link i).set w e).log (((link i).set w e).links.getD j default).log)
  rw [hsame.1]
  exact hgrows

/-- A channel keeps its reader where it is when another one has been set, or it has been set so. -/
theorem get_set_keeps (h : ((link i).get w).Follows e)
    (hj : i = j → ((link i).get w).Keeps e) :
    ((link j).get w).Keeps ((link j).get ((link i).set w e)) := by
  refine ⟨get_set_follows h j, ?_⟩
  change (((link i).set w e).links.getD j default).reader.positions = _
  rw [links_set]
  split
  next hij =>
    rw [← hij.1]
    exact (hj hij.1).positions
  next => rfl

end Access

section Following

/-- A runner works at a post, on a link. -/
def HasPost (w : World) (j i : Nat) (b : Workbench) (r : Runner SharedLog) : Prop :=
  w.posts[j]? = some (.link i b r)

/-- Logs have only grown, and links, posts and clusters are still there. -/
structure Follows (w w' : World) : Prop where
  logs : w'.logs.length = w.logs.length
  grows : ∀ i, (w.log i).Grows (w'.log i)
  links : w.links.length ≤ w'.links.length
  onLog : ∀ i < w.links.length, (w'.links.getD i default).log = (w.links.getD i default).log
  link : ∀ i < w.links.length, ((World.link i).get w).Follows ((World.link i).get w')
  posts : ∀ j i b r, w.HasPost j i b r → ∃ b' r', w'.HasPost j i b' r'
  clusters : w'.clusters = w.clusters

variable {w w' w'' : World} {i : Nat} {e : Endpoint SharedLog}

theorem Follows.refl (w : World) : w.Follows w :=
  ⟨rfl, fun _ => .refl _, Nat.le_refl _, fun _ _ => rfl, fun _ _ => .refl _,
    fun _ _ b r h => ⟨b, r, h⟩, rfl⟩

theorem Follows.trans (h : w.Follows w') (h' : w'.Follows w'') : w.Follows w'' := by
  refine ⟨h'.logs.trans h.logs, fun i => (h.grows i).trans (h'.grows i),
    Nat.le_trans h.links h'.links, fun i hi => ?_, fun i hi => ?_, fun j i b r hj => ?_,
    h'.clusters.trans h.clusters⟩
  · have hi' := Nat.lt_of_lt_of_le hi h.links
    exact (h'.onLog i hi').trans (h.onLog i hi)
  · exact (h.link i hi).trans (h'.link i (Nat.lt_of_lt_of_le hi h.links))
  · obtain ⟨b', r', hj'⟩ := h.posts j i b r hj
    exact h'.posts j i b' r' hj'

/-- A world follows when a channel has been set that does. -/
theorem follows_set (h : ((link i).get w).Follows e) : w.Follows ((link i).set w e) := by
  refine ⟨List.length_set, setLog_grows h.log, Nat.le_of_eq List.length_set.symm, fun j _ => ?_,
    fun j _ => get_set_follows h j, fun j i b r hj => ⟨b, r, hj⟩, rfl⟩
  rw [links_set]
  split
  next hij => rw [← hij.1]
  next => rfl

end Following

section Working

/-- The engine of a post has executed what its runner has handed over. -/
structure AtWork (w : World) (i : Nat) (b : Workbench) (r : Runner SharedLog) : Prop where
  link : i < w.links.length
  log : (w.links.getD i default).log < w.logs.length
  plain : b.IsPlain
  state : ∃ handed, b.engine = Engine.run {} handed ∧
    r.phase.Delivers ((World.link i).get w) handed

/-- All posts on links are at work, no two of them on one link. -/
structure Sound (w : World) : Prop where
  atWork : ∀ j i b r, w.HasPost j i b r → w.AtWork i b r
  apart : ∀ j j' i b r b' r', w.HasPost j i b r → w.HasPost j' i b' r' → j = j'

/-- A sound world stays sound, and follows. -/
def Keeps (w w' : World) : Prop :=
  w.Sound → w'.Sound ∧ w.Follows w'

variable {w w' w'' : World} {i : Nat} {b : Workbench} {r : Runner SharedLog}
  {e : Endpoint SharedLog}

theorem Keeps.refl (w : World) : w.Keeps w :=
  fun h => ⟨h, .refl w⟩

theorem Keeps.trans (h : w.Keeps w') (h' : w'.Keeps w'') : w.Keeps w'' := by
  intro hs
  obtain ⟨hs', hf⟩ := h hs
  obtain ⟨hs'', hf'⟩ := h' hs'
  exact ⟨hs'', hf.trans hf'⟩

/-- Which clusters there are does not matter to the runners. -/
theorem Sound.withClusters (h : w.Sound) (clusters : List Cluster) :
    ({ w with clusters } : World).Sound := by
  refine ⟨fun j i b r hj => ?_, h.apart⟩
  have hwork := h.atWork j i b r hj
  exact ⟨hwork.link, hwork.log, hwork.plain, hwork.state⟩

/-- What leaves the reader of a post in its place leaves the post at work. -/
theorem AtWork.keeps (h : w.AtWork i b r) (hf : w.Follows w')
    (hk : ((World.link i).get w).Keeps ((World.link i).get w')) : w'.AtWork i b r := by
  obtain ⟨handed, hengine, hdelivers⟩ := h.state
  refine ⟨Nat.lt_of_lt_of_le h.link hf.links, ?_, h.plain, handed, hengine, hdelivers.keeps hk⟩
  rw [hf.onLog i h.link, hf.logs]
  exact h.log

/-- A change of other things than logs, links and the posts on them. -/
theorem keeps_of_eq (hlogs : w'.logs = w.logs) (hlinks : w'.links = w.links)
    (hpost : ∀ j i b r, w'.HasPost j i b r ↔ w.HasPost j i b r)
    (hclusters : w'.clusters = w.clusters) : w.Keeps w' := by
  intro hs
  have hget : ∀ i, (World.link i).get w' = (World.link i).get w := by
    intro i
    simp only [World.link, World.log, hlogs, hlinks]
  have hlog : ∀ i, w'.log i = w.log i := by
    intro i
    simp only [World.log, hlogs]
  have hf : w.Follows w' := by
    refine ⟨by rw [hlogs], fun i => ?_, Nat.le_of_eq (congrArg List.length hlinks.symm),
      fun i _ => by rw [hlinks], fun i _ => ?_, fun j i b r hj => ⟨b, r, (hpost j i b r).2 hj⟩,
      hclusters⟩
    · rw [hlog]
      exact .refl _
    · rw [hget]
      exact .refl _
  refine ⟨⟨fun j i b r hj => ?_, fun j j' i b r b' r' hj hj' => ?_⟩, hf⟩
  · refine (hs.atWork j i b r ((hpost j i b r).1 hj)).keeps hf ?_
    rw [hget]
    exact .refl _
  · exact hs.apart j j' i b r b' r' ((hpost j i b r).1 hj) ((hpost j' i b' r').1 hj')

/-- A channel that keeps its reader where it is may be set. -/
theorem keeps_set (h : ((link i).get w).Keeps e) : w.Keeps ((link i).set w e) := by
  intro hs
  have hf := follows_set h.toFollows
  refine ⟨⟨fun j l b r hj => ?_, hs.apart⟩, hf⟩
  exact (hs.atWork j l b r hj).keeps hf (get_set_keeps h.toFollows fun _ => h)

/-- Others may use the logs. -/
theorem keeps_onLog (w : World) (k : Nat) (op : Log.Operation) :
    w.Keeps (w.setLog k ((w.log k).perform op)) := by
  intro hs
  have hgrows := setLog_grows (Log.perform_grows (w.log k) op)
  have hget : ∀ i, ((World.link i).get w).Keeps
      ((World.link i).get (w.setLog k ((w.log k).perform op))) := fun i =>
    ⟨⟨hgrows _, rfl, rfl⟩, rfl⟩
  have hf : w.Follows (w.setLog k ((w.log k).perform op)) :=
    ⟨List.length_set, hgrows, Nat.le_refl _, fun _ _ => rfl, fun i _ => (hget i).toFollows,
      fun _ _ b r hj => ⟨b, r, hj⟩, rfl⟩
  exact ⟨⟨fun j i b r hj => (hs.atWork j i b r hj).keeps hf (hget i), hs.apart⟩, hf⟩

/-- A runner may take a step, or be asked to stop, and leave its channel on its partition. -/
theorem keeps_post {j : Nat} {b' : Workbench} {r' : Runner SharedLog} (hj : w.HasPost j i b r)
    (he : ((link i).get w).Follows e) (hplain : b'.IsPlain)
    (hstate : ∃ handed, b'.engine = Engine.run {} handed ∧ r'.phase.Delivers e handed) :
    w.Keeps { (link i).set w e with posts := w.posts.set j (.link i b' r') } := by
  intro hs
  have hset := follows_set he
  have hown := hs.atWork j i b r hj
  have hlt : j < w.posts.length := by
    obtain ⟨hlt, -⟩ := List.getElem?_eq_some_iff.1 hj
    exact hlt
  -- the post of the runner has changed, all others are as they were
  have hposts : ∀ {k l c q},
      ({ (link i).set w e with posts := w.posts.set j (.link i b' r') } : World).HasPost k l c q →
        (k = j ∧ l = i ∧ c = b' ∧ q = r') ∨ (k ≠ j ∧ w.HasPost k l c q) := by
    intro k l c q hk
    rw [HasPost, List.getElem?_set] at hk
    split at hk
    next hkj =>
      cases hk
      exact Or.inl ⟨hkj.symm, rfl, rfl, rfl⟩
    next hkj => exact Or.inr ⟨fun h => hkj h.symm, hk⟩
  have hf : w.Follows { (link i).set w e with posts := w.posts.set j (.link i b' r') } := by
    refine ⟨hset.logs, hset.grows, hset.links, hset.onLog, hset.link, fun k l c q hk => ?_,
      hset.clusters⟩
    by_cases hkj : k = j
    · subst hkj
      have hsame := Option.some.inj (hk.symm.trans hj)
      cases hsame
      exact ⟨b', r', by simp [HasPost, hlt]⟩
    · refine ⟨c, q, ?_⟩
      rw [HasPost, List.getElem?_set, if_neg fun h => hkj h.symm]
      exact hk
  refine ⟨⟨fun k l c q hk => ?_, fun k k' l c q c' q' hk hk' => ?_⟩, hf⟩
  · rcases hposts hk with ⟨-, rfl, rfl, rfl⟩ | ⟨hkj, hk⟩
    · refine ⟨Nat.lt_of_lt_of_le hown.link hf.links, ?_, hplain, ?_⟩
      · rw [hf.onLog l hown.link, hf.logs]
        exact hown.log
      · have hget : (link l).get ((link l).set w e) = e :=
          get_set_self hown.link hown.log he.schema
        obtain ⟨handed, hengine, hdelivers⟩ := hstate
        exact ⟨handed, hengine, by rw [← hget] at hdelivers; exact hdelivers⟩
    · refine (hs.atWork k l c q hk).keeps hf (get_set_keeps he fun hil => ?_)
      subst hil
      exact absurd (hs.apart k j i c q b r hk hj) hkj
  · rcases hposts hk with ⟨rfl, rfl, -⟩ | ⟨-, hold⟩
    · rcases hposts hk' with ⟨rfl, -⟩ | ⟨-, hold'⟩
      · rfl
      · exact hs.apart k k' l b r c' q' hj hold'
    · rcases hposts hk' with ⟨rfl, rfl, -⟩ | ⟨-, hold'⟩
      · exact hs.apart k k' l c q b r hold hj
      · exact hs.apart k k' l c q c' q' hold hold'

/-- A post on a scripted service that has changed is none on a link. -/
theorem hasPost_of_service {j i : Nat} {b : Workbench} {r : Runner Service} {p : Post}
    (hj : w.posts[j]? = some (.service i b r)) (hp : ∀ l c q, p ≠ .link l c q)
    (hw : w'.posts = w.posts.set j p) (k l : Nat) (c : Workbench) (q : Runner SharedLog) :
    w'.HasPost k l c q ↔ w.HasPost k l c q := by
  rw [HasPost, HasPost, hw, List.getElem?_set]
  by_cases hjk : j = k
  · subst hjk
    rw [if_pos rfl, hj]
    constructor
    · intro h
      split at h
      · exact absurd (Option.some.inj h) (hp l c q)
      · cases h
    · intro h
      cases h
  · rw [if_neg hjk]

/-- A step of the runner of a post keeps the world. -/
theorem keeps_stepPost {j : Nat} {p : Post} (now : Nat) (me : TaskId) (hj : w.posts[j]? = some p) :
    w.Keeps { (p.step now me w).2 with
      posts := (p.step now me w).2.posts.set j (p.step now me w).1 } := by
  cases p with
  | service i b r =>
      exact keeps_of_eq rfl rfl (hasPost_of_service hj (by simp [Post.step]) rfl) rfl
  | link i b r =>
      intro hs
      have hown := hs.atWork j i b r hj
      obtain ⟨handed, hengine, hdelivers⟩ := hown.state
      have hexec := Runner.step_executor now me
        (Post.stateAt (World.link i) w b r)
      refine keeps_post hj (Runner.step_follows (Post.stateAt (World.link i) w b r)) ?_ ?_ hs
      · rw [hexec]
        cases Runner.handedBy now (Post.stateAt (World.link i) w b r).runner with
        | none => exact hown.plain
        | some q => exact (hown.plain.executes q).1
      · refine ⟨handed ++ (Runner.handedBy now r).toList, ?_,
          Runner.step_delivers (s := Post.stateAt (World.link i) w b r) hdelivers⟩
        rw [hexec]
        change Workbench.engine ((Runner.handedBy now r).elim b fun q => (b.execute q).2) = _
        cases Runner.handedBy now r with
        | none => simp [hengine]
        | some q =>
            rw [Option.toList_some, Engine.run_append, ← hengine]
            exact (hown.plain.executes q).2

/-- To ask a runner to stop keeps the world. -/
theorem keeps_stopPost (w : World) (now j : Nat) : w.Keeps (w.stopPost now j) := by
  unfold stopPost
  split
  next => exact .refl w
  next p hj =>
    cases p with
    | service i b r =>
        exact keeps_of_eq rfl rfl (hasPost_of_service hj (by simp [Post.requestStop]) rfl) rfl
    | link i b r =>
        intro hs
        have hown := hs.atWork j i b r hj
        obtain ⟨handed, hengine, hdelivers⟩ := hown.state
        have hkeeps := Endpoint.keeps_interrupt ((link i).get w) now
        exact keeps_post hj hkeeps.toFollows hown.plain
          ⟨handed, hengine, hdelivers.keeps hkeeps⟩ hs

end Working

end World

namespace Task

section Steps

/-- A task that does not poll a link. -/
def IsQuiet : Task → Prop
  | .onLink _ c => ∃ r, c.Serves r ∧ r.IsQuiet
  | _ => True

variable {now : Nat} {me : TaskId} {w : World}

theorem stepReceive_keeps (i : Nat) (h : ReadHandle) (p : Reader.Poll) :
    w.Keeps (stepReceive now w i h p).2 ∧
      ∀ t, (stepReceive now w i h p).1 = .waiting t → t.IsQuiet := by
  refine ⟨World.keeps_of_eq rfl rfl (fun _ _ _ _ => Iff.rfl) rfl, fun t ht => ?_⟩
  simp only [stepReceive] at ht
  split at ht
  next s _ =>
    cases hp : (h.reader.stepPoll s now (w.log h.log) p).1 with
    | waiting p' =>
        simp only [hp, Progress.map] at ht
        cases ht
        trivial
    | done result =>
        simp only [hp, Progress.map] at ht
        cases ht
  next s _ =>
    cases hp : (h.reader.stepPoll s now (w.log h.log) p).1 with
    | waiting p' =>
        simp only [hp, Progress.map] at ht
        cases ht
        trivial
    | done result =>
        simp only [hp, Progress.map] at ht
        cases ht

/-- A call that does not poll keeps the world. -/
theorem stepCall_keeps {i : Nat} {c : Channel.Call SharedLog} {r : Channel.Request}
    (hs : c.Serves r) (hq : r.IsQuiet) :
    w.Keeps (stepCall (World.link i) (onLink i) now me w c).2 ∧
      ∀ t, (stepCall (World.link i) (onLink i) now me w c).1 = .waiting t → t.IsQuiet := by
  refine ⟨World.keeps_set (Channel.Call.step_keeps now me _ (hs.not_movesReader hq _ me)),
    fun t ht => ?_⟩
  cases hp : (c.step now me ((World.link i).get w)).1 with
  | waiting c' =>
      simp only [stepCall, hp, Progress.map] at ht
      cases ht
      exact ⟨r, Channel.Call.step_serves hs hp, hq⟩
  | done result =>
      simp only [stepCall, hp, Progress.map] at ht
      cases ht

theorem orWait_keeps {α : Type} {t : Task} (h : t.IsQuiet) (answer : α → Except Problem Answer)
    (a : Option α) : w.Keeps (orWait t w answer a).2 ∧
      ∀ t', (orWait t w answer a).1 = .waiting t' → t'.IsQuiet := by
  cases a with
  | some a =>
      refine ⟨.refl w, fun t' ht => ?_⟩
      cases ht
  | none =>
      refine ⟨.refl w, fun t' ht => ?_⟩
      cases ht
      exact h

/-- A step of a task that does not poll a link keeps the world, and leaves such a task. -/
theorem step_keeps (now : Nat) (me : TaskId) (w : World) {t : Task} (h : t.IsQuiet) :
    w.Keeps (t.step now me w).2 ∧
      ∀ t', (t.step now me w).1 = .waiting t' → t'.IsQuiet := by
  cases t with
  | receive i p =>
      simp only [step]
      split
      next handle _ => exact stepReceive_keeps i handle p
      next => exact ⟨.refl w, fun t' ht => by cases ht⟩
  | acknowledgment i wait => exact orWait_keeps h _ _
  | onLink i c =>
      obtain ⟨r, hs, hq⟩ := h
      exact stepCall_keeps hs hq
  | onService i c =>
      refine ⟨World.keeps_of_eq rfl rfl (fun _ _ _ _ => Iff.rfl) rfl, fun t' ht => ?_⟩
      cases hp : (c.step now me ((World.service i).get w)).1 with
      | waiting c' =>
          simp only [step, stepCall, hp, Progress.map] at ht
          cases ht
          trivial
      | done result =>
          simp only [step, stepCall, hp, Progress.map] at ht
          cases ht
  | work i =>
      simp only [step]
      split
      next p hp =>
        have hkeeps := World.keeps_stepPost now me hp
        simp only [stepWork]
        split
        · exact ⟨hkeeps, fun t' ht => by cases ht⟩
        · refine ⟨hkeeps, fun t' ht => ?_⟩
          cases ht
          trivial
      next => exact ⟨.refl w, fun t' ht => by cases ht⟩
  | endOf i => exact orWait_keeps h _ _
  | resultOf other => exact orWait_keeps h _ _
  | sleep wake =>
      simp only [step]
      split
      · exact ⟨.refl w, fun t' ht => by cases ht⟩
      · refine ⟨.refl w, fun t' ht => ?_⟩
        cases ht
        trivial

/-- To give up a task keeps the world. -/
theorem abandon_keeps (me : TaskId) (w : World) (t : Task) : w.Keeps (t.abandon me w) := by
  cases t with
  | onLink i c => exact World.keeps_set (Endpoint.keeps_leave _ me)
  | onService i c => exact World.keeps_of_eq rfl rfl (fun _ _ _ _ => Iff.rfl) rfl
  | receive i p => exact .refl w
  | acknowledgment i wait => exact .refl w
  | work i => exact .refl w
  | endOf i => exact .refl w
  | resultOf other => exact .refl w
  | sleep wake => exact .refl w

end Steps

end Task
end ReplicatedLog
