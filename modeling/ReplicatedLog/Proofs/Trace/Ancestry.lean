import ReplicatedLog.Proofs.Trace.Lifetimes
import ReplicatedLog.Trace.Run
import Mathlib.Data.List.Dedup

/-!
# The nodes of spans

A span keeps the context under which it began, and a span without one has the node of the nearest
span around it that has one.  Contexts come and go and spans are entered and left, both in any
order; no span that has begun hears of it.

* `Move` is what a thread does, and `run` what comes of it; spans are numbered in the order in which
  they begin;
* `Line` tells from the moves alone when a span began, and when each span around it did: its parent
  is the innermost span that was entered when it began;
* `spans_keep_nodes`: the node of a span is, from its beginning on, the first context that was
  current at the points of its line;
* `exists_moves`: what a traced program does is what a thread does.
-/

namespace ReplicatedLog
namespace Trace
namespace Ancestry

section Threads

/-- What a thread does. -/
inductive Move
  /-- Sets or drops a guard. -/
  | guard (m : Lifetimes.Move)
  /-- Begins a span, without entering it. -/
  | begin (name : String) (level : Level) (target : String) (fields : Fields)
  /-- Enters the span with a number. -/
  | enter (k : Nat)
  /-- Leaves the span with a number, which need not be the innermost. -/
  | exit (k : Nat)
  deriving DecidableEq, Repr

/-- The contexts and the spans of a thread. -/
structure Thread where
  contexts : Contexts := {}
  /-- The spans that have begun and are heard, the oldest first. -/
  spans : List Span := []
  /-- The numbers of the spans entered, the latest first.  A span may be entered more than once. -/
  entered : List Nat := []
  deriving DecidableEq, Repr

namespace Thread

/-- The innermost span.  A span that is entered again keeps the place where it was entered first. -/
def innermost (t : Thread) : Option Nat :=
  t.entered.dedup.head?

/-- The thread as it is seen by a span that begins. -/
def state (t : Thread) : Program.State where
  contexts := t.contexts
  entered := t.entered.dedup.map fun k => t.spans[k]?

/-- The thread after a move.  A span that is not heard gets no number. -/
def step (hears : Hearing) (t : Thread) : Move → Thread
  | .guard m => { t with contexts := Lifetimes.step t.contexts m }
  | .begin name level target fields =>
      match t.state.begin hears name level target fields with
      | none => t
      | some span => { t with spans := t.spans ++ [span] }
  | .enter k => if k < t.spans.length then { t with entered := k :: t.entered } else t
  | .exit k => { t with entered := t.entered.erase k }

/-- The node of the span with a number. -/
def lookup (t : Thread) (k : Nat) : Option NodeContext :=
  t.spans[k]?.bind Span.node

end Thread

/-- What comes of moves that begin without any context or span. -/
def run (hears : Hearing) (moves : List Move) : Thread :=
  moves.foldl (Thread.step hears) {}

variable {hears : Hearing}

theorem run_append (moves later : List Move) :
    run hears (moves ++ later) = later.foldl (Thread.step hears) (run hears moves) := by
  rw [run, List.foldl_append]
  rfl

theorem run_concat (moves : List Move) (m : Move) :
    run hears (moves ++ [m]) = (run hears moves).step hears m :=
  run_append moves [m]

end Threads

section Beginnings

variable {hears : Hearing} {t : Thread} {m : Move} {k : Nat} {span : Span}
  {name target : String} {level : Level} {fields : Fields}

/-- The span that a move begins, if it begins one that is heard. -/
def Thread.begun (hears : Hearing) (t : Thread) : Move → Option Span
  | .begin name level target fields => t.state.begin hears name level target fields
  | _ => none

/-- Spans never change; a move adds the one that it begins. -/
theorem Thread.spans_step (hears : Hearing) (t : Thread) (m : Move) :
    (t.step hears m).spans = t.spans ++ (t.begun hears m).toList := by
  cases m with
  | guard m => exact (List.append_nil _).symm
  | begin name level target fields =>
      simp only [step, begun]
      cases t.state.begin hears name level target fields with
      | none => exact (List.append_nil _).symm
      | some span => rfl
  | enter k =>
      simp only [step, begun, Option.toList_none, List.append_nil]
      split <;> rfl
  | exit k => exact (List.append_nil _).symm

/-- A span after a move was there before it, or is the one that the move begins. -/
theorem Thread.spans_step_get (h : (t.step hears m).spans[k]? = some span) :
    t.spans[k]? = some span ∨ k = t.spans.length ∧ t.begun hears m = some span := by
  rw [spans_step] at h
  cases hb : t.begun hears m with
  | none =>
      rw [hb, Option.toList_none, List.append_nil] at h
      exact Or.inl h
  | some new =>
      rw [hb, Option.toList_some] at h
      rcases Nat.lt_trichotomy k t.spans.length with hlt | rfl | hgt
      · rw [List.getElem?_append_left hlt] at h
        exact Or.inl h
      · rw [List.getElem?_concat_length] at h
        exact Or.inr ⟨rfl, h⟩
      · have hlength : (t.spans ++ [new]).length ≤ k := by
          rwa [List.length_append]
        rw [List.getElem?_eq_none hlength] at h
        cases h

theorem spans_run_extends (hears : Hearing) (moves later : List Move) :
    (run hears moves).spans <+: (run hears (moves ++ later)).spans := by
  induction later using List.reverseRecOn with
  | nil => rw [List.append_nil]
  | append_singleton later m ih =>
      rw [← List.append_assoc, run_concat, Thread.spans_step]
      exact ih.trans (List.prefix_append _ _)

/-- Only a span that has begun is entered. -/
def Thread.Sound (t : Thread) : Prop :=
  ∀ k ∈ t.entered, k < t.spans.length

theorem Thread.Sound.step (ht : t.Sound) (m : Move) : (t.step hears m).Sound := by
  have hgrows : t.spans.length ≤ (t.step hears m).spans.length := by
    rw [spans_step, List.length_append]
    exact Nat.le_add_right _ _
  cases m with
  | guard m => exact ht
  | begin name level target fields =>
      have hentered : (t.step hears (.begin name level target fields)).entered = t.entered := by
        simp only [Thread.step]
        split <;> rfl
      intro k hk
      rw [hentered] at hk
      exact (ht k hk).trans_le hgrows
  | enter j =>
      by_cases hj : j < t.spans.length
      · rw [Thread.step, if_pos hj]
        intro k hk
        rcases List.mem_cons.1 hk with rfl | hk
        · exact hj
        · exact ht k hk
      · rw [Thread.step, if_neg hj]
        exact ht
  | exit j => exact fun k hk => ht k (List.mem_of_mem_erase hk)

theorem run_sound (moves : List Move) : (run hears moves).Sound := by
  induction moves using List.reverseRecOn with
  | nil => exact nofun
  | append_singleton moves m ih =>
      rw [run_concat]
      exact ih.step m

/-- A span begins inside the innermost one. -/
theorem Thread.Sound.currentSpan (ht : t.Sound) :
    t.state.currentSpan = t.innermost.bind fun k => t.spans[k]? := by
  rw [Program.State.currentSpan, state, innermost]
  cases hd : t.entered.dedup with
  | nil => rfl
  | cons k outer =>
      have hk : k ∈ t.entered := List.mem_dedup.1 (hd ▸ List.mem_cons_self)
      have hget := List.getElem?_eq_getElem (ht k hk)
      rw [List.map_cons, List.findSome?_cons, hget]
      exact hget.symm

/-- What a span that has just begun is, and what is around it. -/
theorem Thread.Sound.begun (ht : t.Sound) (h : t.begun hears m = some span) :
    ∃ name level target fields, m = .begin name level target fields ∧ hears target level = true ∧
      span = .inside ⟨name, level, target, fields, t.contexts.current⟩
        (t.innermost.bind fun k => t.spans[k]?) := by
  cases m with
  | guard m => cases h
  | enter k => cases h
  | exit k => cases h
  | begin name level target fields =>
      rw [← ht.currentSpan]
      simp only [Thread.begun, Program.State.begin] at h
      split at h
      · rename_i hheard
        exact ⟨name, level, target, fields, rfl, hheard, (Option.some.inj h).symm⟩
      · cases h

theorem Thread.begun_of_heard (t : Thread) (name : String) (fields : Fields)
    (hheard : hears target level = true) :
    (t.begun hears (.begin name level target fields)).isSome := by
  simp [begun, Program.State.begin, hheard]

end Beginnings

section Lines

variable {hears : Hearing} {moves later before before' : List Move} {line line' : List (List Move)}
  {k : Nat} {span : Span}

/-- The span with a number began after the moves `before`. -/
def Began (hears : Hearing) (moves : List Move) (k : Nat) (before : List Move) : Prop :=
  ∃ name level target fields, before ++ [.begin name level target fields] <+: moves ∧
    hears target level = true ∧ (run hears before).spans.length = k

/-- The moves before the span with a number began, and those before each span around it did, the
innermost first. -/
inductive Line (hears : Hearing) (moves : List Move) : Nat → List (List Move) → Prop
  | root {k : Nat} {before : List Move} (hbegan : Began hears moves k before)
      (houter : (run hears before).innermost = none) : Line hears moves k [before]
  | child {k j : Nat} {before : List Move} {line : List (List Move)}
      (hbegan : Began hears moves k before) (houter : (run hears before).innermost = some j)
      (hline : Line hears moves j line) : Line hears moves k (before :: line)

theorem Began.mono (h : Began hears moves k before) (later : List Move) :
    Began hears (moves ++ later) k before := by
  obtain ⟨name, level, target, fields, hbefore, rest⟩ := h
  exact ⟨name, level, target, fields, hbefore.trans (List.prefix_append _ _), rest⟩

theorem Line.mono (h : Line hears moves k line) (later : List Move) :
    Line hears (moves ++ later) k line := by
  induction h with
  | root hbegan houter => exact .root (hbegan.mono later) houter
  | child hbegan houter hline ih => exact .child (hbegan.mono later) houter ih

theorem Began.point (h : Began hears moves k before) :
    before <+: moves ∧ (run hears before).spans.length = k := by
  obtain ⟨name, level, target, fields, hbefore, -, hk⟩ := h
  exact ⟨(List.prefix_append _ _).trans hbefore, hk⟩

/-- Once the span has begun, there are more spans than its number. -/
theorem Began.lt_of_longer (h : Began hears moves k before) (hd : before' <+: moves)
    (hlonger : before.length < before'.length) : k < (run hears before').spans.length := by
  obtain ⟨name, level, target, fields, hbefore, hheard, rfl⟩ := h
  have hlength : (before ++ [Move.begin name level target fields]).length ≤ before'.length := by
    rwa [List.length_append]
  obtain ⟨rest, rfl⟩ := List.prefix_of_prefix_length_le hbefore hd hlength
  refine Nat.lt_of_lt_of_le ?_ (spans_run_extends hears _ rest).length_le
  obtain ⟨span, hspan⟩ := Option.isSome_iff_exists.1
    ((run hears before).begun_of_heard name fields hheard)
  rw [run_concat, Thread.spans_step, hspan, List.length_append]
  exact Nat.lt_succ_self _

theorem Began.unique (h : Began hears moves k before) (h' : Began hears moves k before') :
    before = before' := by
  obtain ⟨hd, hk⟩ := h.point
  obtain ⟨hd', hk'⟩ := h'.point
  have hlength : before.length = before'.length := by
    refine Nat.le_antisymm (Nat.le_of_not_lt fun hlt => ?_) (Nat.le_of_not_lt fun hlt => ?_)
    · exact Nat.lt_irrefl _ (hk ▸ h'.lt_of_longer hd hlt)
    · exact Nat.lt_irrefl _ (hk' ▸ h.lt_of_longer hd' hlt)
  exact (List.prefix_of_prefix_length_le hd hd' hlength.le).eq_of_length hlength

/-- The moves say what is around a span. -/
theorem Line.unique (h : Line hears moves k line) (h' : Line hears moves k line') :
    line = line' := by
  induction h generalizing line' with
  | root hbegan houter =>
      cases h' with
      | root hbegan' houter' => rw [hbegan.unique hbegan']
      | child hbegan' houter' hline' =>
          rw [hbegan.unique hbegan', houter'] at houter
          cases houter
  | child hbegan houter hline ih =>
      cases h' with
      | root hbegan' houter' =>
          rw [hbegan.unique hbegan', houter'] at houter
          cases houter
      | child hbegan' houter' hline' =>
          rw [hbegan.unique hbegan', houter'] at houter
          cases houter
          rw [hbegan.unique hbegan', ih hline']

/-- Every span has a line, and shows the contexts that were current at its points: its own and those
of the spans around it. -/
theorem exists_line (hspan : (run hears moves).spans[k]? = some span) :
    ∃ line, Line hears moves k line ∧
      span.scope.map SpanData.node =
        line.map fun before => (run hears before).contexts.current := by
  induction moves using List.reverseRecOn generalizing k span with
  | nil => cases hspan
  | append_singleton moves m ih =>
      rw [run_concat] at hspan
      rcases Thread.spans_step_get hspan with hold | ⟨rfl, hbegun⟩
      · obtain ⟨line, hline, hscope⟩ := ih hold
        exact ⟨line, hline.mono [m], hscope⟩
      · obtain ⟨name, level, target, fields, rfl, hheard, rfl⟩ := (run_sound moves).begun hbegun
        have hbegan : Began hears (moves ++ [.begin name level target fields])
            (run hears moves).spans.length moves :=
          ⟨name, level, target, fields, List.prefix_rfl, hheard, rfl⟩
        cases houter : (run hears moves).innermost with
        | none => exact ⟨[moves], .root hbegan houter, rfl⟩
        | some j =>
            -- the span around the new one has begun before
            have hj : j < (run hears moves).spans.length :=
              run_sound moves j (List.mem_dedup.1 (List.mem_of_mem_head? houter))
            have hget := List.getElem?_eq_getElem hj
            obtain ⟨line, hline, hscope⟩ := ih hget
            refine ⟨moves :: line, .child hbegan houter (hline.mono _), ?_⟩
            rw [Option.bind_some, hget, List.map_cons, ← hscope]
            rfl

end Lines

section Nodes

variable {hears : Hearing} {moves : List Move} {k : Nat}

/-- The node of a span is the context that was current at the first point of a line where there was
one. -/
structure Keeps (hears : Hearing) (t : Thread) (k : Nat) (line : List (List Move)) : Prop where
  found : ∀ node, t.lookup k = some node ↔ ∃ near before far, line = near ++ before :: far ∧
    (run hears before).contexts.current = some node ∧
    ∀ b ∈ near, (run hears b).contexts.current = none
  missed : t.lookup k = none ↔ ∀ b ∈ line, (run hears b).contexts.current = none

theorem keeps_of_scope {t : Thread} {span : Span} {line : List (List Move)}
    (hspan : t.spans[k]? = some span)
    (hscope : span.scope.map SpanData.node = line.map fun b => (run hears b).contexts.current) :
    Keeps hears t k line := by
  have hlookup : t.lookup k = line.findSome? fun b => (run hears b).contexts.current := by
    rw [Thread.lookup, hspan, Option.bind_some, Span.node]
    have hmap := congrArg (List.findSome? id) hscope
    simpa only [List.findSome?_map, Function.id_comp] using hmap
  refine ⟨fun node => ?_, ?_⟩
  · rw [hlookup, List.findSome?_eq_some_iff]
  · rw [hlookup, List.findSome?_eq_none_iff]

/-- A span has one line, and whatever the thread does after it has begun, its node is the first
context that was current at the points of this line. -/
theorem spans_keep_nodes (hears : Hearing) (moves : List Move) {k : Nat}
    (hk : k < (run hears moves).spans.length) :
    ∃ line, (∀ line', Line hears moves k line' ↔ line' = line) ∧
      ∀ later, Keeps hears (run hears (moves ++ later)) k line := by
  have hspan := List.getElem?_eq_getElem hk
  obtain ⟨line, hline, hscope⟩ := exists_line hspan
  refine ⟨line, fun line' => ⟨fun h' => h'.unique hline, fun heq => heq ▸ hline⟩, fun later => ?_⟩
  have hlater := List.prefix_iff_getElem?.1 (spans_run_extends hears moves later) k hk
  exact keeps_of_scope hlater hscope

/-- A span under a context that is dropped, and a span without one inside it. -/
def sampleMoves : List Move :=
  [.guard (.create ⟨"a", "1"⟩), .begin "apply" .info "node" [], .guard (.drop 0), .enter 0,
    .begin "execute" .info "node" []]

/-- The inner span of the sample has the node of the outer one, whatever comes after it. -/
theorem spans_keep_nodes_sample :
    1 < (run (fun _ _ => true) sampleMoves).spans.length ∧
      Line (fun _ _ => true) sampleMoves 1 [sampleMoves.take 4, sampleMoves.take 1] ∧
      ∀ later, (run (fun _ _ => true) (sampleMoves ++ later)).lookup 1 = some ⟨"a", "1"⟩ := by
  have hlength : 1 < (run (fun _ _ => true) sampleMoves).spans.length := by decide
  have houter : Began (fun _ _ => true) sampleMoves 0 (sampleMoves.take 1) :=
    ⟨"apply", .info, "node", [], List.take_prefix 2 sampleMoves, rfl, rfl⟩
  have hinner : Began (fun _ _ => true) sampleMoves 1 (sampleMoves.take 4) :=
    ⟨"execute", .info, "node", [], List.prefix_rfl, rfl, by decide⟩
  have hline : Line (fun _ _ => true) sampleMoves 1 [sampleMoves.take 4, sampleMoves.take 1] :=
    .child hinner (by decide) (.root houter (by decide))
  refine ⟨hlength, hline, fun later => ?_⟩
  obtain ⟨line, honly, hkeeps⟩ := spans_keep_nodes (fun _ _ => true) sampleMoves hlength
  rw [← (honly _).1 hline] at hkeeps
  refine ((hkeeps later).found _).2 ⟨[sampleMoves.take 4], sampleMoves.take 1, [], rfl,
    by decide, ?_⟩
  intro b hb
  rw [List.mem_singleton.1 hb]
  decide

end Nodes

section Programs

variable {hears : Hearing} {s : Program.State} {t : Thread} {name target : String} {fields : Fields}

/-- A program and a thread are under the same contexts and inside the same spans. -/
structure Together (s : Program.State) (t : Thread) : Prop where
  contexts : s.contexts = t.contexts
  /-- The program counts the spans that are not heard as well. -/
  entered : s.entered.filter Option.isSome = t.entered.map fun k => t.spans[k]?
  /-- A program enters no span twice. -/
  once : t.entered.Nodup
  sound : t.Sound

namespace Together

theorem currentSpan (h : Together s t) : s.currentSpan = t.state.currentSpan := by
  rw [Program.State.currentSpan, Program.State.currentSpan, Thread.state, h.once.dedup, ← h.entered]
  induction s.entered with
  | nil => rfl
  | cons span outer ih =>
      cases span with
      | none => exact ih
      | some span => rfl

/-- A span begins in the program as it does in the thread. -/
theorem begin_eq (h : Together s t) (level : Level) :
    s.begin hears name level target fields = t.state.begin hears name level target fields := by
  rw [Program.State.begin, Program.State.begin, h.currentSpan, h.contexts]
  rfl

theorem enter_unheard (h : Together s t) : Together { s with entered := none :: s.entered } t :=
  ⟨h.contexts, h.entered, h.once, h.sound⟩

/-- To the thread, a span that the program enters begins first. -/
theorem enter (h : Together s t) :
    ∃ moves : List Move,
      Together (s.enter hears name target fields) (moves.foldl (Thread.step hears) t) := by
  cases hb : s.begin hears name .info target fields with
  | none =>
      refine ⟨[], ?_⟩
      rw [Program.State.enter, hb]
      exact h.enter_unheard
  | some span =>
      let begun : Thread := { t with spans := t.spans ++ [span] }
      have hbegun : t.step hears (.begin name .info target fields) = begun := by
        simp only [Thread.step, ← h.begin_eq, hb, begun]
      have hlt : t.spans.length < begun.spans.length := by simp [begun]
      have hentered : begun.step hears (.enter t.spans.length) =
          { begun with entered := t.spans.length :: t.entered } := if_pos hlt
      refine ⟨[.begin name .info target fields, .enter t.spans.length], ?_⟩
      rw [List.foldl_cons, List.foldl_cons, List.foldl_nil, hbegun, hentered, Program.State.enter,
        hb]
      refine ⟨h.contexts, ?entered, ?once, ?sound⟩
      case entered =>
        rw [List.filter_cons_of_pos rfl, h.entered, List.map_cons]
        have hnew : begun.spans[t.spans.length]? = some span := List.getElem?_concat_length
        refine congrArg₂ List.cons hnew.symm (List.map_congr_left fun k hk => ?_)
        exact (List.getElem?_append_left (h.sound k hk)).symm
      case once =>
        exact List.nodup_cons.2 ⟨fun hk => Nat.lt_irrefl _ (h.sound _ hk), h.once⟩
      case sound =>
        intro k hk
        rcases List.mem_cons.1 hk with rfl | hk
        · exact hlt
        · exact (h.sound k hk).trans hlt

theorem exitSpan (h : Together s t) :
    ∃ moves : List Move,
      Together { s with entered := s.entered.tail } (moves.foldl (Thread.step hears) t) := by
  obtain ⟨contexts, entered, reports⟩ := s
  cases entered with
  | nil => exact ⟨[], h⟩
  | cons span outer =>
      cases span with
      | none => exact ⟨[], h.contexts, h.entered, h.once, h.sound⟩
      | some span =>
          have hentered := h.entered
          rw [List.filter_cons_of_pos rfl] at hentered
          cases ht : t.entered with
          | nil =>
              rw [ht] at hentered
              cases hentered
          | cons k numbers =>
              rw [ht, List.map_cons] at hentered
              have hleft : t.step hears (.exit k) = { t with entered := numbers } := by
                simp [Thread.step, ht]
              refine ⟨[.exit k], ?_⟩
              rw [List.foldl_cons, List.foldl_nil, hleft]
              refine ⟨h.contexts, (List.cons.inj hentered).2, ?once, ?sound⟩
              case once => exact (List.nodup_cons.1 (ht ▸ h.once)).2
              case sound => exact fun j hj => h.sound j (ht ▸ List.mem_cons_of_mem k hj)

theorem perform (hears : Hearing) (h : Together s t) (step : Step) :
    ∃ moves : List Move,
      Together (Program.perform hears s step).2 (moves.foldl (Thread.step hears) t) := by
  cases step with
  | pushNode node =>
      refine ⟨[.guard (.create node)], ?_, h.entered, h.once, h.sound⟩
      exact congrArg (Contexts.push · node) h.contexts
  | dropNode i =>
      refine ⟨[.guard (.drop i)], ?_, h.entered, h.once, h.sound⟩
      exact congrArg (Contexts.dropAt · i) h.contexts
  | withNode node =>
      refine ⟨[.guard (.create node), .guard (.drop s.contexts.guards.length)], ?_, h.entered,
        h.once,
        h.sound⟩
      exact congrArg (fun c => (c.push node).dropAt s.contexts.guards.length) h.contexts
  | enterNodeSpan =>
      simp only [Program.perform, Program.perform.after, Program.enterNodeSpan]
      split
      · exact ⟨[], h⟩
      · split
        · exact h.enter
        · exact ⟨[], h.enter_unheard⟩
  | enterSpan name target fields => exact h.enter
  | exitSpan => exact h.exitSpan
  | report e =>
      refine ⟨[], ?_⟩
      simp only [Program.perform, Program.perform.after]
      split
      · exact ⟨h.contexts, h.entered, h.once, h.sound⟩
      · exact h
  | look => exact ⟨[], h⟩

theorem performAll (h : Together s t) (steps : List Step) :
    ∃ moves : List Move,
      Together (Program.performAll hears s steps).2 (moves.foldl (Thread.step hears) t) := by
  induction steps generalizing s t with
  | nil => exact ⟨[], h⟩
  | cons step steps ih =>
      obtain ⟨first, hfirst⟩ := h.perform hears step
      obtain ⟨rest, hrest⟩ := ih hfirst
      refine ⟨first ++ rest, ?_⟩
      rw [List.foldl_append]
      exact hrest

end Together

/-- Whatever a traced program does, a thread does as well. -/
theorem exists_moves (hears : Hearing) (steps : List Step) :
    ∃ moves, Together (Program.performAll hears {} steps).2 (run hears moves) := by
  have hnone : Together {} (run hears []) := ⟨rfl, rfl, List.nodup_nil, run_sound []⟩
  exact hnone.performAll steps

end Programs

end Ancestry
end Trace
end ReplicatedLog
