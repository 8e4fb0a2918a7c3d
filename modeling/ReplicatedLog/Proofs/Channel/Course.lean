import ReplicatedLog.Proofs.Channel.Audit
import ReplicatedLog.Proofs.Channel.Shared
import Mathlib.Data.List.Induction

/-!
# The course of a replay and of a poll

A replay or a poll takes its steps on a channel that anybody may change in between in
any way, with a client that may answer anything.

* `Course` is a call at work with all that it has had its client do; `Course.run` lets
  it take its steps, each on the channel as it then is;
* `Replaying` and `Replayed`: what a replay has had done while it is in progress, and
  when it is over.  It seeks once and then polls, up to the first batch that is empty
  or the first failure;
* `Tailing` and `Tailed`: the same of a poll for commands;
* `Replaying.step` and `Tailing.step`: what a step adds, and `run_replays`: the whole
  course of a replay.
-/

namespace ReplicatedLog
namespace Channel

variable {σ : Type} [Client σ]

section Courses

/-- A call at work, and what it has had its client do so far. -/
structure Course (σ : Type) [Client σ] where
  progress : Progress (Call (Audited σ)) Result
  items : List Item := []

namespace Course

/-- The next step of the call, at a time, on the channel as it then is. -/
def turn (me : TaskId) (c : Course σ) (t : Nat × Endpoint σ) : Course σ :=
  match c.progress with
  | .done _ => c
  | .waiting call =>
      let (progress, after) := call.step t.1 me t.2.audited
      ⟨progress, c.items ++ after.client.account⟩

/-- The course of a request. -/
def run (me : TaskId) (r : Request) (turns : List (Nat × Endpoint σ)) : Course σ :=
  turns.foldl (turn me) ⟨.waiting (.entered r), []⟩

/-- What holds at first and is kept by every turn holds of the whole course. -/
theorem run_induction {me : TaskId} {r : Request} {P : List (Nat × Endpoint σ) → Course σ → Prop}
    (h : P [] ⟨.waiting (.entered r), []⟩)
    (hturn : ∀ turns t, P turns (run me r turns) →
      P (turns ++ [t]) ((run me r turns).turn me t))
    (turns : List (Nat × Endpoint σ)) : P turns (run me r turns) := by
  induction turns using List.reverseRecOn with
  | nil => exact h
  | append_singleton turns t ih =>
      have hrun : run me r (turns ++ [t]) = (run me r turns).turn me t := by
        rw [run, List.foldl_append]
        rfl
      rw [hrun]
      exact hturn turns t ih

end Course

/-- The next step of a call on the client itself. -/
def Call.turn (me : TaskId) (progress : Progress (Call σ) Result) (t : Nat × Endpoint σ) :
    Progress (Call σ) Result :=
  match progress with
  | .done result => .done result
  | .waiting c => (c.step t.1 me t.2).1

/-- What becomes of a request on the client itself. -/
def Call.run (me : TaskId) (r : Request) (turns : List (Nat × Endpoint σ)) :
    Progress (Call σ) Result :=
  turns.foldl (turn me) (.waiting (.entered r))

/-- The account changes nothing about a course. -/
theorem Course.run_forget (me : TaskId) (r : Request) (turns : List (Nat × Endpoint σ)) :
    Call.run me r turns = (run me r turns).progress.map Call.forget id := by
  refine run_induction
    (P := fun turns c => Call.run me r turns = c.progress.map Call.forget id) rfl
    (fun turns t ih => ?_) turns
  have hlast : Call.run me r (turns ++ [t]) = Call.turn me (Call.run me r turns) t := by
    rw [Call.run, List.foldl_append]
    rfl
  rw [hlast, ih]
  unfold turn
  cases hprogress : (run me r turns).progress with
  | done result =>
      dsimp only
      rw [hprogress]
      rfl
  | waiting c => exact congrArg Prod.fst (Call.step_forget t.1 me t.2.audited c)

/-- One of the channels was shut down when a step was taken on it. -/
def SeesShutDown (turns : List (Nat × Endpoint σ)) : Prop :=
  ∃ t ∈ turns, t.2.channel.isShutDown = true

/-- What a call has had done is as it should be, while it is in progress or when it is over. -/
def Obeys (during : List Item → Call (Audited σ) → Prop) (after : List Item → Result → Prop)
    (items : List Item) : Progress (Call (Audited σ)) Result → Prop
  | .waiting c => during items c
  | .done r => after items r

/-- A course is as it should be if every step makes it so.  What holds when the call is over may
tell that a channel was shut down. -/
theorem Course.run_obeys (during : List Item → Call (Audited σ) → Prop)
    (after : Prop → List Item → Result → Prop) (me : TaskId) {r : Request} {p : Partition}
    (hmono : ∀ {shut shut' : Prop} {items r}, after shut items r → (shut → shut') →
      after shut' items r)
    (hstart : during [] (.entered r))
    (hstep : ∀ {items c} (now : Nat) {e : Endpoint σ}, during items c → e.channel.partition = p →
      Obeys during (after (e.channel.isShutDown = true))
        (items ++ (c.step now me e.audited).2.client.account) (c.step now me e.audited).1)
    {turns : List (Nat × Endpoint σ)} (hp : ∀ t ∈ turns, t.2.channel.partition = p) :
    Obeys during (after (SeesShutDown turns)) (run me r turns).items (run me r turns).progress := by
  refine run_induction (P := fun turns c => (∀ t ∈ turns, t.2.channel.partition = p) →
    Obeys during (after (SeesShutDown turns)) c.items c.progress)
    (fun _ => hstart) (fun turns t ih hp => ?_) turns hp
  have hbefore := ih fun t' ht => hp t' (List.mem_append_left _ ht)
  have hlast : t ∈ turns ++ [t] := List.mem_append_right _ List.mem_cons_self
  unfold turn
  cases hprogress : (run me r turns).progress with
  | done result =>
      rw [hprogress] at hbefore
      dsimp only
      rw [hprogress]
      exact hmono hbefore fun ⟨t', ht, hshut⟩ => ⟨t', List.mem_append_left _ ht, hshut⟩
  | waiting c =>
      rw [hprogress] at hbefore
      have hafter := hstep t.1 hbefore (hp t hlast)
      dsimp only
      cases hnext : (c.step t.1 me t.2.audited).1 with
      | waiting c' =>
          rw [hnext] at hafter
          exact hafter
      | done result =>
          rw [hnext] at hafter
          exact hmono hafter fun hshut => ⟨t, hlast, hshut⟩

end Courses

section Replays

/-- What polls enter that bring batches. -/
def pollsFor (timeout : Nat) (batches : List CommandBatch) : List Item :=
  batches.flatMap fun b => [.pollBegun timeout, .pollEnded (.ok b)]

theorem pollsFor_append (timeout : Nat) (batches : List CommandBatch) (b : CommandBatch) :
    pollsFor timeout (batches ++ [b]) =
      pollsFor timeout batches ++ [.pollBegun timeout, .pollEnded (.ok b)] := by
  rw [pollsFor, List.flatMap_append, List.flatMap_singleton]
  rfl

/-- The commands of batches in the order of arrival: one for each record that has a value. -/
def commandsOf (batches : List CommandBatch) : List QueuedCommand :=
  (batches.flatMap Batch.records).filterMap CommandRecord.queued

theorem commandsOf_append (batches : List CommandBatch) (b : CommandBatch) :
    commandsOf (batches ++ [b]) = commandsOf batches ++ b.commands := by
  rw [commandsOf, List.flatMap_append, List.flatMap_singleton, List.filterMap_append]
  rfl

variable {p : Partition} {withOffsets : Bool} {timeout : Nat} {shut : Prop}

/-- A replay in progress: it has done nothing, or it has gone back to the beginning and every poll
so far has brought something. -/
inductive Replaying (p : Partition) (withOffsets : Bool) (timeout : Nat) :
    List Item → Call (Audited σ) → Prop
  | entered :
      Replaying p withOffsets timeout [] (.entered (.use (.poll (.replay withOffsets) timeout)))
  | inLine : Replaying p withOffsets timeout [] (.inLine (.poll (.replay withOffsets) timeout))
  | polling (batches : List CommandBatch) (some : ∀ b ∈ batches, b.isEmpty = false)
      (poll : Audited.Operation Nat (Client.Poll σ)) (asked : poll.asked = timeout) :
      Replaying p withOffsets timeout
        (.sought [p] (.ok ()) :: pollsFor timeout batches ++
          if poll.hasBegun then [.pollBegun timeout] else [])
        (.polling (.replay withOffsets) timeout (commandsOf batches) poll)

/-- A replay that is over. -/
inductive Replayed (shut : Prop) (p : Partition) (withOffsets : Bool) (timeout : Nat) :
    List Item → Result → Prop
  /-- The channel was shut down. -/
  | refused (h : shut) : Replayed shut p withOffsets timeout [] (.error .closed)
  /-- It could not go back to the beginning. -/
  | stuck (err : LogError) :
      Replayed shut p withOffsets timeout [.sought [p] (.error err)] (.error (.ofLog err))
  /-- A poll failed. -/
  | broken (batches : List CommandBatch) (some : ∀ b ∈ batches, b.isEmpty = false)
      (err : LogError) :
      Replayed shut p withOffsets timeout
        (.sought [p] (.ok ()) :: pollsFor timeout batches ++
          [.pollBegun timeout, .pollEnded (.error err)])
        (.error (.ofLog err))
  /-- A poll brought nothing. -/
  | whole (batches : List CommandBatch) (some : ∀ b ∈ batches, b.isEmpty = false)
      (b : CommandBatch) (none : b.isEmpty = true) :
      Replayed shut p withOffsets timeout
        (.sought [p] (.ok ()) :: pollsFor timeout (batches ++ [b]))
        (.ok (.commands (Call.shown withOffsets (commandsOf batches))))

theorem Replayed.mono {shut' : Prop} {items : List Item} {r : Result}
    (h : Replayed shut p withOffsets timeout items r) (hs : shut → shut') :
    Replayed shut' p withOffsets timeout items r := by
  cases h with
  | refused h => exact .refused (hs h)
  | stuck err => exact .stuck err
  | broken batches hsome err => exact .broken batches hsome err
  | whole batches hsome b hnone => exact .whole batches hsome b hnone

/-- What a poll in progress has entered with its end. -/
theorem opening_append {poll : Audited.Operation Nat (Client.Poll σ)}
    (h : poll.asked = timeout) (rest : List Item) :
    (if poll.hasBegun then [.pollBegun timeout] else []) ++ (poll.opening .pollBegun ++ rest) =
      .pollBegun timeout :: rest := by
  unfold Audited.Operation.opening
  rw [h]
  cases poll.hasBegun <;> rfl

/-- A step of a replay. -/
theorem Replaying.step {items : List Item} {c : Call (Audited σ)}
    (h : Replaying p withOffsets timeout items c) (now : Nat) (me : TaskId) {e : Endpoint σ}
    (hp : e.channel.partition = p) :
    Obeys (Replaying p withOffsets timeout)
      (Replayed (e.channel.isShutDown = true) p withOffsets timeout)
      (items ++ (c.step now me e.audited).2.client.account) (c.step now me e.audited).1 := by
  cases h with
  | entered =>
      by_cases hshut : e.channel.isShutDown = true
      · simp only [Call.step, Call.enter, Endpoint.audited, hshut, if_true]
        exact .refused trivial
      · simp only [Call.step, Call.enter, Endpoint.audited, hshut]
        exact .inLine
  | inLine =>
      by_cases hhead : e.channel.hasReader me = true
      · simp only [Call.step, Endpoint.audited, hhead, if_true, Call.useReader, Call.rewind,
          Client.seekToBeginning, hp]
        rcases Client.seekToBeginning now e.client [p] with ⟨result, inner⟩
        cases result with
        | error err => exact .stuck err
        | ok u => exact .polling [] (by simp) ⟨timeout, false, Client.startPoll timeout⟩ rfl
      · simp only [Call.step, Endpoint.audited, hhead]
        exact .inLine
  | polling batches hsome poll hasked =>
      have hentered : ∀ (inner : σ) (rest : List Item),
          (.sought [p] (.ok ()) :: pollsFor timeout batches ++
              if poll.hasBegun then [.pollBegun timeout] else []) ++
            (e.audited.client.enter inner (poll.opening .pollBegun ++ rest)).account =
          .sought [p] (.ok ()) :: pollsFor timeout batches ++ .pollBegun timeout :: rest := by
        intro inner rest
        rw [List.append_assoc, ← opening_append hasked rest]
        rfl
      rcases Call.step_poll_enters now me e.audited (.replay withOffsets) timeout
        (commandsOf batches)
        poll with ⟨q, inner, hstep⟩ | ⟨err, inner, hstep⟩ | ⟨b, inner, hstep⟩
      · have hbegun := hentered inner []
        rw [List.append_nil] at hbegun
        rw [hstep, hbegun]
        exact .polling batches hsome ⟨poll.asked, true, q⟩ hasked
      · rw [hstep]
        simp only [Call.finish, Endpoint.leave, hentered]
        exact .broken batches hsome err
      · rw [hstep]
        have hended := hentered inner [.pollEnded (.ok b)]
        rw [show (.sought [p] (.ok ()) :: pollsFor timeout batches ++
            .pollBegun timeout :: [.pollEnded (.ok b)] : List Item) =
          .sought [p] (.ok ()) :: pollsFor timeout (batches ++ [b]) by
            rw [pollsFor_append]; rfl] at hended
        by_cases hempty : b.isEmpty = true
        · simp only [Call.takeBatch, hempty, if_true, Call.finish, Endpoint.leave, hended]
          exact .whole batches hsome b hempty
        · have hmore : ∀ b' ∈ batches ++ [b], b'.isEmpty = false := by
            intro b' hb'
            rcases List.mem_append.1 hb' with hb' | hb'
            · exact hsome b' hb'
            · rw [List.mem_singleton.1 hb']
              exact Bool.eq_false_iff.2 hempty
          simp only [Call.takeBatch]
          rw [if_neg hempty, hended, ← commandsOf_append, ← List.append_nil (_ :: pollsFor _ _)]
          exact Replaying.polling (batches ++ [b]) hmore
            ⟨timeout, false, Client.startPoll timeout⟩ rfl

/-- The course of a replay, whatever happens to the channel in between. -/
theorem run_replays (me : TaskId) (p : Partition) (withOffsets : Bool) (timeout : Nat)
    {turns : List (Nat × Endpoint σ)} (hp : ∀ t ∈ turns, t.2.channel.partition = p) :
    Obeys (Replaying p withOffsets timeout)
      (Replayed (SeesShutDown turns) p withOffsets timeout)
      (Course.run me (.use (.poll (.replay withOffsets) timeout)) turns).items
      (Course.run me (.use (.poll (.replay withOffsets) timeout)) turns).progress :=
  Course.run_obeys (Replaying p withOffsets timeout)
    (fun shut => Replayed shut p withOffsets timeout) me Replayed.mono .entered
    (fun now _ h hp => h.step now me hp) hp

end Replays

section Polls

variable {timeout : Nat} {shut : Prop}

/-- A poll for commands in progress. -/
inductive Tailing (timeout : Nat) : List Item → Call (Audited σ) → Prop
  | entered : Tailing timeout [] (.entered (.pollCommands timeout))
  | inLine : Tailing timeout [] (.inLine (.poll .commands timeout))
  | polling (poll : Audited.Operation Nat (Client.Poll σ)) (asked : poll.asked = timeout) :
      Tailing timeout (if poll.hasBegun then [.pollBegun timeout] else [])
        (.polling .commands timeout [] poll)

/-- A poll for commands that is over. -/
inductive Tailed (shut : Prop) (timeout : Nat) : List Item → Result → Prop
  /-- The channel was shut down. -/
  | refused (h : shut) : Tailed shut timeout [] (.error .closed)
  | broken (err : LogError) :
      Tailed shut timeout [.pollBegun timeout, .pollEnded (.error err)] (.error (.ofLog err))
  | whole (b : CommandBatch) :
      Tailed shut timeout [.pollBegun timeout, .pollEnded (.ok b)]
        (.ok (.commands (commandsOf [b])))

theorem Tailed.mono {shut' : Prop} {items : List Item} {r : Result}
    (h : Tailed shut timeout items r) (hs : shut → shut') : Tailed shut' timeout items r := by
  cases h with
  | refused h => exact .refused (hs h)
  | broken err => exact .broken err
  | whole b => exact .whole b

/-- A step of a poll for commands. -/
theorem Tailing.step {items : List Item} {c : Call (Audited σ)} (h : Tailing timeout items c)
    (now : Nat) (me : TaskId) (e : Endpoint σ) :
    Obeys (Tailing timeout) (Tailed (e.channel.isShutDown = true) timeout)
      (items ++ (c.step now me e.audited).2.client.account) (c.step now me e.audited).1 := by
  cases h with
  | entered =>
      by_cases hshut : e.channel.isShutDown = true
      · simp only [Call.step, Call.enter, Endpoint.audited, hshut, if_true]
        exact .refused trivial
      · simp only [Call.step, Call.enter, Endpoint.audited, hshut]
        exact .inLine
  | inLine =>
      by_cases hhead : e.channel.hasReader me = true
      · simp only [Call.step, Endpoint.audited, hhead, if_true, Call.useReader]
        exact .polling ⟨timeout, false, Client.startPoll timeout⟩ rfl
      · simp only [Call.step, Endpoint.audited, hhead]
        exact .inLine
  | polling poll hasked =>
      rcases Call.step_poll_enters now me e.audited .commands timeout [] poll with
        ⟨q, inner, hstep⟩ | ⟨err, inner, hstep⟩ | ⟨b, inner, hstep⟩
      · have hbegun := opening_append hasked []
        rw [List.append_nil] at hbegun
        rw [hstep]
        change Tailing timeout (_ ++ poll.opening .pollBegun) _
        rw [hbegun]
        exact .polling ⟨poll.asked, true, q⟩ hasked
      · rw [hstep]
        change Tailed _ timeout (_ ++ (poll.opening .pollBegun ++ [.pollEnded (.error err)])) _
        rw [opening_append hasked]
        exact .broken err
      · rw [hstep]
        change Tailed _ timeout (_ ++ (poll.opening .pollBegun ++ [.pollEnded (.ok b)])) _
        rw [opening_append hasked]
        have hwhole : Tailed (e.channel.isShutDown = true) timeout _ _ := .whole b
        rwa [show commandsOf [b] = b.commands from commandsOf_append [] b] at hwhole

end Polls

end Channel
end ReplicatedLog
