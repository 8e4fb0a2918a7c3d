import ReplicatedLog.Proofs.Concourse.Order

/-!
# Channels that look the same

Two channels in two logs are compared, of which the partition of the channels looks the same.

* `Call.blank`: a call without the counts that its poll has noted, on which no step depends;
* `Call.StepsLike`: two steps come to the same for those who stand in line, and
  `step_resembles`: so do the steps of two calls that differ in such counts only;
* `Booth.Same`: the calls in line are the same, but for such counts, and so are the readers;
* `Same.perform`: this is kept by what concerns the reader if it is done in both, and brings the
  same answer;
* `InOrder.same`: it is kept by anything else that is done in one of them, which brings no answer.
-/

namespace ReplicatedLog

open Channel

/-- What is left does not depend on how it is rewrapped. -/
theorem Progress.isSome_rest_of_map {σ ρ τ υ : Type} {f : σ → τ} {g : ρ → υ}
    {a b : Progress σ ρ} (h : b.map f g = a.map f g) : b.rest.isSome = a.rest.isSome := by
  cases a with
  | waiting s =>
      cases b with
      | waiting s' => rfl
      | done r' => cases h
  | done r =>
      cases b with
      | waiting s' => cases h
      | done r' => rfl

/-- Two channels look the same to those who stand in line, and so do their logs. -/
structure Endpoint.Resembles (e e' : Endpoint SharedLog) (p : Partition) : Prop where
  log : e.client.log.Resembles e'.client.log p
  schema : e'.client.schema = e.client.schema
  reader : e'.client.reader = e.client.reader
  channel : e'.channel = e.channel

namespace Channel.Call

section Blanks

variable {c c' : Call SharedLog}

/-- A call without the counts that its poll has noted. -/
def blank : Call SharedLog → Call SharedLog
  | .polling purpose timeout restored p => .polling purpose timeout restored (Reader.Poll.blank p)
  | c => c

/-- Two calls that differ in such counts only are the same, or wait in their polls. -/
theorem blank_cases (h : c'.blank = c.blank) :
    c' = c ∨ ∃ purpose timeout restored, ∃ p p' : Reader.Poll,
      c = .polling purpose timeout restored p ∧ c' = .polling purpose timeout restored p' ∧
        p'.blank = p.blank := by
  cases c with
  | polling purpose timeout restored p =>
      cases c' with
      | polling purpose' timeout' restored' p' =>
          simp only [blank, polling.injEq] at h
          obtain ⟨rfl, rfl, rfl, hp⟩ := h
          exact Or.inr ⟨purpose', timeout', restored', p, p', rfl, rfl, hp⟩
      | _ => cases h
  | _ =>
      cases c' with
      | polling purpose' timeout' restored' p' => cases h
      | _ => exact Or.inl h

theorem polls_of_blank (h : c'.blank = c.blank) : c'.polls = c.polls := by
  rcases blank_cases h with rfl | ⟨purpose, timeout, restored, p, p', rfl, rfl, -⟩ <;> rfl

end Blanks

section Steps

variable (now : Nat) (me : TaskId) {e e' : Endpoint SharedLog} {c c' : Call SharedLog}
  {p : Partition} {asked : Bool}

/-- Two steps come to the same for those who stand in line; what they bring is the same if it is
asked for. -/
structure StepsLike (p : Partition) (asked : Bool) (s s' : Stepped SharedLog) : Prop where
  left : (lined s'.1).map blank = (lined s.1).map blank
  result : asked = true → s'.1.result = s.1.result
  after : s.2.Resembles s'.2 p

theorem finish_resembles (h : e.Resembles e' p) (result : Result) :
    StepsLike p asked (finish me result e) (finish me result e') := by
  refine ⟨rfl, fun _ => rfl, h.log, h.schema, h.reader, ?_⟩
  rw [show (finish me result e').2.channel = e'.channel.leaveLine me from rfl, h.channel]
  rfl

theorem enter_resembles (h : e.Resembles e' p) (u : Use) :
    StepsLike p asked (enter now me e (.use u)) (enter now me e' (.use u)) := by
  obtain ⟨hlog, hschema, hreader, hchannel⟩ := h
  simp only [enter, hchannel]
  split
  · split <;> exact ⟨rfl, fun _ => rfl, hlog, hschema, hreader, hchannel⟩
  · exact ⟨rfl, fun _ => rfl, hlog, hschema, hreader, rfl⟩

theorem rewind_resembles (h : e.Resembles e' p) (withOffsets : Bool) (timeout : Nat) :
    StepsLike p asked (rewind now me e withOffsets timeout)
      (rewind now me e' withOffsets timeout) := by
  obtain ⟨hlog, hschema, hreader, hchannel⟩ := h
  simp only [rewind, Client.seekToBeginning, hreader, hchannel]
  rcases e.client.reader.seekToBeginning [e.channel.partition] with ⟨_ | ⟨⟨⟩⟩, r⟩
  · refine finish_resembles me ?_ _
    exact ⟨hlog, hschema, rfl, rfl⟩
  · exact ⟨rfl, fun _ => rfl, hlog, hschema, rfl, rfl⟩

/-- The end of the partition may be told differently, but the reader is left the same. -/
theorem askEnd_resembles (h : e.Resembles e' p) (ps : List Partition) :
    StepsLike p false (askEnd now me e ps) (askEnd now me e' ps) := by
  obtain ⟨hlog, hschema, hreader, hchannel⟩ := h
  have hends : ∀ log, (e.client.reader.endOffsets log ps).2 = e.client.reader.ensureUsable.2 := by
    intro log
    rw [Reader.endOffsets]
    rcases e.client.reader.ensureUsable with ⟨_ | ⟨⟨⟩⟩, r⟩ <;> rfl
  rw [askEnd_eq, askEnd_eq]
  refine ⟨rfl, fun h => absurd h Bool.false_ne_true, hlog, hschema, ?_, ?_⟩
  · change (e'.client.reader.endOffsets e'.client.log ps).2 =
      (e.client.reader.endOffsets e.client.log ps).2
    rw [hreader, hends, hends]
  · change e'.channel.leaveLine me = e.channel.leaveLine me
    rw [hchannel]

theorem closeReader_resembles (h : e.Resembles e' p) (closing : Unit) :
    StepsLike p false (closeHandle now me e .reader closing)
      (closeHandle now me e' .reader closing) := by
  refine ⟨rfl, fun h => absurd h Bool.false_ne_true, h.log, h.schema, ?_, ?_⟩
  · change e'.client.reader.close = e.client.reader.close
    rw [h.reader]
  · change e'.channel.leaveLine me = e.channel.leaveLine me
    rw [h.channel]

theorem useReader_resembles (h : e.Resembles e' p) (u : Use) :
    StepsLike p (Call.polls (.inLine u)).isSome (useReader now me e u) (useReader now me e' u) := by
  cases u with
  | endOffset =>
      rw [useReader, useReader, h.channel]
      exact askEnd_resembles now me h _
  | close => exact closeReader_resembles now me h ()
  | poll purpose timeout =>
      cases purpose with
      | batch => exact ⟨rfl, fun _ => rfl, h⟩
      | commands => exact ⟨rfl, fun _ => rfl, h⟩
      | replay withOffsets => exact rewind_resembles now me h withOffsets timeout

theorem takeBatch_resembles (h : e.Resembles e' p) (timeout : Nat)
    (restored : List QueuedCommand) (b : CommandBatch) (purpose : Purpose) :
    StepsLike p asked (takeBatch me e timeout restored b purpose)
      (takeBatch me e' timeout restored b purpose) := by
  cases purpose with
  | batch => exact finish_resembles me h _
  | commands => exact finish_resembles me h _
  | replay withOffsets =>
      simp only [takeBatch]
      split
      · exact finish_resembles me h _
      · exact ⟨rfl, fun _ => rfl, h⟩

/-- Two polls that differ in their counts only come to the same. -/
theorem polling_resembles (h : e.Resembles e' p) (hlog : e.client.log.HasPartitions)
    (hlog' : e'.client.log.HasPartitions) (hp : p.index = 0) {n : Nat}
    (hat : e.client.reader.At p n) (purpose : Purpose) (timeout : Nat)
    (restored : List QueuedCommand) {poll poll' : Reader.Poll} (hblank : poll'.blank = poll.blank) :
    StepsLike p asked (Call.step now me e (.polling purpose timeout restored poll))
      (Call.step now me e' (.polling purpose timeout restored poll')) := by
  have hsame := Reader.stepPoll_resembles e.client.schema h.log hlog hlog' hp hat now hblank
  rcases hstep : e.client.reader.stepPoll e.client.schema now e.client.log poll with ⟨progress, r⟩
  rcases hstep' : e'.client.reader.stepPoll e'.client.schema now e'.client.log poll' with
    ⟨progress', r'⟩
  rw [← h.schema, ← h.reader, hstep', h.schema, h.reader, hstep] at hsame
  obtain ⟨hprogress, hr⟩ := hsame
  dsimp only at hprogress hr
  rw [step_polling hstep, step_polling hstep']
  have hafter : Endpoint.Resembles { e with client := { e.client with reader := r } }
      { e' with client := { e'.client with reader := r' } } p :=
    ⟨h.log, h.schema, hr, h.channel⟩
  cases progress with
  | waiting next =>
      cases progress' with
      | done result' => cases hprogress
      | waiting next' =>
          have hnext : next'.blank = next.blank := by
            simpa only [Progress.map, Progress.waiting.injEq] using hprogress
          refine ⟨?_, fun _ => rfl, hafter⟩
          simp [lined, isLined, blank, hnext]
  | done result =>
      cases progress' with
      | waiting next' => cases hprogress
      | done result' =>
          obtain rfl : result' = result := by
            simpa only [Progress.map, Progress.done.injEq, id_eq] using hprogress
          cases result' with
          | error err => exact finish_resembles me hafter _
          | ok b => exact takeBatch_resembles me hafter timeout restored b purpose

/-- The steps of two calls that differ in their counts only come to the same. -/
theorem step_resembles (h : e.Resembles e' p) (hlog : e.client.log.HasPartitions)
    (hlog' : e'.client.log.HasPartitions) (hp : p.index = 0) {n : Nat}
    (hat : e.client.reader.At p n) (hc : c.IsUse) (hblank : c'.blank = c.blank) :
    StepsLike p c.polls.isSome (c.step now me e) (c'.step now me e') := by
  rcases blank_cases hblank with rfl | ⟨purpose, timeout, restored, poll, poll', rfl, rfl, hpoll⟩
  · cases c' with
    | entered r =>
        obtain ⟨u, rfl⟩ := hc.entered
        exact enter_resembles now me h u
    | sent w interrupts => exact absurd hc (not_isUse_sent w interrupts)
    | asking ps => exact askEnd_resembles now me h ps
    | closing handle closing =>
        cases handle with
        | reader => exact closeReader_resembles now me h closing
        | writer => exact absurd hc (not_isUse_closing closing)
    | inLine u =>
        by_cases hhead : e.channel.hasReader me = true
        · simp only [Call.step, h.channel, hhead, if_true]
          exact useReader_resembles now me h u
        · simp only [Call.step, h.channel, hhead, if_false, Bool.false_eq_true]
          exact ⟨rfl, fun _ => rfl, h⟩
    | polling purpose timeout restored poll =>
        exact polling_resembles now me h hlog hlog' hp hat purpose timeout restored rfl
  · exact polling_resembles now me h hlog hlog' hp hat purpose timeout restored hpoll

/-- Two calls that differ in their counts only wait at the same times. -/
theorem idles_resembles (h : e.Resembles e' p) (hlog : e.client.log.HasPartitions)
    (hlog' : e'.client.log.HasPartitions) (hp : p.index = 0) {n : Nat}
    (hat : e.client.reader.At p n) (hblank : c'.blank = c.blank) :
    c'.idles now e' = c.idles now e := by
  have hwait : ∀ deadline,
      (e'.client.reader.attempt e'.client.schema now e'.client.log deadline).1.rest.isSome =
        (e.client.reader.attempt e.client.schema now e.client.log deadline).1.rest.isSome := by
    intro deadline
    rw [h.schema, h.reader]
    exact Progress.isSome_rest_of_map
      (Reader.attempt_resembles e.client.schema h.log hlog hlog' hp hat now deadline).1
  rcases blank_cases hblank with rfl | ⟨purpose, timeout, restored, poll, poll', rfl, rfl, hpoll⟩
  · cases c' with
    | polling purpose timeout restored poll =>
        cases poll with
        | started timeout' => rfl
        | parked deadline seen => exact hwait deadline
    | _ => rfl
  · cases poll with
    | started timeout' =>
        cases poll' with
        | started timeout'' => rfl
        | parked deadline seen => cases hpoll
    | parked deadline seen =>
        cases poll' with
        | started timeout'' => cases hpoll
        | parked deadline' seen' =>
            cases hpoll
            exact hwait deadline

end Steps

end Channel.Call

namespace Booth

open Call

section Sameness

variable {p : Partition} {log log' : Log} {a b c : Booth}

/-- The calls in line are the same but for the counts that their polls have noted, and so are the
readers. -/
structure Same (a b : Booth) : Prop where
  schema : b.wire.schema = a.wire.schema
  reader : b.wire.reader = a.wire.reader
  channel : b.wire.channel = a.wire.channel
  next : b.next = a.next
  uses : ∀ task, (b.uses task).map blank = (a.uses task).map blank

theorem Same.refl (b : Booth) : b.Same b :=
  ⟨rfl, rfl, rfl, rfl, fun _ => rfl⟩

theorem Same.symm (h : a.Same b) : b.Same a :=
  ⟨h.schema.symm, h.reader.symm, h.channel.symm, h.next.symm, fun task => (h.uses task).symm⟩

theorem Same.trans (h : a.Same b) (h' : b.Same c) : a.Same c :=
  ⟨h'.schema.trans h.schema, h'.reader.trans h.reader, h'.channel.trans h.channel,
    h'.next.trans h.next, fun task => (h'.uses task).trans (h.uses task)⟩

theorem Same.resembles (h : a.Same b) (hlog : log.Resembles log' p) :
    (a.endpoint log).Resembles (b.endpoint log') p :=
  ⟨hlog, h.schema, h.reader, h.channel⟩

/-- A task has a call in both, or in neither. -/
theorem Same.call (h : a.Same b) (task : TaskId) :
    (a.uses task = none ∧ b.uses task = none) ∨
      ∃ call call', a.uses task = some call ∧ b.uses task = some call' ∧
        call'.blank = call.blank := by
  have huses := h.uses task
  cases hcall : a.uses task with
  | none =>
      rw [hcall, Option.map_none, Option.map_eq_none_iff] at huses
      exact Or.inl ⟨rfl, huses⟩
  | some call =>
      rw [hcall, Option.map_some, Option.map_eq_some_iff] at huses
      obtain ⟨call', hcall', hblank⟩ := huses
      exact Or.inr ⟨call, call', rfl, hcall', hblank⟩

/-- Both have the same change of the call of one task. -/
theorem Same.update (h : a.Same b) (task : TaskId) {k k' : Option (Call SharedLog)}
    (hk : k'.map blank = k.map blank) (id : TaskId) :
    (Function.update b.uses task k' id).map blank =
      (Function.update a.uses task k id).map blank := by
  by_cases hid : id = task
  · subst hid
    rw [Function.update_self, Function.update_self]
    exact hk
  · rw [Function.update_of_ne hid, Function.update_of_ne hid]
    exact h.uses id

/-- Two steps that come to the same leave the same. -/
theorem Same.take (h : a.Same b) {asked : Bool} {s s' : Stepped SharedLog}
    (hs : StepsLike p asked s s') (task : TaskId) : (a.take task s).Same (b.take task s') :=
  ⟨hs.after.schema, hs.after.reader, hs.after.channel, h.next, h.update task hs.left⟩

theorem answerOf_eq {call call' : Call SharedLog} {s s' : Stepped SharedLog}
    (hblank : call'.blank = call.blank) (hs : StepsLike p call.polls.isSome s s') (now : Nat)
    (task : TaskId) : answerOf now task call' s' = answerOf now task call s := by
  simp only [answerOf, polls_of_blank hblank]
  cases hpolls : call.polls with
  | none => rfl
  | some what =>
      rw [hpolls] at hs
      simp only [hs.result rfl, hs.after.reader, hs.after.channel]

/-- What concerns the reader of a channel. -/
def Move.concernsReader : Move → Bool
  | .send _ _ | .proceedAside _ | .leaveAside _ => false
  | _ => true

/-- What concerns the reader does nothing to the log. -/
theorem InOrder.perform_log (h : b.InOrder p log) (now : Nat) {m : Move}
    (hm : m.concernsReader = true) : (b.perform now log m).2 = log := by
  cases m with
  | ask u => exact (IsUse.frame (.inr ⟨u, rfl⟩) now b.next (b.endpoint log)).1
  | proceed task =>
      simp only [Booth.perform]
      split
      next call hcall => exact (IsUse.frame (.inl (h.lined task call hcall)) now task _).1
      next => rfl
  | leave task =>
      simp only [Booth.perform]
      split <;> rfl
  | interrupt => rfl
  | send id command => cases hm
  | proceedAside k => cases hm
  | leaveAside k => cases hm

/-- What concerns the reader, done in both, leaves the same and brings the same answer. -/
theorem Same.perform (h : a.Same b) (hlogs : log.Resembles log' p) (ho : a.InOrder p log)
    (hlog : log.HasPartitions) (hlog' : log'.HasPartitions) (hp : p.index = 0) (now : Nat)
    {m : Move} (hm : m.concernsReader = true) :
    (a.perform now log m).1.Same (b.perform now log' m).1 ∧
      b.answer now log' m = a.answer now log m := by
  obtain ⟨n, hat⟩ := ho.reader
  have hends := h.resembles hlogs
  cases m with
  | ask u =>
      have hs := step_resembles now a.next hends hlog hlog' hp hat
        (c := .entered (.use u)) (.inr ⟨u, rfl⟩) rfl
      have hafter := h.take hs a.next
      simp only [Booth.perform, answer, stepping, Option.bind_some, h.next]
      exact ⟨⟨hafter.schema, hafter.reader, hafter.channel, rfl, hafter.uses⟩,
        answerOf_eq rfl hs now a.next⟩
  | proceed task =>
      rcases h.call task with ⟨hnone, hnone'⟩ | ⟨call, call', hcall, hcall', hblank⟩
      · simp only [Booth.perform, answer, stepping, hnone, hnone', Option.map_none,
          Option.bind_none, and_true]
        exact h
      · have hs := step_resembles now task hends hlog hlog' hp hat
          (.inl (ho.lined task call hcall)) hblank
        simp only [Booth.perform, answer, stepping, hcall, hcall', Option.map_some,
          Option.bind_some]
        exact ⟨h.take hs task, answerOf_eq hblank hs now task⟩
  | leave task =>
      refine ⟨?_, rfl⟩
      rcases h.call task with ⟨hnone, hnone'⟩ | ⟨call, call', hcall, hcall', -⟩
      · simp only [Booth.perform, hnone, hnone']
        exact h
      · simp only [Booth.perform, hcall, hcall']
        refine ⟨h.schema, h.reader, ?_, h.next, h.update task rfl⟩
        change b.wire.channel.leaveLine task = a.wire.channel.leaveLine task
        rw [h.channel]
  | interrupt =>
      refine ⟨⟨h.schema, ?_, ?_, h.next, h.uses⟩, rfl⟩
      · change b.wire.reader.wake = a.wire.reader.wake
        rw [h.reader]
      · simp only [Booth.perform, Wire.ofEndpoint, Endpoint.interrupt, endpoint, Wire.endpoint,
          h.channel]
  | send id command => cases hm
  | proceedAside k => cases hm
  | leaveAside k => cases hm

/-- The same channels are at rest at the same times. -/
theorem Same.rests (h : a.Same b) (hlogs : log.Resembles log' p) (ho : a.InOrder p log)
    (hlog : log.HasPartitions) (hlog' : log'.HasPartitions) (hp : p.index = 0) (t : Nat) :
    b.rests t log' = a.rests t log := by
  obtain ⟨n, hat⟩ := ho.reader
  unfold Booth.rests head
  rw [h.channel]
  cases a.wire.channel.line.head? with
  | none => rfl
  | some task =>
      simp only [Option.bind_some]
      rcases h.call task with ⟨hnone, hnone'⟩ | ⟨call, call', hcall, hcall', hblank⟩
      · rw [hnone, hnone']
        rfl
      · rw [hcall, hcall', Option.all_some, Option.all_some]
        exact idles_resembles t (h.resembles hlogs) hlog hlog' hp hat hblank

end Sameness

section Stillness

variable {p : Partition} {log : Log} {b : Booth} {now : Nat}

/-- A step of a call that does not have the reader, or goes on waiting with it, changes nothing. -/
theorem InOrder.step_still (h : b.InOrder p log) (hlog : log.HasPartitions) (hp : p.index = 0)
    {task : TaskId} {call : Call SharedLog} (hcall : b.uses task = some call)
    (hstill : b.wire.channel.line.head? = some task → b.rests now log = true) :
    ∃ call', call.step now task (b.endpoint log) = (.waiting call', b.endpoint log) ∧
      call'.isLined = true ∧ call'.blank = call.blank := by
  have hlined := h.lined task call hcall
  have hidles : b.wire.channel.line.head? = some task →
      call.idles now (b.endpoint log) = true := by
    intro hhead
    have hrests := hstill hhead
    rw [rests, head, hhead, Option.bind_some, hcall, Option.all_some] at hrests
    exact hrests
  cases call with
  | entered r => cases hlined
  | sent w interrupts => cases hlined
  | asking ps => cases hidles (h.stands task _ hcall)
  | closing handle closing =>
      cases handle with
      | reader => cases hidles (h.stands task _ hcall)
      | writer => cases hlined
  | inLine u =>
      have hnot : b.wire.channel.hasReader task = false := by
        rw [hasReader, decide_eq_false_iff_not]
        intro hhead
        cases hidles hhead
      refine ⟨.inLine u, ?_, rfl, rfl⟩
      rw [Call.step, show (b.endpoint log).channel.hasReader task = false from hnot]
      rfl
  | polling purpose timeout restored poll =>
      have hrests := hidles (h.stands task _ hcall)
      cases poll with
      | started timeout' => cases hrests
      | parked deadline seen =>
          obtain ⟨n, hat⟩ := h.reader
          obtain ⟨poll', hwaits⟩ := Option.isSome_iff_exists.1 hrests
          obtain ⟨seen', rfl, hsame, -⟩ :=
            Reader.attempt_watches hlog hp hat (Progress.rest_eq_some_iff.1 hwaits)
          have hstep : (b.endpoint log).client.reader.stepPoll (b.endpoint log).client.schema now
              (b.endpoint log).client.log (.parked deadline seen) =
                (.waiting (.parked deadline seen'), (b.endpoint log).client.reader) :=
            Prod.ext (Progress.rest_eq_some_iff.1 hwaits) hsame
          refine ⟨.polling purpose timeout restored (.parked deadline seen'), ?_, rfl, rfl⟩
          rw [step_polling hstep]

/-- What does not concern the reader, and a step that does nothing, leaves the same and brings no
answer. -/
theorem InOrder.same (h : b.InOrder p log) (hlog : log.HasPartitions) (hp : p.index = 0) {m : Move}
    (hmark : b.mark m = none) (hstill : b.stirs now log m = false) :
    b.Same (b.perform now log m).1 ∧ b.answer now log m = none := by
  cases m with
  | ask u => cases hmark
  | interrupt => cases hmark
  | leave task =>
      have hnone : b.uses task = none := Option.map_eq_none_iff.1 hmark
      refine ⟨?_, rfl⟩
      simp only [Booth.perform, hnone]
      exact .refl b
  | proceed task =>
      cases hcall : b.uses task with
      | none =>
          simp only [Booth.perform, answer, stepping, hcall]
          exact ⟨.refl b, rfl⟩
      | some call =>
          have hrests : b.wire.channel.line.head? = some task → b.rests now log = true := by
            intro hhead
            simpa [stirs, hhead] using hstill
          obtain ⟨call', hstep, hlined, hblank⟩ := h.step_still hlog hp hcall hrests
          simp only [Booth.perform, answer, stepping, hcall, Option.map_some, Option.bind_some,
            hstep]
          refine ⟨⟨rfl, rfl, rfl, rfl, fun id => ?_⟩, ?_⟩
          · have hleft : Call.lined (.waiting call') = some call' := by
              simp [Call.lined, hlined]
            change (Function.update b.uses task (Call.lined (.waiting call')) id).map blank = _
            rw [hleft]
            by_cases hid : id = task
            · subst hid
              rw [Function.update_self, hcall, Option.map_some, Option.map_some, hblank]
            · rw [Function.update_of_ne hid]
          · rw [answerOf]
            cases call.polls <;> rfl
  | send id command =>
      obtain ⟨hreader, hschema, hchannel, -⟩ :=
        send_stepsAside now b.next (b.endpoint log) id command
      exact ⟨⟨hschema, hreader, hchannel, rfl, fun _ => rfl⟩, rfl⟩
  | proceedAside k =>
      refine ⟨?_, rfl⟩
      simp only [Booth.perform]
      split
      next call hcall =>
        obtain ⟨⟨hreader, hschema, hchannel, -⟩, -⟩ := aside_stepsAside now b.next
          (b.endpoint log) (h.asides call (List.mem_of_getElem? hcall))
        exact ⟨hschema, hreader, hchannel, rfl, fun _ => rfl⟩
      next => exact .refl b
  | leaveAside k => exact ⟨⟨rfl, rfl, rfl, rfl, fun _ => rfl⟩, rfl⟩

end Stillness

end Booth
end ReplicatedLog
