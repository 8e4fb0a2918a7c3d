import ReplicatedLog.Proofs.Concourse.Basic
import ReplicatedLog.Proofs.Log.Outlook

/-!
# What the calls of a channel can rely on

The calls of a channel at a booth, whatever is done there and whatever others do to the log.

* `Call.IsUse`: a call stands in line or begins to, and what a step of it leaves as it is;
* `Call.Watches`: a call that waits in its poll has looked at everything that is there;
* `Booth.InOrder`: the tasks in line are those that have calls, the reader is in the partition, and
  the call that has it watches; `InOrder.perform` keeps this through what is done at the booth, and
  `InOrder.brings` through what others do;
* `InOrder.rests_of_mayPass`: when the clock may go on, no call does anything before the time to
  which it may go.
-/

namespace ReplicatedLog

open Channel

namespace Channel.Call

section Uses

variable {now : Nat} {me : TaskId} {e : Endpoint SharedLog} {c c' : Call SharedLog}
  {s : Progress (Call SharedLog) Result}

/-- The call stands in line, or begins to. -/
def IsUse (c : Call SharedLog) : Prop :=
  c.isLined = true ∨ ∃ u, c = .entered (.use u)

theorem IsUse.entered {r : Request} (h : IsUse (.entered r)) : ∃ u, r = .use u := by
  rcases h with hlined | ⟨u, hu⟩
  · cases hlined
  · exact ⟨u, entered.inj hu⟩

theorem not_isUse_sent (w : Client.Wait SharedLog) (interrupts : Nat) :
    ¬IsUse (.sent w interrupts) := by
  rintro (hlined | ⟨u, hu⟩)
  · cases hlined
  · cases hu

theorem not_isUse_closing (closing : Unit) : ¬IsUse (.closing .writer closing) := by
  rintro (hlined | ⟨u, hu⟩)
  · cases hlined
  · cases hu

theorem lined_eq_some_iff : lined s = some c ↔ s = .waiting c ∧ c.isLined = true := by
  cases s with
  | done r => simp [lined]
  | waiting c' =>
      rw [lined, Progress.waiting.injEq, Option.ite_none_right_eq_some, Option.some.injEq]
      constructor
      · rintro ⟨h, rfl⟩
        exact ⟨rfl, h⟩
      · rintro ⟨rfl, h⟩
        exact ⟨h, rfl⟩

/-- What is left of a call that does not stand in line is a shutdown that has closed the reader. -/
theorem eq_closing_of_mem_unlined (h : c ∈ unlined s) : c = .closing .writer () := by
  unfold unlined at h
  split at h
  · exact List.mem_singleton.1 h
  · exact absurd h List.not_mem_nil

/-- A call that stands in line does nothing to the log. -/
theorem IsUse.frame (hc : c.IsUse) (now : Nat) (me : TaskId) (e : Endpoint SharedLog) :
    (c.step now me e).2.client.log = e.client.log ∧
      (c.step now me e).2.client.schema = e.client.schema ∧
      (c.step now me e).2.channel.partition = e.channel.partition := by
  by_cases h : ∃ r, c = .entered r
  · obtain ⟨r, rfl⟩ := h
    obtain ⟨u, rfl⟩ := hc.entered
    simp only [Call.step, enter]
    split
    · split <;> exact ⟨rfl, rfl, rfl⟩
    · exact ⟨rfl, rfl, rfl⟩
  · have hframe := step_frame now me e fun r hr => h ⟨r, hr⟩
    exact ⟨hframe.log, hframe.schema, hframe.partition⟩

/-- While another task has the reader, a call does nothing to it. -/
theorem IsUse.step_of_not_head (hc : c.IsUse) (now : Nat) (hs : c.StandsIn e.channel.line me)
    (hhead : e.channel.line.head? ≠ some me) :
    (c.step now me e).2.client = e.client := by
  cases c with
  | entered r =>
      obtain ⟨u, rfl⟩ := hc.entered
      simp only [Call.step, enter]
      split
      · split <;> rfl
      · rfl
  | sent w interrupts => exact absurd hc (not_isUse_sent w interrupts)
  | inLine u =>
      have hnot : e.channel.hasReader me = false := by simpa [hasReader] using hhead
      simp [Call.step, hnot]
  | polling purpose timeout restored p => exact absurd hs hhead
  | asking ps => exact absurd hs hhead
  | closing handle closing =>
      cases handle with
      | reader => exact absurd hs hhead
      | writer => exact absurd hc (not_isUse_closing closing)

/-- A call leaves the reader somewhere in the partition. -/
theorem step_readerAt (now : Nat) (me : TaskId) (c : Call SharedLog) (hat : ∃ n, e.ReaderAt n) :
    ∃ n, (c.step now me e).2.ReaderAt n := by
  obtain ⟨n, hat⟩ := hat
  by_cases hm : c.MovesReader e me
  · cases c with
    | inLine u =>
        cases u with
        | endOffset => cases hm
        | close => cases hm
        | poll purpose timeout =>
            cases purpose with
            | batch => cases hm
            | commands => cases hm
            | replay withOffsets =>
                rcases step_rewinds now me hat withOffsets timeout hm with ⟨-, hzero⟩ | ⟨-, hsame⟩
                · exact ⟨0, hzero⟩
                · exact ⟨n, hsame⟩
    | polling purpose timeout restored p =>
        rcases step_polls now me hat purpose timeout restored p with ⟨b, -, -, hmoved⟩ | ⟨-, hsame⟩
        · exact ⟨_, hmoved⟩
        · exact ⟨n, hsame⟩
    | entered r => cases hm
    | sent w interrupts => cases hm
    | asking ps => cases hm
    | closing handle closing => cases hm
  · exact ⟨n, (step_keeps now me e hm).readerAt hat⟩

end Uses

section Watching

variable {now : Nat} {me : TaskId} {e : Endpoint SharedLog} {c c' : Call SharedLog}
  {p : Partition} {log after : Log} {r : Reader} {new : Option Entry}

/-- If the call waits in its poll, it has looked at everything that is there. -/
def Watches (p : Partition) (log : Log) (r : Reader) : Call SharedLog → Prop
  | .polling _ _ _ (.parked _ seen) => r.Watches log p seen
  | _ => True

theorem Watches.brings (h : c.Watches p log r) (hb : log.Brings after p new) :
    c.Watches p after r := by
  cases c with
  | polling purpose timeout restored poll =>
      cases poll with
      | started timeout' => trivial
      | parked deadline seen => exact Reader.Watches.brings h hb
  | _ => trivial

theorem Watches.wake (h : c.Watches p log r) : c.Watches p log r.wake := by
  cases c with
  | polling purpose timeout restored poll =>
      cases poll with
      | started timeout' => trivial
      | parked deadline seen => exact Reader.Watches.wake h
  | _ => trivial

/-- What a call goes on with watches. -/
theorem IsUse.watches (hc : c.IsUse) (hlog : e.client.log.HasPartitions)
    (hp : e.channel.partition.index = 0) (hat : ∃ n, e.ReaderAt n)
    (h : (c.step now me e).1 = .waiting c') :
    c'.Watches e.channel.partition e.client.log (c.step now me e).2.client.reader := by
  obtain ⟨n, hat⟩ := hat
  cases c with
  | entered r =>
      obtain ⟨u, rfl⟩ := hc.entered
      simp only [Call.step, enter] at h
      split at h
      · split at h <;> cases h
      · cases h
        trivial
  | sent w interrupts => exact absurd hc (not_isUse_sent w interrupts)
  | asking ps => cases h
  | closing handle closing =>
      cases handle with
      | reader =>
          cases h
          trivial
      | writer => cases h
  | inLine u =>
      simp only [Call.step] at h
      split at h
      · cases u with
        | endOffset => cases h
        | close =>
            cases h
            trivial
        | poll purpose timeout =>
            cases purpose with
            | batch =>
                cases h
                trivial
            | commands =>
                cases h
                trivial
            | replay withOffsets =>
                simp only [useReader, rewind] at h
                split at h
                · cases h
                · cases h
                  trivial
      · cases h
        trivial
  | polling purpose timeout restored poll =>
      rcases hstep : e.client.reader.stepPoll e.client.schema now e.client.log poll with
        ⟨progress, r⟩
      rw [step_polling hstep] at h ⊢
      cases progress with
      | waiting poll' =>
          cases h
          obtain ⟨deadline, seen, rfl, hr, hwatches⟩ :=
            Reader.stepPoll_watches hlog hp hat (congrArg Prod.fst hstep)
          rw [hstep] at hr
          dsimp only at hr ⊢
          rw [hr]
          exact hwatches
      | done result =>
          cases result with
          | error err => cases h
          | ok b =>
              obtain ⟨withOffsets, rfl⟩ := takeBatch_waiting h
              trivial

end Watching

section Sides

variable (now : Nat) (me : TaskId) (e : Endpoint SharedLog) {c : Call SharedLog}

/-- A step does nothing that the reader would notice, and leaves at most a send that waits. -/
structure StepsAside (e : Endpoint SharedLog) (s : Stepped SharedLog) : Prop where
  reader : s.2.client.reader = e.client.reader
  schema : s.2.client.schema = e.client.schema
  channel : s.2.channel = e.channel
  rest : ∀ c, s.1.rest = some c → ∃ w n, c = .sent w n

theorem send_stepsAside (id : CommandId) (command : Command) :
    StepsAside e (Call.step now me e (.entered (.send id command))) := by
  simp only [Call.step, enter]
  split
  · refine ⟨rfl, rfl, rfl, fun c hc => ?_⟩
    cases hc
  · refine ⟨rfl, rfl, rfl, fun c hc => ?_⟩
    cases hc
    exact ⟨_, _, rfl⟩

/-- A call that does not need the reader does nothing that it would notice, nor to the log. -/
theorem aside_stepsAside (hc : (∃ w n, c = .sent w n) ∨ c = .closing .writer ()) :
    StepsAside e (c.step now me e) ∧ (c.step now me e).2.client.log = e.client.log := by
  rcases hc with ⟨w, n, rfl⟩ | rfl
  · have hstill : (Call.step now me e (.sent w n)).2 = e := awaitAck_endpoint now e w n
    rw [hstill]
    refine ⟨⟨by rw [hstill], by rw [hstill], by rw [hstill], fun c hc => ?_⟩, rfl⟩
    simp only [Call.step, awaitAck] at hc
    split at hc
    · cases hc
    · cases hc
    · split at hc
      · cases hc
      · cases hc
        exact ⟨w, n, rfl⟩
  · refine ⟨⟨rfl, rfl, rfl, fun c hc => ?_⟩, rfl⟩
    cases hc

end Sides

end Channel.Call

namespace Booth

open Call

section Order

variable {p : Partition} {log after : Log} {b : Booth} {new : Option Entry}

/-- The tasks in line are those that have calls, the reader is in the partition, and the call that
has it watches. -/
structure InOrder (p : Partition) (log : Log) (b : Booth) : Prop where
  partition : b.wire.channel.partition = p
  reader : ∃ n, b.wire.reader.At p n
  nodup : b.wire.channel.line.Nodup
  stands : ∀ task c, b.uses task = some c → c.StandsIn b.wire.channel.line task
  strangers : ∀ task, b.uses task = none → task ∉ b.wire.channel.line
  fresh : ∀ task, b.next ≤ task → b.uses task = none
  lined : ∀ task c, b.uses task = some c → c.isLined = true
  asides : ∀ c ∈ b.asides, (∃ w n, c = .sent w n) ∨ c = .closing .writer ()
  watches : ∀ task c, b.uses task = some c → c.Watches p log b.wire.reader

theorem opened_inOrder (schema : CommandSchema) (topic : String) (log : Log) :
    InOrder ⟨topic, commandPartition⟩ log (opened schema topic) := by
  have hnone : ∀ task c, (opened schema topic).uses task ≠ some c := fun _ c =>
    (Option.some_ne_none c).symm
  refine ⟨rfl, ⟨0, rfl⟩, List.nodup_nil, ?_, fun _ _ => List.not_mem_nil, fun _ _ => rfl, ?_,
    ?_, ?_⟩
  · exact fun task c hc => absurd hc (hnone task c)
  · exact fun task c hc => absurd hc (hnone task c)
  · exact fun c hc => absurd hc List.not_mem_nil
  · exact fun task c hc => absurd hc (hnone task c)

/-- What others do to the log changes nothing about the order. -/
theorem InOrder.brings (h : b.InOrder p log) (hb : log.Brings after p new) :
    b.InOrder p after :=
  { h with watches := fun task c hc => (h.watches task c hc).brings hb }

/-- Nothing about the order depends on the calls that do not need the reader, nor on the writer. -/
theorem InOrder.aside {b' : Booth} (h : b.InOrder p log) (hreader : b'.wire.reader = b.wire.reader)
    (hchannel : b'.wire.channel = b.wire.channel) (huses : b'.uses = b.uses)
    (hnext : b'.next = b.next)
    (hasides : ∀ c ∈ b'.asides, c ∈ b.asides ∨ (∃ w n, c = .sent w n) ∨ c = .closing .writer ()) :
    b'.InOrder p log := by
  constructor
  · rw [hchannel]
    exact h.partition
  · rw [hreader]
    exact h.reader
  · rw [hchannel]
    exact h.nodup
  · rw [hchannel, huses]
    exact h.stands
  · rw [hchannel, huses]
    exact h.strangers
  · rw [hnext, huses]
    exact h.fresh
  · rw [huses]
    exact h.lined
  · intro c hc
    rcases hasides c hc with hold | hnew
    · exact h.asides c hold
    · exact hnew
  · rw [hreader, huses]
    exact h.watches

/-- A call of another task, after a task has left the line or has taken a step. -/
theorem update_cases {uses : TaskId → Option (Call SharedLog)} {task id : TaskId}
    {new k : Option (Call SharedLog)} (h : Function.update uses task new id = k) :
    (id = task ∧ new = k) ∨ (id ≠ task ∧ uses id = k) := by
  by_cases hid : id = task
  · subst hid
    rw [Function.update_self] at h
    exact Or.inl ⟨rfl, h⟩
  · rw [Function.update_of_ne hid] at h
    exact Or.inr ⟨hid, h⟩

theorem InOrder.readerAt (h : b.InOrder p log) (log' : Log) :
    ∃ n, (b.endpoint log').ReaderAt n := by
  obtain ⟨n, hn⟩ := h.reader
  rw [← h.partition] at hn
  exact ⟨n, hn⟩

/-- A step of a call keeps the order. -/
theorem InOrder.take (h : b.InOrder p log) (hlog : log.HasPartitions) (hp : p.index = 0)
    {task : TaskId} {c : Call SharedLog} (hc : c.IsUse)
    (hs : c.StandsIn b.wire.channel.line task) (hfresh : task < b.next) (now : Nat) :
    (b.take task (c.step now task (b.endpoint log))).InOrder p log := by
  obtain ⟨hsame, -, hpart⟩ := hc.frame now task (b.endpoint log)
  obtain ⟨hline, hafter⟩ := step_lined (e := b.endpoint log) now h.nodup hs
  have hat := h.readerAt log
  have hindex : (b.endpoint log).channel.partition.index = 0 := h.partition.symm ▸ hp
  constructor
  · exact hpart.trans h.partition
  · obtain ⟨n, hn⟩ := step_readerAt now task c hat
    refine ⟨n, ?_⟩
    have hn' : (c.step now task (b.endpoint log)).2.client.reader.At _ n := hn
    rw [hpart.trans h.partition] at hn'
    exact hn'
  · exact hline.nodup h.nodup
  · intro id c' hc'
    rcases update_cases hc' with ⟨rfl, hown⟩ | ⟨hid, hold⟩
    · obtain ⟨hw, -⟩ := lined_eq_some_iff.1 hown
      rw [hw] at hafter
      exact hafter
    · exact (h.stands id c' hold).lineStep hline hid
  · intro id hnone
    rcases update_cases hnone with ⟨rfl, hown⟩ | ⟨hid, hold⟩
    · cases hprogress : (c.step now id (b.endpoint log)).1 with
      | done result =>
          rw [hprogress] at hafter
          exact hafter
      | waiting c' =>
          rw [hprogress] at hafter hown
          cases c' with
          | inLine u => cases hown
          | polling purpose timeout restored poll => cases hown
          | asking ps => cases hown
          | closing handle closing =>
              cases handle with
              | reader => cases hown
              | writer => exact hafter
          | _ => exact hafter
    · exact fun hmem => h.strangers id hold ((hline.mem_iff hid).1 hmem)
  · intro id hid
    have hne : id ≠ task := Nat.ne_of_gt (Nat.lt_of_lt_of_le hfresh hid)
    exact (Function.update_of_ne hne _ _).trans (h.fresh id hid)
  · intro id c' hc'
    rcases update_cases hc' with ⟨rfl, hown⟩ | ⟨-, hold⟩
    · exact (lined_eq_some_iff.1 hown).2
    · exact h.lined id c' hold
  · intro c' hc'
    rcases List.mem_append.1 hc' with hold | hnew
    · exact h.asides c' hold
    · exact Or.inr (eq_closing_of_mem_unlined hnew)
  · intro id c' hc'
    rcases update_cases hc' with ⟨rfl, hown⟩ | ⟨hid, hold⟩
    · obtain ⟨hw, -⟩ := lined_eq_some_iff.1 hown
      have hwatches := hc.watches hlog hindex hat hw
      rw [show (b.endpoint log).channel.partition = p from h.partition] at hwatches
      exact hwatches
    · -- one that waits in a poll has the reader, so that the other one has not touched it
      cases c' with
      | polling purpose timeout restored poll =>
          have hhead : b.wire.channel.line.head? = some id := h.stands id _ hold
          have hnot : (b.endpoint log).channel.line.head? ≠ some task := by
            intro htask
            exact hid (Option.some.inj (hhead.symm.trans htask))
          have hclient := hc.step_of_not_head now hs hnot
          have hreader : (b.take task (c.step now task (b.endpoint log))).wire.reader =
              b.wire.reader := congrArg SharedLog.reader hclient
          rw [hreader]
          exact h.watches id _ hold
      | _ => trivial

theorem InOrder.leave (h : b.InOrder p log) (task : TaskId) :
    InOrder p log { b with
      wire := .ofEndpoint ((b.endpoint log).leave task)
      uses := Function.update b.uses task none } := by
  have hline : LineStep task b.wire.channel.line (b.wire.channel.line.erase task) := .leave
  have hold : ∀ {id c}, Function.update b.uses task none id = some c →
      id ≠ task ∧ b.uses id = some c := by
    intro id c hc
    rcases update_cases hc with ⟨-, hnew⟩ | hold
    · cases hnew
    · exact hold
  constructor
  · exact h.partition
  · exact h.reader
  · exact hline.nodup h.nodup
  · exact fun id c hc => (h.stands id c (hold hc).2).lineStep hline (hold hc).1
  · intro id hnone hmem
    rcases update_cases hnone with ⟨rfl, -⟩ | ⟨hid, hother⟩
    · exact h.nodup.not_mem_erase hmem
    · exact h.strangers id hother ((hline.mem_iff hid).1 hmem)
  · intro id hid
    by_cases hne : id = task
    · subst hne
      exact Function.update_self ..
    · exact (Function.update_of_ne hne _ _).trans (h.fresh id hid)
  · exact fun id c hc => h.lined id c (hold hc).2
  · exact h.asides
  · exact fun id c hc => h.watches id c (hold hc).2

theorem InOrder.interrupt (h : b.InOrder p log) (now : Nat) :
    InOrder p log { b with wire := .ofEndpoint ((b.endpoint log).interrupt now) } := by
  constructor
  · exact h.partition
  · obtain ⟨n, hn⟩ := h.reader
    exact ⟨n, hn.of_positions rfl⟩
  · exact h.nodup
  · exact h.stands
  · exact h.strangers
  · exact h.fresh
  · exact h.lined
  · exact h.asides
  · exact fun id c hc => (h.watches id c hc).wake

/-- Whatever is done at a booth keeps its order. -/
theorem InOrder.perform (h : b.InOrder p log) (hlog : log.HasPartitions) (hp : p.index = 0)
    (now : Nat) (m : Move) : (b.perform now log m).1.InOrder p (b.perform now log m).2 := by
  cases m with
  | ask u =>
      have hgrown : InOrder p log { b with next := b.next + 1 } :=
        { h with fresh := fun id hid => h.fresh id (Nat.le_of_succ_le hid) }
      have hstands : StandsIn b.wire.channel.line b.next (.entered (.use u) : Call SharedLog) :=
        h.strangers _ (h.fresh _ (Nat.le_refl _))
      have hafter := hgrown.take hlog hp (.inr ⟨u, rfl⟩) hstands (Nat.lt_succ_self _) now
      simp only [Booth.perform]
      rw [(IsUse.frame (.inr ⟨u, rfl⟩) now b.next (b.endpoint log)).1]
      exact hafter
  | proceed task =>
      simp only [Booth.perform]
      split
      next c hc =>
        rw [(IsUse.frame (.inl (h.lined task c hc)) now task (b.endpoint log)).1]
        refine h.take hlog hp (.inl (h.lined task c hc)) (h.stands task c hc) ?_ now
        by_contra hge
        rw [h.fresh task (Nat.le_of_not_lt hge)] at hc
        cases hc
      next => exact h
  | leave task =>
      simp only [Booth.perform]
      split
      next c hc => exact h.leave task
      next => exact h
  | interrupt => exact h.interrupt now
  | send id c =>
      obtain ⟨hreader, -, hchannel, hrest⟩ := send_stepsAside now b.next (b.endpoint log) id c
      obtain ⟨new, hbrings⟩ := Log.brings_of_perform (step_log now b.next (b.endpoint log)
        (.entered (.send id c))) p
      refine (h.brings hbrings).aside hreader hchannel rfl rfl fun c' hc' => ?_
      rcases List.mem_append.1 hc' with hold | hnew
      · exact Or.inl hold
      · exact Or.inr (Or.inl (hrest c' (Option.mem_toList.1 hnew)))
  | proceedAside k =>
      simp only [Booth.perform]
      split
      next c hc =>
        obtain ⟨⟨hreader, -, hchannel, hrest⟩, hsame⟩ := aside_stepsAside now b.next
          (b.endpoint log) (h.asides c (List.mem_of_getElem? hc))
        rw [hsame]
        refine h.aside hreader hchannel rfl rfl fun c' hc' => ?_
        rcases List.mem_append.1 hc' with hc' | hc'
        · rcases List.mem_append.1 hc' with hc' | hc'
          · exact Or.inl (List.mem_of_mem_take hc')
          · exact Or.inr (Or.inl (hrest c' (Option.mem_toList.1 hc')))
        · exact Or.inl (List.mem_of_mem_drop hc')
      next => exact h
  | leaveAside k =>
      refine h.aside rfl rfl rfl rfl fun c' hc' => ?_
      exact Or.inl (List.mem_of_mem_eraseIdx hc')

/-- Nothing that is done at a booth does anything to the log but to perform an operation. -/
theorem perform_log (now : Nat) (log : Log) (b : Booth) (m : Move) :
    (b.perform now log m).2 = log ∨
      ∃ op : Log.Operation, (b.perform now log m).2 = log.perform op := by
  cases m with
  | ask u => exact step_log now b.next (b.endpoint log) _
  | send id c => exact step_log now b.next (b.endpoint log) _
  | interrupt => exact Or.inl rfl
  | leaveAside k => exact Or.inl rfl
  | leave task =>
      simp only [Booth.perform]
      split <;> exact Or.inl rfl
  | proceed task =>
      simp only [Booth.perform]
      split
      · exact step_log now task (b.endpoint log) _
      · exact Or.inl rfl
  | proceedAside k =>
      simp only [Booth.perform]
      split
      · exact step_log now b.next (b.endpoint log) _
      · exact Or.inl rfl

/-- When the clock may go on, no call does anything before the time to which it may go. -/
theorem InOrder.rests_of_mayPass (h : b.InOrder p log) (hlog : log.HasPartitions)
    (hp : p.index = 0) {now ticks t : Nat} (hmay : b.mayPass now log ticks = true)
    (ht : t < now + ticks) : b.rests t log = true := by
  unfold rests head
  cases hhead : b.wire.channel.line.head? with
  | none => rfl
  | some task =>
      cases hc : b.uses task with
      | none => simp [hc]
      | some c =>
          simp only [Option.bind_some, hc, Option.all_some]
          have hmem : task ∈ b.wire.channel.line := List.mem_of_head? hhead
          have hwaits := List.all_eq_true.1 hmay task hmem
          simp only [hc, Option.all_some, Bool.and_eq_true, Bool.not_eq_true'] at hwaits
          obtain ⟨hready, hdue⟩ := hwaits
          have hstands := h.stands task c hc
          cases c with
          | entered r => exact absurd hmem hstands
          | sent w interrupts => exact absurd hmem hstands
          | asking ps => cases hready
          | closing handle closing => cases hready
          | inLine u =>
              have hreader : b.wire.channel.hasReader task = true := by
                simpa [hasReader] using hhead
              rw [show Call.ready now task (b.endpoint log) (.inLine u) = _ from hreader] at hready
              cases hready
          | polling purpose timeout restored poll =>
              cases poll with
              | started timeout' => cases hready
              | parked deadline seen =>
                  obtain ⟨n, hn⟩ := h.reader
                  have hlate : now + ticks ≤ deadline := by
                    simpa [Call.due, Client.pollDue, Reader.pollDue] using hdue
                  have hwatches : b.wire.reader.Watches log p seen := h.watches task _ hc
                  have hparked := Reader.Watches.waits b.wire.schema hwatches hlog hp hn hready
                    (Nat.lt_of_lt_of_le ht hlate)
                  rw [idles, show (b.endpoint log).client.reader.attempt
                    (b.endpoint log).client.schema t (b.endpoint log).client.log deadline = _
                    from hparked]
                  rfl

end Order

end Booth
end ReplicatedLog
