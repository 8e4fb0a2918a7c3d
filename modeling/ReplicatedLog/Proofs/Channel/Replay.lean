import ReplicatedLog.Proofs.Channel.Traffic

/-!
# Replaying and tailing

A replay brings the commands of the whole partition, and the polls after it go on
where it has ended, whoever else uses the channel.

* `Deed.tailed` is what a poll outside of a replay has brought, and `account` what the
  last replay and all polls since then have brought together;
* `run_accounted`: after any moves the account is what the entries tell that the
  reader has passed;
* `account_of_replay`: the account is what a replay has restored, with what the polls
  since then have brought.
-/

namespace ReplicatedLog

open Channel

section Bringing

/-- The commands in a reply. -/
def Channel.Reply.brought : Reply → List QueuedCommand
  | .batch b => b.commands
  | .commands cs => cs
  | _ => []

theorem Channel.Call.brought_reply (purpose : Purpose) (b : CommandBatch) :
    (Call.reply purpose b).brought = b.commands := by
  cases purpose <;> rfl

namespace Deed

/-- The commands that the request has brought with this step, if it was the last one. -/
def brought (d : Deed) : List QueuedCommand :=
  match d.progress with
  | .done (.ok reply) => reply.brought
  | _ => []

/-- The commands that a poll outside of a replay has brought with this step. -/
def tailed (d : Deed) : List QueuedCommand :=
  match d.request with
  | .use (.poll (.replay _) _) => []
  | .use (.poll _ _) => d.brought
  | _ => []

/-- The commands that a poll for commands has brought with this step. -/
def tailedCommands (d : Deed) : List QueuedCommand :=
  match d.request with
  | .use (.poll .commands _) => d.brought
  | _ => []

/-- A replay starts with this step: it gets the reading handle. -/
def startsReplay (d : Deed) : Bool :=
  match d.call with
  | .inLine (.poll (.replay _) _) => d.before.channel.hasReader d.task
  | _ => false

/-- The account of what a replay and the polls since then have brought, after a step.  There is
none while a replay is in progress. -/
def enterInto (account : Option (List QueuedCommand)) (d : Deed) : Option (List QueuedCommand) :=
  if d.startsReplay then none
  else
    match d.call, d.progress with
    | .polling (.replay _) _ restored _, .done (.ok _) => some restored
    | .polling (.replay _) _ _ _, _ => none
    | .polling _ _ _ _, _ => account.map (· ++ d.brought)
    | _, _ => account

end Deed

/-- What the last replay and the polls since then have brought. -/
def account (deeds : List Deed) : Option (List QueuedCommand) :=
  deeds.foldl Deed.enterInto none

theorem account_concat (deeds : List Deed) (d : Deed) :
    account (deeds ++ [d]) = d.enterInto (account deeds) := by
  simp [account]

end Bringing

namespace Traffic

section Accounts

/-- The account is what the entries tell that the reader has passed. -/
def AccountTold (e : Endpoint SharedLog) (acc : Option (List QueuedCommand)) : Prop :=
  ∀ cs, acc = some cs → ∃ n, e.ReaderAt n ∧ e.Tells n cs

theorem AccountTold.none (e : Endpoint SharedLog) : AccountTold e none := by
  intro cs hcs
  cases hcs

/-- What keeps the reader in its place keeps the account. -/
theorem AccountTold.keeps {e e' : Endpoint SharedLog} {acc : Option (List QueuedCommand)}
    (h : AccountTold e acc) (hk : e.Keeps e') : AccountTold e' acc := by
  intro cs hcs
  obtain ⟨n, hat, ht⟩ := h cs hcs
  exact ⟨n, hk.readerAt hat, hk.toFollows.tells ht⟩

variable {now : Nat} {task id : TaskId} {e e' : Endpoint SharedLog} {request : Request}
  {call : Call SharedLog} {progress : Progress (Call SharedLog) Result}
  {acc : Option (List QueuedCommand)}

/-- A step of a call that does not move the reader leaves the account. -/
theorem enterInto_of_not_moves (h : ¬ call.MovesReader e task) :
    Deed.enterInto acc ⟨task, request, call, e, progress, e'⟩ = acc := by
  cases call with
  | entered r => rfl
  | sent w interrupts => rfl
  | asking ps => rfl
  | closing handle closing => rfl
  | polling purpose timeout restored p => exact absurd trivial h
  | inLine u =>
      cases u with
      | endOffset => rfl
      | close => rfl
      | poll purpose timeout =>
          cases purpose with
          | batch => rfl
          | commands => rfl
          | replay withOffsets =>
              have hnot : e.channel.hasReader task = false := by
                simpa [Call.MovesReader] using h
              simp [Deed.enterInto, Deed.startsReplay, hnot]

/-- A step of a replay that has the reading handle makes an account, if it is the last one. -/
theorem enterInto_replay (request : Request) {withOffsets : Bool} {timeout : Nat}
    {restored : List QueuedCommand}
    {p : Client.Poll SharedLog} (hc : call = .polling (.replay withOffsets) timeout restored p)
    (hstep : call.step now task e = (progress, e')) (ht : call.Told e) :
    AccountTold e' (Deed.enterInto none ⟨task, request, call, e, progress, e'⟩) ∧
      ∀ c', progress = .waiting c' →
        Deed.enterInto none ⟨task, request, call, e, progress, e'⟩ = none := by
  subst hc
  cases progress with
  | waiting c => exact ⟨.none e', fun _ _ => rfl⟩
  | done result =>
      cases result with
      | error err => exact ⟨.none e', fun _ _ => rfl⟩
      | ok reply =>
          refine ⟨fun cs hcs => ?_, fun c' hc' => by cases hc'⟩
          have hf := Call.step_follows now task e
            (.polling (.replay withOffsets) timeout restored p)
          obtain ⟨-, n, hn, hat, -⟩ :=
            Call.step_replayed now task ht (congrArg Prod.fst hstep)
          rw [hstep] at hf hat
          cases hcs
          exact ⟨n, hat, hf.tells hn⟩

/-- A step of a poll outside of a replay adds to the account what it has brought. -/
theorem enterInto_tail {purpose : Purpose} {timeout : Nat} {restored : List QueuedCommand}
    {p : Client.Poll SharedLog} (hp : ∀ withOffsets, purpose ≠ .replay withOffsets)
    (hc : call = .polling purpose timeout restored p)
    (hstep : call.step now task e = (progress, e')) (h : AccountTold e acc) :
    AccountTold e' (Deed.enterInto acc ⟨task, request, call, e, progress, e'⟩) := by
  subst hc
  have hf := Call.step_follows now task e (.polling purpose timeout restored p)
  have hacc : Deed.enterInto acc
      ⟨task, request, .polling purpose timeout restored p, e, progress, e'⟩ =
        acc.map (· ++ Deed.brought
          ⟨task, request, .polling purpose timeout restored p, e, progress, e'⟩) := by
    cases purpose with
    | batch => rfl
    | commands => rfl
    | replay withOffsets => exact absurd rfl (hp withOffsets)
  rw [hacc]
  intro cs hcs
  rw [Option.map_eq_some_iff] at hcs
  obtain ⟨before, hbefore, rfl⟩ := hcs
  obtain ⟨n, hat, ht⟩ := h before hbefore
  have htails := Call.step_tails now task
    (show Call.Serves (.polling purpose timeout restored p) (.use (.poll purpose timeout)) from rfl)
    hp hat
  rw [hstep] at hf htails
  rcases htails with ⟨b, hb, htakes, hmoved⟩ | ⟨hnone, hsame⟩
  · rw [show Deed.brought ⟨task, request, _, e, progress, e'⟩ = b.commands by
      rw [Deed.brought, show progress = _ from hb]
      exact Call.brought_reply purpose b]
    exact ⟨_, hmoved, hf.tells (ht.takes htakes)⟩
  · have hbrought : Deed.brought
        ⟨task, request, .polling purpose timeout restored p, e, progress, e'⟩ = [] := by
      rcases progress with c | (err | reply)
      · rfl
      · rfl
      · exact absurd rfl (hnone reply)
    rw [hbrought, List.append_nil]
    exact ⟨n, hsame, hf.tells ht⟩

/-- A step of a call keeps the account told, and none goes with a replay in progress. -/
theorem enterInto_step (request : Request) (hstep : call.step now task e = (progress, e'))
    (ht : call.Told e) (h : AccountTold e acc)
    (hnone : ∀ withOffsets timeout restored p,
      call = .polling (.replay withOffsets) timeout restored p → acc = none) :
    AccountTold e' (Deed.enterInto acc ⟨task, request, call, e, progress, e'⟩) ∧
      ∀ withOffsets timeout restored p,
        progress = .waiting (.polling (.replay withOffsets) timeout restored p) →
          Deed.enterInto acc ⟨task, request, call, e, progress, e'⟩ = none := by
  by_cases hm : call.MovesReader e task
  · cases call with
    | entered r => cases hm
    | sent w interrupts => cases hm
    | asking ps => cases hm
    | closing handle closing => cases hm
    | inLine u =>
        cases u with
        | endOffset => cases hm
        | close => cases hm
        | poll purpose timeout =>
            cases purpose with
            | batch => cases hm
            | commands => cases hm
            | replay withOffsets =>
                have hhead : e.channel.hasReader task = true := hm
                have hstarts : Deed.enterInto acc ⟨task, request,
                    .inLine (.poll (.replay withOffsets) timeout), e, progress, e'⟩ = none := by
                  simp [Deed.enterInto, Deed.startsReplay, hhead]
                rw [hstarts]
                exact ⟨.none e', fun _ _ _ _ _ => rfl⟩
    | polling purpose timeout restored p =>
        by_cases hp : ∃ withOffsets, purpose = .replay withOffsets
        · obtain ⟨withOffsets, rfl⟩ := hp
          rw [hnone withOffsets timeout restored p rfl]
          obtain ⟨htold, hwait⟩ := enterInto_replay request rfl hstep ht
          exact ⟨htold, fun _ _ _ _ hw => hwait _ hw⟩
        · have hp' : ∀ withOffsets, purpose ≠ .replay withOffsets := fun w hw => hp ⟨w, hw⟩
          refine ⟨enterInto_tail hp' rfl hstep h, fun withOffsets timeout' restored' p' hw => ?_⟩
          -- a poll goes on as what it is for
          have hserves : Call.Serves (.polling purpose timeout restored p)
              (.use (.poll purpose timeout)) := rfl
          have hgoes := Call.step_serves hserves ((congrArg Prod.fst hstep).trans hw)
          cases hgoes
          exact absurd rfl (hp' withOffsets)
  · rw [enterInto_of_not_moves hm]
    have hk := Call.step_keeps now task e hm
    rw [hstep] at hk
    refine ⟨h.keeps hk, fun withOffsets timeout restored p hw => ?_⟩
    exact absurd rfl (Call.step_not_replay now task hm ((congrArg Prod.fst hstep).trans hw)
      withOffsets timeout restored p)

/-- The account is told, and there is none while a replay is in progress. -/
structure Accounted (t : Traffic) : Prop where
  told : AccountTold t.endpoint (account t.deeds)
  replaying : ∀ id k withOffsets timeout restored p, t.tickets id = some k →
    k.call = .polling (.replay withOffsets) timeout restored p → account t.deeds = none

variable {t : Traffic} {k k' : Ticket}

theorem account_advance (t : Traffic) (task : TaskId) (now : Nat) (k : Ticket) :
    account (t.advance task now k).deeds = (t.deed task now k).enterInto (account t.deeds) :=
  account_concat _ _

/-- A step of a task keeps what is accounted for. -/
theorem Accounted.advance (h : t.Accounted) (hs : t.Sound) (hk : t.tickets task = some k)
    (now : Nat) : (t.advance task now k).Accounted := by
  obtain ⟨htold, hown⟩ := enterInto_step k.request rfl
    (hs.reads.told task k hk) h.told
    (fun withOffsets timeout restored p => h.replaying task k withOffsets timeout restored p hk)
  have hacc := account_advance t task now k
  constructor
  · rw [hacc]
    exact htold
  · intro id k' withOffsets timeout restored p hk' hc
    rw [hacc]
    rcases advance_tickets hk' with ⟨-, -, hw⟩ | ⟨hne, hold⟩
    · rw [hc] at hw
      exact hown withOffsets timeout restored p hw
    · by_cases hm : k.call.MovesReader t.endpoint task
      · exact absurd hc (hs.ordered.not_polling hk hm hold hne _ _ _ _)
      · exact (enterInto_of_not_moves hm).trans
          (h.replaying id k' withOffsets timeout restored p hold hc)

/-- Every move keeps what is accounted for. -/
theorem Accounted.perform (h : t.Accounted) (hs : t.Sound) (m : Move) :
    (t.perform m).Accounted := by
  cases m with
  | enter r =>
      refine ⟨h.told, fun id k withOffsets timeout restored p hk hc => ?_⟩
      rcases put_cases hk with ⟨-, hnew⟩ | ⟨-, hold⟩
      · cases hnew
        cases hc
      · exact h.replaying id k withOffsets timeout restored p hold hc
  | step task now =>
      simp only [Traffic.perform]
      split
      next k hk => exact h.advance hs hk now
      next => exact h
  | abandon task =>
      simp only [Traffic.perform]
      split
      · refine ⟨h.told.keeps (Endpoint.keeps_leave _ task), ?_⟩
        intro id k withOffsets timeout restored p hk hc
        rcases put_cases hk with ⟨-, hnew⟩ | ⟨-, hold⟩
        · cases hnew
        · exact h.replaying id k withOffsets timeout restored p hold hc
      · exact h
  | interrupt now =>
      exact ⟨h.told.keeps (Endpoint.keeps_interrupt _ now), h.replaying⟩
  | onLog op => exact ⟨h.told.keeps (Endpoint.keeps_onLog _ op), h.replaying⟩

/-- After any moves the account is what the entries tell that the reader has passed. -/
theorem run_accounted (hs : t.Sound) (hd : t.deeds = []) (moves : List Move) :
    (t.run moves).Accounted := by
  have hstart : t.Accounted := by
    constructor
    · rw [hd]
      exact .none _
    · intro id k withOffsets timeout restored p _ _
      rw [hd]
      rfl
  have hall : (t.run moves).Sound ∧ (t.run moves).Accounted :=
    run_induction (P := fun t => t.Sound ∧ t.Accounted) ⟨hs, hstart⟩
      (fun _ m h => ⟨h.1.perform m, h.2.perform h.1 m⟩) moves
  exact hall.2

end Accounts

section Tailing

variable {t : Traffic} {moves : List Move} {pre post : List Deed} {d : Deed}

/-- A step that is none of a replay adds to an account what a poll has brought with it. -/
theorem enterInto_some (hs : d.call.Serves d.request)
    (hstep : ∃ now, d.call.step now d.task d.before = (d.progress, d.after))
    (hstart : d.startsReplay = false)
    (hrep : ∀ withOffsets timeout restored p,
      d.call ≠ .polling (.replay withOffsets) timeout restored p) (cs : List QueuedCommand) :
    d.enterInto (some cs) = some (cs ++ d.tailed) := by
  obtain ⟨now, hstep⟩ := hstep
  obtain ⟨task, request, call, before, progress, after⟩ := d
  by_cases hpoll : ∃ purpose timeout restored p, call = .polling purpose timeout restored p
  · obtain ⟨purpose, timeout, restored, p, rfl⟩ := hpoll
    cases hs
    cases purpose with
    | batch => rfl
    | commands => rfl
    | replay withOffsets => exact absurd rfl (hrep withOffsets timeout restored p)
  · have hnothing : Deed.tailed ⟨task, request, call, before, progress, after⟩ = [] := by
      by_cases hq : ∃ purpose timeout, request = .use (.poll purpose timeout)
      · obtain ⟨purpose, timeout, rfl⟩ := hq
        have hbrought : Deed.brought ⟨task, .use (.poll purpose timeout), call, before, progress,
            after⟩ = [] := by
          rcases progress with c | (err | reply)
          · rfl
          · rfl
          · obtain ⟨restored, p, hc⟩ := Call.polling_of_ok hs (congrArg Prod.fst hstep)
            exact absurd ⟨purpose, timeout, restored, p, hc⟩ hpoll
        cases purpose with
        | batch => exact hbrought
        | commands => exact hbrought
        | replay withOffsets => rfl
      · cases request with
        | send id c => rfl
        | use u =>
            cases u with
            | poll purpose timeout => exact absurd ⟨purpose, timeout, rfl⟩ hq
            | endOffset => rfl
            | close => rfl
    rw [hnothing, List.append_nil]
    simp only [Deed.enterInto, hstart, Bool.false_eq_true, if_false]
    cases call with
    | polling purpose timeout restored p => exact absurd ⟨purpose, timeout, restored, p, rfl⟩ hpoll
    | entered r => rfl
    | sent w interrupts => rfl
    | inLine u => rfl
    | asking ps => rfl
    | closing handle closing => rfl

/-- What a replay has restored and what is tailed since then make up the account, unless another
replay starts. -/
theorem account_of_replay (hs : t.Sound) (hd : t.deeds = []) {withOffsets : Bool} {timeout : Nat}
    {restored : List QueuedCommand} {p : Client.Poll SharedLog} {reply : Reply}
    (hc : d.call = .polling (.replay withOffsets) timeout restored p)
    (hr : d.progress = .done (.ok reply)) (h : (t.run moves).deeds = pre ++ d :: post)
    (hpost : ∀ d' ∈ post, d'.startsReplay = false) :
    account (pre ++ d :: post) = some (restored ++ post.flatMap Deed.tailed) := by
  induction post using List.reverseRecOn generalizing moves with
  | nil =>
      rw [account_concat]
      obtain ⟨task, request, call, before, progress, after⟩ := d
      cases hc
      cases hr
      simp [Deed.enterInto, Deed.startsReplay]
  | append_singleton post d' ih =>
      rw [← List.cons_append, ← List.append_assoc] at h ⊢
      obtain ⟨first, task, now, k, -, hpre, hk, hd'⟩ := run_deeds hd h
      have hbefore := ih hpre fun d'' hd'' => hpost d'' (List.mem_append_left _ hd'')
      have hsfirst := run_sound hs first
      have hacc := run_accounted hs hd first
      rw [account_concat, hbefore, List.flatMap_append, ← List.append_assoc]
      rw [List.flatMap_singleton]
      refine enterInto_some ?_ ⟨now, ?_⟩ (hpost d' (by simp)) ?_ _
      · rw [hd']
        exact hsfirst.serving task k hk
      · rw [hd']
        rfl
      · intro withOffsets' timeout' restored' p' hcall
        rw [hd'] at hcall
        have hnone := hacc.replaying task k _ _ _ _ hk hcall
        rw [hpre, hbefore] at hnone
        cases hnone

/-- In the traffic on a new channel whose polls can take something, a replay brings the commands of
all entries that are there when it ends, each with its offset or all without; and together with what
polls bring since then, as long as no other replay starts, the commands of all entries below the
offset that the reader will read next. -/
theorem replay_then_tail {now : Nat} {client client' : SharedLog} {topic : String}
    {e : Endpoint SharedLog} (hmake : Endpoint.make now client topic = (.ok e, client'))
    (hroom : 1 ≤ client.log.settings.maxPollRecords) (moves : List Move) :
    let p : Partition := ⟨topic, Channel.commandPartition⟩
    let t := run { endpoint := e } moves
    ∀ pre d post withOffsets timeout reply, t.deeds = pre ++ d :: post →
      d.request = .use (.poll (.replay withOffsets) timeout) → d.progress = .done (.ok reply) →
        ∃ cs, reply = .commands (Call.shown withOffsets cs) ∧
          d.before.client.log.Tells client.schema p (d.before.client.log.written p).length cs ∧
          ((∀ d' ∈ post, d'.startsReplay = false) →
            ∃ n, t.endpoint.client.reader.position p = some n ∧
              t.endpoint.client.log.Tells client.schema p n (cs ++ post.flatMap Deed.tailed)) := by
  intro p t pre d post withOffsets timeout reply hsplit hq hr
  have hs : Sound { endpoint := e } := sound_of_make hmake
  have hp : e.channel.partition = p := (Endpoint.make_readerAt hmake).1
  obtain ⟨hlog, hschema⟩ := Endpoint.make_client hmake
  have hd : d ∈ (run { endpoint := e } moves).deeds := hsplit ▸ by simp
  obtain ⟨⟨at', hstep⟩, hserves, htold, -, hf⟩ := run_steps hs rfl moves d hd
  rw [hq] at hserves
  obtain ⟨restored, poll, hc⟩ := Call.polling_of_ok hserves ((congrArg Prod.fst hstep).trans hr)
  rw [hc] at hstep htold
  obtain ⟨hreply, n, ht, -, hend⟩ :=
    Call.step_replayed at' d.task htold ((congrArg Prod.fst hstep).trans hr)
  refine ⟨restored, hreply, ?_, fun hpost => ?_⟩
  · have hn := hend (by rw [hf.log.settings, hlog]; exact hroom)
    rw [hn] at ht
    unfold Endpoint.Tells Endpoint.endOffset at ht
    rw [hf.schema, hf.partition, hp, hschema] at ht
    exact ht
  · have hacc := account_of_replay hs rfl hc hr hsplit hpost
    rw [← hsplit] at hacc
    obtain ⟨m, hat, htail⟩ := (run_accounted hs rfl moves).told _ hacc
    have hrun := run_follows { endpoint := e } moves
    have hposition := hat.position
    unfold Endpoint.Tells at htail
    rw [hrun.schema, hrun.partition, hp, hschema] at htail
    rw [hrun.partition, hp] at hposition
    exact ⟨m, hposition, htail⟩

end Tailing

section Sample

/-- The id of a command that creates a table. -/
def creation (table : String) (h : IsEntity table) : CommandId :=
  ⟨.table, table, .create, h⟩

/-- Three commands are sent: one before a replay, the second before a poll for records, and the
third before a poll for commands. -/
def sampleMoves : List Move :=
  [.enter (.send (creation "a" (by decide)) { statement := "CREATE TABLE a" }), .step 0 0] ++
  .enter (.replayWithOffsets 0) :: List.replicate 4 (.step 1 0) ++
  [.enter (.send (creation "b" (by decide)) { statement := "CREATE TABLE b" }), .step 2 0] ++
  .enter (.poll 0) :: List.replicate 3 (.step 3 0) ++
  [.enter (.send (creation "c" (by decide)) { statement := "CREATE TABLE c" }), .step 4 0] ++
  .enter (.pollCommands 0) :: List.replicate 3 (.step 5 0)

/-- The traffic of the sample on an empty log. -/
def sample : Traffic :=
  run { endpoint := .opened {} .json "commands" } sampleMoves

/-- The replay of the sample ends with the fifth step and brings the first command. -/
theorem sample_replays :
    ∃ d, sample.deeds = sample.deeds.take 4 ++ d :: sample.deeds.drop 5 ∧
      d.request = .replayWithOffsets 0 ∧
      d.progress = .done (.ok (.commands
        [⟨creation "a" (by decide), { statement := "CREATE TABLE a" }, some 0⟩])) ∧
      ∀ d' ∈ sample.deeds.drop 5, d'.startsReplay = false := by
  have hlong : 4 < sample.deeds.length := by decide +kernel
  refine ⟨sample.deeds[4], ?_, rfl, rfl, by decide +kernel⟩
  rw [← List.drop_eq_getElem_cons hlong, List.take_append_drop]

/-- In the sample the replay, the poll for records and the poll for commands bring a command
each. -/
theorem replay_then_tail_sample :
    1 ≤ ({} : Log).settings.maxPollRecords ∧
      ∃ cs n,
        Reply.commands [⟨creation "a" (by decide), { statement := "CREATE TABLE a" }, some 0⟩] =
          .commands (Call.shown true cs) ∧
        sample.endpoint.client.reader.position ⟨"commands", Channel.commandPartition⟩ = some n ∧
        sample.endpoint.client.log.Tells .json ⟨"commands", Channel.commandPartition⟩ n
          (cs ++ (sample.deeds.drop 5).flatMap Deed.tailed) := by
  have hroom : 1 ≤ ({} : Log).settings.maxPollRecords := by decide
  obtain ⟨d, hsplit, hq, hr, hpost⟩ := sample_replays
  refine ⟨hroom, ?_⟩
  unfold sample at hsplit hpost ⊢
  obtain ⟨cs, hreply, -, htail⟩ := replay_then_tail
    (Endpoint.make_opened 0 {} .json "commands") hroom sampleMoves _ d _ true 0 _ hsplit hq hr
  obtain ⟨n, hposition, htells⟩ := htail hpost
  exact ⟨cs, n, hreply, hposition, htells⟩

/-- What a replay and the polls for commands since then bring need not be everything below the
offset that the reader will read next: a poll for records takes entries as well. -/
theorem polls_for_commands_miss_records :
    ¬ ∀ (now : Nat) (client client' : SharedLog) (topic : String) (e : Endpoint SharedLog),
      Endpoint.make now client topic = (.ok e, client') →
      1 ≤ client.log.settings.maxPollRecords →
      ∀ (moves : List Move) (pre : List Deed) (d : Deed) (post : List Deed) (timeout : Nat)
        (cs : List QueuedCommand), (run { endpoint := e } moves).deeds = pre ++ d :: post →
        d.request = .replayWithOffsets timeout → d.progress = .done (.ok (.commands cs)) →
        (∀ d' ∈ post, d'.startsReplay = false) →
          ∃ n, (run { endpoint := e } moves).endpoint.client.reader.position
              ⟨topic, Channel.commandPartition⟩ = some n ∧
            (run { endpoint := e } moves).endpoint.client.log.Tells client.schema
              ⟨topic, Channel.commandPartition⟩ n (cs ++ post.flatMap Deed.tailedCommands) := by
  intro h
  obtain ⟨d, hsplit, hq, hr, hpost⟩ := sample_replays
  unfold sample at hsplit hpost
  obtain ⟨n, hn, htells⟩ := h 0 _ _ _ _ (Endpoint.make_opened 0 {} .json "commands") (by decide)
    sampleMoves _ d _ 0 _ hsplit hq hr hpost
  -- the reader has passed three entries, and only two commands have been brought
  have hposition : (run { endpoint := .opened {} .json "commands" }
      sampleMoves).endpoint.client.reader.position ⟨"commands", Channel.commandPartition⟩ =
        some 3 := by
    decide +kernel
  have hthree : n = 3 := Option.some.inj (hn.symm.trans hposition)
  subst hthree
  have hcount := congrArg List.length htells.eq
  exact absurd hcount (by decide +kernel)

end Sample

end Traffic
end ReplicatedLog
