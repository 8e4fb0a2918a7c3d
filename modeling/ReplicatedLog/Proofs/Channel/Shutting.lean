import ReplicatedLog.Proofs.Desk.Pace

/-!
# Who is in line when the channel shuts down

A shutdown joins the line for the reading handle like any other request, and closes
the handle when its turn has come.

* `Call.step_opened`: nothing but that closes the reader;
* `Traffic.Vacant`: a shutdown in line is the last one there, since nobody joins the
  line after it; so the line is empty once the reader is closed;
* `Vacant.perform` and `run_vacant`: whatever happens on a channel keeps it so.
-/

namespace ReplicatedLog

open Channel

namespace Channel.Call

section Closing

variable {now : Nat} {me other : TaskId} {e : Endpoint SharedLog} {c : Call SharedLog}

/-- Only a shutdown closes the reader. -/
theorem step_opened (hopened : e.client.reader.isClosed = false) (hc : ¬ c.ClosesReader) :
    (c.step now me e).2.client.reader.isClosed = false := by
  have hasked : ∀ ps, (askEnd now me e ps).2.client.reader.isClosed = false := fun ps =>
    Reader.endOffsets_isClosed.trans hopened
  cases c with
  | entered r =>
      simp only [step, enter]
      split
      · split <;> exact hopened
      · split <;> exact hopened
  | sent w interrupts =>
      rw [show (Call.step now me e (.sent w interrupts)).2 = e from
        awaitAck_endpoint now e w interrupts]
      exact hopened
  | asking ps => exact hasked ps
  | closing handle closing =>
      cases handle with
      | reader => exact absurd trivial hc
      | writer => exact hopened
  | inLine u =>
      simp only [step]
      split
      · cases u with
        | close => exact absurd trivial hc
        | endOffset => exact hasked [e.channel.partition]
        | poll purpose timeout =>
            cases purpose with
            | batch => exact hopened
            | commands => exact hopened
            | replay withOffsets =>
                have hsought : (e.client.reader.seekToBeginning
                    [e.channel.partition]).2.isClosed = false :=
                  Reader.seekToBeginning_isClosed.trans hopened
                simp only [useReader, rewind]
                split <;> exact hsought
      · exact hopened
  | polling purpose timeout restored p =>
      have hpolled := ((Pace.whole e.client.schema).effect now e.client.log p hopened).isClosed
      rcases hstep : e.client.reader.stepPoll e.client.schema now e.client.log p with ⟨progress, r⟩
      have hafter : r.isClosed = false := by
        rw [show (Pace.whole e.client.schema).go now e.client.log e.client.reader p = (progress, r)
          from hstep] at hpolled
        exact hpolled.trans hopened
      rw [step_polling hstep]
      cases progress with
      | waiting p' => exact hafter
      | done result =>
          cases result with
          | error err => exact hafter
          | ok b =>
              dsimp only
              rw [takeBatch_client]
              exact hafter

/-- A call that is under way and not about to close the reading handle does not come to be so. -/
theorem step_not_closesReader {c' : Call SharedLog} (hunder : ∀ r, c ≠ .entered r)
    (hc : ¬ c.ClosesReader) (h : (c.step now me e).1 = .waiting c') : ¬ c'.ClosesReader := by
  intro hcloses
  have hserves : c'.Serves .shutDown := by
    cases c' with
    | inLine u =>
        cases u with
        | close => rfl
        | _ => cases hcloses
    | closing handle closing => rfl
    | _ => cases hcloses
  cases c with
  | entered r => exact hunder r rfl
  | sent w interrupts =>
      simp only [step, awaitAck] at h
      split at h
      · cases h
      · cases h
      · split at h
        · cases h
        · cases h
          cases hcloses
  | inLine u =>
      have hwants : (Call.inLine u : Call SharedLog).Serves (.use u) := rfl
      cases (step_serves hwants h).eq_shutDown hserves
      exact hc trivial
  | polling purpose timeout restored p =>
      have hpolls : (Call.polling purpose timeout restored p : Call SharedLog).Serves
          (.use (.poll purpose timeout)) := rfl
      cases (step_serves hpolls h).eq_shutDown hserves
  | asking ps =>
      have hasks : (Call.asking ps : Call SharedLog).Serves (.use .endOffset) := rfl
      cases (step_serves hasks h).eq_shutDown hserves
  | closing handle closing =>
      cases handle with
      | reader => exact hc trivial
      | writer => cases h

/-- Another one that leaves the line does not change who is the last one there. -/
theorem getLast?_erase_of_ne {line : List TaskId} (h : line.getLast? = some other)
    (hne : other ≠ me) : (line.erase me).getLast? = some other := by
  obtain ⟨front, rfl⟩ := List.getLast?_eq_some_iff.1 h
  rw [List.erase_append]
  split
  · rw [List.getLast?_concat]
  · have hlast : [other].erase me = [other] := List.erase_of_not_mem (by simp [hne.symm])
    rw [hlast, List.getLast?_concat]

end Closing

end Channel.Call

namespace Traffic

section Vacancy

variable {t : Traffic} {task id : TaskId} {k : Ticket}

/-- A shutdown in line is the last one there, and once the reader is closed the line is empty. -/
structure Vacant (t : Traffic) : Prop where
  last : ∀ id k, t.tickets id = some k → k.call.ClosesReader →
    t.endpoint.channel.isShutDown = true ∧ t.endpoint.channel.line.getLast? = some id
  closed : t.endpoint.client.reader.isClosed = true →
    t.endpoint.channel.isShutDown = true ∧ t.endpoint.channel.line = []

/-- The reader of a task in line is open. -/
theorem Vacant.opened (h : t.Vacant) (hhead : t.endpoint.channel.line.head? = some task) :
    t.endpoint.client.reader.isClosed = false := by
  cases hclosed : t.endpoint.client.reader.isClosed with
  | false => rfl
  | true =>
      rw [(h.closed hclosed).2] at hhead
      cases hhead

/-- A step that leaves the line as it is, or takes its own task out of it. -/
theorem Vacant.of_line (h : t.Vacant) {now : Nat}
    (hline : (t.advance task now k).endpoint.channel.line = t.endpoint.channel.line ∨
      (t.advance task now k).endpoint.channel.line = t.endpoint.channel.line.erase task)
    (hshut : (t.advance task now k).endpoint.channel.isShutDown = t.endpoint.channel.isShutDown)
    (hopened : (t.advance task now k).endpoint.client.reader.isClosed = true →
      t.endpoint.client.reader.isClosed = true)
    (hown : ∀ c, (k.call.step now task t.endpoint).1 = .waiting c → ¬ c.ClosesReader) :
    (t.advance task now k).Vacant := by
  refine ⟨fun id k' hk' hc => ?_, fun hclosed => ?_⟩
  · rcases advance_tickets hk' with ⟨-, -, hw⟩ | ⟨hne, hold⟩
    · exact absurd hc (hown _ hw)
    · obtain ⟨hdown, hlast⟩ := h.last id k' hold hc
      refine ⟨hshut.trans hdown, ?_⟩
      rcases hline with hline | hline
      · exact hline ▸ hlast
      · rw [hline]
        exact Call.getLast?_erase_of_ne hlast hne
  · obtain ⟨hdown, hempty⟩ := h.closed (hopened hclosed)
    refine ⟨hshut.trans hdown, ?_⟩
    rcases hline with hline | hline
    · exact hline.trans hempty
    · rw [hline, hempty]
      rfl

/-- What a step of a call that is under way makes of the line. -/
theorem line_advance (ho : t.Ordered) (hk : t.tickets task = some k) (now : Nat)
    (hc : ∀ r, k.call ≠ .entered r) :
    (t.advance task now k).endpoint.channel.line = t.endpoint.channel.line ∨
      (t.advance task now k).endpoint.channel.line = t.endpoint.channel.line.erase task := by
  have hstands := ho.stands task k hk
  have hstep := (Call.step_lined now ho.nodup hstands).1
  change (k.call.step now task t.endpoint).2.channel.line = _ ∨
    (k.call.step now task t.endpoint).2.channel.line = _
  cases hcall : k.call with
  | entered r => exact absurd hcall (hc r)
  | sent w interrupts =>
      rw [show (Call.step now task t.endpoint (.sent w interrupts)).2 = t.endpoint from
        Call.awaitAck_endpoint now t.endpoint w interrupts]
      exact Or.inl rfl
  | inLine u =>
      rw [hcall] at hstands hstep
      exact hstep.of_mem hstands
  | polling purpose timeout restored p =>
      rw [hcall] at hstands hstep
      exact hstep.of_mem (List.mem_of_head? hstands)
  | asking ps =>
      rw [hcall] at hstands hstep
      exact hstep.of_mem (List.mem_of_head? hstands)
  | closing h x =>
      rw [hcall] at hstands hstep
      cases h with
      | reader => exact hstep.of_mem (List.mem_of_head? hstands)
      | writer => exact Or.inl rfl

/-- The shutdown that closes the reader is alone in line. -/
theorem Vacant.advance_closing (h : t.Vacant) (ho : t.Ordered) (hk : t.tickets task = some k)
    (hclose : k.call.ClosesReader) (now : Nat) : (t.advance task now k).Vacant := by
  obtain ⟨hdown, hlast⟩ := h.last task k hk hclose
  rcases hclose.step_eq now (ho.stands task k hk) with ⟨hhead, closing, hcloses⟩ | hwaits
  · have hfront : t.endpoint.channel.line.head? = some task := by
      simpa [hasReader] using hhead
    have halone : t.endpoint.channel.line = [task] := by
      have hnodup := ho.nodup
      obtain ⟨front, hline⟩ := List.getLast?_eq_some_iff.1 hlast
      rw [hline] at hfront hnodup ⊢
      cases front with
      | nil => rfl
      | cons a front =>
          cases hfront
          simp at hnodup
    have hstep : (t.advance task now k).endpoint =
        ({ t.endpoint with client := t.endpoint.client.close .reader } :
          Endpoint SharedLog).leave task := congrArg Prod.snd hcloses
    have hempty : (t.advance task now k).endpoint.channel.line = [] := by
      rw [hstep]
      change t.endpoint.channel.line.erase task = []
      rw [halone, List.erase_cons_head]
    refine ⟨fun id k' hk' hc => ?_, fun _ => ⟨by rw [hstep]; exact hdown, hempty⟩⟩
    rcases advance_tickets hk' with ⟨-, -, hw⟩ | ⟨hne, hold⟩
    · rw [hcloses] at hw
      rw [← Progress.waiting.inj hw] at hc
      cases hc
    · rw [(h.last id k' hold hc).2] at hlast
      exact absurd (Option.some.inj hlast) hne
  · have hstill : (t.advance task now k).endpoint = t.endpoint := congrArg Prod.snd hwaits
    refine ⟨fun id k' hk' hc => ?_, fun hclosed => ?_⟩
    · rw [hstill]
      rcases advance_tickets hk' with ⟨rfl, -, -⟩ | ⟨-, hold⟩
      · exact ⟨hdown, hlast⟩
      · exact h.last id k' hold hc
    · rw [hstill] at hclosed ⊢
      exact h.closed hclosed

/-- A step of a task keeps it so. -/
theorem Vacant.advance (h : t.Vacant) (ho : t.Ordered) (hk : t.tickets task = some k) (now : Nat) :
    (t.advance task now k).Vacant := by
  by_cases hentered : ∃ r, k.call = .entered r
  · obtain ⟨r, hcall⟩ := hentered
    cases hdown : t.endpoint.channel.isShutDown with
    | true =>
        have hstep : (k.call.step now task t.endpoint).2 = t.endpoint ∧
            ∀ c, (k.call.step now task t.endpoint).1 ≠ .waiting c := by
          rw [hcall]
          simp only [Call.step, Call.enter, hdown, if_true]
          split <;> exact ⟨rfl, by simp⟩
        have hstill : (t.advance task now k).endpoint = t.endpoint := hstep.1
        refine h.of_line (Or.inl (by rw [hstill])) (by rw [hstill]) (by rw [hstill]; exact id) ?_
        exact fun c hc => absurd hc (hstep.2 c)
    | false =>
        -- the channel is open, so that neither is the reader closed nor a shutdown in line
        have hopened : t.endpoint.client.reader.isClosed = false := by
          cases hclosed : t.endpoint.client.reader.isClosed with
          | false => rfl
          | true => rw [← hdown, (h.closed hclosed).1]
        have hafter : (t.advance task now k).endpoint.client.reader.isClosed = false :=
          Call.step_opened hopened fun hc => by
            rw [hcall] at hc
            cases hc
        refine ⟨fun id k' hk' hc => ?_, fun hclosed => ?_⟩
        · rcases advance_tickets hk' with ⟨rfl, -, hw⟩ | ⟨-, hold⟩
          · rw [hcall] at hw
            change (k.call.step now id t.endpoint).2.channel.isShutDown = true ∧
              (k.call.step now id t.endpoint).2.channel.line.getLast? = some id
            rw [hcall]
            simp only [Call.step, Call.enter, hdown, Bool.false_eq_true, if_false] at hw ⊢
            cases r with
            | send command c =>
                rw [← Progress.waiting.inj hw] at hc
                cases hc
            | use u =>
                rw [← Progress.waiting.inj hw] at hc
                cases u with
                | close => exact ⟨by simp [joinLine], by simp [joinLine]⟩
                | _ => cases hc
          · rw [(h.last id k' hold hc).1] at hdown
            cases hdown
        · rw [hafter] at hclosed
          cases hclosed
  · have hunder : ∀ r, k.call ≠ .entered r := fun r hr => hentered ⟨r, hr⟩
    have hline := line_advance ho hk now hunder
    have hshut : (t.advance task now k).endpoint.channel.isShutDown =
        t.endpoint.channel.isShutDown :=
      (Call.step_frame now task t.endpoint hunder).isShutDown
    by_cases hclose : k.call.ClosesReader
    · exact h.advance_closing ho hk hclose now
    · refine h.of_line hline hshut ?_ ?_
      · intro hclosed
        cases hopened : t.endpoint.client.reader.isClosed with
        | true => rfl
        | false =>
            rw [show (t.advance task now k).endpoint.client.reader.isClosed = false from
              Call.step_opened hopened hclose] at hclosed
            cases hclosed
      · exact fun c hc => Call.step_not_closesReader hunder hclose hc

/-- Every move keeps it so. -/
theorem Vacant.perform (h : t.Vacant) (ho : t.Ordered) (m : Move) : (t.perform m).Vacant := by
  cases m with
  | enter r =>
      refine ⟨fun id k hk hc => ?_, h.closed⟩
      rcases put_cases hk with ⟨-, hnew⟩ | ⟨-, hold⟩
      · cases hnew
        cases hc
      · exact h.last id k hold hc
  | interrupt now => exact ⟨h.last, h.closed⟩
  | onLog op => exact ⟨h.last, h.closed⟩
  | step task now =>
      simp only [Traffic.perform]
      split
      next k hk => exact h.advance ho hk now
      next => exact h
  | abandon task =>
      simp only [Traffic.perform]
      split
      next k hk =>
        refine ⟨fun id k' hk' hc => ?_, fun hclosed => ?_⟩
        · rcases put_cases hk' with ⟨-, hnew⟩ | ⟨hne, hold⟩
          · cases hnew
          · obtain ⟨hdown, hlast⟩ := h.last id k' hold hc
            exact ⟨hdown, Call.getLast?_erase_of_ne hlast hne⟩
        · obtain ⟨hdown, hempty⟩ := h.closed hclosed
          refine ⟨hdown, ?_⟩
          change t.endpoint.channel.line.erase task = []
          rw [hempty]
          rfl
      next => exact h

theorem run_vacant (h : t.Vacant) (ho : t.Ordered) (moves : List Move) :
    (t.run moves).Vacant :=
  (run_induction (P := fun t => t.Vacant ∧ t.Ordered) ⟨h, ho⟩
    (fun _ m h => ⟨h.1.perform h.2 m, h.2.perform m⟩) moves).1

/-- A new channel has an open reader. -/
theorem vacant_of_make {now : Nat} {client client' : SharedLog} {topic : String}
    {e : Endpoint SharedLog} (h : Endpoint.make now client topic = (.ok e, client')) :
    Vacant { endpoint := e } := by
  have hopened : e.client.reader.isClosed = false := by
    unfold Endpoint.make at h
    dsimp only [Client.assign, Reader.assign] at h
    split at h
    · cases h
    next heq =>
      cases h
      split at heq
      · cases heq
      next hclosed =>
        cases heq
        exact Bool.eq_false_iff.2 hclosed
  refine ⟨fun id k hk => ?_, fun hclosed => ?_⟩
  · cases hk
  · rw [show e.client.reader.isClosed = true from hclosed] at hopened
    cases hopened

end Vacancy

end Traffic
end ReplicatedLog
