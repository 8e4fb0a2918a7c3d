import ReplicatedLog.Proofs.Channel.Cancelling
import ReplicatedLog.Proofs.Desk.Delivery

/-!
# The account of wakeups

A wakeup is pending from the time it comes until a call of the reader fails because of it.

* `Event.Woken`: a call has failed with a wakeup, and `Pending`: a wakeup has come since the last
  time that one did;
* `Event.Sound.flag` and `Leads.flag`: what an event and what events do to the flag of a reader,
  which is set as long as a wakeup is pending;
* `HeedsWakeups` is what is promised to those who wake a reader, and `run_heeds_wakeups`
  that it holds whatever is done.
-/

namespace ReplicatedLog
namespace Desk

variable {κ ν : Type} {schema : Schema κ ν} {P : Pace schema} {d : Desk P}

section Flags

open Reader

variable {e : Event κ ν} {es pre post : List (Event κ ν)} {r r' : Reader}

/-- A call of the reader has failed with a wakeup. -/
def Event.Woken (e : Event κ ν) : Prop :=
  e.answer = some (.polled (.error .wakeup)) ∨ e.answer = some (.ends (.error .wakeup))

/-- A call of the reader begins. -/
def Event.BeginsCall (e : Event κ ν) : Prop :=
  (∃ timeout, e.move = .poll timeout) ∨ ∃ ps, e.move = .endOffsets ps

/-- Events after which a wakeup is pending: one has come, and no call has failed with it since. -/
def Pending (es : List (Event κ ν)) : Prop :=
  ∃ (pre : List (Event κ ν)) (w : Event κ ν) (post : List (Event κ ν)),
    es = pre ++ w :: post ∧ w.move = .wake ∧ ∀ e ∈ post, ¬ e.Woken

theorem pending_cons_iff :
    Pending (e :: es) ↔ Pending es ∨ (e.move = .wake ∧ ∀ f ∈ es, ¬ f.Woken) := by
  constructor
  · rintro ⟨_ | ⟨g, pre⟩, w, post, hsplit, hw, hpost⟩
    · cases hsplit
      exact Or.inr ⟨hw, hpost⟩
    · cases hsplit
      exact Or.inl ⟨pre, w, post, rfl, hw, hpost⟩
  · rintro (⟨pre, w, post, rfl, hw, hpost⟩ | ⟨hw, hes⟩)
    · exact ⟨e :: pre, w, post, rfl, hw, hpost⟩
    · exact ⟨[], e, es, rfl, hw, hes⟩

/-- Asking for end offsets takes a pending wakeup, and fails with it. -/
theorem endOffsets_cases (log : Log) (ps : List Partition) (h : r.isClosed = false) :
    (r.isWoken = true ∧ r.endOffsets log ps = (.error .wakeup, { r with isWoken := false })) ∨
      (r.isWoken = false ∧ r.endOffsets log ps = (endOffsetsOf log ps, r)) := by
  rcases ensureUsable_of_open h with ⟨hw, hu⟩ | ⟨hw, hu⟩
  · exact Or.inl ⟨hw, by rw [endOffsets, hu]⟩
  · exact Or.inr ⟨hw, by rw [endOffsets, hu]⟩

/-- A step of a poll takes a pending wakeup if it fails with it, and leaves the flag otherwise. -/
theorem effect_takes {log : Log} {result : Option (Except LogError (Batch κ ν))}
    (h : r.Effect schema log result r') :
    r.TakesWakeup (result = some (.error .wakeup)) r' := by
  cases h with
  | waits => exact .of_left (by simp) rfl
  | brings hf full => exact .of_left (by simp) (fetch_isWoken hf)
  | nothing calm => exact .of_left (by simp) rfl
  | wakes woken => exact ⟨fun _ => ⟨woken, rfl⟩, fun hnot => absurd rfl hnot⟩
  | fails assigned unreadable =>
      refine .of_left ?_ rfl
      rintro h
      cases h
      exact unreadable.ne_wakeup rfl

theorem effect_full {log : Log} {b : Batch κ ν} (h : r.Effect schema log (some (.ok b)) r')
    (hw : r.isWoken = true) : b.isEmpty = false := by
  cases h with
  | brings hf full => exact full
  | nothing calm =>
      rw [hw] at calm
      cases calm

/-- A wakeup sets the flag of the reader.  Any other event takes it if it was a call that has failed
with a wakeup, and leaves it otherwise. -/
theorem Event.Sound.flag (h : e.Sound P) (ho : e.before.isClosed = false) :
    (e.move = .wake ∧ ¬ e.Woken ∧ e.after.isWoken = true) ∨
      (e.move ≠ .wake ∧ e.before.TakesWakeup e.Woken e.after) := by
  cases h with
  | @poll m task s now log r steps =>
      right
      constructor
      · rintro (rfl : m = .wake)
        exact steps
      · have heffect : r.Effect schema log _ _ := P.effect now log s ho
        exact (effect_takes heffect).congr (by simp [Woken])
  | @endOffsets ps now log r =>
      right
      constructor
      · simp
      · exact (endOffsets_takes log r ps).congr (by simp [Woken])
  | wake => exact Or.inl ⟨rfl, by simp [Woken], rfl⟩
  | @assign ps now log r =>
      right
      constructor
      · simp
      · exact .of_left (by simp [Woken]) (assign_isWoken r ps)
  | @seek ps now log r =>
      right
      constructor
      · simp
      · exact .of_left (by simp [Woken]) (seekToBeginning_isWoken r ps)

theorem Event.Sound.woken (h : e.Sound P) (ho : e.before.isClosed = false) (hw : e.Woken) :
    e.before.isWoken = true ∧ e.after.isWoken = false := by
  rcases h.flag ho with ⟨-, hnot, -⟩ | ⟨-, htakes⟩
  · exact absurd hw hnot
  · exact htakes.taken hw

/-- The flag is set while a wakeup is pending. -/
theorem Leads.flag (hs : ∀ e ∈ es, e.Sound P ∧ e.before.isClosed = false) (h : Leads r es r') :
    r'.isWoken = true ↔ Pending es ∨ (r.isWoken = true ∧ ∀ e ∈ es, ¬ e.Woken) := by
  induction es generalizing r with
  | nil =>
      cases h
      constructor
      · exact fun hw => Or.inr ⟨hw, fun e he => absurd he List.not_mem_nil⟩
      · rintro (⟨pre, w, post, hsplit, -⟩ | ⟨hw, -⟩)
        · simp at hsplit
        · exact hw
  | cons e es ih =>
      obtain ⟨rfl, hes⟩ := h
      obtain ⟨hsound, hopen⟩ := hs e List.mem_cons_self
      have hlater := ih (fun f hf => hs f (List.mem_cons_of_mem _ hf)) hes
      rw [hlater, pending_cons_iff, List.forall_mem_cons]
      rcases hsound.flag hopen with ⟨hm, hw, hafter⟩ | ⟨hm, htakes⟩
      · simp only [hm, hw, hafter, true_and, not_false_eq_true]
        constructor
        · rintro (hp | hnone)
          · exact Or.inl (Or.inl hp)
          · exact Or.inl (Or.inr hnone)
        · rintro ((hp | hnone) | ⟨-, hnone⟩)
          · exact Or.inl hp
          · exact Or.inr hnone
          · exact Or.inr hnone
      · by_cases hw : e.Woken
        · simp [hm, hw, (htakes.taken hw).2]
        · simp [hm, hw, htakes.left hw]

end Flags

section Promises

open Reader

variable {e f : Event κ ν} {es pre mid post : List (Event κ ν)} {r r' : Reader}

/-- An event that leaves the positions of the reader: it assigns nothing, seeks nothing, and brings
no batch. -/
structure Event.Rests (e : Event κ ν) : Prop where
  assigned : ∀ ps, e.move ≠ .assign ps
  sought : ∀ ps, e.move ≠ .seek ps
  brought : ∀ b, e.answer ≠ some (.polled (.ok b))

theorem Event.Sound.rests (h : e.Sound P) (ho : e.before.isClosed = false) (hr : e.Rests) :
    e.after.positions = e.before.positions := by
  cases h with
  | @poll m task s now log r steps =>
      have heffect : r.Effect schema log _ _ := P.effect now log s ho
      have hnone : ∀ b, (P.go now log r s).1.result ≠ some (.ok b) := fun b hb =>
        hr.brought b (congrArg (Option.map Answer.polled) hb)
      change (P.go now log r s).2.positions = r.positions
      generalize (P.go now log r s).1.result = result at heffect hnone
      generalize (P.go now log r s).2 = r' at heffect ⊢
      cases heffect with
      | waits => rfl
      | brings hf full => exact absurd rfl (hnone _)
      | nothing calm => rfl
      | wakes woken => rfl
      | fails assigned unreadable => rfl
  | endOffsets => exact endOffsets_positions _ _ _
  | wake => rfl
  | assign => exact absurd rfl (hr.assigned _)
  | seek => exact absurd rfl (hr.sought _)

theorem Leads.rests (hs : ∀ e ∈ es, e.Sound P ∧ e.before.isClosed = false)
    (hr : ∀ e ∈ es, e.Rests) (h : Leads r es r') : r'.positions = r.positions := by
  induction es generalizing r with
  | nil =>
      cases h
      rfl
  | cons e es ih =>
      obtain ⟨rfl, hes⟩ := h
      obtain ⟨hsound, hopen⟩ := hs e List.mem_cons_self
      have hlater := ih (fun f hf => hs f (List.mem_cons_of_mem _ hf))
        (fun f hf => hr f (List.mem_cons_of_mem _ hf)) hes
      exact hlater.trans (hsound.rests hopen (hr e List.mem_cons_self))

/-- What has been answered was neither an assignment nor a seek. -/
theorem Event.Sound.answers (h : e.Sound P) (ha : e.answer ≠ none) :
    (∀ ps, e.move ≠ .assign ps) ∧ ∀ ps, e.move ≠ .seek ps := by
  cases h with
  | @poll m task s now log r steps =>
      constructor
      · rintro ps (rfl : m = _)
        exact steps
      · rintro ps (rfl : m = _)
        exact steps
  | endOffsets =>
      constructor
      · nofun
      · nofun
  | wake => exact absurd rfl ha
  | assign => exact absurd rfl ha
  | seek => exact absurd rfl ha

/-- A call that fails with a wakeup leaves the positions. -/
theorem Event.Sound.woken_rests (h : e.Sound P) (hw : e.Woken) : e.Rests := by
  have hcall : e.answer ≠ none ∧ ∀ b, e.answer ≠ some (.polled (.ok b)) := by
    rcases hw with hw | hw
    · rw [hw]
      exact ⟨nofun, nofun⟩
    · rw [hw]
      exact ⟨nofun, nofun⟩
  obtain ⟨hassigned, hsought⟩ := h.answers hcall.1
  exact ⟨hassigned, hsought, hcall.2⟩

/-- A call that begins while the flag is set fails with a wakeup. -/
theorem Event.Sound.heeds (h : e.Sound P) (ho : e.before.isClosed = false)
    (hw : e.before.isWoken = true) (hc : e.BeginsCall) : e.Woken := by
  rcases hc with ⟨timeout, hm⟩ | ⟨ps, hm⟩
  · cases h with
    | @poll m task s now log r steps =>
        obtain rfl : m = .poll timeout := hm
        obtain rfl : s = P.start timeout := steps
        left
        change (P.go now log r (P.start timeout)).1.result.map Answer.polled = _
        rw [P.heeds now log timeout ho hw]
        rfl
    | _ => cases hm
  · cases h with
    | @poll m task s now log r steps =>
        obtain rfl : m = .endOffsets ps := hm
        exact steps.elim
    | @endOffsets qs now log r =>
        rcases endOffsets_cases log qs ho with ⟨-, he⟩ | ⟨hcalm, -⟩
        · right
          change some (Answer.ends (r.endOffsets log qs).1) = _
          rw [he]
        · rw [show r.isWoken = true from hw] at hcalm
          cases hcalm
    | _ => cases hm

/-- What is promised to those who wake a reader. -/
structure HeedsWakeups (d : Desk P) : Prop where
  /-- Before a call fails with a wakeup there has been one. -/
  first : ∀ (pre : List (Event κ ν)) (e : Event κ ν) (post : List (Event κ ν)),
    d.events = pre ++ e :: post → e.Woken → ∃ w ∈ pre, w.move = .wake
  /-- Between two calls that do so there has been another one. -/
  between : ∀ (pre : List (Event κ ν)) (e : Event κ ν) (mid : List (Event κ ν)) (f : Event κ ν)
    (post : List (Event κ ν)), d.events = pre ++ e :: (mid ++ f :: post) → e.Woken → f.Woken →
      ∃ w ∈ mid, w.move = .wake
  /-- A call that begins while a wakeup is pending fails with it. -/
  calls : ∀ (pre : List (Event κ ν)) (e : Event κ ν) (post : List (Event κ ν)),
    d.events = pre ++ e :: post → e.BeginsCall → Pending pre → e.Woken
  /-- While a wakeup is pending, no poll brings an empty batch and no end offsets are told. -/
  quiet : ∀ (pre : List (Event κ ν)) (e : Event κ ν) (post : List (Event κ ν)),
    d.events = pre ++ e :: post → Pending pre →
      (∀ b, e.answer = some (.polled (.ok b)) → b.isEmpty = false) ∧
        ∀ ends, e.answer ≠ some (.ends (.ok ends))
  /-- A poll that brings records leaves a pending wakeup to the next call. -/
  spares : ∀ (pre : List (Event κ ν)) (e : Event κ ν) (mid : List (Event κ ν)) (f : Event κ ν)
    (post : List (Event κ ν)) (b : Batch κ ν), d.events = pre ++ e :: (mid ++ f :: post) →
      e.answer = some (.polled (.ok b)) → Pending pre → (∀ g ∈ mid, ¬ g.Woken) → f.BeginsCall →
        f.Woken
  /-- A call that fails with a wakeup moves no position. -/
  rests : ∀ e ∈ d.events, e.Woken → e.after.positions = e.before.positions
  /-- As long as a poll goes on, it changes nothing. -/
  waits : ∀ e ∈ d.events, ∀ task, e.task = some task → e.answer = none → e.after = e.before
  /-- The next poll that succeeds starts where the failed call would have. -/
  resumes : ∀ (pre : List (Event κ ν)) (e : Event κ ν) (mid : List (Event κ ν)) (f : Event κ ν)
    (post : List (Event κ ν)) (b : Batch κ ν), d.events = pre ++ e :: (mid ++ f :: post) →
      e.Woken → (∀ g ∈ mid, g.Rests) → f.answer = some (.polled (.ok b)) →
        Advances e.before.positions f.after.positions b

/-- A reader that is new is woken just when a wakeup is pending. -/
theorem Sound.isWoken_iff (h : d.Sound) (hsplit : d.events = pre ++ e :: post) :
    e.before.isWoken = true ↔ Pending pre := by
  rw [(h.split hsplit).1.flag (h.sound_split hsplit).1]
  constructor
  · rintro (hp | ⟨hw, -⟩)
    · exact hp
    · cases hw
  · exact Or.inl

theorem Pending.exists_wake (h : Pending es) : ∃ w ∈ es, w.move = .wake := by
  obtain ⟨pre, w, post, rfl, hw, -⟩ := h
  exact ⟨w, List.mem_append_right _ List.mem_cons_self, hw⟩

theorem Pending.append (h : Pending pre) (hes : ∀ e ∈ es, ¬ e.Woken) : Pending (pre ++ es) := by
  obtain ⟨a, w, b, rfl, hw, hb⟩ := h
  refine ⟨a, w, b ++ es, by simp, hw, ?_⟩
  rintro e he
  rcases List.mem_append.1 he with he | he
  · exact hb e he
  · exact hes e he

theorem Sound.pending_between (h : d.Sound) (hsplit : d.events = pre ++ e :: (mid ++ f :: post))
    (he : e.Woken) (hf : f.Woken) : Pending mid := by
  obtain ⟨hsound, hopen⟩ := (h.sound_split hsplit).2.1
  have hsplit' : d.events = (pre ++ e :: mid) ++ f :: post := by simpa using hsplit
  obtain ⟨hmid, ⟨hsound', hopen'⟩, -⟩ := h.sound_split hsplit'
  have hflag := (h.between hsplit).flag fun g hg => hmid g (by simp [hg])
  rcases hflag.1 (hsound'.woken hopen' hf).1 with hp | ⟨hw, -⟩
  · exact hp
  · rw [(hsound.woken hopen he).2] at hw
    cases hw

/-- While the flag is set, nothing else than records is brought. -/
theorem Event.Sound.quiet (h : e.Sound P) (ho : e.before.isClosed = false)
    (hw : e.before.isWoken = true) :
    (∀ b, e.answer = some (.polled (.ok b)) → b.isEmpty = false) ∧
      ∀ ends, e.answer ≠ some (.ends (.ok ends)) := by
  constructor
  · rintro b hb
    exact effect_full (h.polled ho hb).1 hw
  · rintro ends hends
    cases h with
    | poll steps =>
        obtain ⟨result, -, heq⟩ := Option.map_eq_some_iff.1 hends
        cases heq
    | @endOffsets qs now log r =>
        rcases endOffsets_cases log qs ho with ⟨-, he⟩ | ⟨hcalm, -⟩
        · change some (Answer.ends (r.endOffsets log qs).1) = _ at hends
          rw [he] at hends
          cases hends
        · rw [show r.isWoken = true from hw] at hcalm
          cases hcalm
    | _ => cases hends

/-- A step of a poll that goes on changes nothing. -/
theorem Event.Sound.waits (h : e.Sound P) (ho : e.before.isClosed = false) {task : TaskId}
    (ht : e.task = some task) (ha : e.answer = none) : e.after = e.before := by
  cases h with
  | @poll m task s now log r steps =>
      have heffect : r.Effect schema log _ _ := P.effect now log s ho
      change (P.go now log r s).2 = r
      rw [Option.map_eq_none_iff.1 ha] at heffect
      generalize (P.go now log r s).2 = r' at heffect ⊢
      cases heffect with
      | waits => rfl
  | _ => cases ht

theorem Sound.heedsWakeups (h : d.Sound) : d.HeedsWakeups := by
  constructor
  · rintro pre e post hsplit hw
    obtain ⟨hsound, hopen⟩ := (h.sound_split hsplit).2.1
    exact ((h.isWoken_iff hsplit).1 (hsound.woken hopen hw).1).exists_wake
  · rintro pre e mid f post hsplit he hf
    exact (h.pending_between hsplit he hf).exists_wake
  · rintro pre e post hsplit hc hp
    obtain ⟨hsound, hopen⟩ := (h.sound_split hsplit).2.1
    exact hsound.heeds hopen ((h.isWoken_iff hsplit).2 hp) hc
  · rintro pre e post hsplit hp
    obtain ⟨hsound, hopen⟩ := (h.sound_split hsplit).2.1
    exact hsound.quiet hopen ((h.isWoken_iff hsplit).2 hp)
  · rintro pre e mid f post b hsplit hb hp hmid hc
    have hsplit' : d.events = (pre ++ e :: mid) ++ f :: post := by simpa using hsplit
    have hstill : Pending (pre ++ e :: mid) := by
      refine hp.append (List.forall_mem_cons.2 ⟨?_, hmid⟩)
      rintro (hw | hw)
      · rw [hb] at hw
        cases hw
      · rw [hb] at hw
        cases hw
    obtain ⟨hsound, hopen⟩ := (h.sound_split hsplit').2.1
    exact hsound.heeds hopen ((h.isWoken_iff hsplit').2 hstill) hc
  · rintro e he hw
    obtain ⟨hsound, hopen⟩ := h.events e he
    exact hsound.rests hopen (hsound.woken_rests hw)
  · rintro e he task ht ha
    obtain ⟨hsound, hopen⟩ := h.events e he
    exact hsound.waits hopen ht ha
  · rintro pre e mid f post b hsplit hw hmid hb
    obtain ⟨hsound, hopen⟩ := (h.sound_split hsplit).2.1
    have hsplit' : d.events = (pre ++ e :: mid) ++ f :: post := by simpa using hsplit
    obtain ⟨hpre, ⟨hsound', hopen'⟩, -⟩ := h.sound_split hsplit'
    have hrests := (h.between hsplit).rests (fun g hg => hpre g (by simp [hg])) hmid
    rw [← hsound.rests hopen (hsound.woken_rests hw), ← hrests]
    exact (effect_advances (hsound'.polled hopen' hb).1).2.1

/-- Whatever is done with a new reader that is not closed, at whatever grain, no wakeup is lost and
none is invented; through a channel, an interruption is a wakeup, a call of the reading side is
cancelled just when the reader fails with one, and no two are cancelled by one interruption. -/
theorem run_heeds_wakeups (g : Grain) (schema : Schema κ ν) (log : Log) (moves : List Move) :
    ((new (g.pace schema) log).run moves).HeedsWakeups ∧
      (∀ (now : Nat) (e : Endpoint SharedLog),
        (e.interrupt now).client.reader = e.client.reader.wake) ∧
      (∀ (now : Nat) (me : TaskId) (e : Endpoint SharedLog) (c : Channel.Call SharedLog)
        (u : Channel.Use) (reason : String), c.Serves (.use u) →
          ((c.step now me e).1 = .done (.error (.waitCancelled reason)) ↔
            c.readerFailure now me e = some .wakeup ∧ reason = LogError.wakeup.message)) ∧
      ∀ (log : Log) (schema : CommandSchema) (topic : String) (moves : List Traffic.Move),
        (({ endpoint := .opened log schema topic } : Traffic).run moves).Cancels 0 := by
  refine ⟨(run_sound (g.pace schema) log moves).heedsWakeups, fun now e => rfl, ?_, ?_⟩
  · exact fun now me e c u reason hs => Channel.Call.step_cancelled_iff hs reason
  · rintro log schema topic moves
    refine Traffic.run_cancels ?_ rfl rfl moves
    rintro id k hk
    cases hk

/-- An answer in brief: how many records or end offsets there are. -/
def Answer.brief : Answer κ ν → Except LogError Nat
  | polled result => result.map Batch.size
  | ends result => result.map SortedMap.size

/-- A wakeup while a poll is about to bring a record, and another one while a poll has found
nothing. -/
def sampleWakeups : List Move :=
  [.onLog (.append "a" (some 0) ⟨[97], some [98]⟩), .assign [⟨"a", 0⟩], .poll 5, .wake, .step 0,
    .poll 5, .poll 5, .step 2, .wake, .step 2, .endOffsets [⟨"a", 0⟩]]

/-- In the sample the first wakeup is left to the second poll, and the other one ends the third. -/
theorem run_heeds_wakeups_sample :
    let d := (new (Grain.byLooks.pace .texts) {}).run sampleWakeups
    d.HeedsWakeups ∧ d.events.map (fun e => e.answer.map Answer.brief) =
      [none, none, none, some (.ok 1), some (.error .wakeup), none, none, none,
        some (.error .wakeup), some (.ok 1)] :=
  ⟨(run_heeds_wakeups .byLooks .texts {} sampleWakeups).1, rfl⟩

end Promises

end Desk
end ReplicatedLog
