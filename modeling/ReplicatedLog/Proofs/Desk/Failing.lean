import ReplicatedLog.Proofs.Desk.Pace

/-!
# Polls that fail

A poll that fails has consumed nothing: whatever it has read and decoded before the
failure, it has moved no position.  So the failure is found again by the next poll, and
a reader that gives the failing partition up goes on with the others from where it was.

* `Reader.Setting` is a reader with its log at some time, and `Reader.Proceeds` a poll from
  its first step to its last, with anything in between;
* `Reader.Ends`: how a step can end a poll, and what it makes of the reader;
* `Proceeds.keeps`: no step of a poll that fails moves a position;
* `Reader.Polls`: polls one after the other, and `Polls.continues`: what they bring of a
  partition continues from its position;
* `Reader.Repeats` and `Reader.Resumes`: the failure is found again, and what a reader does
  that has been given other partitions;
* `failed_poll_consumes_nothing`: all of it.
-/

namespace ReplicatedLog
namespace Reader

variable {κ ν : Type} {schema : Schema κ ν} {log : Log} {r r' : Reader} {now : Nat}
  {result : Except LogError (Batch κ ν)} {err : LogError} {b : Batch κ ν}
  {p : Partition} {n : Nat}

section Steps

/-- How a step can end a poll. -/
inductive Ends (schema : Schema κ ν) (log : Log) (r : Reader) :
    Except LogError (Batch κ ν) → Reader → Prop
  | closed (shut : r.isClosed = true) : Ends schema log r (.error .closed) r
  | woken (woken : r.isWoken = true) :
      Ends schema log r (.error .wakeup) { r with isWoken := false }
  | failed {err : LogError} {p : Partition} (assigned : p ∈ r.assignment)
      (unreadable : Unreadable schema log p err) (fetched : r.fetch schema log = (.error err, r)) :
      Ends schema log r (.error err) r
  | fetched {b : Batch κ ν} {r' : Reader} (fetched : r.fetch schema log = (.ok b, r')) :
      Ends schema log r (.ok b) r'

/-- A poll that fails leaves the positions; it was woken, or the reader is closed, or the fetch has
failed at a partition. -/
theorem Ends.of_error (h : Ends schema log r (.error err) r') :
    r'.positions = r.positions ∧
      (err = .wakeup ∨ err = .closed ∨
        (∃ p ∈ r.assignment, Unreadable schema log p err) ∧
          r.fetch schema log = (.error err, r)) := by
  cases h with
  | closed shut => exact ⟨rfl, Or.inr (Or.inl rfl)⟩
  | woken woken => exact ⟨rfl, Or.inl rfl⟩
  | failed assigned unreadable fetched =>
      exact ⟨rfl, Or.inr (Or.inr ⟨⟨_, assigned, unreadable⟩, fetched⟩)⟩

theorem Ends.of_ok (h : Ends schema log r (.ok b) r') :
    Advances r.positions r'.positions b ∧ Shows schema log b := by
  cases h with
  | fetched hf => exact ⟨(fetch_advances hf).2, fetch_shows hf⟩

/-- A reader that cannot be used ends a poll. -/
theorem Ends.of_refused (hu : r.ensureUsable = (.error err, r')) :
    Ends schema log r (.error err) r' := by
  rcases ensureUsable_cases r with ⟨hclosed, h⟩ | ⟨-, hwoken, h⟩ | ⟨-, -, h⟩
  · rw [hu] at h
    cases h
    exact .closed hclosed
  · rw [hu] at h
    cases h
    exact .woken hwoken
  · rw [hu] at h
    cases h

/-- An attempt goes on and leaves the reader as it is, or ends the poll. -/
theorem attempt_ends (schema : Schema κ ν) (now : Nat) (log : Log) (r : Reader) (deadline : Nat) :
    (∃ poll, attempt schema now log r deadline = (.waiting poll, r)) ∨
      ∃ result r', attempt schema now log r deadline = (.done result, r') ∧
        Ends schema log r result r' := by
  have hends := attempt_attempts schema now log r deadline
  generalize attempt schema now log r deadline = outcome at hends ⊢
  cases hends with
  | fails hf =>
      obtain ⟨⟨p, hp, hunreadable⟩, rfl⟩ := fetch_fails hf
      exact Or.inr ⟨_, _, rfl, .failed hp hunreadable hf⟩
  | brings hf hsome => exact Or.inr ⟨_, _, rfl, .fetched hf⟩
  | refuses hf hnone hu =>
      obtain rfl := fetch_nothing hf hnone
      exact Or.inr ⟨_, _, rfl, .of_refused hu⟩
  | expires hf hnone hu hdue => exact Or.inr ⟨_, _, rfl, .fetched hf⟩
  | waits hf hnone hu hearly =>
      obtain rfl := fetch_nothing hf hnone
      exact Or.inl ⟨_, rfl⟩

/-- A step of a poll goes on and leaves the reader as it is, or ends the poll. -/
theorem stepPoll_ends (schema : Schema κ ν) (now : Nat) (log : Log) (r : Reader) (poll : Poll) :
    (∃ poll', r.stepPoll schema now log poll = (.waiting poll', r)) ∨
      ∃ result r', r.stepPoll schema now log poll = (.done result, r') ∧
        Ends schema log r result r' := by
  rcases stepPoll_cases schema now r poll with ⟨err, r', hu, hstep⟩ | ⟨deadline, hstep⟩
  · exact Or.inr ⟨_, _, hstep log, .of_refused hu⟩
  · rw [hstep]
    exact attempt_ends schema now log r deadline

end Steps

section Proceeding

/-- A reader with its log at some time. -/
structure Setting where
  now : Nat
  log : Log
  reader : Reader

/-- One step of a poll. -/
def Setting.step (schema : Schema κ ν) (s : Setting) (poll : Poll) :
    Progress Poll (Except LogError (Batch κ ν)) × Setting :=
  let (progress, reader) := s.reader.stepPoll schema s.now s.log poll
  (progress, { s with reader })

/-- The steps of a poll, each with what it found and what it left, and what the poll came to.
Between two steps anything may have happened. -/
inductive Proceeds (schema : Schema κ ν) :
    Poll → List (Setting × Setting) → Except LogError (Batch κ ν) → Prop
  | ends {poll : Poll} {s s' : Setting} {result : Except LogError (Batch κ ν)}
      (step : s.step schema poll = (.done result, s')) : Proceeds schema poll [(s, s')] result
  | waits {poll poll' : Poll} {s s' : Setting} {steps : List (Setting × Setting)}
      {result : Except LogError (Batch κ ν)} (step : s.step schema poll = (.waiting poll', s'))
      (rest : Proceeds schema poll' steps result) : Proceeds schema poll ((s, s') :: steps) result

/-- Nobody but the poll moves the reader: each step finds the positions as the one before has left
them. -/
def Undisturbed :
    SortedMap Partition Nat → List (Setting × Setting) → SortedMap Partition Nat → Prop
  | m, [], m' => m = m'
  | m, (s, s') :: steps, m' =>
      s.reader.positions = m ∧ Undisturbed s'.reader.positions steps m'

variable {s s' : Setting} {poll poll' : Poll} {steps : List (Setting × Setting)}
  {m m' : SortedMap Partition Nat}

theorem step_waits (h : s.step schema poll = (.waiting poll', s')) : s' = s := by
  unfold Setting.step at h
  rcases stepPoll_ends schema s.now s.log s.reader poll with ⟨_, hs⟩ | ⟨_, _, hs, -⟩
  · rw [hs] at h
    cases h
    rfl
  · rw [hs] at h
    cases h

theorem step_ends (h : s.step schema poll = (.done result, s')) :
    s'.log = s.log ∧ Ends schema s.log s.reader result s'.reader := by
  unfold Setting.step at h
  rcases stepPoll_ends schema s.now s.log s.reader poll with ⟨_, hs⟩ | ⟨_, _, hs, hends⟩
  · rw [hs] at h
    cases h
  · rw [hs] at h
    cases h
    exact ⟨rfl, hends⟩

/-- No step of a poll that fails changes the log or moves a position. -/
theorem Proceeds.keeps (h : Proceeds schema poll steps (.error err)) :
    ∀ x ∈ steps, x.2.log = x.1.log ∧ x.2.reader.positions = x.1.reader.positions := by
  generalize hresult : Except.error err = result at h
  induction h with
  | ends step =>
      subst hresult
      rintro x hx
      cases List.mem_singleton.1 hx
      obtain ⟨hlog, hends⟩ := step_ends step
      exact ⟨hlog, hends.of_error.1⟩
  | waits step rest ih =>
      rintro x hx
      rcases List.mem_cons.1 hx with rfl | hx
      · rw [step_waits step]
        exact ⟨rfl, rfl⟩
      · exact ih hresult x hx

/-- The last step is the one that ends the poll. -/
theorem Proceeds.last (h : Proceeds schema poll steps result) :
    ∃ s s', steps.getLast? = some (s, s') ∧ Ends schema s.log s.reader result s'.reader := by
  induction h with
  | ends step => exact ⟨_, _, rfl, (step_ends step).2⟩
  | @waits _ _ s₁ s₁' steps _ step rest ih =>
      obtain ⟨s, s', hlast, hends⟩ := ih
      refine ⟨s, s', ?_, hends⟩
      rw [List.getLast?_cons, hlast]
      rfl

/-- The reader of an undisturbed poll has the positions from before at its last step. -/
theorem Proceeds.undisturbed (h : Proceeds schema poll steps result) (hm : Undisturbed m steps m')
    (hlast : steps.getLast? = some (s, s')) :
    s.reader.positions = m ∧ s'.reader.positions = m' := by
  induction h generalizing m with
  | ends step =>
      cases hlast
      exact hm
  | waits step rest ih =>
      obtain ⟨hfirst, hrest⟩ := hm
      rw [step_waits step, hfirst] at hrest
      refine ih hrest ?_
      cases rest <;> exact hlast

/-- An undisturbed poll ends with a step from the positions before it to those after it. -/
theorem Proceeds.ends_between (h : Proceeds schema poll steps result)
    (hm : Undisturbed m steps m') (hlast : steps.getLast? = some (s, s')) :
    s.reader.positions = m ∧ s'.reader.positions = m' ∧
      Ends schema s.log s.reader result s'.reader := by
  obtain ⟨s₁, s₁', hlast₁, hends⟩ := h.last
  rw [hlast] at hlast₁
  cases hlast₁
  obtain ⟨hbefore, hafter⟩ := h.undisturbed hm hlast
  exact ⟨hbefore, hafter, hends⟩

end Proceeding

section Continuing

/-- The records are what a partition holds from an offset on, one after the other. -/
structure Continues (schema : Schema κ ν) (log : Log) (p : Partition) (n : Nat)
    (rs : List (Record κ ν)) : Prop where
  offsets : rs.map Record.offset = List.range' n rs.length
  there : ∀ r ∈ rs, ∃ e, (log.written p)[r.offset]? = some e ∧
    decodeEntry schema p r.offset e = .ok r

theorem Continues.nil (schema : Schema κ ν) (log : Log) (p : Partition) (n : Nat) :
    Continues schema log p n [] := by
  constructor
  · rfl
  · nofun

theorem Continues.append {rs ss : List (Record κ ν)} (h : Continues schema log p n rs)
    (h' : Continues schema log p (n + rs.length) ss) : Continues schema log p n (rs ++ ss) := by
  constructor
  · rw [List.map_append, h.offsets, h'.offsets, List.length_append, List.range'_append_1]
  · rintro r hr
    rcases List.mem_append.1 hr with hr | hr
    · exact h.there r hr
    · exact h'.there r hr

theorem Continues.grows {after : Log} {rs : List (Record κ ν)} (h : Continues schema log p n rs)
    (hg : log.Grows after) : Continues schema after p n rs := by
  refine ⟨h.offsets, fun r hr => ?_⟩
  obtain ⟨e, he, hd⟩ := h.there r hr
  obtain ⟨more, hmore⟩ := hg.entries p
  refine ⟨e, ?_, hd⟩
  rw [← hmore, List.getElem?_append_left (List.getElem?_eq_some_iff.1 he).1]
  exact he

/-- What a fetch brings of a partition continues from its position, and moves it behind. -/
theorem Advances.continues (h : Advances m m' b) (hb : Shows schema log b)
    (hn : m.get? p = some n) :
    Continues schema log p n (b.ofPartition p) ∧
      m'.get? p = some (n + (b.ofPartition p).length) := by
  have hlen : (b.offsets p).length = (b.ofPartition p).length := List.length_map _
  refine ⟨⟨?_, fun r hr => ?_⟩, ?_⟩
  · rw [← hlen]
    exact h.runs p n hn
  · obtain ⟨hmem, hp⟩ := List.mem_filter.1 hr
    obtain ⟨e, he, hd⟩ := hb.there r hmem
    obtain rfl : r.partition = p := of_decide_eq_true hp
    exact ⟨e, he, hd⟩
  · rw [← hlen]
    exact h.moved p n hn

end Continuing

section Polling

/-- Polls one after the other, while nobody else moves the reader: the log that each of them found
at its end and what it came to, and the positions before and after them. -/
inductive Polls (schema : Schema κ ν) :
    SortedMap Partition Nat → List (Log × Except LogError (Batch κ ν)) →
      SortedMap Partition Nat → Prop
  | none (m : SortedMap Partition Nat) : Polls schema m [] m
  | poll {m m' m'' : SortedMap Partition Nat} {timeout : Nat} {steps : List (Setting × Setting)}
      {s s' : Setting} {result : Except LogError (Batch κ ν)}
      {later : List (Log × Except LogError (Batch κ ν))}
      (proceeds : Proceeds schema (.started timeout) steps result)
      (undisturbed : Undisturbed m steps m') (last : steps.getLast? = some (s, s'))
      (rest : Polls schema m' later m'') : Polls schema m ((s.log, result) :: later) m''

/-- The records of one partition that polls have brought, in their order. -/
def brought (polls : List (Log × Except LogError (Batch κ ν))) (p : Partition) :
    List (Record κ ν) :=
  polls.flatMap fun x =>
    match x.2 with
    | .ok b => b.ofPartition p
    | .error _ => []

variable {polls : List (Log × Except LogError (Batch κ ν))}

/-- What polls bring of a partition continues from its position. -/
theorem Polls.continues (h : Polls schema m polls m') {q : Partition} {log : Log}
    (hlog : ∀ x ∈ polls, x.1.Grows log) (hn : m.get? q = some n) :
    Continues schema log q n (brought polls q) ∧
      m'.get? q = some (n + (brought polls q).length) := by
  induction h generalizing n with
  | none m => exact ⟨.nil schema log q n, hn⟩
  | @poll m m' m'' timeout steps s s' result later proceeds undisturbed last rest ih =>
      obtain ⟨rfl, rfl, hends⟩ := proceeds.ends_between undisturbed last
      have hlater := fun x hx => hlog x (List.mem_cons_of_mem _ hx)
      cases result with
      | error err =>
          rw [hends.of_error.1] at ih
          exact ih hlater hn
      | ok b =>
          obtain ⟨hadvances, hshows⟩ := hends.of_ok
          obtain ⟨hfirst, hmoved⟩ := hadvances.continues hshows hn
          obtain ⟨hrest, hend⟩ := ih hlater hmoved
          change Continues schema log q n (b.ofPartition q ++ brought later q) ∧
            m''.get? q = some (n + (b.ofPartition q ++ brought later q).length)
          refine ⟨(hfirst.grows (hlog _ List.mem_cons_self)).append hrest, ?_⟩
          rw [hend, List.length_append, Nat.add_assoc]

/-- Polls fail because of a wakeup, because the reader has been closed, or at one of its
partitions. -/
theorem Polls.fails (h : Polls schema m polls m') :
    ∀ x ∈ polls, ∀ err, x.2 = .error err →
      err = .wakeup ∨ err = .closed ∨ ∃ q ∈ m.keys, Unreadable schema x.1 q err := by
  induction h with
  | none m => nofun
  | @poll m m' m'' timeout steps s s' result later proceeds undisturbed last rest ih =>
      obtain ⟨rfl, rfl, hends⟩ := proceeds.ends_between undisturbed last
      have hkeys : s'.reader.positions.keys = s.reader.positions.keys := by
        cases result with
        | error err => rw [hends.of_error.1]
        | ok b => exact hends.of_ok.1.keys
      rintro x hx err herr
      rcases List.mem_cons.1 hx with rfl | hx
      · obtain rfl : result = .error err := herr
        exact hends.of_error.2.imp_right (Or.imp_right And.left)
      · rw [← hkeys]
        exact ih x hx err herr

end Polling

section Failing

/-- A fetch that fails does so from the same positions wherever the log is the same. -/
theorem fetch_fails_again {after : Log} (h : r.fetch schema log = (.error err, r))
    (htopics : after.topics = log.topics) (hsettings : after.settings = log.settings)
    (hpositions : r'.positions = r.positions) : r'.fetch schema after = (.error err, r') := by
  unfold fetch at h ⊢
  rw [scan_of_topics htopics, hsettings, hpositions]
  cases hscan : scan schema log log.settings.maxPollRecords r.positions.entries with
  | error e =>
      rw [hscan] at h
      cases h
      rfl
  | ok found =>
      rw [hscan] at h
      cases h

/-- While the log and the positions are the same, the reader is open and no wakeup is pending, a
poll fails at once, and in the same way. -/
def Repeats (schema : Schema κ ν) (s : Setting) (err : LogError) : Prop :=
  ∀ t : Setting, t.log.topics = s.log.topics → t.log.settings = s.log.settings →
    t.reader.positions = s.reader.positions → t.reader.isClosed = false →
    t.reader.isWoken = false →
      ∀ timeout, t.step schema (.started timeout) = (.done (.error err), t)

theorem repeats_of_fetch (h : s.reader.fetch schema s.log = (.error err, s.reader)) :
    Repeats schema s err := by
  intro t htopics hsettings hpositions hclosed hwoken timeout
  have hfetch := fetch_fails_again h htopics hsettings hpositions
  unfold Setting.step
  obtain ⟨deadline, hstep⟩ := stepPoll_of_calm hclosed hwoken schema t.now (.started timeout)
  rw [hstep, attempt_of_error hfetch]

/-- Polls after an assignment bring what each partition holds from its old position on, or from the
beginning if it is new, and fail at no other partition. -/
def Resumes (schema : Schema κ ν) (s : Setting) (ps : List Partition)
    (m : SortedMap Partition Nat) : Prop :=
  ∀ polls m', Polls schema m polls m' →
    (∀ q ∈ ps, ∀ log, (∀ x ∈ polls, x.1.Grows log) →
      Continues schema log q ((s.reader.position q).getD 0) (brought polls q) ∧
        m'.get? q = some ((s.reader.position q).getD 0 + (brought polls q).length)) ∧
    ∀ x ∈ polls, ∀ err, x.2 = .error err →
      err = .wakeup ∨ err = .closed ∨ ∃ q ∈ ps, Unreadable schema x.1 q err

theorem resumes_of_assign {ps : List Partition} (hpositions : r.positions = s.reader.positions)
    (hassign : (r.assign ps).1 = .ok ()) : Resumes schema s ps (r.assign ps).2.positions := by
  have hopen : r.isClosed = false := by
    cases hclosed : r.isClosed with
    | false => rfl
    | true => simp [assign, hclosed] at hassign
  have hget := assign_get? hopen ps
  intro polls m' hpolls
  constructor
  · intro q hq log hlog
    have hn := hget q
    rw [if_pos hq, show r.position q = s.reader.position q by rw [position, hpositions]; rfl] at hn
    exact hpolls.continues hlog hn
  · intro x hx err herr
    refine (hpolls.fails x hx err herr).imp_right (Or.imp_right ?_)
    rintro ⟨q, hq, hunreadable⟩
    obtain ⟨n, hn⟩ := SortedMap.mem_keys_iff.1 hq
    refine ⟨q, ?_, hunreadable⟩
    by_contra hnot
    rw [hget q, if_neg hnot] at hn
    cases hn

/-- A poll that fails has changed neither the log nor a position.  It was woken, or the reader was
closed, or there is a partition that cannot be read; then every poll fails alike until something is
done about it.  Whatever is assigned next, polls go on from where the reader was. -/
theorem failed_poll_consumes_nothing (schema : Schema κ ν) (poll : Poll)
    (steps : List (Setting × Setting)) (err : LogError)
    (h : Proceeds schema poll steps (.error err)) :
    (∀ x ∈ steps, x.2.log = x.1.log ∧ x.2.reader.positions = x.1.reader.positions) ∧
      (∀ m m', Undisturbed m steps m' → m' = m) ∧
      ∃ s s', steps.getLast? = some (s, s') ∧
        (err = .wakeup ∨ err = .closed ∨
          (∃ p ∈ s.reader.assignment, Unreadable schema s.log p err) ∧ Repeats schema s err) ∧
        ∀ (r : Reader) (ps : List Partition), r.positions = s'.reader.positions →
          (r.assign ps).1 = .ok () → Resumes schema s ps (r.assign ps).2.positions := by
  obtain ⟨s, s', hlast, hends⟩ := h.last
  obtain ⟨hstill, hcause⟩ := hends.of_error
  refine ⟨h.keeps, fun m m' hm => ?_, s, s', hlast, ?_, fun r ps hr hassign => ?_⟩
  · obtain ⟨hbefore, hafter⟩ := h.undisturbed hm hlast
    rw [← hafter, hstill, hbefore]
  · refine hcause.imp_right (Or.imp_right ?_)
    rintro ⟨hunreadable, hfetch⟩
    exact ⟨hunreadable, repeats_of_fetch hfetch⟩
  · exact resumes_of_assign (hr.trans hstill) hassign

/-- Two topics, the second with an entry whose key is no text. -/
def sampleLog : Log :=
  let log : Log := (({} : Log).append "a" (some 0) ⟨[97], some [98]⟩).2
  let log := (log.append "a" (some 0) ⟨[97], none⟩).2
  (log.append "b" (some 0) ⟨[255], none⟩).2

/-- A reader of both topics that has read the first entry. -/
def sampleSetting : Setting where
  now := 0
  log := sampleLog
  reader := { positions := SortedMap.ofList [(⟨"a", 0⟩, 1), (⟨"b", 0⟩, 0)] }

/-- In the sample an entry is decoded before the poll fails.  The next poll fails alike, and without
the second topic a poll brings that entry. -/
theorem failed_poll_consumes_nothing_sample :
    let err : LogError := .codec ⟨.decoding, "utf8"⟩
    let m := (sampleSetting.reader.assign [⟨"a", 0⟩]).2.positions
    let polls := [(sampleLog, .ok ⟨[⟨⟨"a", 0⟩, 1, "a", none⟩]⟩)]
    Proceeds Schema.texts (.started 5) [(sampleSetting, sampleSetting)] (.error err) ∧
      Repeats Schema.texts sampleSetting err ∧
      Polls Schema.texts m polls (m.insert ⟨"a", 0⟩ 2) ∧
      Continues Schema.texts sampleLog ⟨"a", 0⟩ 1 (brought polls ⟨"a", 0⟩) := by
  intro err m polls
  have hfails : Proceeds Schema.texts (.started 5) [(sampleSetting, sampleSetting)] (.error err) :=
    .ends rfl
  have hbrings : Proceeds Schema.texts (.started 5)
      [({ sampleSetting with reader := { positions := m } },
        { sampleSetting with reader := { positions := m.insert ⟨"a", 0⟩ 2 } })]
      (.ok ⟨[⟨⟨"a", 0⟩, 1, "a", none⟩]⟩) := .ends rfl
  have hpolls : Polls Schema.texts m polls (m.insert ⟨"a", 0⟩ 2) :=
    .poll hbrings ⟨rfl, rfl⟩ rfl (.none _)
  obtain ⟨-, -, s, s', hlast, hcause, hresumes⟩ :=
    failed_poll_consumes_nothing Schema.texts (.started 5) _ err hfails
  cases hlast
  refine ⟨hfails, ?_, hpolls, ?_⟩
  · exact ((hcause.resolve_left (by decide)).resolve_left (by decide)).2
  · refine ((hresumes _ [⟨"a", 0⟩] rfl rfl polls _ hpolls).1 _ List.mem_cons_self sampleLog ?_).1
    rintro x hx
    rw [List.mem_singleton.1 hx]
    exact .refl _

/-- A reader that waits for a topic to come. -/
def waitingSetting : Setting where
  now := 0
  log := {}
  reader := { positions := SortedMap.ofList [(⟨"t", 5⟩, 0)] }

/-- The topic has come without the partition, and the reader has been closed. -/
def closedSetting : Setting where
  now := 0
  log := (({} : Log).createTopic "t" 1).2
  reader := waitingSetting.reader.close

/-- A failure is not found again once the reader has been closed, which may happen while the poll
that fails is still waiting. -/
theorem failed_poll_not_repeated :
    ¬ ∀ (steps : List (Setting × Setting)) (err : LogError) (s s' : Setting),
      Proceeds Schema.texts (.started 1000) steps (.error err) → steps.getLast? = some (s, s') →
        err ≠ .wakeup → err ≠ .closed → s'.reader.isWoken = false →
          (s'.step Schema.texts (.started 1000)).1 = .done (.error err) := by
  intro h
  have hfails : Proceeds Schema.texts (.started 1000)
      [(waitingSetting, waitingSetting), (closedSetting, closedSetting)]
      (.error (.unknownPartition ⟨"t", 5⟩)) := .waits rfl (.ends rfl)
  have hsame := h _ _ closedSetting closedSetting hfails rfl (by decide) (by decide) rfl
  cases hsame

end Failing

end Reader
end ReplicatedLog
