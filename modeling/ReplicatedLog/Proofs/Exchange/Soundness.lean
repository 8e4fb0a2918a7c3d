import ReplicatedLog.Proofs.Exchange.Moves

/-!
# What everyone may count on

Whatever tasks do at one log, the polls and the sends of the others may go on counting
on what they have seen.

* `Sound.change`: what it takes for a move to leave everyone with what they count on;
* `Sound.advance`: the next access of a task does, and `Sound.perform`: so does every
  other move;
* `Sound.run`: this is how it is after any moves.
-/

namespace ReplicatedLog
namespace Exchange

section Pending

variable {x x' : Exchange} {t : TaskId}

theorem Announcing.of_job (h : x.Announcing) (hjobs : ∀ u ≠ t, x'.jobs u = x.jobs u)
    (ht : ∀ job, x.jobs t = some job → job.announces = true →
      ∃ job', x'.jobs t = some job' ∧ job'.announces = true) : x'.Announcing := by
  obtain ⟨u, job, hjob, hannounces⟩ := h
  by_cases hu : u = t
  · subst hu
    obtain ⟨job', hjob', hannounces'⟩ := ht job hjob hannounces
    exact ⟨u, job', hjob', hannounces'⟩
  · exact ⟨u, job, (hjobs u hu).trans hjob, hannounces⟩

theorem Owes.of_job {e : Errand} (h : x.Owes e) (hjobs : ∀ u ≠ t, x'.jobs u = x.jobs u)
    (ht : ∀ job, x.jobs t = some job → e ∈ job.todo →
      ∃ job', x'.jobs t = some job' ∧ e ∈ job'.todo) : x'.Owes e := by
  obtain ⟨u, job, hjob, htodo⟩ := h
  by_cases hu : u = t
  · subst hu
    obtain ⟨job', hjob', htodo'⟩ := ht job hjob htodo
    exact ⟨u, job', hjob', htodo'⟩
  · exact ⟨u, job, (hjobs u hu).trans hjob, htodo⟩

end Pending

section Soundness

variable {x x' : Exchange} {t : TaskId}

theorem Sound.isPolled (h : x.Sound) {κ ν : Type} {i : Nat} {schema : Schema κ ν} {p : Polling κ ν}
    (hjob : x.jobs t = some (.poll i schema p)) : x.isPolled i = true := by
  have ht : t < x.next := by
    by_contra hge
    rw [h.fresh t (Nat.le_of_not_lt hge)] at hjob
    cases hjob
  exact List.any_eq_true.2 ⟨t, List.mem_range.2 ht, by simp [hjob]⟩

/-- What follows is sound, and leaves the sends with what they count on. -/
structure Passes (x x' : Exchange) : Prop where
  sound : x'.Sound
  sends : ∀ o, (x.sendView o).Keeps (x'.sendView o)

theorem Passes.refl (h : x.Sound) : x.Passes x :=
  ⟨h, fun _ => .of_ledger rfl rfl⟩

/-- It is enough to look at the task that goes on, and at what the others count on. -/
theorem Sound.change (h : x.Sound) (hjobs : ∀ u ≠ t, x'.jobs u = x.jobs u)
    (hroom : x'.log.settings = x.log.settings) (hfresh : ∀ u, x'.next ≤ u → x'.jobs u = none)
    (hpolls : ∀ i, ∀ u ≠ t, x.isPolled i = true → (x.view i).Keeps (x'.view i) u)
    (hsends : ∀ o, (x.sendView o).Keeps (x'.sendView o))
    (hpoll : ∀ (κ ν : Type) i (schema : Schema κ ν) p,
      x'.jobs t = some (.poll i schema p) → (x'.view i).Holds t p)
    (hsend : ∀ (κ ν : Type) o (schema : Schema κ ν) out p,
      x'.jobs t = some (.send o schema out p) → (x'.sendView o).Holds p)
    (hholders : ∀ i u, (x'.inlets i).holder = some u →
      (u ≠ t ∧ (x.inlets i).holder = some u) ∨
        (u = t ∧ ∃ (κ ν : Type) (schema : Schema κ ν) (p : Polling κ ν),
          x'.jobs t = some (.poll i schema p) ∧ p.reads = true)) : x.Passes x' := by
  refine ⟨⟨by rw [hroom]; exact h.room, hfresh, ?_, ?_, ?_⟩, hsends⟩
  · intro u κ ν i schema p hjob
    by_cases hu : u = t
    · subst hu
      exact hpoll κ ν i schema p hjob
    · rw [hjobs u hu] at hjob
      exact (h.polls u κ ν i schema p hjob).keeps (hpolls i u hu (h.isPolled hjob))
  · intro u κ ν o schema out p hjob
    by_cases hu : u = t
    · subst hu
      exact hsend κ ν o schema out p hjob
    · rw [hjobs u hu] at hjob
      exact (h.sends u κ ν o schema out p hjob).keeps (hsends o)
  · intro i u hholder
    rcases hholders i u hholder with ⟨hu, hbefore⟩ | ⟨rfl, hreads⟩
    · rw [hjobs u hu]
      exact h.holders i u hbefore
    · exact hreads

end Soundness

section Pending

variable {x y z : Exchange} {job : Job}

/-- What was pending is pending still. -/
structure Pends (x z : Exchange) : Prop where
  announcing : x.Announcing → z.Announcing
  owes : ∀ e, x.Owes e → z.Owes e

theorem Pends.of_jobs (hjobs : z.jobs = x.jobs) : x.Pends z := by
  refine ⟨?_, fun e => ?_⟩
  · rintro ⟨t, job, hjob, h⟩
    exact ⟨t, job, by rw [hjobs]; exact hjob, h⟩
  · rintro ⟨t, job, hjob, h⟩
    exact ⟨t, job, by rw [hjobs]; exact hjob, h⟩

theorem jobs_enter (hjobs : y.jobs = x.jobs) (hnext : y.next = x.next) :
    (y.enter job).jobs = Function.update x.jobs x.next (some job) := by
  rw [← hjobs, ← hnext]
  rfl

theorem Sound.pends_enter (h : x.Sound) (hjobs : y.jobs = x.jobs) (hnext : y.next = x.next) :
    x.Pends (y.enter job) := by
  have hothers : ∀ u ≠ x.next, (y.enter job).jobs u = x.jobs u := by
    intro u hu
    rw [jobs_enter hjobs hnext]
    exact Function.update_of_ne hu ..
  have hnone := h.fresh x.next (Nat.le_refl _)
  refine ⟨fun ha => ha.of_job hothers ?_, fun e he => he.of_job hothers ?_⟩
  · intro job hjob
    rw [hnone] at hjob
    cases hjob
  · intro job hjob
    rw [hnone] at hjob
    cases hjob

theorem owes_enter (hjobs : y.jobs = x.jobs) (hnext : y.next = x.next) {e : Errand}
    (he : e ∈ job.todo) : (y.enter job).Owes e := by
  refine ⟨x.next, job, ?_, he⟩
  rw [jobs_enter hjobs hnext]
  exact Function.update_self ..

/-- Nothing has happened to a reader, and no entry has been added. -/
theorem Pends.view (h : x.Pends z) {i : Nat} (hi : z.inlets i = x.inlets i)
    (hn : z.log.appends = x.log.appends) (hw : x.log.AddsNothing z.log) (u : TaskId) :
    (x.view i).Keeps (z.view i) u := by
  refine .of_inlet hi (Nat.le_of_eq hn.symm) (fun ha => Or.inr (h.announcing ha)) ?_ (h.owes _)
  intro p n hlt
  refine Or.inl ?_
  show n < (x.log.written p).length
  rw [← hw p]
  exact hlt

/-- A flag of a reader has been set, and its polls have yet to be called on. -/
theorem Pends.flag (h : x.Pends z) {i : Nat} (hl : z.log = x.log)
    (hh : (z.inlets i).holder = (x.inlets i).holder)
    (hp : (z.inlets i).reader.positions = (x.inlets i).reader.positions)
    (hn : (z.inlets i).reader.calls = (x.inlets i).reader.calls) (hc : z.Owes (.call i))
    (u : TaskId) : (x.view i).Keeps (z.view i) u :=
  .of_flag hl hh hp hn h.announcing hc

/-- Nothing has happened to the acknowledgments. -/
theorem Pends.sendView (h : x.Pends z) {o : Nat}
    (hi : (x.outlets o).interrupts ≤ (z.outlets o).interrupts)
    (hl : z.log.ledger = x.log.ledger) (hh : z.log.held = x.log.held) :
    (x.sendView o).Keeps (z.sendView o) := by
  refine ⟨hi, fun hs => Or.inr (h.owes _ hs), Nat.le_of_eq (congrArg Array.size hl.symm),
    fun id _ hout => ?_⟩
  have hbefore : x.log.ledger[id]? = some .outstanding := by
    rw [← hl]
    exact hout
  refine ⟨hbefore, fun ⟨q, hq⟩ => ⟨q, h.owes _ hq⟩, fun q hq => Or.inl ?_⟩
  show (id, q) ∈ z.log.held
  rw [hh]
  exact hq

/-- What is held has been taken, and has yet to be settled. -/
theorem Sound.sendView_taken (h : x.Sound) (hjobs : y.jobs = x.jobs) (hnext : y.next = x.next)
    (ho : y.outlets = x.outlets) (hl : y.log.ledger = x.log.ledger) (resolves : Bool) (o : Nat) :
    (x.sendView o).Keeps ((y.enter (.errands (x.log.settlings resolves))).sendView o) := by
  refine ⟨Nat.le_of_eq ?_, fun hs => Or.inr ((h.pends_enter hjobs hnext).owes _ hs),
    Nat.le_of_eq (congrArg Array.size hl.symm), fun id _ hout => ?_⟩
  · show (x.outlets o).interrupts = (y.outlets o).interrupts
    rw [ho]
  have hbefore : x.log.ledger[id]? = some .outstanding := by
    rw [← hl]
    exact hout
  refine ⟨hbefore, fun ⟨q, hq⟩ => ⟨q, (h.pends_enter hjobs hnext).owes _ hq⟩, fun q hq => ?_⟩
  refine Or.inr ⟨if resolves then some q else none, owes_enter hjobs hnext ?_⟩
  exact List.mem_map.2 ⟨(id, q), hq, rfl⟩

end Pending

section Moves

variable {x y : Exchange}

theorem Sound.holder_ne_next (h : x.Sound) {i : Nat} {u : TaskId}
    (hholder : (x.inlets i).holder = some u) : u ≠ x.next := by
  rintro rfl
  obtain ⟨κ, ν, schema, p, hjob, -⟩ := h.holders i _ hholder
  rw [h.fresh x.next (Nat.le_refl _)] at hjob
  cases hjob

/-- Someone enters a new task and does its first access, if there is one, at once. -/
theorem Sound.enter {job : Job} (h : x.Sound) (hjobs : y.jobs = x.jobs) (hnext : y.next = x.next)
    (hnew : job.IsNew) (hroom : y.log.settings = x.log.settings)
    (hheld : ∀ i, (y.inlets i).holder = (x.inlets i).holder)
    (hpolls : ∀ i u, x.isPolled i = true → (x.view i).Keeps ((y.enter job).view i) u)
    (hsends : ∀ o, (x.sendView o).Keeps ((y.enter job).sendView o)) : x.Passes (y.enter job) := by
  have hself : (y.enter job).jobs x.next = some job := by
    rw [← hnext]
    exact Function.update_self ..
  refine h.change (t := x.next) ?_ hroom ?_ (fun i u _ => hpolls i u) hsends ?_ ?_ ?_
  · intro u hu
    rw [← hjobs]
    exact Function.update_of_ne (hnext ▸ hu) ..
  · intro u hu
    have hlt : y.next < u := hu
    rw [show (y.enter job).jobs u = y.jobs u from Function.update_of_ne (Nat.ne_of_gt hlt) ..,
      hjobs]
    exact h.fresh u (Nat.le_of_lt (hnext ▸ hlt))
  · intro κ ν i schema p hjob
    rw [hself, Option.some.injEq] at hjob
    subst hjob
    obtain ⟨timeout, rfl⟩ := hnew
    trivial
  · intro κ ν o schema out p hjob
    rw [hself, Option.some.injEq] at hjob
    subst hjob
    cases hnew
    exact ⟨nofun, nofun⟩
  · intro i u hholder
    have hbefore : (x.inlets i).holder = some u := (hheld i).symm.trans hholder
    exact Or.inl ⟨h.holder_ne_next hbefore, hbefore⟩

/-- Something happens and no task goes on. -/
theorem Sound.aside (h : x.Sound) (hjobs : y.jobs = x.jobs) (hnext : y.next = x.next)
    (hroom : y.log.settings = x.log.settings)
    (hheld : ∀ i, (y.inlets i).holder = (x.inlets i).holder)
    (hpolls : ∀ i u, x.isPolled i = true → (x.view i).Keeps (y.view i) u)
    (hsends : ∀ o, (x.sendView o).Keeps (y.sendView o)) : x.Passes y := by
  have hnone : y.jobs x.next = none := by
    rw [hjobs]
    exact h.fresh x.next (Nat.le_refl _)
  refine h.change (t := x.next) (fun u _ => by rw [hjobs]) hroom ?_ (fun i u _ => hpolls i u) hsends
    ?_ ?_ ?_
  · intro u hu
    rw [hjobs]
    exact h.fresh u (hnext ▸ hu)
  · intro κ ν i schema p hjob
    rw [hnone] at hjob
    cases hjob
  · intro κ ν o schema out p hjob
    rw [hnone] at hjob
    cases hjob
  · intro i u hholder
    have hbefore : (x.inlets i).holder = some u := (hheld i).symm.trans hholder
    exact Or.inl ⟨h.holder_ne_next hbefore, hbefore⟩

/-- A flag of a reader is set and a new task is to call on its polls. -/
theorem Sound.flagged (h : x.Sound) (i : Nat) (inlet : Inlet) (todo : List Errand)
    (hh : inlet.holder = (x.inlets i).holder)
    (hp : inlet.reader.positions = (x.inlets i).reader.positions)
    (hn : inlet.reader.calls = (x.inlets i).reader.calls) :
    x.Passes ((x.withInlet i inlet).enter (.errands (.call i :: todo))) := by
  have hpends : x.Pends ((x.withInlet i inlet).enter (.errands (.call i :: todo))) :=
    h.pends_enter rfl rfl
  have hself : (x.withInlet i inlet).inlets i = inlet := Function.update_self ..
  refine h.enter rfl rfl trivial rfl ?_ ?_ fun o => hpends.sendView (Nat.le_refl _) rfl rfl
  · intro j
    by_cases hj : j = i
    · subst hj
      rw [hself, hh]
    · rw [show (x.withInlet i inlet).inlets j = x.inlets j from Function.update_of_ne hj ..]
  · intro j u _
    by_cases hj : j = i
    · subst hj
      have hself : ((x.withInlet j inlet).enter (.errands (.call j :: todo))).inlets j = inlet :=
        Function.update_self ..
      refine hpends.flag rfl ?_ ?_ ?_ (owes_enter rfl rfl List.mem_cons_self) u <;> rw [hself]
      · exact hh
      · exact hp
      · exact hn
    · exact hpends.view (Function.update_of_ne hj ..) rfl (fun _ => rfl) u

/-- What is held is taken and a new task is to settle it. -/
theorem Sound.taken (h : x.Sound) (log : Log) (resolves : Bool)
    (hroom : log.settings = x.log.settings) (hn : log.appends = x.log.appends)
    (hw : x.log.AddsNothing log) (hl : log.ledger = x.log.ledger) :
    x.Passes ({ x with log }.enter (.errands (x.log.settlings resolves))) := by
  have hpends : x.Pends ({ x with log }.enter (.errands (x.log.settlings resolves))) :=
    h.pends_enter rfl rfl
  exact h.enter rfl rfl trivial hroom (fun _ => rfl) (fun i u _ => hpends.view rfl hn hw u)
    (h.sendView_taken (y := { x with log }) rfl rfl rfl hl resolves)

/-- The positions of a reader that nobody polls are set. -/
theorem Sound.placed (h : x.Sound) (i : Nat) (reader : Reader) (hi : x.isPolled i = false) :
    x.Passes (x.withInlet i { x.inlets i with reader }) := by
  have hpends : x.Pends (x.withInlet i { x.inlets i with reader }) := .of_jobs rfl
  refine h.aside rfl rfl rfl ?_ ?_ fun o => hpends.sendView (Nat.le_refl _) rfl rfl
  · intro j
    by_cases hj : j = i
    · subst hj
      rw [show (x.withInlet j { x.inlets j with reader }).inlets j = { x.inlets j with reader } from
        Function.update_self ..]
    · rw [show (x.withInlet i { x.inlets i with reader }).inlets j = x.inlets j from
        Function.update_of_ne hj ..]
  · intro j u hpolled
    have hj : j ≠ i := by
      rintro rfl
      rw [hi] at hpolled
      cases hpolled
    exact hpends.view (Function.update_of_ne hj ..) rfl (fun _ => rfl) u

/-- Something happens to the topics or the rejections, or to a channel, or time passes. -/
theorem Sound.still (h : x.Sound) (hjobs : y.jobs = x.jobs) (hnext : y.next = x.next)
    (hinlets : y.inlets = x.inlets) (hl : x.log.Frames y.log) (hw : x.log.AddsNothing y.log)
    (ho : ∀ o, (x.outlets o).interrupts ≤ (y.outlets o).interrupts) : x.Passes y := by
  have hpends : x.Pends y := .of_jobs hjobs
  exact h.aside hjobs hnext hl.settings (fun i => by rw [hinlets])
    (fun i u _ => hpends.view (by rw [hinlets]) hl.appends hw u)
    fun o => hpends.sendView (ho o) hl.ledger hl.held

theorem Sound.withOutlet (h : x.Sound) (o : Nat) (outlet : Outlet)
    (ho : outlet.interrupts = (x.outlets o).interrupts) : x.Passes (x.withOutlet o outlet) := by
  refine h.still rfl rfl rfl (.refl _) (fun _ => rfl) fun o' => Nat.le_of_eq ?_
  by_cases hsame : o' = o
  · subst hsame
    rw [show (x.withOutlet o' outlet).outlets o' = outlet from Function.update_self .., ho]
  · rw [show (x.withOutlet o outlet).outlets o' = x.outlets o' from Function.update_of_ne hsame ..]

end Moves

section Steps

variable {x z : Exchange} {t : TaskId} {job : Job}

/-- A task that announces nothing and owes nothing goes on. -/
theorem Pends.of_job (hjob : x.jobs t = some job) (hjobs : ∀ u ≠ t, z.jobs u = x.jobs u)
    (ha : job.announces = false) (hn : job.todo = []) : x.Pends z := by
  refine ⟨fun h => h.of_job hjobs ?_, fun e h => h.of_job hjobs ?_⟩
  · intro job' hjob' hannounces
    rw [hjob, Option.some.injEq] at hjob'
    rw [← hjob', ha] at hannounces
    cases hannounces
  · intro job' hjob' hmem
    rw [hjob, Option.some.injEq] at hjob'
    rw [← hjob', hn] at hmem
    cases hmem

theorem Sound.fresh_update (h : x.Sound) (hjob : x.jobs t = some job) (k : Option Job) :
    ∀ u, x.next ≤ u → Function.update x.jobs t k u = none := by
  intro u hu
  have hne : u ≠ t := by
    rintro rfl
    rw [h.fresh u hu] at hjob
    cases hjob
  rw [Function.update_of_ne hne]
  exact h.fresh u hu

/-- Who holds positions is about a poll of their reader. -/
theorem Sound.reads_of_holder (h : x.Sound) {κ ν : Type} {i j : Nat} {schema : Schema κ ν}
    {p : Polling κ ν} (hjob : x.jobs t = some (.poll i schema p))
    (hholder : (x.inlets j).holder = some t) : j = i ∧ p.reads = true := by
  obtain ⟨κ', ν', schema', p', hjob', hreads⟩ := h.holders j t hholder
  rw [hjob, Option.some.injEq] at hjob'
  cases hjob'
  exact ⟨rfl, hreads⟩

/-- A poll has made an access that has done this to its inlet. -/
theorem Sound.after_poll (h : x.Sound) {κ ν : Type} {i : Nat} {schema : Schema κ ν}
    {p : Polling κ ν} (hjob : x.jobs t = some (.poll i schema p))
    {progress : Progress (Polling κ ν) (Except LogError (Batch κ ν))} {inlet : Inlet}
    (htouches : Polling.Touches (x.view i) t p.reads (Polling.readsOn progress) inlet)
    (hown : ∀ p', progress = .waiting p' → { x.view i with inlet }.Holds t p') :
    x.Passes { x.withInlet i inlet with
      jobs := Function.update x.jobs t (left (.poll i schema) progress) } := by
  generalize hz : { x.withInlet i inlet with
    jobs := Function.update x.jobs t (left (.poll i schema) progress) } = z
  have hothers : ∀ u ≠ t, z.jobs u = x.jobs u := by
    subst hz
    exact fun u hu => Function.update_of_ne hu ..
  have hjobs : z.jobs t = left (.poll i schema) progress := by
    subst hz
    exact Function.update_self ..
  have hself : z.inlets i = inlet := by
    subst hz
    exact Function.update_self ..
  have helse : ∀ j ≠ i, z.inlets j = x.inlets j := by
    subst hz
    exact fun j hj => Function.update_of_ne hj ..
  have hlog : z.log = x.log := by
    subst hz
    rfl
  have hpends : x.Pends z := .of_job hjob hothers rfl rfl
  refine h.change hothers (by rw [hlog]) ?_ ?_
    (fun o => hpends.sendView (by rw [← hz]; exact Nat.le_refl _) (by rw [hlog])
      (by rw [hlog])) ?_ ?_ ?_
  · subst hz
    exact h.fresh_update hjob _
  · intro j u hu _
    by_cases hj : j = i
    · subst hj
      exact (htouches.keeps hu).pending hlog hself hpends.announcing (hpends.owes _)
    · exact hpends.view (helse j hj) (by rw [hlog]) (by rw [hlog]; exact fun _ => rfl) u
  · intro κ' ν' j schema' p' hjob'
    rw [hjobs] at hjob'
    cases progress with
    | done r => cases hjob'
    | waiting next =>
        cases hjob'
        refine (hown next rfl).keeps ?_
        exact .pending (.of_inlet rfl (Nat.le_refl _) Or.inr (fun _ _ => Or.inl) id) hlog hself
          hpends.announcing (hpends.owes _)
  · intro κ' ν' o schema' out p' hjob'
    rw [hjobs] at hjob'
    cases progress <;> cases hjob'
  · intro j u hholder
    by_cases hj : j = i
    · subst hj
      rw [hself] at hholder
      rcases htouches.holder (fun hheld => (h.reads_of_holder hjob hheld).2) hholder with
        hother | ⟨rfl, hreads⟩
      · exact Or.inl hother
      · refine Or.inr ⟨rfl, ?_⟩
        cases progress with
        | done r => cases hreads
        | waiting next => exact ⟨κ, ν, schema, next, hjobs, hreads⟩
    · rw [helse j hj] at hholder
      refine Or.inl ⟨?_, hholder⟩
      rintro rfl
      exact hj (h.reads_of_holder hjob hholder).1

/-- A poll makes its next access. -/
theorem Sound.advance_poll (h : x.Sound) {κ ν : Type} {i : Nat} {schema : Schema κ ν}
    {p : Polling κ ν} (hjob : x.jobs t = some (.poll i schema p))
    (hready : p.ready x.now x.log (x.inlets i) = true) :
    x.Passes (x.advance t (.poll i schema p)) := by
  have hp := h.polls t κ ν i schema p hjob
  exact h.after_poll hjob (Polling.step_touches schema hp hready) fun _ hnext =>
    Polling.holds_step schema x.now h.room hp hnext

/-- What an access of a send leaves to the polls. -/
theorem view_sends {before after : Bool} {i : Nat}
    (htouches : Sending.Touches x.log before after z.log) (hinlet : z.inlets i = x.inlets i)
    (hstill : before = false → x.Pends z) (hnext : after = true → z.Announcing)
    (howes : x.Owes (.call i) → z.Owes (.call i)) (u : TaskId) :
    (x.view i).Keeps (z.view i) u := by
  generalize hlog : z.log = log at htouches
  cases htouches with
  | still frames adds counted =>
      refine (hstill counted).view hinlet (hlog ▸ frames.appends) ?_ u
      rw [hlog]
      exact adds
  | adds frames next counted =>
      refine .of_inlet hinlet (Nat.le_of_eq ?_) (fun _ => Or.inr (hnext next))
        (fun _ _ _ => Or.inr (hnext next)) howes
      show x.log.appends = z.log.appends
      rw [hlog, frames.appends]
  | counts counted =>
      have hcounted : (x.view i).log.appends < (z.view i).log.appends := by
        show x.log.appends < z.log.appends
        rw [hlog]
        exact Nat.lt_succ_self _
      refine .of_inlet hinlet (Nat.le_of_lt hcounted) (fun _ => Or.inl hcounted)
        (fun p n hlt => Or.inl ?_) howes
      change n < (z.log.written p).length at hlt
      rw [hlog] at hlt
      exact hlt
  | enters q counted =>
      obtain ⟨hadds, happends⟩ := x.log.acknowledge_still q
      exact (hstill counted).view hinlet (hlog ▸ happends) (hlog ▸ hadds) u

/-- A send has made an access that has done this to the log. -/
theorem Sound.after_send (h : x.Sound) {κ ν : Type} {o : Nat} {schema : Schema κ ν}
    {out : Outgoing κ ν} {p : Sending} (hjob : x.jobs t = some (.send o schema out p))
    {progress : Progress Sending Sending.Result} {log : Log}
    (htouches : Sending.Touches x.log p.announces (Sending.announcesNext progress) log)
    (hown : ∀ p', progress = .waiting p' → { x.sendView o with log }.Holds p') :
    x.Passes
      { x with log, jobs := Function.update x.jobs t (left (.send o schema out) progress) } := by
  generalize hz : { x with
    log, jobs := Function.update x.jobs t (left (.send o schema out) progress) } = z
  have hothers : ∀ u ≠ t, z.jobs u = x.jobs u := by
    subst hz
    exact fun u hu => Function.update_of_ne hu ..
  have hjobs : z.jobs t = left (.send o schema out) progress := by
    subst hz
    exact Function.update_self ..
  have hinlets : z.inlets = x.inlets := by
    subst hz
    rfl
  have houtlets : z.outlets = x.outlets := by
    subst hz
    rfl
  have hlog : z.log = log := by
    subst hz
    rfl
  have howes : ∀ e, x.Owes e → z.Owes e := by
    refine fun e he => he.of_job hothers fun job hjob' hmem => ?_
    rw [hjob, Option.some.injEq] at hjob'
    rw [← hjob'] at hmem
    cases hmem
  have hstill : p.announces = false → x.Pends z := fun ha => .of_job hjob hothers ha rfl
  have hsends : ∀ o', (x.sendView o').Keeps (z.sendView o') := fun o' =>
    (Sending.Touches.keeps (v := x.sendView o') htouches).pending hlog
      (by rw [show (z.sendView o').interrupts = (z.outlets o').interrupts from rfl, houtlets]; rfl)
      (fun id ⟨q, hq⟩ => ⟨q, howes _ hq⟩) (howes _)
  refine h.change hothers (by rw [hlog]; exact htouches.settings) ?_ ?_ hsends ?_ ?_ ?_
  · subst hz
    exact h.fresh_update hjob _
  · refine fun i u _ _ => view_sends (hlog ▸ htouches) (congrFun hinlets i) hstill ?_ (howes _) u
    intro hnext
    cases progress with
    | done r => cases hnext
    | waiting p' => exact ⟨t, _, hjobs, hnext⟩
  · intro κ' ν' i schema' p' hjob'
    rw [hjobs] at hjob'
    cases progress <;> cases hjob'
  · intro κ' ν' o' schema' out' p' hjob'
    rw [hjobs] at hjob'
    cases progress with
    | done r => cases hjob'
    | waiting next =>
        cases hjob'
        refine (hown _ rfl).keeps ?_
        exact (SendView.Keeps.of_ledger rfl rfl).pending hlog (by rw [← hz]; rfl)
          (fun id ⟨q, hq⟩ => ⟨q, howes _ hq⟩) (howes _)
  · intro i u hholder
    rw [hinlets] at hholder
    refine Or.inl ⟨?_, hholder⟩
    rintro rfl
    obtain ⟨κ', ν', schema', p', hjob', -⟩ := h.holders i _ hholder
    rw [hjob] at hjob'
    cases hjob'

/-- A send makes its next access. -/
theorem Sound.advance_send (h : x.Sound) {κ ν : Type} {o : Nat} {schema : Schema κ ν}
    {out : Outgoing κ ν} {p : Sending} (hjob : x.jobs t = some (.send o schema out p)) :
    x.Passes (x.advance t (.send o schema out p)) :=
  h.after_send hjob (Sending.step_touches schema out (x.outlets o) x.log p) fun _ hnext =>
    Sending.holds_step (h.sends t κ ν o schema out p hjob) rfl hnext

/-- A task goes away that announces nothing, owes nothing and reads nothing. -/
theorem Sound.gone (h : x.Sound) (hjob : x.jobs t = some job) (ha : job.announces = false)
    (hn : job.todo = []) (hr : ∀ i, (x.inlets i).holder ≠ some t) :
    x.Passes { x with jobs := Function.update x.jobs t none } := by
  have hothers : ∀ u ≠ t, Function.update x.jobs t none u = x.jobs u :=
    fun u hu => Function.update_of_ne hu ..
  have hself : Function.update x.jobs t none t = none := Function.update_self ..
  have hpends : x.Pends { x with jobs := Function.update x.jobs t none } :=
    .of_job hjob hothers ha hn
  refine h.change hothers rfl (h.fresh_update hjob none)
    (fun i u _ _ => hpends.view rfl rfl (fun _ => rfl) u)
    (fun o => hpends.sendView (Nat.le_refl _) rfl rfl) ?_ ?_ ?_
  · intro κ ν i schema p hjob'
    cases hself.symm.trans hjob'
  · intro κ ν o schema out p hjob'
    cases hself.symm.trans hjob'
  · intro i u hholder
    refine Or.inl ⟨?_, hholder⟩
    rintro rfl
    exact hr i hholder

/-- What an errand leaves to the polls. -/
theorem view_runErrand (e : Errand) (i : Nat) {u : TaskId} (hu : u ≠ t) :
    (x.view i).Keeps
      { log := (x.runErrand e).log
        inlet := (x.runErrand e).inlets i
        announcing := x.Announcing
        calling := e ≠ .call i ∧ x.Owes (.call i) } u := by
  have hstill : ∀ {log : Log} {inlet : Inlet}, inlet = x.inlets i → log.appends = x.log.appends →
      x.log.AddsNothing log → e ≠ .call i →
      (x.view i).Keeps ⟨log, inlet, x.Announcing, e ≠ .call i ∧ x.Owes (.call i)⟩ u := by
    intro log inlet hinlet happends hadds he
    refine .of_inlet hinlet (Nat.le_of_eq happends.symm) Or.inr (fun p n hlt => Or.inl ?_)
      fun h => ⟨he, h⟩
    show n < (x.log.written p).length
    rw [← hadds p]
    exact hlt
  cases e with
  | call j =>
      by_cases hi : i = j
      · subst hi
        simp only [runErrand, withInlet, Function.update_self]
        exact View.keeps_call _
      · exact hstill (Function.update_of_ne hi ..) rfl (fun _ => rfl)
          fun h => hi (Errand.call.inj h).symm
  | signal o => exact hstill rfl rfl (fun _ => rfl) nofun
  | settle id q => exact hstill rfl rfl (fun _ => rfl) nofun
  | takeWakeup j =>
      by_cases hi : i = j
      · subst hi
        simp only [runErrand, withInlet, Function.update_self]
        have htouches : Polling.Touches (x.view i) t false false (x.inlets i).takeWakeup :=
          .wakes rfl
        exact (htouches.keeps hu).pending rfl rfl id fun h => ⟨nofun, h⟩
      · exact hstill (Function.update_of_ne hi ..) rfl (fun _ => rfl) nofun

/-- What an errand leaves to the sends. -/
theorem sendView_runErrand (e : Errand) (o : Nat) :
    (x.sendView o).Keeps
      { log := (x.runErrand e).log
        interrupts := ((x.runErrand e).outlets o).interrupts
        settling := fun id => ∃ q, e ≠ .settle id q ∧ x.Owes (.settle id q)
        signalling := e ≠ .signal o ∧ x.Owes (.signal o) } := by
  have hstill : ∀ {interrupts : Nat}, (x.outlets o).interrupts ≤ interrupts →
      (e ≠ .signal o ∨ (x.outlets o).interrupts < interrupts) → (∀ id q, e ≠ .settle id q) →
      (x.sendView o).Keeps
        ⟨x.log, interrupts, fun id => ∃ q, e ≠ .settle id q ∧ x.Owes (.settle id q),
          e ≠ .signal o ∧ x.Owes (.signal o)⟩ := by
    intro interrupts hle hsignal he
    exact ⟨hle, fun hs => hsignal.symm.imp_right fun hne => ⟨hne, hs⟩, Nat.le_refl _,
      fun id _ hout => ⟨hout, fun ⟨q, hq⟩ => ⟨q, he id q, hq⟩, fun q hq => Or.inl hq⟩⟩
  cases e with
  | call i => exact hstill (Nat.le_refl _) (Or.inl nofun) nofun
  | takeWakeup i => exact hstill (Nat.le_refl _) (Or.inl nofun) nofun
  | signal o' =>
      by_cases ho : o = o'
      · subst ho
        simp only [runErrand, withOutlet, Function.update_self]
        exact hstill (Nat.le_succ _) (Or.inr (Nat.lt_succ_self _)) nofun
      · simp only [runErrand, withOutlet, Function.update_of_ne ho]
        exact hstill (Nat.le_refl _) (Or.inl fun h => ho (Errand.signal.inj h).symm) nofun
  | settle id q =>
      have hsettle : (x.sendView o).Keeps { x.sendView o with
          log := x.log.settle id q
          settling := fun id' => ∃ q', Errand.settle id q ≠ .settle id' q' ∧
            x.Owes (.settle id' q') } :=
        .settle id q fun id' hid ⟨q', hq'⟩ => ⟨q', fun h => hid (Errand.settle.inj h).1.symm, hq'⟩
      exact hsettle.pending rfl rfl (fun _ hs => hs) fun hs => ⟨nofun, hs⟩

theorem holder_runErrand (e : Errand) (i : Nat) :
    ((x.runErrand e).inlets i).holder = (x.inlets i).holder := by
  cases e with
  | signal o => rfl
  | settle id q => rfl
  | call j => by_cases hi : i = j <;> simp [runErrand, withInlet, Inlet.call, hi]
  | takeWakeup j => by_cases hi : i = j <;> simp [runErrand, withInlet, Inlet.takeWakeup, hi]

/-- A task has done an errand. -/
theorem Sound.after_errand (h : x.Sound) {e : Errand} {todo : List Errand}
    (hjob : x.jobs t = some (.errands (e :: todo))) :
    x.Passes
      { x.runErrand e with jobs := Function.update x.jobs t (some (.errands todo)) } := by
  generalize hz : { x.runErrand e with
    jobs := Function.update x.jobs t (some (.errands todo)) } = z
  have hothers : ∀ u ≠ t, z.jobs u = x.jobs u := by
    subst hz
    exact fun u hu => Function.update_of_ne hu ..
  have hself : z.jobs t = some (.errands todo) := by
    subst hz
    exact Function.update_self ..
  have hannouncing : x.Announcing → z.Announcing := by
    refine fun ha => ha.of_job hothers fun job hjob' hannounces => ?_
    rw [hjob, Option.some.injEq] at hjob'
    rw [← hjob'] at hannounces
    cases hannounces
  have howes : ∀ e', e ≠ e' ∧ x.Owes e' → z.Owes e' := by
    refine fun e' ⟨he, he'⟩ => he'.of_job hothers fun job hjob' hmem => ?_
    rw [hjob, Option.some.injEq] at hjob'
    rw [← hjob'] at hmem
    exact ⟨_, hself, (List.mem_cons.1 hmem).resolve_left (Ne.symm he)⟩
  refine h.change hothers ?_ ?_ ?_ ?_ ?_ ?_ ?_
  · subst hz
    cases e <;> rfl
  · subst hz
    cases e <;> exact h.fresh_update hjob _
  · intro i u hu _
    refine (view_runErrand e i hu).pending ?_ ?_ hannouncing (howes _) <;> rw [← hz] <;> rfl
  · intro o
    refine (sendView_runErrand e o).pending ?_ ?_ (fun id ⟨q, hq⟩ => ⟨q, howes _ hq⟩) (howes _) <;>
      rw [← hz] <;> rfl
  · intro κ ν i schema p hjob'
    cases hself.symm.trans hjob'
  · intro κ ν o schema out p hjob'
    cases hself.symm.trans hjob'
  · intro i u hholder
    have hbefore : (x.inlets i).holder = some u := by
      rw [← holder_runErrand e i, ← hholder, ← hz]
    refine Or.inl ⟨?_, hbefore⟩
    rintro rfl
    obtain ⟨κ, ν, schema, p, hjob', -⟩ := h.holders i _ hbefore
    cases hjob.symm.trans hjob'

/-- A task that can go on makes its next access. -/
theorem Sound.advance (h : x.Sound) (hjob : x.jobs t = some job) (hready : job.ready x = true) :
    x.Passes (x.advance t job) := by
  cases job with
  | poll i schema p => exact h.advance_poll hjob hready
  | send o schema out p => exact h.advance_send hjob
  | errands todo =>
      cases todo with
      | nil =>
          refine h.gone hjob rfl rfl fun i hholder => ?_
          obtain ⟨κ, ν, schema, p, hjob', -⟩ := h.holders i t hholder
          cases hjob.symm.trans hjob'
      | cons e todo => exact h.after_errand hjob

/-- A task that waits is given up. -/
theorem Sound.leave (h : x.Sound) (hjob : x.jobs t = some job) (hwaits : job.waits = true) :
    x.Passes { x with jobs := Function.update x.jobs t none } := by
  have hquiet : job.announces = false ∧ job.todo = [] := by
    cases job with
    | poll i schema p => exact ⟨rfl, rfl⟩
    | send o schema out p =>
        cases p with
        | sent n w => exact ⟨rfl, rfl⟩
        | _ => cases hwaits
    | errands todo => cases hwaits
  refine h.gone hjob hquiet.1 hquiet.2 fun i hholder => ?_
  obtain ⟨κ, ν, schema, p, hjob', hreads⟩ := h.holders i t hholder
  rw [hjob, Option.some.injEq] at hjob'
  subst hjob'
  -- who waits is not reading
  cases p with
  | watching deadline seen w =>
      cases w with
      | parked => cases hreads
      | _ => cases hwaits
  | _ => cases hwaits

/-- Every move leaves everyone with what they count on. -/
theorem Sound.perform (h : x.Sound) (m : Move) : x.Passes (x.perform m) := by
  cases m with
  | poll i schema timeout =>
      have hpends : x.Pends (x.enter (.poll i schema (.entering timeout))) := h.pends_enter rfl rfl
      exact h.enter rfl rfl ⟨timeout, rfl⟩ rfl (fun _ => rfl)
        (fun i u _ => hpends.view rfl rfl (fun _ => rfl) u)
        fun o => hpends.sendView (Nat.le_refl _) rfl rfl
  | send o schema out =>
      have hpends : x.Pends (x.enter (.send o schema out .entered)) := h.pends_enter rfl rfl
      exact h.enter rfl rfl rfl rfl (fun _ => rfl)
        (fun i u _ => hpends.view rfl rfl (fun _ => rfl) u)
        fun o => hpends.sendView (Nat.le_refl _) rfl rfl
  | step t =>
      simp only [Exchange.perform]
      split
      next job hjob =>
        split
        next hready => exact h.advance hjob hready
        next => exact .refl h
      next => exact .refl h
  | leave t =>
      simp only [Exchange.perform]
      split
      next job hjob =>
        split
        next hwaits => exact h.leave hjob hwaits
        next => exact .refl h
      next => exact .refl h
  | pass ticks => exact h.still rfl rfl rfl (.refl _) (fun _ => rfl) fun _ => Nat.le_refl _
  | createTopic topic partitions =>
      exact h.still rfl rfl rfl (x.log.createTopic_frames topic partitions)
        (Log.createTopic_addsNothing x.log topic partitions) fun _ => Nat.le_refl _
  | failNext cause =>
      exact h.still rfl rfl rfl ⟨rfl, rfl, rfl, rfl⟩ (fun _ => rfl) fun _ => Nat.le_refl _
  | hold => exact h.still rfl rfl rfl ⟨rfl, rfl, rfl, rfl⟩ (fun _ => rfl) fun _ => Nat.le_refl _
  | release => exact h.taken _ true rfl rfl (fun _ => rfl) rfl
  | abandon => exact h.taken _ false rfl rfl (fun _ => rfl) rfl
  | assign i ps =>
      simp only [Exchange.perform]
      split
      next => exact .refl h
      next hpolled => exact h.placed i _ (Bool.eq_false_iff.2 hpolled)
  | seek i ps =>
      simp only [Exchange.perform]
      split
      next => exact .refl h
      next hpolled => exact h.placed i _ (Bool.eq_false_iff.2 hpolled)
  | endOffsets i =>
      simp only [Exchange.perform]
      split
      next => exact .refl h
      next =>
        have hpends : x.Pends (x.enter (.errands [.takeWakeup i])) := h.pends_enter rfl rfl
        exact h.enter rfl rfl trivial rfl (fun _ => rfl)
          (fun i u _ => hpends.view rfl rfl (fun _ => rfl) u)
          fun o => hpends.sendView (Nat.le_refl _) rfl rfl
  | wake i => exact h.flagged i _ [] rfl rfl rfl
  | closeReader i =>
      simp only [Exchange.perform]
      split
      next => exact .refl h
      next => exact h.flagged i _ [] rfl rfl rfl
  | interrupt o => exact h.flagged _ _ [.signal o] rfl rfl rfl
  | shutDown o => exact h.withOutlet o _ rfl
  | closeWriter o => exact h.withOutlet o _ rfl

theorem Sound.run (h : x.Sound) (moves : List Move) : (x.run moves).Sound := by
  induction moves generalizing x with
  | nil => exact h
  | cons m moves ih => exact ih (h.perform m).sound

theorem sound_new (settings : Log.Settings) (readers : Nat → Nat)
    (hmax : 1 ≤ settings.maxPollRecords) : (new settings readers).Sound := by
  refine ⟨Nat.one_le_iff_ne_zero.1 hmax, fun _ _ => rfl, ?_, ?_, ?_⟩
  · intro t κ ν i schema p hjob
    cases hjob
  · intro t κ ν o schema out p hjob
    cases hjob
  · intro i t hholder
    cases hholder

end Steps

end Exchange
end ReplicatedLog
