import ReplicatedLog.Proofs.Concourse.Likeness

/-!
# What others do makes no difference to a channel

Two runs are compared in which one channel is asked the same at the same times and in which the same
entries arrive in its partition at the same times.  Anything else may be different: what is done to
other topics and partitions, which topics are created, and what other channels and readers do.

* `Sound`: what holds of the channel whatever happens;
* `Alike`: the channel looks the same in both, which is kept by `quiet_alike` in one of them while
  nothing concerns it, by `event_alike` when the same concerns both, and by `stir_alike` when a call
  takes a step in both;
* `OnTime`: neither clock goes beyond the time at which a call has to take a step, so that the calls
  take their steps at the same times, however often they have been woken for nothing;
* `Aligned.agree`: the two runs bring the same answers, as far as both of them go, and
  `answers_eq_of_chronicle_eq` says so of runs on new logs.
-/

namespace ReplicatedLog
namespace Concourse

open Booth

section Moves

variable {i : Nat} {p : Partition} {x : Concourse} {m : Move} {bm : Booth.Move}

theorem own_eq_some_iff : own i m = some bm ↔ m = .atBooth i bm := by
  cases m with
  | atBooth j m =>
      rw [own, Option.ite_none_right_eq_some, Option.some.injEq, Move.atBooth.injEq]
  | _ => simp [own]

/-- Nothing but what is done with a channel itself changes it. -/
theorem perform_booths (h : own i m = none) : (x.perform m).booths i = x.booths i := by
  cases m with
  | atBooth j m =>
      have hne : i ≠ j := by
        rintro rfl
        simp [own] at h
      exact Function.update_of_ne hne _ _
  | _ => rfl

theorem perform_own (x : Concourse) (i : Nat) (bm : Booth.Move) :
    (x.perform (.atBooth i bm)).booths i = ((x.booths i).perform x.now x.log bm).1 :=
  Function.update_self ..

/-- A move does nothing to the log but to perform an operation. -/
theorem perform_log (x : Concourse) (m : Move) :
    (x.perform m).log = x.log ∨
      ∃ op : Log.Operation, (x.perform m).log = x.log.perform op := by
  cases m with
  | pass ticks => exact Or.inl rfl
  | onLog op => exact Or.inr ⟨op, rfl⟩
  | atStand j m => exact Or.inl rfl
  | atBooth j m => exact Booth.perform_log x.now x.log (x.booths j) m

theorem perform_brings (x : Concourse) (m : Move) (p : Partition) :
    ∃ new, x.log.Brings (x.perform m).log p new :=
  Log.brings_of_perform (perform_log x m) p

theorem now_le_perform (x : Concourse) (m : Move) : x.now ≤ (x.perform m).now := by
  cases m with
  | pass ticks => exact Nat.le_add_right _ _
  | _ => exact Nat.le_refl _

theorem now_le_run (x : Concourse) (moves : List Move) : x.now ≤ (x.run moves).now := by
  induction moves generalizing x with
  | nil => exact Nat.le_refl _
  | cons m moves ih => exact Nat.le_trans (now_le_perform x m) (ih (x.perform m))

end Moves

section Soundness

variable {i : Nat} {p : Partition} {x : Concourse} {m : Move} {bm : Booth.Move}
  {ev : Event}

/-- What holds of a channel whatever happens. -/
structure Sound (i : Nat) (p : Partition) (x : Concourse) : Prop where
  log : x.log.Sound
  first : p.index = 0
  order : (x.booths i).InOrder p x.log

theorem Sound.perform (h : x.Sound i p) (m : Move) : (x.perform m).Sound i p := by
  constructor
  · rcases perform_log x m with hsame | ⟨op, hop⟩
    · rw [hsame]
      exact h.log
    · rw [hop]
      exact Log.perform_sound h.log op
  · exact h.first
  · cases hown : own i m with
    | some bm =>
        rw [own_eq_some_iff] at hown
        subst hown
        rw [perform_own]
        exact h.order.perform h.log.partitions h.first x.now bm
    | none =>
        obtain ⟨new, hbrings⟩ := perform_brings x m p
        rw [perform_booths hown]
        exact h.order.brings hbrings

/-- A new channel on a new log. -/
theorem Opens.sound {schema : CommandSchema} {topic : String} (h : x.Opens i schema topic) :
    x.Sound i ⟨topic, Channel.commandPartition⟩ := by
  refine ⟨?_, rfl, ?_⟩
  · rw [h.log]
    exact Log.sound_new _
  · rw [h.booth]
    exact opened_inOrder schema topic x.log

/-- What arrives in the partition is what the log brings. -/
theorem Sound.arrival (h : x.Sound i p) (m : Move) :
    x.log.Brings (x.perform m).log p (arrival i x m) := by
  obtain ⟨new, hbrings⟩ := perform_brings x m p
  have hnew : Concourse.arrival i x m = new := by
    rw [Concourse.arrival, h.order.partition]
    exact hbrings.new_eq
  rw [hnew]
  exact hbrings

/-- What is done with the reader of the channel brings nothing. -/
theorem Sound.log_of_own (h : x.Sound i p) (hm : bm.concernsReader = true) :
    (x.perform (.atBooth i bm)).log = x.log :=
  h.order.perform_log x.now hm

theorem Sound.arrival_of_own (h : x.Sound i p) (hm : bm.concernsReader = true) :
    Concourse.arrival i x (.atBooth i bm) = none := by
  rw [Concourse.arrival, h.log_of_own hm]
  exact List.getElem?_eq_none (Nat.le_refl _)

theorem concernsReader_of_mark {b : Booth} (h : b.mark bm = some ev) :
    bm.concernsReader = true ∧ ∀ e, ev ≠ .received e := by
  cases bm with
  | ask u =>
      cases h
      exact ⟨rfl, nofun⟩
  | interrupt =>
      cases h
      exact ⟨rfl, nofun⟩
  | leave task =>
      obtain ⟨c, -, rfl⟩ := Option.map_eq_some_iff.1 h
      exact ⟨rfl, nofun⟩
  | _ => cases h

/-- What is asked tells the move. -/
theorem mark_inj {a b : Booth} {bm' : Booth.Move} (h : a.mark bm = some ev)
    (h' : b.mark bm' = some ev) : bm' = bm := by
  cases bm with
  | ask u =>
      cases h
      cases bm' with
      | ask u' =>
          cases h'
          rfl
      | leave task =>
          obtain ⟨c, -, hc⟩ := Option.map_eq_some_iff.1 h'
          cases hc
      | _ => cases h'
  | interrupt =>
      cases h
      cases bm' with
      | interrupt => rfl
      | leave task =>
          obtain ⟨c, -, hc⟩ := Option.map_eq_some_iff.1 h'
          cases hc
      | _ => cases h'
  | leave task =>
      obtain ⟨c, -, rfl⟩ := Option.map_eq_some_iff.1 h
      cases bm' with
      | leave task' =>
          obtain ⟨c', -, hc'⟩ := Option.map_eq_some_iff.1 h'
          cases hc'
          rfl
      | _ => cases h'
  | _ => cases h

/-- A step of the call that has the reader. -/
theorem eq_proceed_of_stirs (h : stirs i x m = true) :
    ∃ task, m = .atBooth i (.proceed task) ∧
      (x.booths i).wire.channel.line.head? = some task ∧ restsAt i x x.now = false := by
  obtain ⟨bm, hown, hbm⟩ := (Option.any_eq_true _ _).1 h
  rw [own_eq_some_iff] at hown
  subst hown
  cases bm with
  | proceed task =>
      rw [Booth.stirs, Bool.and_eq_true, decide_eq_true_iff, Bool.not_eq_true'] at hbm
      exact ⟨task, rfl, hbm.1, hbm.2⟩
  | _ => cases hbm

/-- A move concerns the channel in one of three ways. -/
inductive Turn (i : Nat) (x : Concourse) (m : Move) : Prop
  | quiet (event : Concourse.event i x m = none) (stirs : Concourse.stirs i x m = false)
  | event (ev : Booth.Event) (event : Concourse.event i x m = some ev)
      (stirs : Concourse.stirs i x m = false)
  | stir (event : Concourse.event i x m = none) (stirs : Concourse.stirs i x m = true)

theorem Sound.turn (h : x.Sound i p) (m : Move) : Turn i x m := by
  cases hstirs : Concourse.stirs i x m with
  | true =>
      refine .stir ?_ hstirs
      obtain ⟨task, rfl, -, -⟩ := eq_proceed_of_stirs hstirs
      have hmark : Concourse.mark i x (.atBooth i (.proceed task)) = none := by
        simp [Concourse.mark, own, Booth.mark]
      have hproceeds : Booth.Move.concernsReader (.proceed task) = true := rfl
      rw [Concourse.event, hmark, h.arrival_of_own hproceeds]
      rfl
  | false =>
      cases hevent : Concourse.event i x m with
      | none => exact .quiet hevent hstirs
      | some ev => exact .event ev hevent hstirs

/-- An event is asked of the channel, or an entry arrives. -/
theorem event_cases (h : event i x m = some ev) :
    (∃ bm, m = .atBooth i bm ∧ (x.booths i).mark bm = some ev) ∨
      ∃ e, ev = .received e ∧ mark i x m = none ∧ arrival i x m = some e := by
  rw [event] at h
  cases hmark : mark i x m with
  | some ev' =>
      rw [hmark, Option.some_or] at h
      obtain ⟨bm, hown, hbm⟩ := Option.bind_eq_some_iff.1 hmark
      exact Or.inl ⟨bm, own_eq_some_iff.1 hown, hbm.trans h⟩
  | none =>
      rw [hmark, Option.none_or] at h
      obtain ⟨e, he, rfl⟩ := Option.map_eq_some_iff.1 h
      exact Or.inr ⟨e, rfl, rfl, he⟩

/-- What does not concern the channel leaves its calls and its reader as they are. -/
theorem Sound.same (h : x.Sound i p) (hmark : mark i x m = none) (hstill : stirs i x m = false) :
    (x.booths i).Same ((x.perform m).booths i) ∧ answer i x m = none := by
  cases hown : own i m with
  | none =>
      rw [perform_booths hown]
      refine ⟨.refl _, ?_⟩
      rw [answer, hown]
      rfl
  | some bm =>
      have hmark' : (x.booths i).mark bm = none := by
        rw [Concourse.mark, hown] at hmark
        exact hmark
      have hstill' : (x.booths i).stirs x.now x.log bm = false := by
        rw [Concourse.stirs, hown] at hstill
        exact hstill
      have hsame := h.order.same h.log.partitions h.first hmark' hstill'
      rw [own_eq_some_iff] at hown
      subst hown
      rw [perform_own]
      refine ⟨hsame.1, ?_⟩
      rw [answer, own, if_pos rfl]
      exact hsame.2

end Soundness

section Likeness

variable {i : Nat} {p : Partition} {x y z : Concourse} {m n : Move} {ev : Event}

/-- The channel looks the same in both. -/
structure Alike (i : Nat) (p : Partition) (x y : Concourse) : Prop where
  same : (x.booths i).Same (y.booths i)
  log : x.log.Resembles y.log p

theorem Alike.symm (h : Alike i p x y) : Alike i p y x :=
  ⟨h.same.symm, h.log.symm⟩

theorem Alike.trans (h : Alike i p x y) (h' : Alike i p y z) : Alike i p x z :=
  ⟨h.same.trans h'.same, h.log.trans h'.log⟩

theorem Alike.restsAt (h : Alike i p x y) (hx : x.Sound i p) (hy : y.Sound i p) (t : Nat) :
    restsAt i y t = restsAt i x t :=
  h.same.rests h.log hx.order hx.log.partitions hy.log.partitions hx.first t

/-- What does not concern the channel leaves it as it is, and brings no answer. -/
theorem quiet_alike (h : x.Sound i p) (hevent : event i x m = none)
    (hstill : stirs i x m = false) : Alike i p x (x.perform m) ∧ answer i x m = none := by
  rw [event, Option.or_eq_none_iff, Option.map_eq_none_iff] at hevent
  obtain ⟨hmark, hnothing⟩ := hevent
  obtain ⟨hsame, hanswer⟩ := h.same hmark hstill
  have hbrings := h.arrival m
  rw [hnothing] at hbrings
  exact ⟨⟨hsame, hbrings.resembles⟩, hanswer⟩

/-- What is done with the reader in both leaves the channel the same, and brings the same answer. -/
theorem Alike.own (h : Alike i p x y) (hx : x.Sound i p) (hy : y.Sound i p) (hnow : y.now = x.now)
    {bm : Booth.Move} (hm : bm.concernsReader = true) :
    Alike i p (x.perform (.atBooth i bm)) (y.perform (.atBooth i bm)) ∧
      answer i y (.atBooth i bm) = answer i x (.atBooth i bm) := by
  obtain ⟨hsame, hanswer⟩ := h.same.perform h.log hx.order hx.log.partitions hy.log.partitions
    hx.first x.now hm
  refine ⟨⟨?_, ?_⟩, ?_⟩
  · rw [perform_own, perform_own, hnow]
    exact hsame
  · rw [hx.log_of_own hm, hy.log_of_own hm]
    exact h.log
  · simp only [answer, Concourse.own, if_true, Option.bind_some, hnow]
    exact hanswer

/-- The same event in both leaves the channel the same, and brings the same answer. -/
theorem event_alike (h : Alike i p x y) (hx : x.Sound i p) (hy : y.Sound i p)
    (hnow : y.now = x.now) (hm : event i x m = some ev) (hn : event i y n = some ev)
    (hstill : stirs i x m = false) (hstill' : stirs i y n = false) :
    Alike i p (x.perform m) (y.perform n) ∧ answer i y n = answer i x m := by
  rcases event_cases hm with ⟨bm, rfl, hbm⟩ | ⟨e, rfl, hmark, harrival⟩
  · obtain ⟨hconcerns, hnot⟩ := concernsReader_of_mark hbm
    rcases event_cases hn with ⟨bn, rfl, hbn⟩ | ⟨e, he, -, -⟩
    · obtain rfl := mark_inj hbm hbn
      exact h.own hx hy hnow hconcerns
    · exact absurd he (hnot e)
  · rcases event_cases hn with ⟨bn, rfl, hbn⟩ | ⟨e', he', hmark', harrival'⟩
    · exact absurd rfl ((concernsReader_of_mark hbn).2 e)
    · cases he'
      obtain ⟨hsame, hanswer⟩ := hx.same hmark hstill
      obtain ⟨hsame', hanswer'⟩ := hy.same hmark' hstill'
      have hbrings := hx.arrival m
      have hbrings' := hy.arrival n
      rw [harrival] at hbrings
      rw [harrival'] at hbrings'
      refine ⟨⟨?_, hbrings.both hbrings' h.log⟩, hanswer'.trans hanswer.symm⟩
      exact (hsame.symm.trans h.same).trans hsame'

/-- A step in both of the call that has the reader leaves the channel the same, and brings the same
answer. -/
theorem stir_alike (h : Alike i p x y) (hx : x.Sound i p) (hy : y.Sound i p)
    (hnow : y.now = x.now) (hm : stirs i x m = true) (hn : stirs i y n = true) :
    Alike i p (x.perform m) (y.perform n) ∧ answer i y n = answer i x m := by
  obtain ⟨task, rfl, hhead, -⟩ := eq_proceed_of_stirs hm
  obtain ⟨task', rfl, hhead', -⟩ := eq_proceed_of_stirs hn
  rw [h.same.channel, hhead] at hhead'
  cases hhead'
  exact h.own hx hy hnow rfl

end Likeness

section Clocks

variable {i : Nat} {p : Partition} {x : Concourse} {m : Move} {since k : Nat}

/-- Since a time the clock has not gone beyond one at which a call has to take a step. -/
structure OnTime (i : Nat) (since : Nat) (x : Concourse) : Prop where
  begun : since ≤ x.now
  waits : ∀ t, since ≤ t → restsAt i x t = false → x.now ≤ t

theorem onTime_now (i : Nat) (x : Concourse) : OnTime i x.now x :=
  ⟨Nat.le_refl _, fun _ ht _ => ht⟩

/-- What does not concern the channel keeps it on time, and the clock does if it waits for it. -/
theorem OnTime.quiet (h : OnTime i since x) (hx : x.Sound i p) (hmay : mayPass i x m = true)
    (hevent : event i x m = none) (hstill : stirs i x m = false) :
    OnTime i since (x.perform m) := by
  obtain ⟨halike, -⟩ := quiet_alike hx hevent hstill
  have hrests := halike.restsAt hx (hx.perform m)
  refine ⟨Nat.le_trans h.begun (now_le_perform x m), fun t ht hbusy => ?_⟩
  rw [hrests] at hbusy
  cases m with
  | pass ticks =>
      by_contra hbefore
      have hidle := hx.order.rests_of_mayPass hx.log.partitions hx.first hmay
        (Nat.lt_of_not_le hbefore)
      rw [Concourse.restsAt, hidle] at hbusy
      cases hbusy
  | _ => exact h.waits t ht hbusy

/-- Only the clock itself goes on. -/
theorem now_perform (hm : (∃ ev, event i x m = some ev) ∨ stirs i x m = true) :
    (x.perform m).now = x.now := by
  cases m with
  | pass ticks =>
      have hnothing : event i x (.pass ticks) = none := by
        simp [event, mark, own, arrival, perform]
      rcases hm with ⟨ev, hevent⟩ | hstirs
      · rw [hnothing] at hevent
        cases hevent
      · cases hstirs
  | _ => rfl

theorem chronicle_quiet (hevent : event i x m = none) (hstill : stirs i x m = false)
    (moves : List Move) :
    chronicle i x k (m :: moves) = chronicle i (x.perform m) k moves := by
  rw [chronicle, hevent, hstill]
  rfl

theorem chronicle_stir (hevent : event i x m = none) (hstirs : stirs i x m = true)
    (moves : List Move) :
    chronicle i x k (m :: moves) = chronicle i (x.perform m) (k + 1) moves := by
  rw [chronicle, hevent, hstirs]
  rfl

theorem chronicle_event {ev : Event} (hevent : event i x m = some ev)
    (hstill : stirs i x m = false) (moves : List Move) :
    chronicle i x k (m :: moves) =
      ⟨x.now, if restsAt i x x.now then none else some k, ev⟩ ::
        chronicle i (x.perform m) k moves := by
  rw [chronicle, hevent, hstill]
  rfl

/-- What is still to come comes later, and after more steps. -/
theorem mem_chronicle {d : Dated} {moves : List Move} :
    ∀ {x : Concourse} {k : Nat}, d ∈ chronicle i x k moves →
      x.now ≤ d.time ∧ ∀ j, d.amid = some j → k ≤ j := by
  induction moves with
  | nil =>
      intro x k hd
      cases hd
  | cons m moves ih =>
      intro x k hd
      rcases List.mem_append.1 hd with hnow | hlater
      · obtain ⟨ev, -, rfl⟩ := List.mem_map.1 hnow
        refine ⟨Nat.le_refl _, fun j hj => ?_⟩
        dsimp only at hj
        split at hj
        · cases hj
        · cases hj
          exact Nat.le_refl _
      · obtain ⟨htime, hsteps⟩ := ih hlater
        refine ⟨Nat.le_trans (now_le_perform x m) htime, fun j hj => ?_⟩
        refine Nat.le_trans ?_ (hsteps j hj)
        split
        · exact Nat.le_succ k
        · exact Nat.le_refl k

end Clocks

section Agreement

variable {i : Nat} {p : Partition} {x y : Concourse} {m n : Move} {ms ns : List Move}
  {since k : Nat}

/-- The runs bring the same answers as far as both go, and all the same if both end at one time with
every call at rest. -/
structure Agree (i : Nat) (x : Concourse) (ms : List Move) (y : Concourse) (ns : List Move) :
    Prop where
  shared : answers i x ms <+: answers i y ns ∨ answers i y ns <+: answers i x ms
  whole : (y.run ns).now = (x.run ms).now →
    restsAt i (x.run ms) (x.run ms).now = true → restsAt i (y.run ns) (y.run ns).now = true →
    answers i y ns = answers i x ms

theorem Agree.symm (h : Agree i x ms y ns) : Agree i y ns x ms :=
  ⟨h.shared.symm, fun hnow hy hx => (h.whole hnow.symm hx hy).symm⟩

/-- A move that brings no answer. -/
theorem Agree.skip (h : Agree i (x.perform m) ms y ns) (hm : answer i x m = none) :
    Agree i x (m :: ms) y ns := by
  have hsame : answers i x (m :: ms) = answers i (x.perform m) ms := by
    rw [answers, hm]
    rfl
  constructor
  · rw [hsame]
    exact h.shared
  · rw [hsame]
    exact h.whole

/-- Two moves that bring the same answer. -/
theorem Agree.cons (h : Agree i (x.perform m) ms (y.perform n) ns)
    (hsame : answer i y n = answer i x m) : Agree i x (m :: ms) y (n :: ns) := by
  constructor
  · rw [answers, answers, hsame]
    exact h.shared.imp (List.prefix_append_right_inj _).2 (List.prefix_append_right_inj _).2
  · intro hnow hx hy
    rw [answers, answers, hsame, h.whole hnow hx hy]

/-- The channel looks the same in both, and both are on time. -/
structure Aligned (i : Nat) (p : Partition) (since : Nat) (x y : Concourse) : Prop where
  left : x.Sound i p
  right : y.Sound i p
  alike : Alike i p x y
  leftTime : OnTime i since x
  rightTime : OnTime i since y

theorem Aligned.symm (h : Aligned i p since x y) : Aligned i p since y x :=
  ⟨h.right, h.left, h.alike.symm, h.rightTime, h.leftTime⟩

/-- When a call has to take a step in one of them, the other one is not later. -/
theorem Aligned.now_le (h : Aligned i p since x y) (hbusy : restsAt i x x.now = false) :
    y.now ≤ x.now := by
  refine h.rightTime.waits x.now h.leftTime.begun ?_
  rw [h.alike.restsAt h.left h.right]
  exact hbusy

/-- What does not concern the channel. -/
theorem Aligned.quiet (h : Aligned i p since x y) (hmay : mayPass i x m = true)
    (hevent : event i x m = none) (hstill : stirs i x m = false) :
    Aligned i p since (x.perform m) y where
  left := h.left.perform m
  right := h.right
  alike := (quiet_alike h.left hevent hstill).1.symm.trans h.alike
  leftTime := h.leftTime.quiet h.left hmay hevent hstill
  rightTime := h.rightTime

/-- What concerns both at the same time. -/
theorem Aligned.both (h : Aligned i p since x y) (hnow : y.now = x.now)
    (halike : Alike i p (x.perform m) (y.perform n)) (hm : (x.perform m).now = x.now)
    (hn : (y.perform n).now = y.now) : Aligned i p x.now (x.perform m) (y.perform n) where
  left := h.left.perform m
  right := h.right.perform n
  alike := halike
  leftTime := hm ▸ onTime_now i (x.perform m)
  rightTime := hnow ▸ hn ▸ onTime_now i (y.perform n)

/-- No event comes in one of them before a step that has to be taken in the other one. -/
theorem Aligned.not_event_of_stir (h : Aligned i p since x y) (hx : stirs i x m = true)
    (hxe : event i x m = none) {ev : Event} (hy : event i y n = some ev)
    (hye : stirs i y n = false) :
    chronicle i y k (n :: ns) ≠ chronicle i x k (m :: ms) := by
  obtain ⟨task, -, -, hbusy⟩ := eq_proceed_of_stirs hx
  rw [chronicle_event hy hye, chronicle_stir hxe hx]
  intro hsame
  obtain ⟨htime, hsteps⟩ := mem_chronicle (hsame ▸ List.mem_cons_self)
  rw [now_perform (Or.inr hx)] at htime
  have hnow : y.now = x.now := Nat.le_antisymm (h.now_le hbusy) htime
  -- the call has to take its step there, too, so that the event tells how many were taken before
  have hbusy' : restsAt i y y.now = false := by
    rw [h.alike.restsAt h.left h.right, hnow]
    exact hbusy
  have hmore := hsteps k (by rw [hbusy']; rfl)
  omega

/-- A run that has come to rest is not behind one in which a call has to take a step. -/
theorem Aligned.over (h : Aligned i p since x y) (hy : stirs i y n = true) :
    Agree i x [] y (n :: ns) := by
  obtain ⟨task, -, -, hbusy⟩ := eq_proceed_of_stirs hy
  refine ⟨Or.inl List.nil_prefix, fun hnow hrests _ => ?_⟩
  have hearly : x.now ≤ y.now := h.symm.now_le hbusy
  have hlate : y.now ≤ x.now := hnow ▸ now_le_run y (n :: ns)
  rw [← h.symm.alike.restsAt h.right h.left, Nat.le_antisymm hlate hearly] at hbusy
  rw [show restsAt i (x.run []) (x.run []).now = restsAt i x x.now from rfl, hbusy] at hrests
  cases hrests

/-- What comes next of what concerns the channel. -/
inductive Next (i : Nat) (x : Concourse) : List Move → Prop
  | nothing : Next i x []
  | event {m : Move} {moves : List Move} {ev : Event} (event : Concourse.event i x m = some ev)
      (stirs : Concourse.stirs i x m = false) : Next i x (m :: moves)
  | stir {m : Move} {moves : List Move} (event : Concourse.event i x m = none)
      (stirs : Concourse.stirs i x m = true) : Next i x (m :: moves)

/-- A run can go on until something concerns the channel. -/
theorem Aligned.goOn (h : Aligned i p since x y) (hns : isPrompt i y ns = true) :
    ∃ y' ns', Aligned i p since x y' ∧ isPrompt i y' ns' = true ∧ Next i y' ns' ∧
      (∀ k, chronicle i y k ns = chronicle i y' k ns') ∧
      ∀ ms, Agree i x ms y' ns' → Agree i x ms y ns := by
  induction ns generalizing y with
  | nil => exact ⟨y, [], h, hns, .nothing, fun _ => rfl, fun _ => id⟩
  | cons n ns ih =>
      have hprompt := hns
      rw [isPrompt, Bool.and_eq_true] at hprompt
      cases h.right.turn n with
      | event ev hevent hstill =>
          exact ⟨y, n :: ns, h, hns, .event hevent hstill, fun _ => rfl, fun _ => id⟩
      | stir hevent hstirs =>
          exact ⟨y, n :: ns, h, hns, .stir hevent hstirs, fun _ => rfl, fun _ => id⟩
      | quiet hevent hstill =>
          obtain ⟨y', ns', halign, hprompt', hnext, hchronicle, hagree⟩ :=
            ih (h.symm.quiet hprompt.1 hevent hstill).symm hprompt.2
          refine ⟨y', ns', halign, hprompt', hnext, fun k => ?_, fun ms hafter => ?_⟩
          · rw [chronicle_quiet hevent hstill]
            exact hchronicle k
          · have hskip := (hagree ms hafter).symm.skip (quiet_alike h.right hevent hstill).2
            exact hskip.symm

/-- Runs in which the same concerns the channel at the same times agree. -/
theorem Aligned.agree (h : Aligned i p since x y) (hms : isPrompt i x ms = true)
    (hns : isPrompt i y ns = true) (hsame : chronicle i y k ns = chronicle i x k ms) :
    Agree i x ms y ns := by
  -- the second run is taken to what concerns the channel next whenever the first one has come there
  induction ms generalizing x y since k ns with
  | nil =>
      obtain ⟨y', ns', h', -, hnext, hchronicle, hagree⟩ := h.goOn hns
      refine hagree [] ?_
      rw [hchronicle k] at hsame
      cases hnext with
      | nothing => exact ⟨Or.inl (List.prefix_refl _), fun _ _ _ => rfl⟩
      | event hevent hstill =>
          rw [chronicle_event hevent hstill] at hsame
          cases hsame
      | stir hevent hstirs => exact h'.over hstirs
  | cons m ms ih =>
      rw [isPrompt, Bool.and_eq_true] at hms
      cases h.left.turn m with
      | quiet hevent hstill =>
          rw [chronicle_quiet hevent hstill] at hsame
          exact (ih (h.quiet hms.1 hevent hstill) hms.2 hns hsame).skip
            (quiet_alike h.left hevent hstill).2
      | event ev hevent hstill =>
          obtain ⟨y', ns', h', hns', hnext, hchronicle, hagree⟩ := h.goOn hns
          refine hagree (m :: ms) ?_
          rw [hchronicle k] at hsame
          cases hnext with
          | nothing =>
              rw [chronicle_event hevent hstill] at hsame
              cases hsame
          | stir hevent' hstirs' =>
              exact absurd hsame.symm (h'.symm.not_event_of_stir hstirs' hevent' hevent hstill)
          | event hevent' hstill' =>
              rw [isPrompt, Bool.and_eq_true] at hns'
              rw [chronicle_event hevent hstill, chronicle_event hevent' hstill',
                List.cons.injEq, Dated.mk.injEq] at hsame
              obtain ⟨⟨hnow, -, rfl⟩, hrest⟩ := hsame
              obtain ⟨halike, hanswer⟩ := event_alike h'.alike h'.left h'.right hnow hevent hevent'
                hstill hstill'
              have hafter := h'.both hnow halike (now_perform (Or.inl ⟨_, hevent⟩))
                (now_perform (Or.inl ⟨_, hevent'⟩))
              exact (ih hafter hms.2 hns'.2 hrest).cons hanswer
      | stir hevent hstirs =>
          obtain ⟨y', ns', h', hns', hnext, hchronicle, hagree⟩ := h.goOn hns
          refine hagree (m :: ms) ?_
          rw [hchronicle k] at hsame
          cases hnext with
          | nothing => exact (h'.symm.over hstirs).symm
          | event hevent' hstill' =>
              exact absurd hsame (h'.not_event_of_stir hstirs hevent hevent' hstill')
          | stir hevent' hstirs' =>
              rw [isPrompt, Bool.and_eq_true] at hns'
              rw [chronicle_stir hevent hstirs, chronicle_stir hevent' hstirs'] at hsame
              obtain ⟨-, -, -, hbusy⟩ := eq_proceed_of_stirs hstirs
              obtain ⟨-, -, -, hbusy'⟩ := eq_proceed_of_stirs hstirs'
              have hnow : y'.now = x.now :=
                Nat.le_antisymm (h'.now_le hbusy) (h'.symm.now_le hbusy')
              obtain ⟨halike, hanswer⟩ := stir_alike h'.alike h'.left h'.right hnow hstirs hstirs'
              have hafter := h'.both hnow halike (now_perform (Or.inr hstirs))
                (now_perform (Or.inr hstirs'))
              exact (ih hafter hms.2 hns'.2 hsame).cons hanswer

end Agreement

section Seclusion

/-- A channel sees only its own partition.  Two runs on logs of which a poll takes equally many
records may differ in everything but what the channel is asked and what arrives in its partition,
and when: as far as both go its polls and replays bring the same, at the same times, and leave the
reader at the same position, and if both end at one time with every call at rest, they bring all the
same. -/
theorem answers_eq_of_chronicle_eq {i : Nat} {schema : CommandSchema} {topic : String}
    {x y : Concourse} (hx : x.Opens i schema topic) (hy : y.Opens i schema topic)
    (hroom : y.log.settings.maxPollRecords = x.log.settings.maxPollRecords) (hnow : y.now = x.now)
    {ms ns : List Move} (hms : isPrompt i x ms = true) (hns : isPrompt i y ns = true)
    (hsame : chronicle i y 0 ns = chronicle i x 0 ms) :
    (answers i x ms <+: answers i y ns ∨ answers i y ns <+: answers i x ms) ∧
      ((y.run ns).now = (x.run ms).now → restsAt i (x.run ms) (x.run ms).now = true →
        restsAt i (y.run ns) (y.run ns).now = true → answers i y ns = answers i x ms) := by
  have hwritten : y.log.written ⟨topic, Channel.commandPartition⟩ =
      x.log.written ⟨topic, Channel.commandPartition⟩ := by
    rw [hx.log, hy.log]
    rfl
  have halike : Alike i ⟨topic, Channel.commandPartition⟩ x y := by
    refine ⟨?_, hwritten, hroom⟩
    rw [hx.booth, hy.booth]
    exact .refl _
  have haligned : Aligned i _ x.now x y :=
    ⟨hx.sound, hy.sound, halike, onTime_now i x, hnow ▸ onTime_now i y⟩
  have hagree := haligned.agree hms hns hsame
  exact ⟨hagree.shared, hagree.whole⟩

/-- Channels on two topics, two of them on the first one, and readers, on a new log. -/
def sample (partitions : Nat) : Concourse where
  log := { settings := { defaultPartitions := partitions } }
  booths i := .opened .json (if i < 2 then "commands" else "others")
  stands _ := { Key := CommandId, Value := Command, schema := CommandSchema.json }

/-- A command is sent through a channel. -/
def sampleSend (i : Nat) : Move :=
  .atBooth i (.send ⟨.stream, "clicks", .create, by decide⟩ { statement := "CREATE" })

/-- A channel polls, gets its own command, and polls in vain. -/
def secludedMoves : List Move :=
  [.atBooth 0 (.ask (.poll .batch 5)), .atBooth 0 (.proceed 0), .atBooth 0 (.proceed 0), .pass 2,
    sampleSend 0, .atBooth 0 (.proceed 0), .atBooth 0 (.ask (.poll .commands 3)),
    .atBooth 0 (.proceed 1), .atBooth 0 (.proceed 1), .pass 3, .atBooth 0 (.proceed 1)]

/-- The same polls, but the command is that of another channel, and many others are about, so that
the polls are woken again and again. -/
def crowdedMoves : List Move :=
  [.onLog (.createTopic "commands" 3), .atBooth 2 (.ask (.poll .commands 1)),
    .atBooth 0 (.ask (.poll .batch 5)), .atBooth 0 (.proceed 0), .atBooth 2 (.proceed 0),
    .atBooth 0 (.proceed 0), .atStand 0 (.assign [⟨"commands", 0⟩]), .atStand 0 (.poll 4),
    .onLog (.append "commands" (some 1) ⟨[], none⟩), .atBooth 0 (.proceed 0), .pass 1,
    .atBooth 2 .interrupt, .atStand 0 .wake, sampleSend 2, .atBooth 0 (.proceed 0),
    .atStand 0 .close, .pass 1, sampleSend 1, .atBooth 0 (.proceed 0),
    .atBooth 0 (.ask (.poll .commands 3)), .atBooth 0 (.proceed 1), .atBooth 0 (.proceed 1),
    .atBooth 1 (.ask .close), sampleSend 2, .atBooth 0 (.proceed 1), .pass 2, sampleSend 2,
    .atBooth 0 (.proceed 1), .pass 1, .onLog (.createTopic "more" 1), .atBooth 0 (.proceed 1)]

/-- In the sample the polls bring the same in both runs: one command, and later nothing. -/
theorem answers_eq_of_chronicle_eq_sample :
    chronicle 0 (sample 2) 0 crowdedMoves = chronicle 0 (sample 1) 0 secludedMoves ∧
      answers 0 (sample 2) crowdedMoves = answers 0 (sample 1) secludedMoves ∧
      (answers 0 (sample 1) secludedMoves).map (fun a => (a.task, a.time, a.position)) =
        [(0, 2, some 1), (1, 5, some 1)] := by
  have hsame : chronicle 0 (sample 2) 0 crowdedMoves = chronicle 0 (sample 1) 0 secludedMoves := by
    decide +kernel
  have hseclusion := answers_eq_of_chronicle_eq (i := 0) (x := sample 1) (y := sample 2)
    ⟨rfl, rfl⟩ ⟨rfl, rfl⟩ rfl rfl (by decide +kernel) (by decide +kernel) hsame
  refine ⟨hsame, hseclusion.2 ?_ ?_ ?_, by decide +kernel⟩
  · decide +kernel
  · decide +kernel
  · decide +kernel

end Seclusion

end Concourse
end ReplicatedLog
