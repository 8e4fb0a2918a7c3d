import ReplicatedLog.Proofs.Dispatch.Basic

/-!
# The conservation of acknowledgments

Every append that lands is given one acknowledgment, and none is lost or told twice.

* `Sent.Stands`: an append waits for the acknowledgment of its own landing, or has failed and knows
  it, and `Sent.IsTold`: its waiter is told what has become of it;
* `Balanced` is the invariant of all moves;
* `Conserves` is what is promised at any time, `Passes` what a move may do to acknowledgments, and
  `run_conserves_acks` that both hold whatever is done.
-/

namespace ReplicatedLog
namespace Dispatch

section Balance

/-- How an append stands: it waits for the acknowledgment of its own landing, or it has failed and
this is known. -/
inductive Sent.Stands (landings : List Position) (s : Sent) : Prop
  | landed (q : Position) (e : Entry) (k : Nat) (landed : s.landed = some (q, e))
      (wait : s.wait = .ack k) (place : landings[k]? = some q)
  | failed (cause : Rejection) (landed : s.landed = none)
      (wait : s.wait = .known (.error (.failed cause)))

/-- The entry of an append that has landed is where its position says. -/
def Sent.IsStored (s : Sent) (log : Log) : Prop :=
  ∀ q e, s.landed = some (q, e) → (log.written q.partition)[q.offset]? = some e

/-- The waiter for an append is told its outcome, or that its channel was interrupted. -/
def Sent.IsTold (s : Sent) (log : Log) : Told → Prop
  | .outcome o => s.wire = none ∧ log.outcome s.wait = some o
  | .result r => s.wire ≠ none ∧
      ((∃ o, log.outcome s.wait = some o ∧ r = answer o) ∨ r = .error .interrupted)

/-- Somebody has been told something, rightly, and waits no more. -/
structure Answers (d : Dispatch) (x : TaskId × Told) : Prop where
  entered : x.1 < d.next
  gone : d.waiters x.1 = none
  truth : x.2 = .result (.error .closed) ∨ ∃ s ∈ d.sends, s.task = x.1 ∧ s.IsTold d.log x.2

/-- What is kept along the moves. -/
structure Balanced (d : Dispatch) : Prop where
  tallies : d.log.Tallies d.landings
  tickets : d.sends.filterMap Sent.ticket = List.range d.landings.length
  stands : ∀ s ∈ d.sends, s.Stands d.landings
  sound : d.log.Sound
  stored : ∀ s ∈ d.sends, s.IsStored d.log
  fresh : ∀ task, d.next ≤ task → d.waiters task = none
  waits : ∀ task w, d.waiters task = some w → ∃ s ∈ d.sends, w.Awaits task s
  told : ∀ x ∈ d.told, d.Answers x
  once : (d.told.map Prod.fst).Nodup

variable {d : Dispatch}

theorem balanced_new (settings : Log.Settings) (writers : Nat → Writer) (wires : Nat → Wire) :
    (new settings writers wires).Balanced := by
  constructor
  · exact Log.tallies_new settings
  · rfl
  · exact fun s hs => absurd hs List.not_mem_nil
  · exact Log.sound_new settings
  · exact fun s hs => absurd hs List.not_mem_nil
  · exact fun _ _ => rfl
  · nofun
  · exact fun x hx => absurd hx List.not_mem_nil
  · exact List.nodup_nil

theorem Sent.Stands.append {s : Sent} {landings : List Position} (h : s.Stands landings)
    (more : List Position) : s.Stands (landings ++ more) := by
  cases h with
  | failed cause landed wait => exact .failed cause landed wait
  | landed q e k landed wait place =>
      refine .landed q e k landed wait ?_
      rw [List.getElem?_append_left (List.getElem?_eq_some_iff.1 place).1]
      exact place

theorem Sent.IsStored.grows {s : Sent} {log after : Log} (h : s.IsStored log)
    (hg : log.Grows after) : s.IsStored after := by
  rintro q e hs
  have hthere := h q e hs
  obtain ⟨more, hmore⟩ := hg.entries q.partition
  rw [← hmore, List.getElem?_append_left (List.getElem?_eq_some_iff.1 hthere).1]
  exact hthere

/-- An append that does what its landing says is stored there. -/
theorem Sent.isStored_of_lands {s : Sent} {log after : Log} {topic : String} {index : Option Nat}
    (h : Writer.Lands log after topic index s.landed) : s.IsStored after := by
  rintro q e hs
  rw [hs] at h
  obtain ⟨-, -, hoffset, hadds⟩ := h
  rw [hadds q.partition, if_pos rfl, hoffset]
  simp

theorem Sent.IsTold.settled {s : Sent} {log after : Log} {x : Told} (h : s.IsTold log x)
    (hs : log.Settled after) : s.IsTold after x := by
  cases x with
  | outcome o => exact ⟨h.1, hs.outcome h.2⟩
  | result r =>
      refine ⟨h.1, ?_⟩
      rcases h.2 with ⟨o, ho, hr⟩ | hr
      · exact Or.inl ⟨o, hs.outcome ho, hr⟩
      · exact Or.inr hr

/-- What is due to a waiter is told of the append that it waits for. -/
theorem Due.isTold {w : Waiter} {x : Told} {s : Sent} {task : TaskId} (h : d.Due w x)
    (hs : w.Awaits task s) : s.IsTold d.log x := by
  have hwire := hs.wire
  cases h with
  | @outcome w o there =>
      rw [← hs.wait] at there
      cases w with
      | plain wait => exact ⟨hwire, there⟩
      | sending i wait n =>
          refine ⟨?_, Or.inl ⟨o, there, rfl⟩⟩
          rw [hwire]
          nofun
  | interrupted missing since =>
      refine ⟨?_, Or.inr rfl⟩
      rw [hwire]
      nofun

/-- What a move does to the account of the sends. -/
theorem Balanced.sends (h : d.Balanced) (m : Move) :
    (d.perform m).sends.filterMap Sent.ticket = List.range (d.perform m).landings.length ∧
      (∀ s ∈ (d.perform m).sends, s.Stands (d.perform m).landings) ∧
        d.sends <+: (d.perform m).sends := by
  have hstill : (d.perform m).sends = d.sends →
      (d.perform m).sends.filterMap Sent.ticket = List.range (d.perform m).landings.length ∧
        (∀ s ∈ (d.perform m).sends, s.Stands (d.perform m).landings) ∧
          d.sends <+: (d.perform m).sends := fun hsends => by
    rw [landings_of_sends hsends, hsends]
    exact ⟨h.tickets, h.stands, List.prefix_refl _⟩
  cases perform_shift h.tallies m with
  | still sends holding held ledger => exact hstill sends
  | hold move sends log => exact hstill sends
  | release move sends log => exact hstill sends
  | abandon move sends log => exact hstill sends
  | issue s sends enters =>
      rw [landings_of_issue sends, sends]
      obtain ⟨task, wire, wait, landed⟩ := s
      refine ⟨?_, ?_, List.prefix_append _ _⟩
      · rw [List.filterMap_append, h.tickets]
        cases enters with
        | failed cause holding held ledger => simp [Sent.ticket]
        | landed q e holding tallies ledger => simp [Sent.ticket, List.range_succ]
      · rintro s hs
        rcases List.mem_append.1 hs with hs | hs
        · exact (h.stands s hs).append _
        · rw [List.mem_singleton.1 hs]
          cases enters with
          | failed cause holding held ledger => exact .failed cause rfl rfl
          | landed q e holding tallies ledger =>
              refine .landed q e _ rfl rfl ?_
              simp

theorem Balanced.stored_perform (h : d.Balanced) (m : Move) :
    ∀ s ∈ (d.perform m).sends, s.IsStored (d.perform m).log := by
  have hold : ∀ s ∈ d.sends, s.IsStored (d.perform m).log :=
    fun s hs => (h.stored s hs).grows (perform_grows d m)
  rcases perform_lands h.sound m with hsends | ⟨s, topic, index, hsends, hlands⟩
  · rw [hsends]
    exact hold
  · rw [hsends]
    rintro x hx
    rcases List.mem_append.1 hx with hx | hx
    · exact hold x hx
    · rw [List.mem_singleton.1 hx]
      exact Sent.isStored_of_lands hlands

theorem Balanced.lt_next (h : d.Balanced) {task : TaskId} {w : Waiter}
    (hw : d.waiters task = some w) : task < d.next := by
  by_contra hge
  rw [h.fresh task (Nat.le_of_not_lt hge)] at hw
  cases hw

/-- What has been told before a move goes on to be right. -/
theorem Balanced.answers_perform (h : d.Balanced) (m : Move) :
    ∀ x ∈ d.told, (d.perform m).Answers x := by
  rintro x hx
  obtain ⟨hlt, hnone, htruth⟩ := h.told x hx
  refine ⟨Nat.lt_of_lt_of_le hlt (perform_next d m), ?_, ?_⟩
  · rw [Option.eq_none_iff_forall_ne_some]
    rintro w hw
    rcases perform_waiters d m hw with hold | hbegins
    · rw [hnone] at hold
      cases hold
    · exact Nat.ne_of_lt hlt hbegins.new
  · rcases htruth with hclosed | ⟨s, hs, htask, htold⟩
    · exact Or.inl hclosed
    · have hsettled := ((perform_shift h.tallies m).tallies h.tallies).2
      exact Or.inr ⟨s, (h.sends m).2.2.subset hs, htask, htold.settled hsettled⟩

/-- Whoever is told something by a move has not been told before. -/
theorem Balanced.told_perform (h : d.Balanced) (m : Move) :
    (∀ x ∈ (d.perform m).told, (d.perform m).Answers x) ∧
      ((d.perform m).told.map Prod.fst).Nodup := by
  have hall := h.answers_perform m
  rcases perform_told d m with hsame | ⟨x, hmore, hnone, hx⟩
  · rw [hsame]
    exact ⟨hall, h.once⟩
  · have hfirst : x.1 ∉ d.told.map Prod.fst := by
      rintro hmem
      obtain ⟨y, hy, hsame⟩ := List.mem_map.1 hmem
      obtain ⟨hlt, hover, -⟩ := h.told y hy
      rcases hx with ⟨rfl, -⟩ | ⟨w, hw, -⟩
      · exact Nat.ne_of_lt hlt hsame
      · rw [hsame, hw] at hover
        cases hover
    have hnow : (d.perform m).Answers x := by
      rcases hx with ⟨rfl, hnext⟩ | ⟨w, hw, hdue, -⟩
      · exact ⟨hnext ▸ Nat.lt_succ_self _, hnone, Or.inl rfl⟩
      · obtain ⟨s, hs, hawaits⟩ := h.waits x.1 w hw
        have hsettled := ((perform_shift h.tallies m).tallies h.tallies).2
        refine ⟨Nat.lt_of_lt_of_le (h.lt_next hw) (perform_next d m), hnone, Or.inr ⟨s, ?_⟩⟩
        exact ⟨(h.sends m).2.2.subset hs, hawaits.task, (hdue.isTold hawaits).settled hsettled⟩
    rw [hmore]
    constructor
    · rintro y hy
      rcases List.mem_append.1 hy with hy | hy
      · exact hall y hy
      · exact List.mem_singleton.1 hy ▸ hnow
    · rw [List.map_append, List.nodup_append]
      refine ⟨h.once, by simp, ?_⟩
      rintro a ha b hb rfl
      simp only [List.map_cons, List.map_nil, List.mem_singleton] at hb
      exact hfirst (hb ▸ ha)

theorem Balanced.perform (h : d.Balanced) (m : Move) : (d.perform m).Balanced := by
  obtain ⟨htickets, hstands, hsends⟩ := h.sends m
  obtain ⟨htold, honce⟩ := h.told_perform m
  have htallies := ((perform_shift h.tallies m).tallies h.tallies).1
  refine ⟨htallies, htickets, hstands, perform_sound h.sound m, h.stored_perform m, ?_, ?_, htold,
    honce⟩
  · rintro task htask
    rw [Option.eq_none_iff_forall_ne_some]
    rintro w hw
    rcases perform_waiters d m hw with hold | hbegins
    · exact Nat.not_lt_of_le (Nat.le_trans (perform_next d m) htask) (h.lt_next hold)
    · rw [hbegins.next, hbegins.new] at htask
      exact Nat.not_succ_le_self _ htask
  · rintro task w hw
    rcases perform_waiters d m hw with hold | hbegins
    · obtain ⟨s, hs, hawaits⟩ := h.waits task w hold
      exact ⟨s, hsends.subset hs, hawaits⟩
    · exact hbegins.issued

theorem run_balanced (settings : Log.Settings) (writers : Nat → Writer) (wires : Nat → Wire)
    (moves : List Move) : ((new settings writers wires).run moves).Balanced :=
  run_induction (balanced_new settings writers wires) (fun _ m h => h.perform m) moves

end Balance

section Promises

variable {d : Dispatch}

/-- What is promised of acknowledgments at any time. -/
structure Conserves (d : Dispatch) : Prop where
  /-- The landings have been given their acknowledgments in order, one each. -/
  tickets : d.sends.filterMap Sent.ticket = List.range d.landings.length
  /-- An append waits for the acknowledgment of its own landing, or has failed and knows it. -/
  stands : ∀ s ∈ d.sends, s.Stands d.landings
  /-- The position of a landing is where its entry is. -/
  stored : ∀ s ∈ d.sends, s.IsStored d.log
  /-- The acknowledgment of a landing is in exactly one place, and its waiter sees which. -/
  places : ∀ (k : Nat) (p : Position), d.landings[k]? = some p →
    (∃! place, d.log.Puts k p place) ∧
      ∀ place, d.log.Puts k p place → d.log.outcome (.ack k) = place.outcome p
  /-- What is held is what is not settled, in the order of the appends. -/
  parked : d.log.held.map Prod.fst = d.log.unsettled
  idle : d.log.isHolding = false → d.log.held = []
  /-- A release tells how many were parked, leaves none, and ends the holding. -/
  release : d.log.release.1 = d.log.unsettled.length ∧ d.log.release.2.held = [] ∧
    d.log.release.2.unsettled = [] ∧ d.log.release.2.isHolding = false
  /-- So does an abandoning, but the holding goes on. -/
  abandon : d.log.abandon.1 = d.log.unsettled.length ∧ d.log.abandon.2.held = [] ∧
    d.log.abandon.2.unsettled = [] ∧ d.log.abandon.2.isHolding = d.log.isHolding
  /-- What one is told is the outcome of the own append, unless the own channel was interrupted or
  is shut down. -/
  told : ∀ x ∈ d.told, d.Answers x
  /-- Everybody is told once at most. -/
  once : (d.told.map Prod.fst).Nodup

theorem Balanced.conserves (h : d.Balanced) : d.Conserves := by
  have hcount : d.log.held.length = d.log.unsettled.length := by
    rw [← h.tallies.parked, List.length_map]
  constructor
  · exact h.tickets
  · exact h.stands
  · exact h.stored
  · exact fun k p hp => ⟨h.tallies.place hp, fun place hplace => h.tallies.outcome hp hplace⟩
  · exact h.tallies.parked
  · exact h.tallies.idle
  · exact ⟨hcount, rfl, h.tallies.release.1.parked.symm, rfl⟩
  · exact ⟨hcount, rfl, h.tallies.abandon.1.parked.symm, rfl⟩
  · exact h.told
  · exact h.once

/-- An acknowledgment stays where it is, or goes from one place to another. -/
inductive Passage (m : Move) : Log.Place → Log.Place → Prop
  | stay (place : Log.Place) : Passage m place place
  | release (move : m = .release) : Passage m .parked .completed
  | abandon (move : m = .abandon) : Passage m .parked .dropped

/-- What a move may do to acknowledgments. -/
structure Passes (d : Dispatch) (m : Move) (d' : Dispatch) : Prop where
  /-- Only what is parked goes elsewhere, by a release or an abandoning. -/
  passage : ∀ (k : Nat) (p : Position) (place : Log.Place), d.landings[k]? = some p →
    d.log.Puts k p place → d'.landings[k]? = some p ∧
      ∃ place', d'.log.Puts k p place' ∧ Passage m place place'
  /-- Only a release ends the holding. -/
  holding : d.log.isHolding = true → d'.log.isHolding = false → m = .release
  /-- An append that fails parks nothing and is told of at once. -/
  failed : ∀ s, d'.sends = d.sends ++ [s] → s.landed = none →
    d'.log.held = d.log.held ∧ d'.log.ledger = d.log.ledger ∧
      ∃ cause, d'.log.outcome s.wait = some (.error (.failed cause))
  /-- An append that lands is parked if acknowledgments are held back, and completed otherwise. -/
  landed : ∀ s q e, d'.sends = d.sends ++ [s] → s.landed = some (q, e) →
    s.wait = .ack d.landings.length ∧ d'.log.Puts d.landings.length q d.log.arrival
  /-- Whoever goes on and can see an outcome is told so. -/
  heard : ∀ task w o, m = .resume task → d.waiters task = some w →
    d.log.outcome w.wait = some o → d'.told = d.told ++ [(task, w.hears o)]

/-- What a move does to the acknowledgment of an earlier landing. -/
theorem Balanced.passage (h : d.Balanced) (m : Move) {k : Nat} {p : Position} {place : Log.Place}
    (hp : d.landings[k]? = some p) (hplace : d.log.Puts k p place) :
    (d.perform m).landings[k]? = some p ∧
      ∃ place', (d.perform m).log.Puts k p place' ∧ Passage m place place' := by
  have hshift := perform_shift h.tallies m
  obtain ⟨hafter, hsettled⟩ := hshift.tallies h.tallies
  have hsame : (d.perform m).landings[k]? = some p := by
    cases hshift with
    | issue s sends enters =>
        rw [landings_of_issue sends,
          List.getElem?_append_left (List.getElem?_eq_some_iff.1 hp).1]
        exact hp
    | _ => rw [landings_of_sends ‹_›, hp]
  refine ⟨hsame, ?_⟩
  by_cases hparked : place = .parked
  · subst hparked
    have hout := (h.tallies.puts_iff hp .parked).1 hplace
    have hstay : (d.perform m).log.ledger[k]? = d.log.ledger[k]? →
        ∃ place', (d.perform m).log.Puts k p place' ∧ Passage m .parked place' := fun hledger =>
      ⟨.parked, (hafter.puts_iff hsame .parked).2 (hledger.trans hout), .stay _⟩
    cases hshift with
    | still sends holding held ledger => exact hstay (by rw [ledger])
    | hold move sends log => exact hstay (by rw [log]; rfl)
    | release move sends log =>
        rw [log]
        exact ⟨.completed, h.tallies.release.2.2 k p hplace, .release move⟩
    | abandon move sends log =>
        rw [log]
        exact ⟨.dropped, h.tallies.abandon.2.2 k p hplace, .abandon move⟩
    | issue s sends enters =>
        obtain ⟨task, wire, wait, landed⟩ := s
        cases enters with
        | failed cause holding held ledger => exact hstay (by rw [ledger])
        | landed q e holding tallies ledger =>
            have hlt := (Array.getElem?_eq_some_iff.1 hout).1
            exact hstay (by rw [ledger, (Log.push_ledger d.log _).1 k hlt])
  · exact ⟨place, hsettled.puts hparked hplace, .stay place⟩

/-- What a move does to an append that it issues. -/
theorem Balanced.issue (h : d.Balanced) {m : Move} {s : Sent}
    (hs : (d.perform m).sends = d.sends ++ [s]) :
    d.log.Enters (d.perform m).log d.landings s.wait s.landed := by
  have hgrown : (d.perform m).sends ≠ d.sends := fun hsame => by
    rw [hsame] at hs
    simp at hs
  cases perform_shift h.tallies m with
  | issue s' sends enters =>
      rw [hs] at sends
      have hsame := List.append_cancel_left sends
      cases hsame
      exact enters
  | _ => exact absurd ‹_› hgrown

theorem Balanced.passes (h : d.Balanced) (m : Move) : d.Passes m (d.perform m) := by
  constructor
  · exact fun k p place hp hplace => h.passage m hp hplace
  · rintro hbefore hafter
    cases perform_shift h.tallies m with
    | release move sends log => exact move
    | still sends holding held ledger =>
        rw [holding, hbefore] at hafter
        cases hafter
    | hold move sends log =>
        rw [log] at hafter
        cases hafter
    | abandon move sends log =>
        rw [log] at hafter
        rw [show d.log.isHolding = false from hafter] at hbefore
        cases hbefore
    | issue s sends enters =>
        rw [enters.isHolding, hbefore] at hafter
        cases hafter
  · rintro s hs hfailed
    have henters := h.issue hs
    rw [hfailed] at henters
    generalize hwait : s.wait = wait at henters
    cases henters with
    | failed cause holding held ledger => exact ⟨held, ledger, cause, rfl⟩
  · rintro s q e hs hlanded
    have henters := h.issue hs
    rw [hlanded] at henters
    generalize hwait : s.wait = wait at henters
    cases henters with
    | landed q e holding tallies ledger =>
        refine ⟨rfl, (tallies.puts_iff ?_ d.log.arrival).2 ?_⟩
        · simp
        · rw [ledger, ← h.tallies.size]
          exact (Log.push_ledger d.log _).2
  · rintro task w o rfl hw ho
    rw [perform_resume_told d hw ho]
    rfl

/-- Acknowledgments are conserved, whoever sends and whatever else is done: none is lost, settled
twice or taken for another one. -/
theorem run_conserves_acks (settings : Log.Settings) (writers : Nat → Writer)
    (wires : Nat → Wire) (moves : List Move) :
    let d := (new settings writers wires).run moves
    d.Conserves ∧ (∀ m, d.Passes m (d.perform m)) ∧
      ∀ later, d.log.Settled (d.run later).log := by
  have h := run_balanced settings writers wires moves
  exact ⟨h.conserves, h.passes, fun later => run_settled h.tallies later⟩

/-- The send of a command through a channel. -/
def sampleSend (wire : Nat) : Move :=
  .sendOn wire ⟨.table, "stock", .create, by decide⟩ { statement := "CREATE" }

/-- A writer and a channel send while acknowledgments are held back, with a rejection in between;
what is held back is abandoned first, and released later. -/
def sampleMoves : List Move :=
  let send : Move := .send 0 .texts "commands" (some 0) "a" (some "b")
  [send, .hold, send, sampleSend 0, .interrupt 0, .resume 2, .abandon, .resume 1,
    .failNext ⟨"Timeout", "no answer", false⟩, send, .resume 3, send, .leave 4, send, .release,
    .resume 5, .resume 0]

/-- In the sample everybody but the one who has left is told. -/
theorem run_conserves_acks_sample :
    let wires : Nat → Wire := fun _ => { schema := .json, channel.partition := ⟨"commands", 0⟩ }
    let d := (new {} (fun _ => {}) wires).run sampleMoves
    d.Conserves ∧ d.landings.map (fun p => p.offset) = [0, 1, 2, 3, 4] ∧
      d.log.held = [] ∧ d.told =
        [(2, .result (.error .interrupted)), (1, .outcome (.error .abandoned)),
          (3, .outcome (.error (.failed ⟨"Timeout", "no answer", false⟩))),
          (5, .outcome (.ok ⟨"commands", 0, 4⟩)), (0, .outcome (.ok ⟨"commands", 0, 0⟩))] :=
  ⟨(run_conserves_acks {} _ _ sampleMoves).1, rfl, rfl, rfl⟩

end Promises

end Dispatch
end ReplicatedLog
