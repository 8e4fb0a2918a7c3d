import ReplicatedLog.Proofs.Log.Order
import Mathlib.Logic.ExistsUnique
import Mathlib.Logic.Function.Basic

/-!
# The account of acknowledgments

The acknowledgments of a log belong to the appends that have landed, in their order.

* `Log.Place`: an acknowledgment is completed, parked or dropped, and `Place.outcome` is what its
  waiter then sees;
* `Log.Tallies`: the ledger has one acknowledgment for each append that has landed, what is held is
  what is outstanding, in order, and nothing is held unless acknowledgments are held back;
* `Tallies.acknowledge`, `Tallies.release` and `Tallies.abandon`: this is kept by what is done to
  acknowledgments, and `Log.Settled`: what is settled stays so;
* `send_enters`: what a send does to the account.
-/

namespace ReplicatedLog
namespace Log

section Ledgers

variable {log after : Log} {k : AckId} {p : Position} {landings : List Position}

/-- The acknowledgment has not been settled yet. -/
def isUnsettled (log : Log) (k : AckId) : Bool :=
  match log.ledger[k]? with
  | some .outstanding => true
  | _ => false

theorem isUnsettled_iff : log.isUnsettled k = true ↔ log.ledger[k]? = some .outstanding := by
  rw [isUnsettled]
  split
  next h => simp [h]
  next h => simpa using fun hk => h hk

/-- The acknowledgments that have not been settled yet, in the order of their appends. -/
def unsettled (log : Log) : List AckId :=
  (List.range log.ledger.size).filter log.isUnsettled

theorem mem_unsettled_iff : k ∈ log.unsettled ↔ log.ledger[k]? = some .outstanding := by
  rw [unsettled, List.mem_filter, List.mem_range, isUnsettled_iff]
  constructor
  · exact fun h => h.2
  · exact fun h => ⟨(Array.getElem?_eq_some_iff.1 h).1, h⟩

theorem unsettled_of_ledger (h : after.ledger = log.ledger) : after.unsettled = log.unsettled := by
  have hsame : after.isUnsettled = log.isUnsettled := by
    funext k
    rw [isUnsettled, isUnsettled, h]
  rw [unsettled, unsettled, h, hsame]

/-- Where an acknowledgment can be. -/
inductive Place
  | completed
  | parked
  | dropped
  deriving DecidableEq, Repr

namespace Place

/-- What has become of an acknowledgment there. -/
def ack (p : Position) : Place → Ack
  | completed => .resolved (.ok p)
  | parked => .outstanding
  | dropped => .dropped

/-- What its waiter sees. -/
def outcome (p : Position) : Place → Option Outcome
  | completed => some (.ok p)
  | parked => none
  | dropped => some (.error .abandoned)

theorem ack_injective (p : Position) : Function.Injective (ack p) := by
  rintro (_ | _ | _) (_ | _ | _) h <;> first | rfl | cases h

end Place

/-- The acknowledgment of an append at a position is in this place. -/
def Puts (log : Log) (k : AckId) (p : Position) : Place → Prop
  | .completed => log.ledger[k]? = some (.resolved (.ok p))
  | .parked => (k, p) ∈ log.held
  | .dropped => log.ledger[k]? = some .dropped

/-- The account of a log on which appends have landed at these positions, one after the other. -/
structure Tallies (log : Log) (landings : List Position) : Prop where
  size : log.ledger.size = landings.length
  state : ∀ (k : AckId) (p : Position), landings[k]? = some p →
    ∃ place : Place, log.ledger[k]? = some (place.ack p)
  parked : log.held.map Prod.fst = log.unsettled
  own : ∀ h ∈ log.held, landings[h.1]? = some h.2
  idle : log.isHolding = false → log.held = []

theorem tallies_new (settings : Settings) : ({ settings } : Log).Tallies [] := by
  constructor
  · rfl
  · nofun
  · rfl
  · exact fun h hmem => absurd hmem List.not_mem_nil
  · exact fun _ => rfl

/-- A log with the same acknowledgments. -/
theorem Tallies.of_frame (h : log.Tallies landings) (hh : after.isHolding = log.isHolding)
    (hd : after.held = log.held) (hl : after.ledger = log.ledger) : after.Tallies landings := by
  constructor
  · rw [hl]
    exact h.size
  · rw [hl]
    exact h.state
  · rw [hd, unsettled_of_ledger hl]
    exact h.parked
  · rw [hd]
    exact h.own
  · rw [hh, hd]
    exact h.idle

theorem Tallies.puts_iff (h : log.Tallies landings) (hp : landings[k]? = some p) (place : Place) :
    log.Puts k p place ↔ log.ledger[k]? = some (place.ack p) := by
  cases place with
  | completed => exact Iff.rfl
  | dropped => exact Iff.rfl
  | parked =>
      rw [Place.ack, ← mem_unsettled_iff, ← h.parked, List.mem_map]
      constructor
      · exact fun hmem => ⟨(k, p), hmem, rfl⟩
      · rintro ⟨⟨j, q⟩, hmem, rfl⟩
        have hown := h.own _ hmem
        rw [hp] at hown
        cases hown
        exact hmem

/-- An acknowledgment is in exactly one place. -/
theorem Tallies.place (h : log.Tallies landings) (hp : landings[k]? = some p) :
    ∃! place, log.Puts k p place := by
  obtain ⟨place, hplace⟩ := h.state k p hp
  refine ⟨place, (h.puts_iff hp place).2 hplace, fun other hother => ?_⟩
  have hsame := ((h.puts_iff hp other).1 hother).symm.trans hplace
  exact Place.ack_injective p (Option.some.inj hsame)

/-- The waiter for an acknowledgment sees where it is. -/
theorem Tallies.outcome (h : log.Tallies landings) (hp : landings[k]? = some p) {place : Place}
    (hplace : log.Puts k p place) : log.outcome (.ack k) = place.outcome p := by
  rw [Log.outcome, (h.puts_iff hp place).1 hplace]
  cases place <;> rfl

end Ledgers

section Settling

variable {log after : Log} {k : AckId} {p q : Position} {landings : List Position}

/-- What is settled in the earlier log is settled in the same way in the later one. -/
def Settled (before after : Log) : Prop :=
  ∀ (k : AckId) (a : Ack), before.ledger[k]? = some a → a ≠ .outstanding →
    after.ledger[k]? = some a

theorem Settled.of_ledger (h : after.ledger = log.ledger) : log.Settled after := by
  rintro k a hk -
  rw [h]
  exact hk

theorem Settled.trans {a b c : Log} (h : a.Settled b) (h' : b.Settled c) : a.Settled c :=
  fun k x hk hx => h' k x (h k x hk hx) hx

/-- An outcome that is there stays what it is. -/
theorem Settled.outcome (h : log.Settled after) {w : Wait} {o : Outcome}
    (ho : log.outcome w = some o) : after.outcome w = some o := by
  cases w with
  | known outcome => exact ho
  | ack k =>
      rw [Log.outcome] at ho ⊢
      split at ho
      next hk =>
        rw [h k _ hk (by simp)]
        exact ho
      next hk =>
        rw [h k _ hk (by simp)]
        exact ho
      next => cases ho

/-- Entering the acknowledgment of one more append, with what has become of it so far. -/
theorem push_ledger (log : Log) (a : Ack) :
    (∀ k < log.ledger.size, (log.ledger.push a)[k]? = log.ledger[k]?) ∧
      (log.ledger.push a)[log.ledger.size]? = some a := by
  constructor
  · rintro k hk
    rw [Array.getElem?_push, if_neg (Nat.ne_of_lt hk)]
  · rw [Array.getElem?_push, if_pos rfl]

theorem Settled.of_push {a : Ack} (h : after.ledger = log.ledger.push a) : log.Settled after := by
  rintro k x hk -
  rw [h, (push_ledger log a).1 k (Array.getElem?_eq_some_iff.1 hk).1]
  exact hk

theorem unsettled_of_push {a : Ack} (h : after.ledger = log.ledger.push a) :
    after.unsettled =
      log.unsettled ++ if after.isUnsettled log.ledger.size then [log.ledger.size] else [] := by
  have hsame : ∀ k ∈ List.range log.ledger.size, after.isUnsettled k = log.isUnsettled k := by
    rintro k hk
    rw [isUnsettled, isUnsettled, h, (push_ledger log a).1 k (List.mem_range.1 hk)]
  have hsize : after.ledger.size = log.ledger.size + 1 := by
    rw [h, Array.size_push]
  rw [unsettled, hsize, List.range_succ, List.filter_append, List.filter_congr hsame, unsettled,
    List.filter_cons, List.filter_nil]

/-- What becomes of the account when a landing has been entered in the ledger. -/
theorem Tallies.state_push (h : log.Tallies landings) {place : Place}
    (hl : after.ledger = log.ledger.push (place.ack q)) :
    after.ledger.size = (landings ++ [q]).length ∧
      ∀ (k : Nat) (p : Position), (landings ++ [q])[k]? = some p →
        ∃ place : Place, after.ledger[k]? = some (place.ack p) := by
  obtain ⟨hold, hlast⟩ := push_ledger log (place.ack q)
  constructor
  · rw [hl, Array.size_push, h.size, List.length_append, List.length_singleton]
  · rintro k p hp
    rcases Nat.lt_or_ge k landings.length with hlt | hge
    · rw [List.getElem?_append_left hlt] at hp
      rw [hl, hold k (h.size ▸ hlt)]
      exact h.state k p hp
    · rw [List.getElem?_append_right hge] at hp
      have hk : k = log.ledger.size := by
        have hlt := (List.getElem?_eq_some_iff.1 hp).1
        have hsize := h.size
        rw [List.length_singleton] at hlt
        omega
      subst hk
      rw [h.size, Nat.sub_self] at hp
      cases hp
      rw [hl]
      exact ⟨place, hlast⟩

/-- A landing is acknowledged at once, or parked while acknowledgments are held back. -/
theorem Tallies.acknowledge (h : log.Tallies landings) (q : Position) :
    (log.acknowledge q).2.Tallies (landings ++ [q]) ∧
      (log.acknowledge q).1 = landings.length := by
  have hown : ∀ e ∈ log.held, (landings ++ [q])[e.1]? = some e.2 := by
    rintro e he
    have hlanded := h.own e he
    rw [List.getElem?_append_left (List.getElem?_eq_some_iff.1 hlanded).1]
    exact hlanded
  simp only [Log.acknowledge]
  split
  next hholding =>
    generalize hafter : ({ log with
      ledger := log.ledger.push .outstanding
      held := log.held ++ [(log.ledger.size, q)] } : Log) = after
    have hl : after.ledger = log.ledger.push (Place.parked.ack q) := by
      rw [← hafter]
      rfl
    have hheld : after.held = log.held ++ [(log.ledger.size, q)] := by
      rw [← hafter]
    obtain ⟨hsize, hstate⟩ := h.state_push hl
    refine ⟨⟨hsize, hstate, ?_, ?_, ?_⟩, h.size⟩
    · have hnew : after.isUnsettled log.ledger.size = true := by
        rw [isUnsettled_iff, hl]
        exact (push_ledger log _).2
      rw [hheld, List.map_append, h.parked, unsettled_of_push hl, if_pos hnew]
      rfl
    · rw [hheld]
      rintro e he
      rcases List.mem_append.1 he with he | he
      · exact hown e he
      · rw [List.mem_singleton.1 he, h.size]
        simp
    · rw [← hafter]
      intro hidle
      rw [show log.isHolding = false from hidle] at hholding
      cases hholding
  next hopen =>
    have hnone := h.idle (Bool.eq_false_iff.2 hopen)
    generalize hafter : ({ log with ledger := log.ledger.push (.resolved (.ok q)) } : Log) = after
    have hl : after.ledger = log.ledger.push (Place.completed.ack q) := by
      rw [← hafter]
      rfl
    have hheld : after.held = log.held := by
      rw [← hafter]
    obtain ⟨hsize, hstate⟩ := h.state_push hl
    refine ⟨⟨hsize, hstate, ?_, ?_, fun _ => hheld.trans hnone⟩, h.size⟩
    · have hnew : after.isUnsettled log.ledger.size = false := by
        rw [← Bool.not_eq_true, isUnsettled_iff, hl, (push_ledger log _).2]
        nofun
      rw [hheld, h.parked, unsettled_of_push hl, hnew, if_neg Bool.false_ne_true, List.append_nil]
    · rw [hheld]
      exact hown

end Settling

section Emptying

variable {log after : Log} {k : AckId} {p : Position} {landings : List Position}

theorem getElem?_foldl_modify_of_not_mem (become : Position → Ack)
    {held : List (AckId × Position)} (hk : k ∉ held.map Prod.fst) (ledger : Array Ack) :
    (held.foldl (fun l (h : AckId × Position) => l.modify h.1 fun _ => become h.2) ledger)[k]? =
      ledger[k]? := by
  rcases getElem?_foldl_modify become k held ledger with hsame | ⟨p, hp, -⟩
  · exact hsame
  · exact absurd (List.mem_map.2 ⟨(k, p), hp, rfl⟩) hk

theorem getElem?_foldl_modify_of_mem (become : Position → Ack) {held : List (AckId × Position)}
    (hd : (held.map Prod.fst).Nodup) (hk : (k, p) ∈ held) :
    ∀ {ledger : Array Ack}, k < ledger.size →
      (held.foldl (fun l (h : AckId × Position) => l.modify h.1 fun _ => become h.2) ledger)[k]? =
        some (become p) := by
  induction held with
  | nil => cases hk
  | cons h held ih =>
      rintro ledger hlt
      obtain ⟨hout, hrest⟩ := List.nodup_cons.1 hd
      rw [List.foldl_cons]
      rcases List.mem_cons.1 hk with rfl | hk
      · rw [getElem?_foldl_modify_of_not_mem become hout, Array.getElem?_modify, if_pos rfl,
          Array.getElem?_eq_getElem hlt]
        rfl
      · refine ih hrest hk ?_
        rw [Array.size_modify]
        exact hlt

/-- Whoever brings everything that is held to a place settles all that was unsettled, and nothing
else. -/
theorem Tallies.settle_held (h : log.Tallies landings) {place : Place} (hplace : place ≠ .parked)
    (hl : after.ledger = log.held.foldl
      (fun l (e : AckId × Position) => l.modify e.1 fun _ => place.ack e.2) log.ledger)
    (hheld : after.held = []) :
    after.Tallies landings ∧ log.Settled after ∧
      ∀ k p, log.Puts k p .parked → after.ledger[k]? = some (place.ack p) := by
  have hnodup : (log.held.map Prod.fst).Nodup := by
    rw [h.parked]
    exact List.nodup_range.filter _
  have hsize : after.ledger.size = log.ledger.size := by
    rw [hl, size_foldl_modify place.ack]
  have hkept : ∀ k : AckId, log.ledger[k]? ≠ some .outstanding →
      after.ledger[k]? = log.ledger[k]? := by
    rintro k hk
    rw [hl]
    refine getElem?_foldl_modify_of_not_mem place.ack ?_ _
    rw [h.parked, mem_unsettled_iff]
    exact hk
  have hnew : ∀ k p, log.Puts k p .parked → after.ledger[k]? = some (place.ack p) := by
    rintro k p hmem
    have hlt := (List.getElem?_eq_some_iff.1 (h.own _ hmem)).1
    rw [hl]
    exact getElem?_foldl_modify_of_mem place.ack hnodup hmem (h.size ▸ hlt)
  refine ⟨?_, ?_, hnew⟩
  · refine ⟨hsize.trans h.size, ?_, ?_, ?_, fun _ => hheld⟩
    · rintro k p hp
      obtain ⟨old, hold⟩ := h.state k p hp
      by_cases hk : log.ledger[k]? = some .outstanding
      · exact ⟨place, hnew k p ((h.puts_iff hp .parked).2 hk)⟩
      · exact ⟨old, (hkept k hk).trans hold⟩
    · rw [hheld, eq_comm, List.map_nil, List.eq_nil_iff_forall_not_mem]
      rintro k hk
      rw [mem_unsettled_iff] at hk
      by_cases hold : log.ledger[k]? = some .outstanding
      · have hlt := (Array.getElem?_eq_some_iff.1 hold).1
        obtain ⟨p, hp⟩ : ∃ p, landings[k]? = some p :=
          ⟨_, List.getElem?_eq_getElem (h.size ▸ hlt)⟩
        rw [hnew k p ((h.puts_iff hp .parked).2 hold)] at hk
        exact hplace (Place.ack_injective p (Option.some.inj hk))
      · exact hold ((hkept k hold).symm.trans hk)
    · rw [hheld]
      exact fun e he => absurd he List.not_mem_nil
  · rintro k a hk ha
    have hne : log.ledger[k]? ≠ some .outstanding := fun hout => by
      rw [hk] at hout
      exact ha (Option.some.inj hout)
    exact (hkept k hne).trans hk

theorem Tallies.release (h : log.Tallies landings) :
    log.release.2.Tallies landings ∧ log.Settled log.release.2 ∧
      ∀ k p, log.Puts k p .parked → log.release.2.Puts k p .completed := by
  have hplace : Place.completed ≠ .parked := by decide
  exact h.settle_held hplace rfl rfl

theorem Tallies.abandon (h : log.Tallies landings) :
    log.abandon.2.Tallies landings ∧ log.Settled log.abandon.2 ∧
      ∀ k p, log.Puts k p .parked → log.abandon.2.Puts k p .dropped := by
  have hplace : Place.dropped ≠ .parked := by decide
  exact h.settle_held hplace rfl rfl

/-- What is in its last place is still there later. -/
theorem Settled.puts (h : log.Settled after) {place : Place} (hplace : place ≠ .parked)
    (hputs : log.Puts k p place) : after.Puts k p place := by
  cases place with
  | completed => exact h k _ hputs (by simp)
  | parked => exact absurd rfl hplace
  | dropped => exact h k _ hputs (by simp)

end Emptying

section Sending

variable {κ ν : Type} {log : Log} {landings : List Position}

/-- Where the acknowledgment of a landing comes to first. -/
def arrival (log : Log) : Place :=
  if log.isHolding then .parked else .completed

/-- What a send has done to the acknowledgments: it has failed and said so at once, or it waits for
the acknowledgment of its own landing. -/
inductive Enters (log after : Log) (landings : List Position) :
    Wait → Option (Position × Entry) → Prop
  | failed (cause : Rejection) (holding : after.isHolding = log.isHolding)
      (held : after.held = log.held) (ledger : after.ledger = log.ledger) :
      Enters log after landings (.known (.error (.failed cause))) none
  | landed (q : Position) (e : Entry) (holding : after.isHolding = log.isHolding)
      (tallies : after.Tallies (landings ++ [q]))
      (ledger : after.ledger = log.ledger.push (log.arrival.ack q)) :
      Enters log after landings (.ack landings.length) (some (q, e))

/-- A send neither begins nor ends the holding. -/
theorem Enters.isHolding {log after : Log} {wait : Wait} {landed : Option (Position × Entry)}
    (h : log.Enters after landings wait landed) : after.isHolding = log.isHolding := by
  cases h with
  | failed cause holding held ledger => exact holding
  | landed q e holding tallies ledger => exact holding

theorem acknowledge_isHolding (log : Log) (q : Position) :
    (log.acknowledge q).2.isHolding = log.isHolding := by
  rw [acknowledge]
  split <;> rfl

theorem acknowledge_ledger (log : Log) (q : Position) :
    (log.acknowledge q).2.ledger = log.ledger.push (log.arrival.ack q) := by
  rw [acknowledge, arrival]
  split <;> rfl

theorem appendEntry_enters (h : log.Tallies landings) (topic : String) (index : Option Nat)
    (e : Entry) :
    Enters log (Writer.appendEntry log topic index e).2 landings
      (Writer.appendEntry log topic index e).1
      ((log.append topic index e).1.toOption.map fun q => (q, e)) := by
  obtain ⟨-, hholding, hheld, hledger⟩ := append_frame log topic index e
  rw [Writer.appendEntry]
  rcases happend : log.append topic index e with ⟨cause | q, mid⟩
  · rw [happend] at hholding hheld hledger
    exact .failed cause hholding hheld hledger
  · rw [happend] at hholding hheld hledger
    have hmid : mid.Tallies landings := h.of_frame hholding hheld hledger
    obtain ⟨htallies, hid⟩ := hmid.acknowledge q
    have harrival : mid.arrival = log.arrival := by
      rw [arrival, arrival, show mid.isHolding = log.isHolding from hholding]
    have hpush := acknowledge_ledger mid q
    rw [harrival, show mid.ledger = log.ledger from hledger] at hpush
    dsimp only
    rw [hid]
    exact .landed q e ((acknowledge_isHolding mid q).trans hholding) htallies hpush

theorem send_enters (h : log.Tallies landings) (w : Writer) (schema : Schema κ ν)
    (topic : String) (index : Option Nat) (key : κ) (value : Option ν) :
    Enters log (w.send schema log topic index key value).2 landings
      (w.send schema log topic index key value).1
      (w.landing? schema log topic index key value) := by
  rw [Writer.send, Writer.landing?]
  split
  · exact .failed _ rfl rfl rfl
  · cases Writer.encode schema topic key value with
    | error cause => exact .failed cause rfl rfl rfl
    | ok e => exact appendEntry_enters h topic index e

/-- A send does nothing to a log but to append an entry. -/
theorem send_log (log : Log) (w : Writer) (schema : Schema κ ν) (topic : String)
    (index : Option Nat) (key : κ) (value : Option ν) :
    (w.send schema log topic index key value).2 = log ∨
      ∃ op : Operation, (w.send schema log topic index key value).2 = log.perform op := by
  rw [Writer.send]
  split
  · exact Or.inl rfl
  · cases Writer.encode schema topic key value with
    | error cause => exact Or.inl rfl
    | ok e => exact Or.inr ⟨.append topic index e, rfl⟩

end Sending

end Log
end ReplicatedLog
