import ReplicatedLog.Proofs.Channel.Environment
import ReplicatedLog.Proofs.Json.Numbers
import ReplicatedLog.Proofs.Json.Structures
import Mathlib.Data.Option.Basic

/-!
# Documents of a channel's settings

What comes back of the settings of a channel that have been written as JSON.

* `Duration.IsWhole`: the durations that a document can show; `Duration.shown`: what it shows of
  any;
* `Settings.partly`: settings of which only the fields of some names have been given;
* `reads_partly`: what a document with some of the members, in any order, is read as;
* `timing_of_environment` and `timing_of_document`: settings that come from outside have whole
  times;
* `documents_round_trip`: all of it.
-/

namespace ReplicatedLog

namespace Duration

/-- Whole milliseconds, no more than 64 bits can count. -/
def IsWhole (d : Duration) : Prop :=
  1000000 ∣ d.nanos ∧ d.toMillis < 2 ^ 64

/-- What 64 bits show of the milliseconds of a duration. -/
def shown (d : Duration) : Duration :=
  .ofMillis (d.toMillis % 2 ^ 64)

theorem isWhole_ofMillis {n : Nat} (h : n ≤ Text.maxWord64) : (ofMillis n).IsWhole := by
  refine ⟨Nat.dvd_mul_left _ _, ?_⟩
  rw [toMillis_ofMillis]
  exact Nat.lt_succ_of_le h

theorem ofMillis_toMillis {d : Duration} (h : 1000000 ∣ d.nanos) : ofMillis d.toMillis = d := by
  obtain ⟨seconds, nanos, hlt⟩ := d
  obtain ⟨n, rfl⟩ := h
  simp only [ofMillis, toMillis, Duration.mk.injEq]
  omega

/-- Nothing is lost of whole milliseconds, and of nothing else. -/
theorem shown_eq_self_iff {d : Duration} : d.shown = d ↔ d.IsWhole := by
  constructor
  · intro h
    rw [← h]
    exact isWhole_ofMillis (Nat.le_of_lt_succ (Nat.mod_lt _ (by decide)))
  · rintro ⟨hdvd, hlt⟩
    rw [shown, Nat.mod_eq_of_lt hlt, ofMillis_toMillis hdvd]

end Duration

/-- All three times are whole milliseconds. -/
structure Timing.IsWhole (t : Timing) : Prop where
  poll : t.poll.IsWhole
  replayPoll : t.replayPoll.IsWhole
  backoff : t.backoff.IsWhole

namespace Channel
namespace Settings

open Json

section Reading

/-- The settings with the fields of the given names as a document shows them, and the others as they
are by default. -/
def partly (s : Settings) (named : String → Bool) : Settings :=
  let defaults : Settings := {}
  { topic := if named "topic" then s.topic else defaults.topic
    timing :=
      { poll := if named "poll_timeout" then s.timing.poll.shown else defaults.timing.poll
        replayPoll :=
          if named "replay_poll_timeout" then s.timing.replayPoll.shown
          else defaults.timing.replayPoll
        backoff :=
          if named "error_backoff" then s.timing.backoff.shown else defaults.timing.backoff } }

/-- The fields of the given names, with what a document shows of the settings. -/
def fieldsSeen (s : Settings) (seen : String → Bool) : Fields where
  topic := given seen "topic" s.topic
  poll := given seen "poll_timeout" s.timing.poll.shown
  replayPoll := given seen "replay_poll_timeout" s.timing.replayPoll.shown
  backoff := given seen "error_backoff" s.timing.backoff.shown

theorem readDuration_reads (d : Duration) :
    ReadsBefore readDuration (Value.number (.whole (writtenMillis d))).render d.shown :=
  (word64_reads (Nat.le_of_lt_succ (Nat.mod_lt _ (Nat.succ_pos _)))).map Duration.ofMillis

/-- Every member is read into its field. -/
theorem toJson_takes (s : Settings) : ∀ m ∈ s.toJson.members, layout.Takes s.fieldsSeen m := by
  simp only [toJson, Value.members, List.forall_mem_cons]
  refine ⟨?_, ?_, ?_, ?_, nofun⟩
  · exact Layout.takes_of_field rfl (fun _ => isSome_given _ _) rfl (string_reads s.topic).before
      fun seen => by simp [fieldsSeen]
  · exact Layout.takes_of_field rfl (fun _ => isSome_given _ _) rfl
      (readDuration_reads s.timing.poll) fun seen => by simp [fieldsSeen]
  · exact Layout.takes_of_field rfl (fun _ => isSome_given _ _) rfl
      (readDuration_reads s.timing.replayPoll) fun seen => by simp [fieldsSeen]
  · exact Layout.takes_of_field rfl (fun _ => isSome_given _ _) rfl
      (readDuration_reads s.timing.backoff) fun seen => by simp [fieldsSeen]

theorem getD_given {α : Type} (seen : String → Bool) (k : String) (a d : α) :
    (given seen k a).getD d = if seen k then a else d := by
  unfold given
  split <;> rfl

theorem build_fieldsSeen (s : Settings) (seen : String → Bool) :
    layout.build (s.fieldsSeen seen) = .ok (s.partly seen) := by
  simp only [layout, fieldsSeen, getD_given]
  rfl

theorem toJson_nodup (s : Settings) : (s.toJson.members.map Prod.fst).Nodup := by
  have hnames : ["topic", "poll_timeout", "replay_poll_timeout", "error_backoff"].Nodup := by decide
  exact hnames

/-- Some of the members, in any order, are read as what they give. -/
theorem reads_partly (s : Settings) {ms : List (String × Value)} (h : ms.Subperm s.toJson.members) :
    ofJson (Value.object ms).render = .ok (s.partly (named ms)) := by
  rw [← build_fieldsSeen]
  exact decode_of_answers (layout_answers s.toJson_takes s.toJson_nodup rfl h)

/-- The whole document is read as what it shows. -/
theorem reads_whole (s : Settings) :
    ofJson s.toJson.render = .ok
      { topic := s.topic
        timing :=
          { poll := s.timing.poll.shown
            replayPoll := s.timing.replayPoll.shown
            backoff := s.timing.backoff.shown } } := by
  have hread := s.reads_partly (List.Subperm.refl s.toJson.members)
  simpa [partly, named, toJson, Value.members] using hread

theorem reads_back_iff (s : Settings) : ofJson s.toJson.render = .ok s ↔ s.timing.IsWhole := by
  rw [reads_whole, Except.ok.injEq]
  constructor
  · intro h
    have htiming := congrArg Settings.timing h
    exact ⟨Duration.shown_eq_self_iff.1 (congrArg Timing.poll htiming),
      Duration.shown_eq_self_iff.1 (congrArg Timing.replayPoll htiming),
      Duration.shown_eq_self_iff.1 (congrArg Timing.backoff htiming)⟩
  · rintro ⟨hpoll, hreplay, hbackoff⟩
    rw [Duration.shown_eq_self_iff.2 hpoll, Duration.shown_eq_self_iff.2 hreplay,
      Duration.shown_eq_self_iff.2 hbackoff]

end Reading

section Origins

theorem timing_of_defaults : ({} : Settings).timing.IsWhole :=
  ⟨Duration.isWhole_ofMillis (by decide), Duration.isWhole_ofMillis (by decide),
    Duration.isWhole_ofMillis (by decide)⟩

theorem isWhole_getD {o : Option Duration} {d : Duration} (h : ∀ d' ∈ o, d'.IsWhole)
    (hd : d.IsWhole) : (o.getD d).IsWhole := by
  cases o with
  | none => exact hd
  | some d' => exact h d' rfl

theorem isWhole_of_readMillis {text : String} {d : Duration} (h : d ∈ readMillis text) :
    d.IsWhole := by
  obtain ⟨n, -, hlt, rfl⟩ := readMillis_eq_some_iff.1 h
  exact Duration.isWhole_ofMillis (Nat.le_of_lt_succ hlt)

/-- Settings that an environment asks for have whole times. -/
theorem timing_of_environment (env : String → Option String) :
    (ofEnvironment env).timing.IsWhole := by
  have hvariable : ∀ {name : String} {d : Duration}, d.IsWhole →
      (((env name).bind readMillis).getD d).IsWhole := by
    intro name d hd
    refine isWhole_getD (fun d' hd' => ?_) hd
    obtain ⟨text, -, hread⟩ := Option.bind_eq_some_iff.1 hd'
    exact isWhole_of_readMillis hread
  obtain ⟨hpoll, hreplay, hbackoff⟩ := timing_of_defaults
  exact ⟨hvariable hpoll, hvariable hreplay, hvariable hbackoff⟩

/-- The durations that have been read are whole milliseconds. -/
structure Fields.AreWhole (f : Fields) : Prop where
  poll : ∀ d ∈ f.poll, d.IsWhole
  replayPoll : ∀ d ∈ f.replayPoll, d.IsWhole
  backoff : ∀ d ∈ f.backoff, d.IsWhole

theorem isWhole_of_readDuration {bytes rest : Bytes} {d : Duration}
    (h : readDuration bytes = .ok (d, rest)) : d.IsWhole := by
  obtain ⟨n, rest', hn, h⟩ := bind_eq_ok.1 h
  cases h
  exact Duration.isWhole_ofMillis (naturalUpTo_le hn)

theorem fields_keep : ∀ f ∈ layout.fields, Keeps Fields.AreWhole f.read := by
  have hsome : ∀ {d : Duration}, d.IsWhole → ∀ d' ∈ some d, d'.IsWhole := by
    rintro d hd _ ⟨⟩
    exact hd
  simp only [layout, List.forall_mem_cons]
  refine ⟨?_, ?_, ?_, ?_, nofun⟩
  · exact keeps_of_set (Q := fun _ => True) (fun _ _ _ _ => trivial) fun _ _ hs _ =>
      ⟨hs.poll, hs.replayPoll, hs.backoff⟩
  · exact keeps_of_set (fun _ _ _ => isWhole_of_readDuration) fun _ _ hs hd =>
      ⟨hsome hd, hs.replayPoll, hs.backoff⟩
  · exact keeps_of_set (fun _ _ _ => isWhole_of_readDuration) fun _ _ hs hd =>
      ⟨hs.poll, hsome hd, hs.backoff⟩
  · exact keeps_of_set (fun _ _ _ => isWhole_of_readDuration) fun _ _ hs hd =>
      ⟨hs.poll, hs.replayPoll, hsome hd⟩

/-- Settings that any document gives have whole times. -/
theorem timing_of_document {document : Bytes} {s : Settings} (h : ofJson document = .ok s) :
    s.timing.IsWhole := by
  obtain ⟨rest, hread, -⟩ := decode_eq_ok_iff.1 h
  have hstart : Fields.AreWhole {} := ⟨nofun, nofun, nofun⟩
  obtain ⟨fields, ⟨hpoll, hreplay, hbackoff⟩, hbuild⟩ :=
    Layout.read_keeps hstart fields_keep hread
  cases hbuild
  obtain ⟨hpoll₀, hreplay₀, hbackoff₀⟩ := timing_of_defaults
  exact ⟨isWhole_getD hpoll hpoll₀, isWhole_getD hreplay hreplay₀, isWhole_getD hbackoff hbackoff₀⟩

end Origins

section Documents

/-- Settings that have been written are read as the same topic and, for each time, its whole
milliseconds modulo `2 ^ 64`.  So they come back as they were exactly if their times are whole
milliseconds of 64 bits; those by default, from an environment and from a document are.  If members
are missing, and in whichever order the others stand, the document is read with just the missing
ones as they are by default. -/
theorem documents_round_trip (s : Settings) :
    ofJson s.toJson.render = .ok
        { topic := s.topic
          timing :=
            { poll := .ofMillis (s.timing.poll.toMillis % 2 ^ 64)
              replayPoll := .ofMillis (s.timing.replayPoll.toMillis % 2 ^ 64)
              backoff := .ofMillis (s.timing.backoff.toMillis % 2 ^ 64) } } ∧
      (ofJson s.toJson.render = .ok s ↔ s.timing.IsWhole) ∧
      ({} : Settings).timing.IsWhole ∧
      (∀ env, (ofEnvironment env).timing.IsWhole) ∧
      (∀ document s', ofJson document = .ok s' → s'.timing.IsWhole) ∧
      ∀ ms : List (String × Value), ms.Subperm s.toJson.members →
        ofJson (Value.object ms).render = .ok (s.partly (named ms)) :=
  ⟨s.reads_whole, s.reads_back_iff, timing_of_defaults, timing_of_environment,
    fun _ _ => timing_of_document, fun _ => s.reads_partly⟩

/-- A topic with a quote in it, a time with half a microsecond and one of more than 64 bits. -/
def sample : Settings where
  topic := "a\"é\n"
  timing := { poll := .ofParts 1 500000500, replayPoll := .ofMillis (2 ^ 64 + 3) }

/-- The sample loses half a microsecond and `2 ^ 64` milliseconds.  Without two of its times it has
these by default, and a document without two of them has whole times. -/
theorem documents_round_trip_sample :
    ofJson sample.toJson.render = .ok
        { topic := "a\"é\n"
          timing :=
            { poll := .ofMillis 1500, replayPoll := .ofMillis 3, backoff := .ofMillis 250 } } ∧
      ofJson (Value.object
          [("error_backoff", .number (.whole 250)), ("topic", .string sample.topic)]).render =
        .ok { topic := "a\"é\n" } ∧
      ofJson (Bytes.ofString "\x7b\"topic\":\"t\",\"replay_poll_timeout\":20\x7d") =
        .ok { topic := "t", timing := { replayPoll := .ofMillis 20 } } ∧
      ({ replayPoll := .ofMillis 20 } : Timing).IsWhole := by
  obtain ⟨hwhole, -, -, -, hdocument, hpartly⟩ := documents_round_trip sample
  have hread : ofJson (Bytes.ofString "\x7b\"topic\":\"t\",\"replay_poll_timeout\":20\x7d") =
      .ok { topic := "t", timing := { replayPoll := .ofMillis 20 } } := by decide +kernel
  refine ⟨?_, ?_, hread, hdocument _ _ hread⟩
  · rw [hwhole]
    decide +kernel
  · have hmillis : writtenMillis sample.timing.backoff = 250 := by decide +kernel
    have hsub : List.Subperm
        [("error_backoff", Value.number (.whole (writtenMillis sample.timing.backoff))),
          ("topic", .string sample.topic)] sample.toJson.members :=
      ⟨_, .swap _ _ _, .cons_cons _ (.cons _ (.cons _ (.cons_cons _ .slnil)))⟩
    rw [← hmillis, hpartly _ hsub]
    decide +kernel

end Documents

end Settings
end Channel
end ReplicatedLog
