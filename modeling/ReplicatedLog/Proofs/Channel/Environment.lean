import ReplicatedLog.Channel.Settings
import ReplicatedLog.Proofs.Text.Numerals

/-!
# What an environment says of a channel's settings

An environment has a say in the settings of a channel by four variables, one for each setting.

* `readMillis_eq_some_iff`: the texts that stand for a time are the numerals of 64 bits;
* `Overrides`: what it means that one variable, and no other, overrides one of the times;
* `environment_overrides`: what each of the four variables does.
-/

namespace ReplicatedLog
namespace Channel
namespace Settings

/-- A text stands for a time exactly if it is a numeral of 64 bits, which counts the
milliseconds. -/
theorem readMillis_eq_some_iff {text : String} {d : Duration} :
    readMillis text = some d ↔
      ∃ n, Text.Denotes text.toList n ∧ n < 2 ^ 64 ∧ d = .ofMillis n := by
  rw [readMillis, Option.map_eq_some_iff]
  constructor
  · rintro ⟨n, hread, rfl⟩
    obtain ⟨hdenotes, hle⟩ := Text.readNatUpTo_trim_iff.1 hread
    exact ⟨n, hdenotes, Nat.lt_succ_of_le hle, rfl⟩
  · rintro ⟨n, hdenotes, hlt, rfl⟩
    exact ⟨n, Text.readNatUpTo_trim_iff.2 ⟨hdenotes, Nat.le_of_lt_succ hlt⟩, rfl⟩

/-- One of the times is overridden by the variable of the name, and by nothing else. -/
structure Overrides (name : String) (time : Timing → Duration) : Prop where
  /-- A numeral of 64 bits counts the milliseconds. -/
  numeral : ∀ env text n, env name = some text → Text.Denotes text.toList n → n < 2 ^ 64 →
    time (ofEnvironment env).timing = .ofMillis n
  /-- Whatever else the variable holds, and if there is none, the time is the one by default. -/
  other : ∀ env, (∀ text n, env name = some text → Text.Denotes text.toList n → ¬n < 2 ^ 64) →
    time (ofEnvironment env).timing = time {}
  /-- The other variables do not matter. -/
  alone : ∀ env env', env name = env' name →
    time (ofEnvironment env).timing = time (ofEnvironment env').timing

theorem overrides_of_eq {name : String} {time : Timing → Duration}
    (h : ∀ env, time (ofEnvironment env).timing = ((env name).bind readMillis).getD (time {})) :
    Overrides name time where
  numeral env text n hset hdenotes hlt := by
    rw [h, hset, Option.bind_some, readMillis_eq_some_iff.2 ⟨n, hdenotes, hlt, rfl⟩,
      Option.getD_some]
  other env hnone := by
    have hread : (env name).bind readMillis = none := by
      rw [Option.bind_eq_none_iff]
      intro text hset
      rw [Option.eq_none_iff_forall_ne_some]
      intro d hd
      obtain ⟨n, hdenotes, hlt, -⟩ := readMillis_eq_some_iff.1 hd
      exact hnone text n hset hdenotes hlt
    rw [h, hread, Option.getD_none]
  alone env env' heq := by
    rw [h, h, heq]

/-- A topic that is set and not empty is taken as it stands, and else it is the one by default; each
of the times is the number of milliseconds that its own variable holds, if this is a numeral of 64
bits, and else the one by default. -/
theorem environment_overrides :
    (∀ env topic, env "CMDLOG_COMMAND_TOPIC" = some topic → topic ≠ "" →
        (ofEnvironment env).topic = topic) ∧
      (∀ env, env "CMDLOG_COMMAND_TOPIC" = none ∨ env "CMDLOG_COMMAND_TOPIC" = some "" →
        (ofEnvironment env).topic = ({} : Settings).topic) ∧
      Overrides "CMDLOG_POLL_TIMEOUT_MS" Timing.poll ∧
      Overrides "CMDLOG_REPLAY_POLL_TIMEOUT_MS" Timing.replayPoll ∧
      Overrides "CMDLOG_ERROR_BACKOFF_MS" Timing.backoff := by
  refine ⟨?set, ?unset, overrides_of_eq fun _ => rfl, overrides_of_eq fun _ => rfl,
    overrides_of_eq fun _ => rfl⟩
  case set =>
    intro env topic hset hne
    simp [ofEnvironment, Option.filter, hset, hne]
  case unset =>
    rintro env (hset | hset) <;> simp [ofEnvironment, Option.filter, hset]

/-- A topic with blanks, a time with blanks, a sign and zeros, and a time of more than 64 bits. -/
def sampleEnvironment : String → Option String
  | "CMDLOG_COMMAND_TOPIC" => some " t "
  | "CMDLOG_POLL_TIMEOUT_MS" => some "\u3000+007\n"
  | "CMDLOG_REPLAY_POLL_TIMEOUT_MS" => some "18446744073709551616"
  | _ => none

/-- Texts that are no numerals, and a numeral of more than 64 bits. -/
def sampleRefused : List String :=
  ["", " ", "+", "-5", "++5", "+ 5", "1 0", "1_000", "18446744073709551616"]

theorem sampleRefused_spec :
    ∀ text ∈ sampleRefused, ∀ n, Text.Denotes text.toList n → ¬n < 2 ^ 64 := by
  have hnone : ∀ text ∈ sampleRefused, readMillis text = none := by decide +kernel
  intro text htext n hdenotes hlt
  have hread := readMillis_eq_some_iff.2 ⟨n, hdenotes, hlt, rfl⟩
  rw [hnone text htext] at hread
  cases hread

/-- What the sample asks for; the refused texts leave a time as it is by default. -/
theorem environment_overrides_sample :
    (ofEnvironment sampleEnvironment).topic = " t " ∧
      (ofEnvironment fun _ => none).topic = "_cmdlog_command_topic" ∧
      (ofEnvironment sampleEnvironment).timing.poll = .ofMillis 7 ∧
      (ofEnvironment sampleEnvironment).timing.replayPoll = .ofMillis 1000 ∧
      (ofEnvironment sampleEnvironment).timing.backoff =
        (ofEnvironment fun _ => none).timing.backoff ∧
      ∀ text ∈ sampleRefused, (ofEnvironment fun _ => some text).timing.poll = .ofMillis 500 := by
  obtain ⟨hset, hunset, hpoll, hreplay, hbackoff⟩ := environment_overrides
  refine ⟨hset _ _ rfl (by decide), hunset _ (Or.inl rfl), ?_, ?_, hbackoff.alone _ _ rfl, ?_⟩
  · have hseven : Text.Denotes "\u3000+007\n".toList 7 :=
      ⟨⟨['\u3000'], true, [0, 0, 7], ['\n'], List.forall_mem_singleton.2 rfl,
        List.cons_ne_nil _ _, List.forall_mem_singleton.2 rfl⟩, rfl, rfl⟩
    exact hpoll.numeral _ _ _ rfl hseven (by decide)
  · refine hreplay.other _ fun text n htext => ?_
    cases htext
    exact sampleRefused_spec _ (by simp [sampleRefused]) n
  · intro text htext
    refine hpoll.other _ fun text' n htext' => ?_
    cases htext'
    exact sampleRefused_spec text htext n

end Settings
end Channel
end ReplicatedLog
