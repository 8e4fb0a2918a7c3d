import ReplicatedLog.Log.Settings
import ReplicatedLog.Proofs.Json.Structures
import ReplicatedLog.Proofs.Json.Values
import ReplicatedLog.Trace.Settings

/-!
# Documents of the settings of the tracing output and of a log

Settings that have been written as JSON come back as they were, and what may be missing of a
document is known for every key, at any depth.

* `Survives`: what becomes of settings that are written, as a whole and without one of the keys;
* `Log.Settings.survives`: no key may be missing of the settings of a log;
* `console_reads`, `file_reads` and `lines_reads`: the parts of the settings of the tracing output
  that are structures of their own, and `console_lacking`, `file_lacking` and `lines_lacking`: these
  parts without one of their keys;
* `Trace.Settings.survives`: of those settings four keys may be missing;
* `Trace.Settings.documents_survive`: both.
-/

namespace ReplicatedLog

open Json

/-- What becomes of settings that are written as a document.  `optional` holds the paths to the
members that may be missing, with what the settings are then. -/
structure Survives {α : Type} (ofJson : Bytes → Except Json.Error α) (toJson : α → Value)
    (optional : List (List String × (α → α))) (a : α) : Prop where
  /-- The document is read as the settings. -/
  whole : ofJson (toJson a).render = .ok a
  /-- Without a member that may be missing, it is read as settings that lack just this. -/
  lacking : ∀ o ∈ optional, ofJson ((toJson a).without o.1).render = .ok (o.2 a)
  /-- Without any other member, at any depth, it is refused because of that member. -/
  refused : ∀ path ∈ (toJson a).paths, path ∉ optional.map Prod.fst → ∃ k,
    path.getLast? = some k ∧ ofJson ((toJson a).without path).render = .error (.missingField k)

namespace Log.Settings

section Documents

variable {s : Settings}

/-- The settings take no more than the bits of a document's numbers. -/
structure Fits (s : Settings) : Prop where
  partitions : s.defaultPartitions ≤ Text.maxWord32
  records : s.maxPollRecords ≤ Text.maxWord64

/-- The fields of the given names. -/
def fieldsSeen (s : Settings) (seen : String → Bool) : Fields where
  defaultPartitions := given seen "default_partitions" s.defaultPartitions
  maxPollRecords := given seen "max_poll_records" s.maxPollRecords

theorem toJson_takes (h : s.Fits) : ∀ m ∈ s.toJson.members, layout.Takes s.fieldsSeen m := by
  simp only [toJson, Value.members, List.forall_mem_cons]
  refine ⟨?_, ?_, nofun⟩
  · exact Layout.takes_of_field rfl (fun _ => isSome_given _ _) rfl (word32_reads h.partitions)
      fun seen => by simp [fieldsSeen]
  · exact Layout.takes_of_field rfl (fun _ => isSome_given _ _) rfl
      (naturalUpTo_reads "usize" h.records (Nat.le_refl _)) fun seen => by simp [fieldsSeen]

theorem toJson_nodup (s : Settings) : (s.toJson.members.map Prod.fst).Nodup := by
  have hnames : ["default_partitions", "max_poll_records"].Nodup := by decide
  exact hnames

/-- The settings of a log come back from a document, and no key may be missing of it. -/
theorem survives (h : s.Fits) : Survives ofJson toJson [] s where
  whole := decode_of_answers (layout_answers (toJson_takes h) s.toJson_nodup rfl (.refl _))
  lacking := nofun
  refused := by
    intro path hpath _
    have hread := fun k => decode_of_answers
      (layout_answers_without rfl (toJson_takes h) s.toJson_nodup rfl k)
    simp only [toJson, Value.paths, memberPaths, List.map_nil, List.singleton_append,
      List.mem_cons, List.not_mem_nil, or_false] at hpath
    rcases hpath with rfl | rfl
    · exact ⟨_, rfl, hread _⟩
    · exact ⟨_, rfl, hread _⟩

end Documents

end Log.Settings

namespace Trace.Settings

section Parts

theorem orNull_reads {α : Type} {p : Parser α} {write : α → Value} {o : Option α}
    (h : ∀ a ∈ o, Solid (write a).render ∧ ReadsBefore p (write a).render a) :
    ReadsBefore (nullable p) (orNull write o).render o := by
  cases o with
  | none => exact nullable_null.before
  | some a => exact nullable_answers (h a rfl).1 (h a rfl).2.answers

theorem orNull_string_reads (o : Option String) :
    ReadsBefore (nullable string) (orNull Value.string o).render o :=
  orNull_reads fun s _ => ⟨solid_string s, (string_reads s).before⟩

/-- The fields of the given names of the console's settings. -/
def consoleSeen (c : ConsoleSettings) (seen : String → Bool) : ConsoleFields where
  isEnabled := given seen "enabled" c.isEnabled
  isPlain := given seen "pretty" c.isPlain
  isColoured := given seen "ansi" c.isColoured
  level := given seen "level" c.level

theorem consoleToJson_takes (c : ConsoleSettings) :
    ∀ m ∈ (consoleToJson c).members, consoleLayout.Takes (consoleSeen c) m := by
  simp only [consoleToJson, Value.members, List.forall_mem_cons]
  refine ⟨?_, ?_, ?_, ?_, nofun⟩
  · exact Layout.takes_of_field rfl (fun _ => isSome_given _ _) rfl (truth_reads _).before
      fun seen => by simp [consoleSeen]
  · exact Layout.takes_of_field rfl (fun _ => isSome_given _ _) rfl (truth_reads _).before
      fun seen => by simp [consoleSeen]
  · exact Layout.takes_of_field rfl (fun _ => isSome_given _ _) rfl (truth_reads _).before
      fun seen => by simp [consoleSeen]
  · exact Layout.takes_of_field rfl (fun _ => isSome_given _ _) rfl (orNull_string_reads _)
      fun seen => by simp [consoleSeen]

theorem consoleToJson_nodup (c : ConsoleSettings) :
    ((consoleToJson c).members.map Prod.fst).Nodup := by
  have hnames : ["enabled", "pretty", "ansi", "level"].Nodup := by decide
  exact hnames

theorem console_reads (c : ConsoleSettings) :
    ReadsBefore consoleLayout.read (consoleToJson c).render c :=
  layout_answers (consoleToJson_takes c) (consoleToJson_nodup c) rfl (.refl _)

/-- The console's settings without one of their keys. -/
theorem console_lacking (c : ConsoleSettings) :
    ReadsBefore consoleLayout.read ((consoleToJson c).without ["level"]).render
        { c with level := none } ∧
      ∀ k ∈ ["enabled", "pretty", "ansi"],
        AnswersBefore consoleLayout.read ((consoleToJson c).without [k]).render
          (.error (.missingField k)) := by
  have hanswer := layout_answers_without rfl (consoleToJson_takes c) (consoleToJson_nodup c) rfl
  simp only [List.forall_mem_cons]
  exact ⟨hanswer "level", hanswer "enabled", hanswer "pretty", hanswer "ansi", nofun⟩

/-- A limit on the number of files takes no more than the bits of a document's numbers. -/
def FileSettings.Fits (f : FileSettings) : Prop :=
  ∀ n ∈ f.maxFiles, n ≤ Text.maxWord64

theorem path_reads (s : String) : Reads path (Value.string s).render s := by
  intro rest
  rw [Value.render, renderString_eq, List.cons_append, path, bind_ok (peekOr_cons rfl _ _),
    if_pos rfl]
  have hread := string_reads s rest
  rw [renderString_eq, List.cons_append] at hread
  exact hread

theorem rotation_reads (r : Rotation) :
    Reads (variant rotations) (Value.string (rotationName r)).render r :=
  variant_reads (by cases r <;> rfl)

theorem solid_decimal (n : Nat) : Solid (Value.number (.whole n)).render := by
  obtain ⟨b, bs, hd, hb, -⟩ := decimal_head n
  refine ⟨b, bs, hd, (isSpace_of_isDigit hb).1, ?_⟩
  rintro rfl
  cases hb

/-- The fields of the given names of the files' settings. -/
def fileSeen (f : FileSettings) (seen : String → Bool) : FileFields where
  directory := given seen "directory" f.directory
  stem := given seen "prefix" f.stem
  rotation := given seen "rotation" f.rotation
  maxFiles := given seen "max_files" f.maxFiles

theorem fileToJson_takes {f : FileSettings} (h : FileSettings.Fits f) :
    ∀ m ∈ (fileToJson f).members, fileLayout.Takes (fileSeen f) m := by
  simp only [fileToJson, Value.members, List.forall_mem_cons]
  refine ⟨?_, ?_, ?_, ?_, nofun⟩
  · exact Layout.takes_of_field rfl (fun _ => isSome_given _ _) rfl (path_reads _).before
      fun seen => by simp [fileSeen]
  · exact Layout.takes_of_field rfl (fun _ => isSome_given _ _) rfl (string_reads _).before
      fun seen => by simp [fileSeen]
  · exact Layout.takes_of_field rfl (fun _ => isSome_given _ _) rfl (rotation_reads _).before
      fun seen => by simp [fileSeen]
  · have hcount : ReadsBefore (nullable count)
        (orNull (fun n => .number (.whole n)) f.maxFiles).render f.maxFiles :=
      orNull_reads fun n hn => ⟨solid_decimal n, naturalUpTo_reads "usize" (h n hn) (Nat.le_refl _)⟩
    exact Layout.takes_of_field rfl (fun _ => isSome_given _ _) rfl hcount
      fun seen => by simp [fileSeen]

theorem fileToJson_nodup (f : FileSettings) : ((fileToJson f).members.map Prod.fst).Nodup := by
  have hnames : ["directory", "prefix", "rotation", "max_files"].Nodup := by decide
  exact hnames

theorem file_reads {f : FileSettings} (h : FileSettings.Fits f) :
    ReadsBefore fileLayout.read (fileToJson f).render f :=
  layout_answers (fileToJson_takes h) (fileToJson_nodup f) rfl (.refl _)

/-- The files' settings without one of their keys. -/
theorem file_lacking {f : FileSettings} (h : FileSettings.Fits f) :
    ReadsBefore fileLayout.read ((fileToJson f).without ["max_files"]).render
        { f with maxFiles := none } ∧
      ∀ k ∈ ["directory", "prefix", "rotation"],
        AnswersBefore fileLayout.read ((fileToJson f).without [k]).render
          (.error (.missingField k)) := by
  have hanswer := layout_answers_without rfl (fileToJson_takes h) (fileToJson_nodup f) rfl
  simp only [List.forall_mem_cons]
  exact ⟨hanswer "max_files", hanswer "directory", hanswer "prefix", hanswer "rotation", nofun⟩

/-- The fields of the given names of the lines' settings. -/
def lineSeen (l : LineSettings) (seen : String → Bool) : LineFields where
  isFlat := given seen "flatten_events" l.isFlat
  showsSpans := given seen "include_spans" l.showsSpans
  showsCurrentSpan := given seen "include_current_span" l.showsCurrentSpan
  showsThread := given seen "include_thread_info" l.showsThread
  showsPlace := given seen "include_location" l.showsPlace

theorem linesToJson_takes (l : LineSettings) :
    ∀ m ∈ (linesToJson l).members, lineLayout.Takes (lineSeen l) m := by
  simp only [linesToJson, Value.members, List.forall_mem_cons]
  refine ⟨?_, ?_, ?_, ?_, ?_, nofun⟩
  all_goals
    exact Layout.takes_of_field rfl (fun _ => isSome_given _ _) rfl (truth_reads _).before
      fun seen => by simp [lineSeen]

theorem linesToJson_nodup (l : LineSettings) : ((linesToJson l).members.map Prod.fst).Nodup := by
  have hnames : ["flatten_events", "include_spans", "include_current_span", "include_thread_info",
    "include_location"].Nodup := by decide
  exact hnames

theorem lines_reads (l : LineSettings) : ReadsBefore lineLayout.read (linesToJson l).render l :=
  layout_answers (linesToJson_takes l) (linesToJson_nodup l) rfl (.refl _)

/-- The lines' settings without one of their keys. -/
theorem lines_lacking (l : LineSettings) :
    ∀ k ∈ ["flatten_events", "include_spans", "include_current_span", "include_thread_info",
        "include_location"],
      AnswersBefore lineLayout.read ((linesToJson l).without [k]).render
        (.error (.missingField k)) := by
  have hanswer := layout_answers_without rfl (linesToJson_takes l) (linesToJson_nodup l) rfl
  simp only [List.forall_mem_cons]
  exact ⟨hanswer _, hanswer _, hanswer _, hanswer _, hanswer _, nofun⟩

end Parts

section Documents

variable {s : Settings} {console file lines : Value}

/-- The settings take no more than the bits of a document's numbers. -/
def Fits (s : Settings) : Prop :=
  ∀ f ∈ s.file, FileSettings.Fits f

/-- The members of a document with the given values for the parts. -/
def membersWith (s : Settings) (console file lines : Value) : List (String × Value) :=
  [("default_level", .string s.defaultLevel), ("directives", .list (s.directives.map .string)),
    ("console", console), ("file", file), ("jsonl", lines)]

/-- The fields of the given names. -/
def fieldsSeen (s : Settings) (seen : String → Bool) : Fields where
  defaultLevel := given seen "default_level" s.defaultLevel
  directives := given seen "directives" s.directives
  console := given seen "console" s.console
  file := given seen "file" s.file
  lines := given seen "jsonl" s.lines

theorem membersWith_takes (hconsole : ReadsBefore consoleLayout.read console.render s.console)
    (hfile : ReadsBefore (nullable fileLayout.read) file.render s.file)
    (hlines : ReadsBefore lineLayout.read lines.render s.lines) :
    ∀ m ∈ s.membersWith console file lines, layout.Takes s.fieldsSeen m := by
  simp only [membersWith, List.forall_mem_cons]
  refine ⟨?_, ?_, ?_, ?_, ?_, nofun⟩
  · exact Layout.takes_of_field rfl (fun _ => isSome_given _ _) rfl (string_reads _).before
      fun seen => by simp [fieldsSeen]
  · have hlist :
        Reads (listOf string) (Value.list (s.directives.map .string)).render s.directives :=
      listOf_reads fun d _ => ⟨begins_string d, (string_reads d).before⟩
    exact Layout.takes_of_field rfl (fun _ => isSome_given _ _) rfl hlist.before
      fun seen => by simp [fieldsSeen]
  · exact Layout.takes_of_field rfl (fun _ => isSome_given _ _) rfl hconsole
      fun seen => by simp [fieldsSeen]
  · exact Layout.takes_of_field rfl (fun _ => isSome_given _ _) rfl hfile
      fun seen => by simp [fieldsSeen]
  · exact Layout.takes_of_field rfl (fun _ => isSome_given _ _) rfl hlines
      fun seen => by simp [fieldsSeen]

theorem membersWith_nodup (s : Settings) (console file lines : Value) :
    ((s.membersWith console file lines).map Prod.fst).Nodup := by
  have hnames : ["default_level", "directives", "console", "file", "jsonl"].Nodup := by decide
  exact hnames

/-- A document whose parts are read is read as the settings. -/
theorem reads_with (hconsole : ReadsBefore consoleLayout.read console.render s.console)
    (hfile : ReadsBefore (nullable fileLayout.read) file.render s.file)
    (hlines : ReadsBefore lineLayout.read lines.render s.lines) :
    ofJson (Value.object (s.membersWith console file lines)).render = .ok s :=
  decode_of_answers (layout_answers (membersWith_takes hconsole hfile hlines)
    (membersWith_nodup _ _ _ _) rfl (.refl _))

theorem file_reads_back (h : s.Fits) :
    ReadsBefore (nullable fileLayout.read) (orNull fileToJson s.file).render s.file :=
  orNull_reads fun f hf => ⟨solid_object _, file_reads (h f hf)⟩

theorem toJson_takes (h : s.Fits) : ∀ m ∈ s.toJson.members, layout.Takes s.fieldsSeen m :=
  membersWith_takes (console_reads s.console) (file_reads_back h) (lines_reads s.lines)

theorem toJson_nodup (s : Settings) : (s.toJson.members.map Prod.fst).Nodup :=
  s.membersWith_nodup _ _ _

/-- A document fails at a part that does, if those before it are read. -/
theorem fails_inside (h : s.Fits) (before : List (String × Value)) {after : List (String × Value)}
    {k : String} {v v' : Value} {e : Json.Error}
    (hmembers : s.toJson.members = before ++ (k, v) :: after)
    (hfail : ∀ seen, seen k = false →
      AnswersBefore (layout.member k (s.fieldsSeen seen)) (Ascii.colon :: v'.render) (.error e)) :
    ofJson (Value.object (before ++ (k, v') :: after)).render = .error e := by
  have hnodup := s.toJson_nodup
  rw [hmembers, List.map_append, List.map_cons] at hnodup
  refine decode_of_answers (layout_fails_at (m := (k, v')) (fun m hm => ?_) ?_ rfl hfail)
  · exact toJson_takes h m (hmembers ▸ List.mem_append_left _ hm)
  · rwa [List.map_append, List.map_cons]

/-- Without one of the keys at the top. -/
theorem lacking_top (h : s.Fits) :
    ofJson (s.toJson.without ["directives"]).render = .ok { s with directives := [] } ∧
      ofJson (s.toJson.without ["file"]).render = .ok { s with file := none } ∧
      ∀ k ∈ ["default_level", "console", "jsonl"],
        ofJson (s.toJson.without [k]).render = .error (.missingField k) := by
  have hanswer := fun k =>
    decode_of_answers (layout_answers_without rfl (toJson_takes h) s.toJson_nodup rfl k)
  simp only [List.forall_mem_cons]
  exact ⟨hanswer _, hanswer _, hanswer _, hanswer _, hanswer _, nofun⟩

/-- Without one of the keys of the console. -/
theorem lacking_console (h : s.Fits) :
    ofJson (s.toJson.without ["console", "level"]).render =
        .ok { s with console := { s.console with level := none } } ∧
      ∀ k ∈ ["enabled", "pretty", "ansi"],
        ofJson (s.toJson.without ["console", k]).render = .error (.missingField k) := by
  obtain ⟨hlevel, hothers⟩ := console_lacking s.console
  constructor
  · exact reads_with (s := { s with console := { s.console with level := none } }) hlevel
      (file_reads_back h) (lines_reads s.lines)
  · intro k hk
    exact fails_inside h [_, _] rfl fun seen hnew =>
      member_answers rfl ((isSome_given _ _).trans hnew) ((hothers k hk).map _)

/-- Without one of the keys of the files. -/
theorem lacking_file (h : s.Fits) :
    ofJson (s.toJson.without ["file", "max_files"]).render =
        .ok { s with file := s.file.map fun f => { f with maxFiles := none } } ∧
      (s.file.isSome → ∀ k ∈ ["directory", "prefix", "rotation"],
        ofJson (s.toJson.without ["file", k]).render = .error (.missingField k)) := by
  obtain ⟨level, directives, console, file, lines⟩ := s
  cases file with
  | none =>
      exact ⟨reads_with (console_reads console) nullable_null.before (lines_reads lines), nofun⟩
  | some f =>
      obtain ⟨hlimit, hothers⟩ := file_lacking (h f rfl)
      constructor
      · exact reads_with
          (s := ⟨level, directives, console, some { f with maxFiles := none }, lines⟩)
          (console_reads console) (nullable_answers (solid_object _) hlimit.answers)
          (lines_reads lines)
      · intro _ k hk
        exact fails_inside h [_, _, _] rfl fun seen hnew =>
          member_answers rfl ((isSome_given _ _).trans hnew)
            ((nullable_answers (solid_object _) (hothers k hk)).map _)

/-- Without one of the keys of the lines. -/
theorem lacking_lines (h : s.Fits) :
    ∀ k ∈ ["flatten_events", "include_spans", "include_current_span", "include_thread_info",
        "include_location"],
      ofJson (s.toJson.without ["jsonl", k]).render = .error (.missingField k) := by
  intro k hk
  exact fails_inside h [_, _, _, _] rfl fun seen hnew =>
    member_answers rfl ((isSome_given _ _).trans hnew) ((lines_lacking s.lines k hk).map _)

/-- The keys that may be missing, with what the settings are without them. -/
def optional : List (List String × (Settings → Settings)) :=
  [(["directives"], fun s => { s with directives := [] }),
    (["file"], fun s => { s with file := none }),
    (["console", "level"], fun s => { s with console := { s.console with level := none } }),
    (["file", "max_files"],
      fun s => { s with file := s.file.map fun f => { f with maxFiles := none } })]

theorem paths_console (c : ConsoleSettings) :
    (consoleToJson c).paths = [["enabled"], ["pretty"], ["ansi"], ["level"]] := by
  obtain ⟨_, _, _, level⟩ := c
  cases level <;> rfl

theorem paths_file (f : FileSettings) :
    (fileToJson f).paths = [["directory"], ["prefix"], ["rotation"], ["max_files"]] := by
  obtain ⟨_, _, _, maxFiles⟩ := f
  cases maxFiles <;> rfl

theorem mem_paths_orNull {α : Type} {write : α → Value} {o : Option α} {path : List String}
    (h : path ∈ (orNull write o).paths) : o.isSome ∧ ∃ a, path ∈ (write a).paths := by
  cases o with
  | none => cases h
  | some a => exact ⟨rfl, a, h⟩

/-- A path leads to a member that may be missing, or to one that may not, at the top or in a
part. -/
theorem paths_cases {path : List String} (h : path ∈ s.toJson.paths) :
    path ∈ optional.map Prod.fst ∨ (∃ k ∈ ["default_level", "console", "jsonl"], path = [k]) ∨
      (∃ k ∈ ["enabled", "pretty", "ansi"], path = ["console", k]) ∨
      (s.file.isSome ∧ ∃ k ∈ ["directory", "prefix", "rotation"], path = ["file", k]) ∨
      ∃ k ∈ ["flatten_events", "include_spans", "include_current_span", "include_thread_info",
        "include_location"], path = ["jsonl", k] := by
  have hfile : ∀ {path}, path ∈ (orNull fileToJson s.file).paths → s.file.isSome ∧
      path ∈ [["directory"], ["prefix"], ["rotation"], ["max_files"]] := by
    intro path hpath
    obtain ⟨hsome, f, hf⟩ := mem_paths_orNull hpath
    exact ⟨hsome, paths_file f ▸ hf⟩
  simp only [toJson, Value.paths, memberPaths, paths_console, linesToJson, List.map_nil,
    List.map_cons, List.mem_append, List.mem_cons, List.not_mem_nil, List.mem_map, or_false] at h
  rcases h with rfl | rfl | (rfl | hconsole) | (rfl | ⟨p, hp, rfl⟩) | rfl | ⟨p, hp, rfl⟩
  · exact .inr (.inl ⟨_, by decide, rfl⟩)
  · exact .inl (by decide)
  · exact .inr (.inl ⟨_, by decide, rfl⟩)
  · rcases hconsole with rfl | rfl | rfl | rfl
    · exact .inr (.inr (.inl ⟨_, by decide, rfl⟩))
    · exact .inr (.inr (.inl ⟨_, by decide, rfl⟩))
    · exact .inr (.inr (.inl ⟨_, by decide, rfl⟩))
    · exact .inl (by decide)
  · exact .inl (by decide)
  · obtain ⟨hsome, hp⟩ := hfile hp
    simp only [List.mem_cons, List.not_mem_nil, or_false] at hp
    rcases hp with rfl | rfl | rfl | rfl
    · exact .inr (.inr (.inr (.inl ⟨hsome, _, by decide, rfl⟩)))
    · exact .inr (.inr (.inr (.inl ⟨hsome, _, by decide, rfl⟩)))
    · exact .inr (.inr (.inr (.inl ⟨hsome, _, by decide, rfl⟩)))
    · exact .inl (by decide)
  · exact .inr (.inl ⟨_, by decide, rfl⟩)
  · rcases hp with rfl | rfl | rfl | rfl | rfl
    all_goals exact .inr (.inr (.inr (.inr ⟨_, by decide, rfl⟩)))

/-- Settings of the tracing output come back from a document, of which four keys may be missing. -/
theorem survives (h : s.Fits) : Survives ofJson toJson optional s where
  whole := reads_with (console_reads s.console) (file_reads_back h) (lines_reads s.lines)
  lacking := by
    obtain ⟨hdirectives, hfile, -⟩ := lacking_top h
    simp only [optional, List.forall_mem_cons]
    exact ⟨hdirectives, hfile, (lacking_console h).1, (lacking_file h).1, nofun⟩
  refused := by
    intro path hpath hoptional
    rcases paths_cases hpath with hin | ⟨k, hk, rfl⟩ | ⟨k, hk, rfl⟩ | ⟨hfile, k, hk, rfl⟩ |
      ⟨k, hk, rfl⟩
    · exact absurd hin hoptional
    · exact ⟨k, rfl, (lacking_top h).2.2 k hk⟩
    · exact ⟨k, rfl, (lacking_console h).2 k hk⟩
    · exact ⟨k, rfl, (lacking_file h).2 hfile k hk⟩
    · exact ⟨k, rfl, lacking_lines h k hk⟩

/-- Settings of the tracing output and of a log come back from a document, field by field.  Without
the directives, the file, the console's level or the limit on the number of files, just that is
empty or missing; without any other key, at any depth, the document is refused. -/
theorem documents_survive :
    (∀ s : Settings, s.Fits → Survives ofJson toJson optional s) ∧
      ∀ s : Log.Settings, s.Fits → Survives Log.Settings.ofJson Log.Settings.toJson [] s :=
  ⟨fun _ => survives, fun _ => Log.Settings.survives⟩

/-- Files in a directory with a name that is not ASCII, and one directive. -/
def sample : Settings :=
  (production "日志").withDirective "a=\"warn\""

/-- Without the limit the sample has none, and without one of the lines' keys its document is
refused; the settings of a log with the largest number come back. -/
theorem documents_survive_sample :
    ofJson sample.toJson.render = .ok sample ∧
      ofJson (sample.toJson.without ["file", "max_files"]).render =
        .ok { sample with file := some { directory := "日志", maxFiles := none } } ∧
      ofJson (sample.toJson.without ["jsonl", "include_spans"]).render =
        .error (.missingField "include_spans") ∧
      Log.Settings.ofJson (Log.Settings.toJson ⟨0, Text.maxWord64⟩).render =
        .ok ⟨0, Text.maxWord64⟩ := by
  have hfit : sample.Fits := by
    rintro _ ⟨⟩ _ ⟨⟩
    decide
  obtain ⟨hwhole, hlacking, hrefused⟩ := documents_survive.1 sample hfit
  obtain ⟨_, ⟨⟩, hspans⟩ := hrefused ["jsonl", "include_spans"] (by decide +kernel) (by decide)
  have hlimit := hlacking _ (.tail _ (.tail _ (.tail _ (.head _))))
  exact ⟨hwhole, hlimit, hspans,
    (documents_survive.2 _ ⟨Nat.zero_le _, Nat.le_refl _⟩).whole⟩

end Documents

end Trace.Settings

end ReplicatedLog
