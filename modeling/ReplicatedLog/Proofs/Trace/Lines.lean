import ReplicatedLog.Proofs.Json.Trailing
import ReplicatedLog.Proofs.Json.Values
import ReplicatedLog.Proofs.Text.Parts
import ReplicatedLog.Trace.Capture

/-!
# Captured lines

Lines that have been written come back from a capture, however their bytes were cut into pieces.

* `Capture.run`: what becomes of a capture to which several writers write, and which is cleared from
  time to time; `run_bytes`: it holds the bytes since it was last cleared;
* `Line`: a line of output, which is the text of a JSON value or no JSON at all, and `Line.Fits`,
  which says what kinds of values and of text may stand there;
* `Line.Spells`: what a line is in characters and in bytes, and what is read of it;
* `capture_keeps_lines`: contents and values are those of the lines.
-/

namespace ReplicatedLog
namespace Trace
namespace Capture

section Runs

/-- What one of the writers of a capture does. -/
inductive Move
  | write (writer : Nat) (piece : Bytes)
  | clear (writer : Nat)

/-- A move of any writer is one on the capture that all of them share. -/
def perform (c : Capture) : Move → Capture
  | .write _ piece => c.write piece
  | .clear _ => c.clear

/-- A new capture after moves of its writers. -/
def run (moves : List Move) : Capture :=
  moves.foldl perform {}

/-- The bytes that a move adds, if it clears nothing. -/
def Move.piece? : Move → Option Bytes
  | .write _ piece => some piece
  | .clear _ => none

/-- The bytes that have been written after the last move that clears. -/
def sinceClear (moves : List Move) : Bytes :=
  (moves.reverse.takeWhile (·.piece?.isSome)).reverse.flatMap (·.piece?.getD [])

theorem sinceClear_write (moves : List Move) (writer : Nat) (piece : Bytes) :
    sinceClear (moves ++ [.write writer piece]) = sinceClear moves ++ piece := by
  simp [sinceClear, Move.piece?]

theorem sinceClear_clear (moves : List Move) (writer : Nat) :
    sinceClear (moves ++ [.clear writer]) = [] := by
  simp [sinceClear, Move.piece?]

/-- A capture holds the bytes since it was last cleared. -/
theorem run_bytes (moves : List Move) : (run moves).bytes = sinceClear moves := by
  induction moves using List.reverseRecOn with
  | nil => rfl
  | append_singleton moves m ih =>
      rw [run, List.foldl_append]
      cases m with
      | write writer piece =>
          rw [sinceClear_write, ← ih]
          rfl
      | clear writer =>
          rw [sinceClear_clear]
          rfl

end Runs

/-- A line of output, without its end. -/
inductive Line
  | json (v : Json.Value)
  | other (text : String)

namespace Line

/-- The text of a line. -/
def shown : Line → String
  | .json v => v.text
  | .other text => text

/-- The value that a line holds. -/
def value? : Line → Option Json.Value
  | .json v => some v
  | .other _ => none

/-- What is written for a line: its bytes and a line feed. -/
def bytes : Line → Bytes
  | .json v => v.render ++ [Ascii.newline]
  | .other text => Bytes.ofString text ++ [Ascii.newline]

/-- The most lists and objects that may be open at once in a line. -/
def depthOfLines : Nat := 127

/-- A value without real numbers that is not nested too deep, or a text within a line that is not
JSON. -/
inductive Fits : Line → Prop
  | json {v : Json.Value} (fits : v.Fits depthOfLines) : Fits (.json v)
  | other {text : String} (within : '\n' ∉ text.toList)
      (garbage : valueOfLine text.toList = none) : Fits (.other text)

end Line

section Lines

/-- What a line is in characters, with which its value is read. -/
structure Spells (l : Line) : Prop where
  bytes : l.bytes = Utf8.encode (l.shown.toList ++ ['\n'])
  within : '\n' ∉ l.shown.toList
  value : valueOfLine (Text.withoutReturn l.shown.toList) = l.value?

theorem valueOfLine_eq_some {line : List Char} {v : Json.Value} :
    valueOfLine line = some v ↔ Json.decode Json.Value.read (Utf8.encode line) = .ok v := by
  unfold valueOfLine
  rw [Bytes.ofString, String.toList_ofList]
  split <;> simp_all

/-- A line that is no JSON is none without a carriage return at its end. -/
theorem valueOfLine_withoutReturn {line : List Char} (h : valueOfLine line = none) :
    valueOfLine (Text.withoutReturn line) = none := by
  rcases Text.withoutReturn_cases line with hsame | hreturn
  · rw [hsame]
    exact h
  · rw [Option.eq_none_iff_forall_ne_some]
    intro v hv
    have hblank : Json.Blank (Utf8.encode ['\r']) := by
      intro b hb
      rw [List.mem_singleton.1 hb]
      rfl
    have hmore := Json.decode_append_blank (Json.readWithin_steady Json.depthLimit)
      (valueOfLine_eq_some.1 hv) hblank
    rw [← Utf8.encode_append, hreturn] at hmore
    rw [valueOfLine_eq_some.2 hmore] at h
    cases h

theorem spells_json {v : Json.Value} (h : v.Fits Line.depthOfLines) : Spells (.json v) := by
  obtain ⟨text, hrender, hvisible⟩ := h.spelled
  have hshown : v.text.toList = text := by
    rw [Json.Value.text, hrender, Bytes.toString?, Utf8.decode?_encode]
    simp
  have hnot : ∀ c : Char, c.toNat < 0x20 → c ∉ text := fun c hlow hc =>
    absurd (hvisible c hc) (Nat.not_le.2 hlow)
  have hread : Json.decode Json.Value.read v.render = .ok v := by
    have hwhole := h.reads [] Json.breaks_nil
    rw [List.append_nil] at hwhole
    have hvalue : Json.Value.read v.render = .ok (v, []) := hwhole
    rw [Json.decode, hvalue]
    rfl
  constructor
  · rw [Line.bytes, Line.shown, hshown, Utf8.encode_append, hrender]
    rfl
  · rw [Line.shown, hshown]
    exact hnot '\n' (by decide)
  · rw [Line.shown, hshown, Text.withoutReturn_of_not_mem (hnot '\r' (by decide)), Line.value?,
      valueOfLine_eq_some, ← hrender]
    exact hread

theorem Line.Fits.spells {l : Line} (h : l.Fits) : Spells l := by
  cases h with
  | json fits => exact spells_json fits
  | @other text within garbage =>
      refine ⟨?_, within, valueOfLine_withoutReturn garbage⟩
      rw [Line.bytes, Line.shown, Utf8.encode_append]
      rfl

/-- The text of lines, each with its end. -/
def textOf (ls : List Line) : List Char :=
  ls.flatMap fun l => l.shown.toList ++ ['\n']

theorem encode_textOf {ls : List Line} (h : ∀ l ∈ ls, Spells l) :
    ls.flatMap Line.bytes = Utf8.encode (textOf ls) := by
  induction ls with
  | nil => rfl
  | cons l ls ih =>
      rw [List.flatMap_cons, (h l List.mem_cons_self).bytes,
        ih fun l' hl' => h l' (List.mem_cons_of_mem l hl'), ← Utf8.encode_append]
      rfl

theorem values_textOf {ls : List Line} (h : ∀ l ∈ ls, Spells l) :
    (Text.lines (textOf ls)).filterMap valueOfLine = ls.filterMap Line.value? := by
  induction ls with
  | nil => rfl
  | cons l ls ih =>
      obtain ⟨-, hwithin, hvalue⟩ := h l List.mem_cons_self
      have htext : textOf (l :: ls) = l.shown.toList ++ '\n' :: textOf ls := by
        simp [textOf]
      rw [htext, Text.lines_append hwithin, List.filterMap_cons, List.filterMap_cons, hvalue,
        ih fun l' hl' => h l' (List.mem_cons_of_mem l hl')]

end Lines

section Captures

/-- What is read from a capture depends on nothing but the bytes since it was last cleared.  If they
are those of lines, each the text of a value without real numbers or no JSON, the contents are the
text of the lines, and the values are theirs in the same order. -/
theorem capture_keeps_lines (moves : List Move) :
    (∀ moves', sinceClear moves' = sinceClear moves →
      (run moves').contents = (run moves).contents ∧
        (run moves').jsonLines = (run moves).jsonLines) ∧
    ∀ ls : List Line, (∀ l ∈ ls, l.Fits) → sinceClear moves = ls.flatMap Line.bytes →
      (run moves).contents = String.ofList (textOf ls) ∧
        (run moves).jsonLines = ls.filterMap Line.value? := by
  constructor
  · intro moves' hsame
    have hcapture : run moves' = run moves := by
      have hbytes : (run moves').bytes = (run moves).bytes := by
        rw [run_bytes, run_bytes, hsame]
      exact congrArg Capture.mk hbytes
    rw [hcapture]
    exact ⟨rfl, rfl⟩
  · intro ls hfit hbytes
    have hspells : ∀ l ∈ ls, Spells l := fun l hl => (hfit l hl).spells
    have hcontents : (run moves).contents = String.ofList (textOf ls) := by
      rw [contents, run_bytes, hbytes, encode_textOf hspells, Utf8.decodeLossy_encode]
    refine ⟨hcontents, ?_⟩
    rw [jsonLines, hcontents, String.toList_ofList, values_textOf hspells]

/-- Two values, and between them a text with a carriage return at its end. -/
def sampleLines : List Line :=
  [.json (.object [("é", .list [.number (.negative 5), .null])]), .other "no JSON\r",
    .json (.string "\n\r")]

/-- Something is written and cleared, and then two writers share the lines.  The first stops in the
middle of a character. -/
def sampleMoves : List Move :=
  [.write 0 [0xFF], .clear 1, .write 0 ((sampleLines.flatMap Line.bytes).take 3),
    .write 1 ((sampleLines.flatMap Line.bytes).drop 3)]

/-- The lines of the sample come back. -/
theorem capture_keeps_lines_sample :
    (run sampleMoves).contents = String.ofList (textOf sampleLines) ∧
      (run sampleMoves).jsonLines =
        [.object [("é", .list [.number (.negative 5), .null])], .string "\n\r"] := by
  have hfirst : (Json.Value.object [("é", .list [.number (.negative 5), .null])]).Fits
      Line.depthOfLines := by
    refine .object (List.pairwise_singleton _ _) ?_
    intro m hm
    rw [List.mem_singleton.1 hm]
    refine .list fun v hv => ?_
    rcases List.mem_cons.1 hv with rfl | hv
    · exact .negative (by decide) (by decide)
    · rw [List.mem_singleton.1 hv]
      exact .null
  have hgarbage : valueOfLine "no JSON\r".toList = none := rfl
  have hfit : ∀ l ∈ sampleLines, l.Fits := by
    simp only [sampleLines, List.forall_mem_cons]
    exact ⟨.json hfirst, .other (by decide) hgarbage, .json (.string _), nofun⟩
  exact (capture_keeps_lines sampleMoves).2 sampleLines hfit (by rfl)

end Captures

end Capture
end Trace
end ReplicatedLog
