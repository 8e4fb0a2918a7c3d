import ReplicatedLog.Text.Blank
import ReplicatedLog.Trace.Level

/-!
# Filters

A filter says which targets are heard, and how far down.  It is a list of
directives: a threshold for a target, or for all targets.

* **Choice:** of the directives whose target begins the target of an event, the
  one with the longest target decides.  Where there is none, nothing is heard.
* **Replacement:** a directive takes the place of an earlier one with the same
  target.
* **Text:** directives stand between commas, each of them a threshold, a target
  with everything on, or a target and a threshold with `=` between them; no
  threshold after the `=` means everything.
-/

namespace ReplicatedLog
namespace Trace

/-- The threshold for a target, or for all targets. -/
structure Directive where
  target : Option String
  threshold : Threshold
  deriving DecidableEq, Repr

namespace Directive

section Reading

/-- Whether a directive may begin with a character. -/
def beginsDirective (c : Char) : Bool :=
  c.isAlphanum || c = '-' || c = ':' || c = '_' || 128 ≤ c.toNat

/-- The directive that consists of one word: a threshold, or else a target. -/
def ofWord (word : List Char) : Directive :=
  match Threshold.parse? word with
  | some threshold => ⟨none, threshold⟩
  | none => ⟨some (String.ofList word), .upTo .trace⟩

/-- The directive for a target, with the text of its threshold. -/
def ofTarget? (target threshold : List Char) : Option Directive :=
  if threshold.isEmpty then some ⟨some (String.ofList target), .upTo .trace⟩
  else (Threshold.parse? threshold).map fun t => ⟨some (String.ofList target), t⟩

/-- Reads a directive.  A word may have white space around it, which counts as part of it. -/
def parse? (text : List Char) : Option Directive :=
  match Text.trim text with
  | [] => none
  | c :: _ =>
      if !beginsDirective c || text.contains '[' || text.contains ',' then none
      else
        match Text.partsAt '=' text with
        | [word] => some (ofWord word)
        | [target, threshold] =>
            if (target.head?.map beginsDirective).getD false then ofTarget? target threshold
            else none
        | _ => none

end Reading

section Choosing

/-- Whether the directive is about a target. -/
def covers (d : Directive) (target : String) : Bool :=
  match d.target with
  | none => true
  | some t => t.toList.isPrefixOf target.toList

/-- How closely the directive is about its target. -/
def closeness (d : Directive) : Nat :=
  match d.target with
  | none => 0
  | some t => t.length + 1

/-- The closer one of two directives. -/
def closer (a b : Directive) : Directive :=
  if a.closeness < b.closeness then b else a

end Choosing

end Directive

/-- Which targets are heard, and how far down. -/
structure Filter where
  directives : List Directive
  deriving DecidableEq, Repr

namespace Filter

/-- Adds a directive, in place of the one with the same target. -/
def add (f : Filter) (d : Directive) : Filter :=
  ⟨f.directives.filter (fun other => other.target ≠ d.target) ++ [d]⟩

/-- The filter of directives, later ones over earlier ones. -/
def ofList (ds : List Directive) : Filter :=
  ds.foldl add ⟨[]⟩

/-- Reads a filter; what is empty between commas counts for nothing. -/
def parse? (text : String) : Option Filter :=
  let parts := (Text.partsAt ',' text.toList).filter (!·.isEmpty)
  (parts.mapM Directive.parse?).map ofList

/-- The directive that decides about a target. -/
def governing? (f : Filter) (target : String) : Option Directive :=
  match f.directives.filter (·.covers target) with
  | [] => none
  | d :: ds => some (ds.foldl Directive.closer d)

/-- Whether a level of a target is heard. -/
def admits (f : Filter) (target : String) (l : Level) : Bool :=
  match f.governing? target with
  | none => false
  | some d => d.threshold.admits l

end Filter

end Trace
end ReplicatedLog
