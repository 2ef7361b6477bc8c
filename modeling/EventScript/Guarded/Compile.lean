import EventScript.Compile
import EventScript.Guarded.Reader
import EventScript.Guarded.Scanner

/-! Guarded compilation. Attempts are made by index into the tokens of a text, section by section to
the end of input, with room for only so many calls inside an expression. An attempt puts back what a
refusal breaks off, and nothing else. -/

namespace EventScript.Guarded

open Run

structure Progress where
  index : Nat
  furthest : Option Refusal
deriving DecidableEq, Repr

abbrev Tracker (α : Type) : Type :=
  Run (Array Token) Progress Fault α

namespace Tracker

variable {α : Type}

def left (tokens : Array Token) (progress : Progress) : Nat :=
  Reader.left tokens progress.index

def run (reader : Reader α) : Tracker α := fun tokens progress =>
  ((reader tokens progress.index).1, ⟨(reader tokens progress.index).2, progress.furthest⟩)

def attempt (action : Tracker α) : Tracker (Option α) := do
  let start ← state
  handle (action >>= fun value => return some value) fun
    | .refused fault => do
        let stopped ← state
        put ⟨start.index, Refusal.further stopped.furthest ⟨stopped.index, fault⟩⟩
        return none
    | broken => fail broken

def attemptAny : List (Reader α) → Tracker (Option α)
  | [] => return none
  | reader :: others => do
      match ← attempt (run reader) with
      | some value => return some value
      | none => attemptAny others

def instructionRound (room : Nat) (found : List Instruction) :
    Tracker (List Instruction ⊕ List Instruction) := do
  run Reader.skipNewlines
  match ← attemptAny (Reader.instructionForms room) with
  | some next => return .inl (found ++ [next])
  | none => return .inr found

def readSection (room : Nat) : Tracker Section := do
  let name ← run Reader.sectionHeader
  let instructions ← rounds left (instructionRound room) []
  return ⟨name, instructions⟩

/-- Refuses the text where no section begins, for the furthest refusal beyond that place. -/
def stop : Tracker α := do
  let progress ← state
  match progress.furthest.filter (progress.index < ·.index) with
  | some refusal => fail (.refused refusal.fault)
  | none => fail (.refused ⟨.expectedStatement, ← run Reader.current⟩)

def sectionRound (room : Nat) (found : List Section) :
    Tracker (List Section ⊕ List Section) := do
  if (← run Reader.current).kind = .endOfInput then return .inr found
  else
    match ← attempt (readSection room) with
    | some next =>
        run Reader.skipNewlines
        return .inl (found ++ [next])
    | none => stop

def readSections (room : Nat) : Tracker (List Section) := do
  run Reader.skipNewlines
  rounds left (sectionRound room) []

end Tracker

def readTokens (room : Nat) (tokens : List Token) : Except (Break Fault) (List Section) :=
  (Tracker.readSections room tokens.toArray ⟨0, none⟩).1

def compile (room : Nat) (file : Path) (text : String) :
    Except (Break Diagnostic) Compilation :=
  match (Scanner.tokenize text.toList ⟨0, .start⟩).1 with
  | .error broken => .error (broken.map (·.diagnostic file text))
  | .ok tokens =>
      match readTokens room tokens with
      | .error broken => .error (broken.map (·.diagnostic file text))
      | .ok sections => .ok (assemble file sections)

/-- How many calls an interpreter allows. Those that are not of expressions count among them, so
this is a little more than expressions have room for. -/
def maxCalls : Nat := 1000

def nestsTooDeep (room : Nat) (text : String) : Bool :=
  match Tokens.ofText text with
  | .error _ => false
  | .ok tokens =>
      match readTokens room tokens.toList with
      | .error .tooDeep => true
      | _ => false

end EventScript.Guarded
