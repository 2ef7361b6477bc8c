import EventScript.Files.Path
import EventScript.Text.Excerpt
import EventScript.Text.Position

/-! Error reports: a message, and where it applies if that is known. -/

namespace EventScript

structure Context where
  file : Path
  line : Int
  column : Int
  excerpt : Option String
deriving DecidableEq, Repr

namespace Context

def location (context : Context) : String :=
  context.file.text ++ ":" ++ Text.Decimal.textOfInt context.line
    ++ ":" ++ Text.Decimal.textOfInt context.column

/-- The location line, followed by the numbered excerpt unless that is empty. -/
def description (context : Context) : String :=
  match context.excerpt with
  | none => context.location
  | some excerpt =>
      if excerpt.isEmpty then context.location
      else context.location ++ "\n" ++ Text.numberedExcerpt excerpt context.line context.column

end Context

structure Diagnostic where
  message : String
  context : Option Context
deriving DecidableEq, Repr

namespace Diagnostic

/-- An empty text has no excerpt. -/
def atPosition (message : String) (file : Path) (source : String) (place : Position) :
    Diagnostic where
  message := message
  context := some
    { file := file
      line := place.line
      column := place.column
      excerpt := if source.isEmpty then none else some (Text.excerpt source place.line) }

def description (diagnostic : Diagnostic) : String :=
  match diagnostic.context with
  | none => diagnostic.message
  | some context => context.description ++ "\n" ++ diagnostic.message

end Diagnostic

end EventScript
