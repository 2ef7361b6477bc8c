/-! Texts cut at a separator, and the lines of a source text. A carriage return before a line feed
belongs to the terminator. -/

namespace EventScript.Text

def pieces (separator : Char) : List Char → List (List Char)
  | [] => [[]]
  | c :: rest =>
      if c = separator then [] :: pieces separator rest
      else
        match pieces separator rest with
        | [] => [[c]]
        | piece :: others => (c :: piece) :: others

def withoutReturn (piece : List Char) : List Char :=
  if piece.getLast? = some '\r' then piece.dropLast else piece

/-- Nothing after the last line feed is no line. -/
def sourceLines (text : List Char) : List (List Char) :=
  let lines := (pieces '\n' text).map withoutReturn
  if lines.getLast? = some [] then lines.dropLast else lines

def joinLines (lines : List (List Char)) : List Char :=
  ['\n'].intercalate lines

def withLineFeeds : List Char → List Char
  | '\r' :: '\n' :: rest => '\n' :: withLineFeeds rest
  | '\r' :: rest => '\n' :: withLineFeeds rest
  | c :: rest => c :: withLineFeeds rest
  | [] => []

end EventScript.Text
