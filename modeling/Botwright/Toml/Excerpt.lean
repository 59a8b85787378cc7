import Botwright.Toml.Scan
/-!
# Excerpts

A message about a place in a text shows the line, its number and a row of carets below the place.
-/
namespace Botwright.Toml

def lastLine (cs : List Char) : List Char :=
  (cs.reverse.takeWhile (· != '\n')).reverse

def bytes (cs : List Char) : Nat := cs.foldl (fun n c => n + c.utf8Size) 0

/-- A message with an excerpt of the text around a place. There is at least one caret, and none
beyond the end of the line. -/
def excerpt (text : List Char) (span : Span) (message : String) : String :=
  let before := text.take (text.length - span.start)
  let marked := (text.drop before.length).take (span.start - span.stop)
  let column := (lastLine before).length
  let content := lastLine before ++ (text.drop before.length).takeWhile (· != '\n')
  let number := toString (before.count '\n' + 1)
  let carets := max 1 (min (bytes marked) (bytes content - column))
  let margin := String.ofList (List.replicate (number.length + 1) ' ')
  "TOML parse error at line " ++ number ++ ", column " ++ toString (column + 1) ++ "\n" ++
    margin ++ "|\n" ++
    number ++ " | " ++ String.ofList content ++ "\n" ++
    margin ++ "|" ++ String.ofList (List.replicate (column + 1) ' ') ++
    String.ofList (List.replicate carets '^') ++ "\n" ++
    message ++ "\n"

end Botwright.Toml
