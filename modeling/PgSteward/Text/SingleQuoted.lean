/-!
# Single quotes

A text stands between single quotes with every quote inside it written twice, and with nothing else
changed.
-/

namespace PgSteward.Text

/-- A character between single quotes. -/
def doubledChar (c : Char) : List Char := if c = '\'' then ['\'', '\''] else [c]

/-- A text between single quotes. -/
def singleQuoted (s : String) : String :=
  String.ofList ('\'' :: s.toList.flatMap doubledChar ++ ['\''])

example : singleQuoted "it's" = "'it''s'" := by decide

end PgSteward.Text
