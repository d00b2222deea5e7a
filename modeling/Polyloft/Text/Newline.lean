import Polyloft.Text.Split

/-!
# Polyloft.Text.Newline

Line endings. A line ends with a line feed, a carriage return or the two together; reading turns
each of the three into one line feed before the text is cut into lines.
-/

namespace Polyloft.Text

/-- Writes every line ending as a single line feed. -/
def normaliseNewlines : List Char → List Char
  | [] => []
  | '\r' :: '\n' :: cs => '\n' :: normaliseNewlines cs
  | '\r' :: cs => '\n' :: normaliseNewlines cs
  | c :: cs => c :: normaliseNewlines cs

/-- Cuts a text at its line feeds. There is always at least one line, and a text that ends with
a line feed has an empty last line. -/
def splitLines (cs : List Char) : List (List Char) :=
  splitOnChar '\n' cs

/-- Writes lines with a line feed between each two. -/
def joinLines (lines : List (List Char)) : List Char :=
  joinWith '\n' lines

/-- Cutting and joining gives the text back. -/
theorem joinLines_splitLines (cs : List Char) : joinLines (splitLines cs) = cs :=
  joinWith_splitOnChar '\n' cs

end Polyloft.Text
