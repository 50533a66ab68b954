import TrafficWarden.Text.Ascii

/-!
# Words of a shell command

A word of safe characters stands for itself. Any other word is set between single quotes, and a
single quote within it is written outside of them, after a backslash.
-/

namespace TrafficWarden.Shell

/-- Characters that mean nothing to a shell. -/
def isSafe (c : Char) : Bool :=
  Text.isAlphanumeric c || c ∈ ['-', '_', '.', '/', ':', ',', '+', '@']

def isSafeWord (cs : List Char) : Bool := !cs.isEmpty && cs.all isSafe

/-- A single quote ends the quoted part, stands after a backslash and starts the next part. -/
def quoteChar (c : Char) : List Char := if c = '\'' then ['\'', '\\', '\'', '\''] else [c]

def quoteChars (cs : List Char) : List Char :=
  if isSafeWord cs then cs else '\'' :: (cs.flatMap quoteChar ++ ['\''])

/-- The spelling of a word in a shell command. -/
def quote (word : String) : String := String.ofList (quoteChars word.toList)

end TrafficWarden.Shell
