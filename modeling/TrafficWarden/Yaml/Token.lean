/-!
# Tokens of YAML

Indented collections are marked in the same way as bracketed ones: a token opens them and another
one closes them.
-/

namespace TrafficWarden.Yaml

inductive ScalarStyle where
  | plain
  | quoted
  | literal
  | folded
deriving DecidableEq, Repr

inductive Token where
  | version (major minor : Nat)
  | tagHandle (handle start : String)
  | documentStart
  | documentEnd
  | streamEnd
  | blockList
  | blockTable
  | blockEnd
  | listOpen
  | listClose
  | tableOpen
  | tableClose
  | blockEntry
  | comma
  | key
  | value
  | alias (name : String)
  | anchor (name : String)
  | tag (handle suffix : String)
  | scalar (text : String) (style : ScalarStyle)
deriving DecidableEq, Repr, Inhabited

end TrafficWarden.Yaml
