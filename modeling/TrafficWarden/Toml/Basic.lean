/-!
# TOML values

Dates and floating-point numbers are kept as they are written.
-/

namespace TrafficWarden

inductive Toml where
  | string (s : String)
  | integer (n : Int)
  | float (text : String)
  | bool (b : Bool)
  | datetime (text : String)
  | array (items : List Toml)
  | table (entries : List (String × Toml))
deriving Inhabited, Repr

end TrafficWarden
