/-!
# The byte order mark

The mark may stand before a text and is no part of it.
-/

namespace TrafficWarden.Text

def byteOrderMark : Char := '\uFEFF'

def withoutMark : List Char → List Char
  | [] => []
  | c :: rest => if c = byteOrderMark then rest else c :: rest

end TrafficWarden.Text
