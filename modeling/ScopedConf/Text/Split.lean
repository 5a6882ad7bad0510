/-! Texts cut at a separator, and put together again. -/

namespace ScopedConf.Text

def splitOn (separator : Char) : List Char → List (List Char)
  | [] => [[]]
  | c :: cs =>
    if c = separator then [] :: splitOn separator cs
    else
      match splitOn separator cs with
      | [] => [[c]]
      | p :: ps => (c :: p) :: ps

def joinWith (separator : Char) (ps : List (List Char)) : List Char :=
  List.intercalate [separator] ps

end ScopedConf.Text
