import ScopedConf.Text.Decimal

/-! Numbers as the values of fields: digits with perhaps a point and an exponent, and the names of
what is no finite number. -/

namespace ScopedConf.Log

def dropSign : List Char → List Char
  | '+' :: cs => cs
  | '-' :: cs => cs
  | cs => cs

def isExponent : List Char → Bool
  | [] => true
  | c :: cs => (c == 'e' || c == 'E') && (Text.decimal? (dropSign cs)).isSome

/-- Whether the text is digits with perhaps a point among them, and perhaps an exponent. -/
def isDecimal (cs : List Char) : Bool :=
  let whole := cs.takeWhile Text.isDigit
  match cs.dropWhile Text.isDigit with
  | '.' :: rest =>
    !(whole.isEmpty && (rest.takeWhile Text.isDigit).isEmpty) &&
      isExponent (rest.dropWhile Text.isDigit)
  | rest => !whole.isEmpty && isExponent rest

def numberNames : List String :=
  ["inf", "infinity", "nan"]

def isNumber (cs : List Char) : Bool :=
  let cs := dropSign cs
  isDecimal cs || numberNames.contains (String.ofList (cs.map Char.toLower))

end ScopedConf.Log
