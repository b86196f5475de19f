/-! Text between double quotes.  A backslash and a double quote are written with a backslash in
front, so the first bare double quote ends the text. -/

namespace MusicMacro.Quoted

/-- The text with a backslash in front of each backslash and each double quote. -/
def escape : List Char → List Char
  | [] => []
  | c :: rest =>
    if c = '\\' ∨ c = '"' then '\\' :: c :: escape rest else c :: escape rest

def token (text : List Char) : List Char := '"' :: (escape text ++ ['"'])

end MusicMacro.Quoted
