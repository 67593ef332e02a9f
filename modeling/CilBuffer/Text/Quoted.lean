/-!
# Quoted literals

A literal stands between single quotes, and a quote inside it follows a backslash. Nothing else is
escaped, a backslash included.
-/

namespace CilBuffer.Text

def quote : Char := '\x27'

/-- Every quote with a backslash before it, all else as it is. -/
def escape : List Char → List Char
  | [] => []
  | c :: cs => if c = quote then '\\' :: c :: escape cs else c :: escape cs

/-- The text between quotes, its own quotes escaped. -/
def quoted (text : String) : String := "'" ++ String.ofList (escape text.toList) ++ "'"

theorem escape_cons_quote (cs : List Char) : escape (quote :: cs) = '\\' :: quote :: escape cs := by
  simp [escape]

theorem escape_cons_of_ne {c : Char} (h : c ≠ quote) (cs : List Char) :
    escape (c :: cs) = c :: escape cs := by
  simp [escape, h]

end CilBuffer.Text
