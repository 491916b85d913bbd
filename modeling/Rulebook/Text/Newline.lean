/-!
# Line ends
-/

namespace Rulebook.Text

/-- The text with CR LF and CR alone made into LF. -/
def unifyNewlines : List Char → List Char
  | '\r' :: '\n' :: s => '\n' :: unifyNewlines s
  | '\r' :: s => '\n' :: unifyNewlines s
  | c :: s => c :: unifyNewlines s
  | [] => []

end Rulebook.Text
