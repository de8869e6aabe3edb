/-!
# Byte order marks

A text may begin with a byte order mark, the character U+FEFF, which is no part of what it says.
-/

namespace Agenda.Text

/-- A text without a byte order mark in front; only one is taken off. -/
def dropMark : List Char → List Char
  | '\ufeff' :: rest => rest
  | text => text

end Agenda.Text
