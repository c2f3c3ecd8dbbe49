/-!
Character classes. Source code is matched with ASCII classes; trimming uses the white space of
Unicode.
-/

namespace ShopLint

/-- White space as Unicode defines it: what trimming removes. -/
def isBlank (c : Char) : Bool :=
  ('\t' ≤ c && c ≤ '\r') || c = ' ' || c = '\u0085' || c = '\u00a0' || c = '\u1680' ||
  ('\u2000' ≤ c && c ≤ '\u200a') || c = '\u2028' || c = '\u2029' || c = '\u202f' ||
  c = '\u205f' || c = '\u3000'

/-- The white space between the words of source code. -/
def isSpace (c : Char) : Bool :=
  c = '\t' || c = '\n' || c = '\x0c' || c = '\r' || c = ' '

/-- ASCII letters and the underscore: how an identifier starts. -/
def isNameStart (c : Char) : Bool :=
  ('a' ≤ c && c ≤ 'z') || ('A' ≤ c && c ≤ 'Z') || c = '_'

/-- ASCII letters, digits and the underscore: how an identifier goes on. -/
def isWord (c : Char) : Bool := isNameStart c || ('0' ≤ c && c ≤ '9')

/-- The characters of a qualified class name. -/
def isQualified (c : Char) : Bool := isWord c || c = '\\'

theorem isWord_of_isNameStart {c : Char} (h : isNameStart c) : isWord c := by
  simp [isWord, h]

theorem isQualified_of_isWord {c : Char} (h : isWord c) : isQualified c := by
  simp [isQualified, h]

end ShopLint
