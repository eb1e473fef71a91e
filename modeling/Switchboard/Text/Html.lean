set_option autoImplicit false

/-! # HTML text

The four characters that may not stand for themselves in an attribute or in running text, and the
entities that stand for them.
-/

namespace Switchboard.Text.Html

/-- The form of a character inside HTML. -/
def escapeChar : Char → List Char
  | '&' => ['&', 'a', 'm', 'p', ';']
  | '<' => ['&', 'l', 't', ';']
  | '>' => ['&', 'g', 't', ';']
  | '"' => ['&', 'q', 'u', 'o', 't', ';']
  | c => [c]

/-- The form of a text inside HTML. -/
def escape (s : String) : String := String.ofList (s.toList.flatMap escapeChar)

/-- Undoes the four entities and keeps everything else. -/
def unescapeChars : List Char → List Char
  | '&' :: 'a' :: 'm' :: 'p' :: ';' :: cs => '&' :: unescapeChars cs
  | '&' :: 'l' :: 't' :: ';' :: cs => '<' :: unescapeChars cs
  | '&' :: 'g' :: 't' :: ';' :: cs => '>' :: unescapeChars cs
  | '&' :: 'q' :: 'u' :: 'o' :: 't' :: ';' :: cs => '"' :: unescapeChars cs
  | c :: cs => c :: unescapeChars cs
  | [] => []

/-- The text that an HTML form stands for. -/
def unescape (s : String) : String := String.ofList (unescapeChars s.toList)

end Switchboard.Text.Html
