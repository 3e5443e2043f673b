import SiblingStore.Text.Printable

/-!
# Quoted text

The form in which text and characters appear inside messages: between quotes,
with short escapes for the common controls and a code point in braces for
whatever would not show by itself.
-/

namespace SiblingStore.Text.Quoted

def codePoint (c : Char) : String := 
  "\\u\x7b" ++ String.ofList (Nat.toDigits 16 c.toNat) ++ "\x7d"

def escape (quote : Char) (c : Char) : String :=
  if c = '\x00' then "\\0"
  else if c = '\t' then "\\t"
  else if c = '\r' then "\\r"
  else if c = '\n' then "\\n"
  else if c = '\\' then "\\\\"
  else if c = quote then String.ofList ['\\', c]
  else if Printable.isExtending c then codePoint c
  else if Printable.isPrintable c then String.singleton c
  else codePoint c

def text (s : String) : String :=
  "\"" ++ String.join (s.toList.map (escape '"')) ++ "\""

def char (c : Char) : String := "'" ++ escape '\'' c ++ "'"

end SiblingStore.Text.Quoted
