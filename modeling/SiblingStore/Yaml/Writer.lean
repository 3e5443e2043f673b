import SiblingStore.Yaml.Cursor
import SiblingStore.Yaml.Scalar

/-!
# Writing YAML scalars

A text is written plain where that is safe. It is put in quotes where it would be
read as something else, as a block where it has line breaks, and in double
quotes with escapes where it has characters that do not show.
-/

namespace SiblingStore.Yaml.Writer

inductive Style where
  | plain
  | single
  | double
  | literal
  deriving DecidableEq

def shows (c : Char) : Bool :=
  let n := c.toNat
  n = 0x0A || (0x20 ≤ n && n ≤ 0x7E) || (0xA0 ≤ n && n ≤ 0xD7FF)
    || (0xE000 ≤ n && n ≤ 0xFFFD && n ≠ 0xFEFF) || 0x10000 ≤ n

/-- Whether a character at this place could be taken for an indicator. `before` tells
that a gap comes before it. -/
def isIndicator (first before : Bool) (c : Char) (rest : List Char) : Bool :=
  if first then
    [',', '#', '[', ']', '\x7b', '\x7d', '&', '*', '!', '|', '>', '\'', '"', '%', '@',
      '\x60'].contains c || ((c = '?' || c = ':' || c = '-') && atGap rest)
  else (c = ':' && atGap rest) || (c = '#' && before)

def hasIndicator (first before : Bool) : List Char → Bool
  | [] => false
  | c :: rest =>
    isIndicator first before c rest || hasIndicator false (isBlank c || isBreak c) rest

def adjacent (p q : Char → Bool) : List Char → Bool
  | a :: b :: rest => (p a && q b) || adjacent p q (b :: rest)
  | _ => false

/-- The style of a text; `wanted` is the one it should have if it can. -/
def fitting (wanted : Style) (cs : List Char) : Style :=
  let isSpace := fun c => c = ' '
  let special := cs.any (!shows ·) || adjacent isSpace isBreak cs
  let atEdge := fun (c : Option Char) => c.any fun c => isSpace c || isBreak c
  let singleAllowed := !special && !adjacent isBreak isSpace cs
  let plainAllowed := singleAllowed && !cs.any isBreak && !atEdge cs.head? && !atEdge cs.getLast?
    && !hasIndicator true true cs && cs.take 3 ≠ ['-', '-', '-'] && cs.take 3 ≠ ['.', '.', '.']
  let blockAllowed := !special && !cs.isEmpty && !(cs.getLast?.any isSpace)
  match wanted with
  | .literal => if blockAllowed then .literal else .double
  | .plain => if plainAllowed then .plain else if singleAllowed then .single else .double
  | .single => if singleAllowed then .single else .double
  | .double => .double

def styleOf (s : String) : Style :=
  let cs := s.toList
  if cs.contains '\n' then fitting .literal cs
  else if Scalar.meaning s ≠ .text || Scalar.hasLeadingZero cs then fitting .single cs
  else fitting .plain cs

def hex (width n : Nat) : List Char :=
  ((Nat.toDigits 16 n).map Char.toUpper).leftpad width '0'

def escaped (c : Char) : List Char :=
  let short : Option Char :=
    match c with
    | '\x00' => some '0'
    | '\x07' => some 'a'
    | '\x08' => some 'b'
    | '\t' => some 't'
    | '\n' => some 'n'
    | '\x0b' => some 'v'
    | '\x0c' => some 'f'
    | '\r' => some 'r'
    | '\x1b' => some 'e'
    | '"' => some '"'
    | '\\' => some '\\'
    | '\u0085' => some 'N'
    | '\u2028' => some 'L'
    | '\u2029' => some 'P'
    | _ => none
  match short with
  | some x => ['\\', x]
  | none =>
    let n := c.toNat
    if shows c then [c]
    else if n ≤ 0xFF then '\\' :: 'x' :: hex 2 n
    else '\\' :: 'u' :: hex 4 n

/-- A text with `indent` spaces before what follows a line break; `fresh` tells that
a break comes before the text. Empty lines stay empty. -/
def indentLines (indent : Nat) : (fresh : Bool) → List Char → List Char
  | _, [] => []
  | fresh, c :: rest =>
    if isBreak c then c :: indentLines indent true rest
    else (if fresh then List.replicate indent ' ' else []) ++ c :: indentLines indent false rest

/-- The marks behind the indicator of a block: its indentation if the text starts with
a space or break, and what its end is like. -/
def blockHints (cs : List Char) : List Char :=
  let start := if cs.head?.any fun c => c = ' ' || isBreak c then ['2'] else []
  let ending := match cs.reverse with
    | [] => ['-']
    | [c] => if isBreak c then ['+'] else ['-']
    | c :: d :: _ => if !isBreak c then ['-'] else if isBreak d then ['+'] else []
  start ++ ending

def line (indent : Nat) (s : String) : String :=
  let cs := s.toList
  String.ofList (match styleOf s with
    | .plain => cs ++ ['\n']
    | .single =>
      let doubled := cs.flatMap fun c => if c = '\'' then ['\'', '\''] else [c]
      indentLines indent false ('\'' :: doubled ++ ['\'']) ++ ['\n']
    | .double => '"' :: cs.flatMap escaped ++ ['"', '\n']
    | .literal =>
      let lines := indentLines indent true cs
      '|' :: blockHints cs ++ '\n' :: lines ++ (if cs.getLast?.any isBreak then [] else ['\n']))

end SiblingStore.Yaml.Writer
