import Isolate.Script.Number

/-!
# Tokens of scripts

A script is read as words, numbers, strings and punctuators. A word may be reserved or not; what it
means is for the grammar to say. A token remembers where it stands and whether a line ended before it.
-/

namespace Isolate.Script

/-- A place in a script: the line and the column of a character, both counted from one. -/
structure Position where
  line : Nat
  column : Nat
  deriving Repr, DecidableEq, Inhabited

inductive Punctuator where
  | openBrace | closeBrace | openParen | closeParen | openBracket | closeBracket
  | dot | ellipsis | semicolon | comma | question | optionalDot | colon | arrow
  | less | greater | lessEqual | greaterEqual
  | equal | notEqual | strictEqual | strictNotEqual
  | plus | minus | star | slash | percent | power | increment | decrement
  | shiftLeft | shiftRight | shiftRightUnsigned
  | bitAnd | bitOr | bitXor | bitNot | logicalNot | logicalAnd | logicalOr | coalesce
  | assign | plusAssign | minusAssign | starAssign | slashAssign | percentAssign | powerAssign
  | shiftLeftAssign | shiftRightAssign | shiftRightUnsignedAssign
  | bitAndAssign | bitOrAssign | bitXorAssign
  | logicalAndAssign | logicalOrAssign | coalesceAssign
  deriving Repr, DecidableEq

/-- The written forms of the punctuators, a longer one before its beginnings. -/
def Punctuator.spellings : List (List Char × Punctuator) :=
  [(">>>=", .shiftRightUnsignedAssign), ("...", .ellipsis), ("===", .strictEqual),
    ("!==", .strictNotEqual), ("**=", .powerAssign), ("<<=", .shiftLeftAssign),
    (">>=", .shiftRightAssign), (">>>", .shiftRightUnsigned), ("&&=", .logicalAndAssign),
    ("||=", .logicalOrAssign), ("??=", .coalesceAssign), ("=>", .arrow), ("==", .equal),
    ("!=", .notEqual), ("<=", .lessEqual), (">=", .greaterEqual), ("&&", .logicalAnd),
    ("||", .logicalOr), ("??", .coalesce), ("?.", .optionalDot), ("++", .increment),
    ("--", .decrement), ("+=", .plusAssign), ("-=", .minusAssign), ("*=", .starAssign),
    ("/=", .slashAssign), ("%=", .percentAssign), ("&=", .bitAndAssign), ("|=", .bitOrAssign),
    ("^=", .bitXorAssign), ("<<", .shiftLeft), (">>", .shiftRight), ("**", .power),
    ("\x7b", .openBrace), ("\x7d", .closeBrace), ("(", .openParen), (")", .closeParen),
    ("[", .openBracket), ("]", .closeBracket), (".", .dot), (";", .semicolon), (",", .comma),
    ("?", .question), (":", .colon), ("<", .less), (">", .greater), ("+", .plus), ("-", .minus),
    ("*", .star), ("/", .slash), ("%", .percent), ("&", .bitAnd), ("|", .bitOr), ("^", .bitXor),
    ("~", .bitNot), ("!", .logicalNot), ("=", .assign)].map fun (text, p) => (text.toList, p)

inductive Token where
  | word (name : String)
  | number (value : Number)
  | string (value : Text.Units)
  | punctuator (p : Punctuator)
  /-- Behind the last token. -/
  | endOfText
  /-- Text that is no token, and where that shows, if it shows before the end. -/
  | unreadable (place : Option Position)
  deriving Repr

structure Lexeme where
  token : Token
  position : Position
  /-- The characters before the token. -/
  start : Nat
  /-- The characters up to the end of the token. -/
  stop : Nat
  /-- Whether a line ends between the token before and this one. -/
  afterNewline : Bool
  deriving Repr

end Isolate.Script
