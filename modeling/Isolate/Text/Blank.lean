/-!
# Blanks and lines

The characters with the property "white space", trimming by them, and the lines of a text. A line
ends at a newline, and a carriage return just before the newline belongs to the line's end.
-/

namespace Isolate.Text

/-- The Unicode property "white space". -/
def isBlank (c : Char) : Bool :=
  let n := c.toNat
  (0x9 ≤ n && n ≤ 0xd) || n == 0x20 || n == 0x85 || n == 0xa0 || n == 0x1680
    || (0x2000 ≤ n && n ≤ 0x200a) || n == 0x2028 || n == 0x2029 || n == 0x202f || n == 0x205f
    || n == 0x3000

def trimEnd (text : List Char) : List Char := (text.reverse.dropWhile isBlank).reverse

def trim (text : List Char) : List Char := trimEnd (text.dropWhile isBlank)

def splitAtChar (separator : Char) : List Char → List (List Char)
  | [] => [[]]
  | c :: rest =>
    if c = separator then [] :: splitAtChar separator rest
    else
      match splitAtChar separator rest with
      | [] => [[c]]
      | piece :: pieces => (c :: piece) :: pieces

def dropReturn (line : List Char) : List Char :=
  match line.reverse with
  | '\r' :: front => front.reverse
  | _ => line

/-- The lines of a text; a newline at the very end starts no further line. -/
def lines (text : List Char) : List (List Char) :=
  let pieces := splitAtChar '\n' text
  match pieces.reverse with
  | [] => []
  | last :: front =>
    let closed := front.reverse.map dropReturn
    if last.isEmpty then closed else closed ++ [last]

end Isolate.Text
