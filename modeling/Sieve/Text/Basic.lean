/-!
Texts as lists of characters: one inside another, the blanks around one, and how far apart two are.
-/

namespace Sieve.Text

/-- One text stands somewhere inside another: at its start, or inside what follows its first
character. -/
def occursIn (part : List Char) : List Char → Bool
  | [] => part.isEmpty
  | c :: cs => part.isPrefixOf (c :: cs) || occursIn part cs

/-! ### Blanks -/

/-- The character is one of the twenty-five with the White_Space property. -/
def isBlank (c : Char) : Bool :=
  let code := c.toNat
  (0x9 ≤ code && code ≤ 0xd) || code == 0x20 || code == 0x85 || code == 0xa0 || code == 0x1680
    || (0x2000 ≤ code && code ≤ 0x200a) || code == 0x2028 || code == 0x2029 || code == 0x202f
    || code == 0x205f || code == 0x3000

def trimStart (s : List Char) : List Char := s.dropWhile isBlank

/-- The text without blanks at either end. -/
def trim (s : List Char) : List Char := (trimStart (trimStart s).reverse).reverse

/-! ### Edit distance

The least number of single characters to insert, delete or substitute that turns one text into
another. It is computed a row at a time; the row of a text holds its distances to every suffix of the
other text, the whole of it first and the empty one last.
-/

/-- The row of the empty text: a suffix is as far away as it is long. -/
def emptyRow : List Char → List Nat
  | [] => [0]
  | _ :: ys => (ys.length + 1) :: emptyRow ys

/-- The row of `x :: xs`, from the row of `xs`. -/
def nextRow (x : Char) : List Char → List Nat → List Nat
  | y :: ys, deleted :: below =>
    let rest := nextRow x ys below
    let kept := below.headD 0 + (if x = y then 0 else 1)
    min (deleted + 1) (min (rest.headD 0 + 1) kept) :: rest
  | _, deleted :: _ => [deleted + 1]
  | _, [] => []

/-- The row of a text. -/
def distanceRow (xs ys : List Char) : List Nat := xs.foldr (nextRow · ys) (emptyRow ys)

def editDistance (xs ys : List Char) : Nat := (distanceRow xs ys).headD 0

end Sieve.Text
