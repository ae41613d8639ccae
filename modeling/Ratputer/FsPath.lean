import Ratputer.Clock
import Ratputer.Lib.Utf8

/-!
# Paths on the volume

`fspath.rs`: paths are lists of components from the volume root. A `Str` is the list of characters of a Rust string.
-/

namespace Ratputer

abbrev Str := List Char

/-- The octets of a string. -/
def asBytes (s : Str) : List UInt8 := Utf8.encode s

/-- The parts of a path between its slashes. -/
def splitSlash : Str → List Str
  | [] => [[]]
  | c :: rest =>
    if c = '/' then [] :: splitSlash rest
    else
      match splitSlash rest with
      | [] => [[c]]
      | part :: parts => (c :: part) :: parts

/-- One component applied to a path: empty and `.` stay, `..` goes up, a name goes down. -/
def resolveComponent (result : List Str) (component : Str) : List Str :=
  if component = [] ∨ component = ['.'] then result
  else if component = ['.', '.'] then result.dropLast
  else result ++ [component]

/-- Apply a path to `base`; a leading slash starts at the root, and `..` above the root stays at the root. -/
def resolve (base : List Str) (path : Str) : List Str :=
  (splitSlash path).foldl resolveComponent (if path.head? = some '/' then [] else base)

/-- The path of a list of components. -/
def display (components : List Str) : Str :=
  if components = [] then ['/'] else components.flatMap ('/' :: ·)

/-- ASCII letters in lower case. -/
def toAsciiLowercase (c : Char) : Char := if 'A' ≤ c ∧ c ≤ 'Z' then Char.ofNat (c.toNat + 32) else c

/-- Equal up to the case of ASCII letters. -/
def eqIgnoreAsciiCase (a b : Str) : Bool := a.map toAsciiLowercase = b.map toAsciiLowercase

/-- Two file paths that the server takes for one: same length, components equal up to ASCII case. -/
def samePath (aParent : List Str) (aLeaf : Str) (bParent : List Str) (bLeaf : Str) : Bool :=
  aParent.length = bParent.length && eqIgnoreAsciiCase aLeaf bLeaf &&
    (aParent.zip bParent).all fun p => eqIgnoreAsciiCase p.1 p.2

def MONTHS : List String := ["Jan", "Feb", "Mar", "Apr", "May", "Jun", "Jul", "Aug", "Sep", "Oct", "Nov", "Dec"]

/-- Decimal digits, padded on the left to a width. -/
def padLeft (width : Nat) (fill : Char) (n : Nat) : Str :=
  let digits := Nat.toDigits 10 n
  List.replicate (width - digits.length) fill ++ digits

end Ratputer
