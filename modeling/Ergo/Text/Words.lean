/-!
Cutting text into pieces: trimming, maximal runs of characters of one class, fields between
separators, and the search for one text inside another. All functions work on character lists,
and positions are counted in bytes of the UTF-8 form.
-/

namespace Ergo.Text

/-! ## Character classes -/

/-- White space in the sense of the Unicode property. -/
def isBlank (char : Char) : Bool :=
  let code := char.toNat
  (0x09 ≤ code && code ≤ 0x0D) || code == 0x20 || code == 0x85 || code == 0xA0 ||
    code == 0x1680 || (0x2000 ≤ code && code ≤ 0x200A) || code == 0x2028 || code == 0x2029 ||
    code == 0x202F || code == 0x205F || code == 0x3000

/-- The printable characters of ASCII that are neither letters, digits nor the space. -/
def isPunctuation (char : Char) : Bool :=
  let code := char.toNat
  (0x21 ≤ code && code ≤ 0x2F) || (0x3A ≤ code && code ≤ 0x40) ||
    (0x5B ≤ code && code ≤ 0x60) || (0x7B ≤ code && code ≤ 0x7E)

def isPlain (char : Char) : Bool :=
  char.isAlphanum

/-! ## Bytes -/

def byteLength : List Char → Nat
  | [] => 0
  | char :: rest => char.utf8Size + byteLength rest

@[simp] theorem byteLength_nil : byteLength [] = 0 := rfl

@[simp] theorem byteLength_cons (char : Char) (rest : List Char) :
    byteLength (char :: rest) = char.utf8Size + byteLength rest := rfl

@[simp] theorem byteLength_append (first second : List Char) :
    byteLength (first ++ second) = byteLength first + byteLength second := by
  induction first with
  | nil => simp
  | cons char rest induction => simp [induction, Nat.add_assoc]

/-! ## Trimming -/

def trimStart (chars : List Char) : List Char :=
  chars.dropWhile isBlank

def trimEnd (chars : List Char) : List Char :=
  (chars.reverse.dropWhile isBlank).reverse

def trimChars (chars : List Char) : List Char :=
  trimEnd (trimStart chars)

def trim (text : String) : String :=
  String.ofList (trimChars text.toList)

/-! ## Runs and fields -/

/-- Maximal runs of characters that satisfy `keep`; `current` is the open run, reversed. -/
def runsFrom (keep : Char → Bool) (current : List Char) : List Char → List (List Char)
  | [] => if current.isEmpty then [] else [current.reverse]
  | char :: rest =>
      if keep char then runsFrom keep (char :: current) rest
      else if current.isEmpty then runsFrom keep [] rest
      else current.reverse :: runsFrom keep [] rest

def runs (keep : Char → Bool) (chars : List Char) : List (List Char) :=
  runsFrom keep [] chars

/-- The words between white space. -/
def blankSeparated (chars : List Char) : List (List Char) :=
  runs (fun char => !isBlank char) chars

/-- The text cut at the first character that satisfies `stop`, which is dropped. -/
def cutAtFirst (stop : Char → Bool) : List Char → Option (List Char × List Char)
  | [] => none
  | char :: rest =>
      if stop char then some ([], rest)
      else (cutAtFirst stop rest).map fun (before, after) => (char :: before, after)

/-- Fields between occurrences of `separator`, empty ones included. -/
def fields (separator : Char) : List Char → List (List Char)
  | [] => [[]]
  | char :: rest =>
      if char == separator then [] :: fields separator rest
      else
        match fields separator rest with
        | [] => [[char]]
        | field :: later => (char :: field) :: later

def spaceFields (text : String) : List String :=
  (fields ' ' text.toList).map String.ofList

/-! ## Parts of a text -/

def occursIn (needle : List Char) : List Char → Bool
  | [] => needle.isEmpty
  | char :: rest => needle.isPrefixOf (char :: rest) || occursIn needle rest

def contains (text needle : String) : Bool :=
  occursIn needle.toList text.toList

def endsWith (text ending : String) : Bool :=
  ending.toList.isSuffixOf text.toList

/-- The text before `ending`, if the text ends so. -/
def dropEnding? (text ending : String) : Option String :=
  if endsWith text ending then
    some (String.ofList (text.toList.take (text.toList.length - ending.toList.length)))
  else none

end Ergo.Text
