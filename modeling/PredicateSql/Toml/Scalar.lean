import PredicateSql.Calendar.Basic
import PredicateSql.Number.Rounding
import PredicateSql.Text.Hex
import PredicateSql.Toml.Basic

/-!
The scalars of TOML. Each function reads one kind of scalar in front of the text and returns what
follows it.
-/
namespace PredicateSql.Toml

def isSpace (c : Char) : Bool :=
  c = ' ' || c = '\t'

def skipSpace (cs : List Char) : List Char :=
  cs.dropWhile isSpace

/-- A character of a comment, and of a string unless it has a meaning there. -/
def isPlain (c : Char) : Bool :=
  c = '\t' || (0x20 ≤ c.toNat && c.toNat ≠ 0x7F)

/-- A line break. -/
def lineBreak? : List Char → Option (List Char)
  | '\n' :: cs => some cs
  | '\r' :: '\n' :: cs => some cs
  | _ => none

/-- The text `word` in front. -/
def expect? : List Char → List Char → Option (List Char)
  | [], cs => some cs
  | w :: word, c :: cs => if w = c then expect? word cs else none
  | _ :: _, [] => none

/-! ### Strings -/

/-- The character with a code point of exactly `width` hexadecimal digits. -/
def codePoint? (width : Nat) (cs : List Char) : Option (Char × List Char) :=
  let digits := cs.take width
  if digits.length = width then
    match Text.Hex.number? 0 digits with
    | some n => if n.isValidChar then some (Char.ofNat n, cs.drop width) else none
    | none => none
  else none

/-- The character of an escape, after its backslash. -/
def escape? : List Char → Option (Char × List Char)
  | 'b' :: cs => some ('\x08', cs)
  | 'f' :: cs => some ('\x0c', cs)
  | 'n' :: cs => some ('\n', cs)
  | 'r' :: cs => some ('\r', cs)
  | 't' :: cs => some ('\t', cs)
  | '"' :: cs => some ('"', cs)
  | '\\' :: cs => some ('\\', cs)
  | 'u' :: cs => codePoint? 4 cs
  | 'U' :: cs => codePoint? 8 cs
  | _ => none

/-- The rest of a one-line string with escapes, after `seen` (last first). -/
def basicRest? : Nat → List Char → List Char → Option (String × List Char)
  | 0, _, _ => none
  | _ + 1, _, [] => none
  | fuel + 1, seen, c :: cs =>
    if c = '"' then some (String.ofList seen.reverse, cs)
    else if c = '\\' then
      match escape? cs with
      | some (e, cs) => basicRest? fuel (e :: seen) cs
      | none => none
    else if isPlain c then basicRest? fuel (c :: seen) cs
    else none

/-- The rest of a one-line string without escapes. -/
def literalRest? (cs : List Char) : Option (String × List Char) :=
  let (body, rest) := cs.span fun c => isPlain c && c ≠ '\''
  match rest with
  | '\'' :: rest => some (String.ofList body, rest)
  | _ => none

/-- Drops blanks and line breaks after a line break that a backslash hides. -/
def skipHidden : List Char → List Char
  | ' ' :: cs => skipHidden cs
  | '\t' :: cs => skipHidden cs
  | '\n' :: cs => skipHidden cs
  | '\r' :: '\n' :: cs => skipHidden cs
  | cs => cs

/-- The rest of a string of several lines. Up to two quotes may stand next to the three that end it,
and line breaks are read as line feeds. -/
def multilineRest? (quote : Char) : Nat → List Char → List Char → Option (String × List Char)
  | 0, _, _ => none
  | _ + 1, _, [] => none
  | fuel + 1, seen, c :: cs =>
    if c = quote then
      let run := (c :: cs).takeWhile (· = quote)
      let rest := (c :: cs).dropWhile (· = quote)
      if run.length < 3 then multilineRest? quote fuel (run ++ seen) rest
      else if run.length ≤ 5 then some (String.ofList (run.drop 3 ++ seen).reverse, rest)
      else none
    else if c = '\\' && quote = '"' then
      match lineBreak? (skipSpace cs) with
      | some rest => multilineRest? quote fuel seen (skipHidden rest)
      | none =>
        match escape? cs with
        | some (e, rest) => multilineRest? quote fuel (e :: seen) rest
        | none => none
    else
      match lineBreak? (c :: cs) with
      | some rest => multilineRest? quote fuel ('\n' :: seen) rest
      | none => if isPlain c then multilineRest? quote fuel (c :: seen) cs else none

/-- A string of several lines, after its opening quotes; a line break right there is left out. -/
def multiline? (quote : Char) (cs : List Char) : Option (String × List Char) :=
  let cs := (lineBreak? cs).getD cs
  multilineRest? quote (cs.length + 1) [] cs

/-- A string on one line. -/
def lineString? : List Char → Option (String × List Char)
  | '"' :: cs => basicRest? (cs.length + 1) [] cs
  | '\'' :: cs => literalRest? cs
  | _ => none

/-- A string of any kind. -/
def string? : List Char → Option (String × List Char)
  | '"' :: '"' :: '"' :: cs => multiline? '"' cs
  | '\'' :: '\'' :: '\'' :: cs => multiline? '\'' cs
  | cs => lineString? cs

/-! ### Numbers -/

/-- A run of digits after the first; an underscore must stand between two digits. -/
def digitsRest? (isDigit : Char → Bool) : List Char → Option (List Char × List Char)
  | [] => some ([], [])
  | '_' :: d :: cs =>
    if isDigit d then
      (digitsRest? isDigit cs).map fun (digits, rest) => (d :: digits, rest)
    else none
  | ['_'] => none
  | c :: cs =>
    if isDigit c then
      (digitsRest? isDigit cs).map fun (digits, rest) => (c :: digits, rest)
    else some ([], c :: cs)

/-- A run of digits, without its underscores. -/
def digits? (isDigit : Char → Bool) : List Char → Option (List Char × List Char)
  | d :: cs =>
    if isDigit d then
      (digitsRest? isDigit cs).map fun (digits, rest) => (d :: digits, rest)
    else none
  | [] => none

/-- The whole part of a number: no zeros in front of other digits. -/
def wholeDigits? : List Char → Option (List Char × List Char)
  | '0' :: cs => some (['0'], cs)
  | cs => digits? Decimal.isDigit cs

/-- The exponent of a number, if the letter for it stands in front. -/
def exponent? : List Char → Option (Int × List Char)
  | e :: cs =>
    if e = 'e' || e = 'E' then do
      let (negative, cs) := Decimal.splitSign cs
      let (digits, cs) ← digits? Decimal.isDigit cs
      let n : Int := Decimal.digitsValue 0 digits
      some (if negative then -n else n, cs)
    else some (0, e :: cs)
  | [] => some (0, [])

/-- A floating-point number from its parts; one that is too large is refused unless it is
negative. -/
def floatOf? (negative : Bool) (whole fraction : List Char) (exponent : Int) : Option Toml :=
  let x := Double.ofDecimal .double (Decimal.ofParts negative whole fraction exponent)
  if x.isInfinite && !negative then none else some (float x)

def intOf? (negative : Bool) (n : Nat) : Option Toml :=
  if negative then (if Int64.minValue.toInt ≤ -(n : Int) then some (int (-n)) else none)
  else if n ≤ Int64.maxValue.toInt then some (int n) else none

/-- An integer in another base, after its mark. -/
def based? (base : Nat) (cs : List Char) : Option (Toml × List Char) := do
  let isDigit := fun c => match Text.Hex.digitValue? c with
    | some n => n < base
    | none => false
  let (digits, cs) ← digits? isDigit cs
  let n := digits.foldl (fun n c => n * base + (Text.Hex.digitValue? c).getD 0) 0
  some (← intOf? false n, cs)

/-- A number written in decimal, or infinity or NaN, after its sign. -/
def decimal? (negative : Bool) (cs : List Char) : Option (Toml × List Char) :=
  match cs with
  | 'i' :: _ => (expect? ['i', 'n', 'f'] cs).map fun rest => (float (.infinity negative), rest)
  | 'n' :: _ => (expect? ['n', 'a', 'n'] cs).map fun rest => (float .nan, rest)
  | _ => do
    let (whole, cs) ← wholeDigits? cs
    match cs with
    | '.' :: cs =>
      let (fraction, cs) ← digits? Decimal.isDigit cs
      let (exponent, cs) ← exponent? cs
      some (← floatOf? negative whole fraction exponent, cs)
    | c :: _ =>
      if c = 'e' || c = 'E' then
        let (exponent, cs) ← exponent? cs
        some (← floatOf? negative whole [] exponent, cs)
      else some (← intOf? negative (Decimal.digitsValue 0 whole), cs)
    | [] => some (← intOf? negative (Decimal.digitsValue 0 whole), cs)

/-- A number. -/
def number? : List Char → Option (Toml × List Char)
  | '0' :: 'x' :: cs => based? 16 cs
  | '0' :: 'o' :: cs => based? 8 cs
  | '0' :: 'b' :: cs => based? 2 cs
  | '+' :: cs => decimal? false cs
  | '-' :: cs => decimal? true cs
  | cs => decimal? false cs

/-! ### Dates and times -/

/-- A number of exactly `width` digits between two bounds. -/
def field? (width least most : Nat) (cs : List Char) : Option (Nat × List Char) :=
  let digits := cs.take width
  if digits.length = width && digits.all Decimal.isDigit then
    let n := Decimal.digitsValue 0 digits
    if least ≤ n && n ≤ most then some (n, cs.drop width) else none
  else none

/-- A date. -/
def date? (cs : List Char) : Option (String × List Char) := do
  let (year, cs) ← field? 4 0 9999 cs
  let (month, cs) ← field? 2 1 12 (← expect? ['-'] cs)
  let (day, cs) ← field? 2 1 31 (← expect? ['-'] cs)
  let d ← Date.of? year month day
  some (d.text, cs)

/-- The fraction of a second with nine digits and without zeros at the end; digits after the ninth
are dropped. -/
def fractionText (digits : List Char) : List Char :=
  ((digits.take 9).reverse.dropWhile (· = '0')).reverse

/-- A time of day with seconds. -/
def clock? (cs : List Char) : Option (String × List Char) := do
  let (hour, cs) ← field? 2 0 23 cs
  let (minute, cs) ← field? 2 0 59 (← expect? [':'] cs)
  let (second, cs) ← field? 2 0 60 (← expect? [':'] cs)
  let whole := Decimal.paddedText 2 hour ++ ":" ++ Decimal.paddedText 2 minute ++ ":" ++
    Decimal.paddedText 2 second
  match cs with
  | '.' :: rest =>
    let (digits, rest) := Decimal.splitDigits rest
    if digits.isEmpty then some (whole, cs)
    else
      let fraction := fractionText digits
      some (if fraction.isEmpty then whole else whole ++ "." ++ String.ofList fraction, rest)
  | _ => some (whole, cs)

/-- An offset from universal time, when one stands in front. -/
def offset? (cs : List Char) : Option (String × List Char) :=
  match cs with
  | 'Z' :: rest => some ("Z", rest)
  | 'z' :: rest => some ("Z", rest)
  | c :: rest =>
    if c = '+' || c = '-' then do
      let (hour, rest) ← field? 2 0 23 rest
      let (minute, rest) ← field? 2 0 59 (← expect? [':'] rest)
      let sign := if c = '-' && 0 < hour + minute then "-" else "+"
      some (sign ++ Decimal.paddedText 2 hour ++ ":" ++ Decimal.paddedText 2 minute, rest)
    else some ("", cs)
  | [] => some ("", cs)

/-- The time of day after a date, when there is one. -/
def timeAfterDate? (cs : List Char) : Option (String × List Char) :=
  match cs with
  | c :: rest =>
    if c = 'T' || c = 't' || c = ' ' then do
      let (clock, rest) ← clock? rest
      let (offset, rest) ← offset? rest
      some (clock ++ offset, rest)
    else none
  | [] => none

/-- A date, a time of day, or both with a `T` between them. -/
def moment? (cs : List Char) : Option (Toml × List Char) :=
  match date? cs with
  | some (date, rest) =>
    match timeAfterDate? rest with
    | some (time, rest) => some (moment (date ++ "T" ++ time), rest)
    | none => some (moment date, rest)
  | none => (clock? cs).map fun (clock, rest) => (moment clock, rest)

end PredicateSql.Toml
