import PredicateSql.Toml.Moment
import PredicateSql.Toml.Table

/-!
Reading TOML documents, version 1.0. Arrays and inline tables may be nested less than eighty deep,
and a dotted key has fewer than eighty parts.
-/
namespace PredicateSql.Toml

/-- The bound on nesting and on the parts of a key. -/
def nestingBound : Nat := 80

def skipComment : List Char → List Char
  | '#' :: cs => cs.dropWhile isPlain
  | cs => cs

/-- Drops blanks, line breaks and comments; a comment must end in a line break. -/
def skipLines : Nat → List Char → List Char
  | 0, cs => cs
  | fuel + 1, cs =>
    let cs := skipSpace cs
    match lineBreak? (skipComment cs) with
    | some rest => skipLines fuel rest
    | none => cs

/-- The end of a line: blanks, a comment, and a line break or the end of the text. -/
def lineEnd? (cs : List Char) : Option (List Char) :=
  match skipComment (skipSpace cs) with
  | [] => some []
  | cs => lineBreak? cs

/-- A character of a key without quotes. -/
def isBareKey (c : Char) : Bool :=
  c.val < 128 && (c.isAlphanum || c = '_' || c = '-')

/-- One part of a key. -/
def keyPart? (cs : List Char) : Option (String × List Char) :=
  match lineString? cs with
  | some found => some found
  | none =>
    let (bare, rest) := cs.span isBareKey
    if bare.isEmpty then none else some (String.ofList bare, rest)

/-- A key: parts with dots between them, each with blanks around it. -/
def key? : Nat → List Char → Option (List String × List Char)
  | 0, _ => none
  | bound + 1, cs => do
    let (part, cs) ← keyPart? (skipSpace cs)
    match skipSpace cs with
    | '.' :: rest =>
      let (parts, rest) ← key? bound rest
      some (part :: parts, rest)
    | rest => some ([part], rest)

def boundedKey? (cs : List Char) : Option (List String × List Char) :=
  key? (nestingBound - 1) cs

mutual

/-- A value in front of the text, nested at most `depth` deep. -/
def value? (fuel depth : Nat) (cs : List Char) : Option (Toml × List Char) :=
  match fuel with
  | 0 => none
  | fuel + 1 =>
    match cs with
    | '"' :: _ => (string? cs).map fun (s, rest) => (string s, rest)
    | '\'' :: _ => (string? cs).map fun (s, rest) => (string s, rest)
    | '[' :: rest =>
      if depth = 0 then none
      else (items? fuel (depth - 1) [] rest).map fun (items, rest) => (array items, rest)
    | '\x7b' :: rest =>
      if depth = 0 then none
      else
        match skipSpace rest with
        | '\x7d' :: rest => some (table [], rest)
        | rest => entries? fuel (depth - 1) .empty rest
    | 't' :: _ => (expect? "true".toList cs).map fun rest => (bool true, rest)
    | 'f' :: _ => (expect? "false".toList cs).map fun rest => (bool false, rest)
    | _ =>
      match moment? cs with
      | some found => some found
      | none => number? cs

/-- The items of an array up to its end, after `seen` (last first). -/
def items? (fuel depth : Nat) (seen : List Toml) (cs : List Char) :
    Option (List Toml × List Char) :=
  match fuel with
  | 0 => none
  | fuel + 1 =>
    match skipLines fuel cs with
    | ']' :: rest => some (seen.reverse, rest)
    | cs =>
      match value? fuel depth cs with
      | none => none
      | some (item, cs) =>
        match skipLines fuel cs with
        | ',' :: rest => items? fuel depth (item :: seen) rest
        | ']' :: rest => some ((item :: seen).reverse, rest)
        | _ => none

/-- The entries of an inline table up to its end, added to `seen`. -/
def entries? (fuel depth : Nat) (seen : Draft) (cs : List Char) : Option (Toml × List Char) :=
  match fuel with
  | 0 => none
  | fuel + 1 =>
    match boundedKey? cs with
    | some (path, '=' :: cs) =>
      match value? fuel depth (skipSpace cs) with
      | none => none
      | some (value, cs) =>
        match seen.setValue path value with
        | none => none
        | some seen =>
          match skipSpace cs with
          | ',' :: rest => entries? fuel depth seen rest
          | '\x7d' :: rest => some (table (finishEntries seen.entries), rest)
          | _ => none
    | _ => none

end

/-- A header in front of the text. -/
def header? (doc : Document) (cs : List Char) : Option (Document × List Char) :=
  match cs with
  | '[' :: '[' :: rest => do
    let (path, rest) ← boundedKey? rest
    let rest ← lineEnd? (← expect? [']', ']'] rest)
    some (← doc.itemHeader path, rest)
  | '[' :: rest => do
    let (path, rest) ← boundedKey? rest
    let rest ← lineEnd? (← expect? [']'] rest)
    some (← doc.header path, rest)
  | _ => none

/-- A key with its value in front of the text. -/
def setting? (fuel : Nat) (doc : Document) (cs : List Char) : Option (Document × List Char) := do
  let (path, cs) ← boundedKey? cs
  let (value, cs) ← value? fuel (nestingBound - 1) (skipSpace (← expect? ['='] cs))
  some (← doc.setValue path value, ← lineEnd? cs)

/-- The lines of a document. -/
def lines? : Nat → Document → List Char → Option Document
  | 0, _, _ => none
  | fuel + 1, doc, cs =>
    match skipSpace cs with
    | [] => some doc
    | cs =>
      match lineEnd? cs with
      | some rest => lines? fuel doc rest
      | none =>
        match cs with
        | '[' :: _ => do
          let (doc, rest) ← header? doc cs
          lines? fuel doc rest
        | _ => do
          let (doc, rest) ← setting? (2 * fuel + 2) doc cs
          lines? fuel doc rest

/-- Reads a document; a byte order mark in front is passed over. A document that stands for a date
is not a table. -/
def parse? (text : String) : Option Toml :=
  let cs := match text.toList with
    | '\ufeff' :: cs => cs
    | cs => cs
  match lines? (cs.length + 1) .empty cs with
  | some doc => doc.finish.bind withMoments?
  | none => none

end PredicateSql.Toml
