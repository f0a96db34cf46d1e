import PredicateSql.Schema.Registry
import PredicateSql.Sql.Literal

/-!
The buffer that a condition is built in. Pieces are only ever appended; a span from some mark to the
end can be bound to its first column, and its boolean tests can be written out. Binding goes through
the span from left to right and stops at the first literal that cannot be resolved, which leaves the
literals before it resolved and the others as markers. Marks are never behind the end of the buffer;
a span from there on is empty here, where a program that takes it panics.
-/
namespace PredicateSql

/-- What binding looks up: the enumerations, and the settings that ciphers fall back on. -/
structure BindingContext where
  enums : EnumRegistry
  settings : Option Settings

namespace Token

def column? : Token → Option ColumnRef
  | column c => some c
  | _ => none

/-- Marks an unbound literal for what the column asks for. Names of an enumeration are resolved only
in full, so an open pattern on such a column is plain text. -/
def bindTo (c : ColumnRef) : Token → Token
  | deferred value wildcard none =>
    match c.stringify, c.cipher with
    | some key, cipher? =>
      if wildcard = .none then stringify value wildcard key
      else
        match cipher? with
        | some spec => cipher value wildcard spec
        | none => deferred value wildcard (some .string)
    | none, some spec => cipher value wildcard spec
    | none, none => deferred value wildcard (some c.kind)
  | t => t

/-- Replaces an enumeration marker by its name, which may have to be encrypted. -/
def resolveStringify (context : BindingContext) (c : ColumnRef) : Token → Except Error Token
  | stringify value wildcard key =>
    match context.enums.find? key with
    | none => .error (.unresolved (.enumUnknown key))
    | some d =>
      match value.resolveEnum d with
      | .error e => .error e
      | .ok value =>
        match c.cipher with
        | some spec => .ok (cipher value wildcard spec)
        | none => .ok (deferred value wildcard (some .string))
  | t => .ok t

/-- Replaces an encryption marker by its ciphertext. -/
def resolveCipher (context : BindingContext) : Token → Except Error Token
  | cipher value wildcard spec =>
    match FieldCipher.ofSpec context.settings spec with
    | .error e => .error e
    | .ok key => .ok (deferred (value.encrypt key wildcard) .none (some .string))
  | t => .ok t

/-- Resolves the markers of one piece; on an error the piece is left as far as it got. -/
def resolve (context : BindingContext) (c : ColumnRef) (t : Token) : Except Error Unit × Token :=
  match t.resolveStringify context c with
  | .error e => (.error e, t)
  | .ok t =>
    match t.resolveCipher context with
    | .error e => (.error e, t)
    | .ok t => (.ok (), t)

def collapse (d : Dialect) : Token → Token
  | bool invert => sql (" = " ++ d.boolLiteral !invert)
  | t => t

/-- The text of a piece; a marker has none. -/
def render (d : Dialect) : Token → Except Error String
  | sql text => .ok text
  | column c => .ok (c.render d)
  | deferred value wildcard hint => .ok (value.render d wildcard hint)
  | stringify _ _ key => .error (.unresolved (.enumPending key))
  | cipher _ _ _ => .error (.unresolved .encryptionPending)
  | bool invert => .ok (" = " ++ d.boolLiteral !invert)

/-- Resolves the markers of a span from left to right, up to the first error. -/
def resolveAll (context : BindingContext) (c : ColumnRef) :
    List Token → Except Error Unit × List Token
  | [] => (.ok (), [])
  | t :: rest =>
    match t.resolve context c with
    | (.error e, t) => (.error e, t :: rest)
    | (.ok (), t) =>
      let (result, rest) := resolveAll context c rest
      (result, t :: rest)

/-- Binds the literals of a span to its first column; a span without a column stays as it is. -/
def bindSpan (context : BindingContext) (span : List Token) : Except Error Unit × List Token :=
  match span.findSome? column? with
  | none => (.ok (), span)
  | some c => resolveAll context c (span.map (bindTo c))

/-- The text of all pieces, in order. -/
def renderAll (d : Dialect) : List Token → Except Error String
  | [] => .ok ""
  | t :: rest => do
    let text ← t.render d
    let more ← renderAll d rest
    .ok (text ++ more)

end Token

structure TokenBuffer where
  tokens : List Token

namespace TokenBuffer

def empty : TokenBuffer := ⟨[]⟩

def mark (b : TokenBuffer) : Nat :=
  b.tokens.length

def push (b : TokenBuffer) (t : Token) : TokenBuffer :=
  ⟨b.tokens ++ [t]⟩

/-- Binds the span from `start` on. -/
def bindSpan (context : BindingContext) (start : Nat) (b : TokenBuffer) :
    Except Error Unit × TokenBuffer :=
  let (result, span) := Token.bindSpan context (b.tokens.drop start)
  (result, ⟨b.tokens.take start ++ span⟩)

/-- Writes out the boolean tests from `start` on. -/
def collapseBooleans (d : Dialect) (start : Nat) (b : TokenBuffer) : TokenBuffer :=
  ⟨b.tokens.take start ++ (b.tokens.drop start).map (Token.collapse d)⟩

def finish (b : TokenBuffer) (d : Dialect) : Except Error String :=
  Token.renderAll d b.tokens

end TokenBuffer
end PredicateSql
