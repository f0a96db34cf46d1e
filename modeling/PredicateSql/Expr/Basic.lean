import PredicateSql.Error
import PredicateSql.Expr.MemberPath
import PredicateSql.Expr.Operator

/-!
Predicate trees over the members of an entity, with the modifiers of a query as nodes of their own.
-/
namespace PredicateSql

/-- Ordering and paging. -/
inductive Modifier where
  | orderBy (path : MemberPath)
  | orderByDescending (path : MemberPath)
  | skip (count : UInt64)
  | take (count : UInt64)
deriving DecidableEq, Repr

def Modifier.text : Modifier → String
  | orderBy path => "OrderBy(" ++ path.text ++ ")"
  | orderByDescending path => "OrderByDescending(" ++ path.text ++ ")"
  | skip count => "Skip(" ++ toString count.toNat ++ ")"
  | take count => "Take(" ++ toString count.toNat ++ ")"

inductive Expr where
  | binary (op : BinaryOp) (left right : Expr)
  | not (operand : Expr)
  /-- A conversion, which means its operand. -/
  | convert (operand : Expr)
  | member (path : MemberPath)
  | constant (value : Value)
  /-- A value that is bound by name. -/
  | captured (name : String)
  | call (method : Method) (receiver : Option Expr) (args : List Expr)
  | modifier (modifier : Modifier)

namespace Expr

/-- Induction over expressions that reaches the arguments of calls. -/
@[elab_as_elim]
theorem inductionOn {motive : Expr → Prop} (e : Expr)
    (binary : ∀ op left right, motive left → motive right → motive (.binary op left right))
    (not : ∀ e, motive e → motive (.not e)) (convert : ∀ e, motive e → motive (.convert e))
    (member : ∀ path, motive (.member path)) (constant : ∀ value, motive (.constant value))
    (captured : ∀ name, motive (.captured name))
    (call : ∀ method receiver args, (∀ e ∈ args, motive e) → motive (.call method receiver args))
    (modifier : ∀ m, motive (.modifier m)) : motive e :=
  @Expr.rec motive (fun _ => True) (fun args => ∀ e ∈ args, motive e) binary not convert member
    constant captured
    (fun method receiver args _ inner => call method receiver args inner) modifier trivial
    (fun _ _ => trivial) (fun _ h => nomatch h)
    (fun _ _ first rest _ h => (List.mem_cons.mp h).elim (fun same => same ▸ first) (rest _)) e

/-- What stands below the outer conversions. -/
def strip : Expr → Expr
  | convert e => e.strip
  | e => e

theorem strip_ne_convert (e e' : Expr) : e.strip ≠ .convert e' := by
  fun_induction strip e with
  | case1 e ih => exact ih
  | case2 e other => exact other e'

theorem strip_strip (e : Expr) : e.strip.strip = e.strip := by
  fun_induction strip e with
  | case1 e ih => exact ih
  | case2 e other =>
    unfold strip
    split
    · exact absurd rfl (other _)
    · rfl

theorem strip_of_map {receiver : Option Expr} {source : Expr}
    (stripped : receiver.map strip = some source) : source.strip = source := by
  obtain ⟨e, -, rfl⟩ := Option.map_eq_some_iff.mp stripped
  exact e.strip_strip

mutual

/-- The expression as shown in messages. -/
def text : Expr → String
  | binary op left right => "(" ++ left.text ++ " " ++ op.sql ++ " " ++ right.text ++ ")"
  | not e => "!" ++ e.text
  | convert e => e.text
  | member path => path.text
  | constant (.string s) => "\"" ++ s ++ "\""
  | constant value => value.text
  | captured name => "@" ++ name
  | call method receiver args =>
    receiverText receiver ++ method.name ++ "(" ++ String.intercalate ", " (argTexts args) ++ ")"
  | modifier m => m.text

def receiverText : Option Expr → String
  | none => ""
  | some e => e.text ++ "."

def argTexts : List Expr → List String
  | [] => []
  | e :: rest => e.text :: argTexts rest

end

mutual

/-- Equality of expressions; values are compared as values, so NaN differs from itself. -/
def same : Expr → Expr → Bool
  | binary op l r, binary op' l' r' => op == op' && same l l' && same r r'
  | not e, not e' => same e e'
  | convert e, convert e' => same e e'
  | member path, member path' => path == path'
  | constant v, constant v' => v.same v'
  | captured name, captured name' => name == name'
  | call m r args, call m' r' args' => m == m' && sameReceiver r r' && sameArgs args args'
  | modifier m, modifier m' => m == m'
  | _, _ => false

def sameReceiver : Option Expr → Option Expr → Bool
  | none, none => true
  | some e, some e' => same e e'
  | _, _ => false

def sameArgs : List Expr → List Expr → Bool
  | [], [] => true
  | e :: es, e' :: es' => same e e' && sameArgs es es'
  | _, _ => false

end

/-- A call of a method by name. -/
def callNamed (name : String) (receiver : Option Expr) (args : List Expr) : Except Error Expr :=
  match Method.ofName? name with
  | some method => .ok (call method receiver args)
  | none => .error (.unsupported (.unknownMethod name))

/-- The negation; of a negation it is the operand. -/
def negate : Expr → Expr
  | not e => e
  | e => not e

def and (left right : Expr) : Expr := binary .and left right

def or (left right : Expr) : Expr := binary .or left right

/-- The string member holds the text, or the collection holds the member. -/
def contains (receiver arg : Expr) : Expr := call .contains (some receiver) [arg]

def startsWith (receiver arg : Expr) : Expr := call .startsWith (some receiver) [arg]

def endsWith (receiver arg : Expr) : Expr := call .endsWith (some receiver) [arg]

def hasValue (receiver : Expr) : Expr := call .hasValue (some receiver) []

def isNullOrEmpty (operand : Expr) : Expr := call .isNullOrEmpty none [operand]

/-- Some row of the collection at `path` exists, one that satisfies the predicate if one is
given. -/
def any (path : MemberPath) (predicate : Option Expr) : Expr :=
  call .any (some (member path)) predicate.toList

end Expr
end PredicateSql
