import PredicateSql.Expr.Bindings
import PredicateSql.Proofs.Parallel.Pieces

/-!
The names of an expression, and expressions that mean the same with bindings of their own: a name
stands for the same value in both, or in place of it stands the constant that it is bound to.
-/
namespace PredicateSql

namespace Expr

/-- Induction over expressions that reaches the receivers of calls as well as their arguments. -/
@[elab_as_elim]
theorem inductionThrough {motive : Expr → Prop} (e : Expr)
    (binary : ∀ op left right, motive left → motive right → motive (.binary op left right))
    (not : ∀ e, motive e → motive (.not e)) (convert : ∀ e, motive e → motive (.convert e))
    (member : ∀ path, motive (.member path)) (constant : ∀ value, motive (.constant value))
    (captured : ∀ name, motive (.captured name))
    (call : ∀ method receiver args, (∀ e ∈ receiver, motive e) → (∀ e ∈ args, motive e) →
      motive (.call method receiver args))
    (modifier : ∀ m, motive (.modifier m)) : motive e :=
  @Expr.rec motive (fun receiver => ∀ e ∈ receiver, motive e) (fun args => ∀ e ∈ args, motive e)
    binary not convert member constant captured call modifier
    (fun _ h => nomatch h) (fun _ inner _ h => Option.some.inj h ▸ inner) (fun _ h => nomatch h)
    (fun _ _ first rest _ h => (List.mem_cons.mp h).elim (fun same => same ▸ first) (rest _)) e

mutual

/-- The names of captured values, wherever they occur. -/
def capturedNames : Expr → List String
  | binary _ left right => left.capturedNames ++ right.capturedNames
  | not e => e.capturedNames
  | convert e => e.capturedNames
  | captured name => [name]
  | call _ receiver args => receiverNames receiver ++ argNames args
  | member _ | constant _ | modifier _ => []

def receiverNames : Option Expr → List String
  | none => []
  | some e => e.capturedNames

def argNames : List Expr → List String
  | [] => []
  | e :: rest => e.capturedNames ++ argNames rest

end

mutual

/-- The expression with constants in place of the names that are bound. -/
def inlined (b : Bindings) : Expr → Expr
  | binary op left right => binary op (left.inlined b) (right.inlined b)
  | not e => not (e.inlined b)
  | convert e => convert (e.inlined b)
  | captured name =>
    match b.get? name with
    | some value => constant value
    | none => captured name
  | call method receiver args => call method (inlinedReceiver b receiver) (inlinedArgs b args)
  | member path => member path
  | constant value => constant value
  | modifier m => modifier m

def inlinedReceiver (b : Bindings) : Option Expr → Option Expr
  | none => none
  | some e => some (e.inlined b)

def inlinedArgs (b : Bindings) : List Expr → List Expr
  | [] => []
  | e :: rest => e.inlined b :: inlinedArgs b rest

end

theorem mem_receiverNames {receiver : Option Expr} {name : String} :
    name ∈ receiverNames receiver ↔ ∃ e ∈ receiver, name ∈ e.capturedNames := by
  cases receiver with
  | none => simp [receiverNames]
  | some e => simp [receiverNames]

theorem mem_argNames {args : List Expr} {name : String} :
    name ∈ argNames args ↔ ∃ e ∈ args, name ∈ e.capturedNames := by
  induction args with
  | nil => simp [argNames]
  | cons e rest ih => simp [argNames, ih]

theorem mem_capturedNames_call {method : Method} {receiver : Option Expr} {args : List Expr}
    {name : String} :
    name ∈ (call method receiver args).capturedNames ↔
      (∃ e ∈ receiver, name ∈ e.capturedNames) ∨ ∃ e ∈ args, name ∈ e.capturedNames := by
  rw [capturedNames, List.mem_append, mem_receiverNames, mem_argNames]

theorem inlinedReceiver_eq_map (b : Bindings) (receiver : Option Expr) :
    inlinedReceiver b receiver = receiver.map (inlined b) := by
  cases receiver <;> rfl

theorem inlinedArgs_eq_map (b : Bindings) (args : List Expr) :
    inlinedArgs b args = args.map (inlined b) := by
  induction args with
  | nil => rfl
  | cons e rest ih => rw [inlinedArgs, ih, List.map_cons]

/-- Conversions hide no names. -/
theorem capturedNames_strip (e : Expr) : e.strip.capturedNames = e.capturedNames := by
  fun_induction strip e with
  | case1 e ih => exact ih
  | case2 => rfl

end Expr

variable (shared : Shared) (b b' : Bindings)

/-- The expressions stand for the same values, one with the bindings `b` and the other with `b'`.
They are the same if they are shown in the same words. -/
inductive Expr.Alike : Expr → Expr → Prop
  | binary {op left left' right right'} (first : Alike left left') (second : Alike right right') :
      Alike (.binary op left right) (.binary op left' right')
  | not {e e'} (inner : Alike e e') : Alike (.not e) (.not e')
  | convert {e e'} (inner : Alike e e') : Alike (.convert e) (.convert e')
  | member (path) : Alike (.member path) (.member path)
  | constant (value) : Alike (.constant value) (.constant value)
  | captured {name} (same : b'.get? name = b.get? name) : Alike (.captured name) (.captured name)
  | inlined {name value} (reworded : ¬ shared.words) (bound : b.get? name = some value) :
      Alike (.captured name) (.constant value)
  | call {method receiver receiver' args args'} (receivers : Option.Rel Alike receiver receiver')
      (operands : List.Forall₂ Alike args args') :
      Alike (.call method receiver args) (.call method receiver' args')
  | modifier (m) : Alike (.modifier m) (.modifier m)

variable {shared b b'}

namespace Expr

/-- An expression stands for the same values with bindings that agree on its names. -/
theorem alike_of_agree {e : Expr} (agree : ∀ name ∈ e.capturedNames, b'.get? name = b.get? name) :
    e.Alike shared b b' e := by
  induction e using inductionThrough with
  | binary op left right first second =>
    exact .binary (first fun name held => agree name (List.mem_append_left _ held))
      (second fun name held => agree name (List.mem_append_right _ held))
  | not e inner => exact .not (inner agree)
  | convert e inner => exact .convert (inner agree)
  | member path => exact .member path
  | constant value => exact .constant value
  | captured name => exact .captured (agree name List.mem_cons_self)
  | call method receiver args receivers operands =>
    refine .call ?_ (List.forall₂_same.mpr fun e held => operands e held fun name occurs => ?_)
    · cases receiver with
      | none => exact .none
      | some e =>
        refine .some (receivers e rfl fun name occurs => ?_)
        exact agree name (mem_capturedNames_call.mpr (.inl ⟨e, rfl, occurs⟩))
    · exact agree name (mem_capturedNames_call.mpr (.inr ⟨e, held, occurs⟩))
  | modifier m => exact .modifier m

/-- Constants stand for what the names were bound to, whatever is bound now. -/
theorem alike_inlined (reworded : ¬ shared.words) {e : Expr}
    (bound : ∀ name ∈ e.capturedNames, ∃ value, b.get? name = some value) :
    e.Alike shared b b' (e.inlined b) := by
  induction e using inductionThrough with
  | binary op left right first second =>
    exact .binary (first fun name held => bound name (List.mem_append_left _ held))
      (second fun name held => bound name (List.mem_append_right _ held))
  | not e inner => exact .not (inner bound)
  | convert e inner => exact .convert (inner bound)
  | member path => exact .member path
  | constant value => exact .constant value
  | captured name =>
    obtain ⟨value, found⟩ := bound name List.mem_cons_self
    simp only [inlined, found]
    exact .inlined reworded found
  | call method receiver args receivers operands =>
    rw [inlined, inlinedReceiver_eq_map, inlinedArgs_eq_map]
    refine .call ?_ ?_
    · cases receiver with
      | none => exact .none
      | some e =>
        refine .some (receivers e rfl fun name occurs => ?_)
        exact bound name (mem_capturedNames_call.mpr (.inl ⟨e, rfl, occurs⟩))
    · refine List.forall₂_map_right_iff.mpr (List.forall₂_same.mpr fun e held => ?_)
      refine operands e held fun name occurs => ?_
      exact bound name (mem_capturedNames_call.mpr (.inr ⟨e, held, occurs⟩))
  | modifier m => exact .modifier m

namespace Alike

variable {e e' : Expr} {receiver receiver' : Option Expr}

theorem eq (h : e.Alike shared b b' e') (words : shared.words) : e' = e := by
  induction e using inductionThrough generalizing e' with
  | binary op left right first second =>
    cases h with
    | binary h₁ h₂ => rw [first h₁, second h₂]
  | not e inner =>
    cases h with
    | not h => rw [inner h]
  | convert e inner =>
    cases h with
    | convert h => rw [inner h]
  | captured name =>
    cases h with
    | captured => rfl
    | inlined reworded => exact absurd words reworded
  | call method receiver args receivers operands =>
    cases h with
    | @call _ _ receiver' _ args' h₁ h₂ =>
      have same : receiver' = receiver := by
        cases h₁ with
        | none => rfl
        | some h => rw [receivers _ rfl h]
      have same' : args' = args := by
        clear h₁ same
        induction h₂ with
        | nil => rfl
        | cons first _ ih =>
          rw [operands _ List.mem_cons_self first,
            ih fun e held => operands e (List.mem_cons_of_mem _ held)]
      rw [same, same']
  | _ => cases h; rfl

theorem text (h : e.Alike shared b b' e') (words : shared.words) : e'.text = e.text := by
  rw [h.eq words]

theorem strip (h : e.Alike shared b b' e') : e.strip.Alike shared b b' e'.strip := by
  fun_induction Expr.strip e generalizing e' with
  | case1 e ih =>
    cases h with
    | convert inner =>
      have stripped := ih inner
      exact stripped
  | case2 e other =>
    cases h with
    | convert => exact absurd rfl (other _)
    | binary first second => exact .binary first second
    | not inner => exact .not inner
    | member path => exact .member path
    | constant value => exact .constant value
    | captured same => exact .captured same
    | inlined reworded bound => exact .inlined reworded bound
    | call receivers operands => exact .call receivers operands
    | modifier m => exact .modifier m

theorem map_strip (h : Option.Rel (Expr.Alike shared b b') receiver receiver') :
    Option.Rel (Expr.Alike shared b b') (receiver.map Expr.strip) (receiver'.map Expr.strip) := by
  cases h with
  | none => exact .none
  | some h => exact .some h.strip

end Alike
end Expr
end PredicateSql
