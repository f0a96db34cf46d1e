import PredicateSql.Proofs.Compilation.Calls
import PredicateSql.Proofs.Quoting.Aliases
import PredicateSql.Proofs.Quoting.Closing
import PredicateSql.Proofs.Quoting.Holes

/-!
Captured strings stay inside their literals. Whatever they are, the same calls are accepted with the
same joins, and the text of a condition differs inside the literals only. There is one literal for
every string that is used, and each of them is read back as the string that it was made of.
-/
namespace PredicateSql

open Lowering

variable {n : Nat}

structure CompilerInput.PlainNames (input : CompilerInput n) : Prop where
  schema : input.schema.PlainNames
  aliases : ∀ i, Unquoted (input.aliases i)

/-- Random aliases have no quote in them. -/
theorem plainNames_seeded {schema : Schema n} (names : schema.PlainNames) (root : Fin n)
    (d : Dialect) (seed : UInt64) (settings : Option Settings) (tag : String) :
    CompilerInput.PlainNames ⟨schema, root, d, .seeded seed, settings, tag⟩ := by
  -- The supply is kept general, so that no alias is drawn.
  have general : ∀ aliases : AliasSupply, (∀ i, Unquoted (aliases i)) →
      CompilerInput.PlainNames ⟨schema, root, d, aliases, settings, tag⟩ :=
    fun _ plain => ⟨names, plain⟩
  exact general _ (AliasSupply.unquoted_seeded seed)

namespace Compiler

theorem plainNames_context {c : Compiler n} (names : c.input.PlainNames) (bindings : Bindings) :
    (c.context bindings).PlainNames :=
  ⟨names.schema, names.aliases⟩

theorem unquoted_origin {c : Compiler n} (names : c.input.PlainNames) :
    Unquoted c.origin.qualifier :=
  Dialect.lacks_tableName isMark_quote _ (names.schema.tables _)

/-- No call adds a join with a quote in it. -/
theorem add_plain {c : Compiler n} (names : c.input.PlainNames)
    (plain : c.progress.IsPlain c.input.dialect) (bindings : Bindings) (e : Expr) :
    (c.add bindings e).2.progress.IsPlain c.input.dialect := by
  have context := fun bindings => plainNames_context names bindings
  have origin := unquoted_origin names
  rcases c.add_outcome bindings e with ⟨_, _, rejected, ⟨⟨t, rfl⟩, -, -⟩⟩ | ⟨d, accepted, accepts⟩
  · rw [rejected]
    exact plain
  · rw [accepted]
    cases accepts with
    | condition _ derived => exact (derived.closed (context _) plain origin).1
    | ordered _ _ resolved => exact (resolveColumn_unquoted (context _) plain origin resolved).1
    | ignored => exact plain
    | skip => exact plain
    | take => exact plain

theorem after_plain {c : Compiler n} (names : c.input.PlainNames)
    (plain : c.progress.IsPlain c.input.dialect) (calls : List Call) :
    (c.after calls).progress.IsPlain c.input.dialect := by
  induction calls generalizing c with
  | nil => exact plain
  | cons call rest ih =>
    have kept := c.add_input call.bindings call.expr
    have next := add_plain names plain call.bindings call.expr
    rw [← kept] at names next ⊢
    exact ih names next

end Compiler

namespace Piece

/-- A literal begins outside all others, and it is read back as the string that it was made of, with
its wildcards, up to where it was written to end. -/
structure Lexes (d : Dialect) (b : Bindings) (before : List Piece) (h : Hole)
    (after : List Piece) : Prop where
  outside : QuotesClosed (fillAll d b before)
  literal : ∃ text, h.string? b = some text ∧
    lexLiteral (fillAll d b (hole h :: after)).toList =
      some ((h.wildcard.apply text).toList, (fillAll d b after).toList)

/-- What makes every literal of a text stay inside its quotes. -/
structure Sound (pieces : List Piece) : Prop where
  closed : Closed pieces
  separated : Separated pieces

theorem Sound.lexes {pieces before after : List Piece} {h : Hole} (sound : Sound pieces)
    (d : Dialect) {b : Bindings} (bound : Bound b pieces)
    (split : pieces = before ++ .hole h :: after) : Lexes d b before h after := by
  constructor
  · exact Closed.fillAll fun text member => sound.closed text (by simp [split, member])
  · obtain ⟨text, found⟩ := bound h (by simp [split])
    refine ⟨text, found, ?_⟩
    have ends : Terminates (fillAll d b after).toList := sound.separated.terminates split
    rw [fillAll_cons, String.toList_append, fill, Hole.text, found, Option.getD_some]
    exact lexLiteral_stringLiteral d _ ends

theorem Sound.settle {pieces : List Piece} (sound : Sound pieces) {d : Dialect} {b : Bindings}
    {keep : String → Bool} : Sound (pieces.map (settle d b keep)) :=
  ⟨sound.closed.settle, sound.separated.settle⟩

/-- The pieces of a text in parentheses, unless it is in parentheses already. -/
theorem Sound.parenthesize {pieces : List Piece} (sound : Sound pieces) (d : Dialect) :
    ∃ pieces', Sound pieces' ∧ holes pieces' = holes pieces ∧
      ∀ b, (Bound b pieces → Bound b pieces') ∧
        PredicateSql.parenthesize (fillAll d b pieces) = fillAll d b pieces' := by
  have same := fun b => isParenthesized_fillAll d b .empty sound.closed
  cases whole : isParenthesized (fillAll d .empty pieces) with
  | true =>
    refine ⟨pieces, sound, rfl, fun b => ⟨id, ?_⟩⟩
    rw [PredicateSql.parenthesize, same b, whole, if_pos rfl]
  | false =>
    refine ⟨enclosed pieces, ⟨?_, ?_⟩, by simp [enclosed], fun b => ⟨fun bound => ?_, ?_⟩⟩
    · have start : QuotesClosed "(" := rfl
      have finish : QuotesClosed ")" := rfl
      exact ((closed_sql start).append sound.closed).append (closed_sql finish)
    · exact .sql (sound.separated.append (.sql .nil))
    · exact ((Bound.sql _).append bound).append (.sql _)
    · rw [PredicateSql.parenthesize, same b, whole, if_neg Bool.false_ne_true, fillAll_enclosed]

end Piece

theorem Bindings.Confined.symm {b b' : Bindings} {uses : List (String × Column)}
    (confined : b.Confined b' uses) : b'.Confined b uses :=
  fun name column used varies => confined name column used varies.symm

/-- Names that vary are only used with columns that take literals as they are. -/
theorem Bindings.Confined.get?_eq {b b' : Bindings} {uses : List (String × Column)}
    (confined : b.Confined b' uses) {name : String}
    (other : isVerbatimThroughout uses name ≠ true) :
    b'.get? name = b.get? name := by
  by_contra varies
  exact other (isVerbatimThroughout_iff.mpr fun column used => confined name column used varies)

/-- An accepted predicate is a text with holes: one for all bindings that differ only in strings
which columns take as they are. -/
theorem Compiler.add_strings {c : Compiler n} (names : c.input.PlainNames)
    (plain : c.progress.IsPlain c.input.dialect) {b : Bindings} {e : Expr} {k : Condition n}
    {t : Progress} (predicate : ∀ m, e ≠ .modifier m)
    (derived : Lowers (c.context b) c.origin e c.progress k t) :
    let uses := e.uses c.input.schema c.input.root
    ∃ pieces : List Piece,
      Piece.holes pieces = (e.holes b).filter (isVerbatimThroughout uses ·.name) ∧
      ∀ b', b.Alike b' → b.Confined b' uses →
        ∃ k', c.add b' e = (.ok (), c.extend t k') ∧
          parenthesize (k'.sql c.input.schema c.input.dialect) =
            Piece.fillAll c.input.dialect b' pieces ∧
          ∀ before h after, pieces = before ++ .hole h :: after →
            Piece.Lexes c.input.dialect b' before h after := by
  intro uses
  obtain ⟨-, closed⟩ := derived.closed (plainNames_context names b) plain (unquoted_origin names)
  obtain ⟨whole, sound, holes, parenthesized⟩ :=
    Piece.Sound.parenthesize ⟨closed, derived.separated⟩ c.input.dialect
  refine ⟨whole.map (Piece.settle c.input.dialect b (isVerbatimThroughout uses)), ?_,
    fun b' alike confined => ?_⟩
  · rw [Piece.holes_settle, holes]
    exact derived.holes fun name column used free => isVerbatimThroughout_iff.mp free column used
  · obtain ⟨k', derived', pieces⟩ := derived.rebind (b := b') alike confined
    have text : Piece.fillAll c.input.dialect b' (k'.pieces c.input.schema c.input.dialect) =
        k'.sql c.input.schema c.input.dialect := Condition.fillAll_pieces _ derived'.faithful
    have bound : Piece.Bound b' (k'.pieces c.input.schema c.input.dialect) :=
      Condition.bound_pieces _ derived'.faithful
    obtain ⟨filled, whole'⟩ := parenthesized b'
    rw [← pieces] at filled whole'
    refine ⟨k', add_of_lowers predicate derived', ?_, fun before h after split => ?_⟩
    · rw [Piece.fillAll_settle (fun _ other => confined.get?_eq other), ← text]
      exact whole'
    · exact sound.settle.lexes _ (filled bound).settle split

/-- Bindings that differ only in strings which columns take as they are lead to the same outcome and
the same joins. The texts of the condition are one text with holes, each filled with its own
strings. There is a hole for every such string that is captured in the expression, in this order,
and the string can be read back from it. -/
theorem strings_stay_in_their_literals {input : CompilerInput n} (names : input.PlainNames)
    (registry : Registry) (calls : List Call) (b : Bindings) {e : Expr}
    (predicate : ∀ m, e ≠ .modifier m) :
    let c := (Compiler.start input registry).after calls
    let uses := e.uses input.schema input.root
    ∃ pieces : List Piece,
      ((c.add b e).1.toBool = true →
        Piece.holes pieces = (e.holes b).filter (isVerbatimThroughout uses ·.name)) ∧
      ∀ b', b.Alike b' → b.Confined b' uses →
        (c.add b' e).1.toBool = (c.add b e).1.toBool ∧
        (c.add b' e).2.joins = (c.add b e).2.joins ∧
        ((c.add b e).1.toBool = true →
          (c.add b' e).2.fragments = c.fragments ++ [Piece.fillAll input.dialect b' pieces] ∧
          ∀ before h after, pieces = before ++ .hole h :: after →
            Piece.Lexes input.dialect b' before h after) := by
  intro c
  have kept : c.input = input := Compiler.after_input _ calls
  have plain : c.progress.IsPlain c.input.dialect := by
    rw [kept]
    exact Compiler.after_plain (c := .start input registry) names nofun calls
  rw [← kept] at names ⊢
  intro uses
  rcases c.add_cases b predicate with
    ⟨err, _, rejected, ⟨⟨t, rfl⟩, -, -⟩⟩ | ⟨k, t, derived, accepted⟩
  · rw [rejected]
    refine ⟨[], nofun, fun b' alike confined => ?_⟩
    rcases c.add_cases b' predicate with
      ⟨err', _, rejected', ⟨⟨t', rfl⟩, -, -⟩⟩ | ⟨k', t', derived', -⟩
    · rw [rejected']
      exact ⟨rfl, rfl, nofun⟩
    · obtain ⟨k, derived, -⟩ := derived'.rebind (b := b) alike.symm confined.symm
      have accepted : c.add b _ = _ := Compiler.add_of_lowers predicate derived
      rw [rejected] at accepted
      cases accepted
  · obtain ⟨pieces, holes, others⟩ := Compiler.add_strings names plain predicate derived
    refine ⟨pieces, fun _ => holes, fun b' alike confined => ?_⟩
    obtain ⟨k', accepted', text, lexes⟩ := others b' alike confined
    rw [accepted, accepted']
    exact ⟨rfl, rfl, fun _ => ⟨congrArg (fun sql => c.fragments ++ [sql]) text, lexes⟩⟩

namespace Bookshelf

def input : CompilerInput 2 :=
  { books.input with dialect := .sqlite, aliases := .seeded 1 }

def titled : Expr :=
  .and (.contains title (.captured "part")) (.not (.contains (.captured "titles") title))

def tame : Bindings :=
  ⟨[("part", .string "ring"), ("titles", .list [.string "Emma", .null])]⟩

def wild : Bindings :=
  ⟨[("part", .string "') OR ('' = '"), ("titles", .list [.string "'", .null])]⟩

theorem input_plain : input.PlainNames :=
  plainNames_seeded ⟨by decide, by decide⟩ 0 .sqlite 1 none ""

theorem alike : tame.Alike wild := by
  intro name
  by_cases part : name = "part"
  · rw [part]
    rfl
  · by_cases titles : name = "titles"
    · rw [titles]
      rfl
    · have other : (name == "part") = false ∧ (name == "titles") = false := by simp [part, titles]
      simp [tame, wild, Bindings.get?, List.lookup_cons, other]

end Bookshelf

theorem wild_titles_stay_in_their_literals :
    Bookshelf.input.PlainNames ∧ Bookshelf.tame.Alike Bookshelf.wild ∧
      Bookshelf.tame.Confined Bookshelf.wild (Bookshelf.titled.uses Bookshelf.schema 0) ∧
      ∃ pieces : List Piece,
        Piece.holes pieces = [⟨"part", [], .both⟩, ⟨"titles", [0], .none⟩] ∧
        ((Compiler.start Bookshelf.input .empty).add Bookshelf.wild Bookshelf.titled).2.fragments =
          [Piece.fillAll .sqlite Bookshelf.wild pieces] ∧
        Piece.fillAll .sqlite Bookshelf.wild pieces =
          "((Books.[Title] LIKE '%'') OR ('''' = ''%') AND NOT (Books.[Title] IN ('''',NULL)))" ∧
        ∀ before h after, pieces = before ++ .hole h :: after →
          Piece.Lexes .sqlite Bookshelf.wild before h after := by
  have confined : Bookshelf.tame.Confined Bookshelf.wild
      (Bookshelf.titled.uses Bookshelf.schema 0) := by
    have all : ∀ use ∈ Bookshelf.titled.uses Bookshelf.schema 0, use.2.isVerbatim = true := by
      decide +kernel
    exact fun name column used _ => all (name, column) used
  have accepted : ((Compiler.start Bookshelf.input .empty).add Bookshelf.tame
      Bookshelf.titled).1.toBool = true := by
    decide +kernel
  have written : ((Compiler.start Bookshelf.input .empty).add Bookshelf.wild
      Bookshelf.titled).2.fragments =
      ["((Books.[Title] LIKE '%'') OR ('''' = ''%') AND NOT (Books.[Title] IN ('''',NULL)))"] := by
    decide +kernel
  obtain ⟨pieces, holes, others⟩ := strings_stay_in_their_literals Bookshelf.input_plain .empty []
    Bookshelf.tame (e := Bookshelf.titled) nofun
  simp only [Compiler.after] at holes others
  obtain ⟨-, -, texts⟩ := others Bookshelf.wild Bookshelf.alike confined
  obtain ⟨fragments, lexes⟩ := texts accepted
  have text := List.cons.inj (fragments.symm.trans written)
  exact ⟨Bookshelf.input_plain, Bookshelf.alike, confined, pieces,
    (holes accepted).trans (by decide +kernel), fragments, text.1, lexes⟩

end PredicateSql
