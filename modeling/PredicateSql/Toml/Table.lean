import PredicateSql.Toml.Basic

/-!
Tables under construction. A document says where each key belongs, by headers and dotted keys, and
no table may be defined twice: a table that only served as a way to another one can still get a
header of its own, and one that was made by dotted keys can get more dotted keys.
-/
namespace PredicateSql.Toml

/-- What a key of an unfinished table holds. -/
inductive Node where
  | value (value : Toml)
  /-- A table. It is implicit until a header defines it, and dotted when dotted keys made it. -/
  | table (implicit dotted : Bool) (entries : List (String × Node))
  /-- A list of tables, each with a header of its own. -/
  | tables (items : List (List (String × Node)))

/-- An unfinished table. -/
structure Draft where
  implicit : Bool
  dotted : Bool
  entries : List (String × Node)

namespace Draft

def empty : Draft := ⟨false, false, []⟩

def find? (t : Draft) (key : String) : Option Node :=
  t.entries.lookup key

/-- Puts a node under a key, in the place of the node that was there if any. -/
def put (t : Draft) (key : String) (node : Node) : Draft :=
  if (t.find? key).isSome then
    { t with entries := t.entries.map fun e => if e.1 = key then (key, node) else e }
  else { t with entries := t.entries ++ [(key, node)] }

def erase (t : Draft) (key : String) : Draft :=
  { t with entries := t.entries.filter (·.1 ≠ key) }

/-- Changes the table at the end of a path. Missing tables on the way are made; of a list of tables
the last one counts. Dotted keys do not lead into a table that has a header. -/
def update (dotted : Bool) (change : Draft → Option Draft) : List String → Draft → Option Draft
  | [], t => change t
  | key :: path, t =>
    match t.find? key with
    | none => do
      let t' ← update dotted change path ⟨true, dotted, []⟩
      some (t.put key (.table t'.implicit t'.dotted t'.entries))
    | some (.table implicit wasDotted entries) =>
      if dotted && !implicit then none
      else do
        let t' ← update dotted change path ⟨implicit, wasDotted, entries⟩
        some (t.put key (.table t'.implicit t'.dotted t'.entries))
    | some (.tables items) => do
      let last ← items.getLast?
      let t' ← update dotted change path ⟨false, false, last⟩
      some (t.put key (.tables (items.dropLast ++ [t'.entries])))
    | some (.value _) => none

/-- Sets a value under a dotted key. The table it belongs to must have been made by dotted keys as
well, unless it is the one at hand. -/
def setValue (t : Draft) (path : List String) (value : Toml) : Option Draft := do
  let key ← path.getLast?
  let way := path.dropLast
  t.update true (fun owner =>
    if owner.dotted = way.isEmpty || (owner.find? key).isSome then none
    else some (owner.put key (.value value))) way

end Draft

mutual

/-- The finished form of a node. -/
def Node.finish : Node → Toml
  | .value v => v
  | .table _ _ entries => .table (finishEntries entries)
  | .tables items => .array (finishTables items)

def finishEntries : List (String × Node) → List (String × Toml)
  | [] => []
  | (key, node) :: rest => (key, node.finish) :: finishEntries rest

def finishTables : List (List (String × Node)) → List Toml
  | [] => []
  | entries :: rest => .table (finishEntries entries) :: finishTables rest

end

/-- A document under construction: the tables so far, and the table that keys go to. -/
structure Document where
  root : Draft
  current : Draft
  /-- Where the table at hand belongs; nowhere for the top of the document. -/
  path : List String
  /-- Whether the table at hand is to be added to a list of tables. -/
  isItem : Bool

namespace Document

def empty : Document := ⟨.empty, .empty, [], false⟩

/-- Adds a table to the list of tables under a key. -/
def addItem (table : Draft) (key : String) (owner : Draft) : Option Draft :=
  match owner.find? key with
  | none => some (owner.put key (.tables [table.entries]))
  | some (.tables items) => some (owner.put key (.tables (items ++ [table.entries])))
  | some _ => none

def addTable (table : Draft) (key : String) (owner : Draft) : Option Draft :=
  if (owner.find? key).isSome then none
  else some (owner.put key (.table table.implicit table.dotted table.entries))

/-- The tables with the one at hand put in its place. -/
def settle (doc : Document) : Option Draft :=
  match doc.path.getLast? with
  | none => some doc.current
  | some key =>
    let add := if doc.isItem then addItem doc.current key else addTable doc.current key
    doc.root.update false add doc.path.dropLast

/-- The table with the given name on the way of a header: it may be opened if nothing is there or if
it is implicit, and comes with the entries it already has. -/
def openTable? (root : Draft) (path : List String) : Option (Draft × Draft) := do
  let key ← path.getLast?
  let entries ← findEntries root path.dropLast
  match entries.lookup key with
  | none => some (root, .empty)
  | some (.table true false found) =>
    let root ← root.update false (fun owner => some (owner.erase key)) path.dropLast
    some (root, ⟨false, false, found⟩)
  | some _ => none
where
  /-- The entries of the table at the end of a path; none where there is no table yet. -/
  findEntries (t : Draft) : List String → Option (List (String × Node))
    | [] => some t.entries
    | key :: path =>
      match t.find? key with
      | none => some []
      | some (.table implicit dotted entries) => findEntries ⟨implicit, dotted, entries⟩ path
      | some (.tables items) => do findEntries ⟨false, false, ← items.getLast?⟩ path
      | some (.value _) => none

/-- A header of a table. -/
def header (doc : Document) (path : List String) : Option Document := do
  let root ← doc.settle
  let (root, current) ← openTable? root path
  some ⟨root, current, path, false⟩

def itemHeader (doc : Document) (path : List String) : Option Document := do
  let root ← doc.settle
  some ⟨root, .empty, path, true⟩

def setValue (doc : Document) (path : List String) (value : Toml) : Option Document := do
  some { doc with current := ← doc.current.setValue path value }

def finish (doc : Document) : Option Toml := do
  let root ← doc.settle
  some (.table (finishEntries root.entries))

end Document
end PredicateSql.Toml
