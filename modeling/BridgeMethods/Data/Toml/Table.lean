import BridgeMethods.Data.Basic

/-!
# Tables under construction

A TOML text defines its tables bit by bit.  A header names a table, or one more table of an array
of tables; a key with dots names a table within the current one.  Each table may be defined once:
what matters for that is how it has come into being, its `Origin`.  Values in brackets or braces
are closed, nothing can be added to them.
-/

namespace BridgeMethods.Data.Toml

/-- How a table has come into being. -/
inductive Origin where
  /-- By a header of its own. -/
  | header
  /-- As a table around one that a header names. -/
  | around
  /-- By a key with dots. -/
  | dotted
  deriving DecidableEq, Repr

/-- A value of a table that is still being defined. -/
inductive Node where
  /-- A scalar, or a value in brackets or braces. -/
  | closed (value : Data)
  | table (origin : Origin) (members : List (String × Node))
  /-- An array of tables: the current one and those before it, latest first. -/
  | tables (current : List (String × Node)) (earlier : List (List (String × Node)))
  deriving Inhabited

/-- The members of a table in the order of their definition. -/
abbrev Members := List (String × Node)

namespace Members

/-- The value of a key. -/
def find? (members : Members) (key : String) : Option Node := members.lookup key

/-- The members with a new value for a key, which is put last if it is new. -/
def set (members : Members) (key : String) (node : Node) : Members :=
  if members.any (·.1 = key) then
    members.map fun member => if member.1 = key then (key, node) else member
  else members ++ [(key, node)]

/-- Changes the table that a header has named: on the way to it an array of tables stands for its
current table, and tables that do not exist come into being around it. -/
def modifyAt (change : Members → Option Members) : List String → Members → Option Members
  | [], members => change members
  | key :: path, members => do
      match members.find? key with
      | none => return members.set key (.table .around (← modifyAt change path []))
      | some (.table origin inner) =>
          return members.set key (.table origin (← modifyAt change path inner))
      | some (.tables current earlier) =>
          return members.set key (.tables (← modifyAt change path current) earlier)
      | some (.closed _) => none

/-- Defines the table of a key by a header.  It must not exist, except around other tables. -/
def openTable (key : String) (members : Members) : Option Members :=
  match members.find? key with
  | none => some (members.set key (.table .header []))
  | some (.table .around inner) => some (members.set key (.table .header inner))
  | some _ => none

/-- Adds a table to the array of tables of a key. -/
def openTables (key : String) (members : Members) : Option Members :=
  match members.find? key with
  | none => some (members.set key (.tables [] []))
  | some (.tables current earlier) => some (members.set key (.tables [] (current :: earlier)))
  | some _ => none

/-- Gives a key with dots a value.  The tables on the way may not have a header of their own, and
the last one must have come into being by a key with dots; `origin` is that of the given table, or
nothing where the key begins. -/
def insert (value : Data) (origin : Option Origin) : List String → Members → Option Members
  | [], _ => none
  | [key], members =>
      if (origin = none || origin = some .dotted) && (members.find? key).isNone then
        some (members.set key (.closed value))
      else none
  | key :: path, members => do
      match members.find? key with
      | none => return members.set key (.table .dotted (← insert value (some .dotted) path []))
      | some (.table .header _) => none
      | some (.table origin inner) =>
          return members.set key (.table origin (← insert value (some origin) path inner))
      | some (.tables current earlier) =>
          return members.set key (.tables (← insert value (some .header) path current) earlier)
      | some (.closed _) => none

end Members

mutual

/-- The tree of a value. -/
def Node.toData : Node → Data
  | .closed value => value
  | .table _ members => .table (membersToData members)
  | .tables current earlier =>
      .list (tablesToData earlier ++ [.table (membersToData current)])

/-- The trees of members. -/
def membersToData : List (String × Node) → List (Option String × Data)
  | [] => []
  | (key, node) :: rest => (some key, node.toData) :: membersToData rest

/-- The trees of the tables of an array, which are given from the latest on. -/
def tablesToData : List (List (String × Node)) → List Data
  | [] => []
  | members :: rest => tablesToData rest ++ [.table (membersToData members)]

end

end BridgeMethods.Data.Toml
