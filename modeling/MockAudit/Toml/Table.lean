import MockAudit.Json.Value

/-!
# TOML tables

A table comes into being by a header, by a dotted key or because a header names something inside it, and that decides
what may still be added to it.
-/

namespace MockAudit.Toml

inductive Item where
  | value (json : Json)
  /-- A table; `implicit` unless it has a header of its own, `dotted` if a dotted key made it. -/
  | table (implicit dotted : Bool) (entries : List (String × Item))
  | tables (members : List (List (String × Item)))

structure Level where
  implicit : Bool
  dotted : Bool
  entries : List (String × Item)

def Level.empty : Level := ⟨false, false, []⟩

def find? (key : String) (entries : List (String × Item)) : Option Item :=
  (entries.find? (·.1 == key)).map (·.2)

def put (key : String) (item : Item) : List (String × Item) → List (String × Item)
  | [] => [(key, item)]
  | (k, old) :: rest => if k = key then (k, item) :: rest else (k, old) :: put key item rest

/-- Change the table at the end of a path, making tables on the way. Dotted keys pass only through tables
without headers; in an array of tables, the last one is meant. -/
def descend (byDots : Bool) (change : Level → Option Level) : List String → Level → Option Level
  | [], level => change level
  | key :: path, level =>
      match find? key level.entries with
      | none =>
          (descend byDots change path ⟨true, byDots, []⟩).map fun child =>
            { level with
              entries := put key (.table child.implicit child.dotted child.entries) level.entries }
      | some (.value _) => none
      | some (.tables members) =>
          match members.getLast? with
          | none => none
          | some last =>
              (descend byDots change path ⟨false, false, last⟩).map fun child =>
                { level with
                  entries := put key (.tables (members.dropLast ++ [child.entries])) level.entries }
      | some (.table implicit dotted entries) =>
          if byDots && !implicit then none
          else
            (descend byDots change path ⟨implicit, dotted, entries⟩).map fun child =>
              { level with
                entries := put key (.table child.implicit child.dotted child.entries) level.entries }

def setKey (path : List String) (key : String) (json : Json) (level : Level) : Option Level :=
  descend true
    (fun target =>
      if target.dotted == path.isEmpty then none
      else if (find? key target.entries).isSome then none
      else some { target with entries := put key (.value json) target.entries })
    path level

/-- Open the table of a header. It must be new, or known only because of what it contains. -/
def openTable (path : List String) (key : String) (root : Level) : Option Level :=
  descend false
    (fun parent =>
      match find? key parent.entries with
      | none => some { parent with entries := put key (.table false false []) parent.entries }
      | some (.table true false entries) =>
          some { parent with entries := put key (.table false false entries) parent.entries }
      | some _ => none)
    path root

def openElement (path : List String) (key : String) (root : Level) : Option Level :=
  descend false
    (fun parent =>
      match find? key parent.entries with
      | none => some { parent with entries := put key (.tables [[]]) parent.entries }
      | some (.tables members) =>
          some { parent with entries := put key (.tables (members ++ [[]])) parent.entries }
      | some _ => none)
    path root

mutual

def Item.toJson : Item → Json
  | .value json => json
  | .table _ _ entries => .object (entriesJson entries)
  | .tables members => .array (membersJson members)

def entriesJson : List (String × Item) → List (String × Json)
  | [] => []
  | (key, item) :: rest => (key, item.toJson) :: entriesJson rest

def membersJson : List (List (String × Item)) → List Json
  | [] => []
  | entries :: rest => .object (entriesJson entries) :: membersJson rest

end

def Level.toJson (level : Level) : Json := .object (entriesJson level.entries)

end MockAudit.Toml
