import CodeBridge.Settings.Value

/-!
# Tables of a settings file

While it is read, a settings file is a `Draft`: it remembers how each table came about, because a
table may be described by one header only, and a value that stands on one line cannot be added to.
A key that cannot be followed or set is an error at its place:

* `addUnder`   sets a value in the table that a header describes;
* `openTable`  describes a table by its header;
* `addTable`   adds one to the tables under a repeated header.
-/

namespace CodeBridge.Document

structure Key where
  name : String
  place : Place
  deriving DecidableEq, Repr

/-- How a table came about. -/
inductive Origin where
  /-- on the way to another table's header -/
  | passed
  /-- by a key with points in it -/
  | dotted
  | header
  deriving DecidableEq, Repr

inductive Draft where
  /-- finished: nothing can be added -/
  | leaf (value : Value)
  | table (place : Place) (origin : Origin) (entries : List (String × Draft))
  /-- tables under one repeated header, the last one first -/
  | tables (place : Place) (items : List (Place × List (String × Draft)))

abbrev Entries := List (String × Draft)

/-- Entries in the order of their keys. -/
def byKey (entries : List (String × Value)) : List (String × Value) :=
  entries.mergeSort fun a b => !decide (b.1 < a.1)

mutual

def Draft.toValue : Draft → Value
  | .leaf v => v
  | .table p _ entries => .map p (byKey (entriesToValue entries))
  | .tables p items => .list p (itemsToValue items).reverse

def entryToValue : String × Draft → String × Value
  | (k, d) => (k, d.toValue)

def entriesToValue : List (String × Draft) → List (String × Value)
  | [] => []
  | e :: es => entryToValue e :: entriesToValue es

def itemToValue : Place × List (String × Draft) → Value
  | (p, entries) => .map p (byKey (entriesToValue entries))

def itemsToValue : List (Place × List (String × Draft)) → List Value
  | [] => []
  | t :: ts => itemToValue t :: itemsToValue ts

end

def find? (key : String) (entries : Entries) : Option Draft :=
  (entries.find? fun e => e.1 = key).map (·.2)

/-- Set an entry, a new one at the end. -/
def put (key : String) (d : Draft) : Entries → Entries
  | [] => [(key, d)]
  | e :: es => if e.1 = key then (key, d) :: es else e :: put key d es

/-- Whether keys lead through tables as parts of a header or of a key with points. -/
inductive Way where
  | header
  | points
  deriving DecidableEq, Repr

/-- Change the table that a key names, making one if there is none.  Through a key with points,
tables that headers describe cannot be entered. -/
def within (way : Way) (key : Key) (change : Entries → Except Place Entries) (entries : Entries) :
    Except Place Entries :=
  match find? key.name entries with
  | none =>
    let origin := if way = .points then Origin.dotted else .passed
    (change []).map fun es => put key.name (.table key.place origin es) entries
  | some (.table p origin es) =>
    if way = .points && origin = .header then .error key.place
    else (change es).map fun es => put key.name (.table p origin es) entries
  | some (.tables p ((q, last) :: before)) =>
    if way = .points then .error key.place
    else (change last).map fun es => put key.name (.tables p ((q, es) :: before)) entries
  | some _ => .error key.place

/-- The same along several keys. -/
def withinAll (way : Way) (change : Entries → Except Place Entries) :
    List Key → Entries → Except Place Entries
  | [], entries => change entries
  | k :: ks, entries => within way k (withinAll way change ks) entries

/-- Do something with the last of some keys in the table that the others lead to. -/
def atLast (way : Way) (change : Key → Entries → Except Place Entries) (keys : List Key)
    (entries : Entries) : Except Place Entries :=
  match keys.getLast? with
  | none => .ok entries
  | some key => withinAll way (change key) keys.dropLast entries

/-- Set a value under its key. -/
def addValue (keys : List Key) (value : Value) (entries : Entries) : Except Place Entries :=
  atLast .points (fun key es =>
    match find? key.name es with
    | some _ => .error key.place
    | none => .ok (es ++ [(key.name, .leaf value)])) keys entries

/-- Describe a table by its header, which begins at `place`. -/
def openTable (place : Place) (keys : List Key) (entries : Entries) : Except Place Entries :=
  atLast .header (fun key es =>
    match find? key.name es with
    | none => .ok (put key.name (.table place .header []) es)
    | some (.table _ .passed inner) => .ok (put key.name (.table place .header inner) es)
    | some _ => .error key.place) keys entries

/-- Add a table under a repeated header, which begins at `place`. -/
def addTable (place : Place) (keys : List Key) (entries : Entries) : Except Place Entries :=
  atLast .header (fun key es =>
    match find? key.name es with
    | none => .ok (put key.name (.tables place [(place, [])]) es)
    | some (.tables p items) => .ok (put key.name (.tables p ((place, []) :: items)) es)
    | some _ => .error key.place) keys entries

/-- Set a value in the table that the last header described. -/
def addUnder (header keys : List Key) (value : Value) (entries : Entries) : Except Place Entries :=
  withinAll .header (addValue keys value) header entries

end CodeBridge.Document
