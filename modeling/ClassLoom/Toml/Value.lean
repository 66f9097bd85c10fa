/-!
# TOML documents

A document is a table: keys with values, some of which are tables or arrays
again. This module has the values and the rules by which a document is put
together from its sections. A section is a header, which names a table or a new
element of an array of tables, and the settings below it.

A table may be defined once only. What counts as a definition depends on how the
table came about, so each table remembers its `Origin`: a header may define a
table that so far was only on the way to others, and dotted keys may add to tables
that dotted keys have made, but nothing may add to a table that was written out as
a value.
-/

namespace ClassLoom.Toml

/-- How a table came about. -/
inductive Origin where
  /-- It was written out as a value. -/
  | inline
  /-- A header names it. -/
  | header
  /-- It is on the way to a table that a header names. -/
  | implied
  /-- It is on the way to a setting with a dotted key. -/
  | dotted
  deriving DecidableEq, Repr

/-- A value. -/
inductive Value where
  | text (value : String)
  | integer (value : Int)
  | boolean (value : Bool)
  /-- A number that is no integer; which one is not kept. -/
  | float
  /-- A date, a time or both; which one is not kept. -/
  | moment
  | array (items : List Value)
  | table (origin : Origin) (entries : List (String × Value))
  /-- An array of tables that headers name. -/
  | tables (elements : List (List (String × Value)))

/-- Keys with their values, in the order of their appearance. -/
abbrev Table := List (String × Value)

namespace Table

/-- The value of a key. -/
def get? (t : Table) (key : String) : Option Value :=
  t.lookup key

/-- Replaces the value of a key by what `change` makes of it, or adds the key at
the end. None if `change` refuses. -/
def update (key : String) (change : Option Value → Option Value) : Table → Option Table
  | [] => (change none).map fun value => [(key, value)]
  | (k, old) :: entries =>
    if k = key then
      (change (some old)).map fun value => (key, value) :: entries
    else
      (update key change entries).map ((k, old) :: ·)

/-- Replaces the last table of an array. None if `change` refuses or there is no
table. -/
def updateLast (change : Table → Option Table) : List Table → Option (List Table)
  | [] => none
  | [t] => (change t).map fun new => [new]
  | t :: ts => (updateLast change ts).map (t :: ·)

/-- Adds a value under a new key. -/
def addNew (key : String) (value : Value) : Table → Option Table :=
  update key fun
    | none => some value
    | some _ => none

/-- Adds a setting: `path` leads to the table, `key` is new in it. The tables on
the way are made if they are missing. They must not have been defined by a header
or as a value, and the last of them must have been made by dotted keys. -/
def addSetting (key : String) (value : Value) : List String → Table → Option Table
  | [], t => addNew key value t
  | step :: path, t =>
    t.update step fun
      | none => (addSetting key value path []).map (.table .dotted)
      | some (.table .dotted inner) => (addSetting key value path inner).map (.table .dotted)
      | some (.table .implied inner) =>
        if path = [] then none else (addSetting key value path inner).map (.table .implied)
      | some (.tables elements) =>
        if path = [] then none else (updateLast (addSetting key value path) elements).map .tables
      | some _ => none

/-- Goes to the table that contains what a header names, and changes the value
there. Tables on the way are made if they are missing; in an array of tables the
way leads through the last one. -/
def atHeader (key : String) (change : Option Value → Option Value) :
    List String → Table → Option Table
  | [], t => t.update key change
  | step :: path, t =>
    t.update step fun
      | none => (atHeader key change path []).map (.table .implied)
      | some (.table .inline _) => none
      | some (.table origin inner) => (atHeader key change path inner).map (.table origin)
      | some (.tables elements) => (updateLast (atHeader key change path) elements).map .tables
      | some _ => none

end Table

/-- A setting: its key, split at the dots, and its value. -/
structure Setting where
  /-- All parts of the key but the last. -/
  path : List String
  /-- The last part of the key. -/
  key : String
  value : Value

/-- What a header names. -/
inductive Header where
  /-- A table. -/
  | table (path : List String) (key : String)
  /-- A new element of an array of tables. -/
  | element (path : List String) (key : String)
  deriving DecidableEq, Repr

/-- A header with the settings below it. -/
structure Section where
  header : Header
  settings : List Setting

namespace Table

/-- Adds settings, in order. -/
def addSettings (settings : List Setting) (t : Table) : Option Table :=
  settings.foldlM (fun t s => t.addSetting s.key s.value s.path) t

/-- The table that a header and settings make of what is there already. -/
def define (settings : List Setting) : Option Value → Option Value
  | none => (addSettings settings []).map (.table .header)
  | some (.table .implied inner) => (addSettings settings inner).map (.table .header)
  | some _ => none

/-- The array that a header and settings make of what is there already. -/
def append (settings : List Setting) : Option Value → Option Value
  | none => (addSettings settings []).map fun t => .tables [t]
  | some (.tables elements) => (addSettings settings []).map fun t => .tables (elements ++ [t])
  | some _ => none

/-- Adds a section. -/
def addSection (t : Table) (s : Section) : Option Table :=
  match s.header with
  | .table path key => t.atHeader key (define s.settings) path
  | .element path key => t.atHeader key (append s.settings) path

/-- The document that consists of some settings and the sections after them; none
if something is defined twice. -/
def ofSections (settings : List Setting) (sections : List Section) : Option Table := do
  sections.foldlM addSection (← addSettings settings [])

end Table

end ClassLoom.Toml
