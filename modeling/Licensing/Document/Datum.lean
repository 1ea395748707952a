import Licensing.Decimal.Shortest
import Licensing.Text.Quoted

/-! # Document values

What a settings file, a data file or a saved model holds before anyone has looked at its meaning:
scalars, points in time, lists, and tables in the order of the document.

* `Datum` — such a value; `Datum.kindName` names its kind in messages.
* `Datum.shown` — the value as a message shows it.
* `Table.get?` / `Table.put` — look up and set a key; setting a key that exists keeps its place.
-/

namespace Licensing.Document

structure Date where
  year : Nat
  month : Nat
  day : Nat
deriving DecidableEq, Repr

structure TimeOfDay where
  hour : Nat
  minute : Nat
  second : Nat
  microsecond : Nat
deriving DecidableEq, Repr

/-- A date, a time, or both with an optional distance from universal time in minutes. -/
inductive Moment where
  | date (d : Date)
  | time (t : TimeOfDay)
  | dateTime (d : Date) (t : TimeOfDay) (offset : Option Int)
deriving DecidableEq, Repr

inductive Datum where
  | null
  | bool (b : Bool)
  | int (n : Int)
  | float (x : Float)
  | text (s : String)
  | moment (m : Moment)
  | list (items : List Datum)
  | table (entries : List (String × Datum))
deriving Inhabited

/-- How many decimal digits of an integer are read or shown. -/
def integerDigits : Nat := 4300

/-- Keys and values in document order, no key twice. -/
abbrev Table := List (String × Datum)

def Table.get? (table : Table) (key : String) : Option Datum :=
  (table.find? fun entry => entry.1 == key).map Prod.snd

/-- Sets a key: in its place if it exists, else at the end. -/
def Table.put (table : Table) (key : String) (value : Datum) : Table :=
  match table with
  | [] => [(key, value)]
  | entry :: rest =>
    if entry.1 == key then (key, value) :: rest else entry :: Table.put rest key value

def Table.keys (table : Table) : List String :=
  table.map Prod.fst

theorem Table.get?_put_self (table : Table) (key : String) (value : Datum) :
    (Table.put table key value).get? key = some value := by
  induction table with
  | nil => simp [Table.put, Table.get?]
  | cons entry rest ih =>
    by_cases same : entry.1 = key
    · simp [Table.put, Table.get?, same]
    · simpa [Table.put, Table.get?, same] using ih

def Moment.kindName : Moment → String
  | .date _ => "date"
  | .time _ => "time"
  | .dateTime .. => "datetime"

def Datum.kindName : Datum → String
  | .null => "NoneType"
  | .bool _ => "bool"
  | .int _ => "int"
  | .float _ => "float"
  | .text _ => "str"
  | .moment m => m.kindName
  | .list _ => "list"
  | .table _ => "dict"

def Datum.asText? : Datum → Option String
  | .text s => some s
  | _ => none

def Datum.asList? : Datum → Option (List Datum)
  | .list items => some items
  | _ => none

def Datum.asTable? : Datum → Option Table
  | .table entries => some entries
  | _ => none

/-- The strings of a list that holds nothing else. -/
def Datum.asTexts? (value : Datum) : Option (List String) :=
  value.asList?.bind fun items => items.mapM Datum.asText?

/-! ## Showing values in messages -/

def Date.fields (d : Date) : List Nat :=
  [d.year, d.month, d.day]

/-- Seconds and microseconds are left out when nothing but zeros would follow. -/
def TimeOfDay.fields (t : TimeOfDay) : List Nat :=
  [t.hour, t.minute] ++
    (if t.microsecond ≠ 0 then [t.second, t.microsecond]
    else if t.second ≠ 0 then [t.second] else [])

/-- A distance in minutes, as days and the seconds of a day. -/
def shownOffset (minutes : Int) : String :=
  let days := minutes.fdiv 1440
  let seconds := minutes.fmod 1440 * 60
  if minutes = 0 then "datetime.timezone.utc"
  else if days = 0 then s!"datetime.timezone(datetime.timedelta(seconds={seconds}))"
  else s!"datetime.timezone(datetime.timedelta(days={days}, seconds={seconds}))"

def Moment.shown (m : Moment) : String :=
  let arguments (fields : List Nat) : String := ", ".intercalate (fields.map Nat.repr)
  match m with
  | .date d => s!"datetime.date({arguments d.fields})"
  | .time t => s!"datetime.time({arguments t.fields})"
  | .dateTime d t none => s!"datetime.datetime({arguments (d.fields ++ t.fields)})"
  | .dateTime d t (some offset) =>
    s!"datetime.datetime({arguments (d.fields ++ t.fields)}, tzinfo={shownOffset offset})"

mutual

/-- The value as a message shows it: strings quoted, lists in brackets, tables in braces. -/
def Datum.shown : Datum → String
  | .null => "None"
  | .bool true => "True"
  | .bool false => "False"
  | .int n => toString n
  | .float x => Decimal.shortest x
  | .text s => Text.quoted s
  | .moment m => m.shown
  | .list items => "[" ++ ", ".intercalate (shownItems items) ++ "]"
  | .table entries => "\x7b" ++ ", ".intercalate (shownEntries entries) ++ "\x7d"

def shownItems : List Datum → List String
  | [] => []
  | item :: rest => item.shown :: shownItems rest

def shownEntries : List (String × Datum) → List String
  | [] => []
  | (key, value) :: rest => (Text.quoted key ++ ": " ++ value.shown) :: shownEntries rest

end

/-- The value as a message shows it when it stands alone: a string without quotes. -/
def Datum.plainlyShown : Datum → String
  | .text s => s
  | value => value.shown

end Licensing.Document
