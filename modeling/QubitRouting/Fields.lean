/-!
# Fields of a record

A record is read from named entries or from a list of values in the order of its fields. Entries of
another name are passed over, and a field may not be given twice.
-/

namespace QubitRouting.Fields

variable {α : Type}

/-- The value of each field, if it is given, from entries that name a field by its number or name none
of them. -/
def ofEntries? (count : Nat) (entries : List (Option Nat × α)) : Option (List (Option α)) :=
  (List.range count).mapM fun field =>
    match entries.filter (·.1 == some field) with
    | [] => some none
    | [(_, value)] => some (some value)
    | _ => none

/-- The value of each field from a list that may stop early but not run on. -/
def ofList? (count : Nat) (values : List α) : Option (List (Option α)) :=
  if values.length ≤ count then some ((List.range count).map (values[·]?)) else none

/-- A field that must be given. -/
def required {β : Type} (read : α → Option β) (field : Option α) : Option β := field.bind read

/-- A field that has a value of its own when it is not given. -/
def optional {β : Type} (read : α → Option β) (default : β) (field : Option α) : Option β :=
  match field with
  | some value => read value
  | none => some default

end QubitRouting.Fields
