import Telescope.Json.Number

/-!
# Records in JSON

A record has fields of fixed names in a fixed order. It is written as an object, and read from an
object or from an array of its values in order. Either may leave out fields that have a default, an
array only at its end. `Json.slots?` finds the values of the fields; `required?` and `withDefault?`
read them.
-/

namespace Telescope.Json

/-- Whether an object's names are all among those of a record. -/
def allKnown (names : List String) (fields : List (String × Json)) : Bool :=
  fields.all fun field => names.contains field.1

/-- Whether no name of a record stands twice in an object. -/
def noneTwice (names : List String) (fields : List (String × Json)) : Bool :=
  names.all fun name => (fields.filter fun field => field.1 == name).length ≤ 1

/-- The values of the fields of a record, in the order of their names. An object may have other
fields besides, unless it is closed. -/
def slots? (closed : Bool) (names : List String) : Json → Option (List (Option Json))
  | .array items =>
    if items.length ≤ names.length then
      some (items.map some ++ List.replicate (names.length - items.length) none)
    else none
  | .object fields =>
    match fields.mapM fun (name, value) => name.map (·, value) with
    | none => none
    | some fields =>
      if noneTwice names fields && (!closed || allKnown names fields) then
        some (names.map fun name => fields.lookup name)
      else none
  | _ => none

/-- A field that has to be there. -/
def required? {α : Type} (read? : Json → Option α) (slot : Option Json) : Option α :=
  slot.bind read?

/-- A field with a default. -/
def withDefault? {α : Type} (default : α) (read? : Json → Option α) : Option Json → Option α
  | none => some default
  | some value => read? value

/-- A value that may say nothing. -/
def optional? {α : Type} (read? : Json → Option α) : Json → Option (Option α)
  | .null => some none
  | value => (read? value).map some

end Telescope.Json
