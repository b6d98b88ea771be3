/-!
# Descriptions of values

Values are described by the name of their type and the fields that matter, as in
`Range { start: 0, length: 4 }`. A description that leaves fields out ends in two dots.

## Main definitions

* `Record.closed` — all fields are shown
* `Record.abridged` — some fields are left out
* `Record.list` — several descriptions in square brackets
-/

namespace VirtualFiles.Record

/-- The fields, each as `name: value`. -/
def fields (entries : List (String × String)) : List String :=
  entries.map fun (name, value) => name ++ ": " ++ value

/-- The description of a value whose fields are all shown. -/
def closed (name : String) (entries : List (String × String)) : String :=
  name ++ " \x7b " ++ ", ".intercalate (fields entries) ++ " \x7d"

/-- The description of a value with fields that are not shown. -/
def abridged (name : String) (entries : List (String × String)) : String :=
  name ++ " \x7b " ++ ", ".intercalate (fields entries ++ [".."]) ++ " \x7d"

/-- Several descriptions in square brackets. -/
def list (items : List String) : String := "[" ++ ", ".intercalate items ++ "]"

end VirtualFiles.Record
