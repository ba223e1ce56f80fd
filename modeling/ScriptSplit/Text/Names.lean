/-!
# Sorted lists of names

Sets of names are kept as lists in rising order without repetitions, so that equal sets are equal
lists. Order is by code point.
-/

namespace ScriptSplit

namespace Names

def insert (name : String) : List String → List String
  | [] => [name]
  | first :: rest =>
    if name < first then name :: first :: rest
    else if name = first then first :: rest
    else first :: insert name rest

def ofList (names : List String) : List String :=
  names.foldr insert []

def diff (names others : List String) : List String :=
  names.filter fun name => !others.contains name

/-- Puts names into rising order and keeps repetitions. -/
def sort (names : List String) : List String :=
  names.mergeSort fun a b => !decide (b < a)

end Names

end ScriptSplit
