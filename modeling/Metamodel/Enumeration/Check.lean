import Metamodel.Declaration.Basic

/-!
# Checks of an enumeration

An enumeration is stored as integers or as texts; its members have distinct names and distinct values, and each value is
a literal of the type.
-/

namespace Metamodel.EnumerationDeclaration

/-- The problems of a list of members, after members with the given names and values. -/
def memberProblems (t : DataType) (names values : List String) : List EnumerationMember → List String
  | [] => []
  | m :: ms =>
    let value := Text.trimmed m.persistedValue
    (if names.contains m.name then ["duplicate enumeration member '" ++ m.name ++ "'"] else []) ++
      (if values.contains value then
        ["duplicate persisted value '" ++ m.persistedValue ++ "' for member '" ++ m.name ++ "'"] else []) ++
      (if t.accepts m.persistedValue then []
      else ["persisted value '" ++ m.persistedValue ++ "' of member '" ++ m.name ++ "' is not a valid " ++ t.name]) ++
      memberProblems t (m.name :: names) (value :: values) ms

def problems (e : EnumerationDeclaration) : List String :=
  (if e.persistedType = .int ∨ e.persistedType = .string then []
  else ["enumeration persisted type must be int or String, not " ++ e.persistedType.name]) ++
    memberProblems e.persistedType [] [] e.members

end Metamodel.EnumerationDeclaration
