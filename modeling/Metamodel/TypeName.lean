/-!
# Names of types

A type is named by a package and a simple name; its qualified name joins them with a dot, unless the package is empty.
-/

namespace Metamodel

structure TypeName where
  package : String
  simple : String
deriving DecidableEq, Inhabited

def TypeName.qualified (n : TypeName) : String :=
  if n.package.isEmpty then n.simple else n.package ++ "." ++ n.simple

end Metamodel
