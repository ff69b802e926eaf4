import Metamodel.Digest.Blake3
import Metamodel.Graph.Writer

/-!
# Fingerprints

The fingerprint of a graph is the BLAKE3 hash of its compact JSON form, so equal graphs have equal fingerprints.
-/

namespace Metamodel.Graph

def toText (g : Graph) : String :=
  g.toJson.toCompact

def fingerprint (g : Graph) : String :=
  Blake3.hexDigest g.toText

end Metamodel.Graph
