import Metamodel.Issue.Basic
import Metamodel.Json.Basic

/-!
# Reports as JSON
-/

namespace Metamodel

open Json

def Issue.toJson (i : Issue) : Json :=
  .record [("severity", Json.text i.severity.name), ("kind", Json.text i.kind.name), ("phase", Json.text i.phase.name),
    ("object", Json.text i.object), ("member", option Json.text i.member), ("message", Json.text i.message)]

def Report.toJson (r : Report) : Json :=
  .record [("issues", list Issue.toJson r.issues)]

end Metamodel
