/-!
# Methods

The operations that a request can ask for, with their names.  A method that updates has its values
normalised; one that inserts stores its values as they are given.
-/

namespace Docstore

/-- An operation on a model. -/
inductive Method where
  | create
  | createEach
  | update
  | upsert
  | replace
  | destroy
  | find
  | findAny
  | findOutbound
  | findNear
  | findWithCount
  | count
  | sum
  | average
  | aggregate
  | createEdge
  | getOutboundVertices
  deriving DecidableEq, Repr

namespace Method

def named : List (String × Method) :=
  [("create", .create), ("createEach", .createEach), ("update", .update), ("upsert", .upsert),
    ("replace", .replace), ("destroy", .destroy), ("find", .find), ("findAny", .findAny),
    ("findOutbound", .findOutbound), ("findNear", .findNear), ("findWithCount", .findWithCount),
    ("count", .count), ("sum", .sum), ("avg", .average), ("aggregate", .aggregate),
    ("createEdge", .createEdge), ("getOutboundVertices", .getOutboundVertices)]

def ofName? (name : String) : Option Method := named.lookup name

def name : Method → String
  | .create => "create"
  | .createEach => "createEach"
  | .update => "update"
  | .upsert => "upsert"
  | .replace => "replace"
  | .destroy => "destroy"
  | .find => "find"
  | .findAny => "findAny"
  | .findOutbound => "findOutbound"
  | .findNear => "findNear"
  | .findWithCount => "findWithCount"
  | .count => "count"
  | .sum => "sum"
  | .average => "avg"
  | .aggregate => "aggregate"
  | .createEdge => "createEdge"
  | .getOutboundVertices => "getOutboundVertices"

/-- Whether the method changes stored documents by an update. -/
def isUpdate : Method → Bool
  | .update | .upsert => true
  | _ => false

/-- Whether the method stores its values as they are given. -/
def isInsert : Method → Bool
  | .create | .createEach | .replace | .createEdge => true
  | _ => false

def needsEdges : Method → Bool
  | .findOutbound | .getOutboundVertices => true
  | _ => false

/-- Whether the method computes with a numeric attribute. -/
def needsNumericAttribute : Method → Bool
  | .sum | .average => true
  | _ => false

theorem isUpdate_iff {m : Method} : m.isUpdate = true ↔ m = .update ∨ m = .upsert := by
  cases m <;> simp [isUpdate]

theorem isInsert_iff {m : Method} :
    m.isInsert = true ↔ m = .createEach ∨ m = .create ∨ m = .replace ∨ m = .createEdge := by
  cases m <;> simp [isInsert]

theorem needsEdges_iff {m : Method} :
    m.needsEdges = true ↔ m = .findOutbound ∨ m = .getOutboundVertices := by
  cases m <;> simp [needsEdges]

theorem needsNumericAttribute_iff {m : Method} :
    m.needsNumericAttribute = true ↔ m = .sum ∨ m = .average := by
  cases m <;> simp [needsNumericAttribute]

theorem ofName?_name (m : Method) : ofName? m.name = some m := by
  cases m <;> decide

end Method

end Docstore
