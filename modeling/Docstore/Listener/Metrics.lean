/-!
# Metrics of a listener

Counters of 64 bits, which start again at zero after the largest value.  Their exposition is one
line for each counter, in a fixed order.
-/

namespace Docstore

/-- What a listener has done so far. -/
structure Metrics where
  polls : UInt64 := 0
  idle : UInt64 := 0
  failed : UInt64 := 0
  applied : UInt64 := 0
  emitted : UInt64 := 0
  dropped : UInt64 := 0
  committed : UInt64 := 0
  aborted : UInt64 := 0
  crashes : UInt64 := 0
  deriving DecidableEq, Repr, Inhabited

namespace Metrics

/-- The counters with their names, in the order of the exposition. -/
def counters (m : Metrics) : List (String × UInt64) :=
  [("polls", m.polls), ("idle_polls", m.idle), ("failed_polls", m.failed),
    ("batches_applied", m.applied), ("events_emitted", m.emitted), ("events_dropped", m.dropped),
    ("transactions_committed", m.committed), ("transactions_aborted", m.aborted),
    ("subscriber_panics", m.crashes)]

def line (c : String × UInt64) : String :=
  "aqlbridge_replication_" ++ c.1 ++ "_total " ++ toString c.2.toNat ++ "\n"

def text (m : Metrics) : String := String.join (m.counters.map line)

def isZero (m : Metrics) : Bool := m.counters.all fun c => c.2 == 0

end Metrics

end Docstore
