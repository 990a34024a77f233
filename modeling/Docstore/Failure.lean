/-!
# Failures

Every operation of the library that can fail does so with one of these.  A failure names its cause;
`message?` words it.  Where the wording belongs to whoever read a text or carried a request, and
not to this library, the cause is `none` and so is the message.
-/

namespace Docstore

/-- Why an operation failed. -/
inductive Failure where
  /-- A field of a request that its method needs is absent. -/
  | missingField (name : String)
  | invalidCriteria (reason : String)
  | invalidOperator (operator reason : String)
  | invalidPipeline (reason : String)
  | invalidUpdate (reason : String)
  | invalidDistance (reason : String)
  /-- A text is not JSON, or not the record that was asked for. -/
  | malformedJson
  | transport (reason : Option String)
  | replicationStartup (reason : Option String)
  | configuration (reason : Option String)
  | inputOutput (reason : Option String)
  | noSuchModel (identity : String)
  deriving DecidableEq, Repr

namespace Failure

def message? : Failure → Option String
  | .missingField name => some ("Missing required field: " ++ name)
  | .invalidCriteria reason => some ("Invalid criteria: " ++ reason)
  | .invalidOperator operator reason => some ("Invalid operator " ++ operator ++ ": " ++ reason)
  | .invalidPipeline reason => some ("Invalid aggregation pipeline: " ++ reason)
  | .invalidUpdate reason => some ("Invalid update: " ++ reason)
  | .invalidDistance reason => some ("Invalid distance criteria: " ++ reason)
  | .malformedJson => none
  | .transport reason => reason.map ("Transport error: " ++ ·)
  | .replicationStartup reason => reason.map ("Replication startup failed: " ++ ·)
  | .configuration reason => reason.map ("Config error: " ++ ·)
  | .inputOutput reason => reason.map ("I/O error: " ++ ·)
  | .noSuchModel identity => some ("No such model: " ++ identity)

/-- Whether the failure says that a request has the wrong shape. -/
def isValidation : Failure → Bool
  | .missingField _ | .invalidCriteria _ | .invalidOperator _ _ | .invalidPipeline _
  | .invalidUpdate _ | .invalidDistance _ => true
  | .malformedJson | .transport _ | .replicationStartup _ | .configuration _ | .inputOutput _
  | .noSuchModel _ => false

end Failure

end Docstore
