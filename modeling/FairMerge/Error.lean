import FairMerge.SourceId

/-! # Errors

Each constructor is one cause of failure; `Error.message` gives the wording of each. -/

namespace FairMerge

/-- Why an operation failed. -/
inductive Error where
  /-- The identifier is already taken. -/
  | duplicateId (id : SourceId)
  /-- The source is already registered, under the identifier given. -/
  | duplicateSource (existing : SourceId)
  /-- No source is registered under the identifier. -/
  | unknownSource (id : SourceId)
  /-- The source could not produce its next buffer. -/
  | pull (id : SourceId) (reason : String)
  /-- The source could not give up its resources. -/
  | release (id : SourceId) (reason : String)
  /-- A merged stream does not offer the operation. -/
  | unsupported (operation : String)
  /-- The view was released before. -/
  | released
  /-- The configuration can be read and makes no sense. -/
  | invalidConfig (reason : String)
  /-- A text could not be read. -/
  | serialization (reason : String)
  /-- The rotation already has the source in its cycle. -/
  | alreadyInCycle (id : SourceId)
deriving DecidableEq

namespace Error

/-- The wording of an error. -/
def message : Error → String
  | duplicateId id => "Source already registered: " ++ id.text
  | duplicateSource existing => "View already registered as source " ++ existing.text
  | unknownSource id => "Source not registered: " ++ id.text
  | pull id reason => "Source " ++ id.text ++ " failed to produce a buffer: " ++ reason
  | release id reason => "Source " ++ id.text ++ " failed to release: " ++ reason
  | unsupported operation => "Unsupported for union mode: " ++ operation
  | released => "Union view already released"
  | invalidConfig reason => "Invalid configuration: " ++ reason
  | serialization reason => "Serialization error: " ++ reason
  | alreadyInCycle id => "source " ++ id.text ++ " registered twice"

end Error

end FairMerge
