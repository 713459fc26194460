/-! Why a world cannot be loaded, or an address in it not be read or written. -/

namespace Storyworld

inductive Target where
  | location
  | locationOrCharacter
  deriving DecidableEq

def Target.text : Target → String
  | .location => "location"
  | .locationOrCharacter => "location or character"

/-- A fault of a document or of an address; addresses are given as they were written. -/
inductive WorldError where
  | malformed
  | blankId
  | colonInId (id : String)
  | duplicateId (id : String)
  | missingPlayer
  | unknownReference (holder target : String) (expected : Target)
  | invalidPath (path : String)
  | unknownEntity (id : String)
  | unknownPath (path : String)
  | notScalar (path : String)
  | notContainer (path : String)
  | readOnly (path : String)
  deriving DecidableEq

def WorldError.message : WorldError → String
  | malformed => "malformed document: the text does not describe a world"
  | blankId => "validation error: entity with an empty id"
  | colonInId id => "validation error: id \"" ++ id ++ "\" must not contain ':'"
  | duplicateId id => "duplicate id: \"" ++ id ++ "\""
  | missingPlayer => "no player character defined"
  | unknownReference holder target expected =>
    "invalid reference from \"" ++ holder ++ "\": \"" ++ target ++ "\" is not a known " ++
      expected.text
  | invalidPath path => "invalid path: \"" ++ path ++ "\""
  | unknownEntity id => "unknown entity: \"" ++ id ++ "\""
  | unknownPath path => "unknown path: \"" ++ path ++ "\""
  | notScalar path => "not a scalar value: \"" ++ path ++ "\""
  | notContainer path => "cannot descend into scalar at \"" ++ path ++ "\""
  | readOnly path => "read-only field: \"" ++ path ++ "\""

end Storyworld
