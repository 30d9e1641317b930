import Formulary.Text.Quoted

/-!
# Faults of markup

Markup that does not follow the rules is malformed.  Markup that declares an entity is refused as
soon as the declaration is met, whether the entity is used or not; so is markup that declares an
encoding that is not known, not one of texts, or has several bytes for some characters.
-/

namespace Formulary.Markup

inductive Fault where
  | malformed
  | entityDeclared (name : String) (systemId publicId : Option String)
  | unknownEncoding (name : String)
  | notOfTexts (name : String)
  | multibyteEncoding
  deriving DecidableEq, Repr

def shownId : Option String → String
  | some id => Text.quoted id
  | none => "None"

def Fault.message : Fault → String
  | .malformed => "Invalid XML"
  | .entityDeclared name systemId publicId =>
    "EntitiesForbidden(name='" ++ name ++ "', system_id=" ++ shownId systemId ++ ", public_id=" ++
      shownId publicId ++ ")"
  | .unknownEncoding name => "unknown encoding: " ++ name
  | .notOfTexts name =>
    "'" ++ name ++
      "' is not a text encoding; use codecs.decode() to handle arbitrary codecs"
  | .multibyteEncoding => "multi-byte encodings are not supported"

/-- What is there, or markup that lacks it is malformed. -/
def orMalformed : Option α → Except Fault α
  | some a => .ok a
  | none => .error .malformed

end Formulary.Markup
