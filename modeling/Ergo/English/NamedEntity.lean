import Ergo.English.Tagging

/-!
Named entities: maximal runs of proper nouns. A single proper noun is taken for a person, several
for an organization.
-/

namespace Ergo.English

inductive EntityKind
  | person
  | organization
  deriving DecidableEq, Repr

def EntityKind.label : EntityKind → String
  | .person => "PERSON"
  | .organization => "ORGANIZATION"

structure NamedEntity where
  kind : EntityKind
  text : String
  deriving DecidableEq, Repr

namespace NamedEntity

/-- The entity that a run of proper nouns names, if the run is not empty. -/
def ofRun : List String → List NamedEntity
  | [] => []
  | [text] => [⟨.person, text⟩]
  | texts => [⟨.organization, " ".intercalate texts⟩]

/-- The entities of tagged tokens, where `run` holds the proper nouns just passed. -/
def collectFrom (run : List String) : List TaggedToken → List NamedEntity
  | [] => ofRun run
  | token :: later =>
      if token.part = .properNoun then collectFrom (run ++ [token.text]) later
      else ofRun run ++ collectFrom [] later

def collect (tokens : List TaggedToken) : List NamedEntity :=
  collectFrom [] tokens

end NamedEntity

end Ergo.English
