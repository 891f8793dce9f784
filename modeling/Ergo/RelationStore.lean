import Ergo.English.Triple

/-!
A store of relations between named nodes. Only records with a source, a type and a target are
stored. A query finds the records that contain it in a node or have it as their type.
-/

namespace Ergo

structure RelationRecord where
  source : String
  type : String
  target : String
  properties : List (String × String)
  deriving DecidableEq, Repr

namespace RelationRecord

/-- A type in capitals, with underscores for spaces. -/
def normalizeType (text : String) : String :=
  let joined := (Text.trimChars text.toList).map fun char => if char == ' ' then '_' else char
  Text.upper (String.ofList joined)

def new (source type target : String) : RelationRecord :=
  { source := source, type := normalizeType type, target := target, properties := [] }

def withProperty (record : RelationRecord) (key value : String) : RelationRecord :=
  { record with
    properties := record.properties.filter (fun property => property.1 != key) ++ [(key, value)] }

def ofTriple (triple : English.Triple) : RelationRecord :=
  new triple.subject triple.kind.tag triple.object

def isBlankText (text : String) : Bool :=
  (Text.trimChars text.toList).isEmpty

def isComplete (record : RelationRecord) : Bool :=
  !isBlankText record.source && !isBlankText record.target && !isBlankText record.type

def isFoundBy (record : RelationRecord) (query : String) : Bool :=
  let small := Text.lower query
  Text.contains (Text.lower record.source) small ||
    Text.contains (Text.lower record.target) small ||
    record.type == normalizeType query

end RelationRecord

inductive StoreError
  | missingFields
  | emptyQuery
  deriving DecidableEq, Repr

def StoreError.message : StoreError → String
  | .missingFields => "Missing required fields (source_node, target_node, or relation_type)"
  | .emptyQuery => "Query parameter is required"

structure RelationStore where
  /-- Stored records, oldest first. -/
  records : List RelationRecord
  deriving DecidableEq, Repr

namespace RelationStore

/-- What became of records that were to be stored. -/
structure Report where
  saved : Nat
  refused : List (RelationRecord × StoreError)
  deriving DecidableEq, Repr

def empty : RelationStore := { records := [] }

def size (store : RelationStore) : Nat :=
  store.records.length

def isEmpty (store : RelationStore) : Bool :=
  store.records.isEmpty

def save (store : RelationStore) (record : RelationRecord) :
    Except StoreError RelationStore :=
  if record.isComplete then .ok { records := store.records ++ [record] }
  else .error .missingFields

def saveAll (store : RelationStore) (records : List RelationRecord) : RelationStore × Report :=
  let (complete, incomplete) := records.partition RelationRecord.isComplete
  ({ records := store.records ++ complete },
    { saved := complete.length
      refused := incomplete.map fun record => (record, .missingFields) })

def find (store : RelationStore) (query : String) : Except StoreError (List RelationRecord) :=
  let query := Text.trim query
  if query.isEmpty then .error .emptyQuery
  else .ok (store.records.filter fun record => record.isFoundBy query)

end RelationStore

end Ergo
