import SourceScout.Text.Lowercase

/-!
# Roles of files

The place of a file along a typical request, read off its path, and whether a class is a data holder
by its directory or its name.
-/

namespace SourceScout

inductive Role where
  | entry
  | service
  | implementation
  | messaging
  | persistence
  | dataModel
  | other
  deriving Repr, DecidableEq

namespace Role

/-- The rank of a role; smaller is read first. -/
def rank : Role → Nat
  | .entry => 1
  | .service => 2
  | .implementation => 3
  | .messaging => 4
  | .persistence => 5
  | .dataModel => 6
  | .other => 10

def mentions (words : List Text) (t : Text) : Bool := words.any fun word => Text.hasPart word t

def ofPath (path : Text) : Role :=
  let lower := path.toLower
  if mentions ["controller", "api"] lower then .entry
  else if mentions ["service"] lower && !mentions ["impl"] lower then .service
  else if mentions ["impl"] lower then .implementation
  else if mentions ["mq", "listener", "consumer", "producer"] lower then .messaging
  else if mentions ["mapper", "repository", "dao"] lower then .persistence
  else if mentions ["dto", "vo", "entity", "model"] lower then .dataModel
  else .other

/-- Paths in reading order; paths of one role keep their order. -/
def sortPaths (paths : List Text) : List Text :=
  sortBy (fun path other => (ofPath path).rank ≤ (ofPath other).rank) paths

def modelDirectories : List Text :=
  ["dto", "vo", "entity", "model", "po", "bo", "query", "request", "response", "enums", "enum"]

def modelEndings : List Text :=
  ["dto", "vo", "entity", "model", "po", "bo", "query", "request", "response", "enum"]

def isModelLike (name path : Text) : Bool :=
  let lower := Text.toLower (Text.replaceAll ['\\'] ['/'] path)
  modelDirectories.any (fun directory => Text.hasPart ('/' :: directory ++ ['/']) lower) ||
    modelEndings.any fun ending => Text.endsWith ending name.toLower

end Role

end SourceScout
