import Raceway.Op.Document
/-!
# Waiting requests

Requests wait in a queue until they are carried out, the oldest first. The queue is written as an
object whose only member is the list of requests.

## Main definitions

* `Raceway.Request`: a request and where it comes from.
* `Raceway.Request.queueDocument` and `Raceway.Request.queueOfText`: a queue as a document.
-/

namespace Raceway

open Json

/-- Where a request comes from. -/
inductive Origin where
  /-- Somebody who designs a track. -/
  | designer
  /-- A script. -/
  | script
  /-- An earlier session. -/
  | replay
deriving DecidableEq, Repr

namespace Origin

/-- All origins. -/
def all : List Origin :=
  [designer, script, replay]

/-- The name of an origin. -/
def name : Origin → String
  | designer => "Designer"
  | script => "Script"
  | replay => "Replay"

/-- The origin with the given name. -/
def ofName? (name : String) : Option Origin :=
  all.find? (·.name == name)

end Origin

/-- A request in plain words. -/
structure Request where
  /-- Where it comes from. -/
  origin : Origin
  /-- Its words. -/
  text : String
deriving DecidableEq, Repr

namespace Request

/-- The document of a request. -/
def document (r : Request) : Node :=
  .object [("source", .str r.origin.name), ("text", .str r.text)]

/-- The document of a queue. -/
def queueDocument (queue : List Request) : Node :=
  .object [("pending", .list (queue.map document))]

/-- Read a request. -/
def reader : Reader Request :=
  Reader.record "a request"
    [⟨"source", fun r => return { r with origin := ← plainVariant Origin.ofName? }, false⟩,
      ⟨"text", fun r => return { r with text := ← Reader.str }, false⟩] ⟨.designer, ""⟩

/-- Read a queue. -/
def queueReader : Reader (List Request) :=
  Reader.record "a queue" [⟨"pending", fun _ => Reader.elements reader, false⟩] []

/-- Read a queue from the text of a document. -/
def queueOfText (text : List Char) : Except ReadError (List Request) :=
  Reader.run queueReader text

end Request

end Raceway
