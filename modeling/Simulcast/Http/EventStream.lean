import Simulcast.Json.Writer
/-!
# Event streams

The layers of a stream as one server-sent event: its name, its data, and a blank
line.  Data that runs over several lines is sent as several data fields.
-/

namespace Simulcast

namespace Http

/-- One field of an event. -/
def eventField (name : String) (value : List Char) : String :=
  name ++ ": " ++ String.ofList value ++ "\n"

/-- An event with a name and data. -/
def event (name data : String) : String :=
  eventField "event" name.toList ++
    String.join ((data.toList.splitOn '\n').map (eventField "data")) ++ "\n"

/-- The layers of a stream as data of an event. -/
def layersData (layers : List String) : String :=
  let entries := layers.map fun layer => Json.object [("encodingId", Json.quote layer)]
  Json.object [("1", Json.object [("layers", Json.list entries)])]

end Http

end Simulcast
