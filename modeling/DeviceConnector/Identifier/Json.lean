import DeviceConnector.Identifier.Text
import DeviceConnector.Json.Record
/-!
# Identifiers in JSON

An identifier is a JSON string with its canonical text. Every text that can be read as an identifier
is accepted.
-/

namespace DeviceConnector.Dsuid

open Json (Value)

def toJson (d : Dsuid) : Value := .ofText d.text

def ofJson? (value : Value) : Option Dsuid := value.text?.bind parse?

end DeviceConnector.Dsuid
