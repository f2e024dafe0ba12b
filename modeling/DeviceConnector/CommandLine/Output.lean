import DeviceConnector.Identifier.Text
import DeviceConnector.Json.Record
/-!
# Output

Identifiers and the place where a host listens, printed as JSON lines, as a table or as plain lines.
-/

namespace DeviceConnector

inductive OutputFormat where
  | json
  | table
  | pretty
  deriving DecidableEq, Repr

namespace OutputFormat

def parse? : String → Option OutputFormat
  | "json" => some json
  | "table" => some table
  | "pretty" => some pretty
  | _ => none

end OutputFormat

namespace Json.Value

def renderText (v : Value) : String := (String.fromUTF8? ⟨v.render.toArray⟩).getD ""

end Json.Value

namespace Output

def pad (width : Nat) (text : String) : String :=
  text ++ String.ofList (List.replicate (width - text.length) ' ')

def rule (left fill cross right : String) (widths : List Nat) : String :=
  let segment (width : Nat) := String.join (List.replicate (width + 2) fill)
  left ++ cross.intercalate (widths.map segment) ++ right

def row (widths : List Nat) (cells : List String) : String :=
  "│ " ++ " ┆ ".intercalate ((widths.zip cells).map fun (w, cell) => pad w cell) ++ " │"

/-- A table with a header, each column as wide as its widest cell. -/
def table (header : List String) (rows : List (List String)) : List String :=
  let widths := rows.foldl (fun widths cells => widths.zipWith max (cells.map (·.length)))
    (header.map (·.length))
  let lines := (rows.map fun cells => row widths cells).intersperse (rule "├" "╌" "┼" "┤" widths)
  [rule "┌" "─" "┬" "┐" widths, row widths header, rule "╞" "═" "╪" "╡" widths] ++ lines ++
    [rule "└" "─" "┴" "┘" widths]

def lines (texts : List String) : String := String.join (texts.map (· ++ "\n"))

def dsuidJson (d : Dsuid) : Json.Value :=
  .ofFields [("dsuid", some (.ofText d.text)), ("uuid", some (.ofText d.uuidText)),
    ("version", some (.ofNat d.version)), ("kind", some (.ofText d.kind.name))]

def dsuids (format : OutputFormat) (ds : List Dsuid) : String :=
  match format with
  | .json => lines (ds.map fun d => (dsuidJson d).renderText)
  | .table => lines (table ["DSUID", "UUID", "VERSION", "KIND"]
      (ds.map fun d => [d.text, d.uuidText, toString d.version, d.kind.name]))
  | .pretty => lines (ds.map fun d =>
      "dsuid=" ++ d.text ++ " uuid=" ++ d.uuidText ++ " version=" ++ toString d.version ++
        " kind=" ++ d.kind.name)

structure ListenInfo where
  listen : String
  dsuid : String
  name : String
  vdcs : Nat
  deriving DecidableEq, Repr

def listening (format : OutputFormat) (info : ListenInfo) : String :=
  match format with
  | .json => lines [(Json.Value.ofFields [("listen", some (.ofText info.listen)),
      ("dsuid", some (.ofText info.dsuid)), ("name", some (.ofText info.name)),
      ("vdcs", some (.ofNat info.vdcs))]).renderText]
  | .table | .pretty =>
    lines ["vDC host:", "  Listening on: " ++ info.listen, "  dSUID:        " ++ info.dsuid,
      "  Name:         " ++ info.name, "  vDCs:         " ++ toString info.vdcs]

end Output

end DeviceConnector
