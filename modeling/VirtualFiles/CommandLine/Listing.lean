import VirtualFiles.Layout.Plan
import VirtualFiles.Pak.Header

/-!
# Listings

The tables and notices that commands print, line by line.

## Main definitions

* `Listing.plan` — the placements of a layout
* `Listing.pakEntry` — the header of an entry
* `Listing.probe` — whether a file is an AWB audio bank
* `Listing.seconds` — a span of time
-/

namespace VirtualFiles.CommandLine.Listing

/-- A text with blanks after it up to a width. -/
def padEnd (width : Nat) (text : String) : String :=
  text ++ String.ofList (List.replicate (width - text.length) ' ')

/-- A text with blanks before it up to a width. -/
def padStart (width : Nat) (text : String) : String :=
  String.ofList (List.replicate (width - text.length) ' ') ++ text

/-- The width of the column of extents. -/
def extentWidth : Nat := 26

/-- The width of the column of lengths. -/
def lengthWidth : Nat := 10

/-- The width of the rule under the last column. -/
def contentWidth : Nat := 30

/-- A row of a table of placements. -/
def row (extent length content : String) : String :=
  padEnd extentWidth extent ++ "  " ++ padStart lengthWidth length ++ "  " ++ content

/-- A horizontal rule of that width. -/
def rule (width : Nat) : String := String.ofList (List.replicate width '-')

/-- What fills a placement. -/
def content : Filling → String
  | .block index path fileOffset =>
    "block #" ++ toString index ++ " " ++ path.display ++ " @ 0x" ++ Hex.upper fileOffset
  | .padding => "padding"
  | .header => "header"

/-- The row of one placement. -/
def placement (p : Placement) : String :=
  row p.extent.display (toString p.extent.length) (content p.filling)

/-- The placements of a layout and its length. -/
def plan (p : Plan) : List String :=
  [row "Range" "Length" "Content",
    row (rule extentWidth) (rule lengthWidth) (rule contentWidth)] ++
  p.placements.map placement ++
  ["", "Total length:   " ++ toString p.length ++ " bytes"]

/-- The header of an entry of the archive at that path. -/
def pakEntry (path : Path) (h : Pak.Header) : List String :=
  ["PAK: " ++ path.display,
    "",
    "Version:        " ++ h.version.display,
    "Header Size:    " ++ toString h.version.headerSize ++ " bytes",
    "Name:           " ++ h.name,
    "Length:         " ++ toString h.length.toInt ++ " bytes"]

/-- Whether the file at that path is an AWB audio bank. -/
def probe (path : Path) (isAwb : Bool) : List String :=
  [path.display ++ if isAwb then ": AWB (AFS2)" else ": not an AWB file"]

/-- A span of milliseconds in seconds with two decimals, cut. -/
def seconds (milliseconds : Nat) : String :=
  let hundredths := milliseconds / 10 % 100
  toString (milliseconds / 1000) ++ "." ++ (if hundredths < 10 then "0" else "") ++
    toString hundredths ++ "s"

end VirtualFiles.CommandLine.Listing
