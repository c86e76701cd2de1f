import Microcode.Debugger.Basic
import Microcode.Text.Blank
import Microcode.Text.Cluster
import Microcode.Text.Width
/-!
# The Debugger's Screen

The panels of the debugger, drawn as cells of a terminal.

The screen is divided into two columns. The left one, three fifths of the width, has the listing
above the notice; the right one has the registers, the sequencer and the key help. Every panel
is a box with a title over its upper edge. Text that does not fit into a box is cut off.

A cluster of characters is held by the first of its cells. The other ones are blank and have no
style of their own. Of a cluster that takes several cells the terminal itself covers the second
one, so nothing that is written there is seen.

## Main definitions

* `Color`, `Style`, `Cell`: What one place of the screen shows.
* `Span`: A text in one style.
* `Panel`: A box with a title and lines of text.
* `Panel.writeFrom`: Text in a row of cells.
* `Panel.rows`: The cells of a panel.
* `covered`: What a terminal shows of a row of cells.
* `Debugger.screen`: The cells of the whole screen.
-/

namespace Microcode

/-- A colour of the terminal. -/
inductive Color where
  | default
  | yellow
  | red
  | cyan
  | green
  | magenta
  | white
  | darkGray
  deriving DecidableEq, Repr

/-- How text is shown. -/
structure Style where
  color : Color := .default
  bold : Bool := false
  deriving DecidableEq, Repr

/-- A place of the screen. -/
structure Cell where
  symbol : String := " "
  style : Style := {}
  deriving DecidableEq, Repr

/-- A text in a style. Without one it takes the style of its surroundings. -/
structure Span where
  text : String
  style : Option Style := none

/-- A line of a panel: the style of the whole line and the texts in it. -/
structure PanelLine where
  style : Style := {}
  spans : List Span

/-- A box with a title and lines of text. -/
structure Panel where
  title : String
  /-- The style of the edges and the title. -/
  border : Style := {}
  /-- The style of the places without text. -/
  interior : Style := {}
  /-- The lines, in blocks that are shown as a whole or not at all. -/
  blocks : List (List PanelLine)

/-- Some characters that are shown as one, in a style. -/
structure StyledCluster where
  text : List Char
  style : Style

namespace StyledCluster

/-- The number of cells of a cluster. -/
def width (cluster : StyledCluster) : Nat :=
  Text.width cluster.text

/-- The symbol of a cluster. -/
def symbol (cluster : StyledCluster) : String :=
  String.ofList cluster.text

end StyledCluster

namespace Panel

/-- Hides cells that a cluster covers: all but the first of its width from a place on. -/
def hide (place width : Nat) (row : List Cell) : List Cell :=
  row.take (place + 1) ++ List.replicate (width - 1) ({} : Cell) ++ row.drop (place + max width 1)

/-- Puts a cluster into a cell. -/
def put (place : Nat) (row : List Cell) (cluster : StyledCluster) : List Cell :=
  hide place cluster.width (row.set place ⟨cluster.symbol, cluster.style⟩)

/-- Adds a cluster to what a cell shows. -/
def append (place : Nat) (row : List Cell) (cluster : StyledCluster) : List Cell :=
  hide place cluster.width
    (row.modify place (fun cell => { cell with symbol := cell.symbol ++ cluster.symbol }))

/-- Writes clusters from a place on, as far as they fit. A cluster without a width joins the cell
    before it. At the front of a row there is none, so what follows joins that cluster. -/
def writeFrom (place : Nat) (row : List Cell) : List StyledCluster → List Cell
  | [] => row
  | cluster :: rest =>
    if row.length < place + cluster.width then row
    else writeFrom (place + cluster.width)
      (if place = 0 ∨ cluster.width = 0 then append (place - 1) row cluster
        else put place row cluster) rest

/-- Writes clusters into a row. -/
def write (row : List Cell) : List StyledCluster → List Cell
  | [] => row
  | cluster :: rest =>
    if row.length < cluster.width then row
    else writeFrom cluster.width (put 0 row cluster) rest

/-- The clusters of the texts in a line. -/
def styledClusters (line : PanelLine) : List StyledCluster :=
  line.spans.flatMap (fun span =>
    (Text.clusters span.text.toList).map (⟨·, span.style.getD line.style⟩))

/-- A row of blank cells. -/
def blankRow (width : Nat) (style : Style) : List Cell :=
  List.replicate width ⟨" ", style⟩

/-- The cells of a line inside a box. A line without a width stays blank. -/
def lineCells (width : Nat) (line : PanelLine) : List Cell :=
  if Text.width (line.spans.flatMap (·.text.toList)) = 0 then blankRow width line.style
  else write (blankRow width line.style) (styledClusters line)

/-- The lines of the blocks that fit into a height. -/
def visibleLines : Nat → List (List PanelLine) → List PanelLine
  | _, [] => []
  | height, block :: rest =>
    if block.length ≤ height then block ++ visibleLines (height - block.length) rest else []

/-- The cells of a horizontal edge with a text over it. -/
def edge (style : Style) (left right : String) (width : Nat) (title : String) : List Cell :=
  let written := (title.toList.take width).map (fun c => String.singleton c)
  let symbols := written ++ List.replicate (width - written.length) "─"
  (left :: symbols ++ [right]).map (fun symbol => ⟨symbol, style⟩)

/-- The cells of a panel that is `width + 2` cells wide and `height + 2` cells high. -/
def rows (p : Panel) (width height : Nat) : List (List Cell) :=
  let side : Cell := ⟨"│", p.border⟩
  let inner := (visibleLines height p.blocks).map (lineCells width)
  let blank := List.replicate (height - inner.length) (blankRow width p.interior)
  edge p.border "┌" "┐" width p.title ::
    (inner ++ blank).map (fun cells => side :: cells ++ [side]) ++
    [edge p.border "└" "┘" width ""]

end Panel

/-- What a terminal shows of a row of cells. A symbol of several cells covers the cell after its
    own. The flag tells whether the first cell is covered by the one before it. -/
def covered : Bool → List Cell → List Cell
  | _, [] => []
  | isCovered, cell :: rest =>
    (if isCovered then {} else cell) :: covered (1 < Text.width cell.symbol.toList) rest

namespace Debugger

/-- The style of a line of the listing. -/
def lineStyle (d : Debugger) (line : ListingLine) : Style :=
  if line.current then { color := .yellow, bold := true }
  else if d.breakpoints.contains line.address then { color := .red }
  else if line.text = "--" then { color := .darkGray }
  else {}

/-- The panel with the control store around the micro-program counter. -/
def listingPanel (d : Debugger) (height : Nat) : Panel where
  title := " Microcode "
  border := { color := .cyan }
  blocks := (d.listing height).map fun line =>
    let marked := (if d.breakpoints.contains line.address then "● " else "  ") ++
      (if line.current then "▶ " else "  ") ++ Text.hexByte line.address ++ ": " ++ line.text
    (Text.shownLines marked.toList).map fun text => {
      style := d.lineStyle line
      spans := [{ text := String.ofList text }] }

/-- The panel with the notice. -/
def noticePanel (d : Debugger) : Panel where
  title := " Status "
  border := { color := .white }
  interior := { color := .white }
  blocks := [[{ style := { color := .white }, spans := [{ text := d.notice.text }] }]]

/-- Whether a register differs from what it held before the last executed word. -/
def changed (d : Debugger) (r : Register) : Bool :=
  match d.previous with
  | some before => before.get r != d.machine.registers.get r
  | none => false

/-- A byte as eight binary digits. -/
def binary (b : UInt8) : String :=
  String.ofList ((List.range 8).map (fun i => if b.toNat.testBit (7 - i) then '1' else '0'))

/-- The panel with the registers. Those that the last word changed stand out. -/
def registerPanel (d : Debugger) : Panel where
  title := " Registers  PC=" ++ Text.hexPair d.machine.registers.pc ++ " MAR=" ++
    Text.hexPair d.machine.registers.mar ++ " "
  border := { color := .green }
  blocks := d.machine.registers.entries.map fun (r, value) => [{
    spans := [
      { text := Text.padRight 6 r.name },
      { text := Text.hexByte value
        style := some (if d.changed r then { color := .yellow, bold := true }
          else { color := .white }) },
      { text := "  " ++ binary value }] }]

/-- The name of a flag, lit or dark. -/
def flagSpan (name : String) (flag : Bool) : Span where
  text := name ++ " "
  style := some (if flag then { color := .green, bold := true } else { color := .darkGray })

/-- The panel with the sequencer and the status word. -/
def sequencerPanel (d : Debugger) : Panel :=
  let s := d.machine.sequencer
  let status := d.machine.status
  { title := " Sequencer "
    border := { color := .magenta }
    blocks := [[
      { spans := [
        { text := "MPC: " },
        { text := Text.hexByte s.mpc, style := some { color := .yellow } },
        { text := "   MUX: " ++ Text.hexByte s.mux ++ "   MRTN: " ++ Text.hexByte s.mrtn }] },
      { spans := [{ text := "Pipeline  W:" ++ Text.hexCode s.pipeline.write ++
        " R:" ++ Text.hexCode s.pipeline.read ++ " ALU:" ++ Text.hexCode s.pipeline.alu ++
        " J:" ++ Text.hexCode s.pipeline.jump }] },
      { spans := [
        { text := "Status: " },
        flagSpan "P" status.positive,
        flagSpan "Z" status.zero,
        flagSpan "N" status.negative,
        flagSpan "C" status.carry,
        flagSpan "/CDAV" status.dataNotAvailable] },
      { spans := [
        { text := "Cycles: " },
        { text := toString d.machine.cycles.toNat, style := some { color := .cyan } }] }]] }

/-- The panel with the keys. -/
def helpPanel : Panel :=
  let style : Style := { color := .darkGray }
  { title := " Help "
    border := style
    interior := style
    blocks := [[
      { style, spans := [{ text := "s: Step  r: Run  p: Pause  b: Breakpoint" }] },
      { style, spans := [{ text := "d: Toggle /CDAV  x: Reset  q: Quit" }] }]] }

/-- The cells of a screen, row by row. The width is a multiple of ten and the height at least
    twenty-eight. A screen without columns shows nothing of the panels' edges. -/
def screen (d : Debugger) (width height : Nat) : List (List Cell) :=
  let left := width * 6 / 10
  let right := width - left
  let leftRows := (d.listingPanel (height - 5)).rows (left - 2) (height - 5) ++
    d.noticePanel.rows (left - 2) 1
  let rightRows := d.registerPanel.rows (right - 2) 13 ++
    d.sequencerPanel.rows (right - 2) (height - 22) ++ helpPanel.rows (right - 2) 3
  (leftRows.zipWith (· ++ ·) rightRows).map (fun row => covered false (row.take width))

end Debugger

end Microcode
