import FunctionManifest.Text.Quoted
import FunctionManifest.Yaml.Node

/-!
# Writing YAML

Collections are laid out in blocks, empty ones in brackets, and long scalars are folded after the
eightieth column. A sheet is what has been written, with what the next mark depends on: the column,
whether a blank stands before it, and whether only marks stand before it on its line.
-/

namespace FunctionManifest.Yaml

structure Sheet where
  /-- The letters written, last first. -/
  written : Text
  column : Nat
  blank : Bool
  fresh : Bool
  deriving Inhabited

namespace Sheet

def empty : Sheet := ⟨[], 0, true, true⟩

def put (sheet : Sheet) (text : Text) : Sheet :=
  { sheet with written := text.reverse ++ sheet.written, column := sheet.column + text.length }

def blanks (sheet : Sheet) (count : Nat) : Sheet := sheet.put (List.replicate count ' ')

def lineBreak (sheet : Sheet) : Sheet :=
  { written := .char '\n' :: sheet.written, column := 0, blank := true, fresh := true }

def lineBreaks (sheet : Sheet) : Nat → Sheet
  | 0 => sheet
  | count + 1 => (sheet.lineBreaks count).lineBreak

/-- Goes to the indent, on a new line unless only marks stand before it. -/
def newIndent (sheet : Sheet) (indent : Nat) : Sheet :=
  let stays := sheet.fresh && (sheet.column < indent || (sheet.column = indent && sheet.blank))
  let sheet := if stays then sheet else sheet.lineBreak
  if sheet.column < indent then { sheet.blanks (indent - sheet.column) with blank := true }
  else sheet

/-- Folds a scalar: the next line continues it. -/
def fold (sheet : Sheet) (indent : Nat) : Sheet :=
  { sheet.newIndent indent with blank := false, fresh := false }

/-- A mark, with a blank before it unless there is one. -/
def mark (sheet : Sheet) (text : Text) (staysFresh : Bool) : Sheet :=
  let sheet' := if sheet.blank then sheet else sheet.blanks 1
  { sheet'.put text with blank := false, fresh := sheet.fresh && staysFresh }

/-- A mark directly after what stands before it. -/
def tightMark (sheet : Sheet) (text : Text) : Sheet :=
  { sheet.put text with blank := false, fresh := false }

def text (sheet : Sheet) : Text := sheet.written.reverse

end Sheet

def lastColumn : Nat := 80

/-! ## Scalars -/

/-- Blanks and line breaks that are not written yet. -/
inductive Gap where
  | none
  | blanks (count : Nat)
  | breaks (count : Nat)
  deriving DecidableEq, Inhabited

/-- Writes a gap. A single blank in a line that is too long becomes a fold. -/
def Gap.write (gap : Gap) (mayFold : Bool) (fold : Sheet → Sheet) (toIndent : Sheet → Sheet)
    (sheet : Sheet) : Sheet :=
  match gap with
  | .none => sheet
  | .blanks count =>
    if count = 1 ∧ lastColumn < sheet.column ∧ mayFold then fold sheet else sheet.blanks count
  | .breaks count => toIndent (sheet.lineBreaks (count + 1))

/-- A plain text has no line breaks and starts and ends without a blank. -/
def plainFrom (indent : Nat) (mayFold : Bool) (gap : Gap) : Text → Sheet → Sheet
  | [], sheet => gap.write mayFold (·.fold indent) (·.newIndent indent) sheet
  | c :: rest, sheet =>
    if c = ' ' then
      match gap with
      | .blanks count => plainFrom indent mayFold (.blanks (count + 1)) rest sheet
      | _ => plainFrom indent mayFold (.blanks 1) rest sheet
    else
      let sheet := gap.write mayFold (·.fold indent) (·.newIndent indent) sheet
      plainFrom indent mayFold .none rest (sheet.put [c])

def writePlain (sheet : Sheet) (indent : Nat) (mayFold : Bool) (text : Text) : Sheet :=
  if text.isEmpty then sheet
  else
    let sheet := if sheet.blank then sheet else sheet.blanks 1
    plainFrom indent mayFold .none text { sheet with blank := false, fresh := false }

/-- A quote is written twice and a line break as an empty line. The text's own first and last
blanks are never folded. -/
def singleFrom (indent : Nat) (mayFold atStart : Bool) (gap : Gap) : Text → Sheet → Sheet
  | [], sheet => gap.write false (·.newIndent indent) (·.newIndent indent) sheet
  | c :: rest, sheet =>
    let flush := gap.write (mayFold && !atStart) (·.newIndent indent) (·.newIndent indent)
    if c = ' ' then
      match gap with
      | .blanks count => singleFrom indent mayFold atStart (.blanks (count + 1)) rest sheet
      | .none => singleFrom indent mayFold atStart (.blanks 1) rest sheet
      | .breaks _ => singleFrom indent mayFold false (.blanks 1) rest (flush sheet)
    else if c = '\n' then
      match gap with
      | .breaks count => singleFrom indent mayFold atStart (.breaks (count + 1)) rest sheet
      | .none => singleFrom indent mayFold atStart (.breaks 1) rest sheet
      | .blanks _ => singleFrom indent mayFold false (.breaks 1) rest (flush sheet)
    else
      let letters : Text := if c = '\'' then [c, c] else [c]
      singleFrom indent mayFold false .none rest ((flush sheet).put letters)

def writeSingle (sheet : Sheet) (indent : Nat) (mayFold : Bool) (text : Text) : Sheet :=
  let sheet := sheet.mark ['\''] false
  (singleFrom indent mayFold true .none text sheet).tightMark ['\'']

def namedEscapes : List (Nat × Char) :=
  [(0, '0'), (7, 'a'), (8, 'b'), (9, 't'), (10, 'n'), (11, 'v'), (12, 'f'), (13, 'r'), (27, 'e'),
    (34, '"'), (92, '\\'), (0x85, 'N'), (0xa0, '_'), (0x2028, 'L'), (0x2029, 'P')]

def upperHex (width code : Nat) : List Char := (Text.hexDigits width code).map Char.toUpper

/-- The escape of a letter, if it has to be written as one. -/
def escape? (c : Letter) : Option Text :=
  if isPlainLetter c ∧ c ≠ '"' ∧ c ≠ '\\' then none
  else
    some (.ofChars (match namedEscapes.lookup c.code with
      | some name => ['\\', name]
      | none =>
        if c.code < 0x100 then '\\' :: 'x' :: upperHex 2 c.code
        else if c.code < 0x10000 then '\\' :: 'u' :: upperHex 4 c.code
        else '\\' :: 'U' :: upperHex 8 c.code))

/-- A backslash ends a folded line, and another one keeps a blank at the start of the next. -/
def foldDouble (sheet : Sheet) (indent : Nat) (next : Option Letter) : Sheet :=
  let sheet := (sheet.put ['\\']).fold indent
  if next = some (.char ' ') then sheet.put ['\\'] else sheet

/-- Folds before a blank and around escapes, but not at the ends of the text. -/
def doubleFrom (indent : Nat) (mayFold atStart afterEscape : Bool) :
    Text → Sheet → Sheet
  | [], sheet => sheet
  | c :: rest, sheet =>
    let inner := mayFold && !atStart && !rest.isEmpty
    match escape? c with
    | some escape =>
      let sheet := sheet.put escape
      let sheet :=
        if inner && lastColumn + 1 < sheet.column then foldDouble sheet indent rest.head?
        else sheet
      doubleFrom indent mayFold false true rest sheet
    | none =>
      let sheet :=
        if inner && (c = ' ' || afterEscape) && lastColumn < sheet.column then
          foldDouble sheet indent (some c)
        else sheet
      doubleFrom indent mayFold false false rest (sheet.put [c])

def writeDouble (sheet : Sheet) (indent : Nat) (mayFold : Bool) (text : Text) : Sheet :=
  let sheet := sheet.mark ['"'] false
  (doubleFrom indent mayFold true false text sheet).tightMark ['"']

/-- The keys of a block are written on one line, so they are not folded. -/
def writeScalar (sheet : Sheet) (indent : Nat) (simpleKey : Bool) (scalar : Scalar) : Sheet :=
  match scalar.style simpleKey with
  | .plain => writePlain sheet indent (!simpleKey) scalar.text
  | .single => writeSingle sheet indent (!simpleKey) scalar.text
  | .double => writeDouble sheet indent (!simpleKey) scalar.text

/-! ## Blocks -/

/-- What a node stands in. -/
inductive Place where
  | root
  | item
  | entry
  deriving DecidableEq, Inhabited

/-- How far the parts of a block stand to the right. A list that is the value of an entry is not
moved. -/
def blockIndent (outer : Option Nat) (keeps : Bool) : Nat :=
  match outer with
  | none => 0
  | some indent => if keeps then indent else indent + 2

def scalarIndent (outer : Option Nat) : Nat := outer.elim 2 (· + 2)

/-- The name that aliases refer to a node by, before the node itself. -/
def writeAnchor (anchors : Anchors) (address : Option Nat) (sheet : Sheet) : Sheet :=
  match address.bind anchors.name? with
  | some name => sheet.mark (.char '&' :: name) false
  | none => sheet

def writeAlias (anchors : Anchors) (address : Nat) (sheet : Sheet) : Sheet :=
  sheet.mark (.char '*' :: (anchors.name? address).getD []) false

/-- A key that stands on one line with its value. -/
def Node.isSimpleKey : Node → Bool
  | .scalar s => s.isSimpleKey
  | .alias _ | .list _ [] | .mapping _ [] => true
  | _ => false

mutual

def writeNode (anchors : Anchors) (place : Place) (outer : Option Nat) (simpleKey : Bool)
    (sheet : Sheet) : Node → Sheet
  | .scalar s => writeScalar sheet (scalarIndent outer) simpleKey s
  | .alias address => writeAlias anchors address sheet
  | .list address items =>
    let sheet := writeAnchor anchors address sheet
    if items.isEmpty then (sheet.mark "[" false).tightMark "]"
    else
      writeItems anchors (blockIndent outer (place = .entry && !sheet.fresh)) sheet items
  | .mapping address entries =>
    let sheet := writeAnchor anchors address sheet
    if entries.isEmpty then (sheet.mark "\x7b" false).tightMark "\x7d"
    else writeEntries anchors (blockIndent outer false) sheet entries

def writeItems (anchors : Anchors) (indent : Nat) (sheet : Sheet) : List Node → Sheet
  | [] => sheet
  | node :: rest =>
    let sheet := (sheet.newIndent indent).mark "-" true
    writeItems anchors indent (writeNode anchors .item (some indent) false sheet node) rest

def writeEntries (anchors : Anchors) (indent : Nat) (sheet : Sheet) :
    List (Node × Node) → Sheet
  | [] => sheet
  | (key, node) :: rest =>
    let sheet := sheet.newIndent indent
    let sheet :=
      if key.isSimpleKey then
        (writeNode anchors .entry (some indent) true sheet key).tightMark ":"
      else
        let sheet := writeNode anchors .entry (some indent) false (sheet.mark "?" true) key
        (sheet.newIndent indent).mark ":" true
    writeEntries anchors indent (writeNode anchors .entry (some indent) false sheet node) rest

end

/-- A document that is a plain scalar is closed by a mark. -/
def Node.isOpen : Node → Bool
  | .scalar s => s.style false = .plain
  | _ => false

def writeDocument (node : Node) : Text :=
  let sheet := (writeNode (.ofNode node) .root none false .empty node).newIndent 0
  let sheet := if node.isOpen then (sheet.mark "..." false).newIndent 0 else sheet
  sheet.text

def write (heap : Heap) (v : Value) : Except Failure Text :=
  return writeDocument (← Node.ofValue heap v)

end FunctionManifest.Yaml
