import FunctionManifest.Assoc
import FunctionManifest.Path.Segment

/-!
# Path patterns

A pattern is a template together with its segments. The first segment that may span several divides
it: the segments before are paired with a path from its start, those after from its end, and what
lies between is bound to the dividing one. Literals are not compared with the path.
-/

namespace FunctionManifest

/-- Segments as far as a template is compiled, and the place of the one that divides paths. -/
structure Compiled where
  segments : List Segment
  divider? : Option Nat
  deriving DecidableEq, Inhabited, Repr

namespace Compiled

def empty : Compiled := ⟨[], none⟩

/-- Compiles one more part. Only the first spanning segment divides a path. A later capture of that
kind is literal. -/
def add (before : Compiled) (part : Text) : Compiled :=
  let segment := Segment.ofPart part
  if segment.spansMany then
    match before.divider? with
    | none => ⟨before.segments ++ [segment], some before.segments.length⟩
    | some k => ⟨before.segments ++ [segment.demoted part], some k⟩
  else ⟨before.segments ++ [segment], before.divider?⟩

def ofParts (parts : List Text) : Compiled := parts.foldl add empty

end Compiled

structure Pattern where
  template : Text
  deriving DecidableEq, Inhabited, Repr

namespace Pattern

def compiled (pattern : Pattern) : Compiled := .ofParts (splitPath pattern.template)

def segments (pattern : Pattern) : List Segment := pattern.compiled.segments

/-- The place of the segment that divides paths. -/
def divider? (pattern : Pattern) : Option Nat := pattern.compiled.divider?

def captureNames (pattern : Pattern) : List Text :=
  pattern.segments.filterMap Segment.captureName?

def hasCaptures (pattern : Pattern) : Bool :=
  pattern.segments.any fun segment => segment.captureName?.isSome

/-- An exact comparison is not enough to match the pattern. -/
def hasWildcards (pattern : Pattern) : Bool :=
  pattern.segments.any fun
    | .literal text => Segment.isWildcard text
    | _ => true

/-- Patterns are equal if their segments are, whatever their templates. -/
def same (p q : Pattern) : Bool := p.segments == q.segments

/-! ## Matching -/

/-- Pairs each segment with one part, as far as both reach. -/
def oneEach (segments : List Segment) (parts : List Text) : List (Segment × List Text) :=
  (segments.zip parts).map fun pair => (pair.1, [pair.2])

/-- The segments that are aligned with the parts, in template order, each with its block. -/
def blocks (pattern : Pattern) (parts : List Text) : List (Segment × List Text) :=
  match pattern.divider? with
  | none => oneEach pattern.segments parts
  | some k =>
    let head := pattern.segments.take k
    let tail := pattern.segments.drop (k + 1)
    let rest := parts.drop k
    -- On a short path the first segments of the tail have no part of their own.
    let tailBlocks := oneEach (tail.drop (tail.length - rest.length))
      (rest.drop (rest.length - tail.length))
    let middle := rest.take (rest.length - tail.length)
    let middleBlocks :=
      if middle = [] then [] else (pattern.segments.drop k).head?.toList.map (·, middle)
    oneEach head parts ++ middleBlocks ++ tailBlocks

def binding? (block : Segment × List Text) : Option (Text × Text) :=
  block.1.captureName?.map (·, Text.join "/" block.2)

/-- The captures bound by a path. Of two captures with one name the later gives the value. -/
def extractMatches (pattern : Pattern) (path : Text) : List (Text × Text) :=
  Assoc.ofList ((pattern.blocks (splitPath path)).filterMap binding?)

end Pattern

end FunctionManifest
