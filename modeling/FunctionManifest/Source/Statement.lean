import FunctionManifest.Language.Term
import FunctionManifest.Source.Node

/-!
# Function sources

A source is a list of statements that run from top to bottom: assignments to its globals, imports,
failures, and snippets that only matter for how the source is executed.
-/

namespace FunctionManifest

inductive Snippet where
  | await
  | asyncFor
  | asyncWith
  | asyncList
  | awaitInIf
  | awaitInTry
  | asyncGenerator
  | awaitInAsyncFunction
  | asyncForInAsyncFunction
  | listComprehension
  | awaitInDefault
  | awaitInLambda
  | awaitInClass
  | unreadable
  deriving DecidableEq, Inhabited, Repr

namespace Snippet

def label : Snippet → String
  | .await => "await"
  | .asyncFor => "async_for"
  | .asyncWith => "async_with"
  | .asyncList => "async_listcomp"
  | .awaitInIf => "await_in_if"
  | .awaitInTry => "await_in_try"
  | .asyncGenerator => "async_genexp"
  | .awaitInAsyncFunction => "await_in_async_def"
  | .asyncForInAsyncFunction => "async_for_in_async_def"
  | .listComprehension => "listcomp"
  | .awaitInDefault => "await_in_default"
  | .awaitInLambda => "await_in_lambda"
  | .awaitInClass => "await_in_class"
  | .unreadable => "syntax_error"

def all : List Snippet :=
  [.await, .asyncFor, .asyncWith, .asyncList, .awaitInIf, .awaitInTry, .asyncGenerator,
    .awaitInAsyncFunction, .asyncForInAsyncFunction, .listComprehension, .awaitInDefault,
    .awaitInLambda, .awaitInClass, .unreadable]

def ofLabel? (label : Text) : Option Snippet := all.find? (label = ·.label)

def leaf (label : String) : Node := .mk (.other label) []

def expression (node : Node) : Node := .mk (.other "Expr") [node]

def assignment (node : Node) : Node := .mk (.other "Assign") [leaf "Name", node]

def awaiting : Node := .mk .await [leaf "Call"]

def eachItem (isAsync : Bool) : Node :=
  .mk (.comprehension isAsync) [leaf "Name", leaf "Call"]

/-- The syntax tree of the snippet; none if it has none. -/
def tree? : Snippet → Option Node
  | .await => some (expression awaiting)
  | .asyncFor => some (.mk .asyncFor [leaf "Name", leaf "Call", leaf "Pass"])
  | .asyncWith => some (.mk .asyncWith [.mk (.other "withitem") [leaf "Call"], leaf "Pass"])
  | .asyncList => some (assignment (.mk (.other "ListComp") [leaf "Name", eachItem true]))
  | .awaitInIf => some (.mk (.other "If") [leaf "Constant", expression awaiting])
  | .awaitInTry => some (.mk (.other "Try") [expression awaiting, leaf "Pass"])
  | .asyncGenerator => some (assignment (.mk .generator [leaf "Name", eachItem true]))
  | .awaitInAsyncFunction =>
    some (.mk .asyncFunction [.mk .arguments [], expression awaiting])
  | .asyncForInAsyncFunction =>
    some (.mk .asyncFunction
      [.mk .arguments [], .mk .asyncFor [leaf "Name", leaf "Call", leaf "Pass"]])
  | .listComprehension => some (assignment (.mk (.other "ListComp") [leaf "Name", eachItem false]))
  | .awaitInDefault => some (.mk .function [.mk .arguments [leaf "arg", awaiting], leaf "Pass"])
  | .awaitInLambda => some (assignment (.mk .lambda [.mk .arguments [], awaiting]))
  | .awaitInClass => some (.mk .classBody [expression awaiting])
  | .unreadable => none

end Snippet

inductive Statement where
  | assign (name : Text) (value : Term)
  | delete (name : Text)
  | importModule (path : Text) (alias? : Option Text)
  /-- Each name with the one it is bound to. -/
  | importFrom (path : Text) (names : List (Text × Text))
  | fail (kind : FailureKind) (text : Text)
  | snippet (s : Snippet)
  deriving Inhabited

/-- The syntax tree of a statement, as far as it matters for suspending. -/
def Statement.tree? : Statement → Option Node
  | .snippet s => s.tree?
  | _ => some (Snippet.leaf "Expr")

inductive ModuleFormat where
  | sync
  | async
  deriving DecidableEq, Inhabited, Repr

def ModuleFormat.label : ModuleFormat → String
  | .sync => "sync"
  | .async => "async"

/-- The syntax tree of a source that can be read. -/
def sourceTree (statements : List Statement) : Except Failure Node :=
  match statements.mapM Statement.tree? with
  | some children => .ok (.mk (.other "Module") children)
  | none => .error .badSyntax

def moduleFormat (tree : Node) : ModuleFormat :=
  if tree.hasTopLevelAwait then .async else .sync

/-- A coroutine may suspend outside its functions. -/
def checkCompiles (tree : Node) (format : ModuleFormat) : Except Failure Unit :=
  if tree.compiles (format = .async) false then .ok () else .error .badSyntax

end FunctionManifest
