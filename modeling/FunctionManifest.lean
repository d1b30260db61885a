import FunctionManifest.Main
import FunctionManifest.Proofs.Discovery.Keys
import FunctionManifest.Proofs.Expression.Choice
import FunctionManifest.Proofs.Expression.Reading
import FunctionManifest.Proofs.Loading.Manifest
import FunctionManifest.Proofs.Path.Filling
import FunctionManifest.Proofs.Registry.Contents
import FunctionManifest.Proofs.Registry.Scoping
import FunctionManifest.Proofs.Language.Binding
import FunctionManifest.Proofs.Command.Outcome
import FunctionManifest.Proofs.Session.Reaching
import FunctionManifest.Proofs.Wire.Plain
import FunctionManifest.Proofs.Wire.Kept
import FunctionManifest.Proofs.Wire.Conversion
import FunctionManifest.Proofs.Wire.Endpoint
import FunctionManifest.Proofs.Wire.Stack
import FunctionManifest.Proofs.Path.Alignment
import FunctionManifest.Proofs.Path.Extracting
import FunctionManifest.Proofs.Session.Lasting
import FunctionManifest.Proofs.Path.Equality
import FunctionManifest.Proofs.Discovery.Stops
import FunctionManifest.Proofs.Discovery.InStep
import FunctionManifest.Proofs.Discovery.EntryPoints
import FunctionManifest.Proofs.Path.Capturing
import FunctionManifest.Proofs.Trigger.Filters
import FunctionManifest.Proofs.Trigger.Options
import FunctionManifest.Proofs.Trigger.Attaching
import FunctionManifest.Proofs.Wire.Sparing
import FunctionManifest.Proofs.Wire.Layout
import FunctionManifest.Proofs.Wire.Attached
import FunctionManifest.Proofs.Wire.Deferred
import FunctionManifest.Proofs.Wire.Filtered
import FunctionManifest.Proofs.Wire.Interchange
import FunctionManifest.Proofs.Param.Document
import FunctionManifest.Proofs.Source.Bodies
import FunctionManifest.Proofs.Param.Integer
import FunctionManifest.Proofs.Param.Listing
import FunctionManifest.Proofs.Manifest.Merging
import FunctionManifest.Proofs.Loading.History
