import FunctionManifest.Manifest.Output
import FunctionManifest.Manifest.Stack

/-!
# Flags

The flags of the command line. A level is the program itself or its only command; each level has its
own flags, its usage and its help.
-/

namespace FunctionManifest.Command

inductive Level where
  | program
  | manifest
  deriving DecidableEq, Inhabited, Repr

inductive Flag where
  | help
  | verbose
  | format
  | entryFile
  | specVersion
  | noParams
  deriving DecidableEq, Inhabited, Repr

namespace Flag

def names : Flag → List String
  | .help => ["-h", "--help"]
  | .verbose => ["-v", "--verbose"]
  | .format => ["--format"]
  | .entryFile => ["--entry-file"]
  | .specVersion => ["--spec-version"]
  | .noParams => ["--no-params"]

def label (flag : Flag) : String := "/".intercalate flag.names

def takesValue : Flag → Bool
  | .format | .entryFile | .specVersion => true
  | .help | .verbose | .noParams => false

end Flag

namespace Level

def label : Level → String
  | .program => "funcstack"
  | .manifest => "funcstack manifest"

def flags : Level → List Flag
  | .program => [.help, .verbose]
  | .manifest => [.help, .format, .entryFile, .specVersion, .noParams]

/-- The flags of a level under each of their names. -/
def names (level : Level) : List (String × Flag) :=
  level.flags.flatMap fun flag => flag.names.map fun name => (name, flag)

/-- The flag of a whole name. -/
def flag? (level : Level) (name : Text) : Option Flag :=
  (level.names.find? fun entry => name = Text.ofString entry.1).map (·.2)

def usage : Level → String
  | .program => "usage: funcstack [-h] [-v] \x7bmanifest\x7d ...\n"
  | .manifest =>
    "usage: funcstack manifest [-h] [--format \x7bjson,yaml\x7d]\n" ++
    "                          [--entry-file ENTRY_FILE]\n" ++
    "                          [--spec-version SPEC_VERSION] [--no-params]\n" ++
    "                          [source]\n"

def help : Level → String
  | .program =>
    usage .program ++ "\n" ++
    "funcstack — discover deployable functions and emit their manifest.\n\n" ++
    "positional arguments:\n" ++
    "  \x7bmanifest\x7d\n" ++
    "    manifest     Print the deployment manifest for a function source\n\n" ++
    "options:\n" ++
    "  -h, --help     show this help message and exit\n" ++
    "  -v, --verbose  Log discovery details to stderr\n"
  | .manifest =>
    usage .manifest ++ "\n" ++
    "positional arguments:\n" ++
    "  source                Function source: a .py file, a package, or a directory\n" ++
    "                        with main.py\n\n" ++
    "options:\n" ++
    "  -h, --help            show this help message and exit\n" ++
    "  --format \x7bjson,yaml\x7d  Output format (default: json)\n" ++
    "  --entry-file ENTRY_FILE\n" ++
    "                        Entry module looked up in a non-package directory\n" ++
    "                        (default: main.py)\n" ++
    "  --spec-version SPEC_VERSION\n" ++
    "                        Manifest spec version (default: " ++ latestSpecVersion ++ ")\n" ++
    "  --no-params           Omit declared params from the manifest\n"

end Level

end FunctionManifest.Command
