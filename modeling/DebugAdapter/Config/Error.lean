import DebugAdapter.Config.File
import DebugAdapter.Json.Mismatch
import DebugAdapter.Path.Glob

/-!
Reasons for which a configuration is refused.
-/

namespace DebugAdapter.Config

inductive MapFault where
  | emptyServer
  | emptyClient
  | manyStars
  | starOnOneSide
  deriving DecidableEq, Repr

inductive Error where
  | unreadable (path : String) (fault : ReadFault)
  /-- The document is not well-formed. -/
  | document
  | invalid (mismatch : Json.Mismatch)
  | notAnObject
  | sourceMap (server : String) (fault : MapFault)
  | skipPattern (pattern : String) (fault : Path.Glob.Fault)
  | exceptionFilter (name : String)
  deriving DecidableEq, Repr

def MapFault.text : MapFault → String
  | .emptyServer => "server prefix is empty"
  | .emptyClient => "client prefix is empty"
  | .manyStars => "at most one '*' is allowed"
  | .starOnOneSide => "'*' must appear on both sides"

def Error.message : Error → String
  | .unreadable path fault => "failed to read '" ++ path ++ "': " ++ fault.message
  | .document => "invalid toml configuration"
  | .invalid mismatch => "invalid configuration: " ++ mismatch.message
  | .notAnObject => "configuration must be an object"
  | .sourceMap server fault => "invalid source map '" ++ server ++ "': " ++ fault.text
  | .skipPattern pattern fault => "invalid skip pattern '" ++ pattern ++ "': " ++ fault.message
  | .exceptionFilter name => "unknown exception filter '" ++ name ++ "'"

end DebugAdapter.Config
