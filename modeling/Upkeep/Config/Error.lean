import Upkeep.Failure.Basic

/-!
This module contains what can go wrong with configuration: documents that cannot be read, keys that
nobody configured, and files that are not there.
-/

namespace Upkeep.Config

/--
Why a file could not be read.
-/
inductive Fault where
  | notFound
  | isDirectory
  | notDirectory
  | notText
  | invalidPath
  | invalidName
  | other (message : String)
  deriving DecidableEq, Inhabited

def Fault.text : Fault → String
  | notFound => "No such file or directory (os error 2)"
  | isDirectory => "Is a directory (os error 21)"
  | notDirectory => "Not a directory (os error 20)"
  | notText => "stream did not contain valid UTF-8"
  | invalidPath => "file name contained an unexpected NUL byte"
  | invalidName => "File name too long (os error 36)"
  | other message => message

inductive ConfigError where
  | toml
  | json
  | keyNotFound (source key : String)
  | io (path : String) (fault : Fault)
  | notify (path cause : String)
  | notAFile (path : String)
  | unsupported (source operation : String)
  | watch (key : String) (cause : ConfigError)
  deriving DecidableEq, Inhabited

namespace ConfigError

def message : ConfigError → String
  | toml => "decode toml failed"
  | json => "decode json failed"
  | keyNotFound source key => "key '" ++ key ++ "' is not configured in source '" ++ source ++ "'"
  | io path _ => "read '" ++ path ++ "' failed"
  | notify path _ => "watch '" ++ path ++ "' for changes failed"
  | notAFile path => "path '" ++ path ++ "' is not a regular file"
  | unsupported source operation =>
    "config source '" ++ source ++ "' does not support " ++ operation
  | watch key _ => "watch key '" ++ key ++ "' failed"

def toFailure : ConfigError → Failure
  | io path fault => .wrapped (io path fault).message (.plain fault.text)
  | notify path cause => .wrapped (notify path cause).message (.plain cause)
  | watch key cause => .wrapped (watch key cause).message cause.toFailure
  | e => .plain e.message

end ConfigError

end Upkeep.Config
