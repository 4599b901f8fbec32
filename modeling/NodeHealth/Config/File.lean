import NodeHealth.Config.Document
import NodeHealth.FileTree
import NodeHealth.Text.Utf8

/-!
# Configuration files

Loading a configuration from a file, looking for one in the usual places, and saving one.
-/

namespace NodeHealth.Config

/-- Load a configuration from a file. -/
def load (tree : FileTree) (path : String) : Except ConfigError Config :=
  if tree.contains path then
    match tree.read path with
    | .error cause => .error (.io (.ofSystem cause))
    | .ok bytes =>
        match Utf8.decode? bytes with
        | none => .error (.io (.ofSystem .invalidData))
        | some text => Config.parse text
  else .error (.notFound path)

/-- Where a configuration is looked for: in the directory of the user's settings, if there
is one, and in the working directory. -/
def searchPaths (userDirectory : Option String) : List String :=
  (userDirectory.map (· ++ "/amf-sidecar/config.toml")).toList ++
    ["./amf-sidecar.toml", "./config.toml"]

/-- Load the first configuration file that exists, or take the defaults. -/
def loadDefault (tree : FileTree) (userDirectory : Option String) : Except ConfigError Config :=
  match (searchPaths userDirectory).find? tree.contains with
  | some path => load tree path
  | none => .ok {}

/-- Save a configuration, in a directory that is created if need be. -/
def save (config : Config) (tree : FileTree) (path : String) :
    Except ConfigError Unit × FileTree :=
  match config.print with
  | .error error => (.error error, tree)
  | .ok text =>
      match tree.createParents path with
      | .error cause => (.error (.io (.ofSystem cause)), tree)
      | .ok tree =>
          match tree.write path (Utf8.encode text) with
          | .error cause => (.error (.io (.ofSystem cause)), tree)
          | .ok tree => (.ok (), tree)

end NodeHealth.Config
