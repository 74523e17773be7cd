import CapabilityPipeline.Execution.Settings
import CapabilityPipeline.Files.Tree

/-!
# Settings files

Settings may be kept in a file. What the file leaves out has its default.

Results:

* `Settings.load`: the settings that a file holds.
-/

namespace CapabilityPipeline

/-- Model of `ConfigError`: why settings cannot be had. -/
inductive SettingsError where
  | io (path : String) (error : FileError)
  | json (path : String) (error : Json.DataError)
  | invalid (setting : InvalidSetting)
  deriving DecidableEq

/-- The wording of settings that cannot be had. -/
def SettingsError.message : SettingsError → String
  | io path error => s!"cannot read config {path}: {error.message}"
  | json path error => s!"invalid config {path}: {error.message}"
  | invalid setting => setting.message

/-- Model of `load`: the settings that a file holds. -/
def Settings.load (files : FileTree) (path : String) : Except SettingsError Settings :=
  match files.read path with
  | .error e => .error (.io path e)
  | .ok content => (Json.decode Settings.shape Settings.ofTree? content).mapError (.json path)

end CapabilityPipeline
