/-
Recall.Settings.Format — settings files are YAML.
-/
import Recall.Settings.File
import Recall.Yaml.Value
import Recall.Yaml.Writer

namespace Recall

namespace Settings

/-- YAML, read with collections nested at most `depth` deep. -/
def yaml (depth : Nat) : Codec Yaml.Error where
  write? := Yaml.write?
  read := Yaml.read depth

end Settings

end Recall
