import Botwright.Spec.Reader
import Botwright.Yaml.Shape
/-!
# Specifications as text

A specification may be read from a text at once. Then every scalar is good for a text field,
whatever it looks like; only the actions are read as values of their own types.
-/
namespace Botwright

namespace Topic

def shape : Yaml.Shape :=
  .record [("name", .text), ("description", .nullable .text),
    ("triggers", .nullable (.record [("phrases", .list .text)])),
    ("actions", .nullable (.list .value))]

end Topic

namespace Metadata

def shape : Yaml.Shape :=
  .record (["language", "cloud", "version", "description"].map (·, .nullable .text))

end Metadata

namespace Security

def shape : Yaml.Shape :=
  .record [("authentication", .nullable (.record [("mode", .nullable .text)]))]

end Security

namespace Agent

def shape : Yaml.Shape :=
  .record [("name", .nullable .text), ("instructions", .nullable .text),
    ("greeting", .nullable .text), ("fallbackMessage", .nullable .text),
    ("escalationMessage", .nullable .text), ("capabilities", .nullable (.list .text)),
    ("metadata", .nullable Metadata.shape), ("security", .nullable Security.shape),
    ("topics", .nullable (.list Topic.shape))]

/-- The specification that a text holds. -/
def ofYaml? (text : String) : Option Agent :=
  (shape.read? text).bind fun v => (ofJson v).toOption

end Agent
end Botwright
