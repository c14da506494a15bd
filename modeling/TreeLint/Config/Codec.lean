import TreeLint.Value.Display
import TreeLint.Yaml.Read
import TreeLint.Yaml.Write

/-!
# The library for configuration files

Values are written to files and read from them by a library. What is done with a configuration is
the same for every one (`Codec`). The one that comes with the tool (`Codec.yaml`) writes values of
the plain kinds only, and of these none that holds a whole number too long to be shown.
-/

namespace TreeLint

/-- A library that writes values to files and reads them. -/
structure Codec where
  /-- The characters that stand for a value, unless it cannot be written. -/
  write : Value → Option Text
  /-- The value in a file. -/
  read : List UInt8 → Except Yaml.Fault Value

/-- The bytes of a file with the characters of a text. -/
def Text.fileBytes (t : Text) : ByteArray := (String.ofList t).toUTF8

/-- The library for YAML. -/
def Codec.yaml : Codec where
  write v :=
    if v.allScalars fun s => s.isShowable && s.isPlain then some (Yaml.write v) else none
  read := Yaml.read

end TreeLint
