import BuildPlan.Assoc
import BuildPlan.Checksum.Crc32
import BuildPlan.Error
import BuildPlan.Text.Hex
import BuildPlan.Text.Order

/-!
# Flag values as texts

Flag arguments of a command line become a table of texts, and a table of texts becomes the hash that names a
configuration. `hashInput` is the text that the hash is made of.
-/

namespace BuildPlan

/-- One value of a configuration as the hash sees it. -/
def hashEntry (entry : String × String) : String := entry.1 ++ "=" ++ entry.2

/-- The text that the hash of a configuration is made of. The order of the values does not matter. -/
def hashInput (values : List (String × String)) : String :=
  "#".intercalate (Text.sortTexts (values.map hashEntry))

/-- The checksum of a text in eight hexadecimal digits. -/
def hexChecksum (text : String) : String :=
  String.ofList ((Text.hexPadded 8 (Checksum.crc32 (Checksum.utf8 text)).toNat).map Char.toUpper)

/-- The hash of a configuration. -/
def configHash (values : List (String × String)) : String := hexChecksum (hashInput values)

/-- The name and the value of a flag argument. A name alone stands for the value `true`. -/
def splitFlagArgument (argument : String) : Except Cause (String × String) :=
  let chars := argument.toList
  let name := chars.takeWhile (· ≠ '=')
  if name = [] then .error (.invalidFlagArgument argument)
  else
    match chars.dropWhile (· ≠ '=') with
    | [] => .ok (argument, "true")
    | _ :: value => .ok (String.ofList name, String.ofList value)

/-- The table of flag arguments; of two values for a name the later counts. -/
def parseFlagArguments (arguments : List String) : Except Cause (Assoc String String) := do
  return Assoc.ofList (← arguments.mapM splitFlagArgument)

end BuildPlan
