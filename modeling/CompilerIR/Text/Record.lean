/-!
Texts put together from the texts of parts.
-/

namespace CompilerIR.Text

def boolean (value : Bool) : String := if value then "true" else "false"

def list (entries : List String) : String := "[" ++ ", ".intercalate entries ++ "]"

def record (name : String) (parts : List (String × String)) : String :=
  let texts := parts.map fun (part, text) => part ++ ": " ++ text
  name ++ " \x7b " ++ ", ".intercalate texts ++ " \x7d"

end CompilerIR.Text
