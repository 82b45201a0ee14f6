/-!
# TOML documents as values

A document is a table of values. Of the scalars only strings and integers keep their content here; booleans, floating point numbers, dates and times are one kind.
-/

namespace LoadGenerator

inductive TomlValue where
  | string (s : String)
  | integer (n : Int)
  | otherScalar
  | array (items : List TomlValue)
  | table (entries : List (String × TomlValue))

instance : Inhabited TomlValue := ⟨.otherScalar⟩

end LoadGenerator
