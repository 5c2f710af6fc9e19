import SiteCompiler.Decimal.Binary64
set_option autoImplicit false

/-! # TOML values

What a configuration file says, as a tree of values. The fields of a table stand in the order in
which they were defined. Of a date or time only that it is one is kept.
-/

namespace SiteCompiler.Toml

/-- A value in a configuration file. -/
inductive Value where
  | string (text : String)
  | integer (n : Int)
  | float (x : Decimal.Binary64)
  | boolean (b : Bool)
  | dateTime
  | array (elements : List Value)
  | table (fields : List (String × Value))

end SiteCompiler.Toml
