/-!
# TOML values

The values of a TOML document. Integers are exact; floats and date-times are kept as written,
since no setting or rule has a field of either kind.
-/

namespace ProxyKeeper.Toml

/-- A TOML value. -/
inductive Value where
  | string (text : String)
  | integer (value : Int)
  | float (literal : String)
  | boolean (value : Bool)
  | dateTime (literal : String)
  | array (items : List Value)
  | table (members : List (String × Value))
deriving Inhabited

end ProxyKeeper.Toml
