/-!
# TOML values

The value of a configuration text. Tables keep the order in which their members were stated.

## Main definitions

* `Toml` — values.
-/

namespace MeshControl

inductive Toml where
  | string (s : String)
  | integer (n : Int)
  /-- A number with a fraction or an exponent, or one that is not finite, as it is written. -/
  | float (text : String)
  | boolean (b : Bool)
  /-- A date, a time or both, as it is written. -/
  | moment (text : String)
  | array (items : List Toml)
  | table (members : List (String × Toml))
  deriving Inhabited

end MeshControl
