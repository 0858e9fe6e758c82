/-!
# TOML values

The tables of a document keep their keys in the order in which they came to stand there.
-/

namespace ClusterNet.Toml

inductive Value where
  | string (s : String)
  | integer (n : Int)
  /-- A number with a fraction or an exponent, as it is written, or a special one. -/
  | float (literal : String)
  | boolean (b : Bool)
  /-- A date, a time, or both, in its usual text. -/
  | moment (text : String)
  | array (items : List Value)
  | table (entries : List (String × Value))
  deriving Inhabited

end ClusterNet.Toml
